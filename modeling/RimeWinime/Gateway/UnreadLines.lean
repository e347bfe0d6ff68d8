import Mathlib.Data.List.Infix
import RimeWinime.Gateway.LegacyWire

namespace RimeWinime.UnreadLines

open World Worker Backends LegacyTcpRuntime LegacyWire LegacyTalk

/-- No part of the line that may be left of it passes for the answer to a request. -/
def Quiet (body : List UInt8) : Prop :=
  ∀ part ∈ body.tails, ∀ expected ∈ requestKinds, (lineOf part).startsWith expected = false

instance (body : List UInt8) : Decidable (Quiet body) :=
  inferInstanceAs (Decidable (∀ part ∈ body.tails, ∀ expected ∈ requestKinds,
    (lineOf part).startsWith expected = false))

def codepageCommand (codepage : Int) : String := "CP " ++ toString codepage

/-- What the host can receive while the runtime sets up the talk: a command of it, or
what is left of one that was cut off with `ACTIVATE` after it. -/
def SetupLine (codepage : Int) (line : List Char) : Prop :=
  ∃ cp rest, cp <+: (codepageCommand codepage).toList ∧ (∀ c ∈ rest, c ∈ "ACTIVATE".toList) ∧
    line = cp ++ rest

/-- The host greets and answers with a line each, and does not answer the setting up
as it answers a request. -/
structure Orderly (codepage : Int) (server : LegacyServer) : Prop where
  greetingLine : newline ∉ server.greeting
  greeting : Quiet server.greeting
  oneLine : ∀ history, newline ∉ server.answer history
  setup : ∀ history line, SetupLine codepage line →
    Quiet (server.answer (history ++ [String.ofList line]))

/-- A line that passes for the answer to a request is the host's answer to the command
of the exchange. -/
def Paired (server : LegacyServer) (e : Exchange) (answer : List String × String) : Prop :=
  ∀ expected ∈ requestKinds, answer.2.startsWith expected = true →
    e.lines = [e.command] ∧ answer = (e.history, lineOf (server.answer e.history))

structure Sound (server : LegacyServer) (codepage : Int) (e : Exchange) : Prop where
  short : e.lines.length ≤ 1
  carried : e.carried = true → e.lines.length = 1
  itself : e.command ≠ "ACTIVATE" → e.command ≠ codepageCommand codepage →
    ∀ line ∈ e.lines, line = e.command
  paired : ∀ answer ∈ e.heard, Paired server e answer

/-- A line of the host that is read without harm, wherever it comes from. -/
def Harmless (r : Reply) : Prop :=
  ∃ body, r = ⟨r.history, body ++ [newline]⟩ ∧ newline ∉ body ∧ Quiet body

/-- On the connection there are harmless lines, and those that the runtime waits for
after them. -/
def Awaits (own : List Reply) (w : Wire) : Prop :=
  ∃ old, w.unread = old ++ own ∧ ∀ r ∈ old, Harmless r

def Logged (server : LegacyServer) (e : Exchange) (es : List Exchange) (w : Wire) : Prop :=
  ∃ heard, w.exchanges = { e with heard := heard } :: es ∧ ∀ answer ∈ heard, Paired server e answer

theorem quiet_part {body part : List UInt8} (h : Quiet body) (hpart : part <:+ body) : Quiet part := by
  intro rest hrest
  exact h rest ((List.mem_tails _ _).mpr (((List.mem_tails _ _).mp hrest).trans hpart))

theorem quiet_self {body : List UInt8} (h : Quiet body) {expected : String}
    (hexpected : expected ∈ requestKinds) : (lineOf body).startsWith expected = false :=
  h body ((List.mem_tails _ _).mpr (List.suffix_refl body)) expected hexpected

theorem harmless_part {history : List String} {body part : List UInt8} (hpart : part <:+ body)
    (hbody : newline ∉ body) (h : Quiet body) : Harmless ⟨history, part ++ [newline]⟩ :=
  ⟨part, rfl, fun hmem => hbody (hpart.subset hmem), quiet_part h hpart⟩

theorem newline_digits (n : Nat) : '\n' ∉ (toString n).toList := by
  rw [Nat.toString_eq_ofList_toDigits, String.toList_ofList]
  intro h
  have hdigit := Nat.isDigit_of_mem_toDigits (by omega) (by omega) h
  exact absurd hdigit (by decide)

theorem codepage_line (codepage : Int) : '\n' ∉ (codepageCommand codepage).toList := by
  rw [codepageCommand, String.toList_append]
  have hnumber : '\n' ∉ (toString codepage).toList := by
    cases codepage with
    | ofNat n => exact newline_digits n
    | negSucc n =>
        have hrepr : toString (Int.negSucc n) = "-" ++ toString (n + 1) := rfl
        rw [hrepr, String.toList_append]
        exact List.not_mem_append (by decide) (newline_digits _)
  exact List.not_mem_append (by decide) hnumber

theorem logged_hear {server : LegacyServer} {e : Exchange} {es : List Exchange} {w : Wire}
    (h : Logged server e es w) {answer : List String × String} (hanswer : Paired server e answer) :
    Logged server e es (w.hear answer) := by
  obtain ⟨heard, hexchanges, hpaired⟩ := h
  refine ⟨heard ++ [answer], ?_, ?_⟩
  · simp only [Wire.hear, hexchanges]
  · intro a ha
    rcases List.mem_append.mp ha with ha | ha
    · exact hpaired a ha
    · rw [List.mem_singleton.mp ha]
      exact hanswer

section

variable {server : LegacyServer} {codepage : Int}

theorem nextLine_harmless (net : Network) {e : Exchange} {es : List Exchange} {w : Wire} {r : Reply}
    {rest : List Reply} (hr : Harmless r) (hunread : w.unread = r :: rest)
    (hlog : Logged server e es w) :
    Logged server e es (nextLine net w).2 ∧ (nextLine net w).2.openLine = w.openLine ∧
      (((∃ m, (nextLine net w).1 = .error m) ∨ (nextLine net w).1 = .ok none) ∧
          (∃ r', Harmless r' ∧ (nextLine net w).2.unread = r' :: rest) ∨
        ∃ line, (nextLine net w).1 = .ok (some line) ∧
          (∀ expected ∈ requestKinds, line.startsWith expected = false) ∧
          (nextLine net w).2.unread = rest) := by
  obtain ⟨body, hr, hbody, hquiet⟩ := hr
  rw [hr] at hunread
  rcases nextLine_cases net hunread hbody with ⟨hnone, part, hpart, hleft⟩ | hread
  · rw [hleft]
    exact ⟨hlog, rfl, Or.inl ⟨hnone, _, harmless_part hpart hbody hquiet, rfl⟩⟩
  · have hvacuous : Paired server e (r.history, lineOf body) := fun expected hexpected hyes => by
      rw [quiet_self hquiet hexpected] at hyes
      cases hyes
    have hlog' : Logged server e es { w.call with unread := rest } := hlog
    rw [hread]
    refine ⟨logged_hear hlog' hvacuous, hear_openLine _ _, Or.inr ⟨_, rfl, ?_, hear_unread _ _⟩⟩
    exact fun expected hexpected => quiet_self hquiet hexpected

theorem nextLine_own (net : Network) (hs : Orderly codepage server) {e : Exchange} {es : List Exchange}
    {w : Wire} (hunread : w.unread = [reply server e.history]) (hlines : e.lines = [e.command])
    (hlog : Logged server e es w) :
    Logged server e es (nextLine net w).2 ∧ (nextLine net w).2.openLine = w.openLine ∧
      ((∃ m, (nextLine net w).1 = .error m) ∨ (nextLine net w).1 = .ok none ∨
        ∃ line, (nextLine net w).1 = .ok (some line) ∧ (nextLine net w).2.unread = []) := by
  rcases nextLine_cases net hunread (hs.oneLine e.history) with ⟨hnone, part, -, hleft⟩ | hread
  · rw [hleft]
    exact ⟨hlog, rfl, or_assoc.mp (Or.inl hnone)⟩
  · have hpaired : Paired server e (e.history, lineOf (server.answer e.history)) :=
      fun _ _ _ => ⟨hlines, rfl⟩
    have hlog' : Logged server e es { w.call with unread := [] } := hlog
    rw [hread]
    exact ⟨logged_hear hlog' hpaired, hear_openLine _ _, Or.inr (Or.inr ⟨_, rfl, hear_unread _ _⟩)⟩

theorem nextLine_awaits (net : Network) (hs : Orderly codepage server) {e : Exchange} {es : List Exchange}
    {own : List Reply} {w : Wire}
    (hown : own = [] ∨ own = [reply server e.history] ∧ e.lines = [e.command])
    (hlog : Logged server e es w) (hwait : Awaits own w) :
    Logged server e es (nextLine net w).2 ∧ (nextLine net w).2.openLine = w.openLine ∧
      (((∃ m, (nextLine net w).1 = .error m) ∨ (nextLine net w).1 = .ok none) ∧
          (own = [] → Awaits [] (nextLine net w).2) ∨
        ∃ line, (nextLine net w).1 = .ok (some line) ∧
          ((∀ expected ∈ requestKinds, line.startsWith expected = false) ∧
              Awaits own (nextLine net w).2 ∨
            Awaits [] (nextLine net w).2)) := by
  obtain ⟨old, hunread, hold⟩ := hwait
  cases old with
  | cons r old =>
      obtain ⟨hr, hold'⟩ := List.forall_mem_cons.mp hold
      obtain ⟨hlog', hopen, ⟨hnone, r', hr', hleft⟩ | ⟨line, hline, hquiet, hleft⟩⟩ :=
        nextLine_harmless net hr hunread hlog
      · refine ⟨hlog', hopen, Or.inl ⟨hnone, ?_⟩⟩
        rintro rfl
        exact ⟨r' :: old, hleft, List.forall_mem_cons.mpr ⟨hr', hold'⟩⟩
      · exact ⟨hlog', hopen, Or.inr ⟨line, hline, Or.inl ⟨hquiet, old, hleft, hold'⟩⟩⟩
  | nil =>
      rw [List.nil_append] at hunread
      rcases hown with rfl | ⟨rfl, hlines⟩
      · obtain ⟨hnone, hleft⟩ := nextLine_silent net hunread
        rw [hleft]
        exact ⟨hlog, rfl, Or.inl ⟨hnone, fun _ => ⟨[], hunread, nofun⟩⟩⟩
      · obtain ⟨hlog', hopen, ⟨m, hm⟩ | hm | ⟨line, hline, hleft⟩⟩ := nextLine_own net hs hunread hlines hlog
        · exact ⟨hlog', hopen, Or.inl ⟨Or.inl ⟨m, hm⟩, nofun⟩⟩
        · exact ⟨hlog', hopen, Or.inl ⟨Or.inr hm, nofun⟩⟩
        · exact ⟨hlog', hopen, Or.inr ⟨line, hline, Or.inr ⟨[], hleft, nofun⟩⟩⟩

theorem awaits_after {own : List Reply} {w : Wire} {line : String}
    (hread : (∀ expected ∈ requestKinds, line.startsWith expected = false) ∧ Awaits own w ∨ Awaits [] w) :
    ∃ own', (own' = own ∨ own' = []) ∧ Awaits own' w ∧
      ∀ expected ∈ requestKinds, line.startsWith expected = true → own' = [] := by
  rcases hread with ⟨hquiet, hwait⟩ | hwait
  · refine ⟨own, Or.inl rfl, hwait, fun expected hexpected hyes => ?_⟩
    cases (hquiet expected hexpected).symm.trans hyes
  · exact ⟨[], Or.inr rfl, hwait, fun _ _ _ => rfl⟩

theorem receive_awaits (net : Network) (hs : Orderly codepage server) {e : Exchange} {es : List Exchange}
    (command expected : String) (turns : Nat) (last : String) {own : List Reply} {s : Legacy Wire}
    (hown : own = [] ∨ own = [reply server e.history] ∧ e.lines = [e.command])
    (hlog : Logged server e es s.2) (hwait : Awaits own s.2) :
    ∃ result w, receive (socket server net) command expected turns last s = (result, s.1, w) ∧
      Logged server e es w ∧ w.openLine = s.2.openLine ∧
      (own = [] ∨ expected ∈ requestKinds ∧ (∃ line, result = .ok line) → Awaits [] w) := by
  induction turns generalizing own s last with
  | zero =>
      refine ⟨_, _, rfl, hlog, rfl, ?_⟩
      rintro (rfl | ⟨-, line, hline⟩)
      · exact hwait
      · cases hline
  | succ turns ih =>
      obtain ⟨hlog', hopen, hread⟩ := nextLine_awaits net hs hown hlog hwait
      rcases receive_cases (socket server net) command expected turns last s with
        ⟨hnone, m, hrun⟩ | ⟨line, hline, hrun⟩
      · refine ⟨_, _, hrun, hlog', hopen, ?_⟩
        rintro (hnil | ⟨-, line, hline⟩)
        · rcases hread with ⟨-, hwait'⟩ | ⟨line, hline, -⟩
          · exact hwait' hnil
          · rcases hnone with ⟨m, hm⟩ | hm
            · cases hm.symm.trans hline
            · cases hm.symm.trans hline
        · cases hline
      · have hleft : (∀ expected ∈ requestKinds, line.startsWith expected = false) ∧
            Awaits own (nextLine net s.2).2 ∨ Awaits [] (nextLine net s.2).2 := by
          rcases hread with ⟨⟨m, hm⟩ | hm, -⟩ | ⟨line', hline', hleft⟩
          · cases hm.symm.trans hline
          · cases hm.symm.trans hline
          · cases hline'.symm.trans hline
            exact hleft
        obtain ⟨own', hsame, hwait', hkind⟩ := awaits_after hleft
        have hstill : own = [] → own' = [] := fun hnil => hsame.elim (fun h => h.trans hnil) id
        have hown' : own' = [] ∨ own' = [reply server e.history] ∧ e.lines = [e.command] := by
          rcases hsame with rfl | rfl
          · exact hown
          · exact Or.inl rfl
        rcases hrun with ⟨next, hrun⟩ | ⟨hmatch, hrun⟩
        · obtain ⟨result, w, hrest, hlogged, hopen', hleft⟩ :=
            ih next (s := (s.1, (nextLine net s.2).2)) hown' hlog' hwait'
          refine ⟨result, w, hrun.trans hrest, hlogged, hopen'.trans hopen, fun h => hleft ?_⟩
          exact h.imp_left hstill
        · refine ⟨_, _, hrun, hlog', hopen, ?_⟩
          rintro (hnil | ⟨hexpected, -⟩)
          · rw [hstill hnil] at hwait'
            exact hwait'
          · have hyes : line.startsWith expected = true := by
              rcases hmatch with rfl | hyes
              · exact absurd hexpected (by decide)
              · exact hyes
            rw [hkind expected hexpected hyes] at hwait'
            exact hwait'

/-- What holds between two commands. While the talk is being set up the host may have
received the beginning of a command, and lines that answer the setting up may be
unread. -/
structure Good (server : LegacyServer) (codepage : Int) (s : Legacy Wire) : Prop where
  sound : ∀ e ∈ s.2.exchanges, Sound server codepage e
  configured : s.1.codepage = codepage
  awaits : s.1.connected = true → Awaits [] s.2
  openLine : s.1.connected = true → SetupLine codepage s.2.openLine
  ready : s.1.connected = true → s.1.activated = true → s.2.openLine = []

theorem sound_of_logged {e : Exchange} {es : List Exchange} {w : Wire}
    (hlog : Logged server e es w) (he : Sound server codepage e)
    (hes : ∀ e ∈ es, Sound server codepage e) : ∀ e ∈ w.exchanges, Sound server codepage e := by
  obtain ⟨heard, hexchanges, hpaired⟩ := hlog
  intro e' he'
  rw [hexchanges] at he'
  rcases List.mem_cons.mp he' with rfl | he'
  · exact ⟨he.short, he.carried, he.itself, hpaired⟩
  · exact hes e' he'

theorem logged_put (command : String) (carried : Bool) (lines : List String) (left : List Char) (w : Wire) :
    Logged server ⟨command, carried, lines, w.received ++ lines, []⟩ w.exchanges
      (put server command carried lines left w) := ⟨[], rfl, nofun⟩

theorem setup_nil : SetupLine codepage [] := ⟨[], [], List.nil_prefix, nofun, rfl⟩

theorem setup_activate {line part : List Char} (h : SetupLine codepage line)
    (hpart : part <+: "ACTIVATE".toList) : SetupLine codepage (line ++ part) := by
  obtain ⟨cp, rest, hcp, hrest, rfl⟩ := h
  refine ⟨cp, rest ++ part, hcp, ?_, List.append_assoc cp rest part⟩
  intro c hc
  rcases List.mem_append.mp hc with hc | hc
  · exact hrest c hc
  · exact hpart.subset hc

theorem setup_codepage {part : List Char} (hpart : part <+: (codepageCommand codepage).toList) :
    SetupLine codepage part := ⟨part, [], hpart, nofun, (List.append_nil part).symm⟩

theorem awaits_put (hs : Orderly codepage server) {w : Wire} (hwait : Awaits [] w) (command : String)
    (carried : Bool) {line : List Char} (hline : SetupLine codepage line) {lines : List String}
    (hlines : lines = [String.ofList line] ∨ lines = []) (left : List Char) :
    Awaits [] (put server command carried lines left w) := by
  obtain ⟨old, hunread, hold⟩ := hwait
  rw [List.append_nil] at hunread
  refine ⟨old ++ replies server w.received lines, ?_, ?_⟩
  · rw [List.append_nil, ← hunread, put]
  · intro r hr
    rcases List.mem_append.mp hr with hr | hr
    · exact hold r hr
    · rcases hlines with rfl | rfl
      · rw [List.mem_singleton.mp hr]
        exact ⟨_, rfl, hs.oneLine _, hs.setup _ _ hline⟩
      · cases hr

theorem setup_send (net : Network) (hs : Orderly codepage server) {s : Legacy Wire}
    (hgood : Good server codepage s) (hconnected : s.1.connected = true)
    (hactivated : s.1.activated = false) {command : String} (hcommand : '\n' ∉ command.toList)
    (hsetup : command = "ACTIVATE" ∨ command = codepageCommand codepage)
    (hline : ∀ part, part <+: command.toList → SetupLine codepage (s.2.openLine ++ part))
    (expected : String) :
    ∃ result w, sendCommandRaw (socket server net) command expected s = (result, s.1, w) ∧
      Good server codepage (s.1, w) ∧ ∀ line, result = .ok line → w.openLine = [] := by
  have hwhole := hline command.toList (List.prefix_refl _)
  have hitself : ∀ {e : Exchange}, e.command = command → e.command ≠ "ACTIVATE" →
      e.command ≠ codepageCommand codepage → ∀ line ∈ e.lines, line = e.command := by
    intro e he hactivate hcp
    rw [he] at hactivate hcp
    exact absurd hsetup (not_or.mpr ⟨hactivate, hcp⟩)
  rcases writeLine_cases server net hcommand s.2 with hwrite | ⟨m, lines, left, hwrite, hlines⟩
  · have hawaits := awaits_put hs (hgood.awaits hconnected) command true hwhole (Or.inl rfl) []
    obtain ⟨result, w, hrun, hlogged, hopen, hleft⟩ := receive_awaits net hs command expected 16 ""
      (s := (s.1, _)) (Or.inl rfl) (logged_put command true _ [] s.2) hawaits
    refine ⟨result, w, (sendCommandRaw_written (socket server net) expected hconnected hwrite).trans hrun,
      ⟨?_, hgood.configured, ?_, ?_, ?_⟩, fun _ _ => hopen⟩
    · exact sound_of_logged hlogged ⟨le_refl 1, fun _ => rfl, hitself rfl, nofun⟩ hgood.sound
    · exact fun _ => hleft (Or.inl rfl)
    · exact fun _ => hopen ▸ setup_nil
    · exact fun _ _ => hopen
  · have hshort : lines.length ≤ 1 := by
      rcases hlines with ⟨rfl, -⟩ | ⟨rfl, -⟩
      · exact le_refl 1
      · exact Nat.zero_le 1
    refine ⟨_, _, sendCommandRaw_failed (socket server net) expected hconnected hwrite,
      ⟨?_, hgood.configured, ?_, ?_, ?_⟩, nofun⟩
    · exact sound_of_logged (logged_put command false lines left s.2)
        ⟨hshort, nofun, hitself rfl, nofun⟩ hgood.sound
    · exact fun _ => awaits_put hs (hgood.awaits hconnected) command false hwhole
        (hlines.imp And.left And.left) left
    · intro _
      rcases hlines with ⟨-, rfl⟩ | ⟨-, part, hpart, rfl⟩
      · exact setup_nil
      · exact hline part hpart
    · intro _ hready
      cases hactivated.symm.trans hready

theorem connect_good (net : Network) (hs : Orderly codepage server) {s : Legacy Wire}
    (hgood : Good server codepage s) :
    ∃ result next, connectIfNeeded (socket server net) s = (result, next) ∧
      Good server codepage next ∧ (result = .ok () → next.1.connected = true) := by
  cases hconnected : s.1.connected with
  | true => exact ⟨_, s, connectIfNeeded_connected _ hconnected, hgood, fun _ => hconnected⟩
  | false =>
      by_cases hnet : net.connects s.2.calls = true
      · have hopened : (socket server net).connect s.2 = _ := if_pos hnet
        refine ⟨_, _, connectIfNeeded_opened _ hconnected hopened,
          ⟨hgood.sound, hgood.configured, fun _ => ⟨[greet server], rfl, ?_⟩, fun _ => setup_nil,
            fun _ _ => rfl⟩, fun _ => rfl⟩
        intro r hr
        rw [List.mem_singleton.mp hr]
        exact ⟨server.greeting, rfl, hs.greetingLine, hs.greeting⟩
      · have hrefused : (socket server net).connect s.2 = _ := if_neg hnet
        have hvacuous : ∀ {p : Prop}, s.1.connected = true → p := fun h => by
          cases hconnected.symm.trans h
        exact ⟨_, _, connectIfNeeded_refused _ hconnected hrefused,
          ⟨hgood.sound, hgood.configured, hvacuous, hvacuous, hvacuous⟩, nofun⟩

theorem ensureReady_good (net : Network) (hs : Orderly codepage server) {s : Legacy Wire}
    (hgood : Good server codepage s) :
    ∃ result next, ensureReady (socket server net) s = (result, next) ∧ Good server codepage next ∧
      (result = .ok () → next.1.connected = true ∧ next.1.activated = true) := by
  obtain ⟨result, next, hconnect, hgood, hconnected⟩ := connect_good net hs hgood
  rw [ensureReady]
  rcases error_or_ok result with ⟨m, rfl⟩ | ⟨⟨⟩, rfl⟩
  · rw [andThen_error (congrArg Prod.fst hconnect), hconnect]
    exact ⟨_, _, rfl, hgood, fun hok => by cases hok⟩
  · rw [andThen_ok (congrArg Prod.fst hconnect), hconnect]
    have hconnected := hconnected rfl
    cases hactivated : next.1.activated with
    | true =>
        refine ⟨.ok (), next, ?_, hgood, fun _ => ⟨hconnected, hactivated⟩⟩
        simp only [bind_run, observe_run, hactivated, reduceIte, pure_run]
    | false =>
        simp only [bind_run, observe_run, hactivated, Bool.false_eq_true, reduceIte]
        have hone : '\n' ∉ "ACTIVATE".toList := by decide
        obtain ⟨first, w, hactivate, hgood, hopen⟩ := setup_send net hs hgood hconnected hactivated
          hone (Or.inl rfl) (fun part hpart => setup_activate (hgood.openLine hconnected) hpart) "OK ACTIVATE"
        rcases error_or_ok first with ⟨m, rfl⟩ | ⟨line, rfl⟩
        · rw [andThen_error (congrArg Prod.fst hactivate), hactivate]
          exact ⟨_, _, rfl, hgood, fun hok => by cases hok⟩
        · have hempty : w.openLine = [] := hopen line rfl
          have hcommand : codepageCommand codepage = "CP " ++ toString next.1.codepage := by
            rw [codepageCommand, hgood.configured]
          rw [andThen_ok (congrArg Prod.fst hactivate), hactivate]
          simp only [bind_run, observe_run]
          obtain ⟨second, w', hcp, hgood', hopen'⟩ := setup_send net hs hgood hconnected hactivated
            (codepage_line codepage) (Or.inr rfl)
            (fun part hpart => by
              rw [hempty]
              exact setup_codepage hpart) "OK CP"
          rw [hcommand] at hcp
          rcases error_or_ok second with ⟨m, rfl⟩ | ⟨line, rfl⟩
          · rw [andThen_error (congrArg Prod.fst hcp), hcp]
            exact ⟨_, _, rfl, hgood', fun hok => by cases hok⟩
          · rw [andThen_ok (congrArg Prod.fst hcp), hcp]
            exact ⟨_, _, rfl, ⟨hgood'.sound, hgood'.configured, hgood'.awaits, hgood'.openLine,
              fun _ _ => hopen' line rfl⟩, fun _ => ⟨hconnected, rfl⟩⟩

theorem request_send (net : Network) (hs : Orderly codepage server) {s : Legacy Wire}
    (hgood : Good server codepage s) (hconnected : s.1.connected = true)
    (hactivated : s.1.activated = true) {command : String} (hcommand : '\n' ∉ command.toList)
    {expected : String} (hexpected : expected ∈ requestKinds) :
    ∃ result w, sendCommandRaw (socket server net) command expected s = (result, s.1, w) ∧
      (∀ e ∈ w.exchanges, Sound server codepage e) ∧
      ((∃ line, result = .ok line) → Good server codepage (s.1, w)) := by
  have hopen : s.2.openLine = [] := hgood.ready hconnected hactivated
  have hwhole : String.ofList (s.2.openLine ++ command.toList) = command := by
    rw [hopen, List.nil_append, String.ofList_toList]
  have hitself : ∀ line ∈ [command], line = command := fun line hline => List.mem_singleton.mp hline
  rcases writeLine_cases server net hcommand s.2 with hwrite | ⟨m, lines, left, hwrite, hlines⟩
  · rw [hwhole] at hwrite
    have hawaits : Awaits [reply server (s.2.received ++ [command])]
        (put server command true [command] [] s.2) := by
      obtain ⟨old, hunread, hold⟩ := hgood.awaits hconnected
      rw [List.append_nil] at hunread
      refine ⟨old, ?_, hold⟩
      rw [put, ← hunread]
      rfl
    obtain ⟨result, w, hrun, hlogged, hopen', hleft⟩ := receive_awaits net hs command expected 16 ""
      (s := (s.1, _)) (Or.inr ⟨rfl, rfl⟩) (logged_put command true [command] [] s.2) hawaits
    have hsound := sound_of_logged hlogged ⟨le_refl 1, fun _ => rfl, fun _ _ => hitself, nofun⟩ hgood.sound
    refine ⟨result, w, (sendCommandRaw_written (socket server net) expected hconnected hwrite).trans hrun,
      hsound, fun hline => ⟨hsound, hgood.configured, ?_, ?_, ?_⟩⟩
    · exact fun _ => hleft (Or.inr ⟨hexpected, hline⟩)
    · exact fun _ => hopen' ▸ setup_nil
    · exact fun _ _ => hopen'
  · rw [hwhole] at hlines
    have hsound : Sound server codepage ⟨command, false, lines, s.2.received ++ lines, []⟩ := by
      rcases hlines with ⟨rfl, -⟩ | ⟨rfl, -⟩
      · exact ⟨le_refl 1, nofun, fun _ _ => hitself, nofun⟩
      · exact ⟨Nat.zero_le 1, nofun, fun _ _ => nofun, nofun⟩
    refine ⟨_, _, sendCommandRaw_failed (socket server net) expected hconnected hwrite, ?_, nofun⟩
    exact sound_of_logged (logged_put command false lines left s.2) hsound hgood.sound

theorem good_reset {r : LegacyTcpRuntime} {w : Wire}
    (hsound : ∀ e ∈ w.exchanges, Sound server codepage e) (hconfigured : r.codepage = codepage) :
    Good server codepage (resetConnection r, w) := ⟨hsound, hconfigured, nofun, nofun, nofun⟩

theorem sendAttempts_good (net : Network) (hs : Orderly codepage server) {command : String}
    (hcommand : '\n' ∉ command.toList) {expected : String} (hexpected : expected ∈ requestKinds)
    (turns : Nat) (lastError : String) {s : Legacy Wire} (hgood : Good server codepage s) :
    Good server codepage (sendAttempts (socket server net) command expected turns lastError s).2 := by
  induction turns generalizing s lastError with
  | zero => exact hgood
  | succ turns ih =>
      obtain ⟨ready, next, hready, hgood, hset⟩ := ensureReady_good net hs hgood
      simp only [sendAttempts, bind_run, hready]
      rcases error_or_ok ready with ⟨m, rfl⟩ | ⟨⟨⟩, rfl⟩
      · exact ih m (good_reset hgood.sound hgood.configured)
      · obtain ⟨hconnected, hactivated⟩ := hset rfl
        obtain ⟨result, w, hsend, hsound, hleft⟩ :=
          request_send net hs hgood hconnected hactivated hcommand hexpected
        simp only [bind_run, hsend]
        rcases error_or_ok result with ⟨m, rfl⟩ | ⟨line, rfl⟩
        · exact ih m (good_reset hsound hgood.configured)
        · exact hleft ⟨line, rfl⟩

def Safe (server : LegacyServer) (codepage : Int) (s : Legacy Wire) : Prop :=
  Good server codepage s ∧ '\n' ∉ (offline s).input.toList ∧ '\n' ∉ (offline s).command.toList

theorem safe_of_good {s s' : Legacy Wire} (hsafe : Safe server codepage s)
    (hgood : Good server codepage s') (hsame : offline s' = offline s) : Safe server codepage s' := by
  rw [Safe, hsame]
  exact ⟨hgood, hsafe.2⟩

theorem safe_lasting (net : Network) (hs : Orderly codepage server) :
    Lasting (socket server net) (Safe server codepage) (fun text => '\n' ∉ text.toList) where
  input := fun _ hsafe => hsafe.2.1
  command := fun _ hsafe => hsafe.2.2
  fixed := by decide
  request := fun word input hword hinput => by
    rw [String.toList_append, String.toList_append]
    exact List.not_mem_append (List.not_mem_append hword (by decide)) hinput
  ready := fun s hsafe => by
    obtain ⟨result, next, hready, hgood, -⟩ := ensureReady_good net hs hsafe.1
    have hsame := ensureReady_steady (socket server net) s
    rw [hready] at hsame ⊢
    exact ⟨trivial, safe_of_good hsafe hgood hsame⟩
  send := fun command expected hcommand hexpected s hsafe =>
    ⟨trivial, safe_of_good hsafe (sendAttempts_good net hs hcommand hexpected 2 "unknown error" hsafe.1)
      (sendAttempts_steady (socket server net) command expected 2 "unknown error" s)⟩
  change := fun f hf hinput s hsafe => by
    obtain ⟨hgood, hline, hcommand⟩ := hsafe
    obtain ⟨hconnected, hactivated, hcodepage, hsame⟩ := hf s.1
    refine ⟨⟨hgood.sound, hcodepage.trans hgood.configured, ?_, ?_, ?_⟩, hinput s.1 hline, ?_⟩
    · exact fun h => hgood.awaits (hconnected.symm.trans h)
    · exact fun h => hgood.openLine (hconnected.symm.trans h)
    · exact fun h h' => hgood.ready (hconnected.symm.trans h) (hactivated.symm.trans h')
    · change '\n' ∉ (f s.1).command.toList
      rw [hsame]
      exact hcommand

theorem typeKey_line {input : String} (hinput : '\n' ∉ input.toList) (virtualKey : UInt32) :
    '\n' ∉ (WorkerRuntime.typeKey input virtualKey).toList := by
  rw [WorkerRuntime.typeKey]
  split
  · rw [String.toList_ofList]
    exact fun h => hinput (List.dropLast_subset _ h)
  · split
    · dsimp only
      split
      · next hkey =>
          rw [String.toList_push]
          refine List.not_mem_append hinput fun h => ?_
          rw [← List.mem_singleton.mp h] at hkey
          exact absurd hkey (by decide)
      · exact hinput
    · exact hinput

end

end RimeWinime.UnreadLines
