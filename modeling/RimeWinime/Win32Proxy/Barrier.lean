import RimeWinime.Skeleton.CandidateReply
import RimeWinime.Win32Proxy.Talk

namespace RimeWinime.Win32Proxy

open World Outside
open Lines (cut complete openLine)
open Utf8 (encode)

def isOk (line : Line) : Bool := startsWith line (encode "OK ACTIVATE")

def Calm (unread : List Line) : Prop := ∀ r ∈ unread, isOk r = false

def Harmless (part : Line) : Prop := part.head? ≠ some 0x41

/-- Between two queries. -/
structure Idle (host : Host) (w : Program State Call.Answer) : Prop where
  closed : w.state.fd < 0 → w.state.rx = []
  calm : 0 ≤ w.state.fd → ∃ unread, Waiting host unread w ∧ Calm unread ∧ Harmless (begun w)

/-- All answers have been read. -/
structure Ready (host : Host) (w : Program State Call.Answer) : Prop where
  opened : 0 ≤ w.state.fd
  waiting : Waiting host [] w
  fresh : begun w = []

/-- This is an answer to the command or to a line after it. -/
def Own (host : Host) (past : List Line) (main : Line) (w : Program State Call.Answer) (r : Line) :
    Prop := ∃ rest, (past ++ main :: rest) <+: lines w ∧ r = host.answer (past ++ main :: rest)

/-- The command has been sent and answered, and what is unread belongs to it. -/
structure Asking (host : Host) (past : List Line) (main : Line) (w : Program State Call.Answer) :
    Prop where
  opened : 0 ≤ w.state.fd
  asked : (past ++ [main]) <+: lines w
  waiting : ∃ unread, Waiting host unread w ∧ ∀ r ∈ unread, isOk r = false ∧ Own host past main w r
  harmless : Harmless (begun w)

/-- The client is on the same connection and has sent no less, or on another. -/
structure Later (w w' : Program State Call.Answer) : Prop where
  opened : (link w).opened ≤ (link w').opened
  lines : (link w').opened = (link w).opened → lines w <+: lines w'

/-- What has been parsed is the answer to the command or to a line after it. -/
def Found (host : Host) (past : List Line) (main : Line) (w : Program State Call.Answer)
    (parsed : ProxyResult) : Prop :=
  ∃ rest, (past ++ main :: rest) <+: lines w ∧
    parseCandidateReply (chomp (host.answer (past ++ main :: rest))) = some parsed

theorem Later.refl (w : Program State Call.Answer) : Later w w :=
  ⟨Nat.le_refl _, fun _ => List.prefix_refl _⟩

theorem Later.trans {w w' w'' : Program State Call.Answer} (h : Later w w') (h' : Later w' w'') :
    Later w w'' := by
  refine ⟨h.opened.trans h'.opened, fun hsame => ?_⟩
  have hfirst : (link w').opened = (link w).opened :=
    Nat.le_antisymm (h'.opened.trans hsame.le) h.opened
  exact (h.lines hfirst).trans (h'.lines (hsame.trans hfirst.symm))

theorem later_of_link {w w' : Program State Call.Answer} (h : link w' = link w) : Later w w' := by
  have hlines : lines w' = lines w := by rw [Win32Proxy.lines, h]
  exact ⟨(congrArg Link.opened h).ge, fun _ => hlines ▸ List.prefix_refl _⟩

theorem Own.later {host : Host} {past : List Line} {main r : Line} {w w' : Program State Call.Answer}
    (h : Own host past main w r) (hlines : lines w <+: lines w') : Own host past main w' r := by
  obtain ⟨rest, hrest, hr⟩ := h
  exact ⟨rest, hrest.trans hlines, hr⟩

theorem Found.later {host : Host} {past : List Line} {main : Line} {parsed : ProxyResult}
    {w w' : Program State Call.Answer} (h : Found host past main w parsed)
    (hlines : lines w <+: lines w') : Found host past main w' parsed := by
  obtain ⟨rest, hrest, hparsed⟩ := h
  exact ⟨rest, hrest.trans hlines, hparsed⟩

theorem harmless_nil : Harmless [] := fun h => by cases h

theorem harmless_start {a b : Line} (h : a <+: b) (hb : Harmless b) : Harmless a := by
  cases a with
  | nil => exact harmless_nil
  | cons c a =>
      obtain ⟨rest, rfl⟩ := h
      exact hb

theorem harmless_append {a b : Line} (ha : Harmless a) (hb : Harmless b) : Harmless (a ++ b) := by
  cases a with
  | nil => exact hb
  | cons c a => exact ha

theorem not_ok_of_harmless (host : Host) (past : List Line) {line : Line} (h : Harmless line) :
    isOk (host.answer (past ++ [line])) = false := by
  rw [← Bool.not_eq_true]
  intro hok
  obtain ⟨rest, hrest⟩ := List.isPrefixOf_iff_prefix.mp (host.activates past line hok)
  apply h
  rw [← hrest]
  rfl

theorem startsWith_of_chomp {raw pat : Line} (h : startsWith (chomp raw) pat = true) :
    startsWith raw pat = true := by
  rw [startsWith, List.isPrefixOf_iff_prefix] at h ⊢
  refine h.trans ?_
  rw [chomp]
  split
  · exact List.dropLast_prefix raw
  · exact List.prefix_refl raw

theorem isOk_of_answer {raw : Line} (h : isAnswer "OK ACTIVATE" (chomp raw) = true) :
    isOk raw = true := by
  rw [isAnswer, Bool.and_eq_true] at h
  exact startsWith_of_chomp h.2

theorem newline_not_mem_of_all {text : List UInt8} (h : text.all (· ≠ newline) = true) :
    newline ∉ text := by
  intro hmem
  have hne := List.all_eq_true.mp h newline hmem
  exact absurd hne (by decide)

section

variable {host : Host} {os : Os} {config : Config} {patience : Nat} {unread past : List Line}
  {main : Line} {w : Program State Call.Answer}

theorem later_of_sent {w' : Program State Call.Answer} (hopened : (link w').opened = (link w).opened)
    (hlines : lines w <+: lines w') : Later w w' := ⟨hopened.ge, fun _ => hlines⟩

variable (patience) in
theorem activate_ready (hos : Obeys host os) (hw : Waiting host unread w) (hcalm : Calm unread) :
    let r := sendCommandUnlocked os patience (encode "ACTIVATE") "OK ACTIVATE" w
    r.2.state.fd = w.state.fd ∧ Later w r.2 ∧
      (r.1.isSome = true → Waiting host [] r.2 ∧ begun r.2 = []) := by
  intro r
  have hcmd : newline ∉ encode "ACTIVATE" := newline_not_mem_of_all rfl
  obtain ⟨hfd, hopened, hcut | ⟨hlines, hbegun, hread⟩⟩ :=
    sendCommand_cases hos patience hcmd "OK ACTIVATE" hw
  · refine ⟨hfd, later_of_sent hopened (hcut.2.1 ▸ List.prefix_refl _), fun hsome => ?_⟩
    rw [hcut.1] at hsome
    cases hsome
  · have hmore : lines w <+: lines r.2 := by
      rw [hlines]
      exact List.prefix_append _ _
    refine ⟨hfd, later_of_sent hopened hmore, fun hsome => ?_⟩
    rcases hread with ⟨hnone, -⟩ | ⟨skipped, raw, left, hsplit, -, hanswer, hwait⟩
    · rw [hnone] at hsome
      cases hsome
    · have hnil : left = [] := by
        rcases List.eq_nil_or_concat left with hnil | ⟨front, last, rfl⟩
        · exact hnil
        · rw [List.concat_eq_append, ← List.cons_append, ← List.append_assoc] at hsplit
          obtain ⟨hsame, -⟩ := List.append_inj' hsplit rfl
          have hmem : raw ∈ unread := by
            rw [hsame]
            exact List.mem_append_right _ List.mem_cons_self
          have hok := isOk_of_answer hanswer
          rw [hcalm raw hmem] at hok
          cases hok
      rw [hnil] at hwait
      exact ⟨hwait, hbegun⟩

theorem closeUnlocked_idle (host : Host) (os : Os) (w : Program State Call.Answer) :
    Idle host (closeUnlocked os w).2 ∧ link (closeUnlocked os w).2 = link w := by
  have hrun : (closeUnlocked os w).2 = (modify (fun s : State => { s with rx := [] })
      (when (0 ≤ w.state.fd) (do
        ask os (.close w.state.fd)
        modify fun s => { s with fd := -1 }) w).2).2 := rfl
  rw [hrun]
  by_cases hopen : 0 ≤ w.state.fd
  · rw [when_pos hopen]
    have hneg : ¬(0 : Int) ≤ -1 := by decide
    exact ⟨⟨fun _ => rfl, fun h => absurd h hneg⟩, link_ask os (.close w.state.fd) w⟩
  · rw [when_neg hopen]
    exact ⟨⟨fun _ => rfl, fun h => absurd h hopen⟩, rfl⟩

theorem orClose_cases (host : Host) (os : Os) (x : Run (Option Line)) (w : Program State Call.Answer) :
    ((orClose os x w).1 = true ∧ (x w).1.isSome = true ∧ (orClose os x w).2 = (x w).2) ∨
      ((orClose os x w).1 = false ∧ Idle host (orClose os x w).2 ∧
        link (orClose os x w).2 = link (x w).2) := by
  have hrun : orClose os x w = (if (x w).1.isSome then pure true
      else do
        closeUnlocked os
        pure false : Run Bool) (x w).2 := rfl
  rw [hrun]
  by_cases hsome : (x w).1.isSome = true
  · rw [if_pos hsome]
    exact Or.inl ⟨rfl, hsome, rfl⟩
  · rw [if_neg hsome]
    obtain ⟨hidle, hlink⟩ := closeUnlocked_idle host os (x w).2
    exact Or.inr ⟨rfl, hidle, hlink⟩

variable (patience) in
theorem activateUnlocked_cases (hos : Obeys host os) (hopen : 0 ≤ w.state.fd)
    (hw : Waiting host unread w) (hcalm : Calm unread) :
    Later w (activateUnlocked os patience w).2 ∧
      ((activateUnlocked os patience w).1 = true ∧ Ready host (activateUnlocked os patience w).2 ∨
        (activateUnlocked os patience w).1 = false ∧ Idle host (activateUnlocked os patience w).2) := by
  obtain ⟨hfd, hlater, hready⟩ := activate_ready patience hos hw hcalm
  rcases orClose_cases host os (sendCommandUnlocked os patience (encode "ACTIVATE") "OK ACTIVATE") w with
    ⟨htrue, hsome, hsame⟩ | ⟨hfalse, hidle, hlink⟩
  · obtain ⟨hwait, hbegun⟩ := hready hsome
    rw [activateUnlocked, hsame]
    exact ⟨hlater, Or.inl ⟨htrue, hfd ▸ hopen, hwait, hbegun⟩⟩
  · exact ⟨hlater.trans (later_of_link hlink), Or.inr ⟨hfalse, hidle⟩⟩

theorem prefix_of_cases (cmd : Line) {w' : Program State Call.Answer}
    (h : lines w' = lines w ∨ lines w' = lines w ++ [begun w ++ cmd]) : lines w <+: lines w' := by
  rcases h with h | h
  · rw [h]
  · rw [h]
    exact List.prefix_append _ _

/-- A command that does not activate. What is true of its answer and of all that was unread is
true of what is read and of what is left. -/
theorem sendCommand_all (hos : Obeys host os) (patience : Nat) {cmd : List UInt8}
    (hcmd : newline ∉ cmd) (hharmless : Harmless cmd) (expected : String) (hw : Waiting host unread w)
    (hbegun : Harmless (begun w)) :
    let r := sendCommandUnlocked os patience cmd expected w
    r.2.state.fd = w.state.fd ∧ (link r.2).opened = (link w).opened ∧ lines w <+: lines r.2 ∧
      Harmless (begun r.2) ∧
      ∀ P : Line → Prop, (∀ a ∈ unread, P a) →
        (lines r.2 = lines w ++ [begun w ++ cmd] → P (host.answer (lines w ++ [begun w ++ cmd]))) →
        (∃ left, Waiting host left r.2 ∧ ∀ a ∈ left, P a) ∧
          ∀ line, r.1 = some line → ∃ raw, P raw ∧ line = chomp raw := by
  intro r
  obtain ⟨hfd, hopened, ⟨hnone, hlines, ⟨part, hpart, hopen⟩, hwait⟩ | ⟨hlines, hopen, hread⟩⟩ :=
    sendCommand_cases hos patience hcmd expected hw
  · refine ⟨hfd, hopened, prefix_of_cases cmd (Or.inl hlines), ?_, fun P hP _ => ⟨?_, ?_⟩⟩
    · rw [hopen]
      exact harmless_append hbegun (harmless_start hpart hharmless)
    · exact ⟨unread, hwait, hP⟩
    · intro line hline
      rw [hnone] at hline
      cases hline
  · refine ⟨hfd, hopened, prefix_of_cases _ (Or.inr hlines), ?_, fun P hP hnew => ?_⟩
    · rw [hopen]
      exact harmless_nil
    · have hall : ∀ a ∈ unread ++ [host.answer (lines w ++ [begun w ++ cmd])], P a := by
        intro a ha
        rcases List.mem_append.mp ha with ha | ha
        · exact hP a ha
        · rw [List.mem_singleton.mp ha]
          exact hnew hlines
      rcases hread with ⟨hnone, left, hleft, hwait⟩ | ⟨skipped, raw, left, hsplit, hsome, -, hwait⟩
      · refine ⟨⟨left, hwait, fun a ha => hall a (hleft.subset ha)⟩, fun line hline => ?_⟩
        rw [hnone] at hline
        cases hline
      · rw [hsplit] at hall
        have hraw : P raw := hall raw (List.mem_append_right _ List.mem_cons_self)
        have hleft : ∀ a ∈ left, P a := fun a ha =>
          hall a (List.mem_append_right _ (List.mem_cons_of_mem _ ha))
        refine ⟨⟨left, hwait, hleft⟩, fun line hline => ⟨raw, hraw, ?_⟩⟩
        exact Option.some.inj (hline.symm.trans hsome)

theorem newline_not_mem_cpCommand (codepage : Int) : newline ∉ cpCommand codepage := by
  have hname : CandidateReply.InLine (encode "CP ") := CandidateReply.inLine_of_all rfl
  have hline : CandidateReply.InLine (cpCommand codepage) :=
    CandidateReply.inLine_append.mpr ⟨hname, CandidateReply.inLine_signed codepage⟩
  exact fun h => (hline newline h).2.1 rfl

variable (config) (patience) in
theorem setCodepage_cases (hos : Obeys host os) (hw : Ready host w) :
    Later w (setCodepage os config patience w).2 ∧ Idle host (setCodepage os config patience w).2 ∧
      ((setCodepage os config patience w).1 = true → 0 ≤ (setCodepage os config patience w).2.state.fd) := by
  have hharmless : Harmless (cpCommand config.codepage) := fun h => by cases h
  have hbegun : Harmless (begun w) := by
    rw [hw.fresh]
    exact harmless_nil
  obtain ⟨hfd, hopened, hlines, hopen, hall⟩ := sendCommand_all hos patience
    (newline_not_mem_cpCommand config.codepage) hharmless "OK CP " hw.waiting hbegun
  have hlater := later_of_sent hopened hlines
  rcases orClose_cases host os (sendCommandUnlocked os patience (cpCommand config.codepage) "OK CP ") w
    with ⟨-, -, hsame⟩ | ⟨hfalse, hidle, hlink⟩
  · have hcalm := (hall (fun a => isOk a = false) (fun a ha => by cases ha) fun _ =>
      not_ok_of_harmless host _ (harmless_append hbegun hharmless)).1
    obtain ⟨left, hwait, hleft⟩ := hcalm
    rw [setCodepage, hsame, hfd]
    refine ⟨hlater, ⟨fun h => ?_, fun _ => ⟨left, hwait, hleft, hopen⟩⟩, fun _ => hw.opened⟩
    rw [hfd] at h
    exact absurd h (Int.not_lt.mpr hw.opened)
  · refine ⟨hlater.trans (later_of_link hlink), hidle, fun htrue => ?_⟩
    rw [setCodepage, hfalse] at htrue
    cases htrue

theorem later_of_opened {w' : Program State Call.Answer}
    (h : (link w').opened = (link w).opened + 1) : Later w w' := by
  refine ⟨by omega, fun hsame => ?_⟩
  rw [hsame] at h
  omega

theorem openSocket_cases (host : Host) (os : Os) (hrx : w.state.rx = []) :
    Later w (openSocket os w).2 ∧
      ((openSocket os w).1 = true ∧ 0 ≤ (openSocket os w).2.state.fd ∧
          Waiting host [host.greeting] (openSocket os w).2 ∨
        (openSocket os w).1 = false ∧ Idle host (openSocket os w).2) := by
  let fd : Int := (ask os .socket w).1
  let noted := (modify (fun s : State => { s with fd := fd }) (ask os .socket w).2).2
  let tried := ask os (.connect fd) noted
  have hnoted : link noted = ⟨(link w).opened + 1, [], []⟩ := link_ask os .socket w
  have htried : link tried.2 = ⟨(link w).opened + 1, [], []⟩ :=
    (link_ask os (.connect fd) noted).trans hnoted
  have hrun : openSocket os w = (if fd < 0 then pure false
      else do
        let connected ← ask os (.connect fd)
        if connected then pure true
        else do
          closeUnlocked os
          pure false : Run Bool) noted := rfl
  rw [hrun]
  by_cases hneg : fd < 0
  · rw [if_pos hneg]
    have hidle : Idle host noted := ⟨fun _ => hrx, fun h => absurd hneg (Int.not_lt.mpr h)⟩
    exact ⟨later_of_opened (congrArg Link.opened hnoted), Or.inr ⟨rfl, hidle⟩⟩
  · rw [if_neg hneg]
    have hconnect : (do
        let connected ← ask os (.connect fd)
        if connected then pure true
        else do
          closeUnlocked os
          pure false : Run Bool) noted = (if tried.1 then pure true
        else do
          closeUnlocked os
          pure false : Run Bool) tried.2 := rfl
    rw [hconnect]
    by_cases hconnected : tried.1 = true
    · rw [if_pos hconnected]
      have hlines : lines tried.2 = [] := by
        rw [lines, htried]
        rfl
      have hwait : Waiting host [host.greeting] tried.2 := by
        refine ⟨⟨[], ?_, ?_⟩, ?_⟩
        · rw [hlines]
          rfl
        · rw [htried]
          exact hrx.symm
        · rw [htried]
          exact List.nil_prefix
      exact ⟨later_of_opened (congrArg Link.opened htried),
        Or.inl ⟨rfl, Int.not_lt.mp hneg, hwait⟩⟩
    · rw [if_neg hconnected]
      obtain ⟨hidle, hlink⟩ := closeUnlocked_idle host os tried.2
      exact ⟨later_of_opened (congrArg Link.opened (hlink.trans htried)), Or.inr ⟨rfl, hidle⟩⟩

variable (config) (patience) in
theorem ensureConnected_cases (hos : Obeys host os) (hw : Idle host w) :
    Later w (ensureConnectedUnlocked os config patience w).2 ∧
      Idle host (ensureConnectedUnlocked os config patience w).2 ∧
      ((ensureConnectedUnlocked os config patience w).1 = true →
        0 ≤ (ensureConnectedUnlocked os config patience w).2.state.fd) := by
  have hrun : ensureConnectedUnlocked os config patience w = (if 0 ≤ w.state.fd then pure true
      else andThenDo (openSocket os)
        (andThenDo (activateUnlocked os patience) (setCodepage os config patience)) : Run Bool) w := rfl
  rw [hrun]
  by_cases hopen : 0 ≤ w.state.fd
  · rw [if_pos hopen]
    exact ⟨Later.refl w, hw, fun _ => hopen⟩
  · rw [if_neg hopen, andThenDo, bind_run]
    obtain ⟨hlater, ⟨htrue, hfd, hwait⟩ | ⟨hfalse, hidle⟩⟩ :=
      openSocket_cases host os (hw.closed (Int.not_le.mp hopen))
    · have hcalm : Calm [host.greeting] := by
        intro r hr
        rw [List.mem_singleton.mp hr]
        exact host.greets
      rw [htrue, if_pos rfl, andThenDo, bind_run]
      obtain ⟨hlater', ⟨htrue, hready⟩ | ⟨hfalse, hidle⟩⟩ :=
        activateUnlocked_cases patience hos hfd hwait hcalm
      · rw [htrue, if_pos rfl]
        obtain ⟨hlater'', hidle, hfd⟩ := setCodepage_cases config patience hos hready
        exact ⟨(hlater.trans hlater').trans hlater'', hidle, hfd⟩
      · rw [hfalse, if_neg Bool.false_ne_true]
        exact ⟨hlater.trans hlater', hidle, fun h => by cases h⟩
    · rw [hfalse, if_neg Bool.false_ne_true]
      exact ⟨hlater, hidle, fun h => by cases h⟩

theorem Asking.idle (h : Asking host past main w) : Idle host w := by
  obtain ⟨unread, hwait, hown⟩ := h.waiting
  refine ⟨fun hneg => absurd hneg (Int.not_lt.mpr h.opened), fun _ => ?_⟩
  exact ⟨unread, hwait, fun r hr => (hown r hr).1, h.harmless⟩

theorem main_cases (hos : Obeys host os) (patience : Nat) (hmain : newline ∉ main)
    (hw : Ready host w) :
    let r := askCandidates os patience main w
    Later w r.2 ∧ ∀ parsed, r.1 = some parsed →
      Asking host (lines w) main r.2 ∧ Found host (lines w) main r.2 parsed := by
  intro r
  let sent := sendCommandUnlocked os patience main "CAND_RET " w
  have hrun : r = (sent.1.bind parseCandidateReply, sent.2) := rfl
  obtain ⟨hfd, hopened, ⟨hnone, hlines, -⟩ | ⟨hlines, hbegun, hread⟩⟩ :=
    sendCommand_cases hos patience hmain "CAND_RET " hw.waiting
  · refine ⟨later_of_sent hopened (prefix_of_cases main (Or.inl hlines)), fun parsed hparsed => ?_⟩
    have hsent : sent.1 = none := hnone
    rw [hrun, hsent] at hparsed
    cases hparsed
  · refine ⟨later_of_sent hopened (prefix_of_cases _ (Or.inr hlines)), fun parsed hparsed => ?_⟩
    rw [hw.fresh, List.nil_append] at hlines hread
    rw [List.nil_append] at hread
    have hasked : lines w ++ [main] <+: lines r.2 := by
      have hall : lines r.2 = lines w ++ [main] := hlines
      rw [hall]
    rcases hread with ⟨hnone, -⟩ | ⟨skipped, raw, left, hsplit, hsome, -, hwait⟩
    · have hsent : sent.1 = none := hnone
      rw [hrun, hsent] at hparsed
      cases hparsed
    · obtain ⟨rfl, hrest⟩ : skipped = [] ∧ [host.answer (lines w ++ [main])] = raw :: left := by
        cases skipped with
        | nil => exact ⟨rfl, hsplit⟩
        | cons c skipped =>
            have hlen := congrArg List.length hsplit
            simp at hlen
      obtain ⟨rfl, rfl⟩ := List.cons.inj hrest
      have hline : sent.1 = some (chomp (host.answer (lines w ++ [main]))) := hsome
      rw [hrun, hline] at hparsed
      refine ⟨⟨?_, hasked, ⟨[], hwait, fun a ha => by cases ha⟩, ?_⟩, [], hasked, hparsed⟩
      · exact hfd.symm ▸ hw.opened
      · have hempty : begun r.2 = [] := hbegun
        rw [hempty]
        exact harmless_nil

theorem askCandidates_cases (hos : Obeys host os) (patience : Nat) {cmd : List UInt8}
    (hcmd : newline ∉ cmd) (hharmless : Harmless cmd) (hw : Asking host past main w) :
    let r := askCandidates os patience cmd w
    Asking host past main r.2 ∧ Later w r.2 ∧ lines w <+: lines r.2 ∧
      ∀ parsed, r.1 = some parsed → Found host past main r.2 parsed := by
  intro r
  let sent := sendCommandUnlocked os patience cmd "CAND_RET " w
  have hrun : r = (sent.1.bind parseCandidateReply, sent.2) := rfl
  obtain ⟨unread, hwait, hown⟩ := hw.waiting
  obtain ⟨hfd, hopened, hlines, hbegun, hall⟩ :=
    sendCommand_all hos patience hcmd hharmless "CAND_RET " hwait hw.harmless
  have hasked : past ++ [main] <+: lines r.2 := hw.asked.trans hlines
  obtain ⟨hleft, hread⟩ := hall (fun a => isOk a = false ∧ Own host past main r.2 a)
    (fun a ha => ⟨(hown a ha).1, (hown a ha).2.later hlines⟩) fun hnew => by
      obtain ⟨rest, hrest⟩ := hw.asked
      have hsplit : lines w ++ [begun w ++ cmd] = past ++ main :: (rest ++ [begun w ++ cmd]) := by
        rw [← hrest]
        simp
      have hgrown : lines r.2 = lines w ++ [begun w ++ cmd] := hnew
      refine ⟨not_ok_of_harmless host _ (harmless_append hw.harmless hharmless), rest ++ [begun w ++ cmd], ?_, ?_⟩
      · rw [hgrown, hsplit]
      · rw [hsplit]
  refine ⟨⟨hfd.symm ▸ hw.opened, hasked, hleft, hbegun⟩, later_of_sent hopened hlines, hlines, ?_⟩
  intro parsed hparsed
  rw [hrun] at hparsed
  obtain ⟨line, hline, hparse⟩ := Option.bind_eq_some_iff.mp hparsed
  obtain ⟨raw, ⟨-, rest, hrest, hraw⟩, hsame⟩ := hread line hline
  refine ⟨rest, hrest, ?_⟩
  rw [← hraw, ← hsame]
  exact hparse

theorem found_better {parsed : ProxyResult} {fallback : Option ProxyResult}
    (hparsed : Found host past main w parsed)
    (hfallback : ∀ other, fallback = some other → Found host past main w other) :
    Found host past main w (better parsed fallback) := by
  cases fallback with
  | none => exact hparsed
  | some other =>
      rw [better]
      split
      · exact hparsed
      · exact hfallback other rfl

theorem orElseAsk_cases (hos : Obeys host os) (patience : Nat) {cmd : List UInt8}
    (hcmd : newline ∉ cmd) (hharmless : Harmless cmd) (wanted : Bool) {parsed : ProxyResult}
    (hw : Asking host past main w) (hparsed : Found host past main w parsed) :
    let r := orElseAsk os patience wanted cmd parsed w
    Asking host past main r.2 ∧ Later w r.2 ∧ Found host past main r.2 r.1 := by
  intro r
  let asked := askCandidates os patience cmd w
  have hrun : r = (if (parsed.items = [] && wanted) = true then do
      let fallback ← askCandidates os patience cmd
      pure (better parsed fallback)
    else pure parsed : Run ProxyResult) w := rfl
  rw [hrun]
  by_cases hask : (parsed.items = [] && wanted) = true
  · rw [if_pos hask]
    obtain ⟨hasking, hlater, hlines, hfound⟩ := askCandidates_cases hos patience hcmd hharmless hw
    exact ⟨hasking, hlater, found_better (hparsed.later hlines) hfound⟩
  · rw [if_neg hask]
    exact ⟨hw, Later.refl w, hparsed⟩

theorem newline_not_mem_commandFor {cmd input : List UInt8} (hcmd : newline ∉ cmd)
    (hinput : newline ∉ input) : newline ∉ commandFor cmd input := by
  have hblank : newline ∉ [blank] := newline_not_mem_of_all rfl
  exact List.not_mem_append (List.not_mem_append hcmd hblank) hinput

theorem fallbacks_cases (hos : Obeys host os) (config : Config) (patience : Nat) {input : List UInt8}
    (hinput : newline ∉ input) {parsed : ProxyResult} (hw : Asking host past main w)
    (hparsed : Found host past main w parsed) :
    let r := fallbacks os config patience input parsed w
    Asking host past main r.2 ∧ Later w r.2 ∧ Found host past main r.2 r.1 := by
  have hkeytext : newline ∉ encode "KEYTEXTU" := newline_not_mem_of_all rfl
  have htext : newline ∉ encode "TEXTU" := newline_not_mem_of_all rfl
  have hcand : newline ∉ encode "CAND" := newline_not_mem_of_all rfl
  obtain ⟨hcand, hlater, hfound⟩ := orElseAsk_cases hos patience hcand (fun h => by cases h) true hw
    hparsed
  obtain ⟨hkey, hlater', hfound'⟩ := orElseAsk_cases hos patience
    (newline_not_mem_commandFor hkeytext hinput) (fun h => by cases h)
    (config.command ≠ encode "KEYTEXTU") hcand hfound
  obtain ⟨hlast, hlater'', hfound''⟩ := orElseAsk_cases hos patience
    (newline_not_mem_commandFor htext hinput) (fun h => by cases h)
    (config.command ≠ encode "TEXTU") hkey hfound'
  exact ⟨hlast, (hlater.trans hlater').trans hlater'', hfound''⟩

theorem conclude_cases (hos : Obeys host os) (config : Config) (patience : Nat) {parsed : ProxyResult}
    (hw : Asking host past main w) (hparsed : Found host past main w parsed) :
    let r := conclude os config patience parsed w
    Idle host r.2 ∧ Later w r.2 ∧
      ∀ result, r.1 = some result → result.items ≠ [] ∧ Found host past main r.2 result := by
  intro r
  have hrun : r = (if parsed.items ≠ [] then do
      when config.oneShot (closeUnlocked os)
      pure (some parsed)
    else do
      let _ ← sendCommandUnlocked os patience (encode "RESET") "OK RESET"
      closeUnlocked os
      pure none : Run (Option ProxyResult)) w := rfl
  rw [hrun]
  by_cases hitems : parsed.items ≠ []
  · rw [if_pos hitems, bind_run]
    have hdone : Idle host (when (config.oneShot = true) (closeUnlocked os) w).2 ∧
        link (when (config.oneShot = true) (closeUnlocked os) w).2 = link w := by
      by_cases hshot : config.oneShot = true
      · rw [when_pos hshot]
        exact closeUnlocked_idle host os w
      · rw [when_neg hshot]
        exact ⟨hw.idle, rfl⟩
    obtain ⟨hidle, hlink⟩ := hdone
    refine ⟨hidle, later_of_link hlink, fun result hresult => ?_⟩
    obtain rfl := Option.some.inj hresult
    refine ⟨hitems, hparsed.later ?_⟩
    rw [pure_run, Win32Proxy.lines, Win32Proxy.lines, hlink]
  · rw [if_neg hitems]
    obtain ⟨unread, hwait, -⟩ := hw.waiting
    obtain ⟨-, hopened, hlines, -⟩ := sendCommand_all hos patience
      (newline_not_mem_of_all rfl : newline ∉ encode "RESET") (fun h => by cases h) "OK RESET" hwait
      hw.harmless
    obtain ⟨hidle, hlink⟩ := closeUnlocked_idle host os
      (sendCommandUnlocked os patience (encode "RESET") "OK RESET" w).2
    exact ⟨hidle, (later_of_sent hopened hlines).trans (later_of_link hlink), fun _ h => by cases h⟩

/-- The result is the host's answer to what has been sent for this input since then. -/
def Answered (host : Host) (main : Line) (w w' : Program State Call.Answer) (result : ProxyResult) :
    Prop :=
  result.items ≠ [] ∧ ∃ past, ((link w').opened = (link w).opened → lines w <+: past) ∧
    Found host past main w' result

theorem askAll_cases (hos : Obeys host os) (config : Config) (patience : Nat) {input : List UInt8}
    (hinput : newline ∉ input) (hw : Ready host w) :
    let r := askAll os config patience input w
    Idle host r.2 ∧ Later w r.2 ∧
      ∀ result, r.1 = some result → Answered host (commandFor config.command input) w r.2 result := by
  intro r
  let main := commandFor config.command input
  have hmain : newline ∉ main := newline_not_mem_commandFor config.oneLine hinput
  obtain ⟨hlater, hfirst⟩ := main_cases hos patience hmain hw
  have hrun : r = ((askCandidates os patience main w).1.elim (do
      closeUnlocked os
      pure none) (fun parsed => do
        let parsed ← fallbacks os config patience input parsed
        conclude os config patience parsed) : Run (Option ProxyResult))
      (askCandidates os patience main w).2 := by
    change askAll os config patience input w = _
    rw [askAll, bind_run]
    cases (askCandidates os patience main w).1 <;> rfl
  cases hanswer : (askCandidates os patience main w).1 with
  | none =>
      rw [hanswer, Option.elim_none] at hrun
      obtain ⟨hidle, hlink⟩ := closeUnlocked_idle host os (askCandidates os patience main w).2
      rw [hrun]
      exact ⟨hidle, hlater.trans (later_of_link hlink), fun _ h => by cases h⟩
  | some parsed =>
      rw [hanswer, Option.elim_some, bind_run] at hrun
      obtain ⟨hasking, hfound⟩ := hfirst parsed hanswer
      obtain ⟨hasking', hlater', hfound'⟩ :=
        fallbacks_cases hos config patience hinput hasking hfound
      obtain ⟨hidle, hlater'', hresult⟩ := conclude_cases hos config patience hasking' hfound'
      rw [hrun]
      refine ⟨hidle, (hlater.trans hlater').trans hlater'', fun result hsome => ?_⟩
      obtain ⟨hitems, hlast⟩ := hresult result hsome
      exact ⟨hitems, lines w, fun _ => List.prefix_refl _, hlast⟩

theorem Answered.earlier {w₀ w' : Program State Call.Answer} {result : ProxyResult}
    (h : Answered host main w w' result) (hlater : Later w₀ w) (hlater' : Later w w') :
    Answered host main w₀ w' result := by
  obtain ⟨hitems, past, hpast, hfound⟩ := h
  refine ⟨hitems, past, fun hsame => ?_, hfound⟩
  have hfirst : (link w).opened = (link w₀).opened :=
    Nat.le_antisymm (hlater'.opened.trans hsame.le) hlater.opened
  exact (hlater.lines hfirst).trans (hpast (hsame.trans hfirst.symm))

theorem attempt_cases (hos : Obeys host os) (config : Config) (patience : Nat) {input : List UInt8}
    (hinput : newline ∉ input) (hw : Idle host w) :
    let r := attempt os config patience input w
    Idle host r.2 ∧ Later w r.2 ∧
      ∀ result, r.1 = some result → Answered host (commandFor config.command input) w r.2 result := by
  intro r
  obtain ⟨hlater, hidle, hopen⟩ := ensureConnected_cases config patience hos hw
  let connected := ensureConnectedUnlocked os config patience w
  have hrun : r = (if connected.1 then do
      let active ← activateUnlocked os patience
      if active then askAll os config patience input else pure none
    else do
      closeUnlocked os
      pure none : Run (Option ProxyResult)) connected.2 := rfl
  by_cases hconnected : connected.1 = true
  · rw [if_pos hconnected] at hrun
    obtain ⟨unread, hwait, hcalm, -⟩ := hidle.calm (hopen hconnected)
    obtain ⟨hlater', hactive⟩ := activateUnlocked_cases patience hos (hopen hconnected) hwait hcalm
    let active := activateUnlocked os patience connected.2
    have hrun' : r = (if active.1 then askAll os config patience input else pure none) active.2 := hrun
    have hboth : Later w active.2 := hlater.trans hlater'
    rcases hactive with ⟨htrue, hready⟩ | ⟨hfalse, hidle'⟩
    · rw [htrue, if_pos rfl] at hrun'
      obtain ⟨hidle', hlater'', hresult⟩ := askAll_cases hos config patience hinput hready
      rw [hrun']
      exact ⟨hidle', hboth.trans hlater'', fun result hsome =>
        (hresult result hsome).earlier hboth hlater''⟩
    · rw [hfalse, if_neg Bool.false_ne_true] at hrun'
      rw [hrun']
      exact ⟨hidle', hboth, fun _ h => by cases h⟩
  · rw [if_neg hconnected] at hrun
    obtain ⟨hidle', hlink⟩ := closeUnlocked_idle host os connected.2
    rw [hrun]
    exact ⟨hidle', hlater.trans (later_of_link hlink), fun _ h => by cases h⟩

theorem query_cases (hos : Obeys host os) (config : Config) (patience : Nat) (utf8Input : List UInt8)
    (hw : Idle host w) :
    let r := query os config patience utf8Input w
    Idle host r.2 ∧ Later w r.2 ∧ ∀ result, r.1 = some result →
      Answered host (commandFor config.command (sanitizeQueryInput utf8Input)) w r.2 result := by
  intro r
  let input := sanitizeQueryInput utf8Input
  have hinput : newline ∉ input := newline_not_mem_sanitizeQueryInput utf8Input
  obtain ⟨hidle, hlater, hfirst⟩ := attempt_cases hos config patience hinput hw
  let first := attempt os config patience input w
  have hrun : r = (first.1.elim (attempt os config patience input) (fun result => pure (some result)))
      first.2 := by
    change query os config patience utf8Input w = _
    rw [query, bind_run]
    cases first.1 <;> rfl
  cases hresult : first.1 with
  | some result =>
      rw [hresult, Option.elim_some] at hrun
      rw [hrun]
      refine ⟨hidle, hlater, fun other hsome => ?_⟩
      obtain rfl := Option.some.inj hsome
      exact hfirst result hresult
  | none =>
      rw [hresult, Option.elim_none] at hrun
      obtain ⟨hidle', hlater', hsecond⟩ := attempt_cases hos config patience hinput hidle
      rw [hrun]
      exact ⟨hidle', hlater.trans hlater', fun result hsome =>
        (hsecond result hsome).earlier hlater hlater'⟩

end

end RimeWinime.Win32Proxy
