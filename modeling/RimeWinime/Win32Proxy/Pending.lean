import Mathlib.Data.List.TakeWhile
import RimeWinime.Lib.Lines
import RimeWinime.Win32Proxy.Client

namespace RimeWinime.Win32Proxy

open World Outside
open Lines (cut complete openLine complete_append openLine_append cut_of_not_mem cut_append cut_newline)
open Utf8 (encode)

/-- A host greets and answers each line with one line, in order, and says `OK ACTIVATE` only when
it is told to activate. -/
structure Host where
  greeting : Line
  /-- The answer to the last of these lines. -/
  answer : List Line → Line
  greetingLine : newline ∉ greeting
  oneLine : ∀ lines, newline ∉ answer lines
  greets : startsWith greeting (encode "OK ACTIVATE") = false
  activates : ∀ lines line, startsWith (answer (lines ++ [line])) (encode "OK ACTIVATE") = true →
    startsWith line (encode "ACTIVATE") = true

def Host.answersFrom (host : Host) (past : List Line) : List Line → List Line
  | [] => []
  | line :: lines => host.answer (past ++ [line]) :: host.answersFrom (past ++ [line]) lines

def Host.told (host : Host) (lines : List Line) : List Line :=
  host.greeting :: host.answersFrom [] lines

def bytesOf (lines : List Line) : List UInt8 := lines.flatMap (· ++ [newline])

/-- How many sockets have been opened, and what has gone over the last one. -/
structure Link where
  opened : Nat
  sent : List UInt8
  heard : List UInt8

def carry (link : Link) : Event Call.Answer → Link
  | ⟨.socket, _⟩ => ⟨link.opened + 1, [], []⟩
  | ⟨.send _ bytes, n⟩ => { link with sent := link.sent ++ bytes.take n.toNat }
  | ⟨.recv _, bytes⟩ => { link with heard := link.heard ++ bytes }
  | _ => link

def linkOf (past : List (Event Call.Answer)) : Link := past.foldl carry ⟨0, [], []⟩

abbrev link (w : Program State Call.Answer) : Link := linkOf w.past

abbrev lines (w : Program State Call.Answer) : List Line := complete newline (link w).sent

abbrev begun (w : Program State Call.Answer) : Line := openLine newline (link w).sent

def Obeys (host : Host) (os : Os) : Prop := ∀ past fd,
  (linkOf past).heard <+: bytesOf (host.told (complete newline (linkOf past).sent)) →
    (linkOf past).heard ++ os past (.recv fd) <+:
      bytesOf (host.told (complete newline (linkOf past).sent))

/-- These answers have not been read yet. Something of them may be in the buffer. -/
structure Waiting (host : Host) (unread : List Line) (w : Program State Call.Answer) : Prop where
  read : ∃ read, host.told (lines w) = read ++ unread ∧ (link w).heard = bytesOf read ++ w.state.rx
  obeyed : (link w).heard <+: bytesOf (host.told (lines w))

theorem bytesOf_append (a b : List Line) : bytesOf (a ++ b) = bytesOf a ++ bytesOf b :=
  List.flatMap_append

theorem bytesOf_cons (line : Line) (rest : List Line) :
    bytesOf (line :: rest) = line ++ newline :: bytesOf rest := by
  rw [bytesOf, List.flatMap_cons, List.append_assoc]
  rfl

theorem answersFrom_append (host : Host) (past a b : List Line) :
    host.answersFrom past (a ++ b) = host.answersFrom past a ++ host.answersFrom (past ++ a) b := by
  induction a generalizing past with
  | nil => rw [List.append_nil]; rfl
  | cons line a ih =>
      rw [List.cons_append, Host.answersFrom, ih, Host.answersFrom, List.append_assoc, List.cons_append]
      rfl

theorem told_concat (host : Host) (past : List Line) (line : Line) :
    host.told (past ++ [line]) = host.told past ++ [host.answer (past ++ [line])] := by
  rw [Host.told, answersFrom_append, List.nil_append]
  rfl

theorem newline_not_mem_answersFrom (host : Host) (past rest : List Line) :
    ∀ line ∈ host.answersFrom past rest, newline ∉ line := by
  induction rest generalizing past with
  | nil =>
      intro line hline
      cases hline
  | cons next rest ih =>
      intro line hline
      rcases List.mem_cons.mp hline with rfl | hline
      · exact host.oneLine _
      · exact ih _ line hline

theorem newline_not_mem_told (host : Host) (past : List Line) :
    ∀ line ∈ host.told past, newline ∉ line := by
  intro line hline
  rcases List.mem_cons.mp hline with rfl | hline
  · exact host.greetingLine
  · exact newline_not_mem_answersFrom host [] past line hline

theorem line_inj {a b x y : List UInt8} (ha : newline ∉ a) (hb : newline ∉ b)
    (h : a ++ newline :: x = b ++ newline :: y) : a = b ∧ x = y := by
  have htake (l rest : List UInt8) (hl : newline ∉ l) :
      (l ++ newline :: rest).takeWhile (· ≠ newline) = l := by
    rw [List.takeWhile_append_of_pos]
    · simp
    · intro c hc
      rw [decide_eq_true_eq]
      rintro rfl
      exact hl hc
  have hsame : a = b := by
    rw [← htake a x ha, h, htake b y hb]
  subst hsame
  exact ⟨rfl, (List.cons.inj (List.append_cancel_left h)).2⟩

theorem takeLine_eq {rx : List UInt8} {line : Line} {rest : List UInt8}
    (h : takeLine rx = some (line, rest)) : rx = line ++ newline :: rest ∧ newline ∉ line := by
  rw [takeLine] at h
  split at h
  · next hmem =>
      obtain ⟨rfl, rfl⟩ := Prod.mk.inj (Option.some.inj h)
      refine ⟨?_, fun hline => ?_⟩
      · have hdrop : rx.dropWhile (· ≠ newline) ≠ [] := by
          intro hnil
          have hall := List.dropWhile_eq_nil_iff.mp hnil newline hmem
          exact absurd hall (by decide)
        have hhead := List.head_dropWhile_not (· ≠ newline) hdrop
        rw [decide_eq_false_iff_not, not_not] at hhead
        have hsplit := List.takeWhile_append_dropWhile (p := (· ≠ newline)) (l := rx)
        rw [← List.cons_head_tail hdrop, hhead] at hsplit
        exact hsplit.symm
      · have hne := List.mem_takeWhile_imp hline
        exact absurd hne (by decide)
  · cases h

section

variable {host : Host} {os : Os} {unread : List Line} {w : Program State Call.Answer}

theorem link_ask (os : Os) (q : Call) (w : Program State Call.Answer) :
    link (ask os q w).2 = carry (link w) ⟨q, (ask os q w).1⟩ := tally_ask carry _ q w

theorem Waiting.buffer (h : Waiting host unread w) : w.state.rx <+: bytesOf unread := by
  obtain ⟨⟨read, htold, hheard⟩, hobeyed⟩ := h
  rw [htold, bytesOf_append, hheard] at hobeyed
  exact (List.prefix_append_right_inj _).mp hobeyed

theorem Waiting.oneLine (h : Waiting host unread w) : ∀ line ∈ unread, newline ∉ line := by
  obtain ⟨⟨read, htold, -⟩, -⟩ := h
  intro line hline
  apply newline_not_mem_told host (lines w)
  rw [htold]
  exact List.mem_append_right _ hline

theorem Waiting.takeLine (h : Waiting host unread w) {line : Line} {rest : List UInt8}
    (htake : takeLine w.state.rx = some (line, rest)) :
    ∃ unread', unread = line :: unread' ∧
      Waiting host unread' (modify (fun s : State => { s with rx := rest }) w).2 := by
  obtain ⟨hrx, hline⟩ := takeLine_eq htake
  have hbuffer := h.buffer
  cases unread with
  | nil =>
      rw [hrx] at hbuffer
      have hnil := List.prefix_nil.mp hbuffer
      exact absurd hnil (List.append_ne_nil_of_right_ne_nil _ (List.cons_ne_nil _ _))
  | cons raw unread' =>
      have hraw := h.oneLine raw List.mem_cons_self
      obtain ⟨more, hmore⟩ := hbuffer
      rw [hrx, bytesOf_cons, List.append_assoc, List.cons_append] at hmore
      obtain ⟨rfl, -⟩ := line_inj hline hraw hmore
      obtain ⟨⟨read, htold, hheard⟩, hobeyed⟩ := h
      refine ⟨unread', rfl, ⟨read ++ [line], ?_, ?_⟩, hobeyed⟩
      · rw [List.append_assoc]
        exact htold
      · have hstill : (link w).heard = bytesOf read ++ (line ++ newline :: rest) := by
          rw [hheard, hrx]
        rw [bytesOf_append, List.append_assoc]
        have hlast : bytesOf [line] ++ rest = line ++ newline :: rest := by
          rw [bytesOf_cons, List.append_assoc]
          rfl
        rw [← hlast] at hstill
        exact hstill

theorem Waiting.recv (hos : Obeys host os) (h : Waiting host unread w) (fd : Int) :
    Waiting host unread (modify (fun s : State =>
      { s with rx := s.rx ++ (ask os (.recv fd) w).1 }) (ask os (.recv fd) w).2).2 := by
  obtain ⟨⟨read, htold, hheard⟩, hobeyed⟩ := h
  have hlink : link (ask os (.recv fd) w).2 =
      { link w with heard := (link w).heard ++ (ask os (.recv fd) w).1 } := link_ask os (.recv fd) w
  have hmore := hos w.past fd hobeyed
  refine ⟨⟨read, ?_, ?_⟩, ?_⟩
  · have hsame : lines (ask os (.recv fd) w).2 = lines w := by rw [lines, hlink]
    exact (congrArg host.told hsame).trans htold
  · have hall := congrArg Link.heard hlink
    rw [hheard, List.append_assoc] at hall
    exact hall
  · have hall := congrArg Link.heard hlink
    have hsame : lines (ask os (.recv fd) w).2 = lines w := by rw [lines, hlink]
    have hgoal : (link (ask os (.recv fd) w).2).heard <+: bytesOf (host.told (lines w)) := by
      rw [hall]
      exact hmore
    rw [← hsame] at hgoal
    exact hgoal

end

end RimeWinime.Win32Proxy
