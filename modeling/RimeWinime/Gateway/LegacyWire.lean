import RimeWinime.Lib.Utf8
import RimeWinime.Gateway.Ipc
import RimeWinime.Gateway.LegacyTalk

namespace RimeWinime.LegacyWire

open World Backends Utf8 Ipc

def newline : UInt8 := 0x0A

def carriageReturn : UInt8 := 0x0D

def keepByte (out : List UInt8) (byte : UInt8) : List UInt8 :=
  if byte ≠ carriageReturn then out ++ [byte] else out

/-- The bytes that arrive before the stream ends or the socket fails: what the
reader returns, and the bytes after those it has read. -/
def readLine (ends : Bool) : List UInt8 → List UInt8 → Except String (Option String) × List UInt8
  | [], out =>
      if ends then (.ok (if out = [] then none else some (fromUtf8Lossy out)), [])
      else (.error "socket read failed", [])
  | byte :: bytes, out =>
      if byte = newline then (.ok (some (fromUtf8Lossy out)), bytes)
      else if ipcMaxFrameBytes < (keepByte out byte).length then (.error "line exceeds max size", bytes)
      else readLine ends bytes (keepByte out byte)

def takeLines : List Char → List Char → List String × List Char
  | openLine, [] => ([], openLine)
  | openLine, c :: text =>
      if c = '\n' then (String.ofList openLine :: (takeLines [] text).1, (takeLines [] text).2)
      else takeLines (openLine ++ [c]) text

/-- The host greets each connection, and answers a line as all the lines say that
it has received. -/
structure LegacyServer where
  greeting : List UInt8
  answer : List String → List UInt8

/-- A line of the host, as far as it has not been read. -/
structure Reply where
  history : List String
  bytes : List UInt8
deriving DecidableEq

/-- A command that has been written, the lines that the host has received by it,
all those that it had received then, and the lines that were read after it. -/
structure Exchange where
  command : String
  carried : Bool
  lines : List String
  history : List String
  heard : List (List String × String)
deriving DecidableEq

inductive Delivery
  | whole
  | broken (arrived : Nat)
  | ended
deriving DecidableEq

/-- What becomes of each call on the socket. -/
structure Network where
  connects : Nat → Bool
  cuts : Nat → Option Nat
  delivers : Nat → Delivery

/-- The host's side of the talk and the connection that is open. The exchanges are
those of all connections, the latest first. -/
structure Wire where
  received : List String := []
  openLine : List Char := []
  unread : List Reply := []
  exchanges : List Exchange := []
  calls : Nat := 0
deriving DecidableEq

def Delivery.arrived : Delivery → List UInt8 → List UInt8
  | .whole, bytes => bytes
  | .broken n, bytes => bytes.take n
  | .ended, _ => []

def carriedText (cut : Option Nat) (text : List Char) : List Char :=
  match cut with
  | none => text
  | some n => text.take n

namespace Wire

def call (w : Wire) : Wire := { w with calls := w.calls + 1 }

def hear (answer : List String × String) (w : Wire) : Wire :=
  match w.exchanges with
  | [] => w
  | e :: es => { w with exchanges := { e with heard := e.heard ++ [answer] } :: es }

end Wire

section

variable (server : LegacyServer) (net : Network)

def reply (history : List String) : Reply := ⟨history, server.answer history ++ [newline]⟩

def greet : Reply := ⟨[], server.greeting ++ [newline]⟩

def replies : List String → List String → List Reply
  | _, [] => []
  | received, line :: lines => reply server (received ++ [line]) :: replies (received ++ [line]) lines

def connect (w : Wire) : Except String Unit × Wire :=
  if net.connects w.calls then (.ok (), { w.call with openLine := [], unread := [greet server] })
  else (.error "connect failed", w.call)

/-- The wire after a write by which the host has received these lines. -/
def put (command : String) (carried : Bool) (lines : List String) (openLine : List Char) (w : Wire) :
    Wire :=
  { w.call with
    received := w.received ++ lines
    openLine := openLine
    unread := w.unread ++ replies server w.received lines
    exchanges := ⟨command, carried, lines, w.received ++ lines, []⟩ :: w.exchanges }

def writeLine (command : String) (w : Wire) : Except String Unit × Wire :=
  let cut := net.cuts w.calls
  let taken := takeLines w.openLine (carriedText cut (command.toList ++ ['\n']))
  (if cut = none then .ok () else .error "socket write failed",
    put server command (cut = none) taken.1 taken.2 w)

def nextLine (w : Wire) : Except String (Option String) × Wire :=
  let delivery := net.delivers w.calls
  match w.unread with
  | [] => ((readLine (delivery = .ended) [] []).1, w.call)
  | r :: rest =>
      let arrived := delivery.arrived r.bytes
      let out := readLine (delivery = .ended) arrived []
      let left := out.2 ++ r.bytes.drop arrived.length
      let w := { w.call with unread := if left = [] then rest else { r with bytes := left } :: rest }
      match out.1 with
      | .ok (some line) => (.ok (some line), w.hear (r.history, line))
      | out => (out, w)

def undisturbed : Network := ⟨fun _ => true, fun _ => none, fun _ => .whole⟩

def socket : LegacyHost Wire where
  connect := connect server net
  writeLine := writeLine server net
  readLine := nextLine net

end

@[simp] theorem hear_received (answer : List String × String) (w : Wire) :
    (w.hear answer).received = w.received := by
  rw [Wire.hear]
  split <;> rfl

@[simp] theorem hear_unread (answer : List String × String) (w : Wire) :
    (w.hear answer).unread = w.unread := by
  rw [Wire.hear]
  split <;> rfl

@[simp] theorem hear_openLine (answer : List String × String) (w : Wire) :
    (w.hear answer).openLine = w.openLine := by
  rw [Wire.hear]
  split <;> rfl

theorem takeLines_open {text : List Char} (htext : '\n' ∉ text) (openLine : List Char) :
    takeLines openLine text = ([], openLine ++ text) := by
  induction text generalizing openLine with
  | nil => rw [takeLines, List.append_nil]
  | cons c text ih =>
      obtain ⟨hne, hrest⟩ := not_or.mp (mt List.mem_cons.mpr htext)
      rw [takeLines, if_neg (Ne.symm hne), ih hrest, List.append_assoc, List.singleton_append]

theorem takeLines_line {text : List Char} (htext : '\n' ∉ text) (openLine : List Char) :
    takeLines openLine (text ++ ['\n']) = ([String.ofList (openLine ++ text)], []) := by
  induction text generalizing openLine with
  | nil => simp [takeLines]
  | cons c text ih =>
      obtain ⟨hne, hrest⟩ := not_or.mp (mt List.mem_cons.mpr htext)
      rw [List.cons_append, takeLines, if_neg (Ne.symm hne), ih hrest, List.append_assoc,
        List.singleton_append]

theorem length_takeLines (openLine text : List Char) :
    (takeLines openLine text).1.length = text.count '\n' := by
  induction text generalizing openLine with
  | nil => rfl
  | cons c text ih =>
      rw [takeLines]
      by_cases hc : c = '\n'
      · rw [if_pos hc, hc, List.length_cons, ih, List.count_cons_self]
      · rw [if_neg hc, ih, List.count_cons_of_ne hc]

theorem takeLines_command {text : List Char} (htext : '\n' ∉ text) (openLine : List Char)
    (cut : Option Nat) :
    takeLines openLine (carriedText cut (text ++ ['\n'])) = ([String.ofList (openLine ++ text)], []) ∨
      cut ≠ none ∧ ∃ part, part <+: text ∧
        takeLines openLine (carriedText cut (text ++ ['\n'])) = ([], openLine ++ part) := by
  cases cut with
  | none => exact Or.inl (takeLines_line htext openLine)
  | some n =>
      rw [carriedText]
      by_cases hn : n ≤ text.length
      · have hpart : text.take n <+: text := List.take_prefix n text
        rw [List.take_append_of_le_length hn]
        refine Or.inr ⟨nofun, _, hpart, takeLines_open (fun h => htext (hpart.subset h)) openLine⟩
      · have hall : (text ++ ['\n']).length ≤ n := by
          rw [List.length_append, List.length_singleton]
          omega
        rw [List.take_of_length_le hall]
        exact Or.inl (takeLines_line htext openLine)

theorem writeLine_cases (server : LegacyServer) (net : Network) {command : String}
    (hcommand : '\n' ∉ command.toList) (w : Wire) :
    let line := String.ofList (w.openLine ++ command.toList)
    writeLine server net command w = (.ok (), put server command true [line] [] w) ∨
      ∃ m lines left, writeLine server net command w = (.error m, put server command false lines left w) ∧
        (lines = [line] ∧ left = [] ∨
          lines = [] ∧ ∃ part, part <+: command.toList ∧ left = w.openLine ++ part) := by
  intro line
  cases hcut : net.cuts w.calls with
  | none =>
      refine Or.inl ?_
      simp only [writeLine, hcut, carriedText, takeLines_line hcommand, decide_true, reduceIte, line]
  | some n =>
      have hrun : writeLine server net command w = (.error "socket write failed",
          put server command false
            (takeLines w.openLine (carriedText (some n) (command.toList ++ ['\n']))).1
            (takeLines w.openLine (carriedText (some n) (command.toList ++ ['\n']))).2 w) := by
        simp only [writeLine, hcut, reduceCtorEq, reduceIte, decide_false]
      refine Or.inr ⟨_, _, _, hrun, ?_⟩
      rcases takeLines_command hcommand w.openLine (some n) with hall | ⟨-, part, hpart, htaken⟩
      · rw [hall]
        exact Or.inl ⟨rfl, rfl⟩
      · rw [htaken]
        exact Or.inr ⟨rfl, part, hpart, rfl⟩

def lineOf (body : List UInt8) : String := fromUtf8Lossy (body.filter (· ≠ carriageReturn))

theorem keepByte_append (out : List UInt8) (byte : UInt8) (body : List UInt8) :
    keepByte out byte ++ body.filter (· ≠ carriageReturn) =
      out ++ (byte :: body).filter (· ≠ carriageReturn) := by
  by_cases hcr : byte = carriageReturn <;> simp [keepByte, hcr]

theorem readLine_cases {body : List UInt8} (hbody : newline ∉ body) (n : Nat) (out : List UInt8) :
    let r := readLine false ((body ++ [newline]).take n) out
    (∃ e part, r.1 = .error e ∧ part <:+ body ∧
      r.2 ++ (body ++ [newline]).drop n = part ++ [newline]) ∨
    r = (.ok (some (fromUtf8Lossy (out ++ body.filter (· ≠ carriageReturn)))), []) ∧
      (body ++ [newline]).drop n = [] := by
  induction body generalizing n out with
  | nil =>
      cases n with
      | zero => exact Or.inl ⟨_, [], rfl, List.suffix_refl [], rfl⟩
      | succ n =>
          refine Or.inr ⟨?_, List.drop_of_length_le (Nat.le_add_left 1 n)⟩
          simp [readLine]
  | cons byte body ih =>
      obtain ⟨hne, hrest⟩ := not_or.mp (mt List.mem_cons.mpr hbody)
      cases n with
      | zero => exact Or.inl ⟨_, byte :: body, rfl, List.suffix_refl _, rfl⟩
      | succ n =>
          rw [List.cons_append, List.take_succ_cons, List.drop_succ_cons, readLine,
            if_neg (Ne.symm hne)]
          by_cases hover : ipcMaxFrameBytes < (keepByte out byte).length
          · rw [if_pos hover]
            refine Or.inl ⟨_, body, rfl, List.suffix_cons _ _, ?_⟩
            exact List.take_append_drop n (body ++ [newline])
          · rw [if_neg hover, ← keepByte_append]
            rcases ih hrest n (keepByte out byte) with ⟨e, part, herror, hpart, hleft⟩ | hread
            · exact Or.inl ⟨e, part, herror, hpart.trans (List.suffix_cons _ _), hleft⟩
            · exact Or.inr hread

theorem arrived_cases (delivery : Delivery) (bytes : List UInt8) :
    delivery = .ended ∨ delivery ≠ .ended ∧ ∃ n, delivery.arrived bytes = bytes.take n := by
  cases delivery with
  | whole => exact Or.inr ⟨nofun, bytes.length, (List.take_length (l := bytes)).symm⟩
  | broken n => exact Or.inr ⟨nofun, n, rfl⟩
  | ended => exact Or.inl rfl

theorem drop_arrived (n : Nat) (bytes : List UInt8) : bytes.drop (bytes.take n).length = bytes.drop n := by
  rw [List.length_take, ← List.drop_eq_drop_min]

theorem nextLine_cases (net : Network) {w : Wire} {history : List String} {body : List UInt8}
    {rest : List Reply} (hunread : w.unread = ⟨history, body ++ [newline]⟩ :: rest)
    (hbody : newline ∉ body) :
    ((∃ e, (nextLine net w).1 = .error e) ∨ (nextLine net w).1 = .ok none) ∧
      (∃ part, part <:+ body ∧
        (nextLine net w).2 = { w.call with unread := ⟨history, part ++ [newline]⟩ :: rest }) ∨
    nextLine net w =
      (.ok (some (lineOf body)), Wire.hear (history, lineOf body) { w.call with unread := rest }) := by
  rcases arrived_cases (net.delivers w.calls) (body ++ [newline]) with hended | ⟨hlive, n, harrived⟩
  · refine Or.inl ⟨Or.inr ?_, body, List.suffix_refl body, ?_⟩
    · simp [nextLine, hunread, hended, Delivery.arrived, readLine]
    · simp [nextLine, hunread, hended, Delivery.arrived, readLine]
  · rcases readLine_cases hbody n [] with ⟨e, part, herror, hpart, hrest⟩ | ⟨hread, hrest⟩
    · have hmore : part ++ [newline] ≠ [] := List.append_ne_nil_of_right_ne_nil _ (List.cons_ne_nil _ _)
      refine Or.inl ⟨Or.inl ⟨e, ?_⟩, part, hpart, ?_⟩
      · simp only [nextLine, hunread, hlive, decide_false, harrived, herror]
      · simp only [nextLine, hunread, hlive, decide_false, harrived, drop_arrived, herror, hrest, hmore, reduceIte]
    · refine Or.inr ?_
      simp only [nextLine, hunread, hlive, decide_false, harrived, drop_arrived, hread, hrest, List.append_nil,
        List.nil_append, reduceIte, lineOf]

theorem readLine_whole {body : List UInt8} (hbody : newline ∉ body) {out : List UInt8}
    (hshort : out.length + body.length ≤ ipcMaxFrameBytes) :
    readLine false (body ++ [newline]) out =
      (.ok (some (fromUtf8Lossy (out ++ body.filter (· ≠ carriageReturn)))), []) := by
  induction body generalizing out with
  | nil => simp [readLine]
  | cons byte body ih =>
      obtain ⟨hne, hrest⟩ := not_or.mp (mt List.mem_cons.mpr hbody)
      have hkept : (keepByte out byte).length ≤ out.length + 1 := by
        rw [keepByte]
        split
        · rw [List.length_append, List.length_singleton]
        · exact Nat.le_succ _
      rw [List.length_cons] at hshort
      have hover : ¬ipcMaxFrameBytes < (keepByte out byte).length := by omega
      rw [List.cons_append, readLine, if_neg (Ne.symm hne), if_neg hover, ih hrest (by omega),
        keepByte_append]

theorem nextLine_whole {w : Wire} {history : List String} {body : List UInt8} {rest : List Reply}
    (hunread : w.unread = ⟨history, body ++ [newline]⟩ :: rest) (hbody : newline ∉ body)
    (hshort : body.length ≤ ipcMaxFrameBytes) :
    nextLine undisturbed w =
      (.ok (some (lineOf body)), Wire.hear (history, lineOf body) { w.call with unread := rest }) := by
  have hread : readLine false (body ++ [newline]) [] = _ :=
    readLine_whole hbody (by rwa [List.length_nil, Nat.zero_add])
  simp only [nextLine, hunread, undisturbed, Delivery.arrived, reduceCtorEq, decide_false, hread,
    List.drop_length, List.append_nil, List.nil_append, reduceIte, lineOf]

theorem nextLine_silent (net : Network) {w : Wire} (hunread : w.unread = []) :
    ((∃ e, (nextLine net w).1 = .error e) ∨ (nextLine net w).1 = .ok none) ∧
      (nextLine net w).2 = w.call := by
  simp only [nextLine, hunread, readLine]
  by_cases hended : net.delivers w.calls = .ended
  · simp [hended]
  · simp [hended]

end RimeWinime.LegacyWire
