import RimeWinime.Lib.Outside
import RimeWinime.Lib.Utf8

namespace RimeWinime.Win32Proxy

open World Outside
open Utf8 (encode)

def newline : UInt8 := 0x0A

def carriageReturn : UInt8 := 0x0D

def blank : UInt8 := 0x20

def bar : UInt8 := 0x7C

abbrev Line : Type := List UInt8

structure ProxyResult where
  composition : List UInt8 := []
  reading : List UInt8 := []
  items : List (List UInt8) := []
deriving DecidableEq

def startsWith (text pat : List UInt8) : Bool := pat.isPrefixOf text

/-- `text.find`: the text from the first place where it is. -/
def find (pat : List UInt8) : List UInt8 → Option (List UInt8)
  | [] => if pat = [] then some [] else none
  | c :: text => if startsWith (c :: text) pat then some (c :: text) else find pat text

def extractBetween (text : List UInt8) (begin : String) (endChar : UInt8) : Option (List UInt8) :=
  match find (encode begin) text with
  | some found =>
      let rest := found.drop (encode begin).length
      if endChar ∈ rest then some (rest.takeWhile (· ≠ endChar)) else none
  | none => none

def splitItems (text : List UInt8) : List (List UInt8) :=
  (text.splitOn bar).filter (fun token => token ≠ [] && token ≠ encode "...")

def isDigit (c : UInt8) : Bool := 0x30 ≤ c && c ≤ 0x39

def isLower (c : UInt8) : Bool := 0x61 ≤ c && c ≤ 0x7A

def isUpper (c : UInt8) : Bool := 0x41 ≤ c && c ≤ 0x5A

def isControl (c : UInt8) : Bool := c < 0x20 || c = 0x7F

def sanitizeLine (s : List UInt8) : List UInt8 :=
  s.flatMap fun c =>
    if c = carriageReturn || c = newline then [blank]
    else if isControl c then []
    else if c < 0x80 then
      if isDigit c || isLower c || isUpper c || c = 0x27 || c = blank || c = 0x5F || c = 0x2D then [c]
      else []
    else [c]

def sanitizeQueryInput (s : List UInt8) : List UInt8 :=
  s.filter fun c =>
    if isControl c then false
    else if c < 0x80 then isLower c || isDigit c || c = 0x27
    else true

def parseCandidateReply (line : Line) : Option ProxyResult :=
  if !startsWith line (encode "CAND_RET ") then none
  else if (find (encode "err=") line).isSome then none
  else
    let composition := (extractBetween line "comp=[" 0x5D).getD []
    let reading := (extractBetween line "read=[" 0x5D).getD []
    match find (encode "#0\x7b") line with
    | none => some { composition, reading }
    | some found =>
        match extractBetween found "items=[" 0x5D with
        | some rawItems => some { composition, reading, items := splitItems rawItems }
        | none => some { composition, reading }

theorem newline_not_mem_sanitizeLine (s : List UInt8) : newline ∉ sanitizeLine s := by
  intro h
  obtain ⟨c, -, hc⟩ := List.mem_flatMap.mp h
  by_cases hend : (c = carriageReturn || c = newline) = true
  · rw [if_pos hend] at hc
    cases List.mem_singleton.mp hc
  · rw [if_neg hend] at hc
    have hne : c ≠ newline := by
      rintro rfl
      exact hend rfl
    have hkept (l : List UInt8) (hl : ∀ x ∈ l, x = c) : newline ∉ l :=
      fun hmem => hne (hl newline hmem).symm
    revert hc
    split
    · exact List.not_mem_nil
    · split
      · split
        · exact hkept [c] fun x hx => List.mem_singleton.mp hx
        · exact List.not_mem_nil
      · exact hkept [c] fun x hx => List.mem_singleton.mp hx

theorem newline_not_mem_sanitizeQueryInput (s : List UInt8) : newline ∉ sanitizeQueryInput s := by
  intro h
  exact absurd (List.mem_filter.mp h).2 (by decide)

structure Config where
  codepage : Int
  command : List UInt8
  oneShot : Bool
  /-- The constructor of the translator has cleaned the command. -/
  oneLine : newline ∉ command

inductive Call
  | socket
  /-- `inet_pton` and `connect`, with the wait for it. -/
  | connect (fd : Int)
  | send (fd : Int) (bytes : List UInt8)
  | recv (fd : Int)
  | close (fd : Int)

/-- Nothing is received at the end of the stream, after the timeout and if the socket fails. -/
@[reducible] def Call.Answer : Call → Type
  | socket => Int
  | connect _ => Bool
  | send _ _ => Int
  | recv _ => List UInt8
  | close _ => Unit

structure State where
  fd : Int := -1
  rx : List UInt8 := []
deriving DecidableEq

abbrev Os : Type := Answers Call.Answer

abbrev Run (α : Type) : Type := Act (Program State Call.Answer) α

def started : Program State Call.Answer := ⟨{}, []⟩

section

variable (os : Os) (config : Config) (patience : Nat)

def closeUnlocked : Run Unit := do
  let s ← get
  when (0 ≤ s.fd) do
    ask os (.close s.fd)
    modify fun s => { s with fd := -1 }
  modify fun s => { s with rx := [] }

/-- Each call sends at least a byte, so there are no more calls than bytes. -/
def sendAll : Nat → List UInt8 → Run Bool
  | _, [] => pure true
  | 0, _ => pure false
  | calls + 1, wire => do
      let s ← get
      let n ← ask os (.send s.fd wire)
      if n ≤ 0 then pure false else sendAll calls (wire.drop n.toNat)

def chomp (line : Line) : Line := if line.getLast? = some carriageReturn then line.dropLast else line

def takeLine (rx : List UInt8) : Option (Line × List UInt8) :=
  if newline ∈ rx then some (rx.takeWhile (· ≠ newline), (rx.dropWhile (· ≠ newline)).tail) else none

/-- A host that sends a line without an end is given up after so many reads, as if the socket
had failed then. -/
def readLineUnlocked : Nat → Run (Option Line)
  | 0 => pure none
  | reads + 1 => do
      let s ← get
      match takeLine s.rx with
      | some (line, rest) =>
          modify fun s => { s with rx := rest }
          pure (some (chomp line))
      | none =>
          let bytes ← ask os (.recv s.fd)
          if bytes = [] then pure none
          else
            modify fun s => { s with rx := s.rx ++ bytes }
            readLineUnlocked reads

/-- A greeting, an empty line and the answer to something else are skipped. -/
def isAnswer (expected : String) (line : Line) : Bool :=
  !startsWith line (encode "HELLO ") && line ≠ [] && startsWith line (encode expected)

def receive (expected : String) : Nat → Run (Option Line)
  | 0 => pure none
  | turns + 1 => do
      match ← readLineUnlocked os patience with
      | some line => if isAnswer expected line then pure (some line) else receive expected turns
      | none => pure none

def sendCommandUnlocked (cmd : List UInt8) (expected : String) : Run (Option Line) := do
  let wire := cmd ++ [newline]
  let sent ← sendAll os wire.length wire
  if sent then receive os patience expected 8 else pure none

def orClose (x : Run (Option Line)) : Run Bool := do
  let answer ← x
  if answer.isSome then pure true
  else
    closeUnlocked os
    pure false

def activateUnlocked : Run Bool := orClose os (sendCommandUnlocked os patience (encode "ACTIVATE") "OK ACTIVATE")

def cpCommand (codepage : Int) : List UInt8 := encode "CP " ++ encode (toString codepage)

def setCodepage : Run Bool :=
  orClose os (sendCommandUnlocked os patience (cpCommand config.codepage) "OK CP ")

def andThenDo (x y : Run Bool) : Run Bool := do
  let ok ← x
  if ok then y else pure false

def openSocket : Run Bool := do
  let fd ← ask os .socket
  modify fun s => { s with fd := fd }
  if fd < 0 then pure false
  else
    let connected ← ask os (.connect fd)
    if connected then pure true
    else
      closeUnlocked os
      pure false

def ensureConnectedUnlocked : Run Bool := do
  let s ← get
  if 0 ≤ s.fd then pure true
  else andThenDo (openSocket os) (andThenDo (activateUnlocked os patience) (setCodepage os config patience))

def askCandidates (cmd : List UInt8) : Run (Option ProxyResult) := do
  let answer ← sendCommandUnlocked os patience cmd "CAND_RET "
  pure (answer.bind parseCandidateReply)

def commandFor (cmd input : List UInt8) : List UInt8 := cmd ++ [blank] ++ input

def better (parsed : ProxyResult) (fallback : Option ProxyResult) : ProxyResult :=
  match fallback with
  | some fallback => if fallback.items = [] then parsed else fallback
  | none => parsed

def orElseAsk (wanted : Bool) (cmd : List UInt8) (parsed : ProxyResult) : Run ProxyResult := do
  if parsed.items = [] && wanted then
    let fallback ← askCandidates os patience cmd
    pure (better parsed fallback)
  else pure parsed

def fallbacks (input : List UInt8) (parsed : ProxyResult) : Run ProxyResult := do
  let parsed ← orElseAsk os patience true (encode "CAND") parsed
  let parsed ← orElseAsk os patience (config.command ≠ encode "KEYTEXTU")
    (commandFor (encode "KEYTEXTU") input) parsed
  orElseAsk os patience (config.command ≠ encode "TEXTU") (commandFor (encode "TEXTU") input) parsed

/-- What is found is returned, and after nothing the host starts anew. -/
def conclude (parsed : ProxyResult) : Run (Option ProxyResult) := do
  if parsed.items ≠ [] then
    when config.oneShot (closeUnlocked os)
    pure (some parsed)
  else
    let _ ← sendCommandUnlocked os patience (encode "RESET") "OK RESET"
    closeUnlocked os
    pure none

def askAll (input : List UInt8) : Run (Option ProxyResult) := do
  match ← askCandidates os patience (commandFor config.command input) with
  | some parsed =>
      let parsed ← fallbacks os config patience input parsed
      conclude os config patience parsed
  | none =>
      closeUnlocked os
      pure none

def attempt (input : List UInt8) : Run (Option ProxyResult) := do
  let connected ← ensureConnectedUnlocked os config patience
  if connected then
    let active ← activateUnlocked os patience
    if active then askAll os config patience input else pure none
  else
    closeUnlocked os
    pure none

def query (utf8Input : List UInt8) : Run (Option ProxyResult) := do
  let input := sanitizeQueryInput utf8Input
  match ← attempt os config patience input with
  | some result => pure (some result)
  | none => attempt os config patience input

/-- The life of a client: these queries, and the destructor. -/
def queries : List (List UInt8) → Run (List (Option ProxyResult))
  | [] => pure []
  | input :: inputs => do
      let result ← query os config patience input
      let results ← queries inputs
      pure (result :: results)

end

end RimeWinime.Win32Proxy
