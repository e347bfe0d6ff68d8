import RimeWinime.Skeleton.Keystroke

namespace RimeWinime.ImeHost

open World Outside
open CString ImeText
open CandidateReply (number signed appendAll buildCandidateReply replyBuffer)
open Utf8 (encode)

def utf8Codepage : UInt32 := 65001

/-- What `snprintf(reply, sizeof(reply), …)` leaves in the buffer. -/
def printed (text : List UInt8) : List UInt8 := cString (text.take (replyBuffer.length - 1))

/-- What the calls of `appendf` leave in the buffer. -/
def appended (texts : List (List UInt8)) : List UInt8 :=
  ((appendAll ⟨replyBuffer, 0⟩ texts).map (fun out => cString out.mem)).getD []

def State.candidates (s : State) : CandidateReply.Host :=
  ⟨s.candCodepage, s.lastCompBytes, s.lastCandCount, s.lastCandSel⟩

def State.note (h : CandidateReply.Host) (s : State) : State :=
  { s with
    lastCompBytes := h.lastCompBytes
    lastCandCount := h.lastCandCount
    lastCandSel := h.lastCandSel }

section

variable (multiByteToWide : UInt32 → List UInt8 → Option (List UInt16)) (os : Os)

def queried {α : Type} (himc : Handle) (query : Run α) : Run (Option α) := do
  if himc = 0 then pure none
  else
    let a ← query
    pure (some a)

/-- The buffer is never left (`buildCandidateReply_printed`). -/
def candidateReply (ime : Option CandidateReply.ImeState) : Run (List UInt8) := do
  let s ← get
  let (h, mem) :=
    (buildCandidateReply multiByteToWide s.candidates ime replyBuffer).getD (s.candidates, [])
  modify (State.note h)
  pure (cString mem)

def replyWithCandidateSnapshot : Run (List UInt8) := do
  let (himc, borrowed) ← getActiveHimc os
  let ime ← queried himc (ask os (.candidateState himc))
  let reply ← candidateReply multiByteToWide ime
  releaseActiveHimc os himc borrowed
  pure reply

def runKeyAndReplyCand (vk : UInt32) : Run (List UInt8) := do
  let _ ← handleKeyInternal os vk false
  replyWithCandidateSnapshot multiByteToWide os

/-- Nothing if the text does not fit into a buffer of `cch` characters. -/
def utf8ToWideText (text : List UInt8) (cch : Nat) : Option (List UInt16) :=
  ((multiByteToWide utf8Codepage text).filter (fun w => w.length < cch)).map cString

/-- The loop over a text: what a character comes to counts if it is typed. -/
def typeChars {α β : Type} (limit : Nat) (type : α → Run (Option β)) : List α → List β → Run (List β)
  | [], done => pure done
  | c :: text, done =>
      if done.length < limit then do
        match ← type c with
        | some b => typeChars limit type text (done ++ [b])
        | none => typeChars limit type text done
      else pure done

def isAsciiChar (c : UInt8) : Bool := 0x20 ≤ c && c < 0x7F

def isWideChar (wc : UInt16) : Bool := 0x20 ≤ wc && wc ≠ 0x7F

/-- A message for the character itself, if it is one that can be seen. -/
def sendChar (wide pump visible : Bool) (wc : UInt16) : Run Unit := do
  let s ← get
  when visible do
    ask os (.sendMessage wide (imeTargetHwnd s) wmChar wc.toUInt32 1)
    when pump (ask os .pumpMessages)

def sendAsciiChar (pump : Bool) (c : UInt8) : Run Unit :=
  sendChar os false pump (isAsciiChar c) c.toUInt16

def sendWideChar (pump : Bool) (wc : UInt16) : Run Unit := sendChar os true pump (isWideChar wc) wc

def strikeChord (chord : Option KeyChord) : Run Unit := do
  match chord with
  | some k =>
      let _ ← handleKeyModInternal os k false
      pure ()
  | none => pure ()

def typeKey {α : Type} (chordOf : α → Run (Option KeyChord)) (c : α) : Run (Option Unit) := do
  let chord ← chordOf c
  strikeChord os chord
  pure (if chord.isSome then some () else none)

def typeAscii (pump : Bool) (hkl : Handle) (c : UInt8) : Run (Option Unit) := do
  let chord ← keyChordFromAsciiChar os c hkl
  strikeChord os chord
  when chord.isSome (sendAsciiChar os pump c)
  pure (if chord.isSome then some () else none)

def typeWide (pump : Bool) (hkl : Handle) (wc : UInt16) : Run (Option Unit) := do
  let chord ← keyChordFromWideChar os wc hkl
  strikeChord os chord
  sendWideChar os pump wc
  pure (if chord.isSome || isWideChar wc then some () else none)

def spaceTrigger (trigger : Bool) : Run Unit := do
  when trigger do
    let _ ← handleKeyInternal os vkSpace false
    pure ()

def textLimit : Nat := 64

def traceLimit : Nat := 24

def runText {α : Type} (type : Handle → α → Run (Option Unit)) (text : List α) (trigger : Bool) :
    Run (List UInt8) := do
  activateImePath os
  let hkl ← getTargetHkl os
  let _ ← typeChars textLimit (type hkl) text []
  spaceTrigger os trigger
  replyWithCandidateSnapshot multiByteToWide os

def runKeytextAscii (text : List UInt8) (trigger : Bool) : Run (List UInt8) :=
  runText multiByteToWide os (fun hkl => typeKey os (keyChordFromAsciiChar os · hkl)) text trigger

def runKeytextWide (text : List UInt16) (trigger : Bool) : Run (List UInt8) :=
  runText multiByteToWide os (fun hkl => typeKey os (keyChordFromWideChar os · hkl)) text trigger

def runTextAscii (text : List UInt8) (trigger pump : Bool) : Run (List UInt8) :=
  runText multiByteToWide os (typeAscii os pump) text trigger

/-- With `prefer_unicode_vkey` for as long as it runs. -/
def preferringUnicode {α : Type} (x : Run α) : Run α := do
  let s ← get
  let oldPref := s.preferUnicodeVkey
  modify fun s => { s with preferUnicodeVkey := true }
  let a ← x
  modify fun s => { s with preferUnicodeVkey := oldPref }
  pure a

def runTextWide (text : List UInt16) (trigger pump : Bool) : Run (List UInt8) :=
  preferringUnicode (runText multiByteToWide os (typeWide os pump) text trigger)

def badUtf8 : List UInt8 := encode "CAND_RET err=bad_utf8\n"

def runTextUtf8 (text : List UInt8) (trigger pump : Bool) : Run (List UInt8) := do
  match utf8ToWideText multiByteToWide text 512 with
  | some wide => runTextWide multiByteToWide os wide trigger pump
  | none => pure (printed badUtf8)

def runKeytextUtf8 (text : List UInt8) (trigger : Bool) : Run (List UInt8) := do
  match utf8ToWideText multiByteToWide text 512 with
  | some wide => runKeytextWide multiByteToWide os wide trigger
  | none => pure (printed badUtf8)

def noTrace : TraceState :=
  { comp := ⟨0, 0, []⟩
    reading := ⟨0, 0, []⟩
    countW := (0, 0)
    countA := (0, 0)
    listW := ⟨0, false, 0, []⟩
    listA := ⟨0, false, 0, []⟩ }

/-- `sizeof(comp_w) / sizeof(comp_w[0])` and `sizeof(comp_utf8)` of a step -/
def stepWide : Nat := 96

def stepUtf8 : Nat := 128

def traceKey (s : State) : List UInt8 :=
  encode "\x7bproc=" ++ signed s.lastProcess.toInt ++
    encode " imm=0x" ++ hex 8 s.lastImmFlags.toNat ++ encode " ascii=" ++ number s.lastAscii.toNat ++
    encode " msgs=" ++ number s.lastMsgs.toNat

def traceComp (cp : UInt32) (comp reading : Int × List UInt16) : List UInt8 :=
  encode " compBytes=" ++ signed (max comp.1 0) ++ encode " readBytes=" ++ signed (max reading.1 0) ++
    encode " comp=[" ++ decodeImeWideText multiByteToWide cp comp.2 stepUtf8 ++
    encode "] read=[" ++ decodeImeWideText multiByteToWide cp reading.2 stepUtf8

def traceLists (counts : UInt32 × UInt32) (cand : CandList) : List UInt8 :=
  let field (n : UInt32) := number (if cand.loaded then n.toNat else 0)
  encode "] lists=" ++ number counts.2.toNat ++ encode " total=" ++ number counts.1.toNat ++
    encode " c0=" ++ field cand.dwCount ++ encode " sel=" ++ field cand.dwSelection ++
    encode " page=" ++ field cand.dwPageSize ++ encode "\x7d"

def traceText (label : List UInt8) (s : State) (t : TraceState) : List UInt8 :=
  label ++ traceKey s ++
    traceComp multiByteToWide s.candCodepage (readCompWide t.comp stepWide)
      (readCompWide t.reading stepWide) ++
    traceLists (if t.countW.2 = 0 then t.countA else t.countW)
      (if t.listW.size ≠ 0 then t.listW else t.listA)

def appendTraceStep (label : List UInt8) : Run (List UInt8) := do
  let (himc, borrowed) ← getActiveHimc os
  let t ← queried himc (ask os (.traceState himc))
  let s ← get
  releaseActiveHimc os himc borrowed
  pure (traceText multiByteToWide label s (t.getD noTrace))

def isTraceMark (code : Nat) : Bool := code = 0x3B || code = 0x5B || code = 0x5D

def asciiLabel (c : UInt8) : List UInt8 :=
  if c = blank then encode "SP"
  else if isPrint c && !isTraceMark c.toNat then [c]
  else encode "0x" ++ upperHex 2 c.toNat

def keyLabelFromWideChar (wc : UInt16) : List UInt8 :=
  let code := encode "U+" ++ upperHex 4 wc.toNat
  let utf8 := utf8FromWide [wc] 32
  if wc = 0x20 then encode "SP"
  else if wc < 0x20 || isTraceMark wc.toNat then code
  else if utf8.1 && utf8.2 ≠ [] then lstrcpyn utf8.2 32
  else code

def traceAscii (hkl : Handle) (c : UInt8) : Run (Option (List UInt8)) := do
  let chord ← keyChordFromAsciiChar os c hkl
  if chord.isSome then
    strikeChord os chord
    sendAsciiChar os true c
    let step ← appendTraceStep multiByteToWide os (asciiLabel c)
    pure (some step)
  else pure none

def forgetKey : Run Unit :=
  modify fun s => { s with lastProcess := 0, lastImmFlags := 0, lastAscii := 0, lastMsgs := 0 }

def traceWide (hkl : Handle) (wc : UInt16) : Run (Option (List UInt8)) := do
  let chord ← keyChordFromWideChar os wc hkl
  if chord.isSome || isWideChar wc then
    strikeChord os chord
    when (chord = none) forgetKey
    sendWideChar os true wc
    let step ← appendTraceStep multiByteToWide os (keyLabelFromWideChar wc)
    pure (some step)
  else pure none

def traceTrigger (trigger : Bool) (steps : List (List UInt8)) : Run (List (List UInt8)) := do
  if trigger && steps.length < traceLimit then
    let _ ← handleKeyInternal os vkSpace false
    let step ← appendTraceStep multiByteToWide os (encode "SPC*")
    pure (steps ++ [step])
  else pure steps

def traceHeader (s : State) : List UInt8 :=
  encode "TRACE_RET cp=" ++ number s.candCodepage.toNat ++ encode " data="

def traceReply (s : State) (steps : List (List UInt8)) : List UInt8 :=
  if steps = [] then printed (encode "TRACE_RET err=no_mapped_keys\n")
  else appended ([traceHeader s] ++ steps.intersperse (encode ";") ++ [encode "\n"])

/-- What both traces have in common, for a text after its blanks. -/
def runTrace {α : Type} (type : Handle → α → Run (Option (List UInt8))) (text : List α)
    (trigger : Bool) : Run (List UInt8) := do
  if text = [] then pure (printed (encode "TRACE_RET err=empty\n"))
  else
    activateImePath os
    let hkl ← getTargetHkl os
    let s ← get
    let steps ← typeChars traceLimit (type hkl) text []
    let steps ← traceTrigger multiByteToWide os trigger steps
    pure (traceReply s steps)

def runTraceAscii (text : List UInt8) (trigger : Bool) : Run (List UInt8) :=
  runTrace multiByteToWide os (traceAscii multiByteToWide os)
    (text.dropWhile (fun c => c = 0x20 || c = 0x09)) trigger

def runTraceWide (text : List UInt16) (trigger : Bool) : Run (List UInt8) :=
  preferringUnicode (runTrace multiByteToWide os (traceWide multiByteToWide os)
    (text.dropWhile (fun c => c = 0x20 || c = 0x09)) trigger)

def runTraceUtf8 (text : List UInt8) (trigger : Bool) : Run (List UInt8) := do
  match utf8ToWideText multiByteToWide text 256 with
  | some wide => runTraceWide multiByteToWide os wide trigger
  | none => pure (printed (encode "TRACE_RET err=bad_utf8\n"))

end

end RimeWinime.ImeHost
