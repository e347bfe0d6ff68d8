import RimeWinime.Skeleton.Typing

namespace RimeWinime.ImeHost

open World Outside
open CString ImeText
open CandidateReply (number signed)
open RxBuffer (startsWith isCp)
open Utf8 (encode)

inductive Command
  | ping
  | status
  | cp (arg : List UInt8)
  | cand
  | preedit
  | trace (trigger : Bool) (text : List UInt8)
  | traceUtf8 (trigger : Bool) (text : List UInt8)
  | page (vk : UInt32)
  | pick (arg : List UInt8)
  | commit
  | keytext (trigger : Bool) (text : List UInt8)
  | keytextUtf8 (trigger : Bool) (text : List UInt8)
  | text (text : List UInt8)
  | textUtf8 (text : List UInt8)
  | pipe (text : List UInt8)
  | pipeUtf8 (text : List UInt8)
  | conv (arg : List UInt8)
  | key (arg : List UInt8)
  | keychord (arg : List UInt8)
  | reset
  | activate
  | quit
  | unknown
deriving DecidableEq

/-- The comparisons of `process_command`, in its order. -/
def commandOf (line : List UInt8) : Command :=
  if startsWith line "PING" then .ping
  else if startsWith line "STATUS" then .status
  else if isCp line then .cp (line.drop 2)
  else if startsWith line "CAND" then .cand
  else if startsWith line "PREEDIT" then .preedit
  else if startsWith line "TRACEPIPE " then .trace true (line.drop 10)
  else if startsWith line "TRACEPIPEU " then .traceUtf8 true (line.drop 11)
  else if startsWith line "TRACE " then .trace false (line.drop 6)
  else if startsWith line "TRACEU " then .traceUtf8 false (line.drop 7)
  else if startsWith line "PAGEDOWN" then .page vkNext
  else if startsWith line "PAGEUP" then .page vkPrior
  else if startsWith line "PICK " then .pick (line.drop 5)
  else if startsWith line "COMMIT" then .commit
  else if startsWith line "KEYTEXT " then .keytext false (line.drop 8)
  else if startsWith line "KEYPIPE " then .keytext true (line.drop 8)
  else if startsWith line "KEYTEXTU " then .keytextUtf8 false (line.drop 9)
  else if startsWith line "KEYPIPEU " then .keytextUtf8 true (line.drop 9)
  else if startsWith line "TEXT " then .text (line.drop 5)
  else if startsWith line "TEXTU " then .textUtf8 (line.drop 6)
  else if startsWith line "PIPE " then .pipe (line.drop 5)
  else if startsWith line "PIPEU " then .pipeUtf8 (line.drop 6)
  else if startsWith line "CONV" then .conv (line.drop 4)
  else if startsWith line "KEY " then .key (line.drop 4)
  else if startsWith line "KEYCHORD " then .keychord (line.drop 9)
  else if startsWith line "RESET" then .reset
  else if startsWith line "ACTIVATE" then .activate
  else if startsWith line "QUIT" then .quit
  else .unknown

def isSpace (c : UInt8) : Bool := c = 0x20 || (0x09 ≤ c && c ≤ 0x0D)

def digitValue (base : Nat) (c : UInt8) : Option Nat :=
  let value :=
    if 0x30 ≤ c && c ≤ 0x39 then c.toNat - 0x30
    else if 0x41 ≤ c && c ≤ 0x46 then c.toNat - 0x41 + 10
    else if 0x61 ≤ c && c ≤ 0x66 then c.toNat - 0x61 + 10
    else base
  if value < base then some value else none

def scanDigits (base : Nat) : Nat → List UInt8 → Nat × List UInt8
  | value, [] => (value, [])
  | value, c :: s =>
      match digitValue base c with
      | some d => scanDigits base (value * base + d) s
      | none => (value, c :: s)

/-- A sign, and for hexadecimals a `0x` -/
def scanSign (s : List UInt8) : Bool × List UInt8 :=
  match s with
  | 0x2D :: s => (true, s)
  | 0x2B :: s => (false, s)
  | s => (false, s)

def skipHexPrefix (base : Nat) (s : List UInt8) : List UInt8 :=
  match s with
  | 0x30 :: x :: d :: s =>
      if base = 16 && (x = 0x78 || x = 0x58) && (digitValue 16 d).isSome then d :: s
      else 0x30 :: x :: d :: s
  | s => s

/-- `%u` and `%x`, and what is left of the text. -/
def scanUnsigned (base : Nat) (s : List UInt8) : Option (UInt32 × List UInt8) :=
  let (negative, s) := scanSign (s.dropWhile isSpace)
  let s := skipHexPrefix base s
  match s with
  | [] => none
  | c :: _ =>
      if (digitValue base c).isSome then
        let (value, rest) := scanDigits base 0 s
        let n := UInt32.ofNat value
        some (if negative then 0 - n else n, rest)
      else none

def scanAll : List Nat → List UInt8 → List UInt32
  | [], _ => []
  | base :: bases, s =>
      match scanUnsigned base s with
      | some (n, rest) => n :: scanAll bases rest
      | none => []

def skipBlanks (s : List UInt8) : List UInt8 := s.dropWhile (fun c => c = 0x20 || c = 0x09)

def codepageOf (s : List UInt8) : Option UInt32 :=
  match scanAll [10] s with
  | cp :: _ => if cp = 0 then none else some cp
  | [] => none

def pointer (h : Handle) : List UInt8 := upperHex 8 h.toNat

def flag (b : Bool) : List UInt8 := number (if b then 1 else 0)

/-- `narrow` is what `%ls` makes of a wide string. -/
def statusText (narrow : List UInt16 → List UInt8) (s : State) : List UInt8 :=
  encode "STATUS visible=" ++ flag s.visible ++ encode " target=" ++ pointer (imeTargetHwnd s) ++
    encode " select=" ++ signed s.lastSelect.toInt ++ encode " activate=" ++ signed s.lastActivate.toInt ++
    encode " open=" ++ signed s.lastOpen.toInt ++ encode " convSet=" ++ signed s.lastConvSet.toInt ++
    encode " conv=0x" ++ hex 8 s.lastConvMode.toNat ++
    encode " sent=0x" ++ hex 8 s.lastSentenceMode.toNat ++ encode " hkl=" ++ pointer s.lastHkl ++
    encode " hklSwitch=" ++ flag s.lastHklSwitch ++ encode " ctxMatch=" ++ flag s.lastCtxMatch ++
    encode " assocPrev=" ++ pointer s.lastAssocPrev ++ encode " ctxNow=" ++ pointer s.lastCtxNow ++
    encode " process=" ++ signed s.lastProcess.toInt ++
    encode " immFlags=0x" ++ hex 8 s.lastImmFlags.toNat ++ encode " ascii=" ++ number s.lastAscii.toNat ++
    encode " msgs=" ++ number s.lastMsgs.toNat ++ encode " cand=" ++ number s.lastCandCount.toNat ++
    encode " candSel=" ++ number s.lastCandSel.toNat ++ encode " compBytes=" ++ signed s.lastCompBytes ++
    encode " candCP=" ++ number s.candCodepage.toNat ++ encode " notify=" ++ signed s.lastNotify.toInt ++
    encode " prop=0x" ++ hex 8 s.fdwProperty.toNat ++ encode " uiClass=" ++ narrow s.uiClass ++
    encode " err=" ++ (if s.lastError ≠ [] then s.lastError else encode "none") ++ encode "\n"

def preeditText (multiByteToWide : UInt32 → List UInt8 → Option (List UInt16)) (cp : UInt32)
    (p : Option PreeditState) : List UInt8 :=
  match p with
  | none => encode "PREEDIT_RET err=no_himc\n"
  | some p =>
      let comp := readCompWide p.comp textSize
      let reading := readCompWide p.reading textSize
      let result := readCompWide p.result textSize
      let shown (w : List UInt16) := decodeImeWideText multiByteToWide cp w textSize
      encode "PREEDIT_RET compBytes=" ++ signed (max comp.1 0) ++
        encode " readBytes=" ++ signed (max reading.1 0) ++
        encode " resultBytes=" ++ signed (max result.1 0) ++
        encode " cursor=" ++ signed (max p.cursor (-1)) ++ encode " delta=" ++ signed (max p.delta (-1)) ++
        encode " comp=[" ++ shown comp.2 ++ encode "] read=[" ++ shown reading.2 ++
        encode "] result=[" ++ shown result.2 ++ encode "]\n"

def convToken (s : List UInt8) : List UInt8 :=
  s.map (fun byte => if byte = bar || byte = carriageReturn || byte = newline then blank else byte)

def convItem (cand : CandList) (i : Nat) : List UInt8 :=
  let utf8 := wideToUtf8 (cand.wideString i)
  convToken (if textSize < utf8.length + 1 then encode "<conv_err>" else cString utf8)

def convPieces (cand : CandList) : List (List UInt8) :=
  [encode "CONV_RET count=" ++ number cand.dwCount.toNat ++
    encode " sel=" ++ number cand.dwSelection.toNat ++ encode " items=["] ++
  (List.range (min cand.dwCount.toNat 10)).flatMap (fun i =>
    if cand.size ≤ cand.dwOffset i then []
    else (if 0 < i then [encode "|"] else []) ++ [convItem cand i]) ++
  (if 10 < cand.dwCount then [encode "|..."] else []) ++ [encode "]\n"]

def convReply (cand : CandList) : List UInt8 :=
  if cand.size = 0 then encode "CONV_RET count=0 bytes=0\n"
  else if !cand.allocated then encode "CONV_RET err=oom\n"
  else if cand.got = 0 then encode "CONV_RET err=read_fail\n"
  else appended (convPieces cand)

section

variable (multiByteToWide : UInt32 → List UInt8 → Option (List UInt16))
  (narrow : List UInt16 → List UInt8) (os : Os)

/-- What is to be converted: the argument, or else the composition. -/
def convSource (himc : Handle) (arg : List UInt8) : Run (Except (List UInt8) (List UInt16)) := do
  if arg ≠ [] then
    match (multiByteToWide utf8Codepage arg).filter (fun w => w.length < tmpSize) with
    | some source => pure (if source = [] then .error (encode "CONV_RET err=no_source\n") else .ok source)
    | none => pure (.error (encode "CONV_RET err=bad_text\n"))
  else
    let (compBytes, units) ← ask os (.compositionString himc)
    if 0 < compBytes then pure (.ok (cString (units.take (compBytes.toNat / 2))))
    else pure (.error (encode "CONV_RET err=no_source\n"))

def convert (himc : Handle) (arg : List UInt8) : Run (List UInt8) := do
  let s ← get
  if !s.exports.imeConversionList || himc = 0 then pure (encode "CONV_RET err=unsupported\n")
  else
    match ← convSource multiByteToWide os himc (skipBlanks arg) with
    | .ok source =>
        let cand ← ask os (.imeConversionList himc source)
        pure (convReply cand)
    | .error reply => pure reply

def runConv (arg : List UInt8) : Run (List UInt8) := do
  let (himc, borrowed) ← getActiveHimc os
  let reply ← convert multiByteToWide os himc arg
  releaseActiveHimc os himc borrowed
  pure reply

def runPreedit : Run (List UInt8) := do
  let (himc, borrowed) ← getActiveHimc os
  let p ← queried himc (ask os (.preeditState himc))
  let s ← get
  releaseActiveHimc os himc borrowed
  pure (printed (preeditText multiByteToWide s.candCodepage p))

def completeComposition (himc : Handle) : Run Unit := do
  let s ← get
  if s.exports.notifyIme && himc ≠ 0 then
    let notified ← ask os (.notifyIme himc)
    modify fun s => { s with lastNotify := notified }
  else modify fun s => { s with lastNotify := 0 }

def runCommit : Run (List UInt8) := do
  let (himc, borrowed) ← getActiveHimc os
  completeComposition os himc
  let s ← get
  releaseActiveHimc os himc borrowed
  pure (printed (encode "OK COMMIT notify=" ++ signed s.lastNotify.toInt ++ encode "\n"))

def okCp (cp : UInt32) : List UInt8 := encode "OK CP " ++ number cp.toNat ++ encode "\n"

def runCp (arg : List UInt8) : Run (List UInt8) := do
  let s ← get
  if skipBlanks arg = [] then pure (printed (okCp s.candCodepage))
  else
    match codepageOf (skipBlanks arg) with
    | some cp =>
        modify fun s => { s with candCodepage := cp }
        pure (printed (okCp cp))
    | none => pure (encode "ERR bad codepage\n")

def runPick (arg : List UInt8) : Run (List UInt8) := do
  match scanAll [10] arg with
  | pick :: _ =>
      if 9 < pick then pure (encode "ERR bad pick\n")
      else runKeyAndReplyCand multiByteToWide os (0x30 + pick)
  | [] => pure (encode "ERR bad pick\n")

def runKey (arg : List UInt8) : Run (List UInt8) := do
  match scanAll [16] arg with
  | vk :: _ =>
      let reply ← handleKey os vk
      pure (printed reply)
  | [] => pure (encode "ERR bad key\n")

def runKeychord (arg : List UInt8) : Run (List UInt8) := do
  match scanAll [16, 10, 10, 10] arg with
  | vk :: mods =>
      let down (i : Nat) : Bool := mods.getD i 0 ≠ 0
      let reply ← handleKeyModInternal os ⟨vk, down 0, down 1, down 2⟩ true
      pure (printed reply)
  | [] => pure (encode "ERR bad keychord\n")

def setLastError (text : List UInt8) : Run Unit := modify fun s => { s with lastError := text.take 255 }

def createContext : Run Bool := do
  let himc ← ask os .immCreateContext
  modify fun s => { s with himc := himc }
  if himc = 0 then
    setLastError (encode "ImmCreateContext failed")
    pure false
  else pure true

def ensureContext : Run Bool := do
  let s ← get
  if s.himc = 0 then createContext os else pure true

/-- The own context comes to the windows, and the input method is asked what it is. -/
def associate : Run Unit := do
  let s ← get
  let target := imeTargetHwnd s
  let assocPrev ← ask os (.immAssociateContext target s.himc)
  modify fun s => { s with lastAssocPrev := assocPrev }
  let _ ← ask os (.immAssociateContext s.hwnd s.himc)
  ask os (.immAssociateContextEx target s.himc 0)
  ask os (.immAssociateContextEx s.hwnd s.himc 0)
  ask os (.showWindow s.hwnd target s.visible)
  let (fdwProperty, uiClass) ← ask os .imeInquire
  modify fun s => { s with fdwProperty := fdwProperty, uiClass := uiClass }

def forgetIme : Run Unit := modify fun s => { s with fdwProperty := 0, uiClass := [] }

def selectContext : Run Bool := do
  let ok ← ensureContext os
  if ok then
    associate os
    activateImePath os
    pure true
  else pure false

def initContextAndSelect : Run Bool := do
  forgetIme
  selectContext os

def iaceDefault : UInt32 := 0x10

def destroyContext : Run Unit := do
  let s ← get
  when (s.himc ≠ 0) do
    let _ ← ask os (.imeSelect s.himc false)
    ask os (.immAssociateContextEx s.hwnd 0 iaceDefault)
    ask os (.immDestroyContext s.himc)
    modify fun s => { s with himc := 0 }

def resetContext : Run Bool := do
  destroyContext os
  initContextAndSelect os

def runReset : Run (List UInt8) := do
  if ← resetContext os then pure (encode "OK RESET\n")
  else
    let s ← get
    pure (printed (encode "ERR RESET " ++ s.lastError ++ encode "\n"))

def perform : Command → Run (List UInt8)
  | .ping => pure (encode "PONG\n")
  | .status => do
      let s ← get
      pure (printed (statusText narrow s))
  | .cp arg => runCp arg
  | .cand => replyWithCandidateSnapshot multiByteToWide os
  | .preedit => runPreedit multiByteToWide os
  | .trace trigger text => runTraceAscii multiByteToWide os text trigger
  | .traceUtf8 trigger text => runTraceUtf8 multiByteToWide os text trigger
  | .page vk => runKeyAndReplyCand multiByteToWide os vk
  | .pick arg => runPick multiByteToWide os arg
  | .commit => runCommit os
  | .keytext trigger text => runKeytextAscii multiByteToWide os text trigger
  | .keytextUtf8 trigger text => runKeytextUtf8 multiByteToWide os text trigger
  | .text text => runTextAscii multiByteToWide os text false true
  | .textUtf8 text => runTextUtf8 multiByteToWide os text false true
  | .pipe text => runTextAscii multiByteToWide os text true false
  | .pipeUtf8 text => runTextUtf8 multiByteToWide os text true false
  | .conv arg => runConv multiByteToWide os arg
  | .key arg => runKey os arg
  | .keychord arg => runKeychord os arg
  | .reset => runReset os
  | .activate => do
      activateImePath os
      pure (encode "OK ACTIVATE\n")
  | .quit => pure (encode "BYE\n")
  | .unknown => pure (encode "ERR unknown command\n")

/-- Each call sends at least a byte, so there are no more calls than bytes. -/
def sendLoop : Nat → List UInt8 → Run Bool
  | _, [] => pure true
  | 0, _ => pure false
  | calls + 1, text => do
      let s ← get
      let n ← ask os (.send s.clientSock text)
      if n ≤ 0 then pure false else sendLoop calls (text.drop n.toNat)

def sendText (text : List UInt8) : Run Bool := sendLoop os text.length text

/-- What `send_text` returns is returned, and nobody asks for it. -/
def processCommand (line : List UInt8) : Run Unit := do
  let command := commandOf (cString line)
  let reply ← perform multiByteToWide narrow os command
  let _ ← sendText os reply
  when (command = .quit) (modify fun s => { s with running := false })

end

end RimeWinime.ImeHost
