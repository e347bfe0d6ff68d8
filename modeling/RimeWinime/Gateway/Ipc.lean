import Mathlib.Algebra.GroupWithZero.Nat
import RimeWinime.Lib.LittleEndian
import RimeWinime.Lib.Text
import RimeWinime.Gateway.Worker

namespace RimeWinime.Ipc

open World Worker LittleEndian Text

def ipcMaxFrameBytes : Nat := 256 * 1024

def frame (payload : List UInt8) : List UInt8 := encode 4 payload.length ++ payload

/-- What `write_framed_payload` puts on the pipe. -/
def writeFramedPayload (payload : List UInt8) : Except String (List UInt8) :=
  if payload.length > ipcMaxFrameBytes then
    .error s!"payload too large: {payload.length} > {ipcMaxFrameBytes}"
  else .ok (frame payload)

/-- The payload and what is left to read; none at the end of the input, also
where it ends inside a length. -/
def readFramedPayload (input : List UInt8) : Except String (Option (List UInt8 × List UInt8)) :=
  if input.length < 4 then .ok none
  else
    let len := decode (input.take 4)
    let rest := input.drop 4
    if len > ipcMaxFrameBytes then .error s!"invalid frame length: {len}"
    else if rest.length < len then .error "failed to fill whole buffer"
    else .ok (some (rest.take len, rest.drop len))

theorem read_frame {payload : List UInt8} (h : payload.length ≤ ipcMaxFrameBytes)
    (rest : List UInt8) : readFramedPayload (frame payload ++ rest) = .ok (some (payload, rest)) := by
  have hheader : (encode 4 payload.length).length = 4 := length_encode 4 _
  have htake : (frame payload ++ rest).take 4 = encode 4 payload.length := by
    rw [frame, List.append_assoc, List.take_left' hheader]
  have hdrop : (frame payload ++ rest).drop 4 = payload ++ rest := by
    rw [frame, List.append_assoc, List.drop_left' hheader]
  have hlen : decode (encode 4 payload.length) = payload.length := by
    apply decode_encode_of_lt
    rw [ipcMaxFrameBytes] at h
    omega
  have hlong : ¬(frame payload ++ rest).length < 4 := by
    rw [frame, List.length_append, List.length_append, hheader]
    omega
  have hfull : ¬(payload ++ rest).length < payload.length := by
    rw [List.length_append]
    omega
  simp only [readFramedPayload, if_neg hlong, htake, hdrop, hlen, if_neg (Nat.not_lt.mpr h),
    if_neg hfull, List.take_left, List.drop_left]

/-- What is read is taken from the input. -/
theorem read_shorter {input payload rest : List UInt8}
    (h : readFramedPayload input = .ok (some (payload, rest))) : rest.length < input.length := by
  unfold readFramedPayload at h
  split at h
  · cases h
  · next hlong =>
      dsimp only at h
      split at h
      · cases h
      · split at h
        · cases h
        · cases h
          simp only [List.length_drop]
          omega

structure WireRequest where
  op : String
  traceTimeline : Bool := false
  keyDown : Bool := false
  virtualKey : UInt32 := 0
  scanCode : UInt32 := 0
  shift : Bool := false
  ctrl : Bool := false
  alt : Bool := false
  repeated : Bool := false
  extended : Bool := false
  timestampMs : Int64 := 0
  sourceKeycode : UInt32 := 0
  sourceModifier : UInt32 := 0
  maxCandidates : Nat := 0
  inputSnapshot : String := ""
  committedText : String := ""
  candidateIndex : Nat := 0
deriving DecidableEq

def keyEventOf (req : WireRequest) : BackendKeyEvent where
  keyDown := req.keyDown
  virtualKey := req.virtualKey
  scanCode := req.scanCode
  shift := req.shift
  ctrl := req.ctrl
  alt := req.alt
  repeated := req.repeated
  extended := req.extended
  timestampMs := req.timestampMs
  sourceKeycode := req.sourceKeycode
  sourceModifier := req.sourceModifier

/-- The operation that a request names, if it names one. -/
def operation (req : WireRequest) : Option WorkerIpcRequest :=
  match req.op with
  | "snapshot" => some .snapshot
  | "reset_session" => some .resetSession
  | "send_key_event" => some (.sendKeyEvent (keyEventOf req) req.maxCandidates)
  | "query_candidates" => some (.queryCandidates req.inputSnapshot req.maxCandidates)
  | "commit_selection" => some (.commitSelection req.committedText req.candidateIndex)
  | _ => none

def unsupportedOp (op name : String) : String := s!"unsupported op: {op} for backend {name}"

def handleWireRequest {β : Type} (backend : ImeBackend β) (name : String) (req : WireRequest) :
    Act β WorkerIpcResponse :=
  match operation req with
  | some request => handleBackendRequest backend request
  | none => do
      let snapshot ← observe backend.snapshot
      pure (workerErrorResponse snapshot "UNSUPPORTED_OP" (unsupportedOp req.op name))

def utf8 (s : String) : List UInt8 := s.toByteArray.data.toList

def hexDigit (n : Nat) : String := (Nat.digitChar n).toString

def jsonEscape (c : Char) : String :=
  match c.toNat with
  | 0x22 => "\\\""
  | 0x5C => "\\\\"
  | 0x08 => "\\b"
  | 0x0C => "\\f"
  | 0x0A => "\\n"
  | 0x0D => "\\r"
  | 0x09 => "\\t"
  | n => if n < 0x20 then "\\u00" ++ hexDigit (n / 16) ++ hexDigit (n % 16) else c.toString

def escaped (s : String) : String := String.join (s.toList.map jsonEscape)

def jsonString (s : String) : String := "\"" ++ escaped s ++ "\""

def jsonNumber (n : Nat) : String := toString n

def jsonBool (b : Bool) : String := if b then "true" else "false"

/-- `(100.0 - idx).max(1.0)`. -/
def quality (index : UInt32) : String := jsonNumber (max (100 - index.toNat) 1) ++ ".0"

def candidateJson (c : Candidate) : String :=
  String.join
    ["\x7b\"index\":", jsonNumber c.index.toNat, ",\"text\":", jsonString c.text,
      ",\"comment\":", jsonString c.comment, ",\"quality\":", quality c.index, "\x7d"]

def candidatesJson (candidates : List Candidate) : String :=
  ",".intercalate (candidates.map candidateJson)

/-- A response of the stub backend, whose candidates have the quality that their
index gives and whose timeline is empty. -/
def responseJson (resp : WorkerIpcResponse) : String :=
  String.join
    ["\x7b\"ok\":", jsonBool resp.ok,
      ",\"backend_state_version\":", jsonNumber resp.backendStateVersion.toNat,
      ",\"composition\":", jsonString resp.composition,
      ",\"reading\":", jsonString resp.reading,
      ",\"candidates\":[", candidatesJson resp.candidates,
      "],\"selected_index\":", jsonNumber resp.selectedIndex.toNat,
      ",\"page_size\":", jsonNumber resp.pageSize.toNat,
      ",\"committed_text\":", jsonString resp.committedText,
      ",\"error_code\":", jsonString resp.errorCode,
      ",\"error_message\":", jsonString resp.errorMessage,
      ",\"debug_timeline\":[]\x7d"]

def escapedWidth (s : String) : Nat := (s.toList.map fun c => (jsonEscape c).utf8ByteSize).sum

def numberWidth (n : Nat) : Nat := (jsonNumber n).utf8ByteSize

@[simp] theorem length_utf8 (s : String) : (utf8 s).length = s.utf8ByteSize := rfl

theorem size_join (parts : List String) :
    (String.join parts).utf8ByteSize = (parts.map String.utf8ByteSize).sum := by
  induction parts with
  | nil => rfl
  | cons part parts ih => rw [String.join_cons, String.utf8ByteSize_append, ih, List.map_cons, List.sum_cons]

@[simp] theorem size_escaped (s : String) : (escaped s).utf8ByteSize = escapedWidth s := by
  rw [escaped, size_join, List.map_map]
  rfl

@[simp] theorem size_jsonString (s : String) : (jsonString s).utf8ByteSize = escapedWidth s + 2 := by
  have hquote : ("\"" : String).utf8ByteSize = 1 := rfl
  rw [jsonString, String.utf8ByteSize_append, String.utf8ByteSize_append, size_escaped, hquote]
  omega

@[simp] theorem escapedWidth_empty : escapedWidth "" = 0 := rfl

theorem escapedWidth_append (s t : String) :
    escapedWidth (s ++ t) = escapedWidth s + escapedWidth t := by
  simp [escapedWidth]

def candidateWidth (c : Candidate) : Nat :=
  44 + numberWidth c.index.toNat + escapedWidth c.text + escapedWidth c.comment +
    (quality c.index).utf8ByteSize

def candidateKeys : List String :=
  ["\x7b\"index\":", ",\"text\":", ",\"comment\":", ",\"quality\":", "\x7d"]

theorem size_candidateKeys : candidateKeys.map String.utf8ByteSize = [9, 8, 11, 11, 1] := by
  decide +kernel

theorem size_candidateJson (c : Candidate) : (candidateJson c).utf8ByteSize = candidateWidth c := by
  have hkeys := size_candidateKeys
  simp only [candidateKeys, List.map_cons, List.map_nil, List.cons.injEq] at hkeys
  simp only [candidateJson, size_join, List.map_cons, List.map_nil, List.sum_cons, List.sum_nil,
    size_jsonString, hkeys, candidateWidth, numberWidth]
  clear hkeys
  omega

theorem size_candidatesJson (candidates : List Candidate) :
    (candidatesJson candidates).utf8ByteSize =
      (candidates.map fun c => candidateWidth c + 1).sum - 1 := by
  have hcomma : ("," : String).utf8ByteSize = 1 := rfl
  induction candidates with
  | nil => rfl
  | cons c rest ih =>
      cases rest with
      | nil =>
          simp only [candidatesJson, List.map_cons, List.map_nil, String.intercalate_singleton,
            size_candidateJson, List.sum_cons, List.sum_nil]
          omega
      | cons d rest =>
          simp only [candidatesJson, List.map_cons, List.sum_cons] at ih
          simp only [candidatesJson, List.map_cons, String.intercalate_cons_cons,
            String.utf8ByteSize_append, hcomma, size_candidateJson, List.sum_cons, ih]
          omega

def boolWidth (b : Bool) : Nat := if b then 4 else 5

theorem size_jsonBool (b : Bool) : (jsonBool b).utf8ByteSize = boolWidth b := by
  cases b <;> rfl

def responseWidth (resp : WorkerIpcResponse) : Nat :=
  184 + boolWidth resp.ok + numberWidth resp.backendStateVersion.toNat +
    escapedWidth resp.composition + escapedWidth resp.reading +
    (candidatesJson resp.candidates).utf8ByteSize + numberWidth resp.selectedIndex.toNat +
    numberWidth resp.pageSize.toNat + escapedWidth resp.committedText +
    escapedWidth resp.errorCode + escapedWidth resp.errorMessage

def responseKeys : List String :=
  ["\x7b\"ok\":", ",\"backend_state_version\":", ",\"composition\":", ",\"reading\":",
    ",\"candidates\":[", "],\"selected_index\":", ",\"page_size\":", ",\"committed_text\":",
    ",\"error_code\":", ",\"error_message\":", ",\"debug_timeline\":[]\x7d"]

theorem size_responseKeys :
    responseKeys.map String.utf8ByteSize = [6, 25, 15, 11, 15, 19, 13, 18, 14, 17, 21] := by
  decide +kernel

theorem size_responseJson (resp : WorkerIpcResponse) :
    (responseJson resp).utf8ByteSize = responseWidth resp := by
  have hkeys := size_responseKeys
  simp only [responseKeys, List.map_cons, List.map_nil, List.cons.injEq] at hkeys
  simp only [responseJson, size_join, List.map_cons, List.map_nil, List.sum_cons, List.sum_nil,
    size_jsonString, size_jsonBool, hkeys, responseWidth, numberWidth]
  clear hkeys
  omega

/-- The texts of a response, each counted once where it stands. -/
def textWidth (resp : WorkerIpcResponse) : Nat :=
  resp.composition.utf8ByteSize + resp.reading.utf8ByteSize +
    (resp.candidates.map fun c => c.text.utf8ByteSize + c.comment.utf8ByteSize).sum +
    resp.committedText.utf8ByteSize + resp.errorCode.utf8ByteSize + resp.errorMessage.utf8ByteSize

theorem jsonEscape_ne_empty (c : Char) : jsonEscape c ≠ "" := by
  unfold jsonEscape
  split
  case h_8 => split <;> simp
  all_goals simp

theorem jsonEscape_wide {c : Char} (h : 128 ≤ c.toNat) : jsonEscape c = c.toString := by
  unfold jsonEscape
  split
  case h_8 => exact if_neg (by omega)
  all_goals omega

theorem utf8Size_le_jsonEscape (c : Char) : c.utf8Size ≤ (jsonEscape c).utf8ByteSize := by
  by_cases h : c.toNat < 128
  · have hascii : c.utf8Size = 1 := Char.utf8Size_eq_one_iff.mpr (Nat.le_of_lt_succ h)
    have hsome : (jsonEscape c).utf8ByteSize ≠ 0 := fun h0 =>
      jsonEscape_ne_empty c (String.utf8ByteSize_eq_zero_iff.mp h0)
    omega
  · rw [jsonEscape_wide (Nat.le_of_not_lt h), Char.toString_eq_singleton,
      String.utf8ByteSize_singleton]

theorem size_le_escapedWidth (s : String) : s.utf8ByteSize ≤ escapedWidth s := by
  have hchars (cs : List Char) :
      (String.ofList cs).utf8ByteSize ≤ (cs.map fun c => (jsonEscape c).utf8ByteSize).sum := by
    induction cs with
    | nil => exact Nat.le_refl 0
    | cons c cs ih =>
        rw [size_ofList_cons, List.map_cons, List.sum_cons]
        exact Nat.add_le_add (utf8Size_le_jsonEscape c) ih
  have h := hchars s.toList
  rwa [String.ofList_toList] at h

theorem size_le_candidateWidth (c : Candidate) :
    c.text.utf8ByteSize + c.comment.utf8ByteSize ≤ candidateWidth c := by
  have htext := size_le_escapedWidth c.text
  have hcomment := size_le_escapedWidth c.comment
  rw [candidateWidth]
  omega

/-- Compact JSON has at least as many bytes as the texts in it. -/
theorem textWidth_le (resp : WorkerIpcResponse) : textWidth resp ≤ (utf8 (responseJson resp)).length := by
  have hcandidates (cs : List Candidate) :
      (cs.map fun c => c.text.utf8ByteSize + c.comment.utf8ByteSize).sum ≤
        (candidatesJson cs).utf8ByteSize := by
    rw [size_candidatesJson]
    induction cs with
    | nil => exact Nat.le_refl 0
    | cons c cs ih =>
        have hc := size_le_candidateWidth c
        simp only [List.map_cons, List.sum_cons]
        omega
  have hlist := hcandidates resp.candidates
  have hcomposition := size_le_escapedWidth resp.composition
  have hreading := size_le_escapedWidth resp.reading
  have hcommitted := size_le_escapedWidth resp.committedText
  have hcode := size_le_escapedWidth resp.errorCode
  have hmessage := size_le_escapedWidth resp.errorMessage
  rw [length_utf8, size_responseJson, responseWidth, textWidth]
  omega

end RimeWinime.Ipc
