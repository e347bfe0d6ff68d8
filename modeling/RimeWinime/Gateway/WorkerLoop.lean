import RimeWinime.Gateway.Ipc

namespace RimeWinime.WorkerLoop

open World Worker Ipc

structure Serde where
  fromSlice : List UInt8 → Except String WireRequest
  toVec : WorkerIpcResponse → Except String (List UInt8)

def badRequest (err : String) : String := s!"invalid request json: {err}"

/-- The answer to one payload, and the backend after it. -/
def answer (serde : Serde) (payload : List UInt8) : Act WorkerRuntime WorkerIpcResponse :=
  match serde.fromSlice payload with
  | .error err => do
      let snapshot ← observe WorkerRuntime.backend.snapshot
      pure (workerErrorResponse snapshot "BAD_REQUEST" (badRequest err))
  | .ok req => handleWireRequest WorkerRuntime.backend "stub" req

def sendResponse (serde : Serde) (resp : WorkerIpcResponse) : Except String (List UInt8) := do
  let payload ← serde.toVec resp
  writeFramedPayload payload

/-- What the loop writes, and how it ends. -/
def workerLoop (serde : Serde) (input : List UInt8) (runtime : WorkerRuntime) :
    List UInt8 × Except String Unit :=
  match _hread : readFramedPayload input with
  | .error err => ([], .error err)
  | .ok none => ([], .ok ())
  | .ok (some (payload, rest)) =>
      match sendResponse serde (answer serde payload runtime).1 with
      | .error err => ([], .error err)
      | .ok written =>
          let (output, ending) := workerLoop serde rest (answer serde payload runtime).2
          (written ++ output, ending)
termination_by input.length
decreasing_by exact read_shorter (by assumption)

def runWorkerRuntimeMode (serde : Serde) (input : List UInt8) : List UInt8 × Except String Unit :=
  workerLoop serde input (WorkerRuntime.backend.resetForNewSession WorkerRuntime.new).2

def frames (payloads : List (List UInt8)) : List UInt8 := payloads.flatMap frame

/-- The answers to a sequence of payloads, in order. -/
def answers (serde : Serde) : List (List UInt8) → WorkerRuntime → List WorkerIpcResponse
  | [], _ => []
  | payload :: rest, runtime =>
      (answer serde payload runtime).1 :: answers serde rest (answer serde payload runtime).2

def Accepted (payloads : List (List UInt8)) : Prop :=
  ∀ payload ∈ payloads, payload.length ≤ ipcMaxFrameBytes

/-- One frame with the serialised answer for each request, in order, and the loop
runs to the end of its input. -/
def AnswersEach (serde : Serde) (payloads : List (List UInt8)) (runtime : WorkerRuntime)
    (run : List UInt8 × Except String Unit) : Prop :=
  ∃ replies, List.Forall₂ (fun resp reply => serde.toVec resp = .ok reply)
      (answers serde payloads runtime) replies ∧
    Accepted replies ∧ run = (frames replies, .ok ())

def OneReplyEach (serde : Serde) (payloads : List (List UInt8)) : Prop :=
  AnswersEach serde payloads (WorkerRuntime.backend.resetForNewSession WorkerRuntime.new).2
    (runWorkerRuntimeMode serde (frames payloads))

/-- `serde_json::to_vec` of a response never fails and is compact. -/
def WritesCompactJson (serde : Serde) : Prop :=
  ∀ resp, serde.toVec resp = .ok (utf8 (responseJson resp))

def WritesAllText (serde : Serde) : Prop :=
  ∀ resp bytes, serde.toVec resp = .ok bytes → textWidth resp ≤ bytes.length

theorem writesAllText_of_compact {serde : Serde} (h : WritesCompactJson serde) :
    WritesAllText serde := by
  intro resp bytes hbytes
  rw [h resp] at hbytes
  rw [← Except.ok.inj hbytes]
  exact textWidth_le resp

def plainWidth (version : UInt64) (composition committed : String) : Nat :=
  190 + numberWidth version.toNat + escapedWidth composition + escapedWidth committed

def errorWidth (runtime : WorkerRuntime) (code message : String) : Nat :=
  191 + numberWidth runtime.backendStateVersion.toNat + escapedWidth runtime.input +
    escapedWidth code + escapedWidth message

/-- The text stands in the composition, in the reading and in every candidate. -/
def menuWidth (version : UInt64) (text : String) (limit : Nat) : Nat :=
  let copies := if text = "" then 0 else min limit 5
  189 + numberWidth version.toNat + numberWidth (UInt32.ofNat limit).toNat +
    (2 + copies) * escapedWidth text + (55 * copies - 1)

def operationWidth (runtime : WorkerRuntime) : WorkerIpcRequest → Nat
  | .snapshot => plainWidth runtime.backendStateVersion runtime.input ""
  | .resetSession => plainWidth (runtime.backendStateVersion + 1) "" ""
  | .sendKeyEvent keyEvent maxCandidates =>
      menuWidth (runtime.backendStateVersion + 1)
        (if keyEvent.keyDown then WorkerRuntime.typeKey runtime.input keyEvent.virtualKey
          else runtime.input)
        (if maxCandidates = 0 then 9 else maxCandidates)
  | .queryCandidates inputSnapshot maxCandidates =>
      menuWidth (runtime.backendStateVersion + 1)
        (if inputSnapshot ≠ "" then inputSnapshot else runtime.input)
        (if maxCandidates = 0 then 9 else maxCandidates)
  | .commitSelection committedText candidateIndex =>
      let chosen := ((runtime.candidates[candidateIndex]?).map (·.text)).getD ""
      let committed := if committedText = "" then chosen else committedText
      if committed = "" then
        errorWidth runtime "BACKEND_COMMIT_FAILED" "no committed_text and candidate_index is invalid"
      else plainWidth (runtime.backendStateVersion + 1) "" committed

def replyWidth (serde : Serde) (payload : List UInt8) (runtime : WorkerRuntime) : Nat :=
  match serde.fromSlice payload with
  | .error err => errorWidth runtime "BAD_REQUEST" (badRequest err)
  | .ok req =>
      match operation req with
      | some request => operationWidth runtime request
      | none => errorWidth runtime "UNSUPPORTED_OP" (unsupportedOp req.op "stub")

/-- Every request meets the backend in a state in which its reply fits a frame. -/
def RepliesFit (serde : Serde) : List (List UInt8) → WorkerRuntime → Prop
  | [], _ => True
  | payload :: rest, runtime =>
      replyWidth serde payload runtime ≤ ipcMaxFrameBytes ∧
        RepliesFit serde rest (answer serde payload runtime).2

theorem size_of_error (runtime : WorkerRuntime) (code message : String) :
    responseWidth (workerErrorResponse (WorkerRuntime.backend.snapshot runtime) code message) =
      errorWidth runtime code message := by
  have hzero : numberWidth (UInt32.toNat 0) = 1 := rfl
  have hnone : (candidatesJson []).utf8ByteSize = 0 := rfl
  rw [responseWidth, errorWidth]
  simp only [workerErrorResponse, WorkerRuntime.backend, boolWidth, escapedWidth_empty, hzero, hnone]
  simp only [Bool.false_eq_true, if_false]
  omega

theorem size_of_plain (version : UInt64) (composition committed : String) :
    responseWidth
        { ok := true
          backendStateVersion := version
          composition := composition
          committedText := committed } = plainWidth version composition committed := by
  have hzero : numberWidth (UInt32.toNat 0) = 1 := rfl
  have hnone : (candidatesJson []).utf8ByteSize = 0 := rfl
  rw [responseWidth, plainWidth]
  simp only [boolWidth, escapedWidth_empty, hzero, hnone, if_true]
  omega

theorem templates_apart (text : String) :
    [text, text ++ "1", text ++ "2", text ++ "3", text ++ "4"].destutter (· ≠ ·) =
      [text, text ++ "1", text ++ "2", text ++ "3", text ++ "4"] := by
  have hlonger : text ≠ text ++ "1" := by
    intro h
    have hsize := congrArg String.utf8ByteSize h
    have hone : ("1" : String).utf8ByteSize = 1 := rfl
    rw [String.utf8ByteSize_append, hone] at hsize
    omega
  apply List.destutter_of_isChain
  simp [hlonger]

theorem fakeCandidates_eq {text : String} (htext : text ≠ "") (limit : Nat) :
    WorkerRuntime.fakeCandidates text limit =
      [⟨0, text, "stub"⟩, ⟨1, text ++ "1", "stub"⟩, ⟨2, text ++ "2", "stub"⟩,
        ⟨3, text ++ "3", "stub"⟩, ⟨4, text ++ "4", "stub"⟩].take limit := by
  by_cases hlimit : limit = 0
  · simp [WorkerRuntime.fakeCandidates, hlimit]
  · rw [WorkerRuntime.fakeCandidates, if_neg (not_or.mpr ⟨htext, hlimit⟩)]
    simp only [templates_apart]
    rcases limit with _ | _ | _ | _ | _ | limit
    · exact absurd rfl hlimit
    · rfl
    · rfl
    · rfl
    · rfl
    · have hall : 5 ≤ limit + 5 := Nat.le_add_left 5 limit
      rw [List.take_of_length_le hall, List.take_of_length_le hall]
      rfl

theorem candidateWidth_stub (index : UInt32) (text suffix : String)
    (h : numberWidth index.toNat + escapedWidth suffix + (quality index).utf8ByteSize = 6) :
    candidateWidth ⟨index, text ++ suffix, "stub"⟩ + 1 = 55 + escapedWidth text := by
  have hstub : escapedWidth "stub" = 4 := by decide +kernel
  simp only [candidateWidth, escapedWidth_append, hstub]
  omega

theorem size_fakeCandidates (text : String) (limit : Nat) :
    (candidatesJson (WorkerRuntime.fakeCandidates text limit)).utf8ByteSize =
      (if text = "" then 0 else min limit 5) * (55 + escapedWidth text) - 1 := by
  by_cases htext : text = ""
  · rw [htext, if_pos rfl, Nat.zero_mul]
    rfl
  · have hfirst := candidateWidth_stub 0 text "" (by decide +kernel)
    rw [String.append_empty] at hfirst
    have hsecond := candidateWidth_stub 1 text "1" (by decide +kernel)
    have hthird := candidateWidth_stub 2 text "2" (by decide +kernel)
    have hfourth := candidateWidth_stub 3 text "3" (by decide +kernel)
    have hfifth := candidateWidth_stub 4 text "4" (by decide +kernel)
    rw [if_neg htext, size_candidatesJson, fakeCandidates_eq htext, List.map_take]
    simp only [List.map_cons, List.map_nil, hfirst, hsecond, hthird, hfourth, hfifth]
    rw [show ∀ w, [w, w, w, w, w] = List.replicate 5 w from fun _ => rfl, List.take_replicate,
      List.sum_replicate_nat]

theorem size_of_menu (runtime : WorkerRuntime) (text : String) (limit : Nat) :
    responseWidth (resultResponse ((runtime.refresh text limit).result limit)) =
      menuWidth (runtime.backendStateVersion + 1) text limit := by
  have hzero : numberWidth (UInt32.toNat 0) = 1 := rfl
  simp only [responseWidth, menuWidth, resultResponse, WorkerRuntime.result, WorkerRuntime.refresh,
    boolWidth, escapedWidth_empty, hzero, if_true, size_fakeCandidates]
  generalize hcopies : (if text = "" then 0 else min limit 5) = copies
  have hsplit : copies * (55 + escapedWidth text) = 55 * copies + copies * escapedWidth text := by
    rw [Nat.mul_add, Nat.mul_comm copies 55]
  have htexts : (2 + copies) * escapedWidth text =
      2 * escapedWidth text + copies * escapedWidth text := Nat.add_mul 2 copies _
  have hnone : copies = 0 → copies * escapedWidth text = 0 := fun h => by rw [h, Nat.zero_mul]
  rw [hsplit, htexts]
  omega

theorem size_of_operation (runtime : WorkerRuntime) (request : WorkerIpcRequest) :
    responseWidth (handleBackendRequest WorkerRuntime.backend request runtime).1 =
      operationWidth runtime request := by
  cases request with
  | snapshot => exact size_of_plain _ _ _
  | resetSession => exact size_of_plain _ _ _
  | sendKeyEvent keyEvent maxCandidates => exact size_of_menu _ _ _
  | queryCandidates inputSnapshot maxCandidates => exact size_of_menu _ _ _
  | commitSelection committedText candidateIndex =>
      simp only [handleBackendRequest, answerOrError, bind_run, WorkerRuntime.backend,
        WorkerRuntime.commitSelection, operationWidth]
      generalize ((runtime.candidates[candidateIndex]?).map (·.text)).getD "" = chosen
      generalize (if committedText = "" then chosen else committedText) = committed
      by_cases hempty : committed = ""
      · simp only [if_pos hempty]
        exact size_of_error _ _ _
      · simp only [if_neg hempty]
        exact size_of_plain _ _ _

theorem size_of_answer (serde : Serde) (payload : List UInt8) (runtime : WorkerRuntime) :
    responseWidth (answer serde payload runtime).1 = replyWidth serde payload runtime := by
  rw [answer, replyWidth]
  cases serde.fromSlice payload with
  | error err => exact size_of_error _ _ _
  | ok req =>
      simp only [handleWireRequest]
      cases operation req with
      | some request => exact size_of_operation _ _
      | none => exact size_of_error _ _ _

section

variable {serde : Serde} {payload : List UInt8} {payloads : List (List UInt8)}

theorem sendResponse_ok {resp : WorkerIpcResponse} {reply : List UInt8}
    (h : serde.toVec resp = .ok reply) : sendResponse serde resp = writeFramedPayload reply := by
  rw [sendResponse, h]
  rfl

theorem sendResponse_fits {resp : WorkerIpcResponse} {reply : List UInt8}
    (h : serde.toVec resp = .ok reply) (hfits : reply.length ≤ ipcMaxFrameBytes) :
    sendResponse serde resp = .ok (frame reply) := by
  rw [sendResponse_ok h, writeFramedPayload, if_neg (Nat.not_lt.mpr hfits)]

theorem sendResponse_overflows {resp : WorkerIpcResponse}
    (h : ∀ reply, serde.toVec resp = .ok reply → ipcMaxFrameBytes < reply.length) :
    ∃ err, sendResponse serde resp = .error err := by
  cases hvec : serde.toVec resp with
  | error err => exact ⟨err, by rw [sendResponse, hvec]; rfl⟩
  | ok reply =>
      rw [sendResponse_ok hvec, writeFramedPayload, if_pos (h reply hvec)]
      exact ⟨_, rfl⟩

theorem reply_of_compact (hjson : WritesCompactJson serde) (payload : List UInt8)
    (runtime : WorkerRuntime) : ∃ reply, serde.toVec (answer serde payload runtime).1 = .ok reply ∧
      reply.length = replyWidth serde payload runtime := by
  refine ⟨_, hjson _, ?_⟩
  rw [length_utf8, size_responseJson, size_of_answer]

theorem loop_end (runtime : WorkerRuntime) : workerLoop serde [] runtime = ([], .ok ()) := by
  rw [workerLoop]
  rfl

theorem loop_reads (hp : payload.length ≤ ipcMaxFrameBytes) (rest : List UInt8)
    (runtime : WorkerRuntime) :
    workerLoop serde (frame payload ++ rest) runtime =
      match sendResponse serde (answer serde payload runtime).1 with
      | .error err => ([], .error err)
      | .ok written =>
          (written ++ (workerLoop serde rest (answer serde payload runtime).2).1,
            (workerLoop serde rest (answer serde payload runtime).2).2) := by
  rw [workerLoop]
  split
  · next h => rw [read_frame hp] at h; cases h
  · next h => rw [read_frame hp] at h; cases h
  · next h =>
      rw [read_frame hp] at h
      cases h
      rfl

theorem loop_replies (hp : payload.length ≤ ipcMaxFrameBytes) (rest : List UInt8)
    {runtime : WorkerRuntime} {written : List UInt8}
    (hsent : sendResponse serde (answer serde payload runtime).1 = .ok written) :
    workerLoop serde (frame payload ++ rest) runtime =
      (written ++ (workerLoop serde rest (answer serde payload runtime).2).1,
        (workerLoop serde rest (answer serde payload runtime).2).2) := by
  rw [loop_reads hp, hsent]

theorem loop_stops (hp : payload.length ≤ ipcMaxFrameBytes) (rest : List UInt8)
    {runtime : WorkerRuntime} {err : String}
    (hfailed : sendResponse serde (answer serde payload runtime).1 = .error err) :
    workerLoop serde (frame payload ++ rest) runtime = ([], .error err) := by
  rw [loop_reads hp, hfailed]

theorem answersEach_nil (runtime : WorkerRuntime) :
    AnswersEach serde [] runtime (workerLoop serde (frames []) runtime) := by
  refine ⟨[], .nil, fun reply hin => absurd hin List.not_mem_nil, ?_⟩
  exact loop_end runtime

theorem answersEach_cons (hjson : WritesCompactJson serde)
    (hp : payload.length ≤ ipcMaxFrameBytes) (runtime : WorkerRuntime) :
    AnswersEach serde (payload :: payloads) runtime
        (workerLoop serde (frames (payload :: payloads)) runtime) ↔
      replyWidth serde payload runtime ≤ ipcMaxFrameBytes ∧
        AnswersEach serde payloads (answer serde payload runtime).2
          (workerLoop serde (frames payloads) (answer serde payload runtime).2) := by
  obtain ⟨reply, hvec, hsize⟩ := reply_of_compact hjson payload runtime
  have hinput : frames (payload :: payloads) = frame payload ++ frames payloads := rfl
  rw [hinput, ← hsize]
  constructor
  · rintro ⟨replies, hreplies, haccepted, hrun⟩
    rw [answers] at hreplies
    cases hreplies with
    | @cons _ first _ rest hfirst hrest =>
        have hreply : reply = first := Except.ok.inj (hvec.symm.trans hfirst)
        have hfits : reply.length ≤ ipcMaxFrameBytes := by
          rw [hreply]
          exact haccepted first List.mem_cons_self
        rw [loop_replies hp _ (sendResponse_fits hvec hfits), hreply] at hrun
        obtain ⟨houtput, hending⟩ := Prod.mk.inj hrun
        refine ⟨hfits, rest, hrest, fun r hr => haccepted r (List.mem_cons_of_mem _ hr), ?_⟩
        exact Prod.ext (List.append_cancel_left houtput) hending
  · rintro ⟨hfits, replies, hreplies, haccepted, hrun⟩
    refine ⟨reply :: replies, .cons hvec hreplies, fun r hr => ?_, ?_⟩
    · rcases List.mem_cons.mp hr with rfl | hr
      · exact hfits
      · exact haccepted r hr
    · rw [loop_replies hp _ (sendResponse_fits hvec hfits), hrun]
      rfl

theorem answersEach_iff (hjson : WritesCompactJson serde) (haccepted : Accepted payloads)
    (runtime : WorkerRuntime) :
    AnswersEach serde payloads runtime (workerLoop serde (frames payloads) runtime) ↔
      RepliesFit serde payloads runtime := by
  induction payloads generalizing runtime with
  | nil => exact iff_of_true (answersEach_nil runtime) trivial
  | cons payload payloads ih =>
      have hp := haccepted payload List.mem_cons_self
      have hrest : Accepted payloads := fun p h => haccepted p (List.mem_cons_of_mem _ h)
      rw [answersEach_cons hjson hp, ih hrest, RepliesFit]

theorem overflow_ends (hp : payload.length ≤ ipcMaxFrameBytes) {runtime : WorkerRuntime}
    (h : ∀ bytes, serde.toVec (answer serde payload runtime).1 = .ok bytes →
      ipcMaxFrameBytes < bytes.length) :
    ¬AnswersEach serde (payload :: payloads) runtime
      (workerLoop serde (frames (payload :: payloads)) runtime) := by
  rintro ⟨replies, -, -, hrun⟩
  obtain ⟨err, hfailed⟩ := sendResponse_overflows h
  have hinput : frames (payload :: payloads) = frame payload ++ frames payloads := rfl
  rw [hinput, loop_stops hp _ hfailed] at hrun
  cases (Prod.mk.inj hrun).2

theorem textWidth_of_menu {text : String} (htext : text ≠ "") (runtime : WorkerRuntime) :
    7 * text.utf8ByteSize ≤ textWidth (resultResponse ((runtime.refresh text 5).result 5)) := by
  simp only [textWidth, resultResponse, WorkerRuntime.result, WorkerRuntime.refresh,
    fakeCandidates_eq htext, List.take_succ_cons, List.take_zero, List.map_cons, List.map_nil,
    List.sum_cons, List.sum_nil, String.utf8ByteSize_append]
  omega

theorem long_query_overflows (hall : WritesAllText serde) {text : String}
    (hlong : ipcMaxFrameBytes < 7 * text.utf8ByteSize)
    (hp : payload.length ≤ ipcMaxFrameBytes)
    (hslice : serde.fromSlice payload =
      .ok { op := "query_candidates", inputSnapshot := text, maxCandidates := 5 }) :
    ¬OneReplyEach serde [payload] := by
  apply overflow_ends hp
  intro reply hreply
  have htext : text ≠ "" := by
    rintro rfl
    exact absurd hlong (by decide)
  have hanswer : (answer serde payload
      (WorkerRuntime.backend.resetForNewSession WorkerRuntime.new).2).1 =
        resultResponse ((((WorkerRuntime.backend.resetForNewSession WorkerRuntime.new).2).refresh
          text 5).result 5) := by
    rw [answer, hslice]
    simp [handleWireRequest, operation, handleBackendRequest, answerOrError, WorkerRuntime.backend,
      WorkerRuntime.queryCandidates, htext]
  rw [hanswer] at hreply
  have hwidth := hall _ _ hreply
  have hmenu := textWidth_of_menu htext
    (WorkerRuntime.backend.resetForNewSession WorkerRuntime.new).2
  omega

end

def queryJson (text : String) : String :=
  String.join ["\x7b\"op\":\"query_candidates\",\"input_snapshot\":", jsonString text,
    ",\"max_candidates\":5\x7d"]

/-- The JSON of a query for the text, read and answered as by `serde_json`. -/
def serdeReading (text : String) : Serde where
  fromSlice payload :=
    if payload = utf8 (queryJson text) then
      .ok { op := "query_candidates", inputSnapshot := text, maxCandidates := 5 }
    else .error "expected value at line 1 column 1"
  toVec resp := .ok (utf8 (responseJson resp))

theorem serdeReading_query (text : String) :
    (serdeReading text).fromSlice (utf8 (queryJson text)) =
      .ok { op := "query_candidates", inputSnapshot := text, maxCandidates := 5 } := if_pos rfl

theorem size_queryJson (text : String) :
    (utf8 (queryJson text)).length = 64 + escapedWidth text := by
  have hkeys : ["\x7b\"op\":\"query_candidates\",\"input_snapshot\":",
      ",\"max_candidates\":5\x7d"].map String.utf8ByteSize = [42, 20] := by decide +kernel
  simp only [List.map_cons, List.map_nil, List.cons.injEq] at hkeys
  rw [length_utf8, queryJson, size_join]
  simp only [List.map_cons, List.map_nil, List.sum_cons, List.sum_nil, size_jsonString, hkeys]
  clear hkeys
  omega

def letters (n : Nat) : String := String.ofList (List.replicate n 'a')

theorem size_letters (n : Nat) : (letters n).utf8ByteSize = n := by
  induction n with
  | zero => rfl
  | succ n ih =>
      have hone : 'a'.utf8Size = 1 := rfl
      rw [letters, List.replicate_succ, Text.size_ofList_cons, ← letters, ih, hone, Nat.add_comm]

theorem escapedWidth_letters (n : Nat) : escapedWidth (letters n) = n := by
  have hone : (jsonEscape 'a').utf8ByteSize = 1 := by decide +kernel
  rw [escapedWidth, letters, String.toList_ofList, List.map_replicate, hone,
    List.sum_replicate_nat, Nat.mul_one]

theorem long_query_ends_the_worker :
    Accepted [utf8 (queryJson (letters 40000))] ∧ WritesAllText (serdeReading (letters 40000)) ∧
      ¬OneReplyEach (serdeReading (letters 40000)) [utf8 (queryJson (letters 40000))] := by
  have hall : WritesAllText (serdeReading (letters 40000)) :=
    writesAllText_of_compact fun _ => rfl
  have hp : (utf8 (queryJson (letters 40000))).length ≤ ipcMaxFrameBytes := by
    rw [size_queryJson, escapedWidth_letters, ipcMaxFrameBytes]
    omega
  have hlong : ipcMaxFrameBytes < 7 * (letters 40000).utf8ByteSize := by
    rw [size_letters, ipcMaxFrameBytes]
    omega
  exact ⟨List.forall_mem_singleton.mpr hp, hall,
    long_query_overflows hall hlong hp (serdeReading_query _)⟩

/-- The worker answers each request with one frame exactly when every reply fits. -/
theorem one_reply_each_iff (serde : Serde) (hjson : WritesCompactJson serde)
    (payloads : List (List UInt8)) (haccepted : Accepted payloads) :
    OneReplyEach serde payloads ↔
      RepliesFit serde payloads (WorkerRuntime.backend.resetForNewSession WorkerRuntime.new).2 :=
  answersEach_iff hjson haccepted _

theorem two_replies : OneReplyEach (serdeReading "ni") [utf8 (queryJson "ni"), [33]] :=
  (one_reply_each_iff (serdeReading "ni") (fun _ => rfl) [utf8 (queryJson "ni"), [33]]
    (by unfold Accepted; decide +kernel)).mpr ⟨by decide +kernel, by decide +kernel, trivial⟩

end RimeWinime.WorkerLoop
