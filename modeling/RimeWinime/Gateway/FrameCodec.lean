import RimeWinime.Gateway.WorkerLoop

namespace RimeWinime.FrameCodec

open World Ipc LittleEndian WorkerLoop

def writeTo (payload : List UInt8) : Act (List UInt8) (Except String Unit) := fun pipe =>
  match writeFramedPayload payload with
  | .ok bytes => (.ok (), pipe ++ bytes)
  | .error err => (.error err, pipe)

def writeAll : List (List UInt8) → Act (List UInt8) (Except String Unit)
  | [] => pure (.ok ())
  | payload :: rest => andThen (writeTo payload) fun _ => writeAll rest

/-- The payloads that repeated calls give, and what the last call says: that there
is none, or an error. -/
def readAll (input : List UInt8) : List (List UInt8) × Except String Unit :=
  match _hread : readFramedPayload input with
  | .error err => ([], .error err)
  | .ok none => ([], .ok ())
  | .ok (some (payload, rest)) =>
      let (payloads, ending) := readAll rest
      (payload :: payloads, ending)
termination_by input.length
decreasing_by exact read_shorter (by assumption)

def AtBoundary (input : List UInt8) : Prop :=
  ∃ payloads, Accepted payloads ∧ input = frames payloads

def CutInLength (input : List UInt8) : Prop :=
  ∃ payloads stump, Accepted payloads ∧ input = frames payloads ++ stump ∧
    0 < stump.length ∧ stump.length < 4

def Broken (rest : List UInt8) : Prop :=
  4 ≤ rest.length ∧
    (ipcMaxFrameBytes < decode (rest.take 4) ∨ (rest.drop 4).length < decode (rest.take 4))

/-- The reader ends without an error on just the streams that end with a frame. -/
def Faithful (input : List UInt8) : Prop := (readAll input).2 = .ok () ↔ AtBoundary input

theorem read_short {input : List UInt8} (h : input.length < 4) :
    readFramedPayload input = .ok none := if_pos h

theorem read_broken {rest : List UInt8} (h : Broken rest) :
    ∃ err, readFramedPayload rest = .error err := by
  obtain ⟨hlong, hwrong⟩ := h
  rw [readFramedPayload, if_neg (Nat.not_lt.mpr hlong)]
  dsimp only
  by_cases hover : decode (rest.take 4) > ipcMaxFrameBytes
  · exact ⟨_, if_pos hover⟩
  · rw [if_neg hover, if_pos (hwrong.resolve_left hover)]
    exact ⟨_, rfl⟩

theorem begins_with_frame {input : List UInt8} (hlong : 4 ≤ input.length) (h : ¬Broken input) :
    ∃ payload rest, payload.length ≤ ipcMaxFrameBytes ∧ input = frame payload ++ rest := by
  rw [Broken, not_and, not_or, Nat.not_lt, Nat.not_lt] at h
  obtain ⟨hsmall, hfull⟩ := h hlong
  have hpayload : ((input.drop 4).take (decode (input.take 4))).length = decode (input.take 4) :=
    List.length_take_of_le hfull
  have hheader : encode 4 (decode (input.take 4)) = input.take 4 := by
    have hfour : (input.take 4).length = 4 := List.length_take_of_le hlong
    have h := encode_decode (input.take 4)
    rwa [hfour] at h
  refine ⟨(input.drop 4).take (decode (input.take 4)), (input.drop 4).drop (decode (input.take 4)),
    hpayload.trans_le hsmall, ?_⟩
  rw [frame, hpayload, hheader, List.append_assoc, List.take_append_drop, List.take_append_drop]

theorem readAll_none {input : List UInt8} (h : readFramedPayload input = .ok none) :
    readAll input = ([], .ok ()) := by
  rw [readAll]
  split <;> simp_all

theorem readAll_error {input : List UInt8} {err : String} (h : readFramedPayload input = .error err) :
    readAll input = ([], .error err) := by
  rw [readAll]
  split <;> simp_all

theorem readAll_some {input payload rest : List UInt8}
    (h : readFramedPayload input = .ok (some (payload, rest))) :
    readAll input = (payload :: (readAll rest).1, (readAll rest).2) := by
  rw [readAll]
  split <;> simp_all

theorem readAll_frames {payloads : List (List UInt8)} (h : Accepted payloads) (rest : List UInt8) :
    readAll (frames payloads ++ rest) = (payloads ++ (readAll rest).1, (readAll rest).2) := by
  induction payloads with
  | nil => rfl
  | cons payload payloads ih =>
      obtain ⟨hpayload, hrest⟩ := List.forall_mem_cons.mp h
      have hsplit : frames (payload :: payloads) ++ rest =
          frame payload ++ (frames payloads ++ rest) := by
        rw [frames, List.flatMap_cons, List.append_assoc, frames]
      rw [hsplit, readAll_some (read_frame hpayload _), ih hrest, List.cons_append]

theorem whole_frames (input : List UInt8) :
    ∃ payloads rest, Accepted payloads ∧ input = frames payloads ++ rest ∧
      (rest.length < 4 ∨ Broken rest) := by
  induction hn : input.length using Nat.strongRecOn generalizing input with
  | ind n ih =>
      by_cases hend : input.length < 4 ∨ Broken input
      · exact ⟨[], input, by simp [Accepted], rfl, hend⟩
      · rw [not_or, Nat.not_lt] at hend
        obtain ⟨payload, tail, hpayload, hinput⟩ := begins_with_frame hend.1 hend.2
        have hshorter : tail.length < n := by
          rw [← hn, hinput, frame, List.length_append, List.length_append, length_encode]
          omega
        obtain ⟨payloads, rest, hpayloads, htail, hrest⟩ := ih _ hshorter tail rfl
        refine ⟨payload :: payloads, rest, List.forall_mem_cons.mpr ⟨hpayload, hpayloads⟩, ?_, hrest⟩
        rw [hinput, htail, frames, frames, List.flatMap_cons, List.append_assoc]

theorem writeAll_frames {payloads : List (List UInt8)} (h : Accepted payloads) (pipe : List UInt8) :
    writeAll payloads pipe = (.ok (), pipe ++ frames payloads) := by
  induction payloads generalizing pipe with
  | nil => simp [writeAll, frames]
  | cons payload payloads ih =>
      obtain ⟨hpayload, hrest⟩ := List.forall_mem_cons.mp h
      have hwritten : writeTo payload pipe = (.ok (), pipe ++ frame payload) := by
        rw [writeTo, writeFramedPayload, if_neg (Nat.not_lt.mpr hpayload)]
      simp only [writeAll, andThen, bind_run, hwritten, ih hrest, frames, List.flatMap_cons,
        List.append_assoc]

theorem writeTo_refused {payload : List UInt8} (h : ipcMaxFrameBytes < payload.length)
    (pipe : List UInt8) : ∃ err, writeTo payload pipe = (.error err, pipe) := by
  rw [writeTo, writeFramedPayload, if_pos h]
  exact ⟨_, rfl⟩

theorem readAll_boundary {payloads : List (List UInt8)} (h : Accepted payloads) :
    readAll (frames payloads) = (payloads, .ok ()) := by
  have hend : readAll [] = ([], .ok ()) := readAll_none rfl
  have hall := readAll_frames h []
  rwa [hend, List.append_nil, List.append_nil] at hall

theorem not_boundary_of_cut {input : List UInt8} (h : CutInLength input) : ¬AtBoundary input := by
  obtain ⟨payloads, stump, hpayloads, rfl, hsome, hshort⟩ := h
  rintro ⟨others, hothers, heq⟩
  have hcut := readAll_frames hpayloads stump
  rw [heq, readAll_boundary hothers, readAll_none (read_short hshort), List.append_nil] at hcut
  rw [(Prod.mk.inj hcut).1] at heq
  have hempty := List.append_right_eq_self.mp heq
  rw [hempty] at hsome
  exact Nat.lt_irrefl 0 hsome

theorem faithful_iff (input : List UInt8) : Faithful input ↔ ¬CutInLength input := by
  constructor
  · intro hfaithful hcut
    refine not_boundary_of_cut hcut (hfaithful.mp ?_)
    obtain ⟨payloads, stump, hpayloads, rfl, -, hshort⟩ := hcut
    rw [readAll_frames hpayloads, readAll_none (read_short hshort)]
  · intro hwhole
    obtain ⟨payloads, rest, hpayloads, rfl, hshort | hbroken⟩ := whole_frames input
    · have hempty : rest = [] := by
        by_contra hsome
        exact hwhole ⟨payloads, rest, hpayloads, rfl, List.length_pos_iff.mpr hsome, hshort⟩
      rw [hempty, List.append_nil]
      exact iff_of_true (by rw [readAll_boundary hpayloads]) ⟨payloads, hpayloads, rfl⟩
    · obtain ⟨err, herr⟩ := read_broken hbroken
      refine iff_of_false ?_ ?_
      · rw [readAll_frames hpayloads, readAll_error herr]
        exact nofun
      · rintro ⟨others, hothers, heq⟩
        have hread := readAll_frames hpayloads rest
        rw [heq, readAll_boundary hothers, readAll_error herr] at hread
        cases (Prod.mk.inj hread).2

/-- What is written is read back, a payload over the limit is refused, and the
reader tells a stream that ends with a frame from all others but those that are
cut inside a length. -/
theorem codec_faithful_iff (input : List UInt8) :
    (∀ payloads, Accepted payloads →
      (∀ pipe, writeAll payloads pipe = (.ok (), pipe ++ frames payloads)) ∧
        readAll (frames payloads) = (payloads, .ok ())) ∧
      (∀ payload, ipcMaxFrameBytes < payload.length →
        ∀ pipe, ∃ err, writeTo payload pipe = (.error err, pipe)) ∧
      (Faithful input ↔ ¬CutInLength input) :=
  ⟨fun _ h => ⟨writeAll_frames h, readAll_boundary h⟩, fun _ h => writeTo_refused h,
    faithful_iff input⟩

/-- A stream of one byte is no sequence of frames, and the reader reports its end. -/
theorem one_byte_is_end : (readAll [1]).2 = .ok () ∧ ¬AtBoundary [1] := by
  refine ⟨by rw [readAll_none rfl], ?_⟩
  exact not_boundary_of_cut ⟨[], [1], by simp [Accepted], rfl, by decide, by decide⟩

end RimeWinime.FrameCodec
