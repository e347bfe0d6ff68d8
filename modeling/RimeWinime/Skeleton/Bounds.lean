import RimeWinime.Skeleton.RxBuffer

namespace RimeWinime.RxBuffer

open Memory Run

/-- What is received fits into the buffer, and each command that has been run into its own. -/
structure Within (s : HostState) : Prop where
  size : s.rxBuf.length = rxBufSize
  fill : s.rxLen ≤ rxBufSize
  lines : ∀ line ∈ s.executed, line.length < lineSize

theorem copyLine_within {s : HostState} (h : Within s) {start i : Nat} (hi : i ≤ rxBufSize)
    (hstart : start ≤ i) : ∃ line, copyLine s start i = some line ∧ line.length < lineSize := by
  have hsmall : 0 < lineSize := by decide
  have hlen : (if lineSize ≤ i - start then lineSize - 1 else i - start) < lineSize ∧
      (if lineSize ≤ i - start then lineSize - 1 else i - start) ≤ i - start := by
    split <;> omega
  generalize hn : (if lineSize ≤ i - start then lineSize - 1 else i - start) = n at hlen
  have hin : start + n ≤ s.rxBuf.length := by
    rw [h.size]
    omega
  refine ⟨((s.rxBuf.drop start).take n).rdropWhile isTrailing, ?_, ?_⟩
  · rw [copyLine, hn, load, if_pos hin]
    rfl
  · have hdrop := (List.rdropWhile_prefix isTrailing ((s.rxBuf.drop start).take n)).length_le
    have htake := List.length_take_le n (s.rxBuf.drop start)
    omega

theorem within_command {s : HostState} (h : Within s) {line : List UInt8}
    (hline : line.length < lineSize) : Within (if 0 < line.length then processCommand s line else s) := by
  split
  · refine ⟨h.size, h.fill, fun l hl => ?_⟩
    rcases List.mem_append.mp hl with hl | hl
    · exact h.lines l hl
    · rw [List.mem_singleton.mp hl]
      exact hline
  · exact h

theorem processLines_within (left : Nat) : ∀ {i start : Nat} {s : HostState}, Within s →
    i + left = s.rxLen → start ≤ i →
    ∃ s' start', processLines left i start s = some (s', start') ∧ Within s' ∧
      s'.rxLen = s.rxLen ∧ start' ≤ s'.rxLen := by
  induction left with
  | zero =>
      intro i start s h hlen hstart
      exact ⟨s, start, rfl, h, rfl, by omega⟩
  | succ left ih =>
      intro i start s h hlen hstart
      have hfill := h.fill
      have hin : i < s.rxBuf.length := by
        rw [h.size]
        omega
      rw [processLines, List.getElem?_eq_getElem hin]
      simp only [Option.bind_eq_bind, Option.bind_some]
      split
      · obtain ⟨line, hcopy, hline⟩ := copyLine_within h (by omega : i ≤ rxBufSize) hstart
        have hnext := within_command h hline
        have hsame : (if 0 < line.length then processCommand s line else s).rxLen = s.rxLen := by
          split <;> rfl
        obtain ⟨s', start', hrun, hs', hlen', hstart'⟩ :=
          ih hnext (by rw [hsame]; omega : i + 1 + left = _) (Nat.le_refl (i + 1))
        rw [hcopy]
        exact ⟨s', start', hrun, hs', hlen'.trans hsame, hstart'⟩
      · exact ih h (by omega) (by omega)

theorem processRxBuffer_within {s : HostState} (h : Within s) :
    ∃ s', processRxBuffer s = some s' ∧ Within s' := by
  obtain ⟨s', start, hrun, hs', -, hstart⟩ := processLines_within s.rxLen h (Nat.zero_add _) (Nat.le_refl 0)
  have hfill := hs'.fill
  have hsize := hs'.size
  rw [processRxBuffer, hrun]
  simp only [Option.bind_eq_bind, Option.bind_some]
  split
  · split
    · have hin : start + (s'.rxLen - start) ≤ s'.rxBuf.length := by omega
      have hblock : ((s'.rxBuf.drop start).take (s'.rxLen - start)).length ≤ s'.rxLen - start :=
        List.length_take_le _ _
      have hroom : 0 + ((s'.rxBuf.drop start).take (s'.rxLen - start)).length ≤ s'.rxBuf.length := by
        omega
      obtain ⟨after, hstore, hlen⟩ := store_of_le hroom
      refine ⟨_, by rw [load, if_pos hin, Option.bind_some, hstore, Option.bind_some], ?_⟩
      exact ⟨hlen.trans hsize, by simp only; omega, hs'.lines⟩
    · exact ⟨_, rfl, hsize, by simp only; omega, hs'.lines⟩
  · exact ⟨s', rfl, hs'⟩

theorem within_closeClient {s : HostState} (h : Within s) : Within (closeClient s) :=
  ⟨h.size, Nat.zero_le _, h.lines⟩

theorem serviceClientIo_within {s : HostState} (h : Within s) (received : Recv) :
    ∃ s', serviceClientIo s received = some s' ∧ Within s' := by
  unfold serviceClientIo
  split
  · exact ⟨s, rfl, h⟩
  · cases received with
    | closed => exact ⟨_, rfl, within_closeClient h⟩
    | failed => exact ⟨_, rfl, within_closeClient h⟩
    | wouldBlock => exact ⟨s, rfl, h⟩
    | chunk c =>
        simp only
        split
        · exact ⟨_, rfl, within_closeClient h⟩
        · next hroom =>
            have hin : s.rxLen + c.bytes.length ≤ s.rxBuf.length := by
              rw [h.size]
              omega
            obtain ⟨after, hstore, hlen⟩ := store_of_le hin
            have hfilled : Within { s with
                rxBuf := s.rxBuf.take s.rxLen ++ (c.bytes ++ after)
                rxLen := s.rxLen + c.bytes.length } :=
              ⟨hlen.trans h.size, by simp only; omega, h.lines⟩
            obtain ⟨s', hprocess, hs'⟩ := processRxBuffer_within hfilled
            exact ⟨s', by rw [hstore]; exact hprocess, hs'⟩

/-- No stream of bytes, however long its lines are and however it is cut, makes the host read
or write outside of `rx_buf` and `line`. -/
theorem serve_within {stale : List UInt8} (hstale : stale.length = rxBufSize) (events : List Recv) :
    ∃ s, serve (some (accepted stale)) events = some s ∧ Within s := by
  have hstart : ∃ s, some (accepted stale) = some s ∧ Within s :=
    ⟨accepted stale, rfl, hstale, Nat.zero_le _, fun line hline => by cases hline⟩
  refine run_invariant (fun s => ∃ s', s = some s' ∧ Within s') ?_ hstart events
  rintro _ e ⟨s, rfl, hs⟩
  rw [Option.bind_some, turn]
  split
  · exact serviceClientIo_within hs e
  · exact ⟨s, rfl, hs⟩

theorem broken_line_within : ∃ s, serve (some (accepted cleared)) brokenLine = some s ∧ Within s :=
  serve_within length_cleared brokenLine

end RimeWinime.RxBuffer
