import RimeWinime.WinImm.Lifetime

namespace RimeWinime.WinImm

open World Outside
open Worker (Candidate WorkerIpcRequest WorkerIpcResponse BackendResult)
open Backends (ImmRead)
open CandidatePage (ImmCandidatePage commentOf slotText numbered pageTexts readList_page numbered_at)

/-- The candidate stands in a slot of a list that Windows has handed over. -/
def Offered (past : List (Event Call.Answer)) (c : Candidate) : Prop :=
  ∃ himc listIndex useAnsi size, ∃ buffer : ListBuffer size,
    (⟨.candidateList himc listIndex useAnsi size, some buffer⟩ : Event Call.Answer) ∈ past ∧
      c.comment = commentOf useAnsi listIndex ∧
      ∃ slot, slotText buffer.bytes useAnsi slot = some c.text

theorem Offered.later {past later : List (Event Call.Answer)} {c : Candidate} (h : Offered past c)
    (hlater : past <+: later) : Offered later c := by
  obtain ⟨himc, listIndex, useAnsi, size, buffer, hcall, htext⟩ := h
  exact ⟨himc, listIndex, useAnsi, size, buffer, hlater.subset hcall, htext⟩

def AllOffered (past : List (Event Call.Answer)) (candidates : List Candidate) : Prop :=
  ∀ c ∈ candidates, Offered past c

theorem AllOffered.later {past later : List (Event Call.Answer)} {candidates : List Candidate}
    (h : AllOffered past candidates) (hlater : past <+: later) : AllOffered later candidates :=
  fun c hc => (h c hc).later hlater

theorem allOffered_nil (past : List (Event Call.Answer)) : AllOffered past [] :=
  fun _ h => absurd h List.not_mem_nil

theorem mem_numbered {comment : String} {texts : List String} {c : Candidate}
    (hc : c ∈ numbered comment texts) : c.comment = comment ∧ c.text ∈ texts := by
  obtain ⟨i, hi⟩ := List.mem_iff_getElem?.mp hc
  rw [numbered_at] at hi
  obtain ⟨text, htext, rfl⟩ := Option.map_eq_some_iff.mp hi
  exact ⟨rfl, List.mem_of_getElem? htext⟩

/-- A buffer that Windows writes is read by the worker. -/
theorem readList_buffer {size : UInt32} (buffer : ListBuffer size) (useAnsi : Bool)
    (listIndex : UInt32) (maxCandidates : Nat) :
    CandidatePage.readList buffer.bytes useAnsi listIndex maxCandidates =
      .ok (if pageTexts buffer.bytes useAnsi maxCandidates ≠ [] ∨
          0 < (CandidatePage.word buffer.bytes 8).toNat then
        some (CandidatePage.pageOf buffer.bytes useAnsi listIndex maxCandidates) else none) := by
  apply readList_page
  · exact buffer.length.symm ▸ buffer.header
  · exact buffer.length.symm ▸ buffer.small
  · intro _
    have hstart : CandidatePage.pageStartOf buffer.bytes ≤ (CandidatePage.word buffer.bytes 16).toNat :=
      Nat.min_le_left _ _
    have hreach := buffer.reach
    omega

/-- The candidates of a page are texts of its list. -/
theorem offered_pageOf {past : List (Event Call.Answer)} {himc : Handle} {listIndex : UInt32}
    {useAnsi : Bool} {size : UInt32} {buffer : ListBuffer size} {maxCandidates : Nat}
    {page : ImmCandidatePage}
    (hcall : (⟨.candidateList himc listIndex useAnsi size, some buffer⟩ : Event Call.Answer) ∈ past)
    (hpage : pageOf buffer useAnsi listIndex maxCandidates = some page) :
    AllOffered past page.candidates := by
  rw [pageOf, readList_buffer buffer useAnsi listIndex maxCandidates] at hpage
  have hsome := Option.some.inj ((if_pos (Option.ite_none_right_eq_some.mp hpage).1).symm.trans hpage)
  rw [← hsome]
  intro c hc
  obtain ⟨hcomment, htext⟩ := mem_numbered hc
  obtain ⟨slot, -, hslot⟩ := List.mem_filterMap.mp htext
  exact ⟨himc, listIndex, useAnsi, size, buffer, hcall, hcomment, slot, hslot⟩

section

variable (os : Os)

theorem offered_readLists (himc : Handle) (maxCandidates left : Nat) (listIndex : UInt32)
    (w : Process) :
    AllOffered (readLists os himc maxCandidates left listIndex w).2.past
      (readLists os himc maxCandidates left listIndex w).1.candidates := by
  induction left generalizing listIndex w with
  | zero => exact allOffered_nil _
  | succ left ih =>
      let sized := listSize os himc listIndex w
      let list := ask os (.candidateList himc listIndex sized.1.2 sized.1.1) sized.2
      let page := list.1.bind fun buffer => pageOf buffer sized.1.2 listIndex maxCandidates
      have hrun : readLists os himc maxCandidates (left + 1) listIndex w =
          if sized.1.1 = 0 then readLists os himc maxCandidates left (listIndex + 1) sized.2
          else page.elim (readLists os himc maxCandidates left (listIndex + 1)) pure list.2 := by
        rw [readLists, bind_run]
        dsimp only
        rw [ite_run]
        rfl
      rw [hrun]
      by_cases hnone : sized.1.1 = 0
      · rw [if_pos hnone]
        exact ih _ _
      · rw [if_neg hnone]
        cases hpage : page with
        | none => exact ih _ _
        | some found =>
            obtain ⟨buffer, hbuffer, hfound⟩ := Option.bind_eq_some_iff.mp hpage
            have hcall : (⟨.candidateList himc listIndex sized.1.2 sized.1.1, some buffer⟩ :
                Event Call.Answer) ∈ list.2.past := by
              rw [← hbuffer]
              exact List.mem_append_right _ (List.mem_singleton_self _)
            exact offered_pageOf hcall hfound

theorem offered_readSnapshot (maxCandidates : Nat) (himc : Handle) (w : Process) {r : ImmRead}
    (h : (readSnapshot os maxCandidates himc w).1 = .ok r) :
    AllOffered (readSnapshot os maxCandidates himc w).2.past r.candidates := by
  let comp := readImmString os himc .composition w
  let reading := readImmString os himc .reading comp.2
  let count := listCount os himc reading.2
  let page := readLists os himc maxCandidates count.1.toNat 0 count.2
  cases hcomp : comp.1 with
  | error err =>
      have hrun : readSnapshot os maxCandidates himc w = (.error err, comp.2) := by
        rw [readSnapshot, bind_run]
        rw [show (readImmString os himc .composition w).1 = .error err from hcomp]
        rfl
      rw [hrun] at h
      cases h
  | ok text =>
      have hrun : readSnapshot os maxCandidates himc w =
          (.ok ⟨text, reading.1.toOption.getD "", page.1.candidates, page.1.selectedIndex,
            page.1.pageSize⟩, page.2) := by
        rw [readSnapshot, bind_run]
        rw [show (readImmString os himc .composition w).1 = .ok text from hcomp]
        rfl
      rw [hrun] at h ⊢
      cases h
      exact offered_readLists os himc maxCandidates _ _ _

/-- Windows has these lists, and goes on having them. -/
structure HasLists (himc : Handle) (lists : CandidatePage.CandidateLists) : Prop where
  count : ∀ past useAnsi, os past (.candidateListCount himc useAnsi) =
    if useAnsi then lists.countA else lists.countW
  size : ∀ past listIndex useAnsi, os past (.candidateListSize himc listIndex useAnsi) =
    (if useAnsi then lists.ansi listIndex else lists.wide listIndex).size
  small : ∀ listIndex, (CandidatePage.listRead lists listIndex).1.size.toNat < 2 ^ 31
  list : ∀ past listIndex useAnsi r,
    r = (if useAnsi then lists.ansi listIndex else lists.wide listIndex) →
      (os past (.candidateList himc listIndex useAnsi r.size)).map ListBuffer.bytes =
        if r.copied = 0 then none else some (CandidatePage.listBuffer r)

variable {os} in
theorem HasLists.listSize {himc : Handle} {lists : CandidatePage.CandidateLists}
    (h : HasLists os himc lists) (listIndex : UInt32) (w : Process) :
    (WinImm.listSize os himc listIndex w).1 =
      ((CandidatePage.listRead lists listIndex).1.size, (CandidatePage.listRead lists listIndex).2) := by
  have hwide : (ask os (.candidateListSize himc listIndex false) w).1 = (lists.wide listIndex).size :=
    h.size _ _ false
  have hansi : ∀ w : Process, (ask os (.candidateListSize himc listIndex true) w).1 =
      (lists.ansi listIndex).size := fun w => h.size w.past _ true
  rw [WinImm.listSize, bind_run, hwide, ite_run, CandidatePage.listRead]
  by_cases hnone : (lists.wide listIndex).size ≠ 0
  · rw [if_pos hnone, if_pos hnone]
    rfl
  · rw [if_neg hnone, if_neg hnone, bind_run, hansi]
    rfl

theorem listRead_eq (lists : CandidatePage.CandidateLists) (listIndex : UInt32) :
    (CandidatePage.listRead lists listIndex).1 =
      if (CandidatePage.listRead lists listIndex).2 then lists.ansi listIndex else lists.wide listIndex := by
  rw [CandidatePage.listRead]
  split
  · rfl
  · rfl

variable {os} in
/-- Where the lists stay, the worker reads them list by list as they would be read at once. -/
theorem HasLists.readLists {himc : Handle} {lists : CandidatePage.CandidateLists}
    (h : HasLists os himc lists) (maxCandidates left : Nat) (listIndex : UInt32) (w : Process) :
    CandidatePage.readLists lists maxCandidates left listIndex =
      .ok (WinImm.readLists os himc maxCandidates left listIndex w).1 := by
  induction left generalizing listIndex w with
  | zero => rfl
  | succ left ih =>
      let r := (CandidatePage.listRead lists listIndex).1
      let useAnsi := (CandidatePage.listRead lists listIndex).2
      let sized := WinImm.listSize os himc listIndex w
      let list := ask os (.candidateList himc listIndex useAnsi r.size) sized.2
      let page := list.1.bind fun buffer => pageOf buffer useAnsi listIndex maxCandidates
      have hsized : sized.1 = (r.size, useAnsi) := h.listSize listIndex w
      have hrun : WinImm.readLists os himc maxCandidates (left + 1) listIndex w =
          if r.size = 0 then WinImm.readLists os himc maxCandidates left (listIndex + 1) sized.2
          else page.elim (WinImm.readLists os himc maxCandidates left (listIndex + 1)) pure list.2 := by
        rw [WinImm.readLists, bind_run, hsized]
        dsimp only
        rw [ite_run]
        rfl
      have hlist : list.1.map ListBuffer.bytes =
          if r.copied = 0 then none else some (CandidatePage.listBuffer r) :=
        h.list _ _ _ r (listRead_eq lists listIndex)
      rw [hrun, CandidatePage.readLists_succ, CandidatePage.allocate_ok (h.small listIndex)]
      by_cases hsize : r.size = 0
      · rw [if_pos hsize, if_pos hsize]
        exact ih _ _
      · rw [if_neg hsize, if_neg hsize]
        change (if r.copied = 0 then _ else _) = _
        by_cases hcopied : r.copied = 0
        · rw [if_pos hcopied] at hlist
          have hpage : page = none := congrArg (fun l : Option (ListBuffer r.size) =>
            l.bind fun buffer => pageOf buffer useAnsi listIndex maxCandidates)
            (Option.map_eq_none_iff.mp hlist)
          rw [if_pos hcopied, hpage]
          exact ih _ _
        · rw [if_neg hcopied] at hlist
          obtain ⟨buffer, hbuffer, hbytes⟩ := Option.map_eq_some_iff.mp hlist
          have hpage : page = pageOf buffer useAnsi listIndex maxCandidates :=
            congrArg (fun l : Option (ListBuffer r.size) =>
              l.bind fun buffer => pageOf buffer useAnsi listIndex maxCandidates) hbuffer
          rw [if_neg hcopied, CandidatePage.bufferOf, ← hbytes, hpage, pageOf, readList_buffer]
          split
          · rfl
          · exact ih _ _

variable {os} in
theorem HasLists.readImmCandidates {himc : Handle} {lists : CandidatePage.CandidateLists}
    (h : HasLists os himc lists) (maxCandidates : Nat) (w : Process) :
    CandidatePage.readImmCandidates lists maxCandidates =
      .ok (WinImm.readImmCandidates os himc maxCandidates w).1 := by
  have hcount : (listCount os himc w).1 = CandidatePage.listCount lists := by
    have hwide : (ask os (.candidateListCount himc false) w).1 = lists.countW := h.count _ false
    have hansi : ∀ w : Process, (ask os (.candidateListCount himc true) w).1 = lists.countA :=
      fun w => h.count w.past true
    rw [listCount, bind_run, hwide, ite_run, CandidatePage.listCount]
    by_cases hnone : lists.countW = 0
    · rw [if_neg (not_not.mpr hnone), bind_run, hansi, if_pos hnone]
      rfl
    · rw [if_pos hnone, if_neg hnone]
      exact (if_neg hnone).symm
  rw [CandidatePage.readImmCandidates, WinImm.readImmCandidates, bind_run, hcount]
  exact h.readLists maxCandidates _ 0 _

abbrev Any (_ : Call) : Prop := True

variable {os}

theorem asks_any {q : Call} : Asks Any (ask os q : Run q.Answer) := Asks.ask trivial

theorem Quiet.any {α : Type} {x : Run α} (hx : Asks Quiet x) : Asks Any x := hx.mono fun _ _ => trivial

variable (os)

theorem grows_acquire : Asks Any (acquireActiveHimc os) := by
  apply Asks.bind Asks.get
  intro s
  cases windowed s with
  | some r => exact Asks.bind asks_any fun _ => Asks.pure _
  | none => exact Asks.pure _

theorem grows_release (himc : Handle) (borrowed : Bool) :
    Asks Any (releaseActiveHimc os himc borrowed) := by
  apply Asks.bind Asks.get
  intro s
  cases windowed s with
  | some r => exact Asks.when asks_any
  | none => exact Asks.pure _

theorem grows_withHimc {α : Type} (failed : String → α) {x : Handle → Run α}
    (hx : ∀ himc, Asks Any (x himc)) : Asks Any (withHimc os failed x) := by
  apply Asks.bind (grows_acquire os)
  intro own
  cases own with
  | error err => exact Asks.pure _
  | ok lent => exact Asks.bind (hx _) fun _ => Asks.bind (grows_release os _ _) fun _ => Asks.pure _

theorem grows_ensureContextAlive (r : WinImmRuntime) :
    Asks Any (WinImmRuntime.ensureContextAlive os r) := by
  rw [WinImmRuntime.ensureContextAlive]
  apply Asks.ite _ (Asks.pure _)
  apply Asks.bind asks_any
  intro active
  apply Asks.ite (Asks.pure _)
  exact Asks.bind asks_any fun _ => Asks.pure _

theorem grows_resetImm : Asks Any (resetImm os) := by
  have hactivate : Asks Any (activateQqIme os) :=
    grows_withHimc os _ fun himc => Quiet.any (asks_activated os himc)
  apply Asks.bind Asks.get
  intro s
  cases s.runtime with
  | some r => exact Asks.bind (grows_ensureContextAlive os r) fun _ => hactivate
  | none => exact hactivate

theorem grows_available : Asks Any (immRuntimeAvailable os) := by
  apply Asks.bind Asks.get
  intro s
  cases s.runtime with
  | some r => exact grows_ensureContextAlive os r
  | none => exact Asks.pure _

theorem grows_sendModifierKey (target : Handle) (vk : UInt32) (keyDown altDown : Bool) :
    Asks Any (sendModifierKey os target vk keyDown altDown) :=
  Asks.bind (Quiet.any (asks_keyLparamFromVk os _ _ _)) fun _ => asks_any

theorem grows_modifiersDown (target : Handle) (k : Stroke) : Asks Any (modifiersDown os target k) := by
  apply Asks.bind (Asks.when (grows_sendModifierKey os _ _ _ _))
  intro _
  apply Asks.bind (Asks.when (grows_sendModifierKey os _ _ _ _))
  intro _
  exact Asks.when (grows_sendModifierKey os _ _ _ _)

theorem grows_modifiersUp (target : Handle) (k : Stroke) : Asks Any (modifiersUp os target k) := by
  apply Asks.bind (Asks.when (grows_sendModifierKey os _ _ _ _))
  intro _
  apply Asks.bind (Asks.when (grows_sendModifierKey os _ _ _ _))
  intro _
  exact Asks.when (grows_sendModifierKey os _ _ _ _)

theorem grows_strike (r : WinImmRuntime) (himc : Handle) (k : Stroke) (lparam : UInt32) :
    Asks Any (strike os r himc k lparam) := by
  apply Asks.bind (grows_modifiersDown os r.target k)
  intro _
  apply Asks.bind asks_any
  intro _
  apply Asks.bind (Quiet.any (asks_translateByImm os _ _ _))
  intro _
  apply Asks.bind asks_any
  intro _
  apply Asks.bind (Quiet.any (asks_callExports os _ _ _ _))
  intro _
  apply Asks.bind (Quiet.any (asks_keyLparamFromVk os _ _ _))
  intro keyUpLparam
  apply Asks.bind asks_any
  intro _
  apply Asks.bind (Quiet.any (asks_sendChar os _ _))
  intro _
  exact grows_modifiersUp os r.target k

theorem grows_driveKey (keyEvent : Worker.BackendKeyEvent) (himc : Handle) :
    Asks Any (driveKey os keyEvent himc) := by
  apply Asks.bind Asks.get
  intro s
  apply Asks.bind (Quiet.any (asks_strokeOf os keyEvent _))
  intro k
  apply Asks.bind (Quiet.any (asks_keyLparamFromVk os _ _ _))
  intro lparam
  cases (windowed s).filter fun _ => keyEvent.keyDown with
  | some r => exact Asks.bind (grows_strike os r himc k lparam) fun _ => asks_any
  | none => exact Asks.bind (Quiet.any (asks_callExports os _ himc k lparam)) fun _ => asks_any

theorem grows_driveQqImeKey (keyEvent : Worker.BackendKeyEvent) :
    Asks Any (driveQqImeKey os keyEvent) := by
  apply Asks.bind Asks.get
  intro s
  exact Asks.ite (Asks.pure _) (grows_withHimc os _ (grows_driveKey os keyEvent))

theorem grows_read (maxCandidates : Nat) (w : Process) :
    w.past <+: ((imm os).read maxCandidates w).2.past := by
  have hread : Asks Any (withHimc os Except.error (readSnapshot os maxCandidates)) :=
    grows_withHimc os _ fun himc => Quiet.any (asks_readSnapshot os maxCandidates himc)
  exact hread.grows w

/-- What is read is offered, from whichever context it is read. -/
theorem offered_read (maxCandidates : Nat) (w : Process) {r : ImmRead}
    (h : ((imm os).read maxCandidates w).1 = .ok r) :
    AllOffered ((imm os).read maxCandidates w).2.past r.candidates := by
  let own := acquireActiveHimc os w
  cases hown : own.1 with
  | error err =>
      have hrun : ((imm os).read maxCandidates w).1 = .error err := by
        change (withHimc os _ _ w).1 = _
        rw [withHimc, bind_run, show (acquireActiveHimc os w).1 = .error err from hown]
        rfl
      rw [hrun] at h
      cases h
  | ok lent =>
      obtain ⟨himc, borrowed⟩ := lent
      let read := readSnapshot os maxCandidates himc own.2
      have hrun : (imm os).read maxCandidates w =
          (read.1, (releaseActiveHimc os himc borrowed read.2).2) := by
        change withHimc os _ _ w = _
        rw [withHimc, bind_run, show (acquireActiveHimc os w).1 = .ok (himc, borrowed) from hown]
        rfl
      rw [hrun] at h ⊢
      exact (offered_readSnapshot os maxCandidates himc own.2 h).later
        ((grows_release os himc borrowed).grows read.2)

end

end RimeWinime.WinImm
