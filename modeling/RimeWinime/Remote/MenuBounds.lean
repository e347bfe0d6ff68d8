import RimeWinime.Host.Adapter
import RimeWinime.Remote.Hooks

namespace RimeWinime.MenuBounds

open World Win32 Proto Session ImmOps SharedState

variable {W : Type}

theorem ok_of_bind {ε α β : Type} {x : Except ε α} {f : α → Except ε β} {b : β}
    (h : x >>= f = .ok b) : ∃ a, x = .ok a ∧ f a = .ok b := by
  cases x with
  | ok a => exact ⟨a, rfl, h⟩
  | error e => cases h

def InBounds (menu : MenuProto) : Prop :=
  (∃ read, declaredCandidates menu = .ok read) ∧ ∃ read, Hooks.menuCandidates menu = .ok read

theorem inBounds_iff (menu : MenuProto) :
    InBounds menu ↔
      0 ≤ menu.numCandidates.toInt ∧ menu.numCandidates.toInt ≤ menu.candidates.length := by
  rw [InBounds, declaredCandidates_ok, Hooks.menuCandidates_ok]
  constructor
  · rintro ⟨hboth, -⟩
    exact hboth
  · intro h
    exact ⟨h, h.2⟩

def candBuffer (r : CandRead) : List UInt8 := r.bytes.takeD r.size.toNat 0

def dwCount (r : CandRead) : UInt32 := ((readU32 (candBuffer r) 8).toOption).getD 0

def dwSelection (r : CandRead) : UInt32 := ((readU32 (candBuffer r) 12).toOption).getD 0

def dwPageStart (r : CandRead) : UInt32 := ((readU32 (candBuffer r) 16).toOption).getD 0

def dwPageSize (r : CandRead) : UInt32 := ((readU32 (candBuffer r) 20).toOption).getD 0

def offsetTable (r : CandRead) : List UInt32 :=
  ((readSlots (candBuffer r) 0 ((r.size.toNat - headerSize) / 4)).toOption).getD []

def Filled (table : List UInt32) (size slot : Nat) : Prop :=
  ∃ offset, table[slot]? = some offset ∧ 0 < offset.toNat ∧ offset.toNat < size

/-- The count fits a positive `int32`, and from the first real offset on as
many slots are filled. -/
def AllListed (r : CandRead) : Prop :=
  (dwCount r).toNat < 2 ^ 31 ∧
    ∀ i, i < (dwCount r).toNat →
      Filled (offsetTable r) r.size.toNat (baseIdx (offsetTable r) r.size + i)

theorem readCandidates_length {buffer : List UInt8} {size : Nat} {table : List UInt32}
    {slot count : Nat} {read : List CandidateProto}
    (h : readCandidates buffer size table slot count = .ok read) :
    read.length ≤ count ∧
      (read.length = count ↔ ∀ i, i < count → Filled table size (slot + i)) := by
  induction count generalizing slot read with
  | zero =>
      cases h
      exact ⟨Nat.le_refl 0, fun _ i hi => absurd hi (Nat.not_lt_zero i), fun _ => rfl⟩
  | succ count ih =>
      have hshift : (∀ i, i < count + 1 → Filled table size (slot + i)) ↔
          Filled table size slot ∧ ∀ i, i < count → Filled table size (slot + 1 + i) := by
        rw [Nat.forall_lt_succ_left]
        simp only [Nat.add_zero, Nat.add_assoc, Nat.add_comm 1]
      rw [hshift]
      rw [readCandidates] at h
      cases hs : table[slot]? with
      | none =>
          rw [hs] at h
          cases h
          refine ⟨Nat.zero_le _, fun he => absurd he (Nat.succ_ne_zero count).symm, ?_⟩
          rintro ⟨⟨offset, he, -⟩, -⟩
          cases hs.symm.trans he
      | some offset =>
          simp only [hs] at h
          by_cases hskip : offset.toNat = 0 ∨ size ≤ offset.toNat
          · rw [if_pos hskip] at h
            obtain ⟨hle, -⟩ := ih h
            refine ⟨Nat.le_succ_of_le hle, fun he => ?_, ?_⟩
            · omega
            · rintro ⟨⟨offset', he, hpos, hlt⟩, -⟩
              cases hs.symm.trans he
              omega
          · rw [if_neg hskip] at h
            obtain ⟨units, -, htail⟩ := ok_of_bind h
            obtain ⟨rest, hrest, hread⟩ := ok_of_bind htail
            obtain ⟨hle, hiff⟩ := ih hrest
            cases hread
            have hfilled : Filled table size slot := ⟨offset, hs, by omega, by omega⟩
            rw [List.length_cons]
            refine ⟨Nat.succ_le_succ hle, fun he => ⟨hfilled, hiff.mp (by omega)⟩, fun hall => ?_⟩
            rw [hiff.mpr hall.2]

theorem menu_read {r : CandRead} {menu : MenuProto} (h : getCandidateList r = .ok (some menu)) :
    dwCount r ≠ 0 ∧ menu.highlightedCandidateIndex = (dwSelection r).toInt32 ∧
      menu.numCandidates = (dwCount r).toInt32 ∧
      readCandidates (candBuffer r) r.size.toNat (offsetTable r)
        (baseIdx (offsetTable r) r.size) (dwCount r).toNat = .ok menu.candidates := by
  rw [getCandidateList] at h
  split at h
  · cases h
  split at h
  · cases h
  obtain ⟨count, hcount, h⟩ := ok_of_bind h
  have hdw : dwCount r = count := by
    rw [dwCount, candBuffer, hcount]
    rfl
  split at h
  · cases h
  next hsome =>
  split at h
  · cases h
  obtain ⟨table, htable, h⟩ := ok_of_bind h
  have hslots : offsetTable r = table := by
    rw [offsetTable, candBuffer, htable]
    rfl
  obtain ⟨read, hread, h⟩ := ok_of_bind h
  obtain ⟨page, -, h⟩ := ok_of_bind h
  obtain ⟨start, -, h⟩ := ok_of_bind h
  obtain ⟨selection, hselection, h⟩ := ok_of_bind h
  have hchosen : dwSelection r = selection := by
    rw [dwSelection, candBuffer, hselection]
    rfl
  cases h
  rw [hdw, hchosen, hslots]
  exact ⟨hsome, rfl, rfl, hread⟩

theorem listed_in_bounds_iff {r : CandRead} {menu : MenuProto}
    (h : getCandidateList r = .ok (some menu)) : InBounds menu ↔ AllListed r := by
  obtain ⟨-, -, hcount, hread⟩ := menu_read h
  obtain ⟨hle, hiff⟩ := readCandidates_length hread
  have hsigned : (dwCount r).toInt32.toInt =
      if 2 * (dwCount r).toNat < 2 ^ 32 then ((dwCount r).toNat : Int)
      else (dwCount r).toNat - 2 ^ 32 := BitVec.toInt_eq_toNat_cond (dwCount r).toBitVec
  have hsize : (dwCount r).toNat < 2 ^ 32 := (dwCount r).toNat_lt
  rw [inBounds_iff, AllListed, ← hiff, hcount, hsigned]
  split
  · omega
  · omega

/-- The answer to `ImmGetCandidateListW` that `get_context` gets, after it has
harvested the messages of the thread. -/
def candRead (api : Api W) (s : WinImmSession) (w : W) : CandRead :=
  let r := Adapter.harvestThreadMessages api s w
  api.immGetCandidateList r.1.himc r.2

/-- Menu decoding, for every menu that `get_context` sends. -/
theorem menu_in_bounds_iff (api : Api W) (s : WinImmSession) (w : W) {menu : MenuProto}
    (h : (Adapter.getContext api s w).1.1.menu = some menu) :
    InBounds menu ↔ AllListed (candRead api s w) := by
  apply listed_in_bounds_iff
  have hmenu : Adapter.menuOf api (Adapter.harvestThreadMessages api s w).1.himc
      (Adapter.harvestThreadMessages api s w).2 = some menu := h
  rw [Adapter.menuOf] at hmenu
  split at hmenu
  · next menu' hlist =>
      rw [candRead, hlist, hmenu]
  · cases hmenu

def listingApi (bytes : List UInt8) : Api Unit :=
  listedApi ⟨UInt32.ofNat bytes.length, UInt32.ofNat bytes.length, bytes⟩

def session : WinImmSession := ⟨1, 10, 10, 20, 0, none⟩

def twoListed : List UInt8 :=
  [40, 0, 0, 0, 0, 0, 0, 0, 2, 0, 0, 0, 0, 0, 0, 0, 0, 0, 0, 0, 5, 0, 0, 0,
    32, 0, 0, 0, 36, 0, 0, 0, 97, 0, 0, 0, 98, 0, 0, 0]

/-- A list of two candidates, with an offset for the first only. -/
def oneOfTwoListed : List UInt8 :=
  [36, 0, 0, 0, 0, 0, 0, 0, 2, 0, 0, 0, 0, 0, 0, 0, 0, 0, 0, 0, 1, 0, 0, 0,
    32, 0, 0, 0, 0, 0, 0, 0, 97, 0, 0, 0]

theorem two_listed_in_bounds : InBounds ⟨[⟨"a", ""⟩, ⟨"b", ""⟩], 5, 0, false, 0, 2, ""⟩ := by
  apply (menu_in_bounds_iff (listingApi twoListed) session () (by decide)).mpr
  refine ⟨by decide, fun i hi => ?_⟩
  have hcount : (dwCount (candRead (listingApi twoListed) session ())).toNat = 2 := by decide
  rw [hcount] at hi
  obtain rfl | rfl : i = 0 ∨ i = 1 := by omega
  · exact ⟨32, by decide, by decide, by decide⟩
  · exact ⟨36, by decide, by decide, by decide⟩

theorem unlisted_out_of_bounds :
    (Adapter.getContext (listingApi oneOfTwoListed) session ()).1.1.menu =
        some ⟨[⟨"a", ""⟩], 1, 0, false, 0, 2, ""⟩ ∧
      ¬InBounds ⟨[⟨"a", ""⟩], 1, 0, false, 0, 2, ""⟩ := by
  refine ⟨by decide, fun h => ?_⟩
  have hcounted := ((inBounds_iff _).mp h).2
  exact absurd hcounted (by decide)

end RimeWinime.MenuBounds
