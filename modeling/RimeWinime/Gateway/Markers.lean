import Mathlib.Data.List.Infix
import Mathlib.Data.List.TakeWhile
import RimeWinime.Gateway.Backends

namespace RimeWinime.Markers

open Backends

theorem afterFirst_of_prefix {m : List Char} (hm : m ≠ []) (rest : List Char) :
    afterFirst m (m ++ rest) = some rest := by
  obtain ⟨x, m, rfl⟩ := List.exists_cons_of_ne_nil hm
  rw [List.cons_append, afterFirst, if_pos, ← List.cons_append, List.drop_left]
  rw [← List.cons_append, List.isPrefixOf_iff_prefix]
  exact List.prefix_append _ _

theorem afterFirst_cons_later {m : List Char} {x : Char} {text : List Char}
    (h : ¬m <+: x :: text) : afterFirst m (x :: text) = afterFirst m text := by
  rw [afterFirst, if_neg]
  rwa [List.isPrefixOf_iff_prefix]

theorem afterFirst_eq_none {m : List Char} (hm : m ≠ []) (text : List Char) :
    afterFirst m text = none ↔ ¬m <:+: text := by
  induction text with
  | nil => simp [afterFirst, hm]
  | cons x text ih =>
      by_cases hstarts : m <+: x :: text
      · obtain ⟨rest, hrest⟩ := hstarts
        have hin : m <:+: m ++ rest := (List.prefix_append m rest).isInfix
        rw [← hrest, afterFirst_of_prefix hm]
        simp [hin]
      · rw [afterFirst_cons_later hstarts, ih, List.infix_cons_iff]
        simp [hstarts]

/-- Before a character that a marker lacks there is a marker only in front of it. -/
theorem prefix_append_cons {m a b : List Char} {c : Char} (hc : c ∉ m) :
    m <+: a ++ c :: b ↔ m <+: a := by
  constructor
  · intro h
    rcases List.prefix_or_prefix_of_prefix h (List.prefix_append a (c :: b)) with hm | ⟨d, hd⟩
    · exact hm
    · cases d with
      | nil => exact ⟨[], by rw [← hd]; simp⟩
      | cons x d =>
          rw [← hd, List.prefix_append_right_inj, List.cons_prefix_cons] at h
          rw [← hd, ← h.1] at hc
          exact absurd (List.mem_append_right _ List.mem_cons_self) hc
  · exact fun h => h.trans (List.prefix_append _ _)

theorem afterFirst_append_cons {m : List Char} (hm : m ≠ []) {c : Char} (hc : c ∉ m)
    (a b : List Char) :
    afterFirst m (a ++ c :: b) =
      match afterFirst m a with
      | some rest => some (rest ++ c :: b)
      | none => afterFirst m b := by
  induction a with
  | nil =>
      have hnot : ¬m <+: c :: b := by
        have h := prefix_append_cons (a := []) (b := b) hc
        rw [List.nil_append, List.prefix_nil] at h
        exact fun hstarts => hm (h.mp hstarts)
      rw [List.nil_append, afterFirst_cons_later hnot, afterFirst, if_neg hm]
  | cons x a ih =>
      by_cases hstarts : m <+: x :: a
      · obtain ⟨rest, hrest⟩ := hstarts
        rw [← hrest, List.append_assoc, afterFirst_of_prefix hm, afterFirst_of_prefix hm]
      · have hnot : ¬m <+: x :: a ++ c :: b := fun h => hstarts ((prefix_append_cons hc).mp h)
        rw [List.cons_append] at hnot ⊢
        rw [afterFirst_cons_later hnot, afterFirst_cons_later hstarts, ih]

/-- A marker ends at the first of its last characters, if what is before that is the
marker's beginning. -/
theorem prefix_append_last {stem q b : List Char} {e : Char} (hstem : e ∉ stem) (hq : e ∉ q) :
    stem ++ [e] <+: q ++ e :: b ↔ stem = q := by
  induction stem generalizing q with
  | nil =>
      cases q with
      | nil => simp
      | cons x q =>
          rw [List.mem_cons, not_or] at hq
          simp [hq.1]
  | cons y stem ih =>
      rw [List.mem_cons, not_or] at hstem
      cases q with
      | nil => simp [Ne.symm hstem.1]
      | cons x q =>
          rw [List.mem_cons, not_or] at hq
          rw [List.cons_append, List.cons_append, List.cons_prefix_cons, ih hstem.2 hq.2,
            List.cons.injEq]

theorem afterFirst_append_last {stem q : List Char} {e : Char} (hstem : e ∉ stem) (hq : e ∉ q)
    (b : List Char) :
    afterFirst (stem ++ [e]) (q ++ e :: b) =
      if stem <:+ q then some b else afterFirst (stem ++ [e]) b := by
  have hne : stem ++ [e] ≠ [] := by simp
  induction q with
  | nil =>
      by_cases hnil : stem = []
      · subst hnil
        rw [if_pos List.nil_suffix]
        exact afterFirst_of_prefix hne b
      · have hnot : ¬stem ++ [e] <+: [] ++ e :: b := fun h =>
          hnil ((prefix_append_last hstem hq).mp h)
        rw [List.nil_append] at hnot ⊢
        rw [afterFirst_cons_later hnot, if_neg (by rwa [List.suffix_nil])]
  | cons x q ih =>
      have hrest : e ∉ q := fun h => hq (List.mem_cons_of_mem x h)
      by_cases hwhole : stem = x :: q
      · rw [← hwhole, if_pos List.suffix_rfl]
        have h := afterFirst_of_prefix hne b
        rwa [List.append_assoc, List.singleton_append] at h
      · have hnot : ¬stem ++ [e] <+: x :: q ++ e :: b := fun h =>
          hwhole ((prefix_append_last hstem hq).mp h)
        have hsame : stem <:+ x :: q ↔ stem <:+ q := by
          rw [List.suffix_cons_iff]
          exact or_iff_right hwhole
        rw [List.cons_append] at hnot ⊢
        rw [afterFirst_cons_later hnot, ih hrest]
        simp only [hsame]

theorem afterFirst_subset {m text rest : List Char} (h : afterFirst m text = some rest) :
    rest ⊆ text := by
  induction text with
  | nil =>
      rw [afterFirst] at h
      split at h
      · cases h
        exact List.nil_subset _
      · cases h
  | cons x text ih =>
      rw [afterFirst] at h
      split at h
      · cases h
        exact List.drop_subset _ _
      · exact List.subset_cons_of_subset x (ih h)

theorem suffix_append_iff {stem a w : List Char} (h : stem.length ≤ w.length) :
    stem <:+ a ++ w ↔ stem <:+ w := by
  constructor
  · exact fun hs => List.suffix_of_suffix_length_le hs (List.suffix_append a w) h
  · exact fun hs => hs.trans (List.suffix_append a w)

theorem extractBetween_eq (text opening : String) {endChar : Char} {field rest : List Char}
    (h : afterFirst opening.toList text.toList = some (field ++ endChar :: rest)) :
    extractBetween text opening endChar = some (String.ofList (field.takeWhile (· ≠ endChar))) := by
  have hend : endChar ∈ field ++ endChar :: rest := List.mem_append_right _ List.mem_cons_self
  have htake : (field ++ endChar :: rest).takeWhile (· ≠ endChar) =
      field.takeWhile (· ≠ endChar) := by
    rw [List.takeWhile_append]
    split
    · next hall =>
        have hwhole : field.takeWhile (· ≠ endChar) = field :=
          ( List.takeWhile_prefix _).eq_of_length hall
        rw [hwhole]
        simp
    · rfl
  rw [extractBetween, h]
  simp only [Option.bind_eq_bind, Option.bind_some, if_pos hend, htake]

theorem ofList_eq {cs : List Char} {text : String} : String.ofList cs = text ↔ cs = text.toList := by
  constructor
  · rintro rfl
    exact String.toList_ofList.symm
  · rintro rfl
    exact String.ofList_toList

theorem takeWhile_ne_eq_self {c : Char} {text : List Char} :
    text.takeWhile (· ≠ c) = text ↔ c ∉ text := by
  rw [List.takeWhile_eq_self_iff]
  constructor
  · intro h hc
    simpa using h c hc
  · intro h x hx
    simpa using fun he : x = c => h (he ▸ hx)

/-- An item that counts. -/
def kept (item : String) : Bool := item ≠ "" && item ≠ "..."

def tokens (field : List Char) : List String :=
  ((field.splitOn '|').map String.ofList).filter kept

def candidatesOf (texts : List String) : List Worker.Candidate :=
  texts.zipIdx.map fun p => ⟨UInt32.ofNat p.2, p.1, "legacy"⟩

theorem legacyCandidates_eq (field : List Char) (max : Nat) :
    legacyCandidates (String.ofList field) max = candidatesOf ((tokens field).take max) := by
  rw [legacyCandidates, String.toList_ofList]
  rfl

theorem candidatesOf_inj {a b : List String} : candidatesOf a = candidatesOf b ↔ a = b := by
  constructor
  · intro h
    have htexts (l : List String) : (candidatesOf l).map Worker.Candidate.text = l := by
      rw [candidatesOf, List.map_map]
      exact List.zipIdx_map_fst 0 l
    rw [← htexts a, h, htexts b]
  · exact congrArg candidatesOf

theorem tokens_of_not_mem {field : List Char} (h : '|' ∉ field) :
    tokens field = if kept (String.ofList field) then [String.ofList field] else [] := by
  rw [tokens, List.splitOn_eq_singleton h, List.map_singleton, List.filter_cons, List.filter_nil]

theorem tokens_append_bar {item : List Char} (h : '|' ∉ item) (rest : List Char) :
    tokens (item ++ '|' :: rest) =
      (if kept (String.ofList item) then [String.ofList item] else []) ++ tokens rest := by
  rw [tokens, List.splitOn_append_cons_self_of_not_mem h, List.map_cons, List.filter_cons, ← tokens]
  split <;> rfl

theorem tokens_kept {field : List Char} {item : String} (h : item ∈ tokens field) :
    kept item = true := (List.mem_filter.mp h).2

theorem subset_of_mem_splitOn {bar : Char} {field part : List Char} (h : part ∈ field.splitOn bar) :
    part ⊆ field := by
  induction field generalizing part with
  | nil =>
      rw [List.splitOn_nil, List.mem_singleton] at h
      rw [h]
      exact List.nil_subset _
  | cons x field ih =>
      rw [List.splitOn_cons_eq_if_modifyHead] at h
      split at h
      · rw [List.mem_cons] at h
        rcases h with rfl | h
        · exact List.nil_subset _
        · exact List.subset_cons_of_subset x (ih h)
      · cases hparts : field.splitOn bar with
        | nil => exact absurd hparts (List.splitOn_ne_nil bar field)
        | cons first parts =>
            rw [hparts, List.modifyHead_cons, List.mem_cons] at h
            rcases h with rfl | h
            · exact List.cons_subset_cons x (ih (by rw [hparts]; exact List.mem_cons_self))
            · have hpart : part ∈ field.splitOn bar := by rw [hparts]; exact List.mem_cons_of_mem _ h
              exact List.subset_cons_of_subset x (ih hpart)

theorem mem_of_mem_tokens {field : List Char} {item : String} (h : item ∈ tokens field) {c : Char}
    (hc : c ∈ item.toList) : c ∈ field := by
  obtain ⟨part, hpart, rfl⟩ := List.mem_map.mp (List.mem_filter.mp h).1
  rw [String.toList_ofList] at hc
  exact subset_of_mem_splitOn hpart hc

def joinBar : List String → List Char
  | [] => []
  | [item] => item.toList
  | item :: items => item.toList ++ '|' :: joinBar items

theorem joinBar_cons (item : String) (items : List String) :
    joinBar (item :: items) = item.toList ++ items.flatMap (fun t => '|' :: t.toList) := by
  induction items generalizing item with
  | nil => simp [joinBar]
  | cons next items ih => rw [joinBar, ih, List.flatMap_cons, List.cons_append]; simp

/-- Items that are joined are found again, as far as they are asked for, exactly when
none of them has the field's end in it or is the mark of omission. -/
theorem tokens_joinBar_iff {items : List String} (h : ∀ t ∈ items, '|' ∉ t.toList ∧ t ≠ "")
    (max : Nat) :
    (tokens ((joinBar items).takeWhile (· ≠ ']'))).take max = items.take max ↔
      ∀ t ∈ items.take max, ']' ∉ t.toList ∧ t ≠ "..." := by
  constructor
  · intro heq t ht
    rw [← heq] at ht
    have hmem := List.mem_of_mem_take ht
    have hkept := tokens_kept hmem
    rw [kept, Bool.and_eq_true, decide_eq_true_eq, decide_eq_true_eq] at hkept
    refine ⟨fun hend => ?_, hkept.2⟩
    have hfield := mem_of_mem_tokens hmem hend
    have hne := List.all_eq_true.mp (List.all_takeWhile (p := fun c => c ≠ ']') (l := joinBar items))
      ']' hfield
    simp at hne
  · intro hgood
    induction items generalizing max with
    | nil => simp [joinBar, tokens, kept]
    | cons t items ih =>
        cases max with
        | zero => rw [List.take_zero, List.take_zero]
        | succ max =>
            have ht := h t List.mem_cons_self
            have hfirst := hgood t List.mem_cons_self
            have hkept : kept t = true := by simp [kept, ht.2, hfirst.2]
            have hwhole : t.toList.takeWhile (· ≠ ']') = t.toList := takeWhile_ne_eq_self.mpr hfirst.1
            cases items with
            | nil =>
                rw [joinBar, hwhole, tokens_of_not_mem ht.1, String.ofList_toList, if_pos hkept]
            | cons next items =>
                have hrest := ih (fun t ht => h t (List.mem_cons_of_mem _ ht)) max
                  (fun t ht => hgood t (by rw [List.take_succ_cons]; exact List.mem_cons_of_mem _ ht))
                have hcut : (t.toList ++ '|' :: joinBar (next :: items)).takeWhile (· ≠ ']') =
                    t.toList ++ '|' :: (joinBar (next :: items)).takeWhile (· ≠ ']') := by
                  rw [List.takeWhile_append_of_pos, List.takeWhile_cons_of_pos (by decide)]
                  exact List.takeWhile_eq_self_iff.mp hwhole
                rw [joinBar, hcut, tokens_append_bar ht.1, String.ofList_toList, if_pos hkept,
                  List.singleton_append, List.take_succ_cons, List.take_succ_cons, hrest]
                exact fun he => nomatch he

end RimeWinime.Markers
