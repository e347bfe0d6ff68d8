import RimeWinime.Gateway.LegacyWire
import RimeWinime.Gateway.Markers
import RimeWinime.Skeleton.CandidateReply

namespace RimeWinime.ReplyDecoded

open Backends CString ImeText CandidateReply Markers
open LegacyWire (lineOf)
open Utf8 (encode fromUtf8Lossy)

section

variable (multiByteToWide : UInt32 → List UInt8 → Option (List UInt16))

/-- The input method has these texts, and these candidates in one wide list. -/
structure OneWideList (host : Host) (ime : ImeState) (comp reading : String)
    (items : List String) : Prop where
  comp : compText multiByteToWide host.candCodepage ime = encode comp
  reading : readText multiByteToWide host.candCodepage ime = encode reading
  answers : listCount ime ≠ 0 ∨ totalSize ime ≠ 0
  few : items.length ≤ 8
  filled : ∀ t ∈ items, t ≠ ""
  shown : ∃ l, shownLists ime = [l] ∧ l.isAnsi = false ∧ l.cand.dwCount.toNat = items.length ∧
    ∀ i (h : i < items.length), l.cand.dwOffset i < l.cand.got ∧
      itemText multiByteToWide host.candCodepage l i = encode items[i]

end

/-- What the first of these texts with this marker in it has after the marker. -/
def imitated (marker : String) (texts : List String) : Option (List Char) :=
  texts.findSome? (fun t => afterFirst marker.toList t.toList)

/-- No text passes for a mark of an error, no text but the last that are asked for has the
end of a field in it, and where a text passes for the beginning of a later field, it is
what that field has. -/
structure Unmistakable (comp reading : String) (items : List String) (max : Nat) : Prop where
  noError : ∀ t ∈ comp :: reading :: items, ¬"err=".toList <:+: t.toList
  compField : ']' ∉ comp.toList
  readField :
    match imitated "read=[" [comp] with
    | none => ']' ∉ reading.toList
    | some rest => rest = reading.toList
  itemsField :
    match imitated "items=[" [comp, reading] with
    | none => ∀ t ∈ items.take max, ']' ∉ t.toList ∧ t ≠ "..."
    | some rest => (if kept (String.ofList rest) then [String.ofList rest] else []).take max = items.take max

def chars (text : String) : List Char := text.toList

/-- The reply up to the composition. -/
def headText (host : Host) (ime : ImeState) : List Char :=
  chars "CAND_RET cp=" ++ (chars (toString host.candCodepage.toNat) ++
    (chars " lists=" ++ (chars (toString (listCount ime).toNat) ++
    (chars " totalBytes=" ++ (chars (toString (totalSize ime).toNat) ++
    (chars " compBytes=" ++ (chars (toString (compBytes ime)) ++
    (chars " readBytes=" ++ (chars (toString (readBytes ime)) ++ chars " comp=")))))))))

/-- The reply from the reading to the items. -/
def listText (l : Shown) : List Char :=
  chars " data=#" ++ (chars (toString l.idx) ++
    (chars "\x7benc=W count=" ++ (chars (toString l.cand.dwCount.toNat) ++
    (chars " sel=" ++ (chars (toString l.cand.dwSelection.toNat) ++
    (chars " pageStart=" ++ (chars (toString l.cand.dwPageStart.toNat) ++
    (chars " pageSize=" ++ (chars (toString l.cand.dwPageSize.toNat) ++ chars " items=")))))))))

def fieldLine (head comp reading list items : List Char) : List Char :=
  head ++ '[' :: (comp ++ ']' :: (chars " read=" ++ '[' :: (reading ++ ']' ::
    (list ++ '[' :: (items ++ [']', '}'])))))

def encodeChars (cs : List Char) : List UInt8 := cs.flatMap String.utf8EncodeChar

theorem encodeChars_append (a b : List Char) : encodeChars (a ++ b) = encodeChars a ++ encodeChars b :=
  List.flatMap_append

theorem encodeChars_cons (c : Char) (cs : List Char) :
    encodeChars (c :: cs) = String.utf8EncodeChar c ++ encodeChars cs := List.flatMap_cons

theorem encodeChars_chars (text : String) : encodeChars (chars text) = encode text := rfl

theorem encode_eq (text : String) : encode text = encodeChars text.toList := rfl

theorem flatten_later_items {g : Nat → List (List UInt8)} (items : List String) {k : Nat}
    (hg : ∀ i (h : i < items.length), g (k + i) = [encode "|", encode items[i]]) :
    ((List.range' k items.length).flatMap g).flatten =
      encodeChars (items.flatMap (fun t => '|' :: t.toList)) := by
  induction items generalizing k with
  | nil => rfl
  | cons t items ih =>
      have hfirst : g k = [encode "|", encode t] := hg 0 (by simp)
      have hrest := ih (k := k + 1) (fun i h => by
        have hnext : k + 1 + i = k + (i + 1) := by omega
        rw [hnext]
        exact hg (i + 1) (by simpa using h))
      have hbar : encode "|" = String.utf8EncodeChar '|' := rfl
      rw [List.length_cons, List.range'_succ, List.flatMap_cons, List.flatten_append, hrest, hfirst,
        List.flatMap_cons, encodeChars_append, encodeChars_cons, hbar, encode_eq]
      simp

theorem flatten_items {g : Nat → List (List UInt8)} (items : List String)
    (hg : ∀ i (h : i < items.length),
      g i = (if 0 < i then [encode "|"] else []) ++ [encode items[i]]) :
    ((List.range items.length).flatMap g).flatten = encodeChars (joinBar items) := by
  cases items with
  | nil => rfl
  | cons t items =>
      have hfirst : g 0 = [encode t] := hg 0 (by simp)
      have hlater := flatten_later_items (g := g) (k := 1) items (fun i h => by
        have hnext : 1 + i = i + 1 := by omega
        rw [hnext]
        exact hg (i + 1) (by simpa using h))
      rw [List.length_cons, List.range_eq_range', List.range'_succ, List.flatMap_cons,
        List.flatten_append, hlater, hfirst, joinBar_cons, encodeChars_append, encode_eq]
      simp

section

variable (multiByteToWide : UInt32 → List UInt8 → Option (List UInt16)) {host : Host} {ime : ImeState}
  {comp reading : String} {items : List String}

theorem listHeader_eq {l : Shown} (hwide : l.isAnsi = false) (rest : List UInt8) :
    encode "] data=" ++ (listHeader l ++ rest) =
      encode "]" ++ (encodeChars (listText l) ++ (encode "[" ++ rest)) := by
  have hdata : encode "] data=" ++ encode "#" = encode "]" ++ encode " data=#" := rfl
  have henc : encode "\x7benc=W count=" = encode "\x7benc=" ++ (encode "W" ++ encode " count=") := rfl
  have hopen : encode " items=[" = encode " items=" ++ encode "[" := rfl
  simp only [listHeader, listText, hwide, number, encodeChars_append, encodeChars_chars, henc, hopen,
    List.append_assoc]
  rw [← List.append_assoc, hdata, List.append_assoc]
  rfl

theorem flatten_listPieces {l : Shown} (hcount : l.cand.dwCount.toNat = items.length) (hfew : items.length ≤ 8)
    (htexts : ∀ i (h : i < items.length), l.cand.dwOffset i < l.cand.got ∧
      itemText multiByteToWide host.candCodepage l i = encode items[i]) :
    (listPieces multiByteToWide host.candCodepage l).flatten =
      listHeader l ++ (encodeChars (joinBar items) ++ encode "]\x7d") := by
  have hmin : min l.cand.dwCount.toNat 8 = items.length := by rw [hcount, Nat.min_eq_left hfew]
  have hmore : ¬8 < l.cand.dwCount := by
    rw [UInt32.lt_iff_toNat_lt, hcount]
    exact Nat.not_lt.mpr hfew
  have hitems : ((List.range items.length).flatMap (itemPieces multiByteToWide host.candCodepage l)).flatten =
      encodeChars (joinBar items) := by
    apply flatten_items
    intro i h
    obtain ⟨hin, htext⟩ := htexts i h
    rw [itemPieces, if_neg (by simpa using hin), htext]
  rw [listPieces, hmin, if_neg hmore, List.append_nil, List.flatten_append, List.flatten_append,
    hitems, List.flatten_singleton, List.flatten_singleton, List.append_assoc]

theorem encodeChars_fieldLine (head comp reading list items : List Char) :
    encodeChars (fieldLine head comp reading list items) =
      encodeChars head ++ (encode "[" ++ (encodeChars comp ++ (encode "] read=[" ++
        (encodeChars reading ++ (encode "]" ++ (encodeChars list ++ (encode "[" ++
          (encodeChars items ++ encode "]\x7d")))))))) := by
  have hopen : String.utf8EncodeChar '[' = encode "[" := rfl
  have hclose : String.utf8EncodeChar ']' = encode "]" := rfl
  have hread : encode "] read=[" = encode "]" ++ (encode " read=" ++ encode "[") := rfl
  have hend : encodeChars [']', '}'] = encode "]\x7d" := rfl
  simp only [fieldLine, encodeChars_append, encodeChars_cons, hopen, hclose, hread, hend,
    encodeChars_chars, List.append_assoc]

theorem header_eq : header multiByteToWide host.candCodepage ime =
    encodeChars (headText host ime) ++ (encode "[" ++
      (compText multiByteToWide host.candCodepage ime ++ (encode "] read=[" ++
      (readText multiByteToWide host.candCodepage ime ++ encode "] data=")))) := by
  have hopen : encode " comp=[" = encode " comp=" ++ encode "[" := rfl
  simp only [header, headText, number, signed, encodeChars_append, encodeChars_chars, hopen,
    List.append_assoc]

theorem flatten_dataPieces (h : OneWideList multiByteToWide host ime comp reading items) :
    ∃ l, (dataPieces multiByteToWide host.candCodepage ime).flatten =
      encodeChars (fieldLine (headText host ime) comp.toList reading.toList (listText l)
        (joinBar items)) := by
  obtain ⟨l, hshown, hwide, hcount, htexts⟩ := h.shown
  have hlist := flatten_listPieces multiByteToWide hcount h.few htexts
  have hone : listsPieces multiByteToWide host.candCodepage false [l] =
      listPieces multiByteToWide host.candCodepage l := by simp [listsPieces]
  have hpieces : (dataPieces multiByteToWide host.candCodepage ime).flatten =
      header multiByteToWide host.candCodepage ime ++
        (listPieces multiByteToWide host.candCodepage l).flatten := by
    simp [dataPieces, hshown, hone]
  refine ⟨l, ?_⟩
  rw [hpieces, hlist, header_eq, h.comp, h.reading, encode_eq comp, encode_eq reading,
    encodeChars_fieldLine]
  simp only [List.append_assoc, listHeader_eq hwide]

end

/-- A number, which has none of the characters of a marker. -/
def Numeral (n : List Char) : Prop := n ≠ [] ∧ ∀ c ∈ n, c.isDigit = true ∨ c = '-'

theorem numeral_nat (n : Nat) : Numeral (chars (toString n)) := by
  refine ⟨?_, fun c hc => Or.inl (isDigit_of_mem_toString hc)⟩
  rw [chars, Nat.toString_eq_ofList_toDigits, String.toList_ofList]
  exact Nat.toDigits_ne_nil

theorem numeral_int (n : Int) : Numeral (chars (toString n)) := by
  cases n with
  | ofNat n => exact numeral_nat n
  | negSucc n =>
      have hsign : chars (toString (Int.negSucc n)) = '-' :: chars (toString (n + 1)) :=
        String.toList_append
      rw [hsign]
      refine ⟨List.cons_ne_nil _ _, fun c hc => ?_⟩
      rcases List.mem_cons.mp hc with rfl | hc
      · exact Or.inr rfl
      · exact (numeral_nat (n + 1)).2 c hc

theorem Numeral.not_mem {n : List Char} (h : Numeral n) {c : Char} (hdigit : c.isDigit = false)
    (hsign : c ≠ '-') : c ∉ n := by
  intro hc
  rcases h.2 c hc with hd | rfl
  · exact Bool.noConfusion (hdigit.symm.trans hd)
  · exact hsign rfl

theorem afterFirst_numeral {m : List Char} (hm : m ≠ []) (hdigits : m.all (fun c => !c.isDigit) = true)
    (hsign : '-' ∉ m) {a n : List Char} (hnone : afterFirst m a = none) (hn : Numeral n)
    (b : List Char) : afterFirst m (a ++ (n ++ b)) = afterFirst m b := by
  have hnot : ∀ c ∈ n, c ∉ m := by
    intro c hc hmem
    rcases hn.2 c hc with hd | rfl
    · have := List.all_eq_true.mp hdigits c hmem
      rw [hd] at this
      cases this
    · exact hsign hmem
  have hskip : ∀ n : List Char, (∀ c ∈ n, c ∉ m) → afterFirst m (n ++ b) = afterFirst m b := by
    intro n
    induction n with
    | nil => exact fun _ => rfl
    | cons c n ih =>
        intro hchars
        have hfirst := afterFirst_append_cons hm (hchars c List.mem_cons_self) [] (n ++ b)
        have hempty : afterFirst m [] = none := by simp [afterFirst, hm]
        rw [hempty] at hfirst
        rw [List.cons_append]
        exact hfirst.trans (ih fun x hx => hchars x (List.mem_cons_of_mem _ hx))
  obtain ⟨c, n', rfl⟩ := List.exists_cons_of_ne_nil hn.1
  rw [List.cons_append, afterFirst_append_cons hm (hnot c List.mem_cons_self), hnone]
  exact hskip n' fun x hx => hnot x (List.mem_cons_of_mem _ hx)

def errMarker : List Char := chars "err="

/-- The fixed parts of a line: no field begins in them but at their end. -/
structure Framing (head list : List Char) : Prop where
  headStarts : chars "CAND_RET " <+: head
  headOpens : '[' ∉ head
  headEnds : chars " comp=" <:+ head
  headErr : afterFirst errMarker head = none
  listOpens : '[' ∉ list
  listEnds : chars " items=" <:+ list
  listErr : afterFirst errMarker list = none

theorem headText_framing (host : Host) (ime : ImeState) (l : Shown) :
    Framing (headText host ime) (listText l) := by
  have hnat (n : Nat) : '[' ∉ chars (toString n) := (numeral_nat n).not_mem rfl (by decide)
  have hint (n : Int) : '[' ∉ chars (toString n) := (numeral_int n).not_mem rfl (by decide)
  have hskip {a n : List Char} (hnone : afterFirst errMarker a = none) (hn : Numeral n)
      (b : List Char) : afterFirst errMarker (a ++ (n ++ b)) = afterFirst errMarker b :=
    afterFirst_numeral (List.cons_ne_nil _ _) rfl (by decide) hnone hn b
  constructor
  · exact (List.prefix_append (chars "CAND_RET ") (chars "cp=")).trans (List.prefix_append _ _)
  · simp only [headText, List.mem_append, hnat, hint, false_or]
    decide
  · simp only [headText]
    repeat refine List.IsSuffix.trans ?_ (List.suffix_append _ _)
    exact List.suffix_rfl
  · rw [headText, hskip rfl (numeral_nat _), hskip rfl (numeral_nat _), hskip rfl (numeral_nat _),
      hskip rfl (numeral_int _), hskip rfl (numeral_int _)]
    rfl
  · simp only [listText, List.mem_append, hnat, false_or]
    decide
  · simp only [listText]
    repeat refine List.IsSuffix.trans ?_ (List.suffix_append _ _)
    exact List.suffix_rfl
  · rw [listText, hskip rfl (numeral_nat _), hskip rfl (numeral_nat _), hskip rfl (numeral_nat _),
      hskip rfl (numeral_nat _), hskip rfl (numeral_nat _)]
    rfl

theorem none_append_cons {m a b : List Char} (hm : m ≠ []) {c : Char} (hc : c ∉ m) :
    afterFirst m (a ++ c :: b) = none ↔ afterFirst m a = none ∧ afterFirst m b = none := by
  rw [afterFirst_append_cons hm hc]
  cases afterFirst m a <;> simp

theorem none_joinBar {m : List Char} (hm : m ≠ []) (hc : '|' ∉ m) (items : List String) :
    afterFirst m (joinBar items) = none ↔ ∀ t ∈ items, afterFirst m t.toList = none := by
  induction items with
  | nil => simp [joinBar, afterFirst, hm]
  | cons t items ih =>
      cases items with
      | nil => simp [joinBar]
      | cons next items =>
          have hjoin : joinBar (t :: next :: items) = t.toList ++ '|' :: joinBar (next :: items) := rfl
          simp only [hjoin, none_append_cons hm hc, ih, List.mem_cons, forall_eq_or_imp]

section

variable {head list : List Char} (comp reading : String) (items : List String)

theorem afterFirst_err (hframe : Framing head list) :
    afterFirst errMarker (fieldLine head comp.toList reading.toList list (joinBar items)) = none ↔
      ∀ t ∈ comp :: reading :: items, ¬errMarker <:+: t.toList := by
  have hm : errMarker ≠ [] := List.cons_ne_nil _ _
  have hopen : '[' ∉ errMarker := by decide
  have hclose : ']' ∉ errMarker := by decide
  have hread : afterFirst errMarker (chars " read=") = none := rfl
  have hend : afterFirst errMarker ['}'] = none := rfl
  rw [fieldLine, none_append_cons hm hopen, none_append_cons hm hclose, none_append_cons hm hopen,
    none_append_cons hm hclose, none_append_cons hm hopen, none_append_cons hm hclose,
    none_joinBar hm (by decide)]
  simp only [hframe.headErr, hframe.listErr, hread, hend, true_and, and_true, List.forall_mem_cons,
    ← afterFirst_eq_none hm]

theorem find_comp (hframe : Framing head list) :
    afterFirst (chars "comp=[") (fieldLine head comp.toList reading.toList list (joinBar items)) =
      some (comp.toList ++ ']' :: (chars " read=" ++ '[' :: (reading.toList ++ ']' ::
        (list ++ '[' :: (joinBar items ++ [']', '}']))))) := by
  have hmarker : chars "comp=[" = chars "comp=" ++ ['['] := rfl
  have hend : chars "comp=" <:+ head := (List.suffix_cons ' ' (chars "comp=")).trans hframe.headEnds
  rw [hmarker, fieldLine, afterFirst_append_last (by decide) hframe.headOpens, if_pos hend]

theorem not_suffix_head (hframe : Framing head list) (stem : List Char) (hlen : stem.length ≤ 6)
    (hno : ¬stem <:+ chars " comp=") : ¬stem <:+ head := by
  obtain ⟨start, hstart⟩ := hframe.headEnds
  rw [← hstart, suffix_append_iff hlen]
  exact hno

theorem find_read (hframe : Framing head list) :
    ∃ rest, afterFirst (chars "read=[")
        (fieldLine head comp.toList reading.toList list (joinBar items)) =
      some ((imitated "read=[" [comp]).getD reading.toList ++ ']' :: rest) := by
  have hmarker : chars "read=[" = chars "read=" ++ ['['] := rfl
  have hfirst := not_suffix_head hframe (chars "read=") (by decide) (by decide)
  have himitated : imitated "read=[" [comp] = afterFirst (chars "read=[") comp.toList := by
    rw [imitated, List.findSome?_singleton]
    rfl
  rw [hmarker, fieldLine, afterFirst_append_last (by decide) hframe.headOpens, if_neg hfirst, ← hmarker,
    afterFirst_append_cons (by decide) (by decide), himitated]
  cases afterFirst (chars "read=[") comp.toList with
  | some rest => exact ⟨_, rfl⟩
  | none =>
      have hend : chars "read=" <:+ chars " read=" := List.suffix_cons ' ' (chars "read=")
      simp only
      rw [hmarker, afterFirst_append_last (by decide) (by decide), if_pos hend]
      exact ⟨_, rfl⟩

theorem find_items (hframe : Framing head list) :
    ∃ rest, afterFirst (chars "items=[")
        (fieldLine head comp.toList reading.toList list (joinBar items)) =
      some ((imitated "items=[" [comp, reading]).getD (joinBar items) ++ ']' :: rest) := by
  have hmarker : chars "items=[" = chars "items=" ++ ['['] := rfl
  have hfirst := not_suffix_head hframe (chars "items=") (by decide) (by decide)
  have hsecond : ¬chars "items=" <:+ chars " read=" := by decide
  have hend : chars "items=" <:+ list := (List.suffix_cons ' ' (chars "items=")).trans hframe.listEnds
  have himitated : imitated "items=[" [comp, reading] =
      (afterFirst (chars "items=[") comp.toList).or (afterFirst (chars "items=[") reading.toList) := by
    have hchars : "items=[".toList = chars "items=[" := rfl
    rw [imitated, List.findSome?_cons, List.findSome?_singleton, hchars]
    cases afterFirst (chars "items=[") comp.toList <;> rfl
  rw [hmarker, fieldLine, afterFirst_append_last (by decide) hframe.headOpens, if_neg hfirst, ← hmarker,
    afterFirst_append_cons (by decide) (by decide), himitated]
  cases afterFirst (chars "items=[") comp.toList with
  | some rest => exact ⟨_, rfl⟩
  | none =>
      simp only
      rw [hmarker, afterFirst_append_last (by decide) (by decide), if_neg hsecond, ← hmarker,
        afterFirst_append_cons (by decide) (by decide)]
      cases afterFirst (chars "items=[") reading.toList with
      | some rest => exact ⟨_, rfl⟩
      | none =>
          simp only
          rw [hmarker, afterFirst_append_last (by decide) hframe.listOpens, if_pos hend]
          exact ⟨_, rfl⟩

theorem imitated_subset {marker : String} {texts : List String} {rest : List Char}
    (h : imitated marker texts = some rest) : ∃ t ∈ texts, rest ⊆ t.toList := by
  obtain ⟨t, ht, hrest⟩ := List.exists_of_findSome?_eq_some h
  exact ⟨t, ht, afterFirst_subset hrest⟩

theorem not_mem_imitated {marker : String} {texts : List String} {rest : List Char}
    (h : imitated marker texts = some rest) {c : Char} (hc : ∀ t ∈ texts, c ∉ t.toList) : c ∉ rest := by
  obtain ⟨t, ht, hsub⟩ := imitated_subset h
  exact fun hmem => hc t ht (hsub hmem)

theorem parse_fieldLine (hframe : Framing head list) (max : Nat)
    (herr : afterFirst errMarker
      (fieldLine head comp.toList reading.toList list (joinBar items)) = none) :
    parseCandidateReply
        (String.ofList (fieldLine head comp.toList reading.toList list (joinBar items))) max =
      .ok (String.ofList (comp.toList.takeWhile (· ≠ ']')),
        String.ofList (((imitated "read=[" [comp]).getD reading.toList).takeWhile (· ≠ ']')),
        candidatesOf ((tokens
          (((imitated "items=[" [comp, reading]).getD (joinBar items)).takeWhile (· ≠ ']'))).take max)) := by
  obtain ⟨restRead, hread⟩ := find_read comp reading items hframe
  obtain ⟨restItems, hitems⟩ := find_items comp reading items hframe
  have hcomp := find_comp comp reading items hframe
  generalize hline : fieldLine head comp.toList reading.toList list (joinBar items) = line at *
  have hchars : (String.ofList line).toList = line := String.toList_ofList
  have hstarts : (String.ofList line).startsWith "CAND_RET " = true := by
    rw [String.startsWith_string_iff, hchars, ← hline]
    exact hframe.headStarts.trans (List.prefix_append _ _)
  have hcompField := extractBetween_eq (String.ofList line) "comp=[" (by rw [hchars]; exact hcomp)
  have hreadField := extractBetween_eq (String.ofList line) "read=[" (by rw [hchars]; exact hread)
  have hitemsField := extractBetween_eq (String.ofList line) "items=[" (by rw [hchars]; exact hitems)
  have hnone : afterFirst "err=".toList (String.ofList line).toList = none := by
    rw [hchars]
    exact herr
  rw [parseCandidateReply, hstarts, hnone, hcompField, hreadField, hitemsField]
  simp only [Bool.not_true, Bool.false_eq_true, if_false, Option.getD_some, legacyCandidates_eq]

theorem parse_error (max : Nat) {line rest : List Char} (h : afterFirst errMarker line = some rest) :
    ∃ e, parseCandidateReply (String.ofList line) max = .error e := by
  have hchars : (String.ofList line).toList = line := String.toList_ofList
  have hsome : afterFirst "err=".toList (String.ofList line).toList = some rest := by
    rw [hchars]
    exact h
  rw [parseCandidateReply, hsome]
  split
  · exact ⟨_, rfl⟩
  · exact ⟨_, rfl⟩

theorem readField_iff (hcomp : ']' ∉ comp.toList) :
    String.ofList (((imitated "read=[" [comp]).getD reading.toList).takeWhile (· ≠ ']')) = reading ↔
      match imitated "read=[" [comp] with
      | none => ']' ∉ reading.toList
      | some rest => rest = reading.toList := by
  rw [ofList_eq]
  cases himitated : imitated "read=[" [comp] with
  | none => exact takeWhile_ne_eq_self
  | some rest =>
      have hrest : ']' ∉ rest := not_mem_imitated himitated (by simpa using hcomp)
      simp only [Option.getD_some]
      rw [takeWhile_ne_eq_self.mpr hrest]

theorem itemsField_iff (hcomp : ']' ∉ comp.toList ∧ '|' ∉ comp.toList)
    (hreading : ']' ∉ reading.toList ∧ '|' ∉ reading.toList)
    (hitems : ∀ t ∈ items, '|' ∉ t.toList ∧ t ≠ "") (max : Nat) :
    (tokens (((imitated "items=[" [comp, reading]).getD (joinBar items)).takeWhile
        (· ≠ ']'))).take max = items.take max ↔
      match imitated "items=[" [comp, reading] with
      | none => ∀ t ∈ items.take max, ']' ∉ t.toList ∧ t ≠ "..."
      | some rest =>
          (if kept (String.ofList rest) then [String.ofList rest] else []).take max = items.take max := by
  cases himitated : imitated "items=[" [comp, reading] with
  | none => exact tokens_joinBar_iff hitems max
  | some rest =>
      have hend : ']' ∉ rest := not_mem_imitated himitated (by simpa using ⟨hcomp.1, hreading.1⟩)
      have hbar : '|' ∉ rest := not_mem_imitated himitated (by simpa using ⟨hcomp.2, hreading.2⟩)
      simp only [Option.getD_some]
      rw [takeWhile_ne_eq_self.mpr hend, tokens_of_not_mem hbar]

theorem readField_closed {comp reading : String} (hcomp : ']' ∉ comp.toList)
    (hread : match imitated "read=[" [comp] with
      | none => ']' ∉ reading.toList
      | some rest => rest = reading.toList) : ']' ∉ reading.toList := by
  cases himitated : imitated "read=[" [comp] with
  | none =>
      rw [himitated] at hread
      exact hread
  | some rest =>
      rw [himitated] at hread
      rw [← hread]
      exact not_mem_imitated himitated (by simpa using hcomp)

theorem decoded_iff_unmistakable (hframe : Framing head list) (hcomp : '|' ∉ comp.toList)
    (hreading : '|' ∉ reading.toList) (hitems : ∀ t ∈ items, '|' ∉ t.toList ∧ t ≠ "") (max : Nat) :
    parseCandidateReply
        (String.ofList (fieldLine head comp.toList reading.toList list (joinBar items))) max =
      .ok (comp, reading, candidatesOf (items.take max)) ↔ Unmistakable comp reading items max := by
  have hnoError := afterFirst_err comp reading items hframe
  cases herr : afterFirst errMarker
      (fieldLine head comp.toList reading.toList list (joinBar items)) with
  | some rest =>
      obtain ⟨e, hparse⟩ := parse_error max herr
      rw [hparse]
      constructor
      · exact fun h => nomatch h
      · intro h
        rw [hnoError.mpr h.noError] at herr
        cases herr
  | none =>
      rw [parse_fieldLine comp reading items hframe max herr, Except.ok.injEq, Prod.mk.injEq,
        Prod.mk.injEq, candidatesOf_inj, ofList_eq, takeWhile_ne_eq_self]
      constructor
      · rintro ⟨hc, hr, hi⟩
        have hread := (readField_iff comp reading hc).mp hr
        have hclosed := readField_closed hc hread
        exact ⟨hnoError.mp herr, hc, hread,
          (itemsField_iff comp reading items ⟨hc, hcomp⟩ ⟨hclosed, hreading⟩ hitems max).mp hi⟩
      · intro h
        have hclosed := readField_closed h.compField h.readField
        exact ⟨h.compField, (readField_iff comp reading h.compField).mpr h.readField,
          (itemsField_iff comp reading items ⟨h.compField, hcomp⟩ ⟨hclosed, hreading⟩ hitems max).mpr
            h.itemsField⟩

end

theorem bar_not_mem {text : String} (h : Clean (encode text)) : '|' ∉ text.toList := by
  intro hmem
  have hbar : bar ∈ encode text :=
    List.mem_flatMap.mpr ⟨'|', hmem, by rw [show String.utf8EncodeChar '|' = [bar] from rfl]; simp⟩
  have hsep : isSeparator bar = true := rfl
  exact h.ne_of_separator hbar hsep rfl

section

variable {multiByteToWide : UInt32 → List UInt8 → Option (List UInt16)} {host : Host} {ime : ImeState}
  {comp reading : String} {items : List String}

theorem OneWideList.comp_bar (h : OneWideList multiByteToWide host ime comp reading items) :
    '|' ∉ comp.toList := by
  apply bar_not_mem
  rw [← h.comp]
  exact clean_decodeImeWideText multiByteToWide _ _ _

theorem OneWideList.reading_bar (h : OneWideList multiByteToWide host ime comp reading items) :
    '|' ∉ reading.toList := by
  apply bar_not_mem
  rw [← h.reading]
  exact clean_decodeImeWideText multiByteToWide _ _ _

theorem OneWideList.items_bar (h : OneWideList multiByteToWide host ime comp reading items) :
    ∀ t ∈ items, '|' ∉ t.toList ∧ t ≠ "" := by
  intro t ht
  refine ⟨?_, h.filled t ht⟩
  obtain ⟨l, -, -, -, htexts⟩ := h.shown
  obtain ⟨i, hi, rfl⟩ := List.getElem_of_mem ht
  apply bar_not_mem
  rw [← (htexts i hi).2]
  exact clean_itemText multiByteToWide _ l i

theorem reply_arrives (h : OneWideList multiByteToWide host ime comp reading items) {out : List UInt8}
    (hfit : replySize multiByteToWide host (some ime) < out.length) :
    ∃ host' mem body l, buildCandidateReply multiByteToWide host (some ime) out = some (host', mem) ∧
      cString mem = body ++ [newline] ∧ InLine body ∧
      lineOf body = String.ofList (fieldLine (headText host ime) comp.toList reading.toList
        (listText l) (joinBar items)) := by
  obtain ⟨host', mem, hbuild, hlen, hprinted⟩ :=
    buildCandidateReply_printed multiByteToWide host (some ime) (Nat.zero_lt_of_lt hfit)
  obtain ⟨l, hbody⟩ := flatten_dataPieces multiByteToWide h
  have hsome : ¬(listCount ime = 0 && totalSize ime = 0) = true := by
    rcases h.answers with ha | ha <;> simp [ha]
  generalize hwhole : (dataPieces multiByteToWide host.candCodepage ime).flatten = body at hbody
  have htexts : (replyTexts multiByteToWide host (some ime)).flatten = body ++ [newline] := by
    rw [replyTexts, if_neg hsome, List.flatten_append, hwhole]
    rfl
  have hline : InLine body := by
    rw [← hwhole]
    exact inLine_flatten.mpr (inLine_dataPieces multiByteToWide _ ime)
  have hsize := length_flatten_replyTexts multiByteToWide host (some ime)
  rw [htexts] at hprinted hsize
  have hstring := cString_line_of_fits hline hprinted (by rwa [hsize, hlen])
  refine ⟨host', mem, body, l, hbuild, hstring, hline, ?_⟩
  have hkept : body.filter (· ≠ LegacyWire.carriageReturn) = body :=
    List.filter_eq_self.mpr fun byte hbyte => decide_eq_true (hline byte hbyte).2.2
  rw [lineOf, hkept, hbody, fromUtf8Lossy]
  have hdecode := Utf8.decodeFrom_encodeChars (fieldLine (headText host ime) comp.toList
    reading.toList (listText l) (joinBar items)) []
  rw [List.append_nil] at hdecode
  rw [encodeChars, hdecode]
  simp [Utf8.decodeFrom]

/-- The gateway reads out of a reply what the host has written into it exactly when no text
is taken for a part of the line. -/
theorem reply_decoded_iff (h : OneWideList multiByteToWide host ime comp reading items)
    {out : List UInt8} (hfit : replySize multiByteToWide host (some ime) < out.length) (max : Nat) :
    ∃ host' mem body, buildCandidateReply multiByteToWide host (some ime) out = some (host', mem) ∧
      cString mem = body ++ [newline] ∧ newline ∉ body ∧
      (parseCandidateReply (lineOf body) max = .ok (comp, reading, candidatesOf (items.take max)) ↔
        Unmistakable comp reading items max) := by
  obtain ⟨host', mem, body, l, hbuild, hstring, hline, hdecoded⟩ := reply_arrives h hfit
  refine ⟨host', mem, body, hbuild, hstring, fun hmem => (hline newline hmem).2.1 rfl, ?_⟩
  rw [hdecoded]
  exact decoded_iff_unmistakable comp reading items (headText_framing host ime l) h.comp_bar
    h.reading_bar h.items_bar max

end

/-- A composition and a reading of letters, and a wide list. -/
def typing (list : CandList) : ImeState :=
  { comp := ⟨4, 4, [0x6E, 0x69]⟩
    reading := ⟨4, 4, [0x6E, 0x69]⟩
    countW := (list.size, 1)
    countA := (0, 0)
    listW := fun idx => if idx = 0 then list else noList
    listA := fun _ => noList
    listWAgain := fun _ => noList }

theorem typing_texts (list : CandList) :
    compText noTables freshHost.candCodepage (typing list) = encode "ni" ∧
      readText noTables freshHost.candCodepage (typing list) = encode "ni" := by
  have hcomp : compText noTables freshHost.candCodepage (typing noList) = encode "ni" := by
    decide +kernel
  have hread : readText noTables freshHost.candCodepage (typing noList) = encode "ni" := by
    decide +kernel
  exact ⟨hcomp, hread⟩

def twoCandidates : CandList :=
  { size := 40
    allocated := true
    got := 40
    mem := [40, 0, 0, 0, 0, 0, 0, 0, 2, 0, 0, 0, 0, 0, 0, 0, 0, 0, 0, 0, 9, 0, 0, 0,
      32, 0, 0, 0, 36, 0, 0, 0, 0x60, 0x4F, 0, 0, 0x7D, 0x59, 0, 0] }

theorem twoCandidates_typing :
    OneWideList noTables freshHost (typing twoCandidates) "ni" "ni" ["你", "好"] := by
  obtain ⟨hcomp, hread⟩ := typing_texts twoCandidates
  refine ⟨hcomp, hread, ?_, ?_, ?_, ?_⟩
  · exact Or.inl (by decide)
  · decide
  · simp
  · refine ⟨_, rfl, rfl, by decide +kernel, ?_⟩
    decide +kernel

theorem unmistakable_typing : Unmistakable "ni" "ni" ["你", "好"] 8 := by
  have hread : imitated "read=[" ["ni"] = none := rfl
  have hitems : imitated "items=[" ["ni", "ni"] = none := rfl
  constructor
  · simp only [List.forall_mem_cons]
    decide
  · decide
  · rw [hread]
    decide
  · rw [hitems]
    decide

theorem typing_decoded :
    ∃ host' mem body, buildCandidateReply noTables freshHost (some (typing twoCandidates)) replyBuffer =
      some (host', mem) ∧ cString mem = body ++ [newline] ∧
      parseCandidateReply (lineOf body) 8 = .ok ("ni", "ni", candidatesOf ["你", "好"]) := by
  have hfit : replySize noTables freshHost (some (typing twoCandidates)) < replyBuffer.length := by
    rw [length_replyBuffer]
    decide +kernel
  obtain ⟨host', mem, body, hbuild, hstring, -, hiff⟩ := reply_decoded_iff twoCandidates_typing hfit 8
  exact ⟨host', mem, body, hbuild, hstring, hiff.mpr unmistakable_typing⟩

def bracketed : CandList :=
  { size := 36
    allocated := true
    got := 36
    mem := [36, 0, 0, 0, 0, 0, 0, 0, 1, 0, 0, 0, 0, 0, 0, 0, 0, 0, 0, 0, 9, 0, 0, 0,
      28, 0, 0, 0, 0x61, 0, 0x5D, 0, 0x62, 0, 0, 0] }

theorem bracketed_typing : OneWideList noTables freshHost (typing bracketed) "ni" "ni" ["a]b"] := by
  obtain ⟨hcomp, hread⟩ := typing_texts bracketed
  refine ⟨hcomp, hread, ?_, ?_, ?_, ?_⟩
  · exact Or.inl (by decide)
  · decide
  · simp
  · refine ⟨_, rfl, rfl, by decide +kernel, ?_⟩
    decide +kernel

/-- The end of a field is taken from the candidate. -/
theorem bracketed_not_decoded :
    OneWideList noTables freshHost (typing bracketed) "ni" "ni" ["a]b"] ∧
      replySize noTables freshHost (some (typing bracketed)) < replyBuffer.length ∧
      ∃ host' mem body, buildCandidateReply noTables freshHost (some (typing bracketed)) replyBuffer =
        some (host', mem) ∧ cString mem = body ++ [newline] ∧
        parseCandidateReply (lineOf body) 8 ≠ .ok ("ni", "ni", candidatesOf ["a]b"]) := by
  have hfit : replySize noTables freshHost (some (typing bracketed)) < replyBuffer.length := by
    rw [length_replyBuffer]
    decide +kernel
  have htyping := bracketed_typing
  obtain ⟨host', mem, body, l, hbuild, hstring, -, hdecoded⟩ := reply_arrives htyping hfit
  refine ⟨htyping, hfit, host', mem, body, hbuild, hstring, fun hparse => ?_⟩
  rw [hdecoded] at hparse
  have hgood := (decoded_iff_unmistakable "ni" "ni" ["a]b"] (headText_framing freshHost _ l)
    htyping.comp_bar htyping.reading_bar htyping.items_bar 8).mp hparse
  have hnone : imitated "items=[" ["ni", "ni"] = none := rfl
  have hitems := hgood.itemsField
  rw [hnone] at hitems
  exact (hitems "a]b" List.mem_cons_self).1 (by decide)

end RimeWinime.ReplyDecoded
