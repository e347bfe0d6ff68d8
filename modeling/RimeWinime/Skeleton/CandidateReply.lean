import Mathlib.Algebra.GroupWithZero.Nat
import RimeWinime.Skeleton.ImeText

namespace RimeWinime.CandidateReply

open CString ImeText
open Utf8 (encode)

/-- What the host keeps of the last reply, and the code page of its texts. -/
structure Host where
  candCodepage : UInt32
  lastCompBytes : Int
  lastCandCount : UInt32
  lastCandSel : UInt32
deriving DecidableEq

/-- What the input method answers, call by call: the sizes and counts of its lists, its
lists, and its wide lists once more where it had none before. -/
structure ImeState where
  comp : CompQuery
  reading : CompQuery
  countW : UInt32 × UInt32
  countA : UInt32 × UInt32
  listW : Nat → CandList
  listA : Nat → CandList
  listWAgain : Nat → CandList

/-- The buffer of the reply, and how much of it is used. -/
structure Out where
  mem : List UInt8
  off : Nat

def appendf (out : Out) (text : List UInt8) : Option Out := do
  if out.mem.length ≤ out.off then some out
  else
    let room := out.mem.length - out.off
    let (mem, n) ← snprintf out.mem out.off room text
    some ⟨mem, if room ≤ n then out.mem.length - 1 else out.off + n⟩

/-- The calls of `appendf` one after the other. -/
def appendAll (out : Out) (texts : List (List UInt8)) : Option Out := texts.foldlM appendf out

def number (n : Nat) : List UInt8 := encode (toString n)

def signed (n : Int) : List UInt8 := encode (toString n)

/-- A list that goes into the reply. -/
structure Shown where
  idx : Nat
  isAnsi : Bool
  cand : CandList
  candW : Option CandList

/-- A list that is there is left out if it is an internal one: without pages and long. -/
def shown (ime : ImeState) (idx : Nat) : Option Shown :=
  let isAnsi := (ime.listW idx).size = 0
  let cand := if isAnsi then ime.listA idx else ime.listW idx
  if !cand.loaded then none
  else
    let candW :=
      if isAnsi && (ime.listWAgain idx).loaded then some (ime.listWAgain idx) else none
    if 0 < idx && cand.dwPageSize = 0 && 64 ≤ cand.dwCount then none
    else some ⟨idx, isAnsi, cand, candW⟩

def listCount (ime : ImeState) : UInt32 := if ime.countW.2 = 0 then ime.countA.2 else ime.countW.2

def totalSize (ime : ImeState) : UInt32 := if ime.countW.2 = 0 then ime.countA.1 else ime.countW.1

def probeLimit (ime : ImeState) : Nat := if listCount ime ≠ 0 then (listCount ime).toNat else 4

/-- The lists of the reply, the first four that are probed at most. -/
def shownLists (ime : ImeState) : List Shown :=
  (List.range (min (probeLimit ime) 4)).filterMap (shown ime)

/-- The candidates of all lists, and the selection of the last list that had none
before it. -/
def collect : UInt32 × UInt32 → List Shown → UInt32 × UInt32
  | done, [] => done
  | (collected, sel), l :: lists =>
      collect (collected + l.cand.dwCount, if collected = 0 then l.cand.dwSelection else sel) lists

section

variable (multiByteToWide : UInt32 → List UInt8 → Option (List UInt16)) (cp : UInt32)

def decodedItem (l : Shown) (i : Nat) : Decoded :=
  if l.isAnsi then ansiText multiByteToWide cp l.cand l.candW i
  else wideText multiByteToWide cp l.cand i

def itemText (l : Shown) (i : Nat) : List UInt8 :=
  if (decodedItem multiByteToWide cp l i).1 then (decodedItem multiByteToWide cp l i).2
  else lstrcpyn (encode "<decode_err>") textSize

def itemPieces (l : Shown) (i : Nat) : List (List UInt8) :=
  if l.cand.got ≤ l.cand.dwOffset i then []
  else (if 0 < i then [encode "|"] else []) ++ [itemText multiByteToWide cp l i]

def listHeader (l : Shown) : List UInt8 :=
  encode "#" ++ number l.idx ++ encode "\x7benc=" ++ encode (if l.isAnsi then "A" else "W") ++
    encode " count=" ++ number l.cand.dwCount.toNat ++
    encode " sel=" ++ number l.cand.dwSelection.toNat ++
    encode " pageStart=" ++ number l.cand.dwPageStart.toNat ++
    encode " pageSize=" ++ number l.cand.dwPageSize.toNat ++ encode " items=["

def listPieces (l : Shown) : List (List UInt8) :=
  [listHeader l] ++ (List.range (min l.cand.dwCount.toNat 8)).flatMap (itemPieces multiByteToWide cp l) ++
    (if 8 < l.cand.dwCount then [encode "|..."] else []) ++ [encode "]\x7d"]

def listsPieces : Bool → List Shown → List (List UInt8)
  | _, [] => []
  | anyList, l :: lists =>
      (if anyList then [encode ";"] else []) ++ listPieces multiByteToWide cp l ++ listsPieces true lists

/-- The strings of the reply, and the sizes of both as the input method has them. -/
def compText (ime : ImeState) : List UInt8 :=
  decodeImeWideText multiByteToWide cp (readCompWide ime.comp textSize).2 textSize

def readText (ime : ImeState) : List UInt8 :=
  decodeImeWideText multiByteToWide cp (readCompWide ime.reading textSize).2 textSize

def compBytes (ime : ImeState) : Int := (readCompWide ime.comp textSize).1

def readBytes (ime : ImeState) : Int := max (readCompWide ime.reading textSize).1 0

def noLists (ime : ImeState) : List UInt8 :=
  encode "CAND_RET count=0 cp=" ++ number cp.toNat ++
    encode " compBytes=" ++ signed (compBytes ime) ++
    encode " readBytes=" ++ signed (readBytes ime) ++
    encode " lists=" ++ number (listCount ime).toNat ++
    encode " totalBytes=" ++ number (totalSize ime).toNat ++
    encode " comp=[" ++ compText multiByteToWide cp ime ++
    encode "] read=[" ++ readText multiByteToWide cp ime ++ encode "]\n"

def header (ime : ImeState) : List UInt8 :=
  encode "CAND_RET cp=" ++ number cp.toNat ++
    encode " lists=" ++ number (listCount ime).toNat ++
    encode " totalBytes=" ++ number (totalSize ime).toNat ++
    encode " compBytes=" ++ signed (compBytes ime) ++
    encode " readBytes=" ++ signed (readBytes ime) ++
    encode " comp=[" ++ compText multiByteToWide cp ime ++
    encode "] read=[" ++ readText multiByteToWide cp ime ++ encode "] data="

def dataPieces (ime : ImeState) : List (List UInt8) :=
  [header multiByteToWide cp ime] ++ listsPieces multiByteToWide cp false (shownLists ime) ++
    (if shownLists ime = [] then [encode "none"] else [])

end

section

variable (multiByteToWide : UInt32 → List UInt8 → Option (List UInt16))

/-- The reply in the buffer `out`, all of which may be used. -/
def buildCandidateReply (host : Host) (himc : Option ImeState) (out : List UInt8) :
    Option (Host × List UInt8) := do
  let cp := host.candCodepage
  match himc with
  | none =>
      let (out, _) ← snprintf out 0 out.length (encode "CAND_RET err=no_himc\n")
      some (host, out)
  | some ime =>
      let host := { host with lastCompBytes := compBytes ime }
      if listCount ime = 0 && totalSize ime = 0 then
        let (out, _) ← snprintf out 0 out.length (noLists multiByteToWide cp ime)
        some ({ host with lastCandCount := 0, lastCandSel := 0 }, out)
      else
        let out ← appendAll ⟨out, 0⟩ (dataPieces multiByteToWide cp ime ++ [encode "\n"])
        let (collected, sel) := collect (0, 0) (shownLists ime)
        some ({ host with lastCandCount := collected, lastCandSel := sel }, out.mem)

def replyTexts (host : Host) (himc : Option ImeState) : List (List UInt8) :=
  match himc with
  | none => [encode "CAND_RET err=no_himc\n"]
  | some ime =>
      if listCount ime = 0 && totalSize ime = 0 then [noLists multiByteToWide host.candCodepage ime]
      else dataPieces multiByteToWide host.candCodepage ime ++ [encode "\n"]

def replySize (host : Host) (himc : Option ImeState) : Nat :=
  ((replyTexts multiByteToWide host himc).map List.length).sum

end

def InLine (s : List UInt8) : Prop := ∀ byte ∈ s, byte ≠ 0 ∧ byte ≠ newline ∧ byte ≠ carriageReturn

def IsLine (mem : List UInt8) : Prop := ∃ body, cString mem = body ++ [newline] ∧ InLine body

theorem inLine_of_all {s : List UInt8}
    (h : s.all (fun byte => byte ≠ 0 && (byte ≠ newline && byte ≠ carriageReturn)) = true) :
    InLine s := by
  intro byte hbyte
  have hboth := List.all_eq_true.mp h byte hbyte
  simpa using hboth

theorem inLine_append {a b : List UInt8} : InLine (a ++ b) ↔ InLine a ∧ InLine b :=
  List.forall_mem_append

theorem inLine_flatten {texts : List (List UInt8)} :
    InLine texts.flatten ↔ ∀ text ∈ texts, InLine text := by
  constructor
  · intro h text htext byte hbyte
    exact h byte (List.mem_flatten_of_mem htext hbyte)
  · intro h byte hbyte
    obtain ⟨text, htext, hmem⟩ := List.mem_flatten.mp hbyte
    exact h text htext byte hmem

theorem inLine_clean {s : List UInt8} (h : Clean s) : InLine s :=
  fun byte hbyte => ⟨(h byte hbyte).1, h.ne_newline hbyte, h.ne_carriageReturn hbyte⟩

theorem inLine_encode {text : String} (h : ∀ c ∈ text.toList, 0x20 ≤ c.toNat) :
    InLine (encode text) := by
  intro byte hbyte
  have hlow (hsmall : byte.toNat < 0x20) : False := by
    have hc := h _ (Utf8.mem_of_mem_encode hbyte (by omega))
    rw [Utf16.toNat_ofNat (Or.inl (by omega))] at hc
    omega
  refine ⟨?_, ?_, ?_⟩
  · rintro rfl
    exact hlow (by decide)
  · rintro rfl
    exact hlow (by decide)
  · rintro rfl
    exact hlow (by decide)

theorem isDigit_of_mem_toString {n : Nat} {c : Char} (hc : c ∈ (toString n).toList) :
    c.isDigit = true := by
  rw [Nat.toString_eq_ofList_toDigits, String.toList_ofList] at hc
  exact Nat.isDigit_of_mem_toDigits (by omega) (by omega) hc

theorem inLine_number (n : Nat) : InLine (number n) := by
  apply inLine_encode
  intro c hc
  have hdigit := isDigit_of_mem_toString hc
  rw [Char.isDigit, Bool.and_eq_true, decide_eq_true_eq, decide_eq_true_eq] at hdigit
  exact Nat.le_trans (by decide) (UInt32.le_iff_toNat_le.mp hdigit.1)

theorem inLine_signed (n : Int) : InLine (signed n) := by
  cases n with
  | ofNat n => exact inLine_number n
  | negSucc n =>
      have hsign : signed (Int.negSucc n) = encode "-" ++ number (n + 1) := Utf8.encode_append _ _
      rw [hsign, inLine_append]
      exact ⟨inLine_of_all rfl, inLine_number _⟩

section

variable (multiByteToWide : UInt32 → List UInt8 → Option (List UInt16)) (cp : UInt32)

theorem inLine_compText (ime : ImeState) : InLine (compText multiByteToWide cp ime) :=
  inLine_clean (clean_decodeImeWideText multiByteToWide cp _ _)

theorem inLine_readText (ime : ImeState) : InLine (readText multiByteToWide cp ime) :=
  inLine_clean (clean_decodeImeWideText multiByteToWide cp _ _)

theorem clean_itemText (l : Shown) (i : Nat) : Clean (itemText multiByteToWide cp l i) := by
  have htext : Clean (decodedItem multiByteToWide cp l i).2 := by
    rw [decodedItem]
    split
    · exact clean_ansiText multiByteToWide cp l.cand l.candW i
    · exact clean_wideText multiByteToWide cp l.cand i
  rw [itemText]
  split
  · exact htext
  · exact clean_decodeErr.take _

theorem inLine_itemPieces (l : Shown) (i : Nat) :
    ∀ text ∈ itemPieces multiByteToWide cp l i, InLine text := by
  intro text htext
  rw [itemPieces] at htext
  split at htext
  · cases htext
  · rw [List.mem_append, List.mem_singleton] at htext
    rcases htext with htext | rfl
    · split at htext
      · rw [List.mem_singleton.mp htext]
        exact inLine_of_all rfl
      · cases htext
    · exact inLine_clean (clean_itemText multiByteToWide cp l i)

theorem inLine_listHeader (l : Shown) : InLine (listHeader l) := by
  have henc : InLine (encode (if l.isAnsi then "A" else "W")) := by
    cases l.isAnsi <;> exact inLine_of_all rfl
  simp only [listHeader, inLine_append, inLine_number, henc, and_true]
  and_intros <;> exact inLine_of_all rfl

theorem inLine_listPieces (l : Shown) : ∀ text ∈ listPieces multiByteToWide cp l, InLine text := by
  intro text htext
  simp only [listPieces, List.mem_append, List.mem_singleton, List.mem_flatMap] at htext
  rcases htext with ((rfl | ⟨i, -, hitem⟩) | hmore) | rfl
  · exact inLine_listHeader l
  · exact inLine_itemPieces multiByteToWide cp l i text hitem
  · split at hmore
    · rw [List.mem_singleton.mp hmore]
      exact inLine_of_all rfl
    · cases hmore
  · exact inLine_of_all rfl

theorem inLine_listsPieces (anyList : Bool) (lists : List Shown) :
    ∀ text ∈ listsPieces multiByteToWide cp anyList lists, InLine text := by
  induction lists generalizing anyList with
  | nil =>
      intro text htext
      cases htext
  | cons l lists ih =>
      intro text htext
      rw [listsPieces, List.mem_append, List.mem_append] at htext
      rcases htext with (hbetween | hlist) | hrest
      · split at hbetween
        · rw [List.mem_singleton.mp hbetween]
          exact inLine_of_all rfl
        · cases hbetween
      · exact inLine_listPieces multiByteToWide cp l text hlist
      · exact ih true text hrest

theorem inLine_header (ime : ImeState) : InLine (header multiByteToWide cp ime) := by
  simp only [header, inLine_append, inLine_number, inLine_signed, inLine_compText, inLine_readText,
    and_true]
  and_intros <;> exact inLine_of_all rfl

theorem inLine_dataPieces (ime : ImeState) :
    ∀ text ∈ dataPieces multiByteToWide cp ime, InLine text := by
  intro text htext
  rw [dataPieces, List.mem_append, List.mem_append, List.mem_singleton] at htext
  rcases htext with (rfl | hlists) | hnone
  · exact inLine_header multiByteToWide cp ime
  · exact inLine_listsPieces multiByteToWide cp false _ text hlists
  · split at hnone
    · rw [List.mem_singleton.mp hnone]
      exact inLine_of_all rfl
    · cases hnone

theorem noLists_eq (ime : ImeState) :
    ∃ body, noLists multiByteToWide cp ime = body ++ [newline] ∧ InLine body := by
  have hlast : encode "]\n" = encode "]" ++ [newline] := rfl
  rw [noLists, hlast, ← List.append_assoc]
  refine ⟨_, rfl, ?_⟩
  simp only [inLine_append, inLine_number, inLine_signed, inLine_compText, inLine_readText, and_true]
  and_intros <;> exact inLine_of_all rfl

theorem replyTexts_eq (host : Host) (himc : Option ImeState) :
    ∃ body, (replyTexts multiByteToWide host himc).flatten = body ++ [newline] ∧ InLine body := by
  cases himc with
  | none =>
      have hline : encode "CAND_RET err=no_himc\n" = encode "CAND_RET err=no_himc" ++ [newline] := rfl
      rw [replyTexts, List.flatten_singleton]
      exact ⟨_, hline, inLine_of_all rfl⟩
  | some ime =>
      simp only [replyTexts]
      split
      · rw [List.flatten_singleton]
        exact noLists_eq multiByteToWide host.candCodepage ime
      · refine ⟨(dataPieces multiByteToWide host.candCodepage ime).flatten, ?_, ?_⟩
        · rw [List.flatten_append, List.flatten_singleton]
          rfl
        · exact inLine_flatten.mpr (inLine_dataPieces multiByteToWide host.candCodepage ime)

end

/-- The buffer holds what was to be written, as far as there is room, and the next call
goes on after it. -/
structure Holds (size : Nat) (full : List UInt8) (out : Out) : Prop where
  length : out.mem.length = size
  off : out.off = (full.take (size - 1)).length
  begins : ∃ rest, out.mem = full.take (size - 1) ++ rest

theorem holds_empty (mem : List UInt8) : Holds mem.length [] ⟨mem, 0⟩ :=
  ⟨rfl, by rw [List.take_nil]; rfl, mem, by rw [List.take_nil]; rfl⟩

theorem appendf_spec {size : Nat} (hpos : 0 < size) {full : List UInt8} {out : Out}
    (h : Holds size full out) (text : List UInt8) :
    ∃ out', appendf out text = some out' ∧ Holds size (full ++ text) out' ∧
      Printed (full ++ text) out'.mem := by
  obtain ⟨hsize, hoff, rest, hbegins⟩ := h
  obtain ⟨mem, hprint, hlen, hprinted⟩ := snprintf_spec hsize hpos hbegins text
  have htake : (full.take (size - 1)).length = min (size - 1) full.length := List.length_take
  have hnot : ¬size ≤ out.off := by omega
  rw [← hoff] at hprint
  refine ⟨_, by simp only [appendf, hsize, if_neg hnot, hprint]; rfl, ?_, hprinted⟩
  obtain ⟨after, hmem⟩ := hprinted
  rw [hlen] at hmem
  refine ⟨hlen, ?_, _, hmem⟩
  simp only [List.length_take, List.length_append]
  split <;> omega

theorem appendAll_cons {out next : Out} {text : List UInt8} (h : appendf out text = some next)
    (texts : List (List UInt8)) : appendAll out (text :: texts) = appendAll next texts := by
  rw [appendAll, List.foldlM_cons, h]
  rfl

theorem appendAll_spec {size : Nat} (hpos : 0 < size) (texts : List (List UInt8)) :
    ∀ {full : List UInt8} {out : Out}, Holds size full out → Printed full out.mem →
      ∃ out', appendAll out texts = some out' ∧ Holds size (full ++ texts.flatten) out' ∧
        Printed (full ++ texts.flatten) out'.mem := by
  induction texts with
  | nil =>
      intro full out hholds hprinted
      refine ⟨out, rfl, ?_⟩
      rw [List.flatten_nil, List.append_nil]
      exact ⟨hholds, hprinted⟩
  | cons text texts ih =>
      intro full out hholds _
      obtain ⟨next, hnext, hholds', hprinted'⟩ := appendf_spec hpos hholds text
      obtain ⟨out', hall, hdone⟩ := ih hholds' hprinted'
      refine ⟨out', (appendAll_cons hnext texts).trans hall, ?_⟩
      rw [List.flatten_cons, ← List.append_assoc]
      exact hdone

theorem printed_singleton {mem : List UInt8} (hpos : 0 < mem.length) (text : List UInt8) :
    ∃ after, snprintf mem 0 mem.length text = some (after, text.length) ∧
      after.length = mem.length ∧ Printed text after := by
  have hmem : mem = ([] : List UInt8).take (mem.length - 1) ++ mem := by rw [List.take_nil]; rfl
  have h := snprintf_spec rfl hpos hmem text
  simpa using h

section

variable (multiByteToWide : UInt32 → List UInt8 → Option (List UInt16))

theorem buildCandidateReply_printed (host : Host) (himc : Option ImeState) {out : List UInt8}
    (hpos : 0 < out.length) :
    ∃ host' mem, buildCandidateReply multiByteToWide host himc out = some (host', mem) ∧
      mem.length = out.length ∧ Printed (replyTexts multiByteToWide host himc).flatten mem := by
  cases himc with
  | none =>
      obtain ⟨mem, hprint, hlen, hprinted⟩ :=
        printed_singleton hpos (encode "CAND_RET err=no_himc\n")
      refine ⟨host, mem, ?_, hlen, by rw [replyTexts, List.flatten_singleton]; exact hprinted⟩
      rw [buildCandidateReply, hprint]
      rfl
  | some ime =>
      by_cases hnone : (listCount ime = 0 && totalSize ime = 0) = true
      · obtain ⟨mem, hprint, hlen, hprinted⟩ :=
          printed_singleton hpos (noLists multiByteToWide host.candCodepage ime)
        have hbuild : buildCandidateReply multiByteToWide host (some ime) out =
            some ({ host with lastCompBytes := compBytes ime, lastCandCount := 0, lastCandSel := 0 },
              mem) := by
          simp only [buildCandidateReply, if_pos hnone, hprint]
          rfl
        refine ⟨_, mem, hbuild, hlen, ?_⟩
        rw [replyTexts, if_pos hnone, List.flatten_singleton]
        exact hprinted
      · have hfirst := appendf_spec hpos (holds_empty out) (header multiByteToWide host.candCodepage ime)
        obtain ⟨next, hnext, hholds, hprinted⟩ := hfirst
        obtain ⟨done, hdone, hholds', hprinted'⟩ := appendAll_spec hpos
          (listsPieces multiByteToWide host.candCodepage false (shownLists ime) ++
            (if shownLists ime = [] then [encode "none"] else []) ++ [encode "\n"]) hholds hprinted
        have hall : appendAll ⟨out, 0⟩
            (dataPieces multiByteToWide host.candCodepage ime ++ [encode "\n"]) = some done := by
          rw [dataPieces, List.append_assoc, List.append_assoc, List.singleton_append,
            appendAll_cons hnext, ← List.append_assoc]
          exact hdone
        have hbuild : buildCandidateReply multiByteToWide host (some ime) out =
            some ({ host with
                lastCompBytes := compBytes ime
                lastCandCount := (collect (0, 0) (shownLists ime)).1
                lastCandSel := (collect (0, 0) (shownLists ime)).2 }, done.mem) := by
          simp only [buildCandidateReply, if_neg hnone, hall]
          rfl
        refine ⟨_, done.mem, hbuild, hholds'.length, ?_⟩
        rw [replyTexts, if_neg hnone, dataPieces]
        simpa using hprinted'

theorem length_flatten_replyTexts (host : Host) (himc : Option ImeState) :
    (replyTexts multiByteToWide host himc).flatten.length = replySize multiByteToWide host himc :=
  List.length_flatten

theorem cString_line {body mem : List UInt8} (hbody : InLine body)
    (hprinted : Printed (body ++ [newline]) mem) :
    cString mem = (body ++ [newline]).take (mem.length - 1) := by
  apply cString_printed hprinted
  rw [List.mem_append, List.mem_singleton]
  rintro (h | h)
  · exact (hbody 0 h).1 rfl
  · cases h

theorem cString_line_of_fits {body mem : List UInt8} (hbody : InLine body)
    (hprinted : Printed (body ++ [newline]) mem) (hfit : (body ++ [newline]).length < mem.length) :
    cString mem = body ++ [newline] := by
  rw [cString_line hbody hprinted]
  apply List.take_of_length_le
  omega

theorem isLine_iff_of_printed {body mem : List UInt8} (hbody : InLine body)
    (hprinted : Printed (body ++ [newline]) mem) :
    newline ∉ (cString mem).dropLast ∧ (IsLine mem ↔ (body ++ [newline]).length < mem.length) := by
  have hnewline : newline ∉ body := fun h => (hbody newline h).2.1 rfl
  have hpos : 0 < mem.length := List.length_pos_of_mem (nul_mem_printed hprinted)
  by_cases hfit : (body ++ [newline]).length < mem.length
  · have hstring := cString_line_of_fits hbody hprinted hfit
    rw [hstring, List.dropLast_concat]
    exact ⟨hnewline, fun _ => hfit, fun _ => ⟨body, hstring, hbody⟩⟩
  · rw [List.length_append, List.length_singleton] at hfit
    have hnone : newline ∉ cString mem := by
      rw [cString_line hbody hprinted, List.take_append_of_le_length (by omega)]
      exact fun h => hnewline (List.mem_of_mem_take h)
    refine ⟨fun h => hnone (List.dropLast_subset _ h), ?_, ?_⟩
    · rintro ⟨rest, hline, -⟩
      rw [hline] at hnone
      exact absurd (List.mem_append_right _ List.mem_cons_self) hnone
    · intro hlen
      rw [List.length_append, List.length_singleton] at hlen
      exact absurd hlen hfit

/-- Whatever the input method answers, the reply has its NUL in the buffer and no newline
but at its end. It is a line with its newline exactly when all of it and the NUL fit. -/
theorem reply_isLine_iff (host : Host) (himc : Option ImeState) {out : List UInt8}
    (hpos : 0 < out.length) :
    ∃ host' mem, buildCandidateReply multiByteToWide host himc out = some (host', mem) ∧
      mem.length = out.length ∧ 0 ∈ mem ∧ newline ∉ (cString mem).dropLast ∧
      (IsLine mem ↔ replySize multiByteToWide host himc < out.length) := by
  obtain ⟨host', mem, hbuild, hlen, hprinted⟩ :=
    buildCandidateReply_printed multiByteToWide host himc hpos
  obtain ⟨body, hwhole, hbody⟩ := replyTexts_eq multiByteToWide host himc
  have hsize := length_flatten_replyTexts multiByteToWide host himc
  rw [hwhole] at hprinted hsize
  obtain ⟨hnewline, hline⟩ := isLine_iff_of_printed hbody hprinted
  rw [hsize, hlen] at hline
  exact ⟨host', mem, hbuild, hlen, nul_mem_printed hprinted, hnewline, hline⟩

end

def noTables : UInt32 → List UInt8 → Option (List UInt16) := fun _ _ => none

def freshHost : Host := ⟨936, 0, 0, 0⟩

/-- The reply of `process_command`, `char reply[2048]` -/
def replyBuffer : List UInt8 := List.replicate 2048 0

theorem length_replyBuffer : replyBuffer.length = 2048 := List.length_replicate

theorem length_replyBuffer_pos : 0 < replyBuffer.length := by
  rw [length_replyBuffer]
  omega

def noList : CandList := ⟨0, true, 0, []⟩

def emptyComp : CompQuery := ⟨0, 0, []⟩

def shortList : CandList :=
  { size := 44
    allocated := true
    got := 44
    mem := [44, 0, 0, 0, 0, 0, 0, 0, 2, 0, 0, 0, 0, 0, 0, 0, 0, 0, 0, 0, 9, 0, 0, 0] ++
      [32, 0, 0, 0, 38, 0, 0, 0] ++ [0x61, 0, 0x62, 0, 0, 0, 0x63, 0, 0x64, 0, 0, 0] }

def shortLists : ImeState :=
  { comp := emptyComp
    reading := emptyComp
    countW := (88, 2)
    countA := (0, 0)
    listW := fun idx => if idx < 2 then shortList else noList
    listA := fun _ => noList
    listWAgain := fun _ => noList }

theorem short_lists_isLine :
    ∃ host' mem, buildCandidateReply noTables freshHost (some shortLists) replyBuffer =
      some (host', mem) ∧ IsLine mem := by
  obtain ⟨host', mem, hbuild, -, -, -, hline⟩ :=
    reply_isLine_iff noTables freshHost (some shortLists) length_replyBuffer_pos
  rw [length_replyBuffer] at hline
  exact ⟨host', mem, hbuild, hline.mpr (by decide +kernel)⟩

def longList : CandList :=
  { size := 438
    allocated := true
    got := 438
    mem := [0xB6, 1, 0, 0, 0, 0, 0, 0, 8, 0, 0, 0, 0, 0, 0, 0, 0, 0, 0, 0, 9, 0, 0, 0] ++
      (List.replicate 8 [56, 0, 0, 0]).flatten ++ (List.replicate 190 [0x61, 0]).flatten ++ [0, 0] }

def twoLists : ImeState :=
  { comp := emptyComp
    reading := emptyComp
    countW := (876, 2)
    countA := (0, 0)
    listW := fun idx => if idx < 2 then longList else noList
    listA := fun _ => noList
    listWAgain := fun _ => noList }

theorem twoLists_size : 2048 ≤ replySize noTables freshHost (some twoLists) := by decide +kernel

theorem long_reply_not_isLine :
    ∃ host' mem, buildCandidateReply noTables freshHost (some twoLists) replyBuffer =
      some (host', mem) ∧ ¬IsLine mem := by
  obtain ⟨host', mem, hbuild, hlen, hprinted⟩ :=
    buildCandidateReply_printed noTables freshHost (some twoLists) length_replyBuffer_pos
  obtain ⟨body, hwhole, hbody⟩ := replyTexts_eq noTables freshHost (some twoLists)
  have hsize := length_flatten_replyTexts noTables freshHost (some twoLists)
  rw [hwhole] at hprinted hsize
  refine ⟨host', mem, hbuild, fun hline => ?_⟩
  have hfit := (isLine_iff_of_printed hbody hprinted).2.mp hline
  rw [hsize, hlen, length_replyBuffer] at hfit
  exact absurd hfit (Nat.not_lt.mpr twoLists_size)

end RimeWinime.CandidateReply
