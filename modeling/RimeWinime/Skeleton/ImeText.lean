import RimeWinime.Lib.CString
import RimeWinime.Lib.LittleEndian
import RimeWinime.Lib.Utf16
import RimeWinime.Lib.Utf8

namespace RimeWinime.ImeText

open CString
open LittleEndian (decode)
open Utf16 (decodeLossy)
open Utf8 (encode)

def semicolon : UInt8 := 0x3B

def bar : UInt8 := 0x7C

def carriageReturn : UInt8 := 0x0D

def newline : UInt8 := 0x0A

def blank : UInt8 := 0x20

def isSeparator (byte : UInt8) : Bool :=
  byte = bar || byte = carriageReturn || byte = newline || byte = semicolon

def sanitizeToken (s : List UInt8) : List UInt8 :=
  s.map (fun byte => if isSeparator byte then blank else byte)

/-- `sizeof(tmp) / sizeof(tmp[0])`, and the size of the texts -/
def tmpSize : Nat := 128

def textSize : Nat := 192

def lstrcpyn (s : List UInt8) (size : Nat) : List UInt8 := s.take (size - 1)

/-- What a decoder returns, and the text that it leaves in a buffer. -/
abbrev Decoded := Bool × List UInt8

/-- The bytes of `WideCharToMultiByte(CP_UTF8, …)` without the NUL. -/
def wideToUtf8 (w : List UInt16) : List UInt8 := (decodeLossy w).flatMap String.utf8EncodeChar

def utf8FromWide (w : List UInt16) (outSize : Nat) : Decoded :=
  if outSize < (wideToUtf8 w).length + 1 then (false, lstrcpyn (encode "<conv_err>") outSize)
  else (true, sanitizeToken (cString (wideToUtf8 w)))

def widePrefersPackedDecode (w : List UInt16) : Bool :=
  (w.take 8).any (fun u => u = 0xFFFD || (0xE000 ≤ u && u ≤ 0xF8FF))

def lowByte (u : UInt16) : UInt8 := UInt8.ofNat (u.toNat % 256)

def highByte (u : UInt16) : UInt8 := UInt8.ofNat (u.toNat / 256)

/-- The bytes in wide characters: 240 at most, so that all fit. -/
def packedBytes (w : List UInt16) : List UInt8 :=
  (w.take 120).flatMap (fun u => if highByte u ≠ 0 then [lowByte u, highByte u] else [lowByte u])

def isPadding (c : UInt8) : Bool := c = 0x20 || c = 0x2E || c = 0x09

def looksLossyToken (s : List UInt8) : Bool :=
  if s = [] then true
  else if s.any (fun c => 0x80 ≤ c) then false
  else
    let nonSpace := s.filter (fun c => !isPadding c)
    if nonSpace = [] then true else nonSpace.countP (fun c => c = 0x3F) = nonSpace.length

def isPrint (c : UInt8) : Bool := 0x20 ≤ c && c ≤ 0x7E

def wideLooksPackedAscii (w : List UInt16) : Bool :=
  let pairs := (w.take 12).filter (fun u => highByte u ≠ 0)
  let printablePairs := pairs.filter (fun u => isPrint (lowByte u) && isPrint (highByte u))
  if pairs = [] then false else pairs.length ≤ printablePairs.length * 2

section

/- The tables of the code pages, for the bytes before a NUL. -/
variable (multiByteToWide : UInt32 → List UInt8 → Option (List UInt16))

/-- `MultiByteToWideChar(cp, 0, mb, -1, tmp, …)`, and nothing where it returns 0. -/
def toTmp (cp : UInt32) (mb : List UInt8) : Option (List UInt16) :=
  (multiByteToWide cp mb).filter (fun w => w.length < tmpSize)

def utf8FromMultibyte (mb : List UInt8) (cp : UInt32) (outSize : Nat) : Decoded :=
  if mb = [] then (true, [])
  else
    let converted :=
      match toTmp multiByteToWide cp mb with
      | some w => some w
      | none => if cp ≠ 0 then toTmp multiByteToWide 0 mb else none
    match converted with
    | some w => utf8FromWide (cString w) outSize
    | none => (false, lstrcpyn (encode "<decode_err>") outSize)

def utf8FromPackedWideMb (w : List UInt16) (cp : UInt32) (outSize : Nat) : Decoded :=
  if packedBytes w = [] then (true, [])
  else utf8FromMultibyte multiByteToWide (cString (packedBytes w)) cp outSize

/-- What a decoder made, if it returned 1 and the text does not look lossy. -/
def Decoded.token (d : Decoded) : Option (List UInt8) :=
  if d.1 && !looksLossyToken d.2 then some d.2 else none

def packedToken (w : List UInt16) (cp : UInt32) : Option (List UInt8) :=
  (utf8FromPackedWideMb multiByteToWide w cp textSize).token

def wideOut (w : List UInt16) (outSize : Nat) : List UInt8 :=
  if (utf8FromWide w outSize).1 then (utf8FromWide w outSize).2 else []

def decodeImeWideText (cp : UInt32) (w : List UInt16) (outSize : Nat) : List UInt8 :=
  let out := wideOut w outSize
  if w = [] then []
  else if out = [] || looksLossyToken out || widePrefersPackedDecode w || wideLooksPackedAscii w then
    match packedToken multiByteToWide w cp with
    | some packed => lstrcpyn packed outSize
    | none => out
  else out

end

/-- Both calls of `ImmGetCompositionStringW` for a string: the size that the first
reports, what the second returns, and what the buffer holds after it. -/
structure CompQuery where
  size : Int
  copied : Int
  units : List UInt16
deriving DecidableEq

/-- The bytes that the input method has, and the string in a buffer of `cch`
characters. -/
def readCompWide (q : CompQuery) (cch : Nat) : Int × List UInt16 :=
  let maxBytes : Int := (cch - 1) * 2
  let copy := if maxBytes < q.size then maxBytes else q.size
  if q.size ≤ 0 then (q.size, [])
  else if q.copied < 0 then (q.size, [])
  else (q.size, cString (q.units.take (copy.toNat / 2)))

/-- The size that the first call reports, whether there is memory for it, what the
second returns, and the memory from there on. -/
structure CandList where
  size : UInt32
  allocated : Bool
  got : UInt32
  mem : List UInt8
deriving DecidableEq

def CandList.loaded (l : CandList) : Bool :=
  l.size ≠ 0 && l.allocated && l.got ≠ 0 && l.got ≤ l.size

def dword (mem : List UInt8) (pos : Nat) : UInt32 := UInt32.ofNat (decode ((mem.drop pos).take 4))

def wideUnits : List UInt8 → List UInt16
  | low :: high :: mem => UInt16.ofNat (low.toNat + 256 * high.toNat) :: wideUnits mem
  | [_] | [] => []

namespace CandList

variable (l : CandList)

def dwCount : UInt32 := dword l.mem 8

def dwSelection : UInt32 := dword l.mem 12

def dwPageStart : UInt32 := dword l.mem 16

def dwPageSize : UInt32 := dword l.mem 20

def dwOffset (i : Nat) : UInt32 := dword l.mem (24 + 4 * i)

def narrowString (i : Nat) : List UInt8 := cString (l.mem.drop (l.dwOffset i).toNat)

def wideString (i : Nat) : List UInt16 := cString (wideUnits (l.mem.drop (l.dwOffset i).toNat))

end CandList

section

variable (multiByteToWide : UInt32 → List UInt8 → Option (List UInt16)) (cp : UInt32)

/-- A wide list may have what looks lossy in the narrow one. -/
def wideFallback (cw : CandList) (i : Nat) : Option (List UInt8) :=
  if i < cw.dwCount.toNat && cw.dwOffset i < cw.got then
    let ww := cw.wideString i
    let packed := if widePrefersPackedDecode ww then packedToken multiByteToWide ww cp else none
    match packed with
    | some text => some text
    | none => (utf8FromWide ww textSize).token
  else none

def ansiText (cand : CandList) (candW : Option CandList) (i : Nat) : Decoded :=
  let text := utf8FromMultibyte multiByteToWide (cand.narrowString i) cp textSize
  if text.1 && looksLossyToken text.2 then
    match candW.bind (wideFallback multiByteToWide cp · i) with
    | some fallback => (true, lstrcpyn fallback textSize)
    | none => text
  else text

def wideText (cand : CandList) (i : Nat) : Decoded :=
  let w := cand.wideString i
  let text := utf8FromWide w textSize
  if text.1 && widePrefersPackedDecode w then
    match packedToken multiByteToWide w cp with
    | some packed => (true, lstrcpyn packed textSize)
    | none => text
  else text

end

/-- A text that can stand in a reply: it has no NUL and no separator in it. -/
def Clean (s : List UInt8) : Prop := ∀ byte ∈ s, byte ≠ 0 ∧ isSeparator byte = false

theorem clean_nil : Clean [] := by
  intro byte hbyte
  cases hbyte

theorem Clean.take {s : List UInt8} (h : Clean s) (n : Nat) : Clean (s.take n) :=
  fun byte hbyte => h byte (List.mem_of_mem_take hbyte)

theorem Clean.ne_of_separator {s : List UInt8} (h : Clean s) {byte sep : UInt8} (hbyte : byte ∈ s)
    (hsep : isSeparator sep = true) : byte ≠ sep := by
  rintro rfl
  exact Bool.noConfusion ((h byte hbyte).2.symm.trans hsep)

theorem Clean.ne_newline {s : List UInt8} (h : Clean s) {byte : UInt8} (hbyte : byte ∈ s) :
    byte ≠ newline := h.ne_of_separator hbyte rfl

theorem Clean.ne_carriageReturn {s : List UInt8} (h : Clean s) {byte : UInt8} (hbyte : byte ∈ s) :
    byte ≠ carriageReturn := h.ne_of_separator hbyte rfl

theorem clean_sanitizeToken {s : List UInt8} (h : 0 ∉ s) : Clean (sanitizeToken s) := by
  intro byte hbyte
  obtain ⟨old, hold, rfl⟩ := List.mem_map.mp hbyte
  by_cases hsep : isSeparator old = true
  · rw [if_pos hsep]
    exact ⟨by decide, rfl⟩
  · rw [if_neg hsep]
    refine ⟨fun hzero => h (hzero ▸ hold), Bool.eq_false_iff.mpr hsep⟩

theorem clean_of_all {s : List UInt8}
    (h : s.all (fun byte => byte ≠ 0 && !isSeparator byte) = true) : Clean s := by
  intro byte hbyte
  have hboth := List.all_eq_true.mp h byte hbyte
  simpa using hboth

theorem clean_convErr : Clean (encode "<conv_err>") := clean_of_all rfl

theorem clean_decodeErr : Clean (encode "<decode_err>") := clean_of_all rfl

theorem clean_utf8FromWide (w : List UInt16) (outSize : Nat) : Clean (utf8FromWide w outSize).2 := by
  rw [utf8FromWide]
  split
  · exact clean_convErr.take _
  · exact clean_sanitizeToken (not_mem_cString _)

variable (multiByteToWide : UInt32 → List UInt8 → Option (List UInt16))

theorem clean_utf8FromMultibyte (mb : List UInt8) (cp : UInt32) (outSize : Nat) :
    Clean (utf8FromMultibyte multiByteToWide mb cp outSize).2 := by
  rw [utf8FromMultibyte]
  split
  · exact clean_nil
  · simp only
    split
    · exact clean_utf8FromWide _ _
    · exact clean_decodeErr.take _

theorem clean_utf8FromPackedWideMb (w : List UInt16) (cp : UInt32) (outSize : Nat) :
    Clean (utf8FromPackedWideMb multiByteToWide w cp outSize).2 := by
  rw [utf8FromPackedWideMb]
  split
  · exact clean_nil
  · exact clean_utf8FromMultibyte _ _ _ _

theorem clean_token {d : Decoded} (hd : Clean d.2) {s : List UInt8} (h : d.token = some s) :
    Clean s := by
  rw [Decoded.token] at h
  split at h
  · cases h
    exact hd
  · cases h

theorem clean_packedToken {w : List UInt16} {cp : UInt32} {s : List UInt8}
    (h : packedToken multiByteToWide w cp = some s) : Clean s :=
  clean_token (clean_utf8FromPackedWideMb multiByteToWide w cp textSize) h

theorem clean_wideOut (w : List UInt16) (outSize : Nat) : Clean (wideOut w outSize) := by
  rw [wideOut]
  split
  · exact clean_utf8FromWide w outSize
  · exact clean_nil

theorem clean_decodeImeWideText (cp : UInt32) (w : List UInt16) (outSize : Nat) :
    Clean (decodeImeWideText multiByteToWide cp w outSize) := by
  have hout := clean_wideOut w outSize
  unfold decodeImeWideText
  simp only
  split
  · exact clean_nil
  · split
    · split
      · next packed hpacked => exact (clean_packedToken multiByteToWide hpacked).take _
      · exact hout
    · exact hout

theorem clean_wideText (cp : UInt32) (cand : CandList) (i : Nat) :
    Clean (wideText multiByteToWide cp cand i).2 := by
  have htext := clean_utf8FromWide (cand.wideString i) textSize
  unfold wideText
  simp only
  split
  · split
    · next packed hpacked => exact (clean_packedToken multiByteToWide hpacked).take _
    · exact htext
  · exact htext

theorem clean_wideFallback {cp : UInt32} {cw : CandList} {i : Nat} {s : List UInt8}
    (h : wideFallback multiByteToWide cp cw i = some s) : Clean s := by
  unfold wideFallback at h
  simp only at h
  split at h
  · split at h
    · next packed hpacked =>
        cases h
        split at hpacked
        · exact clean_packedToken multiByteToWide hpacked
        · cases hpacked
    · exact clean_token (clean_utf8FromWide _ _) h
  · cases h

theorem clean_ansiText (cp : UInt32) (cand : CandList) (candW : Option CandList) (i : Nat) :
    Clean (ansiText multiByteToWide cp cand candW i).2 := by
  have htext := clean_utf8FromMultibyte multiByteToWide (cand.narrowString i) cp textSize
  unfold ansiText
  simp only
  split
  · split
    · next fallback hfallback =>
        obtain ⟨cw, -, hcw⟩ := Option.bind_eq_some_iff.mp hfallback
        exact (clean_wideFallback multiByteToWide hcw).take _
    · exact htext
  · exact htext

end RimeWinime.ImeText
