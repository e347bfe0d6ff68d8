import RimeWinime.Lib.Utf16
import RimeWinime.Host.Win32
import RimeWinime.Proto

namespace RimeWinime.ImmOps

open Win32 Proto Utf16

def unitBuffer (n : Nat) (written : List UInt16) : List UInt16 := written.takeD n 0

def getResultString (r : CompRead) : Option String :=
  if r.size ≤ 0 then none
  else if r.copied > 0 then some (fromUtf16Lossy (unitBuffer (r.size.toNat / 2) r.units))
  else none

structure CompositionData where
  text : String
  cursorPos : Int32
  selStart : Int32
  selEnd : Int32
deriving DecidableEq

def ATTR_TARGET_CONVERTED : UInt8 := 1
def ATTR_TARGET_NOTCONVERTED : UInt8 := 3

/-- One pass over the attributes: the first target index and the index after
the last one, both -1 while there is none. -/
def targetScan : List UInt8 → Nat → Int × Int → Int × Int
  | [], _, span => span
  | attr :: attrs, i, (start, stop) =>
      if attr = ATTR_TARGET_CONVERTED ∨ attr = ATTR_TARGET_NOTCONVERTED then
        targetScan attrs (i + 1) (if start = -1 then i else start, i + 1)
      else targetScan attrs (i + 1) (start, stop)

def utf16ToUtf8Offset (units : List UInt16) (idx : Nat) : Int32 :=
  Int32.ofNat (fromUtf16Lossy (units.take (min idx units.length))).utf8ByteSize

def selectionSpan (attr : CompRead) (len : Nat) : Int × Int :=
  if attr.size > 0 then
    if attr.copied > 0 then
      let (start, stop) := targetScan (attr.attrs.takeD attr.size.toNat 0) 0 (-1, -1)
      if start ≠ -1 then (start, stop) else (0, len)
    else (0, len)
  else (0, len)

def getCompositionString (comp : CompRead) (cursor : Int) (attr : CompRead) :
    Option CompositionData :=
  if comp.size ≤ 0 then none
  else if comp.copied > 0 then
    let units := (unitBuffer (comp.size.toNat / 2) comp.units).take (comp.copied.toNat / 2)
    let cursor := if cursor < 0 then (units.length : Int) else cursor
    let (start, stop) := selectionSpan attr units.length
    some ⟨fromUtf16Lossy units, utf16ToUtf8Offset units cursor.toNat,
      utf16ToUtf8Offset units start.toNat, utf16ToUtf8Offset units stop.toNat⟩
  else none

inductive Fault
  | underflow
  | outOfBounds
  | misaligned
  | overflow
deriving DecidableEq

def headerSize : Nat := 24

def readU8 (buffer : List UInt8) (i : Nat) : Except Fault UInt8 :=
  match buffer[i]? with
  | some b => .ok b
  | none => .error .outOfBounds

def readU16 (buffer : List UInt8) (i : Nat) : Except Fault UInt16 := do
  let b0 ← readU8 buffer i
  let b1 ← readU8 buffer (i + 1)
  pure (b0.toUInt16 ||| (b1.toUInt16 <<< 8))

def readU32 (buffer : List UInt8) (i : Nat) : Except Fault UInt32 := do
  let lo ← readU16 buffer i
  let hi ← readU16 buffer (i + 2)
  pure (lo.toUInt32 ||| (hi.toUInt32 <<< 16))

/-- The table slots from `idx` on. Called with the number of slots that
`max_offset_slots` leaves. -/
def readSlots (buffer : List UInt8) : Nat → Nat → Except Fault (List UInt32)
  | _, 0 => .ok []
  | idx, n + 1 => do
      let slot ← readU32 buffer (headerSize + 4 * idx)
      let rest ← readSlots buffer (idx + 1) n
      pure (slot :: rest)

def unitsAt (buffer : List UInt8) (offset : Nat) : Nat → Except Fault (List UInt16)
  | 0 => .ok []
  | maxChars + 1 => do
      let u ← readU16 buffer offset
      if u = 0 then pure []
      else do
        let rest ← unitsAt buffer (offset + 2) maxChars
        pure (u :: rest)

/-- The string is read through a `*const u16`. The buffer itself is aligned by the heap, so
the offset decides; also a string of no units is made of the pointer. -/
def readUnits (buffer : List UInt8) (offset maxChars : Nat) : Except Fault (List UInt16) :=
  if offset % 2 = 1 then .error .misaligned else unitsAt buffer offset maxChars

/-- Where the real offsets start: slot 0, or after leading zero slots the first
slot that could be an offset into the buffer. -/
def baseIdx (slots : List UInt32) (size : UInt32) : Nat :=
  if slots.headD 0 = 0 then
    match slots.findIdx? (fun val => 0 < val && val < size) with
    | some idx => idx
    | none => 0
  else 0

def readCandidates (buffer : List UInt8) (size : Nat) (slots : List UInt32) :
    Nat → Nat → Except Fault (List CandidateProto)
  | _, 0 => .ok []
  | slot, count + 1 =>
      match slots[slot]? with
      | none => .ok []
      | some offset =>
          if offset.toNat = 0 ∨ size ≤ offset.toNat then
            readCandidates buffer size slots (slot + 1) count
          else do
            let units ← readUnits buffer offset.toNat ((size - offset.toNat) / 2)
            let rest ← readCandidates buffer size slots (slot + 1) count
            pure (⟨fromUtf16Lossy units, ""⟩ :: rest)

def menuWith (dwCount dwSelection dwPageStart dwPageSize : UInt32)
    (candidates : List CandidateProto) : MenuProto :=
  let pageSize : Int32 := if dwPageSize > 0 then dwPageSize.toInt32 else 10
  let pageNo : Int32 := if pageSize > 0 then dwPageStart.toInt32 / pageSize else 0
  ⟨candidates, pageSize, pageNo, false, dwSelection.toInt32, dwCount.toInt32, ""⟩

def getCandidateList (r : CandRead) : Except Fault (Option MenuProto) :=
  if r.size = 0 then .ok none
  else if r.copied = 0 then .ok none
  else do
    let size := r.size.toNat
    let buffer := r.bytes.takeD size 0
    let dwCount ← readU32 buffer 8
    if dwCount = 0 then pure none
    else if size < headerSize then .error .underflow
    else do
      let maxOffsetSlots := (size - headerSize) / 4
      let slots ← readSlots buffer 0 maxOffsetSlots
      let candidates ← readCandidates buffer size slots (baseIdx slots r.size) dwCount.toNat
      let dwPageSize ← readU32 buffer 20
      let dwPageStart ← readU32 buffer 16
      let dwSelection ← readU32 buffer 12
      pure (some (menuWith dwCount dwSelection dwPageStart dwPageSize candidates))

end RimeWinime.ImmOps
