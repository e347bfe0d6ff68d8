import RimeWinime.Host.Win32

namespace RimeWinime.VkMap

open Win32

def shiftedSymbols : List UInt32 :=
  [0x21, 0x40, 0x23, 0x24, 0x25, 0x5E, 0x26, 0x2A, 0x28, 0x29, 0x7E, 0x5F, 0x2B, 0x7B, 0x7D,
    0x7C, 0x3A, 0x22, 0x3C, 0x3E, 0x3F]

def isShiftedChar (keycode : UInt32) : Bool :=
  shiftedSymbols.contains keycode || (0x41 ≤ keycode && keycode ≤ 0x5A)

/-- The keysyms `rime_to_vk` lists one by one, with their virtual keys. -/
def listedKeys : List (UInt32 × UInt16) :=
  [(0xFF08, 0x08), (0xFF09, 0x09), (0xFF0D, 0x0D), (0xFF1B, 0x1B), (0x20, 0x20),
    (0xFF50, 0x24), (0xFF51, 0x25), (0xFF52, 0x26), (0xFF53, 0x27), (0xFF54, 0x28),
    (0xFF55, 0x21), (0xFF56, 0x22), (0xFF57, 0x23), (0xFF63, 0x2D), (0xFFFF, 0x2E),
    -- modifier keys
    (0xFFE1, 0xA0), (0xFFE2, 0xA1), (0xFFE3, 0xA2), (0xFFE4, 0xA3), (0xFFE9, 0xA4),
    (0xFFEA, 0xA5), (0xFFE5, 0x14), (0xFFEB, 0x5B), (0xFFEC, 0x5C), (0xFF67, 0xFE),
    -- punctuation
    (0x3B, 0xBA), (0x3A, 0xBA), (0x3D, 0xBB), (0x2B, 0xBB), (0x2C, 0xBC), (0x3C, 0xBC),
    (0x2D, 0xBD), (0x5F, 0xBD), (0x2E, 0xBE), (0x3E, 0xBE), (0x2F, 0xBF), (0x3F, 0xBF),
    (0x60, 0xC0), (0x7E, 0xC0), (0x5B, 0xDB), (0x7B, 0xDB), (0x5C, 0xDC), (0x7C, 0xDC),
    (0x5D, 0xDD), (0x7D, 0xDD), (0x27, 0xDE), (0x22, 0xDE),
    -- shifted digits
    (0x21, 0x31), (0x40, 0x32), (0x23, 0x33), (0x24, 0x34), (0x25, 0x35), (0x5E, 0x36),
    (0x26, 0x37), (0x2A, 0x38), (0x28, 0x39), (0x29, 0x30)]

def rimeToVk (vkKeyScan : UInt16 → UInt16) (keycode : UInt32) : UInt16 :=
  match listedKeys.lookup keycode with
  | some vk => vk
  | none =>
      if 0x41 ≤ keycode ∧ keycode ≤ 0x5A then keycode.toUInt16
      else if 0x61 ≤ keycode ∧ keycode ≤ 0x7A then (keycode - 0x20).toUInt16
      else if 0x30 ≤ keycode ∧ keycode ≤ 0x39 then keycode.toUInt16
      else if keycode < 0x7F then vkKeyScan keycode.toUInt16 &&& 0xFF
      else keycode.toUInt16

def KF_ALTDOWN : UInt32 := 0x2000
def KF_REPEAT : UInt32 := 0x4000
def KF_UP : UInt32 := 0x8000

def makeLKeyData (mapVirtualKey : UInt32 → UInt32) (vk : UInt16) (isKeyup isAlt : Bool) : UInt32 :=
  let scan := mapVirtualKey vk.toUInt32 &&& 0xFF
  let hi := if isKeyup then scan ||| (KF_REPEAT ||| KF_UP) else scan
  let hi := if isAlt then hi ||| KF_ALTDOWN else hi
  let repeatCount : UInt32 := 1
  let lo : UInt32 := repeatCount &&& 0xFFFF
  lo ||| hi <<< 16

end RimeWinime.VkMap
