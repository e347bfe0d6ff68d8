import Mathlib.Algebra.Group.Nat.Defs
import Mathlib.Logic.Basic

namespace RimeWinime.LittleEndian

def encode : Nat → Nat → List UInt8
  | 0, _ => []
  | width + 1, n => UInt8.ofNat n :: encode width (n / 256)

def decode : List UInt8 → Nat
  | [] => 0
  | b :: bytes => b.toNat + 256 * decode bytes

@[simp] theorem length_encode (width n : Nat) : (encode width n).length = width := by
  induction width generalizing n with
  | zero => rfl
  | succ width ih => simp [encode, ih]

theorem decode_encode (width n : Nat) : decode (encode width n) = n % 256 ^ width := by
  induction width generalizing n with
  | zero => simp [encode, decode, Nat.mod_one]
  | succ width ih =>
      have hlow : (UInt8.ofNat n).toNat = n % 256 := by simp
      rw [encode, decode, ih, hlow, Nat.pow_succ', Nat.mod_mul]

theorem decode_encode_of_lt {width n : Nat} (h : n < 256 ^ width) : decode (encode width n) = n := by
  rw [decode_encode, Nat.mod_eq_of_lt h]

theorem encode_decode (bytes : List UInt8) : encode bytes.length (decode bytes) = bytes := by
  induction bytes with
  | nil => rfl
  | cons b bytes ih =>
      have hlow : UInt8.ofNat (b.toNat + 256 * decode bytes) = b := by
        apply UInt8.toNat_inj.mp
        rw [UInt8.toNat_ofNat', Nat.add_mul_mod_self_left, Nat.mod_eq_of_lt b.toNat_lt]
      have hhigh : (b.toNat + 256 * decode bytes) / 256 = decode bytes := by
        rw [Nat.add_mul_div_left _ _ (by omega), Nat.div_eq_of_lt b.toNat_lt, Nat.zero_add]
      rw [decode, List.length_cons, encode, hlow, hhigh, ih]

end RimeWinime.LittleEndian
