import Mathlib.Data.List.Basic
import Mathlib.Tactic.Ring

/-!
# Numbers as bytes, the low byte first

`littleEndian` writes a number in a given number of bytes and drops what does
not fit.  `ofLittleEndian` reads any list of bytes.
-/

namespace NativeClient.Library

def littleEndian : Nat → Nat → List UInt8
  | 0, _ => []
  | width + 1, value =>
      UInt8.ofNat (value % 256) :: littleEndian width (value / 256)

def ofLittleEndian : List UInt8 → Nat
  | [] => 0
  | byte :: bytes => byte.toNat + 256 * ofLittleEndian bytes

@[simp] theorem length_littleEndian (width value : Nat) :
    (littleEndian width value).length = width := by
  induction width generalizing value with
  | zero => rfl
  | succ width ih => rw [littleEndian, List.length_cons, ih]

theorem ofLittleEndian_littleEndian_mod (width value : Nat) :
    ofLittleEndian (littleEndian width value) = value % 256 ^ width := by
  induction width generalizing value with
  | zero => simp only [littleEndian, ofLittleEndian, Nat.pow_zero, Nat.mod_one]
  | succ width ih =>
      have split : value % 256 ^ (width + 1) =
          value % 256 + 256 * (value / 256 % 256 ^ width) := by
        rw [Nat.pow_succ, Nat.mul_comm, Nat.mod_mul]
      rw [littleEndian, ofLittleEndian, ih, UInt8.toNat_ofNat', split]
      omega

theorem ofLittleEndian_littleEndian
    {width value : Nat} (small : value < 256 ^ width) :
    ofLittleEndian (littleEndian width value) = value := by
  rw [ofLittleEndian_littleEndian_mod, Nat.mod_eq_of_lt small]

theorem littleEndian_ofLittleEndian (bytes : List UInt8) :
    littleEndian bytes.length (ofLittleEndian bytes) = bytes := by
  induction bytes with
  | nil => rfl
  | cons byte bytes ih =>
      have small := byte.toNat_lt
      have low : (byte.toNat + 256 * ofLittleEndian bytes) % 256 = byte.toNat := by
        omega
      have high : (byte.toNat + 256 * ofLittleEndian bytes) / 256 =
          ofLittleEndian bytes := by
        omega
      rw [List.length_cons, ofLittleEndian, littleEndian, low, high, ih,
        UInt8.ofNat_toNat]

theorem take_littleEndian {width shorter : Nat} (value : Nat) (le : shorter ≤ width) :
    (littleEndian width value).take shorter = littleEndian shorter value := by
  induction shorter generalizing width value with
  | zero => rfl
  | succ shorter ih =>
      obtain ⟨width, rfl⟩ : ∃ rest, width = rest + 1 := ⟨width - 1, by omega⟩
      rw [littleEndian, littleEndian, List.take_succ_cons, ih _ (by omega)]

theorem ofLittleEndian_lt (bytes : List UInt8) :
    ofLittleEndian bytes < 256 ^ bytes.length := by
  induction bytes with
  | nil => simp [ofLittleEndian]
  | cons byte bytes ih =>
      have small := byte.toNat_lt
      rw [ofLittleEndian, List.length_cons, Nat.pow_succ]
      omega

end NativeClient.Library
