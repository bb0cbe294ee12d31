import NativeClient.Library.Bytes

/-!
# Masks of low bits

A word and a mask of its low bits, or of all but these, as a remainder and as
a multiple of a power of two.
-/

namespace NativeClient.Library

variable {width : Nat} {mask : BitVec width}

theorem toNat_and_low
    (value : BitVec width) {shift : Nat} (masked : mask.toNat = 2 ^ shift - 1) :
    (value &&& mask).toNat = value.toNat % 2 ^ shift := by
  rw [BitVec.toNat_and, masked, Nat.and_two_pow_sub_one_eq_mod]

theorem toNat_and_not_low
    (value : BitVec width) {shift : Nat} (masked : mask.toNat = 2 ^ shift - 1) :
    (value &&& ~~~mask).toNat = value.toNat - value.toNat % 2 ^ shift := by
  have parts : value &&& ~~~mask = value - (value &&& mask) := by
    rw [BitVec.eq_sub_iff_add_eq, BitVec.add_eq_or_of_and_eq_zero]
    · ext bit inside
      simp only [BitVec.getElem_or, BitVec.getElem_and, BitVec.getElem_not]
      cases value[bit] <;> cases mask[bit] <;> rfl
    · ext bit inside
      simp only [BitVec.getElem_and, BitVec.getElem_not, BitVec.getElem_zero]
      cases value[bit] <;> cases mask[bit] <;> rfl
  have low := toNat_and_low value masked
  rw [parts, BitVec.toNat_sub_of_le, low]
  rw [BitVec.le_def, low]
  exact Nat.mod_le _ _

end NativeClient.Library
