import Mathlib.Data.Nat.Bitwise

/-!
# Address tables

A set of addresses kept as a bit vector: the byte at `address / 8` holds one
bit for each of eight neighbours, selected by a table of masks.
-/

namespace NativeClient.Library

abbrev AddressTable := Nat → UInt8

namespace AddressTable

def empty : AddressTable := fun _ => 0

/-- The mask of the bit that `address` has in its byte. -/
def mask (address : Nat) : UInt8 :=
  [0x01, 0x02, 0x04, 0x08, 0x10, 0x20, 0x40, 0x80].getD (address &&& 7) 0

def set (table : AddressTable) (address : Nat) : AddressTable :=
  Function.update table (address >>> 3)
    (table (address >>> 3) ||| mask address)

def clear (table : AddressTable) (address : Nat) : AddressTable :=
  Function.update table (address >>> 3)
    (table (address >>> 3) &&& ~~~(mask address))

/-- `table[address >> 3] & mask`, as a truth value. -/
def get (table : AddressTable) (address : Nat) : Bool :=
  table (address >>> 3) &&& mask address != 0

private theorem low_lt (address : Nat) : address &&& 7 < 8 := by
  have bound := Nat.and_le_right (n := address) (m := 7)
  omega

private theorem low_eq_mod (address : Nat) : address &&& 7 = address % 8 :=
  Nat.and_two_pow_sub_one_eq_mod address 3

private theorem mask_test (byte : UInt8) (bit : Fin 8) :
    (byte &&& [0x01, 0x02, 0x04, 0x08, 0x10, 0x20, 0x40, 0x80].getD bit 0
      != 0) = byte.toBitVec.getLsbD bit := by
  obtain ⟨value⟩ := byte
  revert value bit
  decide +kernel

private theorem mask_bit (address : Nat) (bit : Fin 8) :
    (mask address).toBitVec.getLsbD bit = decide (address % 8 = bit) := by
  have small := low_lt address
  rw [← low_eq_mod]
  unfold mask
  generalize address &&& 7 = low at small
  revert low
  revert bit
  decide +kernel

theorem get_eq_bit (table : AddressTable) (address : Nat) :
    table.get address =
      (table (address / 8)).toBitVec.getLsbD (address % 8) := by
  have test := mask_test (table (address >>> 3))
    ⟨address % 8, Nat.mod_lt _ (by omega)⟩
  simp only at test
  unfold get mask
  rw [low_eq_mod, test, Nat.shiftRight_eq_div_pow]

theorem get_empty (address : Nat) : empty.get address = false := by
  simp [get_eq_bit, empty]

private theorem same_address {first second : Nat}
    (byte : first / 8 = second / 8) :
    first % 8 = second % 8 ↔ first = second := by
  omega

theorem get_set (table : AddressTable) (added address : Nat) :
    (table.set added).get address =
      (decide (added = address) || table.get address) := by
  have bit := mask_bit added ⟨address % 8, Nat.mod_lt _ (by omega)⟩
  simp only at bit
  rw [get_eq_bit, get_eq_bit]
  unfold set
  rw [Nat.shiftRight_eq_div_pow]
  by_cases byte : added / 8 = address / 8
  · rw [show added / 2 ^ 3 = address / 8 from byte, Function.update_self,
      UInt8.toBitVec_or, BitVec.getLsbD_or, bit, Bool.or_comm]
    simp [same_address byte]
  · rw [Function.update_of_ne (fun same => byte same.symm)]
    have different : added ≠ address := fun same => byte (by rw [same])
    simp [different]

theorem get_clear (table : AddressTable) (removed address : Nat) :
    (table.clear removed).get address =
      (!decide (removed = address) && table.get address) := by
  have inByte : address % 8 < 8 := Nat.mod_lt _ (by omega)
  have bit := mask_bit removed ⟨address % 8, inByte⟩
  simp only at bit
  rw [get_eq_bit, get_eq_bit]
  unfold clear
  rw [Nat.shiftRight_eq_div_pow]
  by_cases byte : removed / 8 = address / 8
  · rw [show removed / 2 ^ 3 = address / 8 from byte, Function.update_self,
      UInt8.toBitVec_and, BitVec.getLsbD_and, UInt8.toBitVec_not,
      BitVec.getLsbD_not, bit, Bool.and_comm]
    simp [same_address byte, inByte]
  · rw [Function.update_of_ne (fun same => byte same.symm)]
    have different : removed ≠ address := fun same => byte (by rw [same])
    simp [different]

end AddressTable

end NativeClient.Library
