import NativeClient.Library.Holding

/-!
# Directory entries

A `nacl_abi_dirent` starts with an inode number and an offset of 32 bits each,
the length of the record in 16 bits, and the name.
-/

namespace NativeClient.HostDir

open NativeClient.Library

def reclenOffset : Nat := 8

def nameOffset : Nat := 10

def naclInode : Nat := 0x6c43614e

def word16 (memory : Buffer) (offset : Nat) : Nat :=
  (memory offset).toNat + 256 * (memory (offset + 1)).toNat

def inodeStore (offset : Nat) : Store :=
  ⟨offset, littleEndian 4 naclInode⟩

theorem inodeStore_covers {offset address : Nat} :
    (inodeStore offset).Covers address ↔
      offset ≤ address ∧ address < offset + 4 := Iff.rfl

theorem word16_congr
    {memory other : Buffer} {offset : Nat}
    (first : memory offset = other offset)
    (second : memory (offset + 1) = other (offset + 1)) :
    word16 memory offset = word16 other offset := by
  unfold word16
  rw [first, second]

theorem word16_eq_numberAt (memory : Buffer) (offset : Nat) :
    word16 memory offset = numberAt memory offset 2 := by
  simp only [word16, numberAt, bytesAt, List.range_succ, List.range_zero,
    List.nil_append, List.cons_append, List.map_cons, List.map_nil,
    ofLittleEndian, Nat.add_zero, Nat.mul_zero]

theorem word16_of_holds
    {memory : Buffer} {offset value : Nat} (small : value < 2 ^ 16)
    (holds : Holds memory offset (littleEndian 2 value)) :
    word16 memory offset = value := by
  rw [word16_eq_numberAt, numberAt_of_holds small holds]

end NativeClient.HostDir
