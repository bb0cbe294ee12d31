import Mathlib.Order.Nat
import Mathlib.Tactic.Common
import Mathlib.Algebra.Group.Nat.Defs

/-!
# Words, pages and addresses

Sums of values of type `uintptr_t` wrap around.  The addresses of an untrusted
program are those below `2 ^ addr_bits`, as offsets from `mem_start`; `0` is
none of them.
-/

namespace NativeClient

/-! ## Constants -/

def eio : Int := 5
def ebadf : Int := 9
def eagain : Int := 11
def enomem : Int := 12
def efault : Int := 14
def einval : Int := 22
def eoverflow : Int := 75

def naclPageshift : Nat := 12

def naclPagesize : Nat := 4096

def naclMapPageshift : Nat := 16

def naclMapPagesize : Nat := 65536

def pagesPerMap : Nat := 16

def naclHaltSledSize : Nat := 32

namespace Runtime

/-! ## Words -/

def wrapWord (wordBits value : Nat) : Nat :=
  value % 2 ^ wordBits

theorem wrapWord_of_lt
    {wordBits value : Nat} (small : value < 2 ^ wordBits) :
    wrapWord wordBits value = value :=
  Nat.mod_eq_of_lt small

structure WordSize where
  bits : Nat
  word : bits = 32 ∨ bits = 64

namespace WordSize

variable (size : WordSize)

def sizeMax : Nat := 2 ^ size.bits - 1

def pointerBytes : Nat := size.bits / 8

def wrap (value : Nat) : Nat := value % 2 ^ size.bits

def sub (left right : Nat) : Nat :=
  size.wrap (left + 2 ^ size.bits - right)

theorem pointerBytes_pos : 4 ≤ size.pointerBytes := by
  rw [pointerBytes]
  rcases size.word with narrow | wide
  · rw [narrow]
  · rw [wide]
    decide

variable {size}

theorem wrap_of_lt
    {value : Nat} (small : value < 2 ^ size.bits) : size.wrap value = value :=
  Nat.mod_eq_of_lt small

theorem sub_of_le
    (size : WordSize) {left right : Nat} (ordered : right ≤ left)
    (small : left < 2 ^ size.bits) : size.sub left right = left - right := by
  rw [sub, wrap, Nat.add_comm, Nat.add_sub_assoc ordered, Nat.add_mod_left]
  exact Nat.mod_eq_of_lt (by omega)

end WordSize

def naClRoundPage (size : WordSize) (nbytes : Nat) : Nat :=
  size.wrap (nbytes + naclPagesize - 1) / naclPagesize * naclPagesize

def naClRoundAllocPage (size : WordSize) (nbytes : Nat) : Nat :=
  size.wrap (nbytes + naclMapPagesize - 1) / naclMapPagesize * naclMapPagesize

def naClTruncAllocPage (nbytes : Nat) : Nat :=
  nbytes / naclMapPagesize * naclMapPagesize

/-! ## Addresses -/

/-- What the translations read of `struct NaClApp`. -/
structure AddressSpace where
  wordBits : Nat
  addrBits : Nat
  memStart : Nat

namespace AddressSpace

variable (space : AddressSpace)

def kNaClBadAddress : Nat := 2 ^ space.wordBits - 1

def naClUserToSysAddr (uaddr : Nat) : Nat :=
  if uaddr = 0 ∨ 2 ^ space.addrBits ≤ uaddr then
    space.kNaClBadAddress
  else
    wrapWord space.wordBits (uaddr + space.memStart)

def naClUserToSysAddrRange (uaddr count : Nat) : Nat :=
  if uaddr = 0 then
    space.kNaClBadAddress
  else if wrapWord space.wordBits (uaddr + count) < uaddr then
    space.kNaClBadAddress
  else if 2 ^ space.addrBits ≤ wrapWord space.wordBits (uaddr + count) then
    space.kNaClBadAddress
  else
    wrapWord space.wordBits (uaddr + space.memStart)

/-- `none` is the fatal error. -/
def naClUserToSys (uaddr : Nat) : Option Nat :=
  if uaddr = 0 ∨ 2 ^ space.addrBits ≤ uaddr then
    none
  else
    some (wrapWord space.wordBits (uaddr + space.memStart))

def naClSysToUser (sysaddr : Nat) : Option Nat :=
  if sysaddr < space.memStart ∨
      wrapWord space.wordBits (space.memStart + 2 ^ space.addrBits) ≤
        sysaddr then
    none
  else
    some (sysaddr - space.memStart)

variable {space} {uaddr count sysaddr : Nat}

theorem naClUserToSysAddr_good
    (good : space.naClUserToSysAddr uaddr ≠ space.kNaClBadAddress) :
    uaddr < 2 ^ space.addrBits := by
  by_contra beyond
  exact good (if_pos (.inr (Nat.le_of_not_lt beyond)))

theorem naClUserToSysAddrRange_good
    (inside : space.memStart + 2 ^ space.addrBits ≤ 2 ^ space.wordBits)
    (counted : count < 2 ^ space.wordBits)
    (good : space.naClUserToSysAddrRange uaddr count ≠ space.kNaClBadAddress) :
    space.naClUserToSysAddrRange uaddr count = space.memStart + uaddr ∧
      uaddr ≠ 0 ∧ uaddr + count < 2 ^ space.addrBits := by
  rw [naClUserToSysAddrRange] at good ⊢
  split_ifs at good ⊢ with null wraps outside
  · exact absurd rfl good
  · exact absurd rfl good
  · exact absurd rfl good
  have unwrapped : uaddr + count < 2 ^ space.wordBits := by
    by_contra overflow
    have remainder := Nat.mod_lt (uaddr + count) (Nat.two_pow_pos space.wordBits)
    unfold wrapWord at wraps
    by_cases huge : 2 ^ space.wordBits ≤ uaddr
    · omega
    · rw [Nat.mod_eq_sub_mod (not_lt.mp overflow),
        Nat.mod_eq_of_lt (by omega)] at wraps
      omega
  rw [wrapWord_of_lt unwrapped] at outside
  refine ⟨?_, null, not_le.mp outside⟩
  rw [wrapWord_of_lt (by omega), Nat.add_comm]

theorem naClUserToSys_eq
    (inside : space.memStart + 2 ^ space.addrBits ≤ 2 ^ space.wordBits)
    (positive : 0 < uaddr) (small : uaddr < 2 ^ space.addrBits) :
    space.naClUserToSys uaddr = some (space.memStart + uaddr) := by
  rw [naClUserToSys, if_neg (by omega), wrapWord_of_lt (by omega),
    Nat.add_comm]

theorem naClUserToSys_some
    (inside : space.memStart + 2 ^ space.addrBits ≤ 2 ^ space.wordBits)
    (run : space.naClUserToSys uaddr = some sysaddr) :
    sysaddr = space.memStart + uaddr ∧ 0 < uaddr ∧
      uaddr < 2 ^ space.addrBits := by
  rw [naClUserToSys] at run
  split_ifs at run with outside
  cases run
  rw [wrapWord_of_lt (by omega), Nat.add_comm]
  omega

theorem naClSysToUser_eq
    (above : space.memStart ≤ sysaddr)
    (below : sysaddr < space.memStart + 2 ^ space.addrBits)
    (last : space.memStart + 2 ^ space.addrBits < 2 ^ space.wordBits) :
    space.naClSysToUser sysaddr = some (sysaddr - space.memStart) := by
  rw [naClSysToUser, wrapWord_of_lt last, if_neg (by omega)]

theorem naClSysToUser_some
    {found : Nat}
    (run : space.naClSysToUser sysaddr = some found) :
    found = sysaddr - space.memStart := by
  rw [naClSysToUser] at run
  split_ifs at run
  cases run
  rfl

end AddressSpace

end Runtime

end NativeClient
