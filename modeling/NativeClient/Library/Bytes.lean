import Mathlib.Algebra.Group.Nat.Defs
import Mathlib.Algebra.GroupWithZero.Nat
import Mathlib.Algebra.Group.Int.Defs
import Mathlib.Data.Nat.Basic

/-!
# Byte buffers

A buffer is a total function from offsets to bytes, so that a reader may look
past the part it was given; `AgreeOn` says which part two buffers share.
-/

namespace NativeClient.Library

theorem bits32 : 32 = 32 ∨ 32 = 64 := Or.inl rfl

theorem bits64 : 64 = 32 ∨ 64 = 64 := Or.inr rfl

theorem bundle32 : 32 = 16 ∨ 32 = 32 := Or.inr rfl

/-- `uint32_t` and `uint64_t` have a zero. -/
instance neZero32 : NeZero (2 ^ 32) := ⟨by decide⟩

instance neZero64 : NeZero (2 ^ 64) := ⟨by decide⟩

abbrev Buffer := Nat → UInt8

namespace Buffer

/-- A buffer holding `bytes`, and zero after them. -/
def ofList (bytes : List UInt8) : Buffer :=
  fun offset => bytes.getD offset 0

def fill (buffer : Buffer) (start count : Nat) (value : UInt8) : Buffer :=
  fun offset =>
    if start ≤ offset ∧ offset < start + count then value else buffer offset

def splice (buffer source : Buffer) (start count : Nat) : Buffer :=
  fun offset =>
    if start ≤ offset ∧ offset < start + count then source (offset - start)
    else buffer offset

/-- The two buffers hold the same bytes in `[start, stop)`. -/
def AgreeOn (buffer other : Buffer) (start stop : Nat) : Prop :=
  ∀ offset, start ≤ offset → offset < stop → buffer offset = other offset

/-- The same bytes seen from a base that is `start` bytes further on. -/
def shift (buffer : Buffer) (start : Nat) : Buffer :=
  fun offset => buffer (start + offset)

@[simp] theorem shift_apply (buffer : Buffer) (start offset : Nat) :
    buffer.shift start offset = buffer (start + offset) := rfl

theorem AgreeOn.refl (buffer : Buffer) (start stop : Nat) :
    AgreeOn buffer buffer start stop :=
  fun _ _ _ => rfl

variable {buffer other source : Buffer} {start stop count offset : Nat}

theorem AgreeOn.symm
    (agree : AgreeOn buffer other start stop) :
    AgreeOn other buffer start stop :=
  fun offset above below => (agree offset above below).symm

theorem AgreeOn.trans {first second third : Buffer}
    (left : AgreeOn first second start stop)
    (right : AgreeOn second third start stop) :
    AgreeOn first third start stop :=
  fun offset above below =>
    (left offset above below).trans (right offset above below)

theorem AgreeOn.mono {start' stop' : Nat}
    (agree : AgreeOn buffer other start stop)
    (above : start ≤ start') (below : stop' ≤ stop) :
    AgreeOn buffer other start' stop' :=
  fun offset lower upper =>
    agree offset (Nat.le_trans above lower) (Nat.lt_of_lt_of_le upper below)

theorem fill_inside
    {value : UInt8}
    (above : start ≤ offset) (below : offset < start + count) :
    buffer.fill start count value offset = value := by
  simp [fill, above, below]

theorem fill_outside
    {value : UInt8}
    (outside : offset < start ∨ start + count ≤ offset) :
    buffer.fill start count value offset = buffer offset := by
  unfold fill
  rw [if_neg]
  omega

theorem splice_inside
    (above : start ≤ offset) (below : offset < start + count) :
    buffer.splice source start count offset = source (offset - start) := by
  simp [splice, above, below]

theorem splice_outside
    (outside : offset < start ∨ start + count ≤ offset) :
    buffer.splice source start count offset = buffer offset := by
  unfold splice
  rw [if_neg]
  omega

@[simp] theorem shift_shift (buffer : Buffer) (start next : Nat) :
    (buffer.shift start).shift next = buffer.shift (start + next) := by
  funext offset
  simp only [shift_apply, Nat.add_assoc]

@[simp] theorem splice_none (buffer source : Buffer) (start : Nat) :
    buffer.splice source start 0 = buffer := by
  funext offset
  exact splice_outside (by omega)

theorem splice_splice (buffer source : Buffer) (start count more : Nat) :
    (buffer.splice source start count).splice (source.shift count)
        (start + count) more =
      buffer.splice source start (count + more) := by
  funext offset
  by_cases second : start + count ≤ offset ∧ offset < start + count + more
  · rw [splice_inside second.1 second.2, splice_inside (by omega) (by omega),
      shift_apply]
    congr 1
    omega
  · rw [splice_outside (by omega)]
    by_cases first : start ≤ offset ∧ offset < start + count
    · rw [splice_inside first.1 first.2, splice_inside (by omega) (by omega)]
    · rw [splice_outside (by omega), splice_outside (by omega)]

theorem splice_congr
    (agree : AgreeOn source other 0 count)
    (buffer : Buffer) (start : Nat) :
    buffer.splice source start count = buffer.splice other start count := by
  funext offset
  by_cases inside : start ≤ offset ∧ offset < start + count
  · rw [splice_inside inside.1 inside.2, splice_inside inside.1 inside.2]
    exact agree _ (Nat.zero_le _) (by omega)
  · rw [splice_outside (by omega), splice_outside (by omega)]

end Buffer

/-- A byte read as a two's complement number, `(int8_t)`. -/
def signed8 (byte : UInt8) : Int :=
  if byte.toNat < 128 then byte.toNat else byte.toNat - 256

/-- Four bytes read as a little endian word, `*(uint32_t*)`. -/
def word32 (buffer : Buffer) (offset : Nat) : Nat :=
  (buffer offset).toNat + (buffer (offset + 1)).toNat * 2 ^ 8 +
    (buffer (offset + 2)).toNat * 2 ^ 16 + (buffer (offset + 3)).toNat * 2 ^ 24

/-- Four bytes read as a little endian two's complement word, `*(int32_t*)`. -/
def signed32 (buffer : Buffer) (offset : Nat) : Int :=
  if word32 buffer offset < 2 ^ 31 then word32 buffer offset
  else word32 buffer offset - 2 ^ 32

def wrap32 (value : Int) : Nat :=
  (value % 2 ^ 32).toNat

theorem wrap32_lt (value : Int) : wrap32 value < 2 ^ 32 := by
  unfold wrap32
  have positive := Int.emod_nonneg value (b := 2 ^ 32) (by decide)
  have small := Int.emod_lt_of_pos value (b := 2 ^ 32) (by decide)
  omega

theorem wrap32_of_lt {value : Nat} (small : value < 2 ^ 32) :
    wrap32 value = value := by
  unfold wrap32
  rw [Int.emod_eq_of_lt (by omega) (by omega)]
  omega

theorem signed32_congr {buffer other : Buffer} {offset : Nat}
    (agree : buffer.AgreeOn other offset (offset + 4)) :
    signed32 buffer offset = signed32 other offset := by
  have first := agree offset (by omega) (by omega)
  have second := agree (offset + 1) (by omega) (by omega)
  have third := agree (offset + 2) (by omega) (by omega)
  have fourth := agree (offset + 3) (by omega) (by omega)
  have same : word32 buffer offset = word32 other offset := by
    unfold word32
    rw [first, second, third, fourth]
  unfold signed32
  rw [same]

end NativeClient.Library
