import NativeClient.Library.Bytes
import NativeClient.Library.WordScan

/-!
# Sets of word addresses

A set of the words of an address range, one bit for each word.  Addresses
outside of the range are silently left out.  An iterator yields the members in
ascending order.
-/

namespace NativeClient.ValidatorArm

open NativeClient.Library

structure AddressSet where
  base : Nat
  size : Nat
  bits : Words

namespace AddressSet

def empty (base size : Nat) : AddressSet where
  base := base
  size := size
  bits := fun _ => 0

def offset (set : AddressSet) (address : Nat) : Nat :=
  wrap32 ((address : Int) - set.base)

def add (set : AddressSet) (address : Nat) : AddressSet :=
  if set.offset address < set.size then
    { set with bits := set.bits.set (set.offset address / 4) }
  else
    set

def contains (set : AddressSet) (address : Nat) : Bool :=
  if set.offset address < set.size then
    set.bits.get (set.offset address / 4)
  else
    false

structure Iterator where
  index : Nat
  shift : Nat
deriving DecidableEq

def maxIndex (set : AddressSet) : Nat :=
  wrap32 (set.size + 3 : Nat) / 4

def advance (set : AddressSet) (it : Iterator) : Iterator :=
  let found := scanWords set.bits (set.maxIndex - it.index) it.index it.shift
  ⟨found.1, found.2⟩

def begin (set : AddressSet) : Iterator :=
  set.advance ⟨0, 0⟩

def finish (set : AddressSet) : Iterator :=
  set.advance ⟨set.maxIndex, 0⟩

def next (set : AddressSet) (it : Iterator) : Iterator :=
  set.advance { it with shift := it.shift + 1 }

def deref (set : AddressSet) (it : Iterator) : Nat :=
  wrap32 (set.base + 4 * (it.index * 32 + it.shift) : Nat)

def InRange (set : AddressSet) (address : Nat) : Prop :=
  set.offset address < set.size

@[simp] theorem base_add (set : AddressSet) (address : Nat) :
    (set.add address).base = set.base := by
  unfold add
  split <;> rfl

@[simp] theorem size_add (set : AddressSet) (address : Nat) :
    (set.add address).size = set.size := by
  unfold add
  split <;> rfl

private theorem offset_add (set : AddressSet) (address other : Nat) :
    (set.add address).offset other = set.offset other := by
  rw [offset, offset, base_add]

theorem contains_iff (set : AddressSet) (address : Nat) :
    set.contains address = true ↔
      set.InRange address ∧ set.bits.get (set.offset address / 4) = true := by
  unfold contains InRange
  by_cases inside : set.offset address < set.size
  · rw [if_pos inside]
    simp [inside]
  · rw [if_neg inside]
    simp [inside]

theorem contains_add (set : AddressSet) (address other : Nat) :
    (set.add address).contains other = true ↔
      set.contains other = true ∨
        (set.InRange address ∧ set.InRange other ∧
          set.offset other / 4 = set.offset address / 4) := by
  rw [contains_iff, contains_iff, InRange, InRange, InRange, offset_add,
    size_add]
  by_cases inside : set.offset address < set.size
  · have bits : (set.add address).bits =
        set.bits.set (set.offset address / 4) := by
      rw [add, if_pos inside]
    rw [bits, Words.get_set]
    simp only [Bool.or_eq_true, decide_eq_true_eq, inside, true_and]
    constructor
    · rintro ⟨range, old | same⟩
      · exact .inl ⟨range, old⟩
      · exact .inr ⟨range, same⟩
    · rintro (⟨range, old⟩ | ⟨range, same⟩)
      · exact ⟨range, .inl old⟩
      · exact ⟨range, .inr same⟩
  · rw [add, if_neg inside]
    simp [inside]

variable {set : AddressSet} {address : Nat} {it : Iterator}

theorem contains_add_of_contains
    {other : Nat} (address : Nat)
    (member : set.contains other = true) :
    (set.add address).contains other = true :=
  (contains_add set address other).mpr (.inl member)

theorem contains_add_self
    (inside : set.InRange address) :
    (set.add address).contains address = true :=
  (contains_add set address address).mpr (.inr ⟨inside, inside, rfl⟩)

def Iterator.place (it : Iterator) : Nat :=
  32 * it.index + it.shift

structure Valid (set : AddressSet) (it : Iterator) : Prop where
  stops : it = ⟨set.maxIndex, 0⟩ ∨
    (it.index < set.maxIndex ∧ it.shift < 32 ∧
      set.bits.get it.place = true)

theorem finish_eq (set : AddressSet) :
    set.finish = ⟨set.maxIndex, 0⟩ := by
  rw [finish, advance, Nat.sub_self, scanWords]

private theorem advance_spec
    {set : AddressSet} {it : Iterator} (small : it.shift ≤ 32)
    (inside : it.index < set.maxIndex ∨
      (it.index = set.maxIndex ∧ it.shift = 0)) :
    set.Valid (set.advance it) ∧
      ∀ place, it.place ≤ place → place < (set.advance it).place →
        set.bits.get place = false := by
  obtain ⟨index, shift, run, between, stop⟩ :=
    @scanWords_spec set.bits (set.maxIndex - it.index) it.index it.shift small
      (by omega)
  have moved : set.advance it = ⟨index, shift⟩ := by
    rw [advance, run]
  rw [moved]
  refine ⟨⟨?_⟩, between⟩
  rcases stop with ⟨last, zero⟩ | ⟨before, low, -, member⟩
  · left
    rw [last, zero]
    congr 1
    omega
  · exact .inr ⟨by simp only; omega, low, member⟩

theorem begin_spec (set : AddressSet) :
    set.Valid set.begin ∧
      ∀ place < set.begin.place, set.bits.get place = false := by
  have inside : 0 < set.maxIndex ∨ (0 = set.maxIndex ∧ 0 = 0) := by omega
  obtain ⟨valid, skipped⟩ :=
    @advance_spec set ⟨0, 0⟩ (Nat.zero_le 32) inside
  refine ⟨valid, ?_⟩
  intro place below
  exact skipped place (Nat.zero_le _) below

theorem next_spec
    (valid : set.Valid it)
    (more : it ≠ set.finish) :
    set.Valid (set.next it) ∧
      ∀ place, it.place < place → place < (set.next it).place →
        set.bits.get place = false := by
  rw [finish_eq] at more
  obtain ⟨inside, low, -⟩ := valid.stops.resolve_left more
  obtain ⟨stands, skipped⟩ :=
    @advance_spec set { it with shift := it.shift + 1 }
      (by simp only; omega) (.inl inside)
  refine ⟨stands, ?_⟩
  intro place above below
  apply skipped place _ below
  unfold Iterator.place at above ⊢
  simp only
  omega

theorem place_lt_next
    (valid : set.Valid it)
    (more : it ≠ set.finish) : it.place < (set.next it).place := by
  rw [finish_eq] at more
  obtain ⟨inside, low, -⟩ := valid.stops.resolve_left more
  obtain ⟨index, shift, run, -, stop⟩ :=
    @scanWords_spec set.bits (set.maxIndex - it.index) it.index (it.shift + 1)
      (by omega) (by omega)
  have moved : set.next it = ⟨index, shift⟩ := by
    rw [next, advance, run]
  rw [moved]
  unfold Iterator.place
  rcases stop with ⟨last, zero⟩ | ⟨-, -, after, -⟩
  · simp only
    omega
  · simp only
    omega

theorem place_lt_finish
    (words : set.size % 4 = 0)
    (small : set.size < 2 ^ 32) (inside : set.InRange address) :
    set.offset address / 4 < set.finish.place := by
  have room : wrap32 (set.size + 3 : Nat) = set.size + 3 :=
    wrap32_of_lt (by omega)
  rw [finish_eq]
  unfold InRange at inside
  unfold Iterator.place maxIndex
  simp only [room]
  omega

theorem deref_of_place
    (baseSmall : set.base < 2 ^ 32) (small : address < 2 ^ 32)
    (aligned : address % 4 = set.base % 4)
    (here : it.place = set.offset address / 4) :
    set.deref it = address := by
  unfold Iterator.place offset wrap32 at here
  unfold deref wrap32
  simp only [Nat.reducePow] at *
  omega

end AddressSet

end NativeClient.ValidatorArm
