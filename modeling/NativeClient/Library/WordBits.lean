import Mathlib.Logic.Function.Basic
import Mathlib.Algebra.Group.Nat.Defs

/-!
# Bits in an array of words

A set of numbers as the bits of an array of 32 bit words, and the first number
that is not in it.
-/

namespace NativeClient.Library

abbrev Words := Nat → BitVec 32

namespace Words

def get (words : Words) (index : Nat) : Bool :=
  (words (index / 32)).getLsbD (index % 32)

def set (words : Words) (index : Nat) : Words :=
  Function.update words (index / 32)
    (words (index / 32) ||| 1#32 <<< (index % 32))

def clear (words : Words) (index : Nat) : Words :=
  Function.update words (index / 32)
    (words (index / 32) &&& ~~~(1#32 <<< (index % 32)))

private theorem getLsbD_shifted
    {shift bit : Nat} (small : bit < 32) :
    (1#32 <<< shift).getLsbD bit = decide (bit = shift) := by
  rw [BitVec.getLsbD_shiftLeft, BitVec.getLsbD_one]
  by_cases same : bit = shift
  · simp [same]
    omega
  · simp [same, small]
    omega

private theorem same_of_place
    {index other : Nat} (word : other / 32 = index / 32)
    (bit : other % 32 = index % 32) : other = index := by
  omega

theorem get_set (words : Words) (index other : Nat) :
    (words.set index).get other = (words.get other || decide (other = index)) := by
  rw [get, get, set]
  by_cases word : other / 32 = index / 32
  · rw [word, Function.update_self, BitVec.getLsbD_or,
      getLsbD_shifted (Nat.mod_lt _ (by decide))]
    congr 1
    rw [decide_eq_decide]
    constructor
    · exact same_of_place word
    · intro same
      rw [same]
  · rw [Function.update_of_ne word]
    have different : other ≠ index := by
      intro same
      rw [same] at word
      exact word rfl
    simp [different]

theorem get_clear (words : Words) (index other : Nat) :
    (words.clear index).get other =
      (words.get other && !decide (other = index)) := by
  rw [get, get, clear]
  by_cases word : other / 32 = index / 32
  · have small : other % 32 < 32 := Nat.mod_lt _ (by decide)
    rw [word, Function.update_self, BitVec.getLsbD_and, BitVec.getLsbD_not,
      getLsbD_shifted small, decide_eq_true small, Bool.true_and]
    congr 2
    rw [decide_eq_decide]
    constructor
    · exact same_of_place word
    · intro same
      rw [same]
  · rw [Function.update_of_ne word]
    have different : other ≠ index := by
      intro same
      rw [same] at word
      exact word rfl
    simp [different]

theorem eq_allOnes_iff (words : Words) (word : Nat) :
    words word = BitVec.allOnes 32 ↔
      ∀ index, index / 32 = word → words.get index = true := by
  constructor
  · intro full index same
    rw [get, same, full, BitVec.getLsbD_allOnes]
    exact decide_eq_true (Nat.mod_lt _ (by decide))
  · intro every
    apply BitVec.eq_of_getLsbD_eq
    intro bit below
    have member := every (32 * word + bit) (by omega)
    rw [get, Nat.mul_add_div (by decide), Nat.div_eq_of_lt below,
      Nat.add_zero, Nat.mul_add_mod, Nat.mod_eq_of_lt below] at member
    rw [member, BitVec.getLsbD_allOnes, decide_eq_true below]

end Words

def ffs (word : BitVec 32) : Nat :=
  match (List.range 32).find? fun bit => word.getLsbD bit with
  | some bit => bit + 1
  | none => 0

theorem Words.ffs_not
    (words : Words) {word : Nat} (missing : words word ≠ BitVec.allOnes 32) :
    ∃ bit, ffs (~~~ (words word)) = bit + 1 ∧ bit < 32 ∧
      words.get (32 * word + bit) = false ∧
      ∀ lower < bit, words.get (32 * word + lower) = true := by
  have place : ∀ bit < 32, words.get (32 * word + bit) =
      (words word).getLsbD bit := by
    intro bit below
    rw [get, Nat.mul_add_div (by decide), Nat.div_eq_of_lt below,
      Nat.add_zero, Nat.mul_add_mod, Nat.mod_eq_of_lt below]
  have flipped : ∀ bit < 32, (~~~ (words word)).getLsbD bit =
      !(words word).getLsbD bit := by
    intro bit below
    rw [BitVec.getLsbD_not, decide_eq_true below, Bool.true_and]
  rw [ffs]
  cases found : (List.range 32).find? fun bit =>
      (~~~ (words word)).getLsbD bit with
  | none =>
      apply absurd _ missing
      apply BitVec.eq_of_getLsbD_eq
      intro bit below
      have clear := List.find?_eq_none.mp found bit (List.mem_range.mpr below)
      rw [flipped bit below] at clear
      rw [BitVec.getLsbD_allOnes, decide_eq_true below]
      simpa using clear
  | some bit =>
      obtain ⟨here, before, after, split, lower⟩ :=
        List.find?_eq_some_iff_append.mp found
      have below : bit < 32 := by
        apply List.mem_range.mp
        rw [split]
        exact List.mem_append_right _ List.mem_cons_self
      refine ⟨bit, rfl, below, ?_, ?_⟩
      · rw [flipped bit below] at here
        rw [place bit below]
        simpa using here
      · intro earlier less
        have position : before.length = bit := by
          have entry : (List.range 32)[before.length]? = some bit := by
            rw [split]
            simp
          rw [List.getElem?_eq_some_iff] at entry
          obtain ⟨_, same⟩ := entry
          simpa using same
        have member : earlier ∈ before := by
          have entry : (List.range 32)[earlier]? = before[earlier]? := by
            rw [split, List.getElem?_append_left (by omega)]
          rw [List.getElem?_range (by omega)] at entry
          exact List.mem_of_getElem? entry.symm
        have clear := lower earlier member
        rw [flipped earlier (by omega)] at clear
        rw [place earlier (by omega)]
        simpa using clear

end NativeClient.Library
