import Mathlib.Order.Lattice
import Mathlib.Logic.Function.Basic

/-!
# Sorted slots

The first `count` cells of an array, kept sorted by a key: shifting one cell
in or out of the array, and the search for the last cell whose key is at most
a given one.  The search halves the range while it is long and scans what is
left.
-/

namespace NativeClient.Library

variable {α κ : Type}

/-- Put `item` at `index` and move the `count` cells from there on up by one,
swapping cell after cell. -/
def insertShift (slots : Nat → α) (item : α) (index : Nat) :
    Nat → Nat → α
  | 0 => Function.update slots index item
  | count + 1 =>
      insertShift (Function.update slots index item) (slots index) (index + 1)
        count

/-- Overwrite the cell at `index` by moving the `count` cells after it down
by one. -/
def removeShift (slots : Nat → α) (index : Nat) : Nat → Nat → α
  | 0 => slots
  | count + 1 =>
      removeShift (Function.update slots index (slots (index + 1))) (index + 1)
        count

theorem insertShift_apply
    (slots : Nat → α) (item : α) (index count position : Nat) :
    insertShift slots item index count position =
      if position < index then slots position
      else if position = index then item
      else if position ≤ index + count then slots (position - 1)
      else slots position := by
  induction count generalizing slots item index with
  | zero =>
      rw [insertShift, Function.update_apply]
      split_ifs <;> first | rfl | omega
  | succ count ih =>
      rw [insertShift, ih]
      simp only [Function.update_apply]
      split_ifs <;> first | rfl | omega | skip
      · congr 1
        omega

theorem removeShift_apply
    (slots : Nat → α) (index count position : Nat) :
    removeShift slots index count position =
      if index ≤ position ∧ position < index + count then slots (position + 1)
      else slots position := by
  induction count generalizing slots index with
  | zero =>
      rw [removeShift, if_neg (by omega)]
  | succ count ih =>
      rw [removeShift, ih]
      simp only [Function.update_apply]
      split_ifs <;> first | rfl | omega | skip
      · congr 1
        omega

section Search

variable [LinearOrder κ]

/-- The keys of the first `count` cells increase. -/
def SortedBy (key : α → κ) (slots : Nat → α) (count : Nat) : Prop :=
  ∀ lower upper, lower < upper → upper < count →
    key (slots lower) < key (slots upper)

/-- `index` is the last of the first `count` cells with a key of at most
`bound`. -/
structure IsClosest (key : α → κ) (slots : Nat → α) (count : Nat) (bound : κ)
    (index : Nat) : Prop where
  inside : index < count
  atMost : key (slots index) ≤ bound
  later : ∀ other, index < other → other < count → bound < key (slots other)

/-- `while (begin + cutoff + 1 < end)`: halve the range, keeping a key of at
most `bound` at its begin. -/
def bisect (key : α → κ) (slots : Nat → α) (bound : κ) (cutoff : Nat) :
    Nat → Nat → Nat → Nat × Nat
  | 0, first, last => (first, last)
  | fuel + 1, first, last =>
      if first + cutoff + 1 < last then
        if key (slots (first + (last - first) / 2)) ≤ bound then
          bisect key slots bound cutoff fuel (first + (last - first) / 2) last
        else
          bisect key slots bound cutoff fuel first (first + (last - first) / 2)
      else
        (first, last)

/-- `while (begin + 1 < end && key[begin + 1] <= bound)`: step to the next
cell. -/
def scan (key : α → κ) (slots : Nat → α) (bound : κ) :
    Nat → Nat → Nat → Nat
  | 0, first, _ => first
  | fuel + 1, first, last =>
      if first + 1 < last ∧ key (slots (first + 1)) ≤ bound then
        scan key slots bound fuel (first + 1) last
      else
        first

structure Brackets (key : α → κ) (slots : Nat → α) (count : Nat) (bound : κ)
    (first last : Nat) : Prop where
  ordered : first < last
  inside : last ≤ count
  atMost : key (slots first) ≤ bound
  later : ∀ other, last ≤ other → other < count → bound < key (slots other)

variable {key : α → κ} {slots : Nat → α} {count : Nat} {bound : κ}

theorem Brackets.bisect
    (sorted : SortedBy key slots count) (cutoff fuel : Nat)
    {first last : Nat} (brackets : Brackets key slots count bound first last)
    (enough : last - first ≤ fuel) :
    Brackets key slots count bound
        (bisect key slots bound cutoff fuel first last).1
        (bisect key slots bound cutoff fuel first last).2 ∧
      (bisect key slots bound cutoff fuel first last).2 ≤
        (bisect key slots bound cutoff fuel first last).1 + cutoff + 1 := by
  induction fuel generalizing first last with
  | zero =>
      have ordered := brackets.ordered
      omega
  | succ fuel ih =>
      have ordered := brackets.ordered
      have inside := brackets.inside
      rw [Library.bisect]
      split_ifs with long low
      · apply ih
        · exact ⟨by omega, inside, low, brackets.later⟩
        · omega
      · apply ih
        · refine ⟨by omega, by omega, brackets.atMost, ?_⟩
          intro other from_ below
          rcases Nat.eq_or_lt_of_le from_ with same | after
          · rw [← same]
            exact lt_of_not_ge low
          · exact lt_trans (lt_of_not_ge low) (sorted _ _ after below)
        · omega
      · exact ⟨brackets, by omega⟩

theorem Brackets.scan
    (sorted : SortedBy key slots count) (fuel : Nat)
    {first last : Nat} (brackets : Brackets key slots count bound first last)
    (enough : last - first ≤ fuel) :
    IsClosest key slots count bound (scan key slots bound fuel first last) := by
  induction fuel generalizing first with
  | zero =>
      have ordered := brackets.ordered
      omega
  | succ fuel ih =>
      have ordered := brackets.ordered
      have inside := brackets.inside
      rw [Library.scan]
      split_ifs with next
      · apply ih
        · exact ⟨next.1, inside, next.2, brackets.later⟩
        · omega
      · refine ⟨by omega, brackets.atMost, ?_⟩
        intro other after below
        by_cases more : first + 1 < last
        · have above : bound < key (slots (first + 1)) :=
            lt_of_not_ge (fun low => next ⟨more, low⟩)
          rcases Nat.eq_or_lt_of_le (Nat.succ_le_of_lt after) with same | past
          · rw [← same]
            exact above
          · exact lt_trans above (sorted _ _ past below)
        · exact brackets.later other (by omega) below

end Search

end NativeClient.Library
