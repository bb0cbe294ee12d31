import Mathlib.Logic.Basic

/-!
# Binary search

`bsearch` looks for an index at which a comparison yields zero, as `bsearch`
of the C library does.  It finds one if there is one, provided that the
comparison falls along the table.
-/

namespace NativeClient.Library

/-- The search in the indices from `low` to below `high`. -/
def bsearch (compare : Nat → Int) (low high : Nat) : Option Nat :=
  if low < high then
    let middle := (low + high) / 2
    if compare middle < 0 then bsearch compare low middle
    else if 0 < compare middle then bsearch compare (middle + 1) high
    else some middle
  else none
termination_by high - low

/-- The comparison falls: behind an index that does not come before the key all
come behind it. -/
def Falls (compare : Nat → Int) (count : Nat) : Prop :=
  ∀ first second, first < second → second < count →
    compare first ≤ 0 → compare second < 0

variable {compare : Nat → Int}

theorem bsearch_some
    {low high found : Nat} (result : bsearch compare low high = some found) :
    low ≤ found ∧ found < high ∧ compare found = 0 := by
  fun_induction bsearch compare low high with
  | case1 low high inside middle below ih =>
      obtain ⟨least, most, zero⟩ := ih result
      exact ⟨least, by omega, zero⟩
  | case2 low high inside middle notBelow above ih =>
      obtain ⟨least, most, zero⟩ := ih result
      exact ⟨by omega, most, zero⟩
  | case3 low high inside middle notBelow notAbove =>
      have same : middle = found := Option.some.inj result
      have value : middle = (low + high) / 2 := rfl
      rw [← same]
      exact ⟨by omega, by omega, by omega⟩
  | case4 low high outside => cases result

theorem bsearch_none
    {count : Nat} (falls : Falls compare count) {low high : Nat}
    (most : high ≤ count) (result : bsearch compare low high = none) :
    ∀ index, low ≤ index → index < high → compare index ≠ 0 := by
  fun_induction bsearch compare low high with
  | case1 low high inside middle below ih =>
      intro index least less
      rcases Nat.lt_trichotomy index middle with before | same | behind
      · exact ih (by omega) result index least before
      · rw [same]
        omega
      · have negative := falls middle index behind (by omega) (by omega)
        omega
  | case2 low high inside middle notBelow above ih =>
      intro index least less
      rcases Nat.lt_trichotomy index middle with before | same | behind
      · intro zero
        have negative := falls index middle before (by omega) (by omega)
        omega
      · rw [same]
        omega
      · exact ih most result index behind less
  | case3 low high inside middle notBelow notAbove => cases result
  | case4 low high outside =>
      intro index least less
      omega

theorem bsearch_isSome_iff
    {count : Nat} (falls : Falls compare count) :
    (bsearch compare 0 count).isSome = true ↔
      ∃ index < count, compare index = 0 := by
  cases result : bsearch compare 0 count with
  | none =>
      refine iff_of_false nofun ?_
      rintro ⟨index, less, zero⟩
      exact bsearch_none falls (Nat.le_refl _) result index (Nat.zero_le _) less
        zero
  | some found =>
      obtain ⟨-, less, zero⟩ := bsearch_some result
      exact iff_of_true rfl ⟨found, less, zero⟩

end NativeClient.Library
