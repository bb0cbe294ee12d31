import NativeClient.Library.Loop
import Mathlib.Data.Int.GCD
import Mathlib.Data.Nat.ModEq
import Mathlib.Logic.Function.Iterate

/-!
# Search by probing

A search goes on from one place to the next until it stops.  When the places
are those of a ring and the stride is co-prime with its size, the search comes
to every place within one turn round the ring.
-/

namespace NativeClient.Library

section Search

variable {σ : Type} (stop : σ → Bool) (next : σ → σ)

def searchTurn (state : σ) : Turn σ σ :=
  if stop state then .leave state else .again (next state)

variable {stop next}

theorem runLoop_searchTurn
    {steps fuel : Nat} {state : σ}
    (found : stop (next^[steps] state) = true) (enough : steps < fuel) :
    ∃ first ≤ steps,
      runLoop (searchTurn stop next) fuel state = some (next^[first] state) ∧
        stop (next^[first] state) = true ∧
        ∀ earlier < first, stop (next^[earlier] state) = false := by
  induction fuel generalizing state steps with
  | zero => omega
  | succ fuel ih =>
      rw [runLoop, searchTurn]
      cases here : stop state with
      | true =>
          rw [if_pos rfl]
          exact ⟨0, Nat.zero_le _, rfl, here,
            fun _ earlier => absurd earlier (Nat.not_lt_zero _)⟩
      | false =>
          rw [if_neg (by decide)]
          cases steps with
          | zero => exact absurd found (by simp [here])
          | succ steps =>
              obtain ⟨first, within, ended, stops, before⟩ :=
                @ih steps (next state) found (by omega)
              refine ⟨first + 1, by omega, ended, stops, ?_⟩
              intro earlier less
              cases earlier with
              | zero => exact here
              | succ earlier => exact before earlier (by omega)

theorem not_returns_searchTurn
    {state : σ} (never : ∀ steps, stop (next^[steps] state) = false)
    {result : σ} : ¬ Returns (searchTurn stop next) state result := by
  refine not_returns_of_invariant (fun current => ∃ steps,
    current = next^[steps] state) ?_ ⟨0, rfl⟩
  rintro _ ⟨steps, rfl⟩
  refine ⟨_, ?_, steps + 1, rfl⟩
  rw [searchTurn, never steps, if_neg (by decide),
    Function.iterate_succ_apply']

end Search

section Stride

variable {size stride : Nat}

theorem iterate_stride {start : Nat} (inside : start < size) (steps : Nat) :
    (fun place => (place + stride) % size)^[steps] start =
      (start + stride * steps) % size := by
  induction steps with
  | zero => exact (Nat.mod_eq_of_lt inside).symm
  | succ steps ih =>
      rw [Function.iterate_succ_apply', ih, Nat.mod_add_mod, Nat.mul_succ,
        Nat.add_assoc]

theorem stride_reaches
    (coprime : Nat.Coprime stride size) (some' : 1 < size) (start : Nat)
    {target : Nat} (inside : target < size) :
    ∃ steps < size, (start + stride * steps) % size = target := by
  obtain ⟨inverse, -, one⟩ :=
    Nat.exists_mul_mod_eq_one_of_coprime coprime some'
  have unit : stride * inverse ≡ 1 [MOD size] := by
    rw [Nat.ModEq, one, Nat.mod_eq_of_lt some']
  have positive : 0 < size := by omega
  -- The way from the start to the target, divided by the stride.
  refine ⟨inverse * (target + (size - start % size)) % size,
    Nat.mod_lt _ positive, ?_⟩
  have way : stride * (inverse * (target + (size - start % size)) % size) ≡
      target + (size - start % size) [MOD size] := by
    calc stride * (inverse * (target + (size - start % size)) % size)
        ≡ stride * (inverse * (target + (size - start % size))) [MOD size] :=
          (Nat.mod_modEq _ _).mul_left _
      _ = stride * inverse * (target + (size - start % size)) := by
          rw [Nat.mul_assoc]
      _ ≡ 1 * (target + (size - start % size)) [MOD size] := unit.mul_right _
      _ = target + (size - start % size) := Nat.one_mul _
  have whole : start + (target + (size - start % size)) =
      target + size * (start / size + 1) := by
    have split := Nat.div_add_mod start size
    have less := Nat.mod_lt start positive
    rw [Nat.mul_succ]
    omega
  have same := (Nat.ModEq.refl start).add way
  rw [whole] at same
  have reduced : (start +
      stride * (inverse * (target + (size - start % size)) % size)) % size =
      (target + size * (start / size + 1)) % size := same
  rw [reduced, Nat.add_mul_mod_self_left, Nat.mod_eq_of_lt inside]

end Stride

end NativeClient.Library
