import NativeClient.Library.Bytes
import NativeClient.Library.Loop
import Mathlib.Data.Nat.Basic

/-!
# Counted loops over 32 bit offsets

`for (offset = 0; offset < limit; offset += stride) body`, with `uint32_t`
arithmetic: the loop stops exactly when some multiple of the stride lies
between the limit and `2 ^ 32`.
-/

namespace NativeClient.Library

variable {σ : Type}

def countedTurn (limit stride : σ → Nat) (body : Nat → σ → σ)
    (state : Nat × σ) : Turn (Nat × σ) σ :=
  if state.1 < limit state.2 then
    .again (wrap32 (state.1 + stride state.2 : Nat), body state.1 state.2)
  else
    .leave state.2

variable {limit stride : σ → Nat} {body : Nat → σ → σ}

private theorem counted_from
    {bound step : Nat} (positive : 0 < step) (room : bound + step ≤ 2 ^ 32)
    (invariant : Nat → σ → Prop)
    (fixed : ∀ offset state, invariant offset state →
      limit state = bound ∧ stride state = step)
    (keeps : ∀ offset state, offset < bound → invariant offset state →
      invariant (offset + step) (body offset state))
    (offset : Nat) (state : σ) (holds : invariant offset state)
    (below : offset < bound + step) :
    ∃ result stop, Returns (countedTurn limit stride body) (offset, state)
        result ∧
      invariant stop result ∧ bound ≤ stop ∧ stop < bound + step := by
  induction left : bound + step - offset using Nat.strongRecOn
    generalizing offset state with
  | ind size ih =>
      obtain ⟨limitFixed, strideFixed⟩ := fixed offset state holds
      by_cases more : offset < bound
      · have next : wrap32 (offset + stride state : Nat) = offset + step := by
          rw [strideFixed]
          exact wrap32_of_lt (by omega)
        have action : countedTurn limit stride body (offset, state) =
            .again (offset + step, body offset state) := by
          rw [countedTurn, if_pos (by rw [limitFixed]; exact more), next]
        obtain ⟨result, stop, returned, rest⟩ :=
          ih (bound + step - (offset + step)) (by omega) (offset + step)
            (body offset state) (keeps offset state more holds) (by omega) rfl
        exact ⟨result, stop, (returns_again action).mpr returned, rest⟩
      · have action : countedTurn limit stride body (offset, state) =
            .leave state := by
          rw [countedTurn, if_neg (by rw [limitFixed]; exact more)]
        exact ⟨state, offset, (returns_leave action).mpr rfl, holds, by omega,
          below⟩

theorem counted_returns
    {bound step : Nat} (positive : 0 < step) (room : bound + step ≤ 2 ^ 32)
    (invariant : Nat → σ → Prop)
    (fixed : ∀ offset state, invariant offset state →
      limit state = bound ∧ stride state = step)
    (keeps : ∀ offset state, offset < bound → invariant offset state →
      invariant (offset + step) (body offset state))
    {state : σ} (start : invariant 0 state) :
    ∃ result stop, Returns (countedTurn limit stride body) (0, state) result ∧
      invariant stop result ∧ bound ≤ stop ∧ stop < bound + step :=
  counted_from positive room invariant fixed keeps 0 state start (by omega)

theorem counted_diverges
    {bound step : Nat} (divides : step ∣ 2 ^ 32) (full : 2 ^ 32 < bound + step)
    (invariant : σ → Prop)
    (fixed : ∀ state, invariant state →
      limit state = bound ∧ stride state = step)
    (keeps : ∀ offset state, invariant state → invariant (body offset state))
    {state result : σ} (start : invariant state) :
    ¬ Returns (countedTurn limit stride body) (0, state) result := by
  refine not_returns_of_invariant
    (fun current => invariant current.2 ∧ step ∣ current.1 ∧
      current.1 < 2 ^ 32) ?_ ⟨start, Nat.dvd_zero step, by simp⟩
  rintro ⟨offset, current⟩ ⟨holds, multiple, small⟩
  obtain ⟨limitFixed, strideFixed⟩ := fixed current holds
  obtain ⟨turns, turnsEq⟩ := divides
  obtain ⟨index, indexEq⟩ := multiple
  simp only at indexEq small
  have inside : offset + step ≤ 2 ^ 32 := by
    have fewer : index < turns := by
      by_contra many
      have := Nat.mul_le_mul_left step (Nat.not_lt.mp many)
      omega
    have := Nat.mul_le_mul_left step fewer
    rw [Nat.mul_succ] at this
    omega
  refine ⟨(wrap32 (offset + stride current : Nat), body offset current), ?_,
    keeps offset current holds, ?_, ?_⟩
  · rw [countedTurn, if_pos]
    simp only [limitFixed]
    omega
  · simp only [strideFixed]
    rcases Nat.lt_or_ge (offset + step) (2 ^ 32) with below | wraps
    · rw [wrap32_of_lt below, indexEq]
      exact ⟨index + 1, by rw [Nat.mul_succ]⟩
    · have exact32 : offset + step = 2 ^ 32 := by omega
      have wrapped : wrap32 (2 ^ 32 : Nat) = 0 := by decide
      rw [exact32, wrapped]
      exact Nat.dvd_zero step
  · exact wrap32_lt (offset + stride current : Nat)

end NativeClient.Library
