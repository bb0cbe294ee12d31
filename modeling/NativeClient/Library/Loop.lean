import Mathlib.Logic.Basic

/-!
# Loops that may fail to stop

A C loop is a function from its state to a `Turn`: go round again, or leave
with a result.  `runLoop` bounds the number of turns, and `Returns` says that
some bound is large enough.  A loop that runs for ever has no result at all,
so a statement about the value of a loop is never satisfied by divergence.
-/

namespace NativeClient.Library

inductive Turn (σ ρ : Type) where
  | again (state : σ)
  | leave (result : ρ)

/-- At most `fuel` turns of a loop; `none` when they were not enough. -/
def runLoop {σ ρ : Type} (turn : σ → Turn σ ρ) : Nat → σ → Option ρ
  | 0, _ => none
  | fuel + 1, state =>
      match turn state with
      | .again next => runLoop turn fuel next
      | .leave result => some result

def Turn.map {σ τ ρ : Type} (view : σ → τ) : Turn σ ρ → Turn τ ρ
  | .again state => .again (view state)
  | .leave result => .leave result

/-- The loop, started in `state`, stops and yields `result`. -/
def Returns {σ ρ : Type}
    (turn : σ → Turn σ ρ) (state : σ) (result : ρ) : Prop :=
  ∃ fuel, runLoop turn fuel state = some result

variable {σ ρ : Type} {turn : σ → Turn σ ρ} {state : σ} {result : ρ}

theorem runLoop_mono
    {fuel more : Nat}
    (finished : runLoop turn fuel state = some result)
    (enough : fuel ≤ more) :
    runLoop turn more state = some result := by
  induction fuel generalizing state more with
  | zero => simp [runLoop] at finished
  | succ fuel ih =>
      cases more with
      | zero => omega
      | succ more =>
          rw [runLoop] at finished ⊢
          cases action : turn state with
          | again next =>
              rw [action] at finished
              exact ih finished (by omega)
          | leave value =>
              rw [action] at finished
              exact finished

theorem runLoop_map
    {τ : Type} {other : τ → Turn τ ρ} (view : σ → τ)
    (same : ∀ state, other (view state) = (turn state).map view)
    (fuel : Nat) (state : σ) :
    runLoop other fuel (view state) = runLoop turn fuel state := by
  induction fuel generalizing state with
  | zero => rfl
  | succ fuel ih =>
      rw [runLoop, runLoop, same]
      cases turn state with
      | again next => exact ih next
      | leave result => rfl

theorem Returns.unique
    {first second : ρ}
    (left : Returns turn state first) (right : Returns turn state second) :
    first = second := by
  obtain ⟨leftFuel, leftRun⟩ := left
  obtain ⟨rightFuel, rightRun⟩ := right
  have leftLong := runLoop_mono leftRun (Nat.le_max_left leftFuel rightFuel)
  have rightLong := runLoop_mono rightRun (Nat.le_max_right leftFuel rightFuel)
  exact Option.some.inj (leftLong.symm.trans rightLong)

theorem returns_again
    {next : σ}
    (action : turn state = .again next) :
    Returns turn state result ↔ Returns turn next result := by
  constructor
  · rintro ⟨fuel, run⟩
    cases fuel with
    | zero => simp [runLoop] at run
    | succ fuel => exact ⟨fuel, by simpa [runLoop, action] using run⟩
  · rintro ⟨fuel, run⟩
    exact ⟨fuel + 1, by simpa [runLoop, action] using run⟩

theorem returns_leave
    {value : ρ}
    (action : turn state = .leave value) :
    Returns turn state result ↔ value = result := by
  constructor
  · rintro ⟨fuel, run⟩
    cases fuel with
    | zero => simp [runLoop] at run
    | succ fuel => simpa [runLoop, action] using run
  · rintro rfl
    exact ⟨1, by simp [runLoop, action]⟩

theorem Returns.invariant
    (invariant : σ → Prop) (post : ρ → Prop)
    (keeps : ∀ state next, invariant state →
      turn state = .again next → invariant next)
    (ends : ∀ state result, invariant state →
      turn state = .leave result → post result)
    (start : invariant state) (returned : Returns turn state result) :
    post result := by
  obtain ⟨fuel, run⟩ := returned
  induction fuel generalizing state with
  | zero => simp [runLoop] at run
  | succ fuel ih =>
      rw [runLoop] at run
      cases action : turn state with
      | again next =>
          rw [action] at run
          exact ih (keeps state next start action) run
      | leave value =>
          rw [action] at run
          cases run
          exact ends state _ start action

/-- The rule of total correctness: under the invariant a measure goes down, so
that a loop with more turns than the measure stops, and what the last turn
yields satisfies the postcondition. -/
theorem runLoop_total
    (invariant : σ → Prop) (post : ρ → Prop) (measure : σ → Nat)
    (keeps : ∀ state next, invariant state →
      turn state = .again next →
      invariant next ∧ measure next < measure state)
    (ends : ∀ state result, invariant state →
      turn state = .leave result → post result)
    {state : σ} (start : invariant state)
    {fuel : Nat} (enough : measure state < fuel) :
    ∃ result, runLoop turn fuel state = some result ∧ post result := by
  induction fuel generalizing state with
  | zero => omega
  | succ fuel ih =>
      rw [runLoop]
      cases action : turn state with
      | leave value => exact ⟨value, rfl, ends state value start action⟩
      | again next =>
          obtain ⟨kept, smaller⟩ := keeps state next start action
          exact ih kept (by omega)

theorem returns_of_measure
    (invariant : σ → Prop) (measure : σ → Nat)
    (keeps : ∀ state next, invariant state →
      turn state = .again next →
      invariant next ∧ measure next < measure state)
    (start : invariant state) :
    ∃ result, Returns turn state result := by
  obtain ⟨result, finished, -⟩ := runLoop_total invariant (fun _ => True)
    measure keeps (fun _ _ _ _ => trivial) start
    (Nat.lt_succ_self (measure state))
  exact ⟨result, measure state + 1, finished⟩

theorem not_returns_of_invariant
    (invariant : σ → Prop)
    (keeps : ∀ state, invariant state →
      ∃ next, turn state = .again next ∧ invariant next)
    (start : invariant state) :
    ¬ Returns turn state result := by
  intro returned
  refine Returns.invariant invariant (fun _ => False) ?_ ?_ start returned
  · intro current next holds action
    obtain ⟨other, otherAction, otherHolds⟩ := keeps current holds
    rw [action] at otherAction
    cases otherAction
    exact otherHolds
  · intro current value holds action
    obtain ⟨other, otherAction, -⟩ := keeps current holds
    rw [action] at otherAction
    cases otherAction

theorem foldl_range_invariant
    {step : σ → Nat → σ} {count : Nat} (invariant : Nat → σ → Prop)
    (keeps : ∀ index state, index < count → invariant index state →
      invariant (index + 1) (step state index))
    (start : invariant 0 state) :
    invariant count ((List.range count).foldl step state) := by
  induction count with
  | zero => exact start
  | succ count ih =>
      rw [List.range_succ, List.foldl_append]
      apply keeps count _ (Nat.lt_succ_self count)
      apply ih
      intro index current below
      exact keeps index current (Nat.lt_succ_of_lt below)

/-! ## The states in which turns begin -/

section Passes

variable {σ ρ : Type}

inductive Passes (turn : σ → Turn σ ρ) : σ → List σ → ρ → Prop where
  | leave {state : σ} {result : ρ}
      (action : turn state = .leave result) :
      Passes turn state [state] result
  | again {state next : σ} {states : List σ} {result : ρ}
      (action : turn state = .again next)
      (rest : Passes turn next states result) :
      Passes turn state (state :: states) result

variable {turn : σ → Turn σ ρ}

theorem Passes.runLoop_eq
    {state : σ} {states : List σ} {result : ρ}
    (passes : Passes turn state states result) :
    runLoop turn states.length state = some result := by
  induction passes with
  | leave action =>
      rw [List.length_singleton, runLoop, action]
  | again action rest ih =>
      rw [List.length_cons, runLoop, action]
      exact ih

theorem Passes.from
    {state here : σ} {states front back : List σ} {result : ρ}
    (passes : Passes turn state states result)
    (parts : states = front ++ here :: back) :
    Passes turn here (here :: back) result := by
  induction passes generalizing front with
  | leave action =>
      cases front with
      | nil =>
          cases parts
          exact .leave action
      | cons first front =>
          cases front with
          | nil => cases parts
          | cons second front => cases parts
  | again action rest ih =>
      cases front with
      | nil =>
          cases parts
          exact .again action rest
      | cons first front => exact ih (List.cons.inj parts).2

theorem Passes.next
    {here next : σ} {back : List σ} {result : ρ}
    (passes : Passes turn here (here :: back) result)
    (action : turn here = .again next) :
    ∃ later, back = next :: later := by
  cases passes with
  | leave left =>
      rw [action] at left
      cases left
  | again went rest =>
      rw [action] at went
      cases went
      cases rest with
      | leave => exact ⟨_, rfl⟩
      | again => exact ⟨_, rfl⟩

end Passes

end NativeClient.Library
