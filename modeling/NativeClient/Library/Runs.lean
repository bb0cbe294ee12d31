import Mathlib.Logic.Basic

/-!
# Runs of a system

A system takes one step for every event; an event that is not possible has no
step.  A property of all states of a run is proved from one step: either every
step keeps it, or the steps that keep it are those that are allowed.
-/

namespace NativeClient.Library

variable {σ ε : Type}

def run (step : σ → ε → Option σ) : σ → List ε → Option σ
  | state, [] => some state
  | state, event :: events =>
      (step state event).bind fun next => run step next events

/-- Every state of the run satisfies `holds`, the first one included. -/
def Throughout (step : σ → ε → Option σ) (holds : σ → Prop) :
    σ → List ε → Prop
  | state, [] => holds state
  | state, event :: events =>
      holds state ∧
        ∀ next, step state event = some next → Throughout step holds next events

def AllSteps (step : σ → ε → Option σ) (allowed : σ → ε → Prop) :
    σ → List ε → Prop
  | _, [] => True
  | state, event :: events =>
      ∀ next, step state event = some next →
        allowed state event ∧ AllSteps step allowed next events

variable {step : σ → ε → Option σ} {holds : σ → Prop} {allowed : σ → ε → Prop}
  {start : σ} {events : List ε}

theorem throughout_of_allSteps
    (keeps : ∀ state event next, holds state → allowed state event →
      step state event = some next → holds next)
    (first : holds start)
    (all : AllSteps step allowed start events) :
    Throughout step holds start events := by
  induction events generalizing start with
  | nil => exact first
  | cons event events ih =>
      refine ⟨first, ?_⟩
      intro next stepped
      obtain ⟨now, later⟩ := all next stepped
      exact ih (keeps start event next first now stepped) later

theorem AllSteps.imp
    {other : σ → ε → Prop}
    (keeps : ∀ state event next, holds state → allowed state event →
      step state event = some next → holds next)
    (gives : ∀ state event next, holds state → allowed state event →
      step state event = some next → other state event)
    (first : holds start)
    (all : AllSteps step allowed start events) :
    AllSteps step other start events := by
  induction events generalizing start with
  | nil => trivial
  | cons event events ih =>
      intro next stepped
      obtain ⟨now, later⟩ := all next stepped
      exact ⟨gives start event next first now stepped,
        ih (keeps start event next first now stepped) later⟩

theorem AllSteps.first
    {next : σ} {event : ε}
    (stepped : step start event = some next) (now : allowed start event)
    (later : AllSteps step allowed next events) :
    AllSteps step allowed start (event :: events) := by
  intro other otherStep
  cases stepped.symm.trans otherStep
  exact ⟨now, later⟩

theorem AllSteps.and
    {other : σ → ε → Prop}
    (all : AllSteps step allowed start events)
    (also : AllSteps step other start events) :
    AllSteps step (fun state event => allowed state event ∧ other state event)
      start events := by
  induction events generalizing start with
  | nil => trivial
  | cons event events ih =>
      intro next stepped
      obtain ⟨now, later⟩ := all next stepped
      obtain ⟨nowToo, laterToo⟩ := also next stepped
      exact ⟨⟨now, nowToo⟩, ih later laterToo⟩

theorem throughout_of_kept
    (kept : ∀ state event next, holds state →
      step state event = some next → holds next)
    (events : List ε) (first : holds start) :
    Throughout step holds start events := by
  induction events generalizing start with
  | nil => exact first
  | cons event events ih =>
      refine ⟨first, ?_⟩
      intro next stepped
      exact ih (kept start event next first stepped)

theorem allSteps_iff
    {other : σ → ε → Prop}
    (kept : ∀ state event next, holds state →
      step state event = some next → holds next)
    (same : ∀ state event next, holds state → step state event = some next →
      (allowed state event ↔ other state event))
    {start : σ} {events : List ε} (first : holds start) :
    AllSteps step allowed start events ↔ AllSteps step other start events := by
  induction events generalizing start with
  | nil => exact Iff.rfl
  | cons event events ih =>
      refine forall_congr' fun next => forall_congr' fun stepped => ?_
      rw [same start event next first stepped,
        ih (kept start event next first stepped)]

theorem AllSteps.after
    {start middle : σ} {front back : List ε}
    (all : AllSteps step allowed start (front ++ back))
    (ran : run step start front = some middle) :
    AllSteps step allowed middle back := by
  induction front generalizing start with
  | nil =>
      cases ran
      exact all
  | cons event front ih =>
      obtain ⟨next, stepped, rest⟩ := Option.bind_eq_some_iff.mp ran
      exact ih (all next stepped).2 rest

theorem Throughout.last
    {final : σ}
    (through : Throughout step holds start events)
    (ran : run step start events = some final) : holds final := by
  induction events generalizing start with
  | nil =>
      cases ran
      exact through
  | cons event events ih =>
      obtain ⟨next, stepped, rest⟩ := Option.bind_eq_some_iff.mp ran
      exact ih (through.2 next stepped) rest

theorem Throughout.imp
    {weaker : σ → Prop} (implies : ∀ state, holds state → weaker state)
    (through : Throughout step holds start events) :
    Throughout step weaker start events := by
  induction events generalizing start with
  | nil => exact implies start through
  | cons event events ih =>
      refine ⟨implies start through.1, ?_⟩
      intro next stepped
      exact ih (through.2 next stepped)

theorem throughout_iff_allSteps
    {invariant : σ → Prop}
    (invariantKept : ∀ state event next, invariant state →
      step state event = some next → invariant next)
    (keeps : ∀ state event next, invariant state → holds state →
      step state event = some next → (holds next ↔ allowed state event))
    {start : σ} {events : List ε} (always : invariant start)
    (first : holds start) :
    Throughout step holds start events ↔ AllSteps step allowed start events := by
  induction events generalizing start with
  | nil => exact iff_of_true first trivial
  | cons event events ih =>
      constructor
      · intro through next stepped
        have kept := invariantKept start event next always stepped
        have later := through.2 next stepped
        have now : holds next := by
          cases events with
          | nil => exact later
          | cons event events => exact later.1
        exact ⟨(keeps start event next always first stepped).mp now,
          (ih kept now).mp later⟩
      · intro all
        refine ⟨first, ?_⟩
        intro next stepped
        obtain ⟨now, later⟩ := all next stepped
        have kept := invariantKept start event next always stepped
        have after := (keeps start event next always first stepped).mpr now
        exact (ih kept after).mpr later

end NativeClient.Library
