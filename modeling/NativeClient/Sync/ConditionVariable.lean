import NativeClient.Library.Runs
import NativeClient.Sync.ConditionVariableEvents

/-!
# The condition variable of Windows

`ConditionVariable` gives every waiting thread an event of its own, which is
recycled after the wait.  A section under `internal_lock_` is one step, and so
is the return from `WaitForSingleObject` and every `SetEvent`.  The events reset
themselves when a wait on them returns.
-/

namespace NativeClient.Sync.Windows

open NativeClient.Library

inductive RunState where
  | running
  | shutdown
deriving DecidableEq

/-- What `WaitForSingleObject` returned. -/
inductive WaitResult where
  | object0
  | timeout
deriving DecidableEq

/-- Where a thread is.  The handles of `Broadcast` are its stack, with the top
first. -/
inductive Local where
  | outside
  | waiting (handle : Nat)
  | recycling (handle : Nat) (result : WaitResult)
  | signalling (handle : Nat)
  | broadcasting (handles : List Nat)
deriving DecidableEq

/-- `class ConditionVariable` with the states of its events and its threads. -/
structure ConditionVariable where
  runState : RunState
  links : EventLinks
  recyclingListSize : Nat
  allocationCounter : Nat
  signalled : Nat → Bool
  threads : Nat → Local

def conditionVariable : ConditionVariable where
  runState := .running
  links := ⟨id, id⟩
  recyclingListSize := 0
  allocationCounter := 0
  signalled := fun _ => false
  threads := fun _ => .outside

inductive Action where
  | wait
  | wakes
  | timesOut
  | recycle
  | signal
  | broadcast
  | setEvent
deriving DecidableEq

def ConditionVariable.go (cv : ConditionVariable) (thread : Nat) (next : Local) :
    ConditionVariable :=
  { cv with threads := Function.update cv.threads thread next }

def ConditionVariable.set (cv : ConditionVariable) (handle : Nat) (state : Bool) :
    ConditionVariable :=
  { cv with signalled := Function.update cv.signalled handle state }

/-- `GetEventForWaiting`, with the handle of the event. -/
def getEventForWaiting (cv : ConditionVariable) : Nat × ConditionVariable :=
  if cv.recyclingListSize = 0 then
    let event := ConditionVariableEvent.event (cv.allocationCounter + 1)
    (event.handle,
      { cv.set event.handle false with
        links := (cv.links.create event).pushBack .waitingList event
        allocationCounter := cv.allocationCounter + 1 })
  else
    let (event, links) := cv.links.popFront .recyclingList
    (event.handle,
      { cv with
        links := links.pushBack .waitingList event
        recyclingListSize := cv.recyclingListSize - 1 })

def recycleEvent (cv : ConditionVariable) (handle : Nat) : ConditionVariable :=
  { cv with
    links :=
      (cv.links.extract (.event handle)).pushBack .recyclingList (.event handle)
    recyclingListSize := cv.recyclingListSize + 1 }

/-- The loop of `Broadcast`, which moves the waiting list to its stack.  There
are as many events in the list as were allocated, at most. -/
def popAll : Nat → EventLinks → List Nat → List Nat × EventLinks
  | 0, links, handles => (handles, links)
  | fuel + 1, links, handles =>
      if links.isSingleton .waitingList then
        (handles, links)
      else
        let (event, links) := links.popBack .waitingList
        popAll fuel links (event.handle :: handles)

/-- `TimedWaitRel` up to the wait. -/
def beginWait (cv : ConditionVariable) (thread : Nat) :
    Option Nat × ConditionVariable :=
  if cv.runState ≠ .running then
    (some 0, cv)
  else
    let (handle, cv) := getEventForWaiting cv
    (none, cv.go thread (.waiting handle))

/-- `Signal` up to `SetEvent`. -/
def beginSignal (cv : ConditionVariable) (thread : Nat) : ConditionVariable :=
  if cv.links.isSingleton .waitingList then
    cv
  else
    let (event, links) := cv.links.popBack .waitingList
    { cv with links := links }.go thread (.signalling event.handle)

/-- `Broadcast` up to the first `SetEvent`. -/
def beginBroadcast (cv : ConditionVariable) (thread : Nat) : ConditionVariable :=
  if cv.links.isSingleton .waitingList then
    cv
  else
    let (handles, links) := popAll (cv.allocationCounter + 1) cv.links []
    { cv with links := links }.go thread (.broadcasting handles)

/-- One step of a thread, with the value that `TimedWaitRel` returns. -/
def act (cv : ConditionVariable) (thread : Nat) (action : Action) :
    Option (Option Nat × ConditionVariable) :=
  match action, cv.threads thread with
  | .wait, .outside => some (beginWait cv thread)
  | .wakes, .waiting handle =>
      if cv.signalled handle then
        some (none, (cv.set handle false).go thread (.recycling handle .object0))
      else none
  | .timesOut, .waiting handle =>
      if cv.signalled handle then none
      else some (none, cv.go thread (.recycling handle .timeout))
  | .recycle, .recycling handle result =>
      some (some (if result = .object0 then 1 else 0),
        (recycleEvent cv handle).go thread .outside)
  | .signal, .outside => some (none, beginSignal cv thread)
  | .broadcast, .outside => some (none, beginBroadcast cv thread)
  | .setEvent, .signalling handle =>
      some (none, (cv.set handle true).go thread .outside)
  | .setEvent, .broadcasting (handle :: handles) =>
      some (none, (cv.set handle true).go thread
        (if handles.isEmpty then .outside else .broadcasting handles))
  | _, _ => none

def step (cv : ConditionVariable) (event : Nat × Action) :
    Option ConditionVariable :=
  (act cv event.1 event.2).map Prod.snd

section Promises

def InList (links : EventLinks) (list : ConditionVariableEvent) (handle : Nat) :
    Prop :=
  ∃ nodes, Circle links list nodes ∧ .event handle ∈ nodes

/-- No two threads wait on one event, and `recycling_list_size_` is the length
of the recycling list. -/
structure Sound (cv : ConditionVariable) : Prop where
  distinct : ∀ thread other handle, cv.threads thread = .waiting handle →
    cv.threads other = .waiting handle → thread = other
  size : ∃ nodes, Circle cv.links .recyclingList nodes ∧
    cv.recyclingListSize = nodes.length

def Fresh (cv : ConditionVariable) (waiter : Nat) : Prop :=
  ∃ handle, cv.threads waiter = .waiting handle ∧
    InList cv.links .waitingList handle ∧ cv.signalled handle = false

/-- The waiter that the next `Signal` takes. -/
def Chosen (cv : ConditionVariable) (waiter : Nat) : Prop :=
  ∃ handle, cv.threads waiter = .waiting handle ∧
    cv.links.prev .waitingList = .event handle

def Due (cv : ConditionVariable) (waiter : Nat) : Prop :=
  (∃ handle, cv.threads waiter = .waiting handle ∧ cv.signalled handle = true) ∨
    ∃ handle, cv.threads waiter = .recycling handle .object0

def ReturnsSignalled (waiter : Nat) :
    ConditionVariable → List (Nat × Action) → Prop
  | cv, [] => Due cv waiter
  | cv, event :: events =>
      if event = (waiter, .recycle) then
        ∃ next, act cv waiter .recycle = some (some 1, next)
      else
        ∀ next, step cv event = some next → ReturnsSignalled waiter next events

/-- A call of `Signal` in a run, with the steps of the others before its
`SetEvent` and all steps after it. -/
structure SignalCall (events : List (Nat × Action)) (thread : Nat)
    (before issued : ConditionVariable) (middle later : List (Nat × Action)) :
    Prop where
  split : ∃ front, events =
      front ++ (thread, .signal) :: (middle ++ (thread, .setEvent) :: later) ∧
    run step conditionVariable front = some before
  issues : step before (thread, .signal) = some issued
  others : ∀ event ∈ middle, event.1 ≠ thread
  ran : ∃ final,
    run step issued (middle ++ (thread, .setEvent) :: later) = some final

/-- A `Signal` that finds a waiter that has neither timed out nor been signalled
makes the wait of one return 1. -/
def SignalsWake (events : List (Nat × Action)) : Prop :=
  ∀ thread before issued middle later,
    SignalCall events thread before issued middle later →
    (∃ waiter, Fresh before waiter) →
    ∃ waiter, Fresh before waiter ∧ Chosen before waiter ∧
      ReturnsSignalled waiter issued (middle ++ (thread, .setEvent) :: later)

def SetsIn (cv : ConditionVariable) (events : List (Nat × Action))
    (thread handle : Nat) : Prop :=
  ∃ front back before next, events = front ++ (thread, .setEvent) :: back ∧
    run step cv front = some before ∧
    step before (thread, .setEvent) = some next ∧
    (∃ handles, before.threads thread = .broadcasting (handle :: handles)) ∧
    next.signalled handle = true

/-- A call of `Broadcast` in a run, with the steps until it returns. -/
structure BroadcastCall (events : List (Nat × Action)) (thread : Nat)
    (before issued : ConditionVariable) (middle : List (Nat × Action)) : Prop where
  split : ∃ front later,
    events = front ++ (thread, .broadcast) :: (middle ++ later) ∧
    run step conditionVariable front = some before
  issues : step before (thread, .broadcast) = some issued
  own : ∀ event ∈ middle, event.1 = thread → event.2 = .setEvent
  returns : ∃ returned, run step issued middle = some returned ∧
    returned.threads thread = .outside

/-- A `Broadcast` sets every event that is in the waiting list when it takes the
lock. -/
def BroadcastsSet (events : List (Nat × Action)) : Prop :=
  ∀ thread before issued middle,
    BroadcastCall events thread before issued middle →
    ∀ handle, InList before.links .waitingList handle →
      SetsIn issued middle thread handle

/-- Whenever a `Signal` finds a waiter that has neither timed out nor been
signalled, the one that began to wait last is such a waiter, and it does not
time out before `SetEvent`. -/
def LastWaiterStays (events : List (Nat × Action)) : Prop :=
  ∀ thread before issued middle later,
    SignalCall events thread before issued middle later →
    (∃ waiter, Fresh before waiter) →
    ∃ waiter, Fresh before waiter ∧ Chosen before waiter ∧
      middle.find? (fun event => event.1 == waiter) ≠ some (waiter, .timesOut)

end Promises

end NativeClient.Sync.Windows
