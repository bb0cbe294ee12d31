import NativeClient.Library.Runs
import NativeClient.Library.Sleepers
import Mathlib.Logic.Function.Basic

/-!
# The interruptible mutex

`NaClIntrMutex` is a state under a mutex of the system with a condition
variable on which the threads sleep while it is held.  Every section under the
inner mutex is one step; a sleeper wakes up in a step of its own, after it was
signalled or spuriously.
-/

namespace NativeClient.Sync

open NativeClient.Library

inductive LockState where
  | free
  | held
  | interrupted
deriving DecidableEq

/-- `NaClSyncStatus`, as far as it is used here. -/
inductive SyncStatus where
  | ok
  | internalError
  | busy
  | mutexPermission
  | mutexInterrupted
  | condvarTimedout
deriving DecidableEq

/-- Where a thread is.  A thread that `believes` to hold the mutex may lock it
once more, and it sleeps in `NaClIntrMutexLock` then.  A thread that is
`waiting` is in the inner wait of `NaClIntrCondVarWait`; a thread that is
`retaking` sleeps in the loop behind it, with the status of the inner wait. -/
inductive Local where
  | outside
  | holding
  | locking (believes : Bool)
  | waiting
  | retaking (status : SyncStatus)
deriving DecidableEq

/-- `struct NaClIntrMutex` with its threads.  `sleepers` are those on `cv` that
were not woken; `intr` is whether there was an interrupt since the last reset. -/
structure IntrMutex where
  lockState : LockState
  sleepers : List Nat
  intr : Bool
  threads : Nat → Local

def intrMutexCtor : IntrMutex where
  lockState := .free
  sleepers := []
  intr := false
  threads := fun _ => .outside

def Local.Believes : Local → Prop
  | .holding => True
  | .locking believes => believes = true
  | _ => False

/-- The thread is asleep on `cv`, or has been woken and not run yet. -/
def Local.Parked : Local → Prop
  | .locking _ | .retaking _ => True
  | _ => False

/-- A choice is which sleeper a signal wakes; the status is how the inner wait
of the condition variable ends. -/
inductive Action where
  | lock
  | tryLock
  | unlock (choice : Nat)
  | wait (choice : Nat)
  | waitEnds (status : SyncStatus)
  | wake
  | spurious
  | interrupt
  | reset
deriving DecidableEq

inductive Response where
  | pending
  | returned (status : SyncStatus)
  | fatal
deriving DecidableEq

def IntrMutex.go (mutex : IntrMutex) (thread : Nat) (next : Local) : IntrMutex :=
  { mutex with threads := Function.update mutex.threads thread next }

def IntrMutex.sleep (mutex : IntrMutex) (thread : Nat) (next : Local) :
    IntrMutex :=
  { mutex.go thread next with sleepers := mutex.sleepers ++ [thread] }

/-- `NaClIntrMutexLock` from the loop on. -/
def takeLock (mutex : IntrMutex) (thread : Nat) (believes : Bool) :
    Response × IntrMutex :=
  match mutex.lockState with
  | .held => (.pending, mutex.sleep thread (.locking believes))
  | .free =>
      (.returned .ok, IntrMutex.go { mutex with lockState := .held } thread .holding)
  | .interrupted =>
      (.returned .mutexInterrupted,
        mutex.go thread (if believes then .holding else .outside))

/-- `NaClIntrCondVarWait` from the loop on; it returns the status of the inner
wait. -/
def retakeLock (mutex : IntrMutex) (thread : Nat) (status : SyncStatus) :
    Response × IntrMutex :=
  match mutex.lockState with
  | .held => (.pending, mutex.sleep thread (.retaking status))
  | .free =>
      (.returned status,
        IntrMutex.go { mutex with lockState := .held } thread
          (if status = .ok then .holding else .outside))
  | .interrupted =>
      (.returned status,
        mutex.go thread (if status = .ok then .holding else .outside))

def tryLock (mutex : IntrMutex) (thread : Nat) : Response × IntrMutex :=
  match mutex.lockState with
  | .free =>
      (.returned .ok, IntrMutex.go { mutex with lockState := .held } thread .holding)
  | .held => (.returned .busy, mutex)
  | .interrupted => (.returned .mutexInterrupted, mutex)

def IntrMutex.release (mutex : IntrMutex) (choice : Nat) : IntrMutex :=
  { mutex with
    lockState := .free
    sleepers := signal mutex.sleepers choice }

def unlock (mutex : IntrMutex) (thread choice : Nat) : Response × IntrMutex :=
  (.returned (if mutex.lockState = .held then .ok else .mutexPermission),
    (mutex.release choice).go thread .outside)

/-- `NaClIntrCondVarWait` up to the inner wait. -/
def beginWait (mutex : IntrMutex) (thread choice : Nat) : Response × IntrMutex :=
  match mutex.lockState with
  | .free => (.returned .mutexPermission, mutex)
  | .interrupted => (.returned .internalError, mutex)
  | .held => (.pending, (mutex.release choice).go thread .waiting)

/-- `NaClIntrMutexIntr`, which wakes the sleepers if the mutex is held. -/
def interrupt (mutex : IntrMutex) : IntrMutex :=
  { mutex with
    lockState := .interrupted
    sleepers := if mutex.lockState = .held then [] else mutex.sleepers
    intr := true }

def reset (mutex : IntrMutex) : Response × IntrMutex :=
  if mutex.lockState ≠ .interrupted then
    (.fatal, mutex)
  else
    (.returned .ok, { mutex with lockState := .free, intr := false })

def act (mutex : IntrMutex) (thread : Nat) (action : Action) :
    Option (Response × IntrMutex) :=
  match action, mutex.threads thread with
  | .lock, .outside => some (takeLock mutex thread false)
  | .lock, .holding => some (takeLock mutex thread true)
  | .tryLock, .outside => some (tryLock mutex thread)
  | .tryLock, .holding => some (tryLock mutex thread)
  | .unlock choice, .outside => some (unlock mutex thread choice)
  | .unlock choice, .holding => some (unlock mutex thread choice)
  | .wait choice, .outside => some (beginWait mutex thread choice)
  | .wait choice, .holding => some (beginWait mutex thread choice)
  | .waitEnds status, .waiting => some (retakeLock mutex thread status)
  | .wake, .locking believes =>
      if thread ∈ mutex.sleepers then none
      else some (takeLock mutex thread believes)
  | .wake, .retaking status =>
      if thread ∈ mutex.sleepers then none
      else some (retakeLock mutex thread status)
  | .spurious, _ =>
      some (.pending, { mutex with sleepers := mutex.sleepers.erase thread })
  | .interrupt, _ => some (.returned .ok, interrupt mutex)
  | .reset, _ => some (reset mutex)
  | _, _ => none

def step (mutex : IntrMutex) (event : Nat × Action) : Option IntrMutex :=
  (act mutex event.1 event.2).map Prod.snd

def Allowed (mutex : IntrMutex) (event : Nat × Action) : Prop :=
  match event.2 with
  | .unlock _ => mutex.threads event.1 = .holding
  | .reset => mutex.intr = true ∧ ∀ thread, mutex.threads thread = .outside
  | _ => True

/-- At most one thread believes to hold the mutex, an interrupt stays until the
reset, and no wake-up is lost: nobody sleeps on while the mutex is interrupted,
nor while it is free, unless somebody else was woken to take it. -/
structure Sound (mutex : IntrMutex) : Prop where
  one : ∀ thread other, (mutex.threads thread).Believes →
    (mutex.threads other).Believes → thread = other
  stays : mutex.intr = true → mutex.lockState = .interrupted
  interrupted : mutex.lockState = .interrupted → mutex.sleepers = []
  free : mutex.lockState = .free → mutex.sleepers ≠ [] →
    ∃ thread, (mutex.threads thread).Parked ∧ thread ∉ mutex.sleepers

/-- After an interrupt no call that would take the mutex returns `OK`, and a
reset is never fatal. -/
def Behaves (mutex : IntrMutex) (event : Nat × Action) : Prop :=
  ∀ response next, act mutex event.1 event.2 = some (response, next) →
    response ≠ .fatal ∧
      (mutex.intr = true →
        match event.2 with
        | .lock | .tryLock | .wait _ | .waitEnds _ | .wake =>
            response ≠ .returned .ok
        | _ => True)

/-- A step that meets none of the defects: the mutex is not unlocked while it is
interrupted, a wait whose inner wait was signalled does not end then, a free
mutex is not interrupted while somebody sleeps on it, and a wait on a held
mutex is begun while no other thread believes to hold it. -/
def Proper (mutex : IntrMutex) (event : Nat × Action) : Prop :=
  match event.2 with
  | .unlock _ => mutex.lockState ≠ .interrupted
  | .wait _ => mutex.lockState = .held →
      ∀ other ≠ event.1, ¬ (mutex.threads other).Believes
  | .waitEnds status => mutex.lockState = .interrupted → status ≠ .ok
  | .wake => mutex.lockState = .interrupted →
      mutex.threads event.1 ≠ .retaking .ok
  | .interrupt => mutex.lockState = .free → mutex.sleepers = []
  | _ => True

end NativeClient.Sync
