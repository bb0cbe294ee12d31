import NativeClient.OuterSandbox.SyscallFilter

/-!
# The stops of the traced threads

`NaclSandbox::Run` keeps for every thread whether it is inside a system call.
At each stop it finds out from this whether the call is entered or left, asks
the filter, and changes the state of the thread.  Everything it does not expect
kills the process.
-/

namespace NativeClient.OuterSandbox

open NativeClient.Library

structure TracedChild where
  inSyscall : Bool
  needsSetup : Bool
  currentSyscall : Word

/-- The sandbox with its filter and `ThreadState`. -/
structure Sandbox where
  filter : SyscallFilter
  threadState : Nat → Option TracedChild
  expectedCs : Word
  killed : Bool

def minusEnosys : Word := -38

/-- `ThreadState::ThreadEnteringSyscall` for a known thread: whether the call is
entered, and whether there was an error. -/
def threadEnteringSyscall (child : TracedChild) (regs : UserRegs) : Bool × Bool :=
  let entering := !child.needsSetup && !child.inSyscall
  let error := child.needsSetup ||
    (entering && regs.eax ≠ minusEnosys) ||
    (child.inSyscall && regs.origEax ≠ child.currentSyscall)
  (entering, error)

/-- `ThreadState::ChangeThreadSyscallStatus` for a known thread. -/
def changeThreadSyscallStatus (child : TracedChild) (regs : UserRegs) :
    TracedChild :=
  if child.inSyscall = false then
    { child with inSyscall := true, currentSyscall := regs.origEax }
  else
    { child with inSyscall := false }

inductive Event where
  | addThread (tid : Nat)
  | setupThread (tid : Nat)
  | removeThread (tid : Nat)
  | stop (tid : Nat) (regs : UserRegs)

structure Judgement where
  entering : Bool
  permitted : Bool
  after : UserRegs
  filter : SyscallFilter

def judge (sandbox : Sandbox) (tid : Nat) (regs : UserRegs) : Option Judgement :=
  match sandbox.threadState tid with
  | none => none
  | some child =>
      let (entering, error) := threadEnteringSyscall child regs
      if error then
        none
      else if sandbox.expectedCs ≠ regs.xcs then
        none
      else
        let (permitted, after, filter) := runRule sandbox.filter tid regs entering
        some ⟨entering, permitted, after, filter⟩

def Sandbox.setChild (sandbox : Sandbox) (tid : Nat) (child : Option TracedChild) :
    Sandbox :=
  { sandbox with threadState := Function.update sandbox.threadState tid child }

/-- One turn of the loop of `NaclSandbox::Run`. -/
def step (sandbox : Sandbox) (event : Event) : Option Sandbox :=
  if sandbox.killed then
    none
  else
    match event with
    | .addThread tid =>
        match sandbox.threadState tid with
        | none => some (sandbox.setChild tid (some ⟨false, true, -1⟩))
        | some _ => some sandbox
    | .setupThread tid =>
        match sandbox.threadState tid with
        | none => some { sandbox with killed := true }
        | some child =>
            some (sandbox.setChild tid (some { child with needsSetup := false }))
    | .removeThread tid =>
        match sandbox.threadState tid with
        | none => some { sandbox with killed := true }
        | some _ => some (sandbox.setChild tid none)
    | .stop tid regs =>
        match judge sandbox tid regs with
        | none => some { sandbox with killed := true }
        | some judgement =>
            let judged := { sandbox with filter := judgement.filter }
            if !judgement.permitted then
              some { judged with killed := true }
            else
              some (judged.setChild tid ((sandbox.threadState tid).map
                fun child => changeThreadSyscallStatus child judgement.after))

/-- The sandbox when `Run` begins to wait for the process. -/
def startedSandbox (once : Nat → Bool) (pid : Nat) (cs : Word) : Sandbox where
  filter := syscallFilter once pid
  threadState := Function.update (fun _ => none) pid (some ⟨false, false, -1⟩)
  expectedCs := cs
  killed := false

section Promises

def tableCalls : List Nat :=
  nrExecve :: (checkedCalls.map Prod.fst ++ plainCalls)

def Calls (regs : UserRegs) (call : Nat) : Prop :=
  getSyscall regs = (call : Int)

instance (regs : UserRegs) (call : Nat) : Decidable (Calls regs call) :=
  inferInstanceAs (Decidable (_ = _))

def Has (flags flag : Word) : Prop := flags &&& flag = flag

def Lacks (flags flag : Word) : Prop := flags &&& flag = 0

/-- A command for `fcntl` that is not to be permitted. -/
def Forbidden (cmd args : Word) : Prop :=
  cmd = fSetfd ∨ cmd = fSetfl ∧ (¬ Lacks args oAsync ∨ ¬ Lacks args oDirect)

structure TracedThread (flags : Word) : Prop where
  thread : Has flags cloneThread
  ptrace : Has flags clonePtrace
  untraced : Lacks flags cloneUntraced
  stopped : Lacks flags cloneStopped
  vfork : Lacks flags cloneVfork
  newns : Lacks flags cloneNewns

structure Enforced (regs : UserRegs) (judgement : Judgement) : Prop where
  table : judgement.permitted = true → ∃ call ∈ tableCalls, Calls regs call
  execveLeft : judgement.entering = false → Calls regs nrExecve →
    judgement.permitted = true
  kill : judgement.permitted = true → Calls regs nrKill → getReg2 regs = 0
  fcntl : judgement.permitted = true → Calls regs nrFcntl ∨ Calls regs nrFcntl64 →
    ¬ Forbidden (getReg2 regs) (getReg3 regs)
  clone : judgement.entering = true → judgement.permitted = true →
    Calls regs nrClone →
    TracedThread (getReg1 judgement.after) ∧
      judgement.after = setReg1 regs (getReg1 judgement.after)

def Enforces (sandbox : Sandbox) (event : Event) : Prop :=
  ∀ tid regs, event = .stop tid regs →
    ∀ judgement, judge sandbox tid regs = some judgement →
      Enforced regs judgement

/-- Whether the stop is a permitted entry of `execve`. -/
def entersExecve (sandbox : Sandbox) : Event → Bool
  | .stop tid regs =>
      match judge sandbox tid regs with
      | none => false
      | some judgement =>
          judgement.entering && judgement.permitted && Calls regs nrExecve
  | _ => false

/-- How often the entry of `execve` is permitted in the run. -/
def execveEntries : Sandbox → List Event → Nat
  | _, [] => 0
  | sandbox, event :: events =>
      match step sandbox event with
      | none => 0
      | some next =>
          (if entersExecve sandbox event then 1 else 0) +
            execveEntries next events

end Promises

section Condition

/-- The checks that `CloneChecker` makes. -/
def ClonePasses (flags : Word) : Prop :=
  ¬ Lacks (flags ||| clonePtrace) cloneThread ∧
    Lacks (flags ||| clonePtrace) cloneVfork ∧
    Lacks (flags ||| clonePtrace) cloneStopped ∧
    Lacks (flags ||| clonePtrace) cloneNewns

/-- A stop at which the registers do not matter: no `execve` is left; an `fcntl`
that is forbidden is forbidden by its first two arguments, too; and a thread is
cloned with flags that are right already and are its second argument, too.  A
rule that is not allowed any more matters for nothing. -/
structure Harmless (sandbox : Sandbox) (entering : Bool) (regs : UserRegs) :
    Prop where
  execve : entering = false → ¬ Calls regs nrExecve
  fcntl : ∀ call, call = nrFcntl ∨ call = nrFcntl64 → Calls regs call →
    (sandbox.filter.syscallRules call).allowed = true →
    Forbidden (getReg2 regs) (getReg3 regs) →
    Forbidden (getReg1 regs) (getReg2 regs)
  clone : entering = true → Calls regs nrClone →
    (sandbox.filter.syscallRules nrClone).allowed = true →
    ClonePasses (getReg1 regs) →
    Has (getReg1 regs) clonePtrace ∧ Lacks (getReg1 regs) cloneUntraced ∧
      getReg2 regs = getReg1 regs

def HarmlessStop (sandbox : Sandbox) (event : Event) : Prop :=
  ∀ tid regs, event = .stop tid regs →
    ∀ judgement, judge sandbox tid regs = some judgement →
      Harmless sandbox judgement.entering regs

end Condition

end NativeClient.OuterSandbox
