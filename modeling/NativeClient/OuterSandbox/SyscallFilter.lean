import NativeClient.Library.Runs
import Mathlib.Logic.Function.Basic

/-!
# The filter of the outer sandbox

The outer sandbox stops every thread of the process at the entry and at the exit
of each system call and asks `NaclSyscallFilter::RunRule`, which looks up the
rule for the call and runs it on the registers.  A call that is not permitted
ends the process.  The numbers of the calls are those of the 32 bit kernel.
-/

namespace NativeClient.OuterSandbox

open NativeClient.Library

abbrev Word := BitVec 32

/-- `struct user_regs_struct` of the 32 bit kernel. -/
structure UserRegs where
  ebx : Word
  ecx : Word
  edx : Word
  esi : Word
  edi : Word
  ebp : Word
  eax : Word
  xds : Word
  xes : Word
  xfs : Word
  xgs : Word
  origEax : Word
  eip : Word
  xcs : Word
  eflags : Word
  esp : Word
  xss : Word
deriving DecidableEq

section Registers

/-- `Registers::GetSyscall`, as the `int` that its caller makes of it. -/
def getSyscall (regs : UserRegs) : Int := regs.origEax.toInt

def getReg1 (regs : UserRegs) : Word := regs.ebx

def getReg2 (regs : UserRegs) : Word := regs.ecx

def getReg3 (regs : UserRegs) : Word := regs.edx

def setReg1 (regs : UserRegs) (value : Word) : UserRegs :=
  { regs with ebx := value }

def setReg2 (regs : UserRegs) (value : Word) : UserRegs :=
  { regs with ecx := value }

end Registers

section Constants

def clonePtrace : Word := 0x2000
def cloneVfork : Word := 0x4000
def cloneThread : Word := 0x10000
def cloneNewns : Word := 0x20000
def cloneUntraced : Word := 0x800000
def cloneStopped : Word := 0x2000000

def fSetfd : Word := 2
def fSetfl : Word := 4
def fSetsig : Word := 10
def oAsync : Word := 0x2000
def oDirect : Word := 0x4000

def nrExecve : Nat := 11
def nrKill : Nat := 37
def nrOpen : Nat := 5
def nrClone : Nat := 120
def nrSocketcall : Nat := 102
def nrFcntl : Nat := 55
def nrFcntl64 : Nat := 221
def nrExit : Nat := 1
def nrTime : Nat := 13
def nrWait4 : Nat := 114
def nrGetpid : Nat := 20
def nrGetuid : Nat := 24
def nrIoctl : Nat := 54
def nrBrk : Nat := 45
def nrMunmap : Nat := 91
def nrMprotect : Nat := 125
def nrMlock : Nat := 150
def nrMadvise : Nat := 219
def nrGettimeofday : Nat := 78
def nrPread64 : Nat := 180
def nrPwrite64 : Nat := 181
def nrUgetrlimit : Nat := 191
def nrGetrlimit : Nat := 76
def nrSetrlimit : Nat := 75
def nrPoll : Nat := 168
def nrClockGettime : Nat := 265
def nrClockGetres : Nat := 266
def nrNanosleep : Nat := 162
def nrIpc : Nat := 117
def nrNewselect : Nat := 142
def nrRead : Nat := 3
def nrWrite : Nat := 4
def nrReadv : Nat := 145
def nrWritev : Nat := 146
def nrClose : Nat := 6
def nrGetdents64 : Nat := 220
def nrGetdents : Nat := 141
def nrMmap : Nat := 90
def nrMmap2 : Nat := 192
def nrAccess : Nat := 33
def nrSigaltstack : Nat := 186
def nrModifyLdt : Nat := 123
def nrDup : Nat := 41
def nrUname : Nat := 122
def nrStat64 : Nat := 195
def nrFstat64 : Nat := 197
def nrLstat64 : Nat := 196
def nrSetThreadArea : Nat := 243
def nrSetTidAddress : Nat := 258
def nrRtSigaction : Nat := 174
def nrExitGroup : Nat := 252
def nrRtSigprocmask : Nat := 175
def nrSysctl : Nat := 149
def nrFutex : Nat := 240
def nrLlseek : Nat := 140
def nrLseek : Nat := 19
def nrPipe : Nat := 42
def nrSchedGetparam : Nat := 155
def nrSetRobustList : Nat := 311
def nrSchedGetscheduler : Nat := 157
def nrSchedGetPriorityMin : Nat := 160
def nrSchedGetPriorityMax : Nat := 159
def nrReadlink : Nat := 85
def nrGeteuid32 : Nat := 201
def nrGetegid32 : Nat := 202
def nrGetgid32 : Nat := 200
def nrGetuid32 : Nat := 199
def nrUnlink : Nat := 10
def nrChdir : Nat := 12
def nrSchedYield : Nat := 158
def nrFtruncate : Nat := 93

end Constants

inductive CheckerClass where
  | syscallChecker
  | debugAllowOpenChecker
  | socketCallChecker
  | cloneChecker
  | fcntlChecker
  | killChecker
deriving DecidableEq

section Rules

/-- `CloneChecker::RunRule`.  The flags are read from the first register and
stored in the second one. -/
def cloneRule (regs : UserRegs) : Bool × UserRegs :=
  let flags := getReg1 regs ||| clonePtrace
  if flags &&& cloneThread = 0 then
    (false, regs)
  else if flags &&& cloneVfork ≠ 0 then
    (false, regs)
  else if flags &&& cloneStopped ≠ 0 then
    (false, regs)
  else if flags &&& cloneNewns ≠ 0 then
    (false, regs)
  else
    (true, setReg2 regs
      (flags &&& ~~~(cloneUntraced ||| cloneStopped ||| cloneVfork ||| cloneNewns)))

/-- `FcntlChecker::RunRule`, which takes the first register for the command. -/
def fcntlRule (regs : UserRegs) : Bool :=
  let cmd := getReg1 regs
  if cmd = fSetfd then
    false
  else if cmd = fSetsig then
    true
  else if cmd = fSetfl then
    let args := getReg2 regs
    !(args &&& oAsync ≠ 0 ∨ args &&& oDirect ≠ 0)
  else
    true

/-- `KillChecker::RunRule`. -/
def killRule (regs : UserRegs) : Bool :=
  getReg2 regs = 0

def CheckerClass.runRule : CheckerClass → UserRegs → Bool × UserRegs
  | .syscallChecker, regs => (true, regs)
  | .debugAllowOpenChecker, regs => (true, regs)
  | .socketCallChecker, regs => (true, regs)
  | .cloneChecker, regs => cloneRule regs
  | .fcntlChecker, regs => (fcntlRule regs, regs)
  | .killChecker, regs => (killRule regs, regs)

end Rules

structure SyscallChecker where
  kind : CheckerClass
  allowed : Bool
  once : Bool

structure SandboxState where
  openedUntrusted : Bool
  doneExec : Bool
  pid : Nat

structure SyscallFilter where
  syscallRules : Nat → SyscallChecker
  syscallCalls : Nat → Nat
  state : SandboxState

def syscallTableSize : Nat := 500

def plainCalls : List Nat :=
  [nrExit, nrTime, nrWait4, nrGetpid, nrGetuid, nrIoctl, nrBrk, nrMunmap,
   nrMprotect, nrMlock, nrMadvise, nrGettimeofday, nrPread64, nrPwrite64,
   nrUgetrlimit, nrGetrlimit, nrSetrlimit, nrPoll, nrClockGettime,
   nrClockGetres, nrNanosleep, nrIpc, nrNewselect, nrRead, nrWrite, nrReadv,
   nrWritev, nrClose, nrGetdents64, nrGetdents, nrMmap, nrMmap2, nrAccess,
   nrSigaltstack, nrModifyLdt, nrDup, nrUname, nrStat64, nrFstat64, nrLstat64,
   nrSetThreadArea, nrSetTidAddress, nrRtSigaction, nrExitGroup,
   nrRtSigprocmask, nrSysctl, nrFutex, nrLlseek, nrLseek, nrPipe,
   nrSchedGetparam, nrSetRobustList, nrSchedGetscheduler, nrSchedGetPriorityMin,
   nrSchedGetPriorityMax, nrReadlink, nrGeteuid32, nrGetegid32, nrGetgid32,
   nrGetuid32, nrUnlink, nrChdir, nrSchedYield, nrFtruncate]

def checkedCalls : List (Nat × CheckerClass) :=
  [(nrKill, .killChecker), (nrOpen, .debugAllowOpenChecker),
   (nrClone, .cloneChecker), (nrSocketcall, .socketCallChecker),
   (nrFcntl, .fcntlChecker), (nrFcntl64, .fcntlChecker)]

/-- `InitSyscallRules`.  A checker that replaces the first one of its call has
never been told whether it is for once only; `once` is what it finds there. -/
def initSyscallRules (once : Nat → Bool) : Nat → SyscallChecker :=
  let created : Nat → SyscallChecker := fun _ => ⟨.syscallChecker, false, false⟩
  let execve := Function.update created nrExecve ⟨.syscallChecker, true, true⟩
  let checked := checkedCalls.foldl (fun rules (call, kind) =>
    Function.update rules call ⟨kind, true, once call⟩) execve
  plainCalls.foldl (fun rules call =>
    Function.update rules call { rules call with allowed := true }) checked

def syscallFilter (once : Nat → Bool) (pid : Nat) : SyscallFilter where
  syscallRules := initSyscallRules once
  syscallCalls := fun _ => 0
  state := ⟨false, false, pid⟩

def SyscallFilter.countCall (filter : SyscallFilter) (call : Nat) :
    SyscallFilter :=
  { filter with
    syscallCalls :=
      Function.update filter.syscallCalls call (filter.syscallCalls call + 1) }

/-- `NaclSyscallFilter::RunRule`, which does not use whether the call is
entered. -/
def runRule (filter : SyscallFilter) (pid : Nat) (regs : UserRegs)
    (_entering : Bool) : Bool × UserRegs × SyscallFilter :=
  let syscallNum := getSyscall regs
  let filter : SyscallFilter :=
    { filter with
      state :=
        { filter.state with
          doneExec := filter.state.doneExec || syscallNum = (nrExecve : Int)
          pid := pid } }
  if 0 > syscallNum ∨ syscallNum ≥ syscallTableSize then
    (false, regs, filter)
  else
    let call := syscallNum.toNat
    let checker := filter.syscallRules call
    if !checker.allowed then
      (false, regs, filter.countCall call)
    else
      let filter : SyscallFilter :=
        { filter with
          syscallRules := Function.update filter.syscallRules call
            { checker with allowed := !checker.once } }
      let (passed, after) := checker.kind.runRule regs
      if !passed then
        (false, after, filter.countCall call)
      else
        (true, after, filter)

end NativeClient.OuterSandbox
