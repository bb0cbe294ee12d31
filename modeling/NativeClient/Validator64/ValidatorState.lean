import NativeClient.Validator64.Expressions
import NativeClient.Validator32.SegmentValidator

/-!
# The state of the 64 bit validator

The part of `ncvalidate_iter.c` that creates a validator state and reports
messages, and the address sets of `nc_jumps.c`.  A message may stop the
validation and may overwrite the instruction it is about, so the text belongs
to the state.  What stays as it was created is a `NaClValidatorConfig`.
-/

namespace NativeClient.Validator64

open NativeClient.Library
open NativeClient.Decoder64
open NativeClient.Validator32 (kNaClFullStop)

structure CPUFeatures extends NativeClient.Validator32.CPUFeatures where
  fCX16 : Bool := false
  fLM : Bool := false

/-- A validator state as `NaClValidatorStateCreate` makes it, which fails for
an empty segment, for one that wraps around and for other alignments.  The
callers reserve `%r15`. -/
structure NaClValidatorConfig where
  vbase : Nat
  size : Nat
  alignment : Nat
  baseRegister : NaClOpKind
  cpuFeatures : CPUFeatures
  doStubOut : Bool
  /-- Errors are within the verbosity of the log. -/
  logsErrors : Bool
  naclFlagsMaxReportedErrors : Int
  naclFlagsReadSandbox : Bool
  naclFlagsIdentityMask : Bool
  /-- The memory that is read as `NaClRegTable64[index]` past its end. -/
  pastRegTable64 : Nat → Nat
  nonempty : 0 < size
  bounded : vbase + size < 2 ^ 64
  bundles : alignment = 16 ∨ alignment = 32
  reserved : baseRegister ∈ naClRegTable64 ∧
    baseRegister ≠ .regRSP ∧ baseRegister ≠ .regRBP

theorem regR15_reserved :
    NaClOpKind.regR15 ∈ naClRegTable64 ∧ NaClOpKind.regR15 ≠ .regRSP ∧
      NaClOpKind.regR15 ≠ .regRBP := by
  decide

namespace NaClValidatorConfig

variable (config : NaClValidatorConfig)

def vlimit : Nat :=
  config.vbase + config.size

def alignmentMask : Nat :=
  config.alignment - 1

def segment : NaClSegment :=
  ⟨config.vbase, config.size⟩

def jumpMask : UInt8 :=
  if config.naclFlagsIdentityMask then 0xff
  else ~~~ UInt8.ofNat config.alignmentMask

end NaClValidatorConfig

structure NaClRegisterLocals where
  espSetInst : Option NaClInstState
  ebpSetInst : Option NaClInstState

def noAssignments : NaClRegisterLocals := ⟨none, none⟩

def naclRegisterLocalsBufferSize : Nat := 2

structure NaClBaseRegisterLocals where
  buffer : Nat → NaClRegisterLocals
  previousIndex : Nat
  currentIndex : Nat

def naClBaseRegisterMemoryCreate : NaClBaseRegisterLocals where
  buffer := fun _ => noAssignments
  previousIndex := 0
  currentIndex := 1

/-- The address sets of `NaClJumpSets`. -/
inductive TargetSet where
  | actualTargets | possibleTargets | removedTargets
  deriving DecidableEq

structure NaClValidatorState where
  text : Buffer
  validatesOk : Bool
  quit : Bool
  quitAfterErrorCount : Int
  locals : NaClBaseRegisterLocals
  jumpSets : TargetSet → AddressTable

def naClValidatorStateCreate (config : NaClValidatorConfig) (text : Buffer) :
    NaClValidatorState where
  text := text
  validatesOk := true
  quit := false
  quitAfterErrorCount := config.naclFlagsMaxReportedErrors
  locals := naClBaseRegisterMemoryCreate
  jumpSets := fun _ => AddressTable.empty

/-! ## Messages -/

def naClValidatorQuit (state : NaClValidatorState) : Bool :=
  !state.validatesOk && state.quitAfterErrorCount == 0

def naClRecordIfValidatorError (state : NaClValidatorState) :
    NaClValidatorState :=
  { state with
    validatesOk := false
    quit := naClValidatorQuit { state with validatesOk := false } }

def naClPrintValidatorMessages (config : NaClValidatorConfig)
    (state : NaClValidatorState) : Bool :=
  state.quitAfterErrorCount != 0 && config.logsErrors

def naClRecordErrorReported (config : NaClValidatorConfig)
    (state : NaClValidatorState) : NaClValidatorState :=
  if 0 < state.quitAfterErrorCount ∧ config.doStubOut = false then
    let counted :=
      { state with quitAfterErrorCount := state.quitAfterErrorCount - 1 }
    { counted with quit := naClValidatorQuit counted }
  else
    state

def naClValidatorMessage (config : NaClValidatorConfig)
    (state : NaClValidatorState) : NaClValidatorState :=
  let recorded := naClRecordIfValidatorError state
  if naClPrintValidatorMessages config recorded then
    naClRecordErrorReported config recorded
  else
    recorded

def naClValidatorInstMessage (config : NaClValidatorConfig)
    (inst : NaClInstState) (state : NaClValidatorState) :
    NaClValidatorState :=
  let reported := naClValidatorMessage config state
  if config.doStubOut then
    { reported with
      text := reported.text.fill inst.mpc inst.length kNaClFullStop }
  else
    reported

/-! ## Address sets -/

def naClCheckAddressRange (config : NaClValidatorConfig) (address : Nat)
    (state : NaClValidatorState) : Bool × NaClValidatorState :=
  if address < config.vbase then
    (false, naClValidatorMessage config state)
  else if config.vlimit ≤ address then
    (false, naClValidatorMessage config state)
  else
    (true, state)

def naClAddressSetContains (config : NaClValidatorConfig) (set : TargetSet)
    (address : Nat) (state : NaClValidatorState) :
    Bool × NaClValidatorState :=
  match naClCheckAddressRange config address state with
  | (true, checked) =>
      ((checked.jumpSets set).get (address - config.vbase), checked)
  | (false, checked) => (false, checked)

def naClAddressSetAdd (config : NaClValidatorConfig) (set : TargetSet)
    (address : Nat) (state : NaClValidatorState) : NaClValidatorState :=
  match naClCheckAddressRange config address state with
  | (true, checked) =>
      { checked with
        jumpSets := Function.update checked.jumpSets set
          ((checked.jumpSets set).set (address - config.vbase)) }
  | (false, checked) => checked

def naClMarkInstructionJumpIllegal (config : NaClValidatorConfig)
    (inst : NaClInstState) (state : NaClValidatorState) :
    NaClValidatorState :=
  if inst.vpc < config.vbase ∨ config.vlimit ≤ inst.vpc then
    state
  else
    naClAddressSetAdd config .removedTargets inst.vpc state

end NativeClient.Validator64
