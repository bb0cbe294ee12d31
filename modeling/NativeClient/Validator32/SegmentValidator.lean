import NativeClient.Decoder.SegmentDecoder
import NativeClient.Library.AddressTable
import NativeClient.Library.CountedLoop

/-!
# The 32 bit segment validator

`ncvalidate.c`.  The validator runs as the action of the segment decoder: it
remembers the addresses of instructions and jump targets in two bit vectors,
counts defects, and may overwrite an instruction with `HLT` in place.  The text
being validated is therefore part of the state.
-/

namespace NativeClient.Validator32

open NativeClient.Library
open NativeClient.Decoder

def kNaClFullStop : UInt8 := 0xf4
def kMaxValidPrefixBytes : Nat := 1
def kMaxValidInstLength : Nat := 11

structure CPUFeatures where
  f386 : Bool := false
  fx87 : Bool := false
  fMMX : Bool := false
  fSSE : Bool := false
  fSSE2 : Bool := false
  fSSE3 : Bool := false
  fSSSE3 : Bool := false
  fSSE41 : Bool := false
  fSSE42 : Bool := false
  fMOVBE : Bool := false
  fPOPCNT : Bool := false
  fCX8 : Bool := false
  fCMOV : Bool := false
  fFXSR : Bool := false
  fCLFLUSH : Bool := false
  fTSC : Bool := false
  f3DNOW : Bool := false
  fE3DNOW : Bool := false
  fLZCNT : Bool := false
  fSSE4A : Bool := false
  deriving DecidableEq

structure SummaryStats where
  instructions : Nat := 0
  checktarget : Nat := 0
  targetindirect : Nat := 0
  segments : Nat := 0
  badtarget : Nat := 0
  unsafeindirect : Nat := 0
  returns : Nat := 0
  illegalinst : Nat := 0
  badalignment : Nat := 0
  segfaults : Nat := 0
  badprefix : Nat := 0
  badinstlength : Nat := 0
  internalerrors : Nat := 0
  badcpu : Nat := 0
  sawfailure : Nat := 0
  deriving DecidableEq

structure NCValidatorState where
  cpufeatures : CPUFeatures
  iadrbase : Nat
  iadrlimit : Nat
  alignment : Nat
  alignmask : Nat
  stats : SummaryStats
  vttable : AddressTable
  kttable : AddressTable
  doStubOut : Bool

structure Validation where
  memory : Buffer
  vstate : NCValidatorState

/-! ## Statistics -/

def NCValidatorState.tally (vstate : NCValidatorState)
    (update : SummaryStats → SummaryStats) : NCValidatorState :=
  { vstate with stats := update vstate.stats }

def Validation.tally (validation : Validation)
    (update : SummaryStats → SummaryStats) : Validation :=
  { validation with vstate := validation.vstate.tally update }

def statsInst (stats : SummaryStats) : SummaryStats :=
  { stats with instructions := stats.instructions + 1 }

def statsCheckTarget (stats : SummaryStats) : SummaryStats :=
  { stats with checktarget := stats.checktarget + 1 }

def statsTargetIndirect (stats : SummaryStats) : SummaryStats :=
  { stats with targetindirect := stats.targetindirect + 1 }

def statsSawFailure (stats : SummaryStats) : SummaryStats :=
  { stats with sawfailure := 1 }

def statsInternalError (stats : SummaryStats) : SummaryStats :=
  statsSawFailure { stats with internalerrors := stats.internalerrors + 1 }

def statsBadCPU (stats : SummaryStats) : SummaryStats :=
  statsSawFailure { stats with badcpu := stats.badcpu + 1 }

def statsBadAlignment (stats : SummaryStats) : SummaryStats :=
  statsSawFailure { stats with badalignment := stats.badalignment + 1 }

def statsSegFault (stats : SummaryStats) : SummaryStats :=
  statsSawFailure { stats with segfaults := stats.segfaults + 1 }

def statsNewSegment (stats : SummaryStats) : SummaryStats :=
  let counted := { stats with segments := stats.segments + 1 }
  if counted.segments > 1 then statsSawFailure counted else counted

def statsBadTarget (stats : SummaryStats) : SummaryStats :=
  statsSawFailure { stats with badtarget := stats.badtarget + 1 }

def statsUnsafeIndirect (stats : SummaryStats) : SummaryStats :=
  statsSawFailure { stats with unsafeindirect := stats.unsafeindirect + 1 }

def statsReturn (stats : SummaryStats) : SummaryStats :=
  statsSawFailure
    (statsUnsafeIndirect { stats with returns := stats.returns + 1 })

def statsIllegalInst (stats : SummaryStats) : SummaryStats :=
  statsSawFailure { stats with illegalinst := stats.illegalinst + 1 }

def statsBadPrefix (stats : SummaryStats) : SummaryStats :=
  statsSawFailure
    { stats with
      badprefix := stats.badprefix + 1
      illegalinst := stats.illegalinst + 1 }

def statsBadInstLength (stats : SummaryStats) : SummaryStats :=
  statsSawFailure { stats with badinstlength := stats.badinstlength + 1 }

/-! ## Addresses -/

/-- `NCValidateInit`, with memory for the tables always available. -/
def ncValidateInit (vbase vlimit : UInt32) (alignment : UInt8) :
    Option NCValidatorState :=
  if vlimit ≤ vbase then
    none
  else if alignment ≠ 16 ∧ alignment ≠ 32 then
    none
  else if vbase.toNat &&& (alignment.toNat - 1) ≠ 0 then
    none
  else
    some
      { cpufeatures := {}
        iadrbase := vbase.toNat
        iadrlimit := vlimit.toNat
        alignment := alignment.toNat
        alignmask := alignment.toNat - 1
        stats := {}
        vttable := AddressTable.empty
        kttable := AddressTable.empty
        doStubOut := false }

def ncValidateSetStubOutMode (vstate : NCValidatorState) (doStubOut : Bool) :
    NCValidatorState :=
  { vstate with doStubOut := doStubOut }

def rememberIP (ip : Nat) (vstate : NCValidatorState) : NCValidatorState :=
  let ioffset := ip - vstate.iadrbase
  if ip < vstate.iadrbase ∨ ip ≥ vstate.iadrlimit then
    vstate.tally statsBadTarget
  else if vstate.vttable.get ioffset then
    vstate.tally statsInternalError
  else
    { vstate.tally statsInst with vttable := vstate.vttable.set ioffset }

def rememberTP (target : Nat) (vstate : NCValidatorState) :
    NCValidatorState :=
  if vstate.iadrbase ≤ target ∧ target < vstate.iadrlimit then
    { vstate with kttable := vstate.kttable.set (target - vstate.iadrbase) }
  else if target &&& vstate.alignmask = 0 then
    vstate
  else
    vstate.tally statsBadTarget

def forgetIP (ip : Nat) (vstate : NCValidatorState) : NCValidatorState :=
  if ip < vstate.iadrbase ∨ ip ≥ vstate.iadrlimit then
    vstate.tally statsBadTarget
  else
    { vstate with vttable := vstate.vttable.clear (ip - vstate.iadrbase) }

/-! ## The final pass -/

def NCValidatorState.size (vstate : NCValidatorState) : Nat :=
  vstate.iadrlimit - vstate.iadrbase

def checkTarget (offset : Nat) (vstate : NCValidatorState) :
    NCValidatorState :=
  if vstate.kttable.get offset then
    if vstate.vttable.get offset then vstate.tally statsCheckTarget
    else (vstate.tally statsCheckTarget).tally statsBadTarget
  else
    vstate

def checkBlock (offset : Nat) (vstate : NCValidatorState) :
    NCValidatorState :=
  if vstate.vttable.get offset then vstate
  else vstate.tally statsBadAlignment

def checkBaseAlignment (vstate : NCValidatorState) : NCValidatorState :=
  if vstate.iadrbase &&& vstate.alignmask ≠ 0 then
    vstate.tally statsBadAlignment
  else
    vstate

def ncValidateFinish (vstate : Option NCValidatorState) (fuel : Nat) :
    Option Nat :=
  match vstate with
  | none => some 1
  | some vstate => do
      let vstate ←
        runLoop (countedTurn NCValidatorState.size (fun _ => 1) checkTarget)
          fuel (0, vstate)
      let vstate ←
        runLoop (countedTurn NCValidatorState.size
            NCValidatorState.alignment checkBlock)
          fuel (0, checkBaseAlignment vstate)
      return vstate.stats.sawfailure

/-! ## One instruction -/

def badInstructionError (mstate : NCDecoderState) (validation : Validation) :
    Validation :=
  if validation.vstate.doStubOut then
    { validation with
      memory := validation.memory.fill mstate.inst.maddr mstate.inst.length
        kNaClFullStop }
  else
    validation

/-- Whether `0f ae /7` is implemented.  The ModRM byte is taken to be the third
byte of the instruction, prefixes or not. -/
def sFenceClFlushImplemented (mstate : NCDecoderState)
    (validation : Validation) : Bool :=
  let mrm := validation.memory (mstate.inst.maddr + 2)
  if modrmMod mrm = 3 then validation.vstate.cpufeatures.fFXSR
  else validation.vstate.cpufeatures.fCLFLUSH

def validateCallAlignment (mstate : NCDecoderState)
    (vstate : NCValidatorState) : NCValidatorState :=
  let fallthru := wrap32 (mstate.inst.vaddr + mstate.inst.length)
  if fallthru &&& vstate.alignmask ≠ 0 then vstate.tally statsBadAlignment
  else vstate

def isJmp8Opcode (opcode : UInt8) : Prop :=
  opcode &&& 0xf0 = 0x70 ∨ opcode = 0xeb ∨ opcode = 0xe0 ∨ opcode = 0xe1 ∨
    opcode = 0xe2 ∨ opcode = 0xe3

instance (opcode : UInt8) : Decidable (isJmp8Opcode opcode) :=
  inferInstanceAs (Decidable (_ ∨ _))

def validateJmp8 (mstate : NCDecoderState) (memory : Buffer)
    (vstate : NCValidatorState) : NCValidatorState :=
  let opcode := memory (mstate.inst.maddr + mstate.inst.prefixbytes)
  let offset :=
    signed8 (memory (mstate.inst.maddr + mstate.inst.prefixbytes + 1))
  let target := wrap32 (mstate.inst.vaddr + mstate.inst.length + offset)
  let vstate := vstate.tally statsCheckTarget
  if isJmp8Opcode opcode then rememberTP target vstate
  else vstate.tally statsInternalError

def validateJmpz (mstate : NCDecoderState) (memory : Buffer)
    (vstate : NCValidatorState) : NCValidatorState :=
  let opcode := mstate.inst.maddr + mstate.inst.prefixbytes
  let target (offset : Int) :=
    wrap32 (mstate.inst.vaddr + mstate.inst.length + offset)
  let vstate := vstate.tally statsCheckTarget
  if memory opcode = 0xe8 ∨ memory opcode = 0xe9 then
    let vstate := rememberTP (target (signed32 memory (opcode + 1))) vstate
    if memory opcode = 0xe8 then validateCallAlignment mstate vstate
    else vstate
  else if memory opcode = 0x0f then
    if memory (opcode + 1) &&& 0xf0 = 0x80 then
      rememberTP (target (signed32 memory (opcode + 2))) vstate
    else
      vstate
  else
    vstate.tally statsInternalError

def kRegESP : Nat := 4

def bundleMask (alignmask : Nat) : Nat :=
  0xff &&& (2 ^ 32 - 1 - alignmask)

/-- The checks of the five byte sequence
```
83 e0 f0                 and  $0xfffffff0,%eax
ff d0                    call *%eax
```
on the instruction `mstate` and the one before it. -/
def isNaclJmp (andinst mstate : NCDecoderState) (memory : Buffer)
    (alignmask : Nat) : Prop :=
  let jmpopcode := mstate.inst.maddr
  let andopcode := andinst.inst.maddr
  let mrm := memory (jmpopcode + 1)
  mstate.inst.prefixbytes = 0 ∧
    andinst.inst.prefixbytes = 0 ∧
    memory jmpopcode = 0xff ∧
    (modrmReg mrm = 2 ∨ modrmReg mrm = 4) ∧
    modrmMod mrm = 3 ∧
    modrmRm mrm ≠ kRegESP ∧
    memory andopcode = 0x83 ∧
    (memory (andopcode + 1)).toNat = 0xe0 ||| modrmRm mrm ∧
    (memory (andopcode + 2)).toNat = bundleMask alignmask

instance (andinst mstate : NCDecoderState) (memory : Buffer)
    (alignmask : Nat) : Decidable (isNaclJmp andinst mstate memory alignmask) :=
  inferInstanceAs (Decidable (_ ∧ _))

def validateIndirect5 (decodebuffer : DecodeBuffer)
    (validation : Validation) : Validation :=
  let mstate := decodebuffer.mstate
  let andinst := previousInst decodebuffer (-1)
  if andinst.inst.length = 0 then
    (badInstructionError mstate validation).tally statsUnsafeIndirect
  else
    let validation :=
      (validation.tally statsCheckTarget).tally statsTargetIndirect
    if isNaclJmp andinst mstate validation.memory
        validation.vstate.alignmask then
      let vstate := forgetIP mstate.inst.vaddr validation.vstate
      { validation with
        vstate :=
          if modrmReg (validation.memory (mstate.inst.maddr + 1)) = 2 then
            validateCallAlignment mstate vstate
          else
            vstate }
    else
      (badInstructionError mstate validation).tally statsUnsafeIndirect

def badPrefixMask : NaClInstType → Nat
  | .i386 => 0xffffffff - (kPrefixDATA16 ||| kPrefixSEGGS)
  | .i386L => 0xffffffff - (kPrefixDATA16 ||| kPrefixLOCK)
  | .i386R => 0xffffffff - (kPrefixDATA16 ||| kPrefixREP)
  | .i386RE => 0xffffffff - (kPrefixDATA16 ||| kPrefixREP ||| kPrefixREPNE)
  | .jmp8 => 0xffffffff - (kPrefixSEGCS ||| kPrefixSEGDS)
  | .jmpz => 0xffffffff - (kPrefixSEGCS ||| kPrefixSEGDS)
  | .cmpxchg8b => 0xffffffff - kPrefixLOCK
  | _ => 0xffffffff

/-- The prefix rules at the head of `ValidateInst`. -/
def prefixAllowed (mstate : NCDecoderState) : Bool :=
  if mstate.inst.prefixbytes = 0 then
    true
  else if mstate.inst.prefixbytes ≤ kMaxValidPrefixBytes then
    if mstate.inst.hasopbyte2 then
      if mstate.inst.prefixmask &&& kPrefixLOCK ≠ 0 then
        mstate.opinfo.insttype = .i386L ∨ mstate.opinfo.insttype = .cmpxchg8b
      else
        true
    else
      mstate.inst.prefixmask &&& badPrefixMask mstate.opinfo.insttype = 0
  else if mstate.inst.prefixbytes = 2 ∧
      mstate.inst.prefixmask = kPrefixLOCK ||| kPrefixDATA16 then
    mstate.opinfo.insttype = .i386L
  else
    false

/-- The groups of labels in the switch of `ValidateInst`. -/
inductive Treatment where
  | allowed
  | jmp8
  | jmpz
  | indirect
  | feature (present : CPUFeatures → Bool)
  | sfenceClflush
  | sse2x
  | returns
  | illegal
  | undefined
  | unknown

def treatment : NaClInstType → Treatment
  | .i386 | .i386L | .i386R | .i386RE => .allowed
  | .jmp8 => .jmp8
  | .jmpz => .jmpz
  | .indirect => .indirect
  | .x87 => .feature (·.fx87)
  | .sfenceClflush => .sfenceClflush
  | .cmpxchg8b => .feature (·.fCX8)
  | .cmov => .feature (·.fCMOV)
  | .fcmov => .feature fun cpu => cpu.fCMOV && cpu.fx87
  | .rdtsc => .feature (·.fTSC)
  | .mmx => .feature (·.fMMX)
  | .mmxsse2 => .feature fun cpu => cpu.fMMX || cpu.fSSE2
  | .sse => .feature (·.fSSE)
  | .sse2 => .feature (·.fSSE2)
  | .sse3 => .feature (·.fSSE3)
  | .sse4a => .feature (·.fSSE4A)
  | .sse41 => .feature (·.fSSE41)
  | .sse42 => .feature (·.fSSE42)
  | .movbe => .feature (·.fMOVBE)
  | .popcnt => .feature (·.fPOPCNT)
  | .lzcnt => .feature (·.fLZCNT)
  | .ssse3 => .feature (·.fSSSE3)
  | .threeDNow => .feature (·.f3DNOW)
  | .e3dnow => .feature (·.fE3DNOW)
  | .sse2x => .sse2x
  | .returns => .returns
  | .emmx | .invalid | .illegal | .system | .rdmsr | .rdtscp | .syscall
  | .sysenter | .longmode | .svm | .opInMrm | .threeByte | .cmpxchg16b =>
      .illegal
  | .undefined => .undefined
  | .vmx | .fxsave => .unknown

/-- The switch of `ValidateInst`, and whether to squash the instruction. -/
def validateByType (decodebuffer : DecodeBuffer) (validation : Validation) :
    Validation × Bool :=
  let mstate := decodebuffer.mstate
  let bad := badInstructionError mstate validation
  match treatment mstate.opinfo.insttype with
  | .allowed => (validation, false)
  | .jmp8 =>
      ({ validation with
          vstate := validateJmp8 mstate validation.memory validation.vstate },
        false)
  | .jmpz =>
      ({ validation with
          vstate := validateJmpz mstate validation.memory validation.vstate },
        false)
  | .indirect => (validateIndirect5 decodebuffer validation, false)
  | .feature present => (validation, !present validation.vstate.cpufeatures)
  | .sfenceClflush =>
      (validation, !sFenceClFlushImplemented mstate validation)
  | .sse2x =>
      (if mstate.inst.prefixmask &&& kPrefixDATA16 = 0 then
          bad.tally statsBadPrefix
        else
          validation,
        !validation.vstate.cpufeatures.fSSE2)
  | .returns =>
      ((badInstructionError mstate (bad.tally statsReturn)).tally
        statsIllegalInst, false)
  | .illegal => (bad.tally statsIllegalInst, false)
  | .undefined =>
      ((bad.tally statsIllegalInst).tally statsInternalError, false)
  | .unknown => (bad.tally statsInternalError, false)

def validatePrefixes (mstate : NCDecoderState) (validation : Validation) :
    Validation :=
  if prefixAllowed mstate then validation
  else (badInstructionError mstate validation).tally statsBadPrefix

def validateLength (mstate : NCDecoderState) (validation : Validation) :
    Validation :=
  if mstate.inst.length - mstate.inst.prefixbytes > kMaxValidInstLength then
    (badInstructionError mstate validation).tally statsBadInstLength
  else
    validation

def squash (mstate : NCDecoderState) (result : Validation × Bool) :
    Validation :=
  if result.2 then
    { result.1 with
      memory := result.1.memory.fill mstate.inst.maddr mstate.inst.length
        kNaClFullStop }
  else
    result.1

def rememberInst (mstate : NCDecoderState) (validation : Validation) :
    Validation :=
  { validation with
    vstate := rememberIP mstate.inst.vaddr validation.vstate }

def validateInst (decodebuffer : DecodeBuffer) (validation : Validation) :
    Validation :=
  let mstate := decodebuffer.mstate
  squash mstate <| validateByType decodebuffer <| validateLength mstate <|
    validatePrefixes mstate <| rememberInst mstate validation

/-! ## Segments -/

/-- The handlers registered by `NCValidateInit`. -/
def validatorStats : DecoderStats Validation where
  newSegment := fun validation => validation.tally statsNewSegment
  segFault := fun validation => validation.tally statsSegFault
  internalError := fun validation => validation.tally statsInternalError

def ncValidateStart (cpufeatures : CPUFeatures) (sz : Nat)
    (validation : Validation) : Validation ⊕ Validation :=
  if sz = 0 then
    .inl (validation.tally statsSegFault)
  else
    let detected :=
      { validation with
        vstate := { validation.vstate with cpufeatures := cpufeatures } }
    if cpufeatures.f386 then .inr detected
    else .inl (detected.tally statsBadCPU)

/-- `NCValidateSegment`, on a machine with the given features. -/
def ncValidateSegment (cpufeatures : CPUFeatures) (vbase sz : Nat)
    (validation : Validation) (fuel : Nat) : Option Validation :=
  match ncValidateStart cpufeatures sz validation with
  | .inl failed => some failed
  | .inr detected =>
      ncDecodeSegment Validation.memory validatorStats validateInst vbase sz
        detected fuel

/-- `NCValidateInit`, `NCValidateSegment` and `NCValidateFinish` in a row, as
`NaClValidateCode` calls them: they return `verdict` and leave `final` in the
place of the text `memory`. -/
def Validates (cpufeatures : CPUFeatures) (vbase vlimit : UInt32)
    (alignment : UInt8) (memory : Buffer) (verdict : Nat) (final : Buffer) :
    Prop :=
  ∃ vstate, ncValidateInit vbase vlimit alignment = some vstate ∧
    ∃ fuel validation,
      ncValidateSegment cpufeatures vbase.toNat (vlimit.toNat - vbase.toNat)
          ⟨memory, vstate⟩ fuel = some validation ∧
        validation.memory = final ∧
        ncValidateFinish (some validation.vstate) fuel = some verdict

/-- The same in either stub-out mode: `NCValidateSetStubOutMode` comes after
`NCValidateInit`. -/
def ValidatesIn (doStubOut : Bool) (cpufeatures : CPUFeatures)
    (vbase vlimit : UInt32) (alignment : UInt8) (memory : Buffer)
    (verdict : Nat) (final : Buffer) : Prop :=
  ∃ vstate, ncValidateInit vbase vlimit alignment = some vstate ∧
    ∃ fuel validation,
      ncValidateSegment cpufeatures vbase.toNat (vlimit.toNat - vbase.toNat)
          ⟨memory, ncValidateSetStubOutMode vstate doStubOut⟩ fuel =
            some validation ∧
        validation.memory = final ∧
        ncValidateFinish (some validation.vstate) fuel = some verdict

end NativeClient.Validator32
