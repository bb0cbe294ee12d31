import NativeClient.Validator64.ValidatorState

/-!
# The validators of one instruction

The functions of `nc_cpu_checks.c`, `nc_illegal.c`, `nc_protect_base.c`,
`nc_memory_protect.c` and `nc_jumps.c` that the iterator calls at each
instruction, in the order in which `ncvalidator_registry.c` registers them.
A validator sees the current instruction, with its operand trees, and looks
back at the ones before it.
-/

namespace NativeClient.Validator64

open NativeClient.Library
open NativeClient.Decoder (NaClInstType kPrefixSEGCS kPrefixSEGSS kPrefixSEGES
  kPrefixSEGDS kPrefixDATA16 kPrefixADDR16 kPrefixREP kPrefixREPNE kPrefixLOCK)
open NativeClient.Decoder64
open NativeClient.Validator32 (kNaClFullStop)

/-- `NaClInstIterHasLookbackState` and `NaClInstIterGetLookbackState`. -/
abbrev Lookback := Nat → Option NaClInstState

/-! ## `NaClCpuCheck` -/

/-- A CPU feature that the instruction needs is missing.  The `MMX` and `SSE2`
instructions are always removed. -/
def lacksFeature (features : CPUFeatures) : NaClInstType → Bool
  | .x87 => !features.fx87
  | .sfenceClflush => !features.fCLFLUSH || !features.fFXSR
  | .cmpxchg8b => !features.fCX8
  | .cmpxchg16b => !features.fCX16
  | .cmov => !features.fCMOV
  | .fcmov => !(features.fCMOV && features.fx87)
  | .rdtsc => !features.fTSC
  | .mmx => !features.fMMX
  | .mmxsse2 => true
  | .sse => !features.fSSE
  | .sse2 => !features.fSSE2
  | .sse3 => !features.fSSE3
  | .sse4a => !features.fSSE4A
  | .sse41 => !features.fSSE41
  | .sse42 => !features.fSSE42
  | .movbe => !features.fMOVBE
  | .popcnt => !features.fPOPCNT
  | .lzcnt => !features.fLZCNT
  | .ssse3 => !features.fSSSE3
  | .threeDNow => !features.f3DNOW
  | .e3dnow => !features.fE3DNOW
  | .longmode => !features.fLM
  | .sse2x => !features.fSSE2
  | _ => false

def squashMe (features : CPUFeatures) (inst : NaClInst) : Bool :=
  lacksFeature features inst.insttype ||
    (inst.has .longMode && !features.fLM)

def naClCpuCheck (config : NaClValidatorConfig) (inst : NaClInstState)
    (state : NaClValidatorState) : NaClValidatorState :=
  let checked :=
    if inst.inst.insttype = .sse2x ∧ inst.masked kPrefixDATA16 = false then
      naClValidatorInstMessage config inst state
    else
      state
  if squashMe config.cpuFeatures inst.inst then
    { checked with
      text := checked.text.fill inst.mpc inst.length kNaClFullStop }
  else
    checked

def naClCpuCheckSummary (config : NaClValidatorConfig)
    (state : NaClValidatorState) : NaClValidatorState :=
  if config.cpuFeatures.f386 then state else naClValidatorMessage config state

/-! ## `NaClValidateInstructionLegal` -/

inductive NaClDisallowsFlag where
  | tooManyPrefixBytes | markedIllegal | markedInvalid | markedSystem
  | hasBadSegmentPrefix | cantUsePrefix67 | multipleRexPrefix | repDisallowed
  | repneDisallowed | data16Disallowed

def allDisallowsFlags : List NaClDisallowsFlag :=
  [.tooManyPrefixBytes, .markedIllegal, .markedInvalid, .markedSystem,
    .hasBadSegmentPrefix, .cantUsePrefix67, .multipleRexPrefix,
    .repDisallowed, .repneDisallowed, .data16Disallowed]

def isIllegalType : NaClInstType → Bool
  | .returns | .emmx | .illegal | .system | .rdmsr | .rdtscp | .longmode
  | .svm | .threeByte | .cmpxchg16b | .undefined => true
  | _ => false

/-- The prefix bytes other than `REX`. -/
def nonRexPrefixBytes (inst : NaClInstState) : Nat :=
  if inst.rexPrefix ≠ 0 then inst.numPrefixBytes - 1 else inst.numPrefixBytes

/-- `NaClCheckForPrefixIssues` and `NaClCheckIfMarkedIllegal`. -/
def disallows (inst : NaClInstState) : NaClDisallowsFlag → Bool
  | .tooManyPrefixBytes =>
      decide (1 < nonRexPrefixBytes inst) &&
        !(nonRexPrefixBytes inst == 2 && inst.masked kPrefixDATA16 &&
          inst.masked kPrefixLOCK)
  | .markedIllegal =>
      inst.inst.has .naClIllegal || isIllegalType inst.inst.insttype
  | .markedInvalid =>
      inst.inst.name == .instInvalid || inst.inst.insttype == .invalid
  | .markedSystem =>
      inst.inst.insttype == .syscall || inst.inst.insttype == .sysenter
  | .hasBadSegmentPrefix =>
      inst.masked
          (kPrefixSEGCS ||| kPrefixSEGSS ||| kPrefixSEGES ||| kPrefixSEGDS) &&
        !inst.inst.has .ignorePrefixSEGCS
  | .cantUsePrefix67 => inst.masked kPrefixADDR16
  | .multipleRexPrefix => decide (1 < inst.numRexPrefixes)
  | .repDisallowed =>
      inst.masked kPrefixREP && !inst.inst.has .opcodeAllowsRep
  | .repneDisallowed =>
      inst.masked kPrefixREPNE && !inst.inst.has .opcodeAllowsRepne
  | .data16Disallowed =>
      inst.masked kPrefixDATA16 && !inst.inst.has .opcodeAllowsData16

def naClValidateInstructionLegal (config : NaClValidatorConfig)
    (inst : NaClInstState) (state : NaClValidatorState) :
    NaClValidatorState :=
  (allDisallowsFlags.filter (disallows inst)).foldl
    (fun reported _ =>
      if reported.quit then reported
      else naClValidatorInstMessage config inst reported)
    state

/-! ## `NaClBaseRegisterValidator` -/

namespace NaClBaseRegisterLocals

def previous (locals : NaClBaseRegisterLocals) : NaClRegisterLocals :=
  locals.buffer locals.previousIndex

def current (locals : NaClBaseRegisterLocals) : NaClRegisterLocals :=
  locals.buffer locals.currentIndex

def setPrevious (locals : NaClBaseRegisterLocals)
    (slot : NaClRegisterLocals) : NaClBaseRegisterLocals :=
  { locals with
    buffer := Function.update locals.buffer locals.previousIndex slot }

def setCurrent (locals : NaClBaseRegisterLocals)
    (slot : NaClRegisterLocals) : NaClBaseRegisterLocals :=
  { locals with
    buffer := Function.update locals.buffer locals.currentIndex slot }

def rotate (locals : NaClBaseRegisterLocals) : NaClBaseRegisterLocals :=
  { locals with
    previousIndex := locals.currentIndex
    currentIndex :=
      (locals.currentIndex + 1) % naclRegisterLocalsBufferSize }

end NaClBaseRegisterLocals

namespace NaClValidatorState

def clearPreviousEsp (state : NaClValidatorState) : NaClValidatorState :=
  { state with
    locals := state.locals.setPrevious
      { state.locals.previous with espSetInst := none } }

def clearPreviousEbp (state : NaClValidatorState) : NaClValidatorState :=
  { state with
    locals := state.locals.setPrevious
      { state.locals.previous with ebpSetInst := none } }

def recordEsp (state : NaClValidatorState) (inst : NaClInstState) :
    NaClValidatorState :=
  { state with
    locals := state.locals.setCurrent
      { state.locals.current with espSetInst := some inst } }

def recordEbp (state : NaClValidatorState) (inst : NaClInstState) :
    NaClValidatorState :=
  { state with
    locals := state.locals.setCurrent
      { state.locals.current with ebpSetInst := some inst } }

end NaClValidatorState

def reportPreviousEsp (config : NaClValidatorConfig)
    (state : NaClValidatorState) : NaClValidatorState :=
  match state.locals.previous.espSetInst with
  | some inst => (naClValidatorInstMessage config inst state).clearPreviousEsp
  | none => state

def reportPreviousEbp (config : NaClValidatorConfig)
    (state : NaClValidatorState) : NaClValidatorState :=
  match state.locals.previous.ebpSetInst with
  | some inst => (naClValidatorInstMessage config inst state).clearPreviousEbp
  | none => state

def naClMaybeReportPreviousBad (config : NaClValidatorConfig)
    (state : NaClValidatorState) : NaClValidatorState :=
  let reported := reportPreviousEbp config (reportPreviousEsp config state)
  { reported with locals := reported.locals.rotate }

/-- The instruction is `lea %reg, [%reg+%rbase*1]`, and the one before it
assigns the 32 bit half of the register. -/
def isRegMoveLea32To64 (config : NaClValidatorConfig) (look : Lookback)
    (inst : NaClInstState) (reg : NaClOpKind) : Bool :=
  naClOperandOneIsRegisterSet inst reg &&
    (look 1).any fun previous =>
      naClAssignsRegisterWithZeroExtends previous
          (naClGet32For64BitReg reg) &&
        naClIsLeaAddressRegPlusRbase config.baseRegister inst reg

def naClAcceptRegMoveLea32To64 (config : NaClValidatorConfig)
    (look : Lookback) (inst : NaClInstState) (reg : NaClOpKind)
    (state : NaClValidatorState) : Option NaClValidatorState :=
  if isRegMoveLea32To64 config look inst reg then
    some (naClMarkInstructionJumpIllegal config inst state)
  else
    none

/-- `or` or `add` of `%rbase` to `%rsp`, after an assignment to `%esp`. -/
def isRspRestore (config : NaClValidatorConfig) (look : Lookback)
    (inst : NaClInstState) : Bool :=
  naClIsBinarySetUsingRegisters inst.inst inst.inst.name (vectorOf inst)
      .regRSP config.baseRegister &&
    (look 1).any fun previous =>
      naClAssignsRegisterWithZeroExtends previous .regESP ||
        (inst.inst.name == .instAdd &&
          naClIsAddOrSubBoundedConstFromEsp previous)

def isAndRspNegative (text : Buffer) (inst : NaClInstState) : Bool :=
  inst.length == 4 && text inst.mpc == 0x48 && text (inst.mpc + 1) == 0x83 &&
    text (inst.mpc + 2) == 0xe4 && text (inst.mpc + 3) &&& 0x80 != 0

/-- Only `mov %rsp, %rbp` is left. -/
def checkMovRsp (config : NaClValidatorConfig) (inst : NaClInstState)
    (state : NaClValidatorState) : NaClValidatorState :=
  if naClIsMovUsingRegisters inst.inst (vectorOf inst) .regRSP .regRBP then
    state
  else
    naClValidatorInstMessage config inst state

def naClCheckRspAssignments (config : NaClValidatorConfig) (look : Lookback)
    (inst : NaClInstState) (index : Nat) (state : NaClValidatorState) :
    NaClValidatorState :=
  match inst.inst.name with
  | .instPush | .instPop =>
      if index = 1 then state else naClValidatorInstMessage config inst state
  | .instCall =>
      if index = 3 then state else naClValidatorInstMessage config inst state
  | .instOr | .instAdd =>
      if isRspRestore config look inst then
        (naClMarkInstructionJumpIllegal config inst state).clearPreviousEsp
      else
        naClValidatorInstMessage config inst state
  | .instLea =>
      match naClAcceptRegMoveLea32To64 config look inst .regRSP state with
      | some marked =>
          (naClMarkInstructionJumpIllegal config inst marked).clearPreviousEsp
      | none => naClValidatorInstMessage config inst state
  | .instAnd =>
      if isAndRspNegative state.text inst then state
      else checkMovRsp config inst state
  | _ => checkMovRsp config inst state

/-- `add` of `%rbase` to `%rbp`, after an assignment to `%ebp`. -/
def isRbpRestore (config : NaClValidatorConfig) (look : Lookback)
    (inst : NaClInstState) : Bool :=
  (look 1).any fun previous =>
    naClIsBinarySetUsingRegisters inst.inst .instAdd (vectorOf inst) .regRBP
        config.baseRegister &&
      naClAssignsRegisterWithZeroExtends previous .regEBP

def naClCheckRbpAssignments (config : NaClValidatorConfig) (look : Lookback)
    (inst : NaClInstState) (state : NaClValidatorState) :
    NaClValidatorState :=
  match inst.inst.name with
  | .instAdd =>
      if isRbpRestore config look inst then
        (naClMarkInstructionJumpIllegal config inst state).clearPreviousEbp
      else
        naClValidatorInstMessage config inst state
  | .instLea =>
      match naClAcceptRegMoveLea32To64 config look inst .regRBP state with
      | some marked => marked.clearPreviousEbp
      | none => naClValidatorInstMessage config inst state
  | _ =>
      if naClIsMovUsingRegisters inst.inst (vectorOf inst) .regRBP .regRSP then
        state
      else
        naClValidatorInstMessage config inst state

def naClCheckSubregChangeOfRspRbpOrBase (config : NaClValidatorConfig)
    (inst : NaClInstState) (reg : NaClOpKind) (state : NaClValidatorState) :
    NaClValidatorState :=
  if naClIs64Subreg config.pastRegTable64 inst reg config.baseRegister then
    naClValidatorInstMessage config inst state
  else if naClIs64Subreg config.pastRegTable64 inst reg .regRSP then
    naClValidatorInstMessage config inst state
  else if naClIs64Subreg config.pastRegTable64 inst reg .regRBP then
    naClValidatorInstMessage config inst state
  else
    state

def isSegmentRegister : NaClOpKind → Bool
  | .regCS | .regDS | .regSS | .regES | .regFS | .regGS => true
  | _ => false

def checkAssignment (config : NaClValidatorConfig) (look : Lookback)
    (inst : NaClInstState) (index : Nat) (reg : NaClOpKind)
    (state : NaClValidatorState) : NaClValidatorState :=
  if reg = config.baseRegister then
    naClValidatorInstMessage config inst state
  else if reg = .regRSP then
    naClCheckRspAssignments config look inst index state
  else if reg = .regRBP then
    naClCheckRbpAssignments config look inst state
  else if reg = .regESP then
    state.recordEsp inst
  else if reg = .regEBP then
    state.recordEbp inst
  else if isSegmentRegister reg then
    naClValidatorInstMessage config inst state
  else
    naClCheckSubregChangeOfRspRbpOrBase config inst reg state

def isAssignment (node : NaClExp) : Bool :=
  node.kind == .exprRegister && node.has .exprSet

def checkRegisterNode (config : NaClValidatorConfig) (look : Lookback)
    (inst : NaClInstState) (state : NaClValidatorState) (index : Nat) :
    NaClValidatorState :=
  if isAssignment ((vectorOf inst).node index) then
    checkAssignment config look inst index
      (naClGetExpVectorRegister (vectorOf inst) index) state
  else
    state

def checkRegisterNodes (config : NaClValidatorConfig) (look : Lookback)
    (inst : NaClInstState) (state : NaClValidatorState) :
    NaClValidatorState :=
  (List.range (vectorOf inst).numberExprNodes).foldl
    (checkRegisterNode config look inst) state

def naClBaseRegisterValidator (config : NaClValidatorConfig)
    (look : Lookback) (inst : NaClInstState) (state : NaClValidatorState) :
    NaClValidatorState :=
  naClMaybeReportPreviousBad config
    (checkRegisterNodes config look inst state)

def naClBaseRegisterSummarize (config : NaClValidatorConfig)
    (state : NaClValidatorState) : NaClValidatorState :=
  naClMaybeReportPreviousBad config state

/-! ## `NaClMemoryReferenceValidator` -/

def isPossibleSandboxingNode (config : NaClValidatorConfig)
    (node : NaClExp) : Bool :=
  (config.naclFlagsReadSandbox && node.has .exprUsed) || node.has .exprSet

def isSandboxedBase (config : NaClValidatorConfig) (reg : NaClOpKind) :
    Bool :=
  reg == config.baseRegister || reg == .regRSP || reg == .regRBP ||
    reg == .regRIP

def indexRegIsGood (look : Lookback) (distance : Nat)
    (vector : NaClExpVector) (index : Nat) : Bool :=
  naClGetExpVectorRegister vector (memOffsetPart vector index 0) != .regRIP &&
    (vector.node (memOffsetPart vector index 1)).has .exprSize64 &&
    (look (distance + 1)).any fun previous =>
      naClAssignsRegisterWithZeroExtends previous
        (naClGet32For64BitReg
          (naClGetExpVectorRegister vector (memOffsetPart vector index 1)))

def hasGoodDisplacement (vector : NaClExpVector) (index : Nat) : Bool :=
  let kind := (vector.node (memOffsetPart vector index 3)).kind
  kind == .exprConstant ||
    (naClGetExpVectorRegister vector (memOffsetPart vector index 0) ==
        .regRIP &&
      kind != .exprConstant64)

def complain (config : NaClValidatorConfig) (inst : NaClInstState)
    (printMessages : Bool) (state : NaClValidatorState) :
    NaClValidatorState :=
  if printMessages then naClValidatorInstMessage config inst state else state

def checkDisplacement (config : NaClValidatorConfig) (inst : NaClInstState)
    (index : Nat) (printMessages : Bool) (state : NaClValidatorState) :
    Bool × NaClValidatorState :=
  if hasGoodDisplacement (vectorOf inst) index then
    (true, state)
  else
    (false, complain config inst printMessages state)

/-- `NaClIsValidMemOffset`, for an instruction that is `distance` instructions
back. -/
def naClIsValidMemOffset (config : NaClValidatorConfig) (look : Lookback)
    (distance : Nat) (inst : NaClInstState) (index : Nat)
    (printMessages : Bool) (state : NaClValidatorState) :
    Bool × NaClValidatorState :=
  let vector := vectorOf inst
  if (vector.node index).kind ≠ .exprMemOffset then
    (false, state)
  else if (vector.node index).has .exprSize64 = false then
    (false, complain config inst printMessages state)
  else if isSandboxedBase config (naClGetExpVectorRegister vector
      (memOffsetPart vector index 0)) = false then
    (false, complain config inst printMessages state)
  else if naClGetExpVectorRegister vector (memOffsetPart vector index 1) =
      .regUnknown then
    checkDisplacement config inst index printMessages state
  else if indexRegIsGood look distance vector index then
    checkDisplacement config inst index printMessages
      (naClMarkInstructionJumpIllegal config inst state)
  else
    (false, complain config inst printMessages state)

def isNullSegment : NaClOpKind → Bool
  | .regCS | .regDS | .regES | .regSS => true
  | _ => false

/-- The place of the second operand of the `lea`. -/
def leaOperand (lea : NaClInstState) : Nat :=
  naClGetExpKidIndex (vectorOf lea)
    (naClGetNthExpKind (vectorOf lea) .operandReference 2) 0

/-- The instruction is a `lea` into the register of the segment address. -/
def isLeaInto (lea inst : NaClInstState) (index : Nat) : Bool :=
  let register := naClGetExpKidIndex (vectorOf inst) index 1
  lea.inst.name == .instLea &&
    decide (register < (vectorOf inst).numberExprNodes) &&
    naClGetExpVectorRegister (vectorOf lea) 1 ==
      naClGetExpVectorRegister (vectorOf inst) register &&
    decide (naClGetNthExpKind (vectorOf lea) .operandReference 2 <
      (vectorOf lea).numberExprNodes) &&
    decide (leaOperand lea < (vectorOf lea).numberExprNodes)

def checkSegmentAddress (config : NaClValidatorConfig) (look : Lookback)
    (inst : NaClInstState) (index : Nat) (state : NaClValidatorState) :
    NaClValidatorState :=
  if ((vectorOf inst).node index).has .exprSize64 = false then
    naClValidatorInstMessage config inst state
  else if isNullSegment (naClGetExpVectorRegister (vectorOf inst)
      (naClGetExpKidIndex (vectorOf inst) index 0)) = false then
    naClValidatorInstMessage config inst state
  else
    match look 1 with
    | none => naClValidatorInstMessage config inst state
    | some previous =>
        if isLeaInto previous inst index then
          match naClIsValidMemOffset config look 1 previous
              (leaOperand previous) false state with
          | (true, checked) =>
              naClMarkInstructionJumpIllegal config inst checked
          | (false, checked) => naClValidatorInstMessage config inst checked
        else
          naClValidatorInstMessage config inst state

def isOptionalIndex (vector : NaClExpVector) (index : Nat) : Bool :=
  (naClGetExpParentIndex vector index).any fun parent =>
    index == naClGetExpKidIndex vector parent 1

def isUnknownNode (node : NaClExp) : Bool :=
  node.kind == .undefinedExp ||
    (node.kind == .exprRegister && naClGetExpRegister node == .regUnknown)

def checkOtherNode (config : NaClValidatorConfig) (look : Lookback)
    (inst : NaClInstState) (index : Nat) (state : NaClValidatorState) :
    NaClValidatorState :=
  if ((vectorOf inst).node index).kind = .exprSegmentAddress then
    checkSegmentAddress config look inst index state
  else if isUnknownNode ((vectorOf inst).node index) &&
      !isOptionalIndex (vectorOf inst) index then
    naClValidatorInstMessage config inst state
  else
    state

def checkMemoryNode (config : NaClValidatorConfig) (look : Lookback)
    (inst : NaClInstState) (state : NaClValidatorState) (index : Nat) :
    NaClValidatorState :=
  if state.quit then
    state
  else if isPossibleSandboxingNode config ((vectorOf inst).node index) then
    match naClIsValidMemOffset config look 0 inst index true state with
    | (true, checked) => checked
    | (false, checked) => checkOtherNode config look inst index checked
  else
    state

def naClMemoryReferenceValidator (config : NaClValidatorConfig)
    (look : Lookback) (inst : NaClInstState) (state : NaClValidatorState) :
    NaClValidatorState :=
  (List.range (vectorOf inst).numberExprNodes).foldl
    (checkMemoryNode config look inst) state

/-! ## `NaClJumpValidator` -/

def naClAddJumpToJumpSets (config : NaClValidatorConfig) (target : Nat)
    (inst : NaClInstState) (state : NaClValidatorState) :
    NaClValidatorState :=
  if config.vbase ≤ target ∧ target < config.vlimit then
    naClAddressSetAdd config .actualTargets target state
  else if target &&& config.alignmentMask = 0 ∧ target < 2 ^ 32 then
    state
  else
    naClValidatorInstMessage config inst state

/-- The 64 bit register that an `and` with the jump mask leaves masked. -/
def maskedRegister (config : NaClValidatorConfig) (inst : NaClInstState) :
    Option NaClOpKind :=
  if inst.inst.opcodeByte 0 = 0x83 ∧ inst.inst.name = .instAnd then
    match naClExtractBinaryOperandIndices (vectorOf inst) with
    | some (op1, op2) =>
        let masked := naClGet64For32BitReg
          (naClGetExpVectorRegister (vectorOf inst) op1)
        if ((vectorOf inst).node op1).kind = .exprRegister ∧
            masked ≠ .regUnknown ∧
            ((vectorOf inst).node op2).kind = .exprConstant ∧
            ((vectorOf inst).node op2).value.toInt =
              config.jumpMask.toNat then
          some masked
        else
          none
    | none => none
  else
    none

/-- The instruction computes the jump target from `%rbase` and the masked
register. -/
def addsBase (config : NaClValidatorConfig) (inst : NaClInstState)
    (masked jumpReg : NaClOpKind) : Bool :=
  match naClExtractBinaryOperandIndices (vectorOf inst) with
  | some (op1, op2) =>
      isRegisterNode (vectorOf inst) op1 jumpReg &&
        (if inst.inst.name = .instLea then
          ((vectorOf inst).node op2).kind == .exprMemOffset &&
            naClMemOffsetMatchesBaseIndex (vectorOf inst) op2
              config.baseRegister masked
        else
          inst.inst.name == .instAdd && jumpReg == masked &&
            naClGetExpVectorRegister (vectorOf inst) op2 ==
              config.baseRegister)
  | none => false

def maskedJumpMiddle (config : NaClValidatorConfig) (look : Lookback)
    (jumpReg : NaClOpKind) : Option NaClInstState := do
  let andState ← look 2
  let masked ← maskedRegister config andState
  let middle ← look 1
  if addsBase config middle masked jumpReg then some middle else none

def naClAddRegisterJumpIndirect64 (config : NaClValidatorConfig)
    (look : Lookback) (inst : NaClInstState) (jumpReg : NaClOpKind)
    (state : NaClValidatorState) : NaClValidatorState :=
  match maskedJumpMiddle config look jumpReg with
  | some middle =>
      naClMarkInstructionJumpIllegal config inst
        (naClMarkInstructionJumpIllegal config middle state)
  | none => naClValidatorInstMessage config inst state

/-- An explicit target; `call 0` is allowed. -/
def checkDirectTarget (config : NaClValidatorConfig) (target : Nat)
    (inst : NaClInstState) (state : NaClValidatorState) :
    NaClValidatorState :=
  if target = 0 ∧ inst.inst.name = .instCall then state
  else naClAddJumpToJumpSets config target inst state

def checkJumpNode (config : NaClValidatorConfig) (look : Lookback)
    (inst : NaClInstState) (state : NaClValidatorState) (index : Nat) :
    NaClValidatorState :=
  if ((vectorOf inst).node index).has .exprJumpTarget then
    match ((vectorOf inst).node index).kind with
    | .exprRegister =>
        naClAddRegisterJumpIndirect64 config look inst
          (naClGetExpVectorRegister (vectorOf inst) index) state
    | .exprConstant | .exprConstant64 =>
        checkDirectTarget config (naClGetExpConstant (vectorOf inst) index)
          inst state
    | _ => naClValidatorInstMessage config inst state
  else
    state

def naClAddExprJumpTarget (config : NaClValidatorConfig) (look : Lookback)
    (inst : NaClInstState) (state : NaClValidatorState) :
    NaClValidatorState :=
  (List.range (vectorOf inst).numberExprNodes).foldl
    (checkJumpNode config look inst) state

def naClValidateCallAlignment (config : NaClValidatorConfig)
    (inst : NaClInstState) (state : NaClValidatorState) :
    NaClValidatorState :=
  if (inst.vpc + inst.length) &&& config.alignmentMask ≠ 0 then
    naClValidatorInstMessage config inst state
  else
    state

def naClRememberIp (config : NaClValidatorConfig) (inst : NaClInstState)
    (state : NaClValidatorState) : NaClValidatorState :=
  if inst.vpc < config.vbase ∨ config.vlimit ≤ inst.vpc then
    naClValidatorInstMessage config inst state
  else
    naClAddressSetAdd config .possibleTargets inst.vpc state

def isJump : NaClMnemonic → Bool
  | .instJb | .instJbe | .instJcxz | .instJecxz | .instJrcxz | .instJnl
  | .instJnle | .instJl | .instJle | .instJmp | .instJnb | .instJnbe
  | .instJno | .instJnp | .instJns | .instJnz | .instJo | .instJp | .instJs
  | .instJz | .instLoop | .instLoope | .instLoopne => true
  | _ => false

def naClJumpValidator (config : NaClValidatorConfig) (look : Lookback)
    (inst : NaClInstState) (state : NaClValidatorState) :
    NaClValidatorState :=
  let remembered := naClRememberIp config inst state
  if isJump inst.inst.name then
    naClAddExprJumpTarget config look inst remembered
  else if inst.inst.name = .instCall then
    naClValidateCallAlignment config inst
      (naClAddExprJumpTarget config look inst remembered)
  else
    remembered

end NativeClient.Validator64
