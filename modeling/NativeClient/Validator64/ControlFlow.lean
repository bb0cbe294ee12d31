import NativeClient.Validator64.SegmentRun

/-!
# Control flow of accepted segments

In a segment that the 64 bit validator accepts, direct jumps and bundle starts
enter the code only at the starts of instructions, and never inside an atomic
sequence; indirect jumps are masked.
-/

namespace NativeClient.Validator64

open NativeClient.Library
open NativeClient.Decoder64
open NativeClient.Decoder (modrmRm modrmReg)

section Statements

variable (tables : Tables) (config : NaClValidatorConfig) (text : Buffer)

abbrev instAt (count : Nat) : NaClInstState :=
  instructionAt tables text config.segment count

def DirectTarget (target : Nat) : Prop :=
  ∃ count index, IsInstruction tables text config.segment count ∧
    IsTarget (instAt tables config text count) index ∧
    isConstantKind
      ((vectorOf (instAt tables config text count)).node index).kind = true ∧
    naClGetExpConstant (vectorOf (instAt tables config text count)) index =
      target

def Entry (offset : Nat) : Prop :=
  DirectTarget tables config text (config.vbase + offset) ∨
    (config.vbase + offset) % config.alignment = 0

def Unsplit (count : Nat) : Prop :=
  ∀ offset, offsetAt tables text config.segment count < offset →
    offset ≤ offsetAt tables text config.segment (count + 1) →
    ¬ Entry tables config text offset

structure IsReference (count index : Nat) (kind : NaClExpKind) : Prop where
  node : index < (vectorOf (instAt tables config text count)).numberExprNodes
  sandboxed : isPossibleSandboxingNode config
    ((vectorOf (instAt tables config text count)).node index) = true
  kind : ((vectorOf (instAt tables config text count)).node index).kind = kind

def HasIndex (inst : NaClInstState) (index : Nat) : Prop :=
  naClGetExpVectorRegister (vectorOf inst)
    (memOffsetPart (vectorOf inst) index 1) ≠ .regUnknown

inductive Continues (count : Nat) : Prop where
  /-- Its memory operand is indexed by what the one before zero extends. -/
  | indexed {index : Nat} :
      IsReference tables config text count index .exprMemOffset →
      HasIndex (instAt tables config text count) index → Continues count
  /-- It uses the segment address that a `lea` computes. -/
  | string {index : Nat} :
      IsReference tables config text count index .exprSegmentAddress →
      Continues count
  /-- It is the `lea` before such an instruction, and itself indexed. -/
  | lea {index : Nat} :
      IsInstruction tables text config.segment (count + 1) →
      IsReference tables config text (count + 1) index .exprSegmentAddress →
      HasIndex (instAt tables config text count)
        (leaOperand (instAt tables config text count)) → Continues count
  /-- It restores `%rsp` or `%rbp`. -/
  | rsp {index : Nat} :
      Assigns (instAt tables config text count) index .regRSP →
      RestoresRsp config (lookAt tables config text count)
        (instAt tables config text count) → Continues count
  | rbp {index : Nat} :
      Assigns (instAt tables config text count) index .regRBP →
      RestoresRbp config (lookAt tables config text count)
        (instAt tables config text count) → Continues count
  /-- It jumps to a masked register. -/
  | jump {index : Nat} :
      IsTarget (instAt tables config text count) index →
      ((vectorOf (instAt tables config text count)).node index).kind =
        .exprRegister → Continues count
  /-- It adds the base register before such a jump. -/
  | middle {index : Nat} :
      IsInstruction tables text config.segment (count + 1) →
      IsTarget (instAt tables config text (count + 1)) index →
      ((vectorOf (instAt tables config text (count + 1))).node index).kind =
        .exprRegister → Continues count

/-- A jump to a register comes after the `and` with the jump mask and the `lea`
or `add` of the base register, and the three are not split. -/
structure MaskedJump (count : Nat) (jumpReg : NaClOpKind) : Prop where
  sequence : ∃ first masked, count = first + 2 ∧
    maskedRegister config (instAt tables config text first) = some masked ∧
    addsBase config (instAt tables config text (first + 1)) masked jumpReg =
      true ∧
    Unsplit tables config text first ∧ Unsplit tables config text (first + 1)

structure ControlFlowSound : Prop where
  entries : ∀ offset < config.size, Entry tables config text offset →
    ∃ count, IsInstruction tables text config.segment count ∧
      offset = offsetAt tables text config.segment count ∧
      ¬ Continues tables config text count
  indirect : ∀ count index,
    IsInstruction tables text config.segment count →
    IsTarget (instAt tables config text count) index →
    ((vectorOf (instAt tables config text count)).node index).kind =
      .exprRegister →
    MaskedJump tables config text count (naClGetExpVectorRegister
      (vectorOf (instAt tables config text count)) index)
  outside : ∀ target, DirectTarget tables config text target →
    target < config.vbase ∨ config.vlimit ≤ target →
    target % config.alignment = 0 ∧ target < 2 ^ 32
  others : ∀ count index,
    IsInstruction tables text config.segment count →
    IsTarget (instAt tables config text count) index →
    ((vectorOf (instAt tables config text count)).node index).kind =
        .exprRegister ∨
      isConstantKind
        ((vectorOf (instAt tables config text count)).node index).kind = true

end Statements

section Validated

variable {tables : Tables} {config : NaClValidatorConfig} {text : Buffer}
  {total : Nat} {state : NaClValidatorState}
  (validated : Validated tables config text total state)

namespace Validated

include validated

theorem count_lt
    {count : Nat} (inside : IsInstruction tables text config.segment count) :
    count < total := by
  by_contra late
  have mono := offsetAt_mono tables text config.segment (Nat.not_lt.mp late)
  have ends := validated.ends
  have below : offsetAt tables text config.segment count < config.size :=
    inside
  omega

theorem passedAt
    {count : Nat} (inside : IsInstruction tables text config.segment count) :
    PassedAt tables config text count state :=
  validated.passed count (validated.count_lt inside)

theorem reachable_of_entry
    {offset : Nat} (below : offset < config.size)
    (entry : Entry tables config text offset) :
    Reachable state offset := by
  apply validated.reachable offset below
  rcases entry with direct | start
  · obtain ⟨count, index, inside, target, kind, value⟩ := direct
    have valid := (validated.passedAt inside).targets index target
    rcases valid.direct kind with zero | within | outside
    · -- `call 0` is only in the segment if it is its first bundle.
      refine .inr ?_
      rw [← value, zero, Nat.zero_mod]
    · obtain ⟨place, same, -, member⟩ := within
      have equal : offset = place :=
        Nat.add_left_cancel (value.symm.trans same)
      rw [← equal] at member
      exact .inl member
    · have away := outside.outside
      rw [value, NaClValidatorConfig.vlimit] at away
      omega
  · exact .inr start

theorem entry_instruction
    {offset : Nat} (below : offset < config.size)
    (entry : Entry tables config text offset) :
    ∃ count, IsInstruction tables text config.segment count ∧
      offset = offsetAt tables text config.segment count ∧
      ¬ Marked state (instAt tables config text count) := by
  obtain ⟨possible, kept⟩ := validated.reachable_of_entry below entry
  obtain ⟨count, earlier, same⟩ := validated.possible offset below possible
  refine ⟨count, validated.within count earlier, same, ?_⟩
  intro marked
  rw [Marked, instructionAt_mpc, ← same, kept] at marked
  cases marked

theorem unsplit
    {count : Nat}
    (inside : IsInstruction tables text config.segment (count + 1))
    (marked : Marked state (instAt tables config text (count + 1))) :
    Unsplit tables config text count := by
  intro offset after before entry
  have below : offset < config.size := Nat.lt_of_le_of_lt before inside
  obtain ⟨other, present, same, unmarked⟩ :=
    validated.entry_instruction below entry
  rw [same] at after before
  have next := count_eq_of_between after before present
  rw [next] at unmarked
  exact unmarked marked

end Validated

private theorem lookAt_succ (count : Nat) :
    lookAt tables config text (count + 1) 1 =
      some (instAt tables config text count) := by
  rw [lookAt, if_pos ⟨by decide, by omega⟩]
  rfl

theorem lookAt_eq_some
    {count distance : Nat} {previous : NaClInstState}
    (looked : lookAt tables config text count distance = some previous) :
    distance ≤ count ∧
      previous = instAt tables config text (count - distance) := by
  rw [lookAt] at looked
  split_ifs at looked with seen
  cases looked
  exact ⟨seen.2, rfl⟩

private theorem not_keepsRsp_of_restoresRsp
    {look : Lookback} {inst : NaClInstState} {index : Nat}
    (restores : RestoresRsp config look inst) :
    ¬ KeepsRsp text inst index := by
  have names : inst.inst.name = .instOr ∨ inst.inst.name = .instAdd ∨
      inst.inst.name = .instLea := by
    rcases restores with ⟨either, -⟩ | ⟨lea, -⟩
    · exact either.imp_right .inl
    · exact .inr (.inr lea)
  intro keeps
  rcases keeps with ⟨stack, -⟩ | ⟨call, -⟩ | ⟨masks, -⟩ | moves
  · rcases names with name | name | name <;> rw [name] at stack <;>
      rcases stack with wrong | wrong <;> cases wrong
  · rcases names with name | name | name <;> rw [name] at call <;> cases call
  · rcases names with name | name | name <;> rw [name] at masks <;>
      cases masks
  · rcases names with name | name | name <;>
      simp [naClIsMovUsingRegisters, naClIsBinaryUsingRegisters, name] at moves

private theorem not_mov_of_restoresRbp
    {look : Lookback} {inst : NaClInstState}
    (restores : RestoresRbp config look inst) :
    naClIsMovUsingRegisters inst.inst (vectorOf inst) .regRBP .regRSP ≠
      true := by
  have names : inst.inst.name = .instAdd ∨ inst.inst.name = .instLea := by
    rcases restores with ⟨name, -⟩ | ⟨name, -⟩
    · exact .inl name
    · exact .inr name
  intro moves
  rcases names with name | name <;>
    simp [naClIsMovUsingRegisters, naClIsBinaryUsingRegisters, name] at moves

namespace Validated

include validated

theorem marked_of_continues
    {count : Nat} (inside : IsInstruction tables text config.segment count)
    (continues : Continues tables config text count) :
    Marked state (instAt tables config text count) := by
  have passed := validated.passedAt inside
  cases continues with
  | @indexed index reference indexed =>
      have valid := passed.references index reference.node reference.sandboxed
      rcases (valid.memOffset reference.kind).index with none_ | good
      · exact absurd none_ indexed
      · exact good.2
  | @string index reference =>
      have valid := passed.references index reference.node reference.sandboxed
      exact (valid.segmentAddress reference.kind).marked
  | @lea index next reference indexed =>
      have valid := (validated.passedAt next).references index reference.node
        reference.sandboxed
      obtain ⟨previous, looked, -, offset⟩ :=
        (valid.segmentAddress reference.kind).lea
      rw [lookAt_succ] at looked
      cases looked
      rcases offset.index with none_ | good
      · exact absurd none_ indexed
      · exact good.2
  | @rsp index assigns restores =>
      have valid := passed.assignments index _ assigns
      rcases valid.rsp rfl with keeps | restored
      · exact absurd keeps (not_keepsRsp_of_restoresRsp restores)
      · exact restored.2
  | @rbp index assigns restores =>
      have valid := passed.assignments index _ assigns
      rcases valid.rbp rfl with moves | restored
      · exact absurd moves (not_mov_of_restoresRbp restores)
      · exact restored.2
  | @jump index target kind =>
      obtain ⟨-, -, -, marked⟩ := (passed.targets index target).indirect kind
      exact marked
  | @middle index next target kind =>
      have valid := (validated.passedAt next).targets index target
      obtain ⟨middle, found, marked, -⟩ := valid.indirect kind
      have looked := maskedJumpMiddle_look found
      rw [lookAt_succ] at looked
      cases looked
      exact marked

theorem maskedJump
    {count index : Nat}
    (inside : IsInstruction tables text config.segment count)
    (target : IsTarget (instAt tables config text count) index)
    (kind : ((vectorOf (instAt tables config text count)).node index).kind =
      .exprRegister) :
    MaskedJump tables config text count (naClGetExpVectorRegister
      (vectorOf (instAt tables config text count)) index) := by
  have valid := (validated.passedAt inside).targets index target
  obtain ⟨middle, found, middleMarked, marked⟩ := valid.indirect kind
  simp only [maskedJumpMiddle, Option.bind_eq_bind,
    Option.bind_eq_some_iff] at found
  obtain ⟨andState, lookedTwo, masked, masks, between, lookedOne, adds⟩ :=
    found
  split_ifs at adds with based
  cases adds
  obtain ⟨enough, andSame⟩ := lookAt_eq_some lookedTwo
  obtain ⟨-, middleSame⟩ := lookAt_eq_some lookedOne
  obtain ⟨first, rfl⟩ : ∃ first, count = first + 2 :=
    ⟨count - 2, by omega⟩
  have beforeInside : IsInstruction tables text config.segment (first + 1) :=
    Nat.lt_of_le_of_lt
      (offsetAt_mono tables text config.segment (Nat.le_succ _)) inside
  rw [andSame] at masks
  rw [middleSame] at based middleMarked
  exact ⟨first, masked, rfl, masks, based,
    validated.unsplit beforeInside middleMarked,
    validated.unsplit inside marked⟩

end Validated

end Validated

/-- Accepted segments keep control in the code as it was decoded. -/
theorem accepts_controlFlowSound
    {tables : Tables} {config : NaClValidatorConfig} {text : Buffer}
    (accepts : Accepts tables config text) :
    ControlFlowSound tables config text := by
  obtain ⟨total, state, validated⟩ := accepts_validated accepts
  refine ⟨?_, ?_, ?_, ?_⟩
  · intro offset below entry
    obtain ⟨count, inside, same, unmarked⟩ :=
      validated.entry_instruction below entry
    refine ⟨count, inside, same, ?_⟩
    intro continues
    exact unmarked (validated.marked_of_continues inside continues)
  · intro count index inside target kind
    exact validated.maskedJump inside target kind
  · intro target direct away
    obtain ⟨count, index, inside, isTarget, kind, value⟩ := direct
    have valid := (validated.passedAt inside).targets index isTarget
    rcases valid.direct kind with zero | within | outside
    · have none_ : target = 0 := value.symm.trans zero
      rw [none_]
      exact ⟨Nat.zero_mod _, by decide⟩
    · obtain ⟨place, same, below, -⟩ := within
      have here : target = config.vbase + place := value.symm.trans same
      rw [NaClValidatorConfig.vlimit] at away
      omega
    · have aligned := outside.aligned
      have bounded := outside.bounded
      rw [value] at aligned bounded
      exact ⟨aligned, bounded⟩
  · intro count index inside target
    exact ((validated.passedAt inside).targets index target).kinds

/-! ## A small instruction table -/

def registerNode (reg : NaClOpKind) (flags : List NaClExpFlag) : NaClExp :=
  ⟨.exprRegister, Int32.ofNat reg.number, flags⟩

def constantNode (value : Nat) (flags : List NaClExpFlag) : NaClExp :=
  ⟨.exprConstant, Int32.ofNat value, flags⟩

def referenceNode : NaClExp :=
  ⟨.operandReference, 0, []⟩

def vectorOfList (nodes : List NaClExp) : NaClExpVector :=
  ⟨nodes.length, fun index => nodes.getD index ⟨.undefinedExp, 0, []⟩⟩

def sizedRegister (state : NaClInstState) (field extension : Nat) :
    NaClOpKind :=
  (if state.operandSize = 8 then naClRegTable64 else naClRegTable32).getD
    (field + extension) .regUnknown

/-- The `r/m` operand, when it is a register. -/
def rmRegister (state : NaClInstState) : NaClOpKind :=
  sizedRegister state (modrmRm state.modrm)
    (if state.rexPrefix &&& 0x1 ≠ 0 then 8 else 0)

def regRegister (state : NaClInstState) : NaClOpKind :=
  sizedRegister state (modrmReg state.modrm)
    (if state.rexPrefix &&& 0x4 ≠ 0 then 8 else 0)

def immediateByte (bytes : Buffer) (state : NaClInstState) : Nat :=
  if state.firstImmByte < state.length then
    (bytes state.firstImmByte).toNat
  else
    0

/-- The operands of the instructions of the table.  The only memory offset of a
`lea` here is `[%rsp]`. -/
def sampleVector (bytes : Buffer) (state : NaClInstState) : NaClExpVector :=
  vectorOfList <|
    match state.inst.name with
    | .instMov =>
        [referenceNode, registerNode (rmRegister state) [.exprSet],
          referenceNode, registerNode (regRegister state) [.exprUsed]]
    | .instAdd =>
        [referenceNode,
          registerNode (rmRegister state) [.exprSet, .exprUsed],
          referenceNode, registerNode (regRegister state) [.exprUsed]]
    | .instAnd =>
        [referenceNode,
          registerNode (rmRegister state) [.exprSet, .exprUsed],
          referenceNode,
          constantNode (immediateByte bytes state)
            [.exprUsed, .exprSize8, .exprUnsignedHex]]
    | .instJmp =>
        [referenceNode, registerNode .regRIP [.exprSet],
          referenceNode,
          registerNode (rmRegister state) [.exprUsed, .exprJumpTarget]]
    | .instLea =>
        [referenceNode, registerNode (regRegister state) [.exprSet],
          referenceNode,
          ⟨.exprMemOffset, 0, [.exprAddress, .exprSize64]⟩,
          registerNode .regRSP [.exprSize64],
          registerNode .regUnknown [],
          constantNode 1 [.exprSize8], constantNode 0 [.exprSize8]]
    | .other _ =>
        [referenceNode,
          ⟨.exprSegmentAddress, 0, [.exprSet, .exprSize64, .exprESrDICase]⟩,
          registerNode .regES [.exprSize16],
          registerNode .regRDI [.exprSize64],
          referenceNode, registerNode .regAL [.exprUsed]]
    | _ => []

private theorem sampleVector_reads
    (bytes other : Buffer) (state : NaClInstState)
    (same : ∀ offset < state.length, bytes offset = other offset) :
    sampleVector bytes state = sampleVector other state := by
  have immediate : immediateByte bytes state = immediateByte other state := by
    rw [immediateByte, immediateByte]
    split_ifs with inside
    · rw [same _ inside]
    · rfl
  rw [sampleVector, sampleVector, immediate]

/-- The operand of an instruction that sets `%rax` in its own size. -/
def destination (flags : List NaClOpFlag) : NaClOp :=
  ⟨.evOperand, .opSet :: .operandZeroExtendsV :: flags⟩

def sampleOpcodes : UInt8 → List NaClInst
  | 0x01 =>
      [⟨.instAdd, .i386L,
        [.opcodeUsesModRm, .operandSizeV, .operandSizeO], [0x01], 1,
        [destination [.opUse], ⟨.gvOperand, [.opUse]⟩]⟩]
  | 0x83 =>
      [⟨.instAnd, .i386L,
        [.opcodeInModRm, .opcodeUsesModRm, .opcodeHasImmedB, .operandSizeV,
          .operandSizeO], [0x83, 4], 1,
        [destination [.opUse], ⟨.ibOperand, [.opUse]⟩]⟩]
  | 0x89 =>
      [⟨.instMov, .i386,
        [.opcodeUsesModRm, .operandSizeV, .operandSizeO], [0x89], 1,
        [destination [], ⟨.gvOperand, [.opUse]⟩]⟩]
  | 0x8d =>
      [⟨.instLea, .i386,
        [.opcodeUsesModRm, .modRmModIsnt0x3, .operandSizeV, .operandSizeO],
        [0x8d], 1,
        [⟨.gvOperand, [.opSet, .operandZeroExtendsV]⟩,
          ⟨.mOperand, [.opAddress]⟩]⟩]
  | 0xaa =>
      [⟨.other 0, .i386, [.operandSizeB, .opcodeAllowsRep], [0xaa], 1,
        [⟨.regESEDI, [.opSet]⟩, ⟨.regAL, [.opUse]⟩]⟩]
  | 0xff =>
      [⟨.instJmp, .i386,
        [.opcodeInModRm, .opcodeUsesModRm, .operandSizeForce64], [0xff, 4], 1,
        [⟨.regRIP, [.opSet]⟩, ⟨.evOperand, [.opUse, .operandNear]⟩]⟩]
  | _ => []

def sampleTables : Tables where
  gOpcodeTable := fun opcodePrefix byte =>
    if opcodePrefix = .noPrefix then sampleOpcodes byte else []
  naClBuildExpVector := sampleVector
  reads := sampleVector_reads

def sampleConfig (size : Nat) (nonempty : 0 < size) (small : size < 2 ^ 32) :
    NaClValidatorConfig where
  vbase := 0
  size := size
  alignment := 32
  baseRegister := .regR15
  cpuFeatures := { f386 := true }
  doStubOut := false
  logsErrors := true
  naclFlagsMaxReportedErrors := 100
  naclFlagsReadSandbox := true
  naclFlagsIdentityMask := false
  pastRegTable64 := fun _ => 0
  nonempty := nonempty
  bounded := by omega
  bundles := bundle32
  reserved := regR15_reserved

/-- `and $0xe0, %eax; add %r15, %rax; jmp *%rax`. -/
def maskedJumpText : Buffer :=
  Buffer.ofList [0x83, 0xe0, 0xe0, 0x4c, 0x01, 0xf8, 0xff, 0xe0]

theorem accepts_maskedJump :
    Accepts sampleTables (sampleConfig 8 (by decide) (by decide))
      maskedJumpText :=
  accepts_of_verdict 4 (by decide +kernel)

theorem accepts_controlFlowSound_maskedJump :
    Accepts sampleTables (sampleConfig 8 (by decide) (by decide))
        maskedJumpText ∧
      ControlFlowSound sampleTables (sampleConfig 8 (by decide) (by decide))
        maskedJumpText :=
  ⟨accepts_maskedJump, accepts_controlFlowSound accepts_maskedJump⟩

end NativeClient.Validator64
