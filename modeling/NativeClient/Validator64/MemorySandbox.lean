import NativeClient.Validator64.ControlFlow

/-!
# Memory references of accepted segments

In a segment that the 64 bit validator accepts, every memory operand has a
sandboxed base register, and its index register, if there is one, was zero
extended by the instruction before it.  A segment address comes from a `lea` of
such an operand.
-/

namespace NativeClient.Validator64

open NativeClient.Library
open NativeClient.Decoder64

section Statements

variable (tables : Tables) (config : NaClValidatorConfig) (text : Buffer)

/-- The instruction assigns the 32 bit half of the register, and clears the
other half; control cannot come in between it and the next one. -/
structure ZeroExtends (count : Nat) (reg : NaClOpKind) : Prop where
  wide : reg ∈ naClRegTable64
  assigns : naClAssignsRegisterWithZeroExtends
    (instAt tables config text count) (naClGet32For64BitReg reg) = true
  unsplit : Unsplit tables config text count

def indexRegister (inst : NaClInstState) (index : Nat) : NaClOpKind :=
  naClGetExpVectorRegister (vectorOf inst)
    (memOffsetPart (vectorOf inst) index 1)

def baseRegisterOf (inst : NaClInstState) (index : Nat) : NaClOpKind :=
  naClGetExpVectorRegister (vectorOf inst)
    (memOffsetPart (vectorOf inst) index 0)

structure SandboxedOffset (count index : Nat) : Prop where
  kind : ((vectorOf (instAt tables config text count)).node index).kind =
    .exprMemOffset
  size : ((vectorOf (instAt tables config text count)).node index).has
    .exprSize64 = true
  base : baseRegisterOf (instAt tables config text count) index =
      config.baseRegister ∨
    baseRegisterOf (instAt tables config text count) index = .regRSP ∨
    baseRegisterOf (instAt tables config text count) index = .regRBP ∨
    baseRegisterOf (instAt tables config text count) index = .regRIP
  index : indexRegister (instAt tables config text count) index =
      .regUnknown ∨
    ∃ before, count = before + 1 ∧ ZeroExtends tables config text before
      (indexRegister (instAt tables config text count) index)

/-- A segment address whose register the instruction before computes with a
`lea` of a sandboxed memory operand. -/
structure LeaOfSandboxed (count index : Nat) : Prop where
  sequence : ∃ before, count = before + 1 ∧
    isLeaInto (instAt tables config text before)
      (instAt tables config text count) index = true ∧
    SandboxedOffset tables config text before
      (leaOperand (instAt tables config text before)) ∧
    Unsplit tables config text before

/-- The same, after an instruction that zero extends the index register of the
`lea`. -/
structure MovAndLea (count index : Nat) : Prop where
  lea : LeaOfSandboxed tables config text count index
  mov : ∃ before, count = before + 2 ∧
    ZeroExtends tables config text before
      (indexRegister (instAt tables config text (before + 1))
        (leaOperand (instAt tables config text (before + 1))))

def MemorySandboxed (segmentAddress : Nat → Nat → Prop) : Prop :=
  ∀ count index, IsInstruction tables text config.segment count →
    (IsReference tables config text count index .exprMemOffset →
      SandboxedOffset tables config text count index) ∧
    (IsReference tables config text count index .exprSegmentAddress →
      segmentAddress count index)

end Statements

section Registers

private theorem not_isOptionalIndex_one
    {vector : NaClExpVector} (kind : (vector.node 1).kind = .exprRegister) :
    isOptionalIndex vector 1 = false := by
  have width : naClExpWidth vector 1 = 1 := by
    rw [naClExpWidth, naclMaxExps, expWidth, kind]
    rfl
  have second : naClGetExpKidIndex vector (0 : Nat) 1 = 2 := by
    have unfolded : naClGetExpKidIndex vector (0 : Nat) 1 =
        1 + naClExpWidth vector 1 := rfl
    rw [unfolded, width]
  rw [isOptionalIndex, naClGetExpParentIndex, parentIndex]
  split_ifs
  · show (1 == naClGetExpKidIndex vector (0 : Nat) 1) = false
    rw [second]
    rfl
  · rfl

private theorem get32_of_not_mem
    {reg : NaClOpKind} (other : reg ∉ naClRegTable64) :
    naClGet32For64BitReg reg = .regUnknown := by
  have none_ : (naClRegTable64.zip naClRegTable32).lookup reg = none := by
    rw [List.lookup_eq_none_iff]
    intro entry member
    rw [bne_iff_ne]
    intro same
    rw [same] at other
    exact other (List.of_mem_zip member).1
  rw [naClGet32For64BitReg, none_]
  rfl

variable {config : NaClValidatorConfig} {look : Lookback}
  {inst : NaClInstState} {state : NaClValidatorState}

private theorem not_assigns_unknown
    (valid : ValidReferences config look inst state) :
    naClAssignsRegisterWithZeroExtends inst .regUnknown ≠ true := by
  intro assigns
  simp only [naClAssignsRegisterWithZeroExtends,
    naClOperandOneIsRegisterSet, Bool.and_eq_true, decide_eq_true_eq,
    isRegisterNode, beq_iff_eq] at assigns
  obtain ⟨⟨⟨two, kind, unknown⟩, set⟩, -⟩ := assigns
  have possible : isPossibleSandboxingNode config ((vectorOf inst).node 1) =
      true := by
    rw [isPossibleSandboxingNode, set, Bool.or_true]
  have node : isUnknownNode ((vectorOf inst).node 1) = true := by
    rw [naClGetExpVectorRegister] at unknown
    rw [isUnknownNode, kind, ← unknown]
    rfl
  have optional := (valid 1 (by omega) possible).unknown node
  rw [not_isOptionalIndex_one kind] at optional
  cases optional

theorem wide_of_assigns
    {reg : NaClOpKind} (valid : ValidReferences config look inst state)
    (assigns : naClAssignsRegisterWithZeroExtends inst
      (naClGet32For64BitReg reg) = true) :
    reg ∈ naClRegTable64 := by
  by_contra other
  rw [get32_of_not_mem other] at assigns
  exact not_assigns_unknown valid assigns

end Registers

section Accepted

variable {tables : Tables} {config : NaClValidatorConfig} {text : Buffer}
  {total : Nat} {state : NaClValidatorState}
  (validated : Validated tables config text total state)

namespace Validated

include validated

theorem sandboxedOffset
    {count index : Nat} (distance : Nat)
    (inside : IsInstruction tables text config.segment count)
    (valid : ValidMemOffset config
      (lookAt tables config text (count + distance)) distance
      (instAt tables config text count) index state) :
    SandboxedOffset tables config text count index := by
  refine ⟨valid.kind, valid.size, ?_, ?_⟩
  · have base := valid.base
    simp only [isSandboxedBase, Bool.or_eq_true, beq_iff_eq, or_assoc] at base
    exact base
  · rcases valid.index with none_ | ⟨good, marked⟩
    · exact .inl none_
    · refine .inr ?_
      rw [indexRegIsGood] at good
      obtain ⟨-, found⟩ := Bool.and_eq_true_iff.mp good
      obtain ⟨previous, looked, assigns⟩ := (Option.any_eq_true _ _).mp found
      obtain ⟨reached, same⟩ := lookAt_eq_some looked
      obtain ⟨before, rfl⟩ : ∃ before, count = before + 1 :=
        ⟨count - 1, by omega⟩
      have place : before + 1 + distance - (distance + 1) = before := by omega
      rw [place] at same
      rw [same] at assigns
      have earlier : IsInstruction tables text config.segment before :=
        Nat.lt_of_le_of_lt
          (offsetAt_mono tables text config.segment (Nat.le_succ _)) inside
      exact ⟨before, rfl,
        wide_of_assigns (validated.passedAt earlier).references assigns,
        assigns, validated.unsplit inside marked⟩

theorem leaOfSandboxed
    {count index : Nat}
    (inside : IsInstruction tables text config.segment count)
    (valid : ValidSegmentAddress config (lookAt tables config text count)
      (instAt tables config text count) index state) :
    LeaOfSandboxed tables config text count index := by
  obtain ⟨previous, looked, into, offset⟩ := valid.lea
  obtain ⟨reached, same⟩ := lookAt_eq_some looked
  obtain ⟨before, rfl⟩ : ∃ before, count = before + 1 :=
    ⟨count - 1, by omega⟩
  rw [Nat.add_sub_cancel] at same
  rw [same] at into offset
  have earlier : IsInstruction tables text config.segment before :=
    Nat.lt_of_le_of_lt
      (offsetAt_mono tables text config.segment (Nat.le_succ _)) inside
  exact ⟨before, rfl, into,
    validated.sandboxedOffset 1 earlier offset,
    validated.unsplit inside valid.marked⟩

end Validated

end Accepted

/-- Accepted segments stay in the sandbox with all their memory operands. -/
theorem accepts_memorySandboxed
    {tables : Tables} {config : NaClValidatorConfig} {text : Buffer}
    (accepts : Accepts tables config text) :
    MemorySandboxed tables config text
      (LeaOfSandboxed tables config text) := by
  obtain ⟨total, state, validated⟩ := accepts_validated accepts
  intro count index inside
  have references := (validated.passedAt inside).references
  constructor
  · intro reference
    have valid := references index reference.node reference.sandboxed
    exact validated.sandboxedOffset 0 inside
      (valid.memOffset reference.kind)
  · intro reference
    have valid := references index reference.node reference.sandboxed
    exact validated.leaOfSandboxed inside
      (valid.segmentAddress reference.kind)

/-- `lea (%rsp), %rdi; stos %al, (%rdi)`. -/
def leaAndStosText : Buffer :=
  Buffer.ofList [0x48, 0x8d, 0x3c, 0x24, 0xaa]

theorem accepts_leaAndStos :
    Accepts sampleTables (sampleConfig 5 (by decide) (by decide))
      leaAndStosText :=
  accepts_of_verdict 3 (by decide +kernel)

theorem accepts_memorySandboxed_leaAndStos :
    Accepts sampleTables (sampleConfig 5 (by decide) (by decide))
        leaAndStosText ∧
      MemorySandboxed sampleTables (sampleConfig 5 (by decide) (by decide))
        leaAndStosText
        (LeaOfSandboxed sampleTables
          (sampleConfig 5 (by decide) (by decide)) leaAndStosText) :=
  ⟨accepts_leaAndStos, accepts_memorySandboxed accepts_leaAndStos⟩

/-- The `lea` has no index register, so nothing comes before it. -/
theorem not_movAndLea_leaAndStos :
    Accepts sampleTables (sampleConfig 5 (by decide) (by decide))
        leaAndStosText ∧
      ¬ MemorySandboxed sampleTables (sampleConfig 5 (by decide) (by decide))
        leaAndStosText
        (MovAndLea sampleTables (sampleConfig 5 (by decide) (by decide))
          leaAndStosText) := by
  refine ⟨accepts_leaAndStos, ?_⟩
  intro sandboxed
  have inside : IsInstruction sampleTables leaAndStosText ⟨0, 5⟩ 1 := by
    rw [IsInstruction]
    decide +kernel
  have sequence := (sandboxed 1 1 inside).2
    ⟨by decide +kernel, by decide +kernel, by decide +kernel⟩
  obtain ⟨before, count, -⟩ := sequence.mov
  omega

end NativeClient.Validator64
