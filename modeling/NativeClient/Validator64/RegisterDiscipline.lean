import NativeClient.Validator64.ControlFlow

/-!
# Register assignments of accepted segments

In a segment that the 64 bit validator accepts, `%rsp` and `%rbp` are only
assigned in the permitted forms, and an assignment to `%esp` or `%ebp` is
completed by the next instruction.  Sub-registers of the base register are a
gap: `NaClIs64Subreg` uses the number of a register as an index into a table of
sixteen registers, and compares with what comes after it.
-/

namespace NativeClient.Validator64

open NativeClient.Library
open NativeClient.Decoder64

section Statements

variable (tables : Tables) (config : NaClValidatorConfig) (text : Buffer)

/-- The next instruction assigns the register in a form that restores it, and
control cannot come in between. -/
structure Restored (count : Nat) (reg : NaClOpKind)
    (restores : NaClValidatorConfig → Lookback → NaClInstState → Prop) :
    Prop where
  present : IsInstruction tables text config.segment (count + 1)
  assigns : ∃ index,
    Assigns (instAt tables config text (count + 1)) index reg
  restores : restores config (lookAt tables config text (count + 1))
    (instAt tables config text (count + 1))
  unsplit : Unsplit tables config text count

structure Disciplined (count index : Nat) (reg : NaClOpKind) : Prop where
  base : reg ≠ config.baseRegister
  subregister : subreg64 (instAt tables config text count) reg ≠
    config.baseRegister
  segment : isSegmentRegister reg = false
  rsp : reg = .regRSP →
    KeepsRsp text (instAt tables config text count) index ∨
      ∃ before, count = before + 1 ∧
        Restored tables config text before .regRSP RestoresRsp
  rbp : reg = .regRBP →
    naClIsMovUsingRegisters (instAt tables config text count).inst
        (vectorOf (instAt tables config text count)) .regRBP .regRSP = true ∨
      ∃ before, count = before + 1 ∧
        Restored tables config text before .regRBP RestoresRbp
  esp : reg = .regESP →
    Restored tables config text count .regRSP RestoresRsp
  ebp : reg = .regEBP →
    Restored tables config text count .regRBP RestoresRbp

def RegisterDiscipline : Prop :=
  ∀ count index reg, IsInstruction tables text config.segment count →
    Assigns (instAt tables config text count) index reg →
    Disciplined tables config text count index reg

def KeepsBaseParts : Prop :=
  ∀ count index reg, IsInstruction tables text config.segment count →
    Assigns (instAt tables config text count) index reg →
    reg ≠ config.baseRegister →
    subreg64 (instAt tables config text count) reg ≠ config.baseRegister

def WordsCatch : Prop :=
  ∃ reg, (reg = config.baseRegister ∨ reg = .regRSP ∨ reg = .regRBP) ∧
    regTable64Word config.pastRegTable64 reg.number =
      config.baseRegister.number

/-- The state after the validators that come before
`NaClBaseRegisterValidator`. -/
def beforeBaseRegisters (inst : NaClInstState) (state : NaClValidatorState) :
    NaClValidatorState :=
  unlessQuit (naClValidateInstructionLegal config inst)
    (unlessQuit (naClCpuCheck config inst) state)

/-- The two slots hold the pending assignments of the current and of the
previous instruction, less those that the current one completes. -/
structure SlotsDescribe (head : NaClInstIter × NaClValidatorState) : Prop where
  before : Slots head.2.locals
    (pendingAt tables config text head.1.instCount) noAssignments
  after : IsInstruction tables text config.segment head.1.instCount →
    ∃ left, Slots
        (checkRegisterNodes config
          (lookAt tables config text head.1.instCount)
          (instAt tables config text head.1.instCount)
          (beforeBaseRegisters config
            (instAt tables config text head.1.instCount) head.2)).locals
        left (pending (instAt tables config text head.1.instCount)) ∧
      Completed config (lookAt tables config text head.1.instCount)
        (instAt tables config text head.1.instCount)
        (pendingAt tables config text head.1.instCount) left
        (checkRegisterNodes config
          (lookAt tables config text head.1.instCount)
          (instAt tables config text head.1.instCount)
          (beforeBaseRegisters config
            (instAt tables config text head.1.instCount) head.2))

end Statements

/-! ## The pending assignments -/

section Pending

variable {tables : Tables} {config : NaClValidatorConfig} {text : Buffer}

private theorem beforeBaseRegisters_frame
    (config : NaClValidatorConfig) (inst : NaClInstState)
    (state : NaClValidatorState) :
    Frame inst state (beforeBaseRegisters config inst state) :=
  (unlessQuit_frame (naClCpuCheck_frame config inst state)).trans
    (unlessQuit_frame (naClValidateInstructionLegal_frame config inst _))

theorem Heads.slotsDescribe
    {head : NaClInstIter × NaClValidatorState}
    (reached : Heads tables config text head) :
    SlotsDescribe tables config text head where
  before := reached.progress.slots
  after := by
    intro inside
    have slots := reached.progress.slots
    rw [← (beforeBaseRegisters_frame config _ _).locals] at slots
    exact (checkRegisterNodes_done _ (instructionAt_inSegment inside)
      slots).slots

theorem pendingAt_esp
    {count index : Nat}
    (assigns : Assigns (instAt tables config text count) index .regESP) :
    (pendingAt tables config text (count + 1)).espSetInst ≠ none := by
  have assigned := (assignsBefore_iff _ _).mpr ⟨index, assigns⟩
  rw [pendingAt, pending, pendingBefore, assigned]
  exact Option.some_ne_none _

theorem pendingAt_ebp
    {count index : Nat}
    (assigns : Assigns (instAt tables config text count) index .regEBP) :
    (pendingAt tables config text (count + 1)).ebpSetInst ≠ none := by
  have assigned := (assignsBefore_iff _ _).mpr ⟨index, assigns⟩
  rw [pendingAt, pending, pendingBefore, assigned]
  exact Option.some_ne_none _

end Pending

/-! ## Accepted segments -/

section Accepted

variable {tables : Tables} {config : NaClValidatorConfig} {text : Buffer}

private theorem subreg64_stack
    (inst : NaClInstState) {reg : NaClOpKind}
    (stack : isStackRegister reg = true) :
    subreg64 inst reg ≠ config.baseRegister := by
  obtain ⟨-, notRsp, notRbp⟩ := config.reserved
  have both : ∀ reg64 : NaClOpKind, reg64 = .regRSP ∨ reg64 = .regRBP →
      reg64 ≠ config.baseRegister := by
    intro reg64 which same
    rcases which with rsp | rbp
    · exact notRsp (same.symm.trans rsp)
    · exact notRbp (same.symm.trans rbp)
  apply both
  rw [subreg64]
  rcases stack_cases stack with same | same | same | same
  all_goals
    subst same
    split_ifs
    all_goals decide +kernel

private theorem subreg64_of_wordsCatch
    {look : Lookback} {inst : NaClInstState} {index : Nat} {reg : NaClOpKind}
    {state : NaClValidatorState}
    (valid : ValidAssignment config look text inst index reg state)
    (catches : WordsCatch config) :
    subreg64 inst reg ≠ config.baseRegister := by
  intro same
  cases stack : isStackRegister reg with
  | true => exact subreg64_stack inst stack same
  | false =>
      obtain ⟨reg64, which, word⟩ := catches
      have missed := valid.subreg stack reg64 which
      rw [naClIs64Subreg, same, word, beq_self_eq_true] at missed
      cases missed

variable {total : Nat} {state : NaClValidatorState}
  (validated : Validated tables config text total state)

namespace Validated

include validated

theorem next_present
    {count : Nat} (inside : IsInstruction tables text config.segment count)
    (pends : pendingAt tables config text (count + 1) ≠ noAssignments) :
    IsInstruction tables text config.segment (count + 1) := by
  have below := validated.count_lt inside
  rcases Nat.lt_or_eq_of_le (Nat.succ_le_of_lt below) with later | last
  · exact validated.within (count + 1) later
  · rw [show count + 1 = total from last] at pends
    exact absurd validated.completed pends

theorem restoredRsp
    {count : Nat}
    (present : IsInstruction tables text config.segment (count + 1))
    (restored : RspRestored config (lookAt tables config text (count + 1))
      (instAt tables config text (count + 1)) state) :
    Restored tables config text count .regRSP RestoresRsp :=
  ⟨present, restored.assigned, restored.restores,
    validated.unsplit present restored.marked⟩

theorem restoredRbp
    {count : Nat}
    (present : IsInstruction tables text config.segment (count + 1))
    (restored : RbpRestored config (lookAt tables config text (count + 1))
      (instAt tables config text (count + 1)) state) :
    Restored tables config text count .regRBP RestoresRbp :=
  ⟨present, restored.assigned, restored.restores,
    validated.unsplit present restored.marked⟩

theorem positive_of_marked
    {count : Nat}
    (marked : Marked state (instAt tables config text count)) :
    ∃ before, count = before + 1 := by
  cases count with
  | zero =>
      have start : Entry tables config text 0 := .inr validated.aligned
      obtain ⟨other, -, same, unmarked⟩ :=
        validated.entry_instruction config.nonempty start
      rw [Marked, instructionAt_mpc] at unmarked marked
      rw [← same] at unmarked
      exact absurd marked unmarked
  | succ before => exact ⟨before, rfl⟩

theorem disciplined
    {count index : Nat} {reg : NaClOpKind}
    (inside : IsInstruction tables text config.segment count)
    (assigns : Assigns (instAt tables config text count) index reg)
    (kept : subreg64 (instAt tables config text count) reg ≠
      config.baseRegister) :
    Disciplined tables config text count index reg := by
  have valid := (validated.passedAt inside).assignments index reg assigns
  refine ⟨valid.base, kept, valid.segment, ?_, ?_, ?_, ?_⟩
  · intro same
    rcases valid.rsp same with keeps | ⟨restores, marked⟩
    · exact .inl keeps
    · obtain ⟨before, rfl⟩ := validated.positive_of_marked marked
      rw [same] at assigns
      exact .inr ⟨before, rfl, validated.restoredRsp inside
        ⟨⟨index, assigns⟩, restores, marked⟩⟩
  · intro same
    rcases valid.rbp same with moves | ⟨restores, marked⟩
    · exact .inl moves
    · obtain ⟨before, rfl⟩ := validated.positive_of_marked marked
      rw [same] at assigns
      exact .inr ⟨before, rfl, validated.restoredRbp inside
        ⟨⟨index, assigns⟩, restores, marked⟩⟩
  · intro same
    rw [same] at assigns
    have pends := pendingAt_esp assigns
    have present := validated.next_present inside (by
      intro none_
      rw [none_] at pends
      exact pends rfl)
    exact validated.restoredRsp present
      ((validated.passedAt present).esp pends)
  · intro same
    rw [same] at assigns
    have pends := pendingAt_ebp assigns
    have present := validated.next_present inside (by
      intro none_
      rw [none_] at pends
      exact pends rfl)
    exact validated.restoredRbp present
      ((validated.passedAt present).ebp pends)

end Validated

theorem registerDiscipline_of_wordsCatch
    (catches : WordsCatch config) (accepts : Accepts tables config text) :
    RegisterDiscipline tables config text := by
  obtain ⟨total, state, validated⟩ := accepts_validated accepts
  intro count index reg inside assigns
  apply validated.disciplined inside assigns
  have valid := (validated.passedAt inside).assignments index reg assigns
  exact subreg64_of_wordsCatch valid catches

theorem registerDiscipline_iff_keepsBaseParts
    (accepts : Accepts tables config text) :
    RegisterDiscipline tables config text ↔
      KeepsBaseParts tables config text := by
  obtain ⟨total, state, validated⟩ := accepts_validated accepts
  constructor
  · intro discipline count index reg inside assigns _
    exact (discipline count index reg inside assigns).subregister
  · intro kept count index reg inside assigns
    have valid := (validated.passedAt inside).assignments index reg assigns
    exact validated.disciplined inside assigns
      (kept count index reg inside assigns valid.base)

end Accepted

/-! ## Parts of the base register -/

section Words

def partConfig (base : NaClOpKind)
    (reserved : base ∈ naClRegTable64 ∧ base ≠ .regRSP ∧ base ≠ .regRBP)
    (words : Nat → Nat) : NaClValidatorConfig :=
  { sampleConfig 3 (by decide) (by decide) with
    baseRegister := base
    pastRegTable64 := words
    reserved := reserved }

/-- `mov %eax, %base` of the lower half of the base register. -/
def movToPart (base : NaClOpKind) : Buffer :=
  let index := naClRegTable64.idxOf base
  Buffer.ofList [if index < 8 then 0x40 else 0x41, 0x89,
    UInt8.ofNat (0xc0 + index % 8)]

variable {base : NaClOpKind}
  (reserved : base ∈ naClRegTable64 ∧ base ≠ .regRSP ∧ base ≠ .regRBP)
  (words other : Nat → Nat)

def SameWords (base : NaClOpKind) (words other : Nat → Nat)
    (inst : NaClInstState) : Prop :=
  ∀ index < (vectorOf inst).numberExprNodes,
    isAssignment ((vectorOf inst).node index) = true →
    ∀ reg64, reg64 = base ∨ reg64 = .regRSP ∨ reg64 = .regRBP →
      naClIs64Subreg words inst
          (naClGetExpVectorRegister (vectorOf inst) index) reg64 =
        naClIs64Subreg other inst
          (naClGetExpVectorRegister (vectorOf inst) index) reg64

variable {words other}

private theorem partConfig_words :
    (partConfig base reserved words).pastRegTable64 = words :=
  rfl

private theorem partConfig_base :
    (partConfig base reserved words).baseRegister = base :=
  rfl

private theorem checkSubreg_congr
    {inst : NaClInstState} {reg : NaClOpKind}
    (same : ∀ reg64, reg64 = base ∨ reg64 = .regRSP ∨ reg64 = .regRBP →
      naClIs64Subreg words inst reg reg64 =
        naClIs64Subreg other inst reg reg64) (state : NaClValidatorState) :
    naClCheckSubregChangeOfRspRbpOrBase (partConfig base reserved words) inst
        reg state =
      naClCheckSubregChangeOfRspRbpOrBase (partConfig base reserved other) inst
        reg state := by
  have first := same base (.inl rfl)
  have second := same .regRSP (.inr (.inl rfl))
  have third := same .regRBP (.inr (.inr rfl))
  have report :
      naClValidatorInstMessage (partConfig base reserved words) inst state =
        naClValidatorInstMessage (partConfig base reserved other) inst state :=
    rfl
  simp only [naClCheckSubregChangeOfRspRbpOrBase, partConfig_words,
    partConfig_base, first, second, third, report]
  rfl

private theorem checkRegisterNodes_congr
    {inst : NaClInstState} (same : SameWords base words other inst)
    (look : Lookback) (state : NaClValidatorState) :
    checkRegisterNodes (partConfig base reserved words) look inst state =
      checkRegisterNodes (partConfig base reserved other) look inst state := by
  rw [checkRegisterNodes, checkRegisterNodes]
  apply List.foldl_ext
  intro before index member
  rw [checkRegisterNode, checkRegisterNode]
  split_ifs with assigned
  · have checks := checkSubreg_congr reserved
      (same index (List.mem_range.mp member) assigned) before
    rw [checkAssignment, checkAssignment, checks]
    rfl
  · rfl

private theorem naClApplyValidators_congr
    {inst : NaClInstState} (same : SameWords base words other inst)
    (look : Lookback) (state : NaClValidatorState) :
    naClApplyValidators (partConfig base reserved words) look inst state =
      naClApplyValidators (partConfig base reserved other) look inst state := by
  have guarded :
      naClBaseRegisterValidator (partConfig base reserved words) look inst =
        naClBaseRegisterValidator (partConfig base reserved other) look
          inst := by
    funext before
    rw [naClBaseRegisterValidator, naClBaseRegisterValidator,
      checkRegisterNodes_congr reserved same]
    rfl
  rw [naClApplyValidators, naClApplyValidators, guarded]
  rfl

private theorem validateTurn_congr
    {tables : Tables} {head : NaClInstIter × NaClValidatorState}
    (same : SameWords base words other
      (currentInst tables (partConfig base reserved other) head.1 head.2)) :
    validateTurn tables (partConfig base reserved words) head =
      validateTurn tables (partConfig base reserved other) head := by
  have applied :
      validateInst tables (partConfig base reserved words) head.1 head.2 =
        validateInst tables (partConfig base reserved other) head.1 head.2 :=
    naClApplyValidators_congr reserved same _ _
  rw [validateTurn, validateTurn, applied]
  rfl

private theorem validateTurn_ends_congr
    (words : Nat → Nat) (tables : Tables)
    {head : NaClInstIter × NaClValidatorState}
    (ends : naClInstIterHasNext (partConfig base reserved other).segment
      head.1 = false) :
    validateTurn tables (partConfig base reserved words) head =
      validateTurn tables (partConfig base reserved other) head := by
  have same : naClInstIterHasNext (partConfig base reserved words).segment
      head.1 = false := ends
  rw [validateTurn_ends same, validateTurn_ends ends]

def movStart (base : NaClOpKind)
    (reserved : base ∈ naClRegTable64 ∧ base ≠ .regRSP ∧ base ≠ .regRBP) :
    NaClInstIter × NaClValidatorState :=
  (naClInstIterCreateWithLookback,
    naClValidatorStateCreate (partConfig base reserved fun _ => 0)
      (movToPart base))

def movInst (base : NaClOpKind)
    (reserved : base ∈ naClRegTable64 ∧ base ≠ .regRSP ∧ base ≠ .regRBP) :
    NaClInstState :=
  currentInst sampleTables (partConfig base reserved fun _ => 0)
    (movStart base reserved).1 (movStart base reserved).2

def isLastTurn (segment : NaClSegment) :
    Turn (NaClInstIter × NaClValidatorState) NaClValidatorState → Bool
  | .again head => !naClInstIterHasNext segment head.1
  | .leave _ => false

structure MovesToPart (base : NaClOpKind)
    (reserved : base ∈ naClRegTable64 ∧ base ≠ .regRSP ∧ base ≠ .regRBP) :
    Prop where
  assigned : ∀ index < (vectorOf (movInst base reserved)).numberExprNodes,
    isAssignment ((vectorOf (movInst base reserved)).node index) = true →
    subreg64 (movInst base reserved) (naClGetExpVectorRegister
      (vectorOf (movInst base reserved)) index) = base
  first : 1 < (vectorOf (movInst base reserved)).numberExprNodes ∧
    isAssignment ((vectorOf (movInst base reserved)).node 1) = true
  past : naClRegTable64[base.number]? = none ∧ base.number ≠ 0
  last : isLastTurn (partConfig base reserved fun _ => 0).segment
    (validateTurn sampleTables (partConfig base reserved fun _ => 0)
      (movStart base reserved)) = true
  verdict : (naClValidateSegment sampleTables
    (partConfig base reserved fun _ => 0) 2 (movToPart base)).map
      NaClValidatorState.validatesOk = some true

theorem movesToPart : MovesToPart base reserved := by
  obtain ⟨member, notRsp, notRbp⟩ := reserved
  simp only [naClRegTable64, List.mem_cons, List.not_mem_nil, or_false]
    at member
  rcases member with same | same | same | same | same | same | same | same |
    same | same | same | same | same | same | same | same
  all_goals
    subst same
    first
      | exact absurd rfl notRsp
      | exact absurd rfl notRbp
      | exact ⟨by decide +kernel +revert, by decide +kernel +revert,
          by decide +kernel, by decide +kernel +revert,
          by decide +kernel +revert⟩

private theorem movInst_sameWords
    (missed : ¬ WordsCatch (partConfig base reserved words)) :
    SameWords base words (fun _ => 0) (movInst base reserved) := by
  have moves := movesToPart reserved
  intro index below assigned reg64 which
  have part := moves.assigned index below assigned
  have outside : naClRegTable64[reg64.number]? = none := by
    rcases which with same | same | same
    · rw [same]
      exact moves.past.1
    · rw [same]
      decide
    · rw [same]
      decide
  have zero : base.number ≠ regTable64Word (fun _ => 0) reg64.number := by
    rw [regTable64Word, outside]
    exact moves.past.2
  have word : base.number ≠ regTable64Word words reg64.number := by
    intro same
    exact missed ⟨reg64, which, same.symm⟩
  rw [naClIs64Subreg, naClIs64Subreg, part, beq_eq_false_iff_ne.mpr zero,
    beq_eq_false_iff_ne.mpr word]

private theorem runLoop_two_congr
    {σ ρ : Type} {turn changed : σ → Turn σ ρ} {state : σ}
    (first : changed state = turn state)
    (second : ∀ next, turn state = .again next → changed next = turn next) :
    runLoop changed 2 state = runLoop turn 2 state := by
  rw [runLoop, runLoop, first]
  cases turned : turn state with
  | leave left => rfl
  | again next =>
      dsimp only
      rw [runLoop, runLoop, second next turned]
      rfl

theorem accepts_movToPart
    (missed : ¬ WordsCatch (partConfig base reserved words)) :
    Accepts sampleTables (partConfig base reserved words)
      (movToPart base) := by
  have moves := movesToPart reserved
  have start : validateTurn sampleTables (partConfig base reserved words)
      (movStart base reserved) =
      validateTurn sampleTables (partConfig base reserved fun _ => 0)
        (movStart base reserved) :=
    validateTurn_congr reserved (movInst_sameWords reserved missed)
  have ends : ∀ head, validateTurn sampleTables
      (partConfig base reserved fun _ => 0) (movStart base reserved) =
        .again head →
      validateTurn sampleTables (partConfig base reserved words) head =
        validateTurn sampleTables (partConfig base reserved fun _ => 0)
          head := by
    intro head turned
    have last := moves.last
    rw [turned, isLastTurn, Bool.not_eq_true'] at last
    exact validateTurn_ends_congr reserved words sampleTables last
  have looped := runLoop_two_congr start ends
  have same : naClValidateSegment sampleTables
      (partConfig base reserved words) 2 (movToPart base) =
      naClValidateSegment sampleTables (partConfig base reserved fun _ => 0) 2
        (movToPart base) :=
    congrArg (fun walked => walked >>= naClApplyPostValidators
      (partConfig base reserved fun _ => 0) 2) looped
  apply accepts_of_verdict 2
  rw [same]
  exact moves.verdict

theorem not_registerDiscipline_movToPart :
    ¬ RegisterDiscipline sampleTables (partConfig base reserved words)
      (movToPart base) := by
  have moves := movesToPart reserved
  have same : instAt sampleTables (partConfig base reserved words)
      (movToPart base) 0 = movInst base reserved :=
    (progress_start.currentInst_eq).symm
  have inside : IsInstruction sampleTables (movToPart base)
      (partConfig base reserved words).segment 0 :=
    Nat.succ_pos 2
  intro discipline
  have assigns : Assigns (instAt sampleTables
      (partConfig base reserved words) (movToPart base) 0) 1
      (naClGetExpVectorRegister (vectorOf (movInst base reserved)) 1) := by
    rw [same]
    exact ⟨moves.first.1, moves.first.2, rfl⟩
  have kept := (discipline 0 1 _ inside assigns).subregister
  rw [same] at kept
  exact kept (moves.assigned 1 moves.first.1 moves.first.2)

end Words

/-- The slots always describe the current and the previous instruction, and the
discipline holds exactly where no part of the base register is assigned.
Whether such segments are rejected depends on the words past the register
table. -/
theorem registerDiscipline_exact
    (config : NaClValidatorConfig) :
    (∀ tables text,
      (∀ head, Heads tables config text head →
        SlotsDescribe tables config text head) ∧
      (Accepts tables config text →
        (RegisterDiscipline tables config text ↔
          KeepsBaseParts tables config text))) ∧
    ((∀ tables other text, other.baseRegister = config.baseRegister →
        other.pastRegTable64 = config.pastRegTable64 →
        Accepts tables other text → RegisterDiscipline tables other text) ↔
      WordsCatch config) := by
  refine ⟨?_, ?_, ?_⟩
  · intro tables text
    refine ⟨?_, registerDiscipline_iff_keepsBaseParts⟩
    intro head reached
    exact reached.slotsDescribe
  · intro disciplined
    by_contra missed
    have accepts : Accepts sampleTables
        (partConfig config.baseRegister config.reserved
          config.pastRegTable64) (movToPart config.baseRegister) :=
      accepts_movToPart config.reserved missed
    exact not_registerDiscipline_movToPart config.reserved
      (disciplined _ _ _ rfl rfl accepts)
  · intro catches tables other text sameBase sameWords accepts
    refine registerDiscipline_of_wordsCatch ?_ accepts
    rw [WordsCatch, sameBase, sameWords]
    exact catches

/-- `mov %eax, %r15d`. -/
def movToR15dText : Buffer :=
  Buffer.ofList [0x41, 0x89, 0xc7]

theorem not_registerDiscipline_movToR15d :
    Accepts sampleTables (sampleConfig 3 (by decide) (by decide))
        movToR15dText ∧
      ¬ RegisterDiscipline sampleTables
        (sampleConfig 3 (by decide) (by decide)) movToR15dText := by
  have missed : ¬ WordsCatch (partConfig .regR15 (by decide) fun _ => 0) := by
    rintro ⟨reg, same | same | same, word⟩
    all_goals
      subst same
      exact absurd word (by decide)
  exact ⟨accepts_movToPart (by decide) missed,
    not_registerDiscipline_movToPart (by decide)⟩

end NativeClient.Validator64
