import NativeClient.Validator64.FeatureStubs

/-!
# The text of a whole validation

What the buffer holds while `NaClValidateSegment` runs with the stub-out mode
off: the text in which the first instructions of the sequential decode are
overwritten if `NaClCpuCheck` says so.
-/

namespace NativeClient.Validator64

open NativeClient.Library
open NativeClient.Decoder64
open NativeClient.Validator32 (kNaClFullStop)

/-! ## One instruction -/

section Instruction

variable {config : NaClValidatorConfig} (off : config.doStubOut = false)
  (inst : NaClInstState)

include off

theorem naClCpuCheck_text (state : NaClValidatorState) :
    (naClCpuCheck config inst state).text =
      if squashMe config.cpuFeatures inst.inst then
        state.text.fill inst.mpc inst.length kNaClFullStop
      else
        state.text := by
  have report := (naClValidatorInstMessage_calm off inst state).text
  unfold naClCpuCheck
  dsimp only
  split_ifs
  · exact congrArg (fun text => Buffer.fill text _ _ _) report
  · rfl
  · exact report
  · rfl

theorem naClCpuCheck_patient
    {state : NaClValidatorState} (patient : Patient state) :
    Patient (naClCpuCheck config inst state) := by
  have report := (naClValidatorInstMessage_calm off inst state).patient patient
  unfold naClCpuCheck
  dsimp only
  split_ifs
  · exact report
  · exact patient
  · exact report
  · exact patient

private theorem laterValidators_calm
    (look : Lookback) (state : NaClValidatorState) :
    Calm state
      (unlessQuit (naClJumpValidator config look inst) <|
        unlessQuit (naClMemoryReferenceValidator config look inst) <|
        unlessQuit (naClBaseRegisterValidator config look inst) <|
        unlessQuit (naClValidateInstructionLegal config inst) state) :=
  (unlessQuit_calm (naClValidateInstructionLegal_calm off inst) _).trans <|
    (unlessQuit_calm (naClBaseRegisterValidator_calm off look inst) _).trans <|
    (unlessQuit_calm (naClMemoryReferenceValidator_calm off look inst) _).trans
      (unlessQuit_calm (naClJumpValidator_calm off look inst) _)

theorem naClApplyValidators_text
    (look : Lookback) {state : NaClValidatorState}
    (running : state.quit = false) :
    (naClApplyValidators config look inst state).text =
      if squashMe config.cpuFeatures inst.inst then
        state.text.fill inst.mpc inst.length kNaClFullStop
      else
        state.text := by
  rw [← naClCpuCheck_text off inst state,
    ← @unlessQuit_eq (naClCpuCheck config inst) state running]
  exact (laterValidators_calm off inst look _).text

theorem naClApplyValidators_patient
    (look : Lookback) {state : NaClValidatorState} (patient : Patient state) :
    Patient (naClApplyValidators config look inst state) := by
  refine (laterValidators_calm off inst look _).patient ?_
  rw [@unlessQuit_eq (naClCpuCheck config inst) state patient.2]
  exact naClCpuCheck_patient off inst patient

end Instruction

/-! ## The checked text -/

def checkedText (tables : Tables) (features : CPUFeatures)
    (segment : NaClSegment) (text : Buffer) : Nat → Buffer
  | 0 => text
  | count + 1 =>
      let inst := instructionAt tables text segment count
      if squashMe features inst.inst then
        (checkedText tables features segment text count).fill inst.mpc
          inst.length kNaClFullStop
      else
        checkedText tables features segment text count

/-- All bytes of the instruction are `HLT` in the text. -/
def IsHalted (text : Buffer) (inst : NaClInstState) : Prop :=
  ∀ offset, inst.mpc ≤ offset → offset < inst.mpc + inst.length →
    text offset = kNaClFullStop

def Changed (text memory : Buffer) (inst : NaClInstState) : Prop :=
  ∃ offset, inst.mpc ≤ offset ∧ offset < inst.mpc + inst.length ∧
    memory offset ≠ text offset

section CheckedText

variable {tables : Tables} {features : CPUFeatures} {segment : NaClSegment}
  {text : Buffer} {count number : Nat}

theorem checkedText_ahead
    {offset : Nat} (ahead : offsetAt tables text segment count ≤ offset) :
    checkedText tables features segment text count offset = text offset := by
  induction count with
  | zero => rfl
  | succ count ih =>
      rw [offsetAt_succ] at ahead
      rw [checkedText]
      split
      · rw [Buffer.fill_outside (.inr (by rw [instructionAt_mpc]; exact ahead))]
        exact ih (by omega)
      · exact ih (by omega)

theorem checkedText_behind
    (seen : number < count) {offset : Nat}
    (above : offsetAt tables text segment number ≤ offset)
    (below : offset < offsetAt tables text segment (number + 1)) :
    checkedText tables features segment text count offset =
      if squashMe features (instructionAt tables text segment number).inst then
        kNaClFullStop
      else
        text offset := by
  induction count with
  | zero => omega
  | succ count ih =>
      rw [checkedText]
      by_cases last : number = count
      · subst last
        rw [offsetAt_succ] at below
        split
        · exact Buffer.fill_inside (by rw [instructionAt_mpc]; exact above)
            (by rw [instructionAt_mpc]; exact below)
        · exact checkedText_ahead above
      · have earlier : number < count := by omega
        have before := offsetAt_mono tables text segment
          (Nat.succ_le_iff.mpr earlier)
        have bound := Nat.lt_of_lt_of_le below before
        rw [← ih earlier]
        split
        · exact Buffer.fill_outside
            (.inl (by rw [instructionAt_mpc]; exact bound))
        · rfl

theorem checkedText_changed_iff :
    Changed text (checkedText tables features segment text count)
        (instructionAt tables text segment number) ↔
      number < count ∧
        squashMe features (instructionAt tables text segment number).inst =
          true ∧
        ¬ IsHalted text (instructionAt tables text segment number) := by
  unfold Changed IsHalted
  rw [instructionAt_mpc, ← offsetAt_succ]
  constructor
  · rintro ⟨offset, above, below, changed⟩
    have seen : number < count := by
      by_contra unseen
      have ahead := offsetAt_mono tables text segment (Nat.not_lt.mp unseen)
      exact changed (checkedText_ahead (ahead.trans above))
    rw [checkedText_behind seen above below] at changed
    split at changed
    next squashed =>
      exact ⟨seen, squashed, fun halted => changed (halted offset above below).symm⟩
    next => exact absurd rfl changed
  · rintro ⟨seen, squashed, notHalted⟩
    push Not at notHalted
    obtain ⟨offset, above, below, other⟩ := notHalted
    refine ⟨offset, above, below, ?_⟩
    rw [checkedText_behind seen above below, if_pos squashed]
    exact other.symm

end CheckedText

/-! ## Runs -/

/-- What the buffer holds before, during and after `NaClValidateSegment`. -/
inductive BufferDuring (tables : Tables) (config : NaClValidatorConfig)
    (text : Buffer) : Buffer → Prop where
  | before : BufferDuring tables config text text
  | turn {head : NaClInstIter × NaClValidatorState}
      (reached : Heads tables config text head)
      (more : naClInstIterHasNext config.segment head.1 = true) :
      BufferDuring tables config text
        (validateInst tables config head.1 head.2).text
  | after {fuel : Nat} {final : NaClValidatorState}
      (ran : naClValidateSegment tables config fuel text = some final) :
      BufferDuring tables config text final.text

section Runs

variable {tables : Tables} {config : NaClValidatorConfig} {text : Buffer}
  {head : NaClInstIter × NaClValidatorState}

theorem Heads.turn_eq
    {after : NaClInstIter × NaClValidatorState}
    (reached : Heads tables config text head)
    (turned : validateTurn tables config head = .again after) :
    naClInstIterHasNext config.segment head.1 = true ∧
      after.1.instCount = head.1.instCount + 1 ∧
      after.2 = validateInst tables config head.1 head.2 := by
  cases more : naClInstIterHasNext config.segment head.1 with
  | false =>
      rw [validateTurn_ends more] at turned
      cases turned
  | true =>
      cases quit : (validateInst tables config head.1 head.2).quit with
      | true =>
          rw [validateTurn_quit more quit] at turned
          cases turned
      | false =>
          rw [validateTurn_again more quit] at turned
          cases turned
          have progress := reached.progress
          exact ⟨rfl,
            (progress.next ((hasNext_iff progress).mp more) quit).counted, rfl⟩

section StubOutOff

variable (off : config.doStubOut = false)

include off

theorem Heads.text_eq (reached : Heads tables config text head) :
    head.2.text = checkedText tables config.cpuFeatures config.segment text
      head.1.instCount := by
  induction reached with
  | start => rfl
  | @turn before after reached turned ih =>
      obtain ⟨-, counted, same⟩ := reached.turn_eq turned
      rw [counted, same, reached.progress.validateInst_eq,
        naClApplyValidators_text off _ _ reached.progress.running, ih,
        checkedText]

theorem Heads.validateInst_text (reached : Heads tables config text head) :
    (validateInst tables config head.1 head.2).text =
      checkedText tables config.cpuFeatures config.segment text
        (head.1.instCount + 1) := by
  rw [reached.progress.validateInst_eq,
    naClApplyValidators_text off _ _ reached.progress.running,
    reached.text_eq off, checkedText]

private def CheckedBefore (tables : Tables) (config : NaClValidatorConfig)
    (text memory : Buffer) (count : Nat) : Prop :=
  (∀ earlier < count, IsInstruction tables text config.segment earlier) ∧
    memory = checkedText tables config.cpuFeatures config.segment text count

private theorem Heads.checkedBefore (reached : Heads tables config text head) :
    CheckedBefore tables config text head.2.text head.1.instCount :=
  ⟨reached.progress.within, reached.text_eq off⟩

private theorem Heads.checkedNext
    (reached : Heads tables config text head)
    (more : naClInstIterHasNext config.segment head.1 = true) :
    CheckedBefore tables config text
      (validateInst tables config head.1 head.2).text
      (head.1.instCount + 1) := by
  refine ⟨?_, reached.validateInst_text off⟩
  intro earlier small
  rcases Nat.lt_succ_iff_lt_or_eq.mp small with before | same
  · exact reached.progress.within earlier before
  · rw [same]
    exact (hasNext_iff reached.progress).mp more

private theorem loop_checked
    {fuel : Nat} {walked : NaClValidatorState}
    (reached : Heads tables config text head)
    (ran : runLoop (validateTurn tables config) fuel head = some walked) :
    ∃ count, CheckedBefore tables config text walked.text count := by
  induction fuel generalizing head with
  | zero => cases ran
  | succ fuel ih =>
      rw [runLoop] at ran
      cases more : naClInstIterHasNext config.segment head.1 with
      | false =>
          rw [validateTurn_ends more] at ran
          cases ran
          exact ⟨_, reached.checkedBefore off⟩
      | true =>
          cases quit : (validateInst tables config head.1 head.2).quit with
          | true =>
              rw [validateTurn_quit more quit] at ran
              cases ran
              exact ⟨_, reached.checkedNext off more⟩
          | false =>
              have turned := validateTurn_again more quit
              rw [turned] at ran
              exact ih (reached.turn turned) ran

theorem BufferDuring.checked
    {memory : Buffer} (during : BufferDuring tables config text memory) :
    ∃ count,
      (∀ earlier < count, IsInstruction tables text config.segment earlier) ∧
      memory =
        checkedText tables config.cpuFeatures config.segment text count := by
  cases during with
  | before => exact ⟨0, fun _ none => absurd none (Nat.not_lt_zero _), rfl⟩
  | turn reached more => exact ⟨_, reached.checkedNext off more⟩
  | after ran =>
      obtain ⟨walked, looped, posted⟩ := Option.bind_eq_some_iff.mp ran
      obtain ⟨count, checked⟩ := loop_checked off Heads.start looped
      rw [naClApplyPostValidators_text config off posted]
      exact ⟨count, checked⟩

variable (unlimited : config.naclFlagsMaxReportedErrors < 0)

include unlimited

theorem Heads.patient (reached : Heads tables config text head) :
    Patient head.2 := by
  induction reached with
  | start => exact ⟨unlimited, rfl⟩
  | @turn before after reached turned ih =>
      obtain ⟨-, -, same⟩ := reached.turn_eq turned
      rw [same, reached.progress.validateInst_eq]
      exact naClApplyValidators_patient off _ _ ih

theorem exists_head
    {number : Nat} (inside : IsInstruction tables text config.segment number) :
    ∃ head, Heads tables config text head ∧
      naClInstIterHasNext config.segment head.1 = true ∧
      head.1.instCount = number := by
  induction number with
  | zero => exact ⟨_, Heads.start, (hasNext_iff progress_start).mpr inside, rfl⟩
  | succ number ih =>
      have before : IsInstruction tables text config.segment number :=
        Nat.lt_of_le_of_lt
          (offsetAt_mono tables text config.segment (Nat.le_succ number)) inside
      obtain ⟨head, reached, more, rfl⟩ := ih before
      have patient := naClApplyValidators_patient off
        (instructionAt tables text config.segment head.1.instCount)
        (lookAt tables config text head.1.instCount)
        (reached.patient off unlimited)
      rw [← reached.progress.validateInst_eq] at patient
      have next := reached.turn (validateTurn_again more patient.2)
      have counted := (reached.progress.next before patient.2).counted
      refine ⟨_, next, ?_, counted⟩
      rw [hasNext_iff next.progress]
      dsimp only
      rw [counted]
      exact inside

theorem bufferDuring_checked
    {number : Nat} (inside : IsInstruction tables text config.segment number) :
    BufferDuring tables config text
      (checkedText tables config.cpuFeatures config.segment text
        (number + 1)) := by
  obtain ⟨head, reached, more, rfl⟩ := exists_head off unlimited inside
  rw [← reached.validateInst_text off]
  exact .turn reached more

end StubOutOff

end Runs

/-! ## What is overwritten -/

namespace NaClValidatorConfig

variable (config : NaClValidatorConfig)

def reporting (limit : Int) : NaClValidatorConfig :=
  { config with doStubOut := false, naclFlagsMaxReportedErrors := limit }

def equipped : NaClValidatorConfig :=
  { config with
    cpuFeatures :=
      { f386 := true, fx87 := true, fMMX := true, fSSE := true, fSSE2 := true
        fSSE3 := true, fSSSE3 := true, fSSE41 := true, fSSE42 := true
        fMOVBE := true, fPOPCNT := true, fCX8 := true, fCMOV := true
        fFXSR := true, fCLFLUSH := true, fTSC := true, f3DNOW := true
        fE3DNOW := true, fLZCNT := true, fSSE4A := true, fCX16 := true
        fLM := true } }

end NaClValidatorConfig

def lacks (features : CPUFeatures) (inst : NaClInstState) : Bool :=
  lacksRequired features inst.modrm inst.inst.insttype ||
    (inst.inst.has .longMode && !features.fLM)

def Overstubbed (tables : Tables) (features : CPUFeatures)
    (segment : NaClSegment) (text : Buffer) (number : Nat) : Prop :=
  let inst := instructionAt tables text segment number
  IsInstruction tables text segment number ∧
    Overruled features inst.modrm inst.inst.insttype ∧
    lacks features inst = false ∧ ¬ IsHalted text inst

theorem squashMe_iff (features : CPUFeatures) (inst : NaClInstState) :
    squashMe features inst.inst = true ↔
      lacks features inst = true ∨
        Overruled features inst.modrm inst.inst.insttype := by
  unfold squashMe lacks
  rw [Bool.or_eq_true, Bool.or_eq_true,
    lacksFeature_iff features inst.modrm inst.inst.insttype]
  exact or_right_comm

def StubsOnlyLacking (tables : Tables) (config : NaClValidatorConfig)
    (text : Buffer) : Prop :=
  ∀ limit memory, BufferDuring tables (config.reporting limit) text memory →
    ∀ number, IsInstruction tables text config.segment number →
      Changed text memory (instructionAt tables text config.segment number) →
      lacks config.cpuFeatures
        (instructionAt tables text config.segment number) = true

def LeavesText (tables : Tables) (config : NaClValidatorConfig)
    (text : Buffer) : Prop :=
  ∀ limit memory, BufferDuring tables (config.reporting limit) text memory →
    memory = text

section Overwritten

variable (tables : Tables) (config : NaClValidatorConfig) (text : Buffer)

theorem stubsOnlyLacking_iff :
    StubsOnlyLacking tables config text ↔
      ∀ number, ¬ Overstubbed tables config.cpuFeatures config.segment text
        number := by
  constructor
  · rintro only number ⟨inside, overruled, present, notHalted⟩
    have squashed := (squashMe_iff config.cpuFeatures _).mpr (.inr overruled)
    have during := @bufferDuring_checked tables (config.reporting (-1)) text
      rfl (show (-1 : Int) < 0 by decide) number inside
    have changed := checkedText_changed_iff.mpr
      ⟨Nat.lt_succ_self number, squashed, notHalted⟩
    have missing := only _ _ during number inside changed
    rw [present] at missing
    cases missing
  · intro none limit memory during number inside changed
    obtain ⟨count, -, rfl⟩ := during.checked rfl
    obtain ⟨-, squashed, notHalted⟩ := checkedText_changed_iff.mp changed
    rcases (squashMe_iff config.cpuFeatures _).mp squashed with
      missing | overruled
    · exact missing
    · by_contra present
      exact none number ⟨inside, overruled, Bool.eq_false_iff.mpr present,
        notHalted⟩

theorem leavesText_iff :
    LeavesText tables config text ↔
      ∀ number, IsInstruction tables text config.segment number →
        squashMe config.cpuFeatures
            (instructionAt tables text config.segment number).inst = true →
        IsHalted text (instructionAt tables text config.segment number) := by
  constructor
  · intro leaves number inside squashed
    have during := @bufferDuring_checked tables (config.reporting (-1)) text
      rfl (show (-1 : Int) < 0 by decide) number inside
    by_contra notHalted
    obtain ⟨offset, -, -, other⟩ := checkedText_changed_iff.mpr
      ⟨Nat.lt_succ_self number, squashed, notHalted⟩
    exact other (congrFun (leaves _ _ during) offset)
  · intro halted limit memory during
    obtain ⟨count, within, rfl⟩ := during.checked rfl
    have kept : ∀ checked ≤ count,
        checkedText tables config.cpuFeatures config.segment text checked =
          text := by
      intro checked
      induction checked with
      | zero => exact fun _ => rfl
      | succ checked ih =>
          intro small
          rw [checkedText, ih (Nat.le_of_succ_le small)]
          split
          next squashed =>
            funext offset
            have row := halted checked (within checked small) squashed offset
            unfold Buffer.fill
            split
            next inside => exact (row inside.1 inside.2).symm
            next => rfl
          next => rfl
    exact kept count (Nat.le_refl count)

theorem squashMe_equipped (inst : NaClInst) :
    squashMe config.equipped.cpuFeatures inst = true ↔
      inst.insttype = .mmxsse2 := by
  unfold squashMe NaClValidatorConfig.equipped
  cases inst.insttype <;> simp [lacksFeature]

/-- Whatever the limit to the errors, an instruction is overwritten only if it
needs a feature that is missing, unless it is one for which `NaClCpuCheck` asks
for more.  On a CPU with every feature that is the class that may use `MMX` or
`SSE2`.  For each class `NaClCpuCheck` agrees with `ValidateInst`, with the
same exceptions. -/
theorem featureStubs_iff :
    (StubsOnlyLacking tables config text ↔
      ∀ number, ¬ Overstubbed tables config.cpuFeatures config.segment text
        number) ∧
    (LeavesText tables config.equipped text ↔
      ∀ number, IsInstruction tables text config.segment number →
        (instructionAt tables text config.segment number).inst.insttype =
          .mmxsse2 →
        IsHalted text (instructionAt tables text config.segment number)) ∧
    ∀ decodebuffer validation fCX16 fLM,
      RulesAgree decodebuffer validation fCX16 fLM ↔
        ¬ Overruled ⟨validation.vstate.cpufeatures, fCX16, fLM⟩
          (thirdByte decodebuffer validation)
          decodebuffer.mstate.opinfo.insttype := by
  refine ⟨stubsOnlyLacking_iff tables config text, ?_, rulesAgree_iff⟩
  have leaves := leavesText_iff tables config.equipped text
  simp only [squashMe_equipped] at leaves
  exact leaves

end Overwritten

/-! ## Two exceptions -/

/-- The entry of `sfence` in `g_OpcodeTable`. -/
def sfenceTables : Tables where
  gOpcodeTable := fun opcodePrefix byte =>
    if opcodePrefix = .prefix0F ∧ byte = 0xae then
      [⟨.other 0, .sfenceClflush,
        [.opcodeInModRm, .opcodeInModRmRm, .opcodeUsesModRm],
        [0x0f, 0xae, 7, 0], 2, []⟩]
    else
      []
  naClBuildExpVector := fun _ _ => ⟨0, fun _ => ⟨.undefinedExp, 0, []⟩⟩
  reads := emptyTables.reads

theorem sfence_nonempty : 0 < 3 := by decide

/-- A segment of three bytes, on a CPU with `FXSR` but not `CLFLUSH`. -/
def sfenceConfig : NaClValidatorConfig where
  vbase := 0
  size := 3
  alignment := 32
  baseRegister := .regR15
  cpuFeatures := { f386 := true, fFXSR := true, fLM := true }
  doStubOut := false
  logsErrors := true
  naclFlagsMaxReportedErrors := 100
  naclFlagsReadSandbox := true
  naclFlagsIdentityMask := false
  pastRegTable64 := fun _ => 0
  nonempty := sfence_nonempty
  bounded := by decide
  bundles := bundle32
  reserved := regR15_reserved

def sfenceText : Buffer :=
  Buffer.ofList [0x0f, 0xae, 0xf8]

/-- `psrlw $1, %mm0`, decoded by the 32 bit decoder. -/
def psrlwDecoded : NativeClient.Decoder.DecodeBuffer :=
  (NativeClient.Decoder.initDecodeBuffer 0).setCurrent
    (NativeClient.Decoder.instAt (Buffer.ofList [0x0f, 0x71, 0xd0, 0x01]) 0)

/-- A 32 bit validation on a CPU with `MMX`. -/
def mmxValidation : NativeClient.Validator32.Validation where
  memory := Buffer.ofList [0x0f, 0x71, 0xd0, 0x01]
  vstate :=
    { cpufeatures := { f386 := true, fMMX := true }
      iadrbase := 0
      iadrlimit := 4
      alignment := 32
      alignmask := 31
      stats := {}
      vttable := AddressTable.empty
      kttable := AddressTable.empty
      doStubOut := false }

/-- `sfence` is overwritten, and `NaClCpuCheck` would overwrite `psrlw`. -/
theorem sfence_overwritten :
    ¬ StubsOnlyLacking sfenceTables sfenceConfig sfenceText ∧
      ¬ RulesAgree psrlwDecoded mmxValidation false false := by
  constructor
  · rw [stubsOnlyLacking_iff]
    intro none
    refine none 0 ⟨show 0 < 3 by decide, by decide +kernel, by decide +kernel,
      ?_⟩
    intro halted
    exact absurd (halted 0 (by decide +kernel) (by decide +kernel))
      (by decide)
  · rw [rulesAgree_iff, not_not]
    decide +kernel

end NativeClient.Validator64
