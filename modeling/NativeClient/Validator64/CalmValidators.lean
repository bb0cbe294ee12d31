import NativeClient.Validator64.JumpReports

/-!
# What the validators leave alone

With the stub-out mode off a message does not touch the text, so of all the
validators only `NaClCpuCheck` writes to it.  Without a limit to the errors
that are reported no message stops the validation either.
-/

namespace NativeClient.Validator64

open NativeClient.Library
open NativeClient.Decoder64
open NativeClient.Validator32 (kNaClFullStop)

def Patient (state : NaClValidatorState) : Prop :=
  state.quitAfterErrorCount < 0 ∧ state.quit = false

structure Calm (before after : NaClValidatorState) : Prop where
  text : after.text = before.text
  patient : Patient before → Patient after

theorem Calm.refl (state : NaClValidatorState) : Calm state state :=
  ⟨rfl, id⟩

theorem Calm.trans
    {first second third : NaClValidatorState}
    (start : Calm first second) (next : Calm second third) :
    Calm first third :=
  ⟨next.text.trans start.text, fun patient => next.patient (start.patient patient)⟩

theorem foldl_calm
    {check : NaClValidatorState → Nat → NaClValidatorState}
    (each : ∀ state index, Calm state (check state index))
    (indices : List Nat) (state : NaClValidatorState) :
    Calm state (indices.foldl check state) := by
  induction indices generalizing state with
  | nil => exact Calm.refl state
  | cons index indices ih => exact (each state index).trans (ih _)

theorem unlessQuit_calm
    {validator : NaClValidatorState → NaClValidatorState}
    (each : ∀ state, Calm state (validator state))
    (state : NaClValidatorState) : Calm state (unlessQuit validator state) := by
  unfold unlessQuit
  split
  · exact Calm.refl state
  · exact each state

/-! ## Messages -/

theorem naClValidatorMessage_calm
    (config : NaClValidatorConfig) (state : NaClValidatorState) :
    Calm state (naClValidatorMessage config state) := by
  refine ⟨(naClValidatorMessage_fields config state).2.2.2, ?_⟩
  rintro ⟨limit, -⟩
  have recorded : Patient (naClRecordIfValidatorError state) := by
    refine ⟨limit, ?_⟩
    have nonzero : state.quitAfterErrorCount ≠ 0 := by omega
    simpa [naClRecordIfValidatorError, naClValidatorQuit] using nonzero
  have noLimit : ¬ (0 < (naClRecordIfValidatorError state).quitAfterErrorCount ∧
      config.doStubOut = false) := by
    have below := recorded.1
    omega
  unfold naClValidatorMessage
  dsimp only
  split
  · rw [naClRecordErrorReported, if_neg noLimit]
    exact recorded
  · exact recorded

section Validators

variable {config : NaClValidatorConfig} (off : config.doStubOut = false)

include off

theorem naClValidatorInstMessage_calm
    (inst : NaClInstState) (state : NaClValidatorState) :
    Calm state (naClValidatorInstMessage config inst state) := by
  unfold naClValidatorInstMessage
  rw [off]
  exact naClValidatorMessage_calm config state

omit off in
theorem naClCheckAddressRange_calm
    (address : Nat) (state : NaClValidatorState) :
    Calm state (naClCheckAddressRange config address state).2 := by
  unfold naClCheckAddressRange
  split_ifs
  · exact naClValidatorMessage_calm config state
  · exact naClValidatorMessage_calm config state
  · exact Calm.refl state

omit off in
theorem naClAddressSetAdd_calm
    (set : TargetSet) (address : Nat) (state : NaClValidatorState) :
    Calm state (naClAddressSetAdd config set address state) := by
  have checks := @naClCheckAddressRange_calm config address state
  unfold naClAddressSetAdd
  generalize naClCheckAddressRange config address state = result at checks ⊢
  obtain ⟨inRange, checked⟩ := result
  cases inRange with
  | true => exact ⟨checks.text, checks.patient⟩
  | false => exact checks

omit off in
theorem naClMarkInstructionJumpIllegal_calm
    (inst : NaClInstState) (state : NaClValidatorState) :
    Calm state (naClMarkInstructionJumpIllegal config inst state) := by
  unfold naClMarkInstructionJumpIllegal
  split
  · exact Calm.refl state
  · exact naClAddressSetAdd_calm _ _ state

theorem naClValidateInstructionLegal_calm
    (inst : NaClInstState) (state : NaClValidatorState) :
    Calm state (naClValidateInstructionLegal config inst state) := by
  unfold naClValidateInstructionLegal
  generalize allDisallowsFlags.filter (disallows inst) = reasons
  induction reasons generalizing state with
  | nil => exact Calm.refl state
  | cons reason reasons ih =>
      rw [List.foldl_cons]
      refine Calm.trans ?_ (ih _)
      split
      · exact Calm.refl state
      · exact naClValidatorInstMessage_calm off inst state

/-! ## The base registers -/

omit off in
theorem Calm.ofLocals
    (state : NaClValidatorState) (locals : NaClBaseRegisterLocals) :
    Calm state { state with locals := locals } :=
  ⟨rfl, id⟩

private theorem reportPrevious_calm (state : NaClValidatorState) :
    Calm state (reportPreviousEsp config state) ∧
      Calm state (reportPreviousEbp config state) := by
  constructor
  · unfold reportPreviousEsp
    split
    next inst _ =>
      exact (naClValidatorInstMessage_calm off inst state).trans
        (Calm.ofLocals _ _)
    next => exact Calm.refl state
  · unfold reportPreviousEbp
    split
    next inst _ =>
      exact (naClValidatorInstMessage_calm off inst state).trans
        (Calm.ofLocals _ _)
    next => exact Calm.refl state

theorem naClMaybeReportPreviousBad_calm (state : NaClValidatorState) :
    Calm state (naClMaybeReportPreviousBad config state) := by
  have esp := (reportPrevious_calm off state).1
  have ebp := (reportPrevious_calm off (reportPreviousEsp config state)).2
  exact (esp.trans ebp).trans (Calm.ofLocals _ _)

omit off in
private theorem naClAcceptRegMoveLea32To64_calm
    {look : Lookback} {inst : NaClInstState} {reg : NaClOpKind}
    {state marked : NaClValidatorState}
    (accepted : naClAcceptRegMoveLea32To64 config look inst reg state =
      some marked) :
    Calm state marked := by
  unfold naClAcceptRegMoveLea32To64 at accepted
  split at accepted
  · cases accepted
    exact naClMarkInstructionJumpIllegal_calm inst state
  · cases accepted

private theorem checkMovRsp_calm
    (inst : NaClInstState) (state : NaClValidatorState) :
    Calm state (checkMovRsp config inst state) := by
  unfold checkMovRsp
  split
  · exact Calm.refl state
  · exact naClValidatorInstMessage_calm off inst state

variable (look : Lookback) (inst : NaClInstState)

private theorem naClCheckRspAssignments_calm
    (index : Nat) (state : NaClValidatorState) :
    Calm state (naClCheckRspAssignments config look inst index state) := by
  have report := naClValidatorInstMessage_calm off inst state
  have restored (first : NaClValidatorState) (calm : Calm state first) :
      Calm state
        (naClMarkInstructionJumpIllegal config inst first).clearPreviousEsp :=
    (calm.trans (naClMarkInstructionJumpIllegal_calm inst first)).trans
      (Calm.ofLocals _ _)
  have keep := Calm.refl state
  unfold naClCheckRspAssignments
  split
  · split
    · exact keep
    · exact report
  · split
    · exact keep
    · exact report
  · split
    · exact keep
    · exact report
  · split
    · exact restored state keep
    · exact report
  · split
    · exact restored state keep
    · exact report
  · split
    next marked accepted =>
      exact restored marked (naClAcceptRegMoveLea32To64_calm accepted)
    next => exact report
  · split
    · exact keep
    · exact checkMovRsp_calm off inst state
  · exact checkMovRsp_calm off inst state

private theorem naClCheckRbpAssignments_calm (state : NaClValidatorState) :
    Calm state (naClCheckRbpAssignments config look inst state) := by
  have report := naClValidatorInstMessage_calm off inst state
  unfold naClCheckRbpAssignments
  split
  · split
    · exact (naClMarkInstructionJumpIllegal_calm inst state).trans
        (Calm.ofLocals _ _)
    · exact report
  · split
    next marked accepted =>
      exact (naClAcceptRegMoveLea32To64_calm accepted).trans
        (Calm.ofLocals _ _)
    next => exact report
  · split
    · exact Calm.refl state
    · exact report

private theorem checkAssignment_calm
    (index : Nat) (reg : NaClOpKind) (state : NaClValidatorState) :
    Calm state (checkAssignment config look inst index reg state) := by
  have report := naClValidatorInstMessage_calm off inst state
  unfold checkAssignment naClCheckSubregChangeOfRspRbpOrBase
  split_ifs
  · exact report
  · exact naClCheckRspAssignments_calm off look inst index state
  · exact naClCheckRbpAssignments_calm off look inst state
  · exact Calm.ofLocals state _
  · exact Calm.ofLocals state _
  · exact report
  · exact report
  · exact report
  · exact report
  · exact Calm.refl state

theorem naClBaseRegisterValidator_calm (state : NaClValidatorState) :
    Calm state (naClBaseRegisterValidator config look inst state) := by
  have nodes : Calm state (checkRegisterNodes config look inst state) := by
    refine foldl_calm ?_ _ state
    intro current index
    unfold checkRegisterNode
    split
    · exact checkAssignment_calm off look inst index _ current
    · exact Calm.refl current
  exact nodes.trans (naClMaybeReportPreviousBad_calm off _)

/-! ## Memory references -/

private theorem complain_calm
    (printMessages : Bool) (state : NaClValidatorState) :
    Calm state (complain config inst printMessages state) := by
  unfold complain
  split
  · exact naClValidatorInstMessage_calm off inst state
  · exact Calm.refl state

private theorem checkDisplacement_calm
    (index : Nat) (printMessages : Bool) (state : NaClValidatorState) :
    Calm state
      (checkDisplacement config inst index printMessages state).2 := by
  unfold checkDisplacement
  split
  · exact Calm.refl state
  · exact complain_calm off inst printMessages state

private theorem naClIsValidMemOffset_calm
    (distance index : Nat) (printMessages : Bool)
    (state : NaClValidatorState) :
    Calm state (naClIsValidMemOffset config look distance inst index
      printMessages state).2 := by
  have report := complain_calm off inst printMessages state
  unfold naClIsValidMemOffset
  dsimp only
  split_ifs
  · exact Calm.refl state
  · exact report
  · exact report
  · exact checkDisplacement_calm off inst index printMessages state
  · exact (naClMarkInstructionJumpIllegal_calm inst state).trans
      (checkDisplacement_calm off inst index printMessages _)
  · exact report

private theorem checkSegmentAddress_calm
    (index : Nat) (state : NaClValidatorState) :
    Calm state (checkSegmentAddress config look inst index state) := by
  have report (current : NaClValidatorState) :=
    naClValidatorInstMessage_calm off inst current
  unfold checkSegmentAddress
  split_ifs
  · exact report state
  · exact report state
  · split
    · exact report state
    next previous _ =>
      have checks := naClIsValidMemOffset_calm off look previous 1
        (leaOperand previous) false state
      split
      · generalize naClIsValidMemOffset config look 1 previous
          (leaOperand previous) false state = result at checks ⊢
        obtain ⟨valid, checked⟩ := result
        cases valid with
        | true =>
            exact checks.trans (naClMarkInstructionJumpIllegal_calm inst _)
        | false => exact checks.trans (report _)
      · exact report state

theorem naClMemoryReferenceValidator_calm (state : NaClValidatorState) :
    Calm state (naClMemoryReferenceValidator config look inst state) := by
  refine foldl_calm ?_ _ state
  intro current index
  have checks := naClIsValidMemOffset_calm off look inst 0 index true current
  have other (checked : NaClValidatorState) :
      Calm checked (checkOtherNode config look inst index checked) := by
    unfold checkOtherNode
    split_ifs
    · exact checkSegmentAddress_calm off look inst index checked
    · exact naClValidatorInstMessage_calm off inst checked
    · exact Calm.refl checked
  unfold checkMemoryNode
  split_ifs
  · exact Calm.refl current
  · generalize naClIsValidMemOffset config look 0 inst index true current =
      result at checks ⊢
    obtain ⟨valid, checked⟩ := result
    cases valid with
    | true => exact checks
    | false => exact checks.trans (other checked)
  · exact Calm.refl current

/-! ## Jumps -/

private theorem checkDirectTarget_calm
    (target : Nat) (state : NaClValidatorState) :
    Calm state (checkDirectTarget config target inst state) := by
  unfold checkDirectTarget naClAddJumpToJumpSets
  split_ifs
  · exact Calm.refl state
  · exact naClAddressSetAdd_calm _ _ state
  · exact Calm.refl state
  · exact naClValidatorInstMessage_calm off inst state

private theorem checkJumpNode_calm
    (state : NaClValidatorState) (index : Nat) :
    Calm state (checkJumpNode config look inst state index) := by
  have report := naClValidatorInstMessage_calm off inst state
  unfold checkJumpNode naClAddRegisterJumpIndirect64
  split
  · split
    · split
      next middle _ =>
        exact (naClMarkInstructionJumpIllegal_calm middle state).trans
          (naClMarkInstructionJumpIllegal_calm inst _)
      next => exact report
    · exact checkDirectTarget_calm off inst _ state
    · exact checkDirectTarget_calm off inst _ state
    · exact report
  · exact Calm.refl state

theorem naClJumpValidator_calm (state : NaClValidatorState) :
    Calm state (naClJumpValidator config look inst state) := by
  have remembers : Calm state (naClRememberIp config inst state) := by
    unfold naClRememberIp
    split
    · exact naClValidatorInstMessage_calm off inst state
    · exact naClAddressSetAdd_calm _ _ state
  have targets (current : NaClValidatorState) :
      Calm current (naClAddExprJumpTarget config look inst current) :=
    foldl_calm (checkJumpNode_calm off look inst) _ current
  have aligned (current : NaClValidatorState) :
      Calm current (naClValidateCallAlignment config inst current) := by
    unfold naClValidateCallAlignment
    split
    · exact naClValidatorInstMessage_calm off inst current
    · exact Calm.refl current
  unfold naClJumpValidator
  dsimp only
  split_ifs
  · exact remembers.trans (targets _)
  · exact (remembers.trans (targets _)).trans (aligned _)
  · exact remembers

end Validators

/-! ## The summaries -/

section Summaries

variable (config : NaClValidatorConfig)

theorem reported_text (addresses : List Nat) (state : NaClValidatorState) :
    (reported config addresses state).text = state.text :=
  (foldl_calm (fun current _ => naClValidatorMessage_calm config current)
    addresses state).text

theorem naClJumpValidatorSummarize_text
    {fuel : Nat} {state final : NaClValidatorState}
    (ran : naClJumpValidatorSummarize config fuel state = some final) :
    final.text = state.text := by
  cases quit : state.quit with
  | true =>
      rw [naClJumpValidatorSummarize, if_pos quit] at ran
      rw [← Option.some.inj ran]
  | false =>
      by_cases aligned : config.vbase &&& config.alignmentMask = 0
      · rw [naClJumpValidatorSummarize_reported config fuel quit aligned]
          at ran
        obtain ⟨all, -, rfl⟩ := Option.map_eq_some_iff.mp ran
        exact reported_text config all state
      · unfold naClJumpValidatorSummarize checkBundles at ran
        rw [if_neg (Bool.eq_false_iff.mp quit), if_pos aligned,
          checkTargets_reported] at ran
        rw [← Option.some.inj ran, (naClValidatorMessage_calm config _).text,
          reported_text]

theorem naClApplyPostValidators_text
    (off : config.doStubOut = false) {fuel : Nat}
    {walked final : NaClValidatorState}
    (ran : naClApplyPostValidators config fuel walked = some final) :
    final.text = walked.text := by
  have cpu := @unlessQuit_calm (naClCpuCheckSummary config) (by
    intro state
    unfold naClCpuCheckSummary
    split
    · exact Calm.refl state
    · exact naClValidatorMessage_calm config state) walked
  have base := unlessQuit_calm (naClMaybeReportPreviousBad_calm off)
    (unlessQuit (naClCpuCheckSummary config) walked)
  exact (naClJumpValidatorSummarize_text config ran).trans
    (cpu.trans base).text

end Summaries

end NativeClient.Validator64
