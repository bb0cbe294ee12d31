import NativeClient.Validator32.Acceptance
import NativeClient.Validator32.ReplacementValidator

/-!
# Runs of the replacement validator

The two texts are visited in lock step.  `Pairing` is the invariant while no
rule was broken: the new text is visited as by the segment validator, and the
old text so far has its instructions in the same places.
-/

namespace NativeClient.Validator32

open NativeClient.Library
open NativeClient.Decoder

/-! ## What the extra checks do -/

theorem memcmpEqual_iff
    {memoryOld memoryNew : Buffer} {first second count : Nat} :
    memcmpEqual memoryOld first memoryNew second count = true ↔
      Copies memoryOld memoryNew first second count := by
  simp only [memcmpEqual, List.all_eq_true, List.mem_range, decide_eq_true_eq,
    Copies]
  exact forall₂_congr fun index _ => eq_comm

theorem validateLengthReplacement_keeps
    (mstateOld mstateNew : NCDecoderState) (validation : Validation) :
    Keeps validation.vstate
      (validateLengthReplacement mstateOld mstateNew validation).vstate := by
  unfold validateLengthReplacement
  split_ifs
  · exact bad_tally_keeps fails_statsBadInstLength _ _
  · exact .refl _

theorem validateIndirect5Replacement_keeps
    (bufferOld bufferNew : DecodeBuffer) (memoryOld : Buffer)
    (validation : Validation) :
    Keeps validation.vstate
      (validateIndirect5Replacement bufferOld bufferNew memoryOld
        validation).vstate := by
  unfold validateIndirect5Replacement
  split_ifs
  · exact .refl _
  · exact bad_tally_keeps fails_statsUnsafeIndirect _ _

theorem validateInstReplacement_keeps
    (bufferOld bufferNew : DecodeBuffer) (replacement : Replacement) :
    Keeps (validateInst bufferNew replacement.validation).vstate
      (validateInstReplacement bufferOld bufferNew
        replacement).validation.vstate := by
  unfold validateInstReplacement
  simp only
  split_ifs
  · exact (validateLengthReplacement_keeps _ _ _).trans
      (validateIndirect5Replacement_keeps _ _ _ _)
  · exact validateLengthReplacement_keeps _ _ _

structure Interchangeable (bufferOld bufferNew : DecodeBuffer)
    (memoryOld memoryNew : Buffer) : Prop where
  length : bufferOld.mstate.inst.length = bufferNew.mstate.inst.length
  vpc : bufferOld.mstate.vpc = bufferNew.mstate.vpc
  indirect : bufferOld.mstate.opinfo.insttype = .indirect ∨
      bufferNew.mstate.opinfo.insttype = .indirect →
    sameIndirect5 bufferOld bufferNew memoryOld memoryNew

theorem validateInstReplacement_ok
    {bufferOld bufferNew : DecodeBuffer} {replacement : Replacement}
    (interchangeable : Interchangeable bufferOld bufferNew
      replacement.memoryOld
      (validateInst bufferNew replacement.validation).memory) :
    validateInstReplacement bufferOld bufferNew replacement =
      { replacement with
        validation := validateInst bufferNew replacement.validation } := by
  have matched : validateLengthReplacement bufferOld.mstate bufferNew.mstate
      (validateInst bufferNew replacement.validation) =
      validateInst bufferNew replacement.validation := by
    unfold validateLengthReplacement
    rw [if_neg]
    exact not_or.mpr ⟨not_not.mpr interchangeable.length,
      not_not.mpr interchangeable.vpc⟩
  unfold validateInstReplacement
  simp only
  rw [matched]
  split_ifs with indirect
  · unfold validateIndirect5Replacement
    rw [if_pos (interchangeable.indirect indirect)]
  · rfl

theorem validateInstReplacement_fails
    {bufferOld bufferNew : DecodeBuffer} {replacement : Replacement}
    (different : ¬ Interchangeable bufferOld bufferNew replacement.memoryOld
      (validateInst bufferNew replacement.validation).memory) :
    (validateInstReplacement bufferOld bufferNew
      replacement).validation.vstate.Failed := by
  by_cases matched :
    bufferOld.mstate.inst.length ≠ bufferNew.mstate.inst.length ∨
      bufferOld.mstate.vpc ≠ bufferNew.mstate.vpc
  · have failed : (validateLengthReplacement bufferOld.mstate bufferNew.mstate
        (validateInst bufferNew replacement.validation)).vstate.Failed := by
      unfold validateLengthReplacement
      rw [if_pos matched]
      exact failed_tally fails_statsBadInstLength _
    unfold validateInstReplacement
    simp only
    split_ifs
    · exact (validateIndirect5Replacement_keeps _ _ _ _).failed failed
    · exact failed
  · have same : validateLengthReplacement bufferOld.mstate bufferNew.mstate
        (validateInst bufferNew replacement.validation) =
        validateInst bufferNew replacement.validation := by
      unfold validateLengthReplacement
      rw [if_neg matched]
    rw [not_or, not_not, not_not] at matched
    unfold validateInstReplacement
    simp only
    rw [same]
    split_ifs with indirect
    · unfold validateIndirect5Replacement
      rw [if_neg]
      · exact failed_tally fails_statsUnsafeIndirect _
      · exact fun unchanged => different ⟨matched.1, matched.2,
          fun _ => unchanged⟩
    · exact (different ⟨matched.1, matched.2, fun found =>
        (indirect found).elim⟩).elim

/-! ## One turn -/

/-- The instructions of the two texts so far start in the same places, and
guarded jumps face guarded jumps. -/
structure Matched (old new : Buffer) (number : Nat) : Prop where
  starts : ∀ earlier ≤ number, offsetAt old earlier = offsetAt new earlier
  indirect : ∀ earlier < number,
    (instAt old (offsetAt old earlier)).opinfo.insttype = .indirect ↔
      (instAt new (offsetAt new earlier)).opinfo.insttype = .indirect

abbrev PairState := DecodeBuffer × DecodeBuffer × Replacement

/-- The state after `number` pairs of instructions that broke no rule. -/
structure Pairing (cpufeatures : CPUFeatures) (segment : Segment)
    (old new : Buffer) (number : Nat) (state : PairState) : Prop where
  visiting : Visiting cpufeatures segment new number
    (state.2.1, state.2.2.validation)
  memoryOld : state.2.2.memoryOld = old
  mpc : state.1.mstate.mpc = offsetAt old number
  nextbyte : state.1.mstate.nextbyte = offsetAt old number
  vpc : state.1.mstate.vpc = segment.base + offsetAt old number
  previous : previousInst state.1 (-1) = previousNth segment old number
  matched : Matched old new number

def pairTurn (segment : Segment) : PairState → Turn PairState Replacement :=
  decodeSegmentPairTurn Replacement.memoryOld Replacement.memoryNew
    replacementStats validateInstReplacement (segment.base + segment.size)

def pairOutcome : Turn PairState Replacement → Validation
  | .again next => next.2.2.validation
  | .leave result => result.validation

theorem replacementErrors_validation
    (errors : Nat) (replacement : Replacement) :
    replacementStats.internalError^[errors] replacement =
      { replacement with
        validation :=
          validatorStats.internalError^[errors] replacement.validation } := by
  induction errors generalizing replacement with
  | zero => rfl
  | succ errors ih =>
      rw [Function.iterate_succ_apply, Function.iterate_succ_apply, ih]
      rfl

theorem pairTurn_keeps (segment : Segment) (state : PairState) :
    Keeps state.2.2.validation.vstate
      (pairOutcome (pairTurn segment state)).vstate := by
  obtain ⟨bufferOld, bufferNew, replacement⟩ := state
  unfold pairTurn decodeSegmentPairTurn
  simp only
  generalize consumeNextInstruction replacement.memoryOld bufferOld.mstate =
    mstateOld
  generalize consumeNextInstruction replacement.memoryNew bufferNew.mstate =
    mstateNew
  generalize counted : replacementStats.internalError^[mstateNew.internalErrors]
    (replacementStats.internalError^[mstateOld.internalErrors] replacement) =
      after
  have errors : Keeps replacement.validation.vstate
      after.validation.vstate := by
    rw [← counted, replacementErrors_validation, replacementErrors_validation]
    exact (internalErrors_keeps _ _).trans (internalErrors_keeps _ _)
  split_ifs
  · exact errors.trans (keeps_tally fails_statsSegFault.tallies _)
  · exact errors.trans (keeps_tally fails_statsSegFault.tallies _)
  · exact errors.trans ((validateInst_keeps _ _).trans
      (validateInstReplacement_keeps _ _ _))
  · exact .refl _

section Turns

variable {cpufeatures : CPUFeatures} {segment : Segment} {old new : Buffer}
  {number : Nat} {state : PairState}

private theorem Pairing.decodeOld
    (pairing : Pairing cpufeatures segment old new number state) :
    consumeNextInstruction state.2.2.memoryOld state.1.mstate =
      instNth segment old number := by
  rw [consumeNextInstruction_eq _ (pairing.nextbyte.trans pairing.mpc.symm),
    pairing.mpc, pairing.vpc, pairing.memoryOld]
  rfl

theorem Pairing.turn_eq
    (pairing : Pairing cpufeatures segment old new number state)
    (before : offsetAt new number < segment.size) :
    pairTurn segment state =
      let bufferOld := state.1.setCurrent (instNth segment old number)
      let bufferNew := state.2.1.setCurrent (instNth segment new number)
      let counted : Replacement :=
        { state.2.2 with
          validation := validatorStats.internalError^[
            (instNth segment new number).internalErrors]
            (validatorStats.internalError^[
              (instNth segment old number).internalErrors]
              state.2.2.validation) }
      if wrap32 (segment.base + offsetAt old (number + 1) : Nat) ≠
          wrap32 (segment.base + offsetAt new (number + 1) : Nat) then
        .leave (replacementStats.segFault counted)
      else if wrap32 (segment.base + offsetAt new (number + 1) : Nat) >
          segment.base + segment.size then
        .leave (replacementStats.segFault counted)
      else
        .again (incrementDecodeBuffer bufferOld,
          incrementDecodeBuffer bufferNew,
          validateInstReplacement bufferOld bufferNew counted) := by
  have same := pairing.matched.starts number (Nat.le_refl _)
  have more : state.1.mstate.vpc < segment.base + segment.size ∧
      state.2.1.mstate.vpc < segment.base + segment.size := by
    have newVpc := pairing.visiting.vpc
    have oldVpc := pairing.vpc
    simp only at newVpc
    omega
  have decodeNew : consumeNextInstruction state.2.2.memoryNew
      state.2.1.mstate = instNth segment new number := pairing.visiting.decode
  unfold pairTurn decodeSegmentPairTurn
  simp only [if_pos more, pairing.decodeOld, decodeNew, instNth_newpc,
    replacementErrors_validation]

structure PairAllowed (segment : Segment) (old new : Buffer) (number : Nat)
    (state : PairState) : Prop where
  decodedOld : (instNth segment old number).internalErrors = 0
  decodedNew : (instNth segment new number).internalErrors = 0
  ends : offsetAt new (number + 1) ≤ segment.size
  allowed : InstAllowed segment.bounds new (previousNth segment new number)
    (instNth segment new number)
  interchangeable : Interchangeable
    (state.1.setCurrent (instNth segment old number))
    (state.2.1.setCurrent (instNth segment new number)) state.2.2.memoryOld
    (validateInst (state.2.1.setCurrent (instNth segment new number))
      state.2.2.validation).memory

private theorem PairAllowed.length
    (allowed : PairAllowed segment old new number state) :
    (instAt old (offsetAt old number)).inst.length =
      (instAt new (offsetAt new number)).inst.length := by
  have length := allowed.interchangeable.length
  rw [mstate_setCurrent, mstate_setCurrent] at length
  exact length

private theorem PairAllowed.indirect_iff
    (allowed : PairAllowed segment old new number state)
    (pairing : Pairing cpufeatures segment old new number state) :
    (instAt old (offsetAt old number)).opinfo.insttype = .indirect ↔
      (instAt new (offsetAt new number)).opinfo.insttype = .indirect := by
  have interchangeable := allowed.interchangeable
  have same := pairing.matched.starts number (Nat.le_refl _)
  have positive := instAt_length_pos new (offsetAt new number)
  have after := (pairing.visiting.step_ok allowed.decodedNew allowed.ends
    allowed.allowed).visited.memory
  simp only at after
  -- What the comparison of the two bytes says, once the new text is squashed.
  have unchanged
      (found : (instAt old (offsetAt old number)).opinfo.insttype =
          .indirect ∨
        (instAt new (offsetAt new number)).opinfo.insttype = .indirect) :
      (instAt old (offsetAt old number)).inst.length = 2 ∧
        Copies old (stubbed cpufeatures segment new (number + 1))
          (offsetAt old number) (offsetAt new number) 2 := by
    have guarded := interchangeable.indirect (by
      rw [mstate_setCurrent, mstate_setCurrent]
      exact found)
    rw [after, pairing.memoryOld] at guarded
    unfold sameIndirect5 at guarded
    simp only [mstate_setCurrent, memcmpEqual_iff, instNth, placed_inst_maddr,
      placed_inst_length] at guarded
    exact ⟨guarded.2.2.2.1, guarded.2.2.2.2.2⟩
  by_cases squashed :
    squashes cpufeatures new (instNth segment new number) = true
  · refine iff_of_false ?_ (squashes_type squashed).1
    intro indirect
    have first := (unchanged (.inl indirect)).2 0 (by decide)
    simp only [Nat.add_zero] at first
    rw [stubbed_behind (Nat.lt_succ_self number) (Nat.le_refl _)
      (by rw [offsetAt_succ]; omega), if_pos squashed] at first
    rw [(instAt_hlt first.symm).2.2.1] at indirect
    cases indirect
  · have samePlace (found :
        (instAt old (offsetAt old number)).opinfo.insttype = .indirect ∨
        (instAt new (offsetAt new number)).opinfo.insttype = .indirect) :
        instAt new (offsetAt new number) = instAt old (offsetAt old number) := by
      obtain ⟨two, copies⟩ := unchanged found
      apply instAt_copies
      rw [two]
      intro index small
      have byte := copies index small
      have length := allowed.length
      rwa [stubbed_behind (Nat.lt_succ_self number) (Nat.le_add_right _ _)
        (by rw [offsetAt_succ]; omega), if_neg squashed] at byte
    constructor
    · intro indirect
      rw [samePlace (.inl indirect)]
      exact indirect
    · intro indirect
      rw [← samePlace (.inr indirect)]
      exact indirect

theorem Pairing.turn_ok
    (pairing : Pairing cpufeatures segment old new number state)
    (allowed : PairAllowed segment old new number state) :
    ∃ next, pairTurn segment state = .again next ∧
      Pairing cpufeatures segment old new (number + 1) next := by
  have same := pairing.matched.starts number (Nat.le_refl _)
  have sameNext : offsetAt old (number + 1) = offsetAt new (number + 1) := by
    rw [offsetAt_succ, offsetAt_succ, same, ← allowed.length, same]
  have forward : offsetAt new number < offsetAt new (number + 1) :=
    offsetAt_strictMono new (Nat.lt_succ_self number)
  have ends := allowed.ends
  have exactly : wrap32 (segment.base + offsetAt new (number + 1) : Nat) =
      segment.base + offsetAt new (number + 1) := by
    have fits := segment.fits
    exact wrap32_of_lt (by omega)
  have current := mstate_setCurrent state.1 (instNth segment old number)
  let bufferNew := state.2.1.setCurrent (instNth segment new number)
  refine ⟨(incrementDecodeBuffer
      (state.1.setCurrent (instNth segment old number)),
    incrementDecodeBuffer bufferNew,
    { state.2.2 with
      validation := validateInst bufferNew state.2.2.validation }), ?_,
    pairing.visiting.step_ok allowed.decodedNew allowed.ends allowed.allowed,
    pairing.memoryOld, ?_, ?_, ?_, ?_, ?_, ?_⟩
  · rw [pairing.turn_eq (by omega), sameNext, exactly]
    simp only
    rw [if_neg (not_not.mpr rfl), if_neg (by omega), allowed.decodedOld,
      allowed.decodedNew]
    congr 3
    exact validateInstReplacement_ok allowed.interchangeable
  · simp only [mstate_increment, current, instNth_mpc]
    rfl
  · simp only [mstate_increment, current, instNth_nextbyte]
  · simp only [mstate_increment, current, instNth_newpc, sameNext, exactly]
  · simp only [previousInst_increment, current]
    rfl
  · intro earlier small
    rcases Nat.le_succ_iff.mp small with before | rfl
    · exact pairing.matched.starts earlier before
    · exact sameNext
  · intro earlier small
    rcases Nat.lt_succ_iff_lt_or_eq.mp small with before | rfl
    · exact pairing.matched.indirect earlier before
    · exact allowed.indirect_iff pairing

structure PairLost (segment : Segment) (state : PairState) : Prop where
  lost : Lost segment (state.2.1, state.2.2.validation)
  together : state.1.mstate.vpc = state.2.1.mstate.vpc

theorem PairLost.turn_fails (lost : PairLost segment state) :
    (pairOutcome (pairTurn segment state)).vstate.Failed := by
  obtain ⟨bufferOld, bufferNew, replacement⟩ := state
  have below := lost.lost.below
  have together := lost.together
  have fresh : bufferNew.mstate.nextbyte = bufferNew.mstate.mpc :=
    lost.lost.fresh
  have base : replacement.validation.vstate.iadrbase = segment.base :=
    lost.lost.iadrbase
  simp only at below together
  unfold pairTurn decodeSegmentPairTurn
  simp only
  rw [if_pos ⟨by omega, by omega⟩, consumeNextInstruction_eq _ fresh]
  generalize consumeNextInstruction replacement.memoryOld bufferOld.mstate =
    mstateOld
  generalize instAt replacement.memoryNew bufferNew.mstate.mpc = inst
  split_ifs
  · exact failed_tally fails_statsSegFault _
  · exact failed_tally fails_statsSegFault _
  · rw [replacementErrors_validation, replacementErrors_validation]
    refine (validateInstReplacement_keeps _ _ _).failed
      (validateInst_fails_of_seen ?_)
    rw [mstate_setCurrent]
    rintro ⟨⟨above, -⟩, -⟩
    have kept := ((internalErrors_keeps mstateOld.internalErrors
      replacement.validation).trans (internalErrors_keeps
        (relocate bufferNew.mstate.mpc bufferNew.mstate.vpc
          inst).internalErrors _)).config.iadrbase
    exact Nat.not_lt.mpr above (lt_of_lt_of_eq below (kept.trans base).symm)

theorem Pairing.turn_bad
    (pairing : Pairing cpufeatures segment old new number state)
    (room : segment.size + segment.alignment ≤ 2 ^ 32)
    (before : offsetAt new number < segment.size)
    (bad : ¬ PairAllowed segment old new number state) :
    (pairOutcome (pairTurn segment state)).vstate.Failed ∨
      ∃ next, pairTurn segment state = .again next ∧
        PairLost segment next := by
  rw [pairing.turn_eq before]
  simp only
  split_ifs with apart past
  · exact .inl (failed_tally fails_statsSegFault _)
  · exact .inl (failed_tally fails_statsSegFault _)
  · by_cases decoded : (instNth segment old number).internalErrors = 0 ∧
      (instNth segment new number).internalErrors = 0
    swap
    · left
      apply (validateInstReplacement_keeps _ _ _).failed
      apply (validateInst_keeps _ _).failed
      by_cases decodedOld : (instNth segment old number).internalErrors = 0
      · exact internalErrors_fails (fun zero => decoded ⟨decodedOld, zero⟩) _
      · exact (internalErrors_keeps _ _).failed
          (internalErrors_fails decodedOld _)
    rw [decoded.1, decoded.2]
    by_cases allowed : InstAllowed segment.bounds new
        (previousNth segment new number) (instNth segment new number)
    swap
    · exact .inl ((validateInstReplacement_keeps _ _ _).failed
        (pairing.visiting.step_forbidden allowed))
    by_cases interchangeable : Interchangeable
        (state.1.setCurrent (instNth segment old number))
        (state.2.1.setCurrent (instNth segment new number))
        state.2.2.memoryOld
        (validateInst (state.2.1.setCurrent (instNth segment new number))
          state.2.2.validation).memory
    swap
    · exact .inl (validateInstReplacement_fails interchangeable)
    have wraps : 2 ^ 32 ≤ segment.base + offsetAt new (number + 1) := by
      by_contra small
      have exactly := wrap32_of_lt (Nat.not_le.mp small)
      exact bad ⟨decoded.1, decoded.2, by omega, allowed, interchangeable⟩
    refine .inr ⟨_, rfl, ?_, ?_⟩
    · have same : validateInstReplacement
          (state.1.setCurrent (instNth segment old number))
          (state.2.1.setCurrent (instNth segment new number)) state.2.2 =
          { state.2.2 with
            validation := validateInst
              (state.2.1.setCurrent (instNth segment new number))
              state.2.2.validation } :=
        validateInstReplacement_ok interchangeable
      simp only [Function.iterate_zero, id_eq]
      rw [same]
      exact pairing.visiting.step_lost room before wraps allowed
    · simp only [mstate_increment, mstate_setCurrent, instNth_newpc]
      exact not_not.mp apart

theorem Pairing.turn_end
    (pairing : Pairing cpufeatures segment old new number state)
    (all : offsetAt new number = segment.size) :
    pairTurn segment state = .leave state.2.2 := by
  have newVpc := pairing.visiting.vpc
  unfold pairTurn decodeSegmentPairTurn
  simp only
  rw [if_neg]
  rintro ⟨-, more⟩
  rw [newVpc, all] at more
  exact Nat.lt_irrefl _ more

/-! ## Whole runs -/

def PairProgress (cpufeatures : CPUFeatures) (segment : Segment)
    (old new : Buffer) (state : PairState) : Prop :=
  state.2.2.validation.vstate.Failed ∨ PairLost segment state ∨
    ∃ number, Pairing cpufeatures segment old new number state

private theorem PairProgress.turn
    (room : segment.size + segment.alignment ≤ 2 ^ 32)
    (progress : PairProgress cpufeatures segment old new state) :
    (pairOutcome (pairTurn segment state)).vstate.Failed ∨
      (∃ next, pairTurn segment state = .again next ∧
        PairProgress cpufeatures segment old new next) ∨
      ∃ count, pairTurn segment state = .leave state.2.2 ∧
        offsetAt new count = segment.size ∧
        Pairing cpufeatures segment old new count state := by
  rcases progress with failed | lost | ⟨number, pairing⟩
  · exact .inl ((pairTurn_keeps segment state).failed failed)
  · exact .inl lost.turn_fails
  · rcases Nat.lt_or_eq_of_le pairing.visiting.visited.inside with before | all
    · by_cases good : PairAllowed segment old new number state
      · obtain ⟨next, action, paired⟩ := pairing.turn_ok good
        exact .inr (.inl ⟨next, action, .inr (.inr ⟨number + 1, paired⟩)⟩)
      · rcases pairing.turn_bad room before good with
          failed | ⟨next, action, lost⟩
        · exact .inl failed
        · exact .inr (.inl ⟨next, action, .inr (.inl lost)⟩)
    · exact .inr (.inr ⟨number, pairing.turn_end all, all, pairing⟩)

theorem pair_run_failed_or_visited
    (room : segment.size + segment.alignment ≤ 2 ^ 32)
    (progress : PairProgress cpufeatures segment old new state)
    {result : Replacement}
    (returned : Returns (pairTurn segment) state result) :
    result.validation.vstate.Failed ∨
      ∃ count, offsetAt new count = segment.size ∧
        Visited cpufeatures segment new count result.validation ∧
        Matched old new count := by
  refine Returns.invariant (PairProgress cpufeatures segment old new)
    (fun value => value.validation.vstate.Failed ∨
      ∃ count, offsetAt new count = segment.size ∧
        Visited cpufeatures segment new count value.validation ∧
        Matched old new count) ?_ ?_ progress returned
  · intro current next holds action
    rcases holds.turn room with failed | ⟨other, same, kept⟩ |
      ⟨count, same, -⟩
    · rw [action] at failed
      exact .inl failed
    · rw [action] at same
      cases same
      exact kept
    · rw [action] at same
      cases same
  · intro current value holds action
    rcases holds.turn room with failed | ⟨other, same, -⟩ |
      ⟨count, same, all, pairing⟩
    · rw [action] at failed
      exact .inl failed
    · rw [action] at same
      cases same
    · rw [action] at same
      cases same
      exact .inr ⟨count, all, pairing.visiting.visited, pairing.matched⟩

theorem pair_run_keeps
    {result : Replacement}
    (returned : Returns (pairTurn segment) state result) :
    Keeps state.2.2.validation.vstate result.validation.vstate := by
  refine Returns.invariant
    (fun current =>
      Keeps state.2.2.validation.vstate current.2.2.validation.vstate)
    (fun value => Keeps state.2.2.validation.vstate value.validation.vstate)
    ?_ ?_ (Keeps.refl _) returned
  · intro current next keeps action
    have turn := pairTurn_keeps segment current
    rw [action] at turn
    exact keeps.trans turn
  · intro current value keeps action
    have turn := pairTurn_keeps segment current
    rw [action] at turn
    exact keeps.trans turn

end Turns

/-! ## Accepted replacements -/

def pairStart (cpufeatures : CPUFeatures) (segment : Segment)
    (old new : Buffer) : PairState :=
  (initDecodeBuffer segment.base, initDecodeBuffer segment.base,
    ⟨old, (startState cpufeatures segment new).2⟩)

theorem pairStart_pairing
    (cpufeatures : CPUFeatures) (segment : Segment) (old new : Buffer) :
    Pairing cpufeatures segment old new 0
      (pairStart cpufeatures segment old new) where
  visiting := startState_visiting cpufeatures segment new
  memoryOld := rfl
  mpc := rfl
  nextbyte := rfl
  vpc := rfl
  previous := by
    rw [previousInst_one]
    rfl
  matched := by
    constructor
    · intro earlier none
      rw [Nat.le_zero.mp none]
      rfl
    · intro earlier none
      omega

theorem ncDecodeSegmentPair_eq
    (cpufeatures : CPUFeatures) (segment : Segment) (old new : Buffer)
    (fuel : Nat) :
    ncDecodeSegmentPair Replacement.memoryOld Replacement.memoryNew
        replacementStats validateInstReplacement segment.base segment.size
        ⟨old, ⟨new, { initState segment with cpufeatures := cpufeatures }⟩⟩
        fuel =
      runLoop (pairTurn segment) fuel
        (pairStart cpufeatures segment old new) := by
  have limit : wrap32 (segment.base + segment.size : Nat) =
      segment.base + segment.size := wrap32_of_lt segment.fits
  unfold ncDecodeSegmentPair pairTurn pairStart
  rw [← limit]
  rfl

theorem accepts_replacement
    {cpufeatures : CPUFeatures} {vbase vlimit : UInt32} {alignment : UInt8}
    {old new final : Buffer}
    (accepted : ValidatesReplacement cpufeatures vbase vlimit alignment old new
      0 final) :
    cpufeatures.f386 = true ∧
      ∃ segment, Describes segment vbase vlimit alignment ∧
        ∃ count, ValidSegment segment new count ∧ Matched old new count ∧
          final = stubbed cpufeatures segment new count := by
  obtain ⟨vstate, init, fuel, validation, run, rfl, finish⟩ := accepted
  obtain ⟨segment, describes, rfl⟩ := describes_of_ncValidateInit init
  have size : vlimit.toNat - vbase.toNat = segment.size := by
    rw [← describes.limit, describes.base, Nat.add_sub_cancel_left]
  have nonempty : segment.size ≠ 0 := Nat.pos_iff_ne_zero.mp segment.nonempty
  have finishes : Finishes validation.vstate 0 := ⟨fuel, finish⟩
  rw [size, ← describes.base] at run
  by_cases implemented : cpufeatures.f386 = true
  · refine ⟨implemented, segment, describes, ?_⟩
    simp only [ncValidateSegmentPair, ncValidateStart, if_neg nonempty,
      implemented, if_true, Option.map_eq_some_iff] at run
    obtain ⟨result, run, rfl⟩ := run
    rw [ncDecodeSegmentPair_eq] at run
    have returned : Returns (pairTurn segment)
        (pairStart cpufeatures segment old new) result := ⟨fuel, run⟩
    have start := pairStart_pairing cpufeatures segment old new
    have configured := start.visiting.visited.configured.of_same
      (pair_run_keeps returned).config
    have room := configured.room finishes
    rcases pair_run_failed_or_visited room (.inr (.inr ⟨0, start⟩)) returned
      with failed | ⟨count, tiles, visited, matched⟩
    · exact absurd (configured.rejects failed finishes) (by decide)
    · exact ⟨count, (visited.accepts_iff tiles).mp finishes, matched,
        visited.memory⟩
  · rw [Bool.not_eq_true] at implemented
    simp only [ncValidateSegmentPair, ncValidateStart, if_neg nonempty,
      implemented, Bool.false_eq_true, if_false, Option.some.injEq] at run
    have configured : Configured cpufeatures segment
        ({ initState segment with
          cpufeatures := cpufeatures }.tally statsBadCPU) :=
      ⟨rfl, rfl, rfl, rfl, rfl⟩
    rw [← run] at finishes
    exact absurd (configured.rejects rfl finishes) (by decide)

end NativeClient.Validator32
