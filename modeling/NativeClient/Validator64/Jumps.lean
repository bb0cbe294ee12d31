import NativeClient.Validator64.MemoryReferences

/-!
# What the jump validator guarantees

The direct targets of an instruction that passes it are remembered, and its
indirect ones are masked.  At the end, every remembered target and every bundle
start must be the start of an instruction that may be jumped to.
-/

namespace NativeClient.Validator64

open NativeClient.Library
open NativeClient.Decoder64

/-! ## One instruction -/

def isTransfer (inst : NaClInstState) : Prop :=
  isJump inst.inst.name = true ∨ inst.inst.name = .instCall

structure IsTarget (inst : NaClInstState) (index : Nat) : Prop where
  transfer : isTransfer inst
  node : index < (vectorOf inst).numberExprNodes
  flag : ((vectorOf inst).node index).has .exprJumpTarget = true

structure OutsideTarget (config : NaClValidatorConfig) (target : Nat) :
    Prop where
  outside : target < config.vbase ∨ config.vlimit ≤ target
  aligned : target % config.alignment = 0
  bounded : target < 2 ^ 32

def isConstantKind : NaClExpKind → Bool
  | .exprConstant | .exprConstant64 => true
  | _ => false

structure ValidTarget (config : NaClValidatorConfig) (look : Lookback)
    (inst : NaClInstState) (index : Nat) (state : NaClValidatorState) :
    Prop where
  kinds : ((vectorOf inst).node index).kind = .exprRegister ∨
    isConstantKind ((vectorOf inst).node index).kind = true
  indirect : ((vectorOf inst).node index).kind = .exprRegister →
    ∃ middle, maskedJumpMiddle config look
        (naClGetExpVectorRegister (vectorOf inst) index) = some middle ∧
      Marked state middle ∧ Marked state inst
  direct : isConstantKind ((vectorOf inst).node index).kind = true →
    naClGetExpConstant (vectorOf inst) index = 0 ∨
      (∃ offset, naClGetExpConstant (vectorOf inst) index =
          config.vbase + offset ∧ offset < config.size ∧
        (state.jumpSets .actualTargets).get offset = true) ∨
      OutsideTarget config (naClGetExpConstant (vectorOf inst) index)

def ValidTargets (config : NaClValidatorConfig) (look : Lookback)
    (inst : NaClInstState) (state : NaClValidatorState) : Prop :=
  ∀ index, IsTarget inst index → ValidTarget config look inst index state

section Later

variable {config : NaClValidatorConfig} {look : Lookback}
  {inst current : NaClInstState} {before after : NaClValidatorState}

theorem ValidTarget.later
    {index : Nat} (valid : ValidTarget config look inst index before)
    (later : Later current before after) :
    ValidTarget config look inst index after where
  kinds := valid.kinds
  indirect := by
    intro kind
    obtain ⟨middle, found, first, second⟩ := valid.indirect kind
    exact ⟨middle, found, first.later later, second.later later⟩
  direct := by
    intro kind
    rcases valid.direct kind with zero | inside | outside
    · exact .inl zero
    · obtain ⟨offset, target, below, member⟩ := inside
      exact .inr (.inl ⟨offset, target, below,
        later.sets _ _ member⟩)
    · exact .inr (.inr outside)

theorem ValidTargets.later
    (valid : ValidTargets config look inst before)
    (later : Later current before after) :
    ValidTargets config look inst after :=
  fun index target => (valid index target).later later

end Later

section Node

variable {config : NaClValidatorConfig} {look : Lookback}
  {inst : NaClInstState} (inside : InSegment config inst)
  (seen : LooksInside config look) {state : NaClValidatorState}

theorem and_alignmentMask (config : NaClValidatorConfig) (address : Nat) :
    address &&& config.alignmentMask = address % config.alignment := by
  rw [NaClValidatorConfig.alignmentMask]
  rcases config.bundles with sixteen | thirtyTwo
  · rw [sixteen]
    exact Nat.and_two_pow_sub_one_eq_mod address 4
  · rw [thirtyTwo]
    exact Nat.and_two_pow_sub_one_eq_mod address 5

private theorem naClAddJumpToJumpSets_frame
    (target : Nat) (state : NaClValidatorState) :
    Frame inst state (naClAddJumpToJumpSets config target inst state) := by
  rw [naClAddJumpToJumpSets]
  split_ifs with inRange outside
  · apply naClAddressSetAdd_frame inRange.1 inRange.2
    intro wrong
    cases wrong
  · exact Frame.refl _ _
  · exact instMessage_frame config inst state

private theorem naClAddJumpToJumpSets_valid
    {target : Nat}
    (accepted : (naClAddJumpToJumpSets config target inst
      state).validatesOk = true) :
    (∃ offset, target = config.vbase + offset ∧ offset < config.size ∧
        ((naClAddJumpToJumpSets config target inst state).jumpSets
          .actualTargets).get offset = true) ∨
      OutsideTarget config target := by
  rw [naClAddJumpToJumpSets] at accepted ⊢
  split_ifs at accepted ⊢ with inRange outside
  · refine .inl ⟨target - config.vbase, ?_, ?_, ?_⟩
    · omega
    · have upper := inRange.2
      rw [NaClValidatorConfig.vlimit] at upper
      omega
    · rw [naClAddressSetAdd_get inRange.1 inRange.2]
      simp
  · refine .inr ⟨?_, ?_, outside.2⟩
    · omega
    · rw [← and_alignmentMask]
      exact outside.1
  · exact absurd accepted (naClValidatorInstMessage_notOk config inst state)

private theorem checkDirectTarget_frame
    (target : Nat) (state : NaClValidatorState) :
    Frame inst state (checkDirectTarget config target inst state) := by
  rw [checkDirectTarget]
  split_ifs
  · exact Frame.refl _ _
  · exact naClAddJumpToJumpSets_frame target state

private theorem checkDirectTarget_valid
    {target : Nat}
    (accepted : (checkDirectTarget config target inst
      state).validatesOk = true) :
    target = 0 ∨
      (∃ offset, target = config.vbase + offset ∧ offset < config.size ∧
        ((checkDirectTarget config target inst state).jumpSets
          .actualTargets).get offset = true) ∨
      OutsideTarget config target := by
  rw [checkDirectTarget] at accepted ⊢
  split_ifs at accepted ⊢ with callZero
  · exact .inl callZero.1
  · exact .inr (naClAddJumpToJumpSets_valid accepted)

theorem maskedJumpMiddle_look
    {jumpReg : NaClOpKind} {middle : NaClInstState}
    (found : maskedJumpMiddle config look jumpReg = some middle) :
    look 1 = some middle := by
  simp only [maskedJumpMiddle, Option.bind_eq_bind,
    Option.bind_eq_some_iff] at found
  obtain ⟨_, _, _, _, last, looked, result⟩ := found
  split_ifs at result
  cases result
  exact looked

private theorem naClValidateCallAlignment_frame
    (config : NaClValidatorConfig) (inst : NaClInstState)
    (state : NaClValidatorState) :
    Frame inst state (naClValidateCallAlignment config inst state) := by
  rw [naClValidateCallAlignment]
  split_ifs
  · exact instMessage_frame config inst state
  · exact Frame.refl _ _

include inside seen

private theorem naClAddRegisterJumpIndirect64_frame
    (jumpReg : NaClOpKind) (state : NaClValidatorState) :
    Frame inst state
      (naClAddRegisterJumpIndirect64 config look inst jumpReg state) := by
  rw [naClAddRegisterJumpIndirect64]
  split
  · rename_i middle found
    have middleInside := seen 1 middle (maskedJumpMiddle_look found)
    exact (mark_frame middleInside inst state).trans
      (mark_frame inside inst _)
  · exact instMessage_frame config inst state

private theorem naClAddRegisterJumpIndirect64_valid
    {jumpReg : NaClOpKind}
    (accepted : (naClAddRegisterJumpIndirect64 config look inst jumpReg
      state).validatesOk = true) :
    ∃ middle, maskedJumpMiddle config look jumpReg = some middle ∧
      Marked (naClAddRegisterJumpIndirect64 config look inst jumpReg state)
        middle ∧
      Marked (naClAddRegisterJumpIndirect64 config look inst jumpReg state)
        inst := by
  rw [naClAddRegisterJumpIndirect64] at accepted ⊢
  split at accepted
  · rename_i middle found
    have middleInside := seen 1 middle (maskedJumpMiddle_look found)
    refine ⟨middle, found, ?_, mark_marked inside _⟩
    exact (mark_marked middleInside state).later
      (mark_frame inside inst _).toLater
  · exact absurd accepted (naClValidatorInstMessage_notOk config inst state)

private theorem checkJumpNode_frame
    (state : NaClValidatorState) (index : Nat) :
    Frame inst state (checkJumpNode config look inst state index) := by
  rw [checkJumpNode]
  split
  · split
    · exact naClAddRegisterJumpIndirect64_frame inside seen _ state
    · exact checkDirectTarget_frame _ state
    · exact checkDirectTarget_frame _ state
    · exact instMessage_frame config inst state
  · exact Frame.refl _ _

private theorem checkJumpNode_valid
    {index : Nat}
    (accepted : (checkJumpNode config look inst state index).validatesOk =
      true)
    (flag : ((vectorOf inst).node index).has .exprJumpTarget = true) :
    ValidTarget config look inst index
      (checkJumpNode config look inst state index) := by
  rw [checkJumpNode, if_pos flag] at accepted ⊢
  cases kind : ((vectorOf inst).node index).kind with
  | exprRegister =>
      rw [kind] at accepted
      refine ⟨.inl kind, fun _ => ?_, ?_⟩
      · exact naClAddRegisterJumpIndirect64_valid inside seen accepted
      · intro constant
        rw [kind] at constant
        cases constant
  | exprConstant =>
      rw [kind] at accepted
      refine ⟨.inr (by rw [kind]; rfl), ?_, fun _ => ?_⟩
      · intro register
        rw [kind] at register
        cases register
      · exact checkDirectTarget_valid accepted
  | exprConstant64 =>
      rw [kind] at accepted
      refine ⟨.inr (by rw [kind]; rfl), ?_, fun _ => ?_⟩
      · intro register
        rw [kind] at register
        cases register
      · exact checkDirectTarget_valid accepted
  | undefinedExp | operandReference | exprSegmentAddress | exprMemOffset =>
      rw [kind] at accepted
      exact absurd accepted (naClValidatorInstMessage_notOk config inst state)

private theorem naClAddExprJumpTarget_spec
    (state : NaClValidatorState) :
    Frame inst state (naClAddExprJumpTarget config look inst state) ∧
      ((naClAddExprJumpTarget config look inst state).validatesOk = true →
        ∀ index < (vectorOf inst).numberExprNodes,
          ((vectorOf inst).node index).has .exprJumpTarget = true →
          ValidTarget config look inst index
            (naClAddExprJumpTarget config look inst state)) := by
  refine foldl_range_invariant
    (fun count current => Frame inst state current ∧
      (current.validatesOk = true → ∀ index < count,
        ((vectorOf inst).node index).has .exprJumpTarget = true →
        ValidTarget config look inst index current)) ?_
    ⟨Frame.refl _ _, fun _ index below => absurd below (Nat.not_lt_zero _)⟩
  intro count current _ holds
  obtain ⟨frame, valid⟩ := holds
  have step := checkJumpNode_frame inside seen current count
  refine ⟨frame.trans step, ?_⟩
  intro accepted index below flag
  rcases Nat.lt_succ_iff_lt_or_eq.mp below with earlier | same
  · exact (valid (step.ok accepted) index earlier flag).later step.toLater
  · subst same
    exact checkJumpNode_valid inside seen accepted flag

theorem naClJumpValidator_spec
    (state : NaClValidatorState) :
    Frame inst state (naClJumpValidator config look inst state) ∧
      ((naClJumpValidator config look inst state).jumpSets
        .possibleTargets).get inst.mpc = true ∧
      ((naClJumpValidator config look inst state).validatesOk = true →
        ValidTargets config look inst
          (naClJumpValidator config look inst state)) := by
  obtain ⟨remembers, member⟩ := remember_frame inside state
  obtain ⟨frame, valid⟩ := naClAddExprJumpTarget_spec inside seen
    (naClRememberIp config inst state)
  rw [naClJumpValidator]
  split_ifs with jump call
  · refine ⟨remembers.trans frame, frame.sets _ _ member, ?_⟩
    intro accepted index target
    exact valid accepted index target.node target.flag
  · have aligned := naClValidateCallAlignment_frame config inst
      (naClAddExprJumpTarget config look inst
        (naClRememberIp config inst state))
    refine ⟨(remembers.trans frame).trans aligned,
      aligned.sets _ _ (frame.sets _ _ member), ?_⟩
    intro accepted index target
    exact (valid (aligned.ok accepted) index target.node target.flag).later
      aligned.toLater
  · refine ⟨remembers, member, ?_⟩
    intro _ index target
    rcases target.transfer with other | other
    · exact absurd other jump
    · exact absurd other call

end Node

/-! ## The whole segment -/

/-- `after` is `state`, unless there was an error. -/
def Quiet (state after : NaClValidatorState) : Prop :=
  after.validatesOk = true → after = state

theorem Quiet.trans
    {first second third : NaClValidatorState}
    (start : Quiet first second) (next : Quiet second third) :
    Quiet first third := by
  intro accepted
  have same := next accepted
  rw [same] at accepted ⊢
  exact start accepted

def Reachable (state : NaClValidatorState) (offset : Nat) : Prop :=
  (state.jumpSets .possibleTargets).get offset = true ∧
    (state.jumpSets .removedTargets).get offset = false

section Summary

variable {config : NaClValidatorConfig} {offset : Nat}
  {state : NaClValidatorState}

private theorem naClValidatorMessage_quiet
    (config : NaClValidatorConfig) (before state : NaClValidatorState) :
    Quiet before (naClValidatorMessage config state) :=
  fun accepted => absurd accepted (naClValidatorMessage_notOk config state)

private theorem naClCheckAddressRange_quiet
    (config : NaClValidatorConfig) (address : Nat)
    (state : NaClValidatorState) :
    Quiet state (naClCheckAddressRange config address state).2 := by
  rw [naClCheckAddressRange]
  split_ifs
  · exact naClValidatorMessage_quiet config state state
  · exact naClValidatorMessage_quiet config state state
  · exact fun _ => rfl

private theorem naClAddressSetContains_quiet
    (config : NaClValidatorConfig) (set : TargetSet) (address : Nat)
    (state : NaClValidatorState) :
    Quiet state (naClAddressSetContains config set address state).2 := by
  have checks := naClCheckAddressRange_quiet config address state
  rw [naClAddressSetContains]
  split
  · rename_i checked result
    rw [result] at checks
    exact checks
  · rename_i checked result
    rw [result] at checks
    exact checks

private theorem isNaClReachableAddress_quiet
    (config : NaClValidatorConfig) (address : Nat)
    (state : NaClValidatorState) :
    Quiet state (isNaClReachableAddress config address state).2 := by
  have first := naClAddressSetContains_quiet config
    .possibleTargets address state
  rw [isNaClReachableAddress]
  split
  · rename_i found result
    rw [result] at first
    exact first.trans (naClAddressSetContains_quiet config _ _ _)
  · rename_i checked result
    rw [result] at first
    exact first

private theorem checkReachable_quiet
    (config : NaClValidatorConfig) (address : Nat)
    (state : NaClValidatorState) :
    Quiet state (checkReachable config address state) := by
  have checks := isNaClReachableAddress_quiet config address state
  rw [checkReachable]
  split
  · rename_i checked result
    rw [result] at checks
    exact checks
  · exact naClValidatorMessage_quiet config state _

private theorem checkReachable_reachable
    (below : offset < config.size)
    (accepted : (checkReachable config (config.vbase + offset)
      state).validatesOk = true) :
    Reachable state offset := by
  have lower : config.vbase ≤ config.vbase + offset := Nat.le_add_right _ _
  have upper : config.vbase + offset < config.vlimit := by
    rw [NaClValidatorConfig.vlimit]
    omega
  have failed := naClValidatorMessage_notOk config state
  rw [checkReachable, isNaClReachableAddress,
    naClAddressSetContains_inside lower upper, Nat.add_sub_cancel_left]
    at accepted
  cases possible : (state.jumpSets .possibleTargets).get offset with
  | false =>
      rw [possible] at accepted
      exact absurd accepted failed
  | true =>
      rw [possible] at accepted
      dsimp only at accepted
      rw [naClAddressSetContains_inside lower upper, Nat.add_sub_cancel_left]
        at accepted
      cases removed : (state.jumpSets .removedTargets).get offset with
      | false => exact ⟨possible, removed⟩
      | true =>
          rw [removed] at accepted
          exact absurd accepted failed

private theorem checkTarget_quiet
    (config : NaClValidatorConfig) (byte : Nat)
    (state : NaClValidatorState) (bit : Nat) :
    Quiet state (checkTarget config byte state bit) := by
  rw [checkTarget]
  split_ifs
  · have first := naClAddressSetContains_quiet config
      .actualTargets ((byte <<< 3 + config.vbase + bit) % 2 ^ 64) state
    split
    · rename_i found result
      rw [result] at first
      exact first.trans (checkReachable_quiet config _ _)
    · rename_i checked result
      rw [result] at first
      exact first
  · exact fun _ => rfl

private theorem checkTarget_reachable
    (below : offset < config.size)
    (accepted : (checkTarget config (offset / 8) state
      (offset % 8)).validatesOk = true)
    (target : (state.jumpSets .actualTargets).get offset = true) :
    Reachable state offset := by
  have bounded := config.bounded
  have place : (offset / 8) <<< 3 + config.vbase + offset % 8 =
      config.vbase + offset := by
    rw [Nat.shiftLeft_eq]
    omega
  have small : config.vbase + offset < 2 ^ 64 := by omega
  have lower : config.vbase ≤ config.vbase + offset := Nat.le_add_right _ _
  have upper : config.vbase + offset < config.vlimit := by
    rw [NaClValidatorConfig.vlimit]
    omega
  rw [checkTarget, place, Nat.mod_eq_of_lt small] at accepted
  rw [if_pos upper, naClAddressSetContains_inside lower upper,
    Nat.add_sub_cancel_left, target] at accepted
  exact checkReachable_reachable below accepted

private theorem reachable_of_not_isProblem
    (fine : isProblem state (offset / 8) = false)
    (target : (state.jumpSets .actualTargets).get offset = true) :
    Reachable state offset := by
  have bitBelow : offset % 8 < 8 := Nat.mod_lt _ (by omega)
  have zero : (state.jumpSets .actualTargets (offset / 8)) &&&
      (~~~ (state.jumpSets .possibleTargets (offset / 8)) |||
        (state.jumpSets .removedTargets (offset / 8))) = 0 := by
    rw [isProblem] at fine
    exact bne_eq_false_iff_eq.mp fine
  have bit := congrArg
    (fun byte => byte.toBitVec.getLsbD (offset % 8)) zero
  rw [AddressTable.get_eq_bit] at target
  simp only [UInt8.toBitVec_and, UInt8.toBitVec_or, UInt8.toBitVec_not,
    BitVec.getLsbD_and, BitVec.getLsbD_or, BitVec.getLsbD_not, target,
    bitBelow, decide_true, Bool.true_and] at bit
  have clear : (0 : UInt8).toBitVec.getLsbD (offset % 8) = false := by
    simp
  rw [clear] at bit
  rw [Reachable, AddressTable.get_eq_bit, AddressTable.get_eq_bit]
  simpa using bit

/-- Checks that are made one behind the other. -/
private theorem foldl_checks
    {check : NaClValidatorState → Nat → NaClValidatorState}
    (quiet : ∀ state index, Quiet state (check state index))
    (state : NaClValidatorState) (count : Nat) :
    Quiet state ((List.range count).foldl check state) ∧
      (((List.range count).foldl check state).validatesOk = true →
        ∀ index < count, (check state index).validatesOk = true) := by
  refine foldl_range_invariant
    (fun count current => Quiet state current ∧
      (current.validatesOk = true →
        ∀ index < count, (check state index).validatesOk = true)) ?_
    ⟨fun _ => rfl, fun _ _ below => absurd below (Nat.not_lt_zero _)⟩
  intro count current _ holds
  obtain ⟨stayed, before⟩ := holds
  have step := quiet current count
  refine ⟨stayed.trans step, ?_⟩
  intro accepted index below
  have running : current.validatesOk = true := by
    rw [← step accepted]
    exact accepted
  rcases Nat.lt_succ_iff_lt_or_eq.mp below with earlier | same
  · exact before running index earlier
  · rw [stayed running] at accepted
    rw [same]
    exact accepted

private theorem checkTargetByte_quiet
    (config : NaClValidatorConfig) (state : NaClValidatorState) (byte : Nat) :
    Quiet state (checkTargetByte config state byte) := by
  rw [checkTargetByte]
  split_ifs
  · exact (foldl_checks (checkTarget_quiet config byte) state 8).1
  · exact fun _ => rfl

private theorem checkTargetByte_reachable
    {byte : Nat}
    (accepted : (checkTargetByte config state byte).validatesOk = true) :
    ∀ offset < config.size, offset / 8 = byte →
      (state.jumpSets .actualTargets).get offset = true →
      Reachable state offset := by
  intro offset below at_ target
  subst at_
  rw [checkTargetByte] at accepted
  split_ifs at accepted with problem
  · have walked := foldl_checks (checkTarget_quiet config (offset / 8)) state 8
    exact checkTarget_reachable below
      (walked.2 accepted (offset % 8) (Nat.mod_lt _ (by omega))) target
  · exact reachable_of_not_isProblem (Bool.eq_false_of_not_eq_true problem)
      target

private theorem checkTargets_spec
    (config : NaClValidatorConfig) (state : NaClValidatorState) :
    Quiet state (checkTargets config state) ∧
      ((checkTargets config state).validatesOk = true →
        ∀ offset < config.size,
          (state.jumpSets .actualTargets).get offset = true →
          Reachable state offset) := by
  have walked := foldl_checks (checkTargetByte_quiet config) state
    (setArraySize config)
  refine ⟨walked.1, ?_⟩
  intro accepted offset below target
  apply checkTargetByte_reachable _ offset below rfl target
  apply walked.2 accepted
  rw [setArraySize, NaClValidatorConfig.vlimit, Nat.shiftRight_eq_div_pow]
  omega

private theorem bundles_reachable
    {fuel address : Nat} {final : NaClValidatorState}
    (ran : runLoop (bundleTurn config) fuel (address, state) = some final)
    (accepted : final.validatesOk = true) :
    final = state ∧ ∀ offset < config.size, address ≤ config.vbase + offset →
      (config.vbase + offset - address) % config.alignment = 0 →
      Reachable state offset := by
  have bounded := config.bounded
  induction fuel generalizing address state with
  | zero => cases ran
  | succ fuel ih =>
      rw [runLoop, bundleTurn] at ran
      by_cases more : address < config.vlimit
      · rw [if_pos more] at ran
        obtain ⟨same, reached⟩ := ih ran
        have stayed : checkReachable config address state = state := by
          apply checkReachable_quiet config address state
          rw [← same]
          exact accepted
        dsimp only at same reached
        rw [stayed] at same reached
        refine ⟨same, ?_⟩
        intro offset below above multiple
        by_cases here : config.vbase + offset = address
        · have ok : (checkReachable config (config.vbase + offset)
              state).validatesOk = true := by
            rw [here, stayed, ← same]
            exact accepted
          exact checkReachable_reachable below ok
        · -- The next address does not wrap around before the last bundle.
          have further : config.alignment ≤
              config.vbase + offset - address := by
            apply Nat.le_of_dvd (by omega)
            exact Nat.dvd_of_mod_eq_zero multiple
          rw [Nat.mod_eq_of_lt (by omega : address + config.alignment <
            2 ^ 64)] at reached
          apply reached offset below (by omega)
          rw [Nat.sub_add_eq, ← Nat.mod_eq_sub_mod further]
          exact multiple
      · rw [if_neg more] at ran
        cases ran
        refine ⟨rfl, ?_⟩
        intro offset below above
        rw [NaClValidatorConfig.vlimit] at more
        omega

theorem naClJumpValidatorSummarize_reachable
    {fuel : Nat} {final : NaClValidatorState}
    (running : state.quit = false)
    (ran : naClJumpValidatorSummarize config fuel state = some final)
    (accepted : final.validatesOk = true) :
    state.validatesOk = true ∧ config.vbase % config.alignment = 0 ∧
      ∀ offset < config.size,
        (state.jumpSets .actualTargets).get offset = true ∨
          (config.vbase + offset) % config.alignment = 0 →
        Reachable state offset := by
  obtain ⟨quiet, targets⟩ := checkTargets_spec config state
  rw [naClJumpValidatorSummarize, running,
    if_neg Bool.false_ne_true, checkBundles] at ran
  by_cases misaligned : config.vbase &&& config.alignmentMask ≠ 0
  · rw [if_pos misaligned] at ran
    cases ran
    exact absurd accepted (naClValidatorMessage_notOk config _)
  · rw [if_neg misaligned] at ran
    rw [and_alignmentMask, not_not] at misaligned
    obtain ⟨same, bundles⟩ := bundles_reachable ran accepted
    rw [same] at accepted
    have stayed := quiet accepted
    refine ⟨by rw [← stayed]; exact accepted, misaligned, ?_⟩
    intro offset below which
    rcases which with target | start
    · exact targets accepted offset below target
    · rw [stayed] at bundles
      apply bundles offset below (Nat.le_add_right _ _)
      rw [Nat.add_sub_cancel_left]
      rw [Nat.add_mod, misaligned, Nat.zero_add, Nat.mod_mod] at start
      exact start

end Summary

end NativeClient.Validator64
