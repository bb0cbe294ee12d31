import NativeClient.Validator64.Progress

/-!
# What the memory reference validator guarantees

The memory operands of an instruction that passes it have a sandboxed base
register, and an index register that the instruction before zero extends.
-/

namespace NativeClient.Validator64

open NativeClient.Library
open NativeClient.Decoder64

def LooksInside (config : NaClValidatorConfig) (look : Lookback) : Prop :=
  ∀ distance previous, look distance = some previous →
    InSegment config previous

structure ValidMemOffset (config : NaClValidatorConfig) (look : Lookback)
    (distance : Nat) (inst : NaClInstState) (index : Nat)
    (state : NaClValidatorState) : Prop where
  kind : ((vectorOf inst).node index).kind = .exprMemOffset
  size : ((vectorOf inst).node index).has .exprSize64 = true
  base : isSandboxedBase config (naClGetExpVectorRegister (vectorOf inst)
    (memOffsetPart (vectorOf inst) index 0)) = true
  index : naClGetExpVectorRegister (vectorOf inst)
      (memOffsetPart (vectorOf inst) index 1) = .regUnknown ∨
    (indexRegIsGood look distance (vectorOf inst) index = true ∧
      Marked state inst)

/-- A segment address after a `lea` that stays in the sandbox. -/
structure ValidSegmentAddress (config : NaClValidatorConfig)
    (look : Lookback) (inst : NaClInstState) (index : Nat)
    (state : NaClValidatorState) : Prop where
  size : ((vectorOf inst).node index).has .exprSize64 = true
  segment : isNullSegment (naClGetExpVectorRegister (vectorOf inst)
    (naClGetExpKidIndex (vectorOf inst) index 0)) = true
  lea : ∃ previous, look 1 = some previous ∧
    isLeaInto previous inst index = true ∧
    ValidMemOffset config look 1 previous (leaOperand previous) state
  marked : Marked state inst

structure ValidNode (config : NaClValidatorConfig) (look : Lookback)
    (inst : NaClInstState) (index : Nat) (state : NaClValidatorState) :
    Prop where
  memOffset : ((vectorOf inst).node index).kind = .exprMemOffset →
    ValidMemOffset config look 0 inst index state
  segmentAddress : ((vectorOf inst).node index).kind = .exprSegmentAddress →
    ValidSegmentAddress config look inst index state
  unknown : isUnknownNode ((vectorOf inst).node index) = true →
    isOptionalIndex (vectorOf inst) index = true

def ValidReferences (config : NaClValidatorConfig) (look : Lookback)
    (inst : NaClInstState) (state : NaClValidatorState) : Prop :=
  ∀ index < (vectorOf inst).numberExprNodes,
    isPossibleSandboxingNode config ((vectorOf inst).node index) = true →
    ValidNode config look inst index state

section Later

variable {config : NaClValidatorConfig} {look : Lookback}
  {inst current : NaClInstState} {before after : NaClValidatorState}

theorem ValidMemOffset.later
    {distance index : Nat}
    (valid : ValidMemOffset config look distance inst index before)
    (later : Later current before after) :
    ValidMemOffset config look distance inst index after where
  kind := valid.kind
  size := valid.size
  base := valid.base
  index := valid.index.imp_right fun good => ⟨good.1, good.2.later later⟩

theorem ValidSegmentAddress.later
    {index : Nat}
    (valid : ValidSegmentAddress config look inst index before)
    (later : Later current before after) :
    ValidSegmentAddress config look inst index after where
  size := valid.size
  segment := valid.segment
  lea := by
    obtain ⟨previous, found, into, offset⟩ := valid.lea
    exact ⟨previous, found, into, offset.later later⟩
  marked := valid.marked.later later

theorem ValidNode.later
    {index : Nat} (valid : ValidNode config look inst index before)
    (later : Later current before after) :
    ValidNode config look inst index after where
  memOffset := fun kind => (valid.memOffset kind).later later
  segmentAddress := fun kind => (valid.segmentAddress kind).later later
  unknown := valid.unknown

theorem ValidReferences.later
    (valid : ValidReferences config look inst before)
    (later : Later current before after) :
    ValidReferences config look inst after :=
  fun index below possible => (valid index below possible).later later

end Later

section MemOffset

variable {config : NaClValidatorConfig} {look : Lookback} {distance : Nat}
  {inst : NaClInstState} {index : Nat} {printMessages : Bool}
  {current : NaClInstState} {state : NaClValidatorState}

private theorem complain_frame
    (report : printMessages = true → inst = current)
    (state : NaClValidatorState) :
    Frame current state (complain config inst printMessages state) := by
  cases printMessages with
  | false => exact Frame.refl _ _
  | true =>
      rw [report rfl]
      exact instMessage_frame config current state

private theorem checkDisplacement_frame
    (report : printMessages = true → inst = current)
    (state : NaClValidatorState) :
    Frame current state
      (checkDisplacement config inst index printMessages state).2 := by
  rw [checkDisplacement]
  split
  · exact Frame.refl _ _
  · exact complain_frame report state

theorem naClIsValidMemOffset_frame
    (look : Lookback) (distance index : Nat)
    (inside : InSegment config inst)
    (report : printMessages = true → inst = current)
    (state : NaClValidatorState) :
    Frame current state (naClIsValidMemOffset config look distance inst index
      printMessages state).2 := by
  simp only [naClIsValidMemOffset]
  split_ifs
  · exact Frame.refl _ _
  · exact complain_frame report state
  · exact complain_frame report state
  · exact checkDisplacement_frame report state
  · exact (mark_frame inside current state).trans
      (checkDisplacement_frame report _)
  · exact complain_frame report state

private theorem checkDisplacement_accepts
    (accepted : (checkDisplacement config inst index printMessages state).1 =
      true) :
    (checkDisplacement config inst index printMessages state).2 = state := by
  rw [checkDisplacement] at accepted ⊢
  split_ifs at accepted ⊢ with good
  rfl

private theorem checkDisplacement_rejects
    (rejected : (checkDisplacement config inst index true state).1 =
      false) :
    (checkDisplacement config inst index true state).2.validatesOk ≠ true := by
  rw [checkDisplacement] at rejected ⊢
  split_ifs at rejected ⊢ with good
  exact naClValidatorInstMessage_notOk config inst state

theorem naClIsValidMemOffset_valid
    (inside : InSegment config inst)
    (accepted : (naClIsValidMemOffset config look distance inst index
      printMessages state).1 = true) :
    ValidMemOffset config look distance inst index
      (naClIsValidMemOffset config look distance inst index printMessages
        state).2 := by
  simp only [naClIsValidMemOffset] at accepted ⊢
  split_ifs at accepted ⊢ with kind size base none_ good
  · exact ⟨not_not.mp kind, Bool.eq_true_of_not_eq_false size,
      Bool.eq_true_of_not_eq_false base, .inl none_⟩
  · rw [checkDisplacement_accepts accepted]
    exact ⟨not_not.mp kind, Bool.eq_true_of_not_eq_false size,
      Bool.eq_true_of_not_eq_false base, .inr ⟨good, mark_marked inside state⟩⟩

theorem naClIsValidMemOffset_rejects
    (kind : ((vectorOf inst).node index).kind = .exprMemOffset)
    (rejected : (naClIsValidMemOffset config look distance inst index true
      state).1 = false) :
    (naClIsValidMemOffset config look distance inst index true
      state).2.validatesOk ≠ true := by
  simp only [naClIsValidMemOffset] at rejected ⊢
  rw [if_neg (not_not.mpr kind)] at rejected ⊢
  split_ifs at rejected ⊢
  · exact naClValidatorInstMessage_notOk config inst state
  · exact naClValidatorInstMessage_notOk config inst state
  · exact checkDisplacement_rejects rejected
  · exact checkDisplacement_rejects rejected
  · exact naClValidatorInstMessage_notOk config inst state

theorem naClIsValidMemOffset_other
    (kind : ((vectorOf inst).node index).kind ≠ .exprMemOffset) :
    naClIsValidMemOffset config look distance inst index printMessages
      state = (false, state) := by
  rw [naClIsValidMemOffset, if_pos kind]

end MemOffset

section Validator

variable {config : NaClValidatorConfig} {look : Lookback}
  {inst : NaClInstState} (inside : InSegment config inst)
  (seen : LooksInside config look) {index : Nat} {state : NaClValidatorState}

include inside seen

theorem checkSegmentAddress_frame
    (index : Nat) (state : NaClValidatorState) :
    Frame inst state (checkSegmentAddress config look inst index state) := by
  have report := instMessage_frame config inst
  rw [checkSegmentAddress]
  split_ifs
  · exact report state
  · exact report state
  · split
    · exact report state
    · rename_i previous found
      split_ifs
      · have silent : false = true → previous = inst := by
          intro wrong
          cases wrong
        have checks := naClIsValidMemOffset_frame look 1
          (leaOperand previous) (seen 1 previous found) silent state
        split
        · rename_i checked result
          rw [result] at checks
          exact checks.trans (mark_frame inside inst _)
        · rename_i checked result
          rw [result] at checks
          exact checks.trans (report _)
      · exact report state

theorem checkSegmentAddress_valid
    (accepted : (checkSegmentAddress config look inst index
      state).validatesOk = true) :
    ValidSegmentAddress config look inst index
      (checkSegmentAddress config look inst index state) := by
  have failed := naClValidatorInstMessage_notOk config inst
  rw [checkSegmentAddress] at accepted ⊢
  split_ifs at accepted ⊢ with size segment
  · exact absurd accepted (failed state)
  · exact absurd accepted (failed state)
  · split at accepted
    · exact absurd accepted (failed state)
    · rename_i previous found
      split_ifs at accepted with into
      · split at accepted
        · rename_i checked result
          have valid : ValidMemOffset config look 1 previous
              (leaOperand previous) checked := by
            have holds := congrArg Prod.fst result
            have checks := naClIsValidMemOffset_valid
              (seen 1 previous found) holds
            rw [result] at checks
            exact checks
          have marks := mark_frame inside inst checked
          rw [if_pos into]
          exact ⟨Bool.eq_true_of_not_eq_false size,
            Bool.eq_true_of_not_eq_false segment,
            ⟨previous, found, into, valid.later marks.toLater⟩,
            mark_marked inside checked⟩
        · exact absurd accepted (failed _)
      · exact absurd accepted (failed state)

private theorem checkOtherNode_frame
    (index : Nat) (state : NaClValidatorState) :
    Frame inst state (checkOtherNode config look inst index state) := by
  rw [checkOtherNode]
  split_ifs
  · exact checkSegmentAddress_frame inside seen index state
  · exact instMessage_frame config inst state
  · exact Frame.refl _ _

private theorem checkOtherNode_valid
    (kind : ((vectorOf inst).node index).kind ≠ .exprMemOffset)
    (accepted : (checkOtherNode config look inst index state).validatesOk =
      true) :
    ValidNode config look inst index
      (checkOtherNode config look inst index state) := by
  rw [checkOtherNode] at accepted ⊢
  split_ifs at accepted ⊢ with segment unknown
  · have valid := checkSegmentAddress_valid inside seen accepted
    refine ⟨fun other => absurd other kind, fun _ => valid, ?_⟩
    intro undefined
    simp [isUnknownNode, segment] at undefined
  · exact absurd accepted (naClValidatorInstMessage_notOk config inst state)
  · refine ⟨fun other => absurd other kind,
      fun other => absurd other segment, ?_⟩
    intro undefined
    rw [undefined, Bool.true_and, Bool.not_eq_true'] at unknown
    exact Bool.eq_true_of_not_eq_false unknown

private theorem checkMemoryNode_frame
    (state : NaClValidatorState) (index : Nat) :
    Frame inst state (checkMemoryNode config look inst state index) := by
  have checks := naClIsValidMemOffset_frame look 0 index inside
    (fun _ => rfl : true = true → inst = inst) state
  rw [checkMemoryNode]
  split_ifs
  · exact Frame.refl _ _
  · generalize naClIsValidMemOffset config look 0 inst index true state =
      result at checks ⊢
    obtain ⟨good, checked⟩ := result
    cases good with
    | true => exact checks
    | false =>
        exact checks.trans (checkOtherNode_frame inside seen index checked)
  · exact Frame.refl _ _

private theorem checkMemoryNode_valid
    (running : state.quit = false)
    (accepted : (checkMemoryNode config look inst state index).validatesOk =
      true)
    (possible : isPossibleSandboxingNode config
      ((vectorOf inst).node index) = true) :
    ValidNode config look inst index
      (checkMemoryNode config look inst state index) := by
  rw [checkMemoryNode, if_neg (by rw [running]; exact Bool.false_ne_true),
    if_pos possible] at accepted ⊢
  by_cases kind : ((vectorOf inst).node index).kind = .exprMemOffset
  · cases result : naClIsValidMemOffset config look 0 inst index true
        state with
    | mk good checked =>
        cases good with
        | true =>
            have valid := naClIsValidMemOffset_valid inside
              (congrArg Prod.fst result)
            rw [result] at valid
            refine ⟨fun _ => valid, ?_, ?_⟩
            · intro other
              rw [kind] at other
              cases other
            · intro unknown
              simp [isUnknownNode, kind] at unknown
        | false =>
            have rejected := naClIsValidMemOffset_rejects kind
              (congrArg Prod.fst result)
            have later := checkOtherNode_frame inside seen index checked
            rw [result] at accepted rejected
            exact absurd (later.ok accepted) rejected
  · rw [naClIsValidMemOffset_other kind] at accepted ⊢
    exact checkOtherNode_valid inside seen kind accepted

theorem naClMemoryReferenceValidator_spec
    (state : NaClValidatorState) :
    Frame inst state (naClMemoryReferenceValidator config look inst state) ∧
      (state.quit = false →
        (naClMemoryReferenceValidator config look inst state).validatesOk =
          true →
        ValidReferences config look inst
          (naClMemoryReferenceValidator config look inst state)) := by
  refine foldl_range_invariant
    (fun count current => Frame inst state current ∧
      (state.quit = false → current.validatesOk = true →
        ∀ index < count,
          isPossibleSandboxingNode config ((vectorOf inst).node index) =
            true →
          ValidNode config look inst index current)) ?_
    ⟨Frame.refl _ _, fun _ _ index below => absurd below (Nat.not_lt_zero _)⟩
  intro count current _ holds
  obtain ⟨frame, valid⟩ := holds
  have step := checkMemoryNode_frame inside seen current count
  refine ⟨frame.trans step, ?_⟩
  intro running accepted index below possible
  have before := step.ok accepted
  rcases Nat.lt_succ_iff_lt_or_eq.mp below with earlier | same
  · exact (valid running before index earlier possible).later step.toLater
  · subst same
    exact checkMemoryNode_valid inside seen (frame.quit before running)
      accepted possible

end Validator

end NativeClient.Validator64
