import NativeClient.Validator64.SegmentValidator
import NativeClient.Decoder64.Sequence

/-!
# How a validation moves on

While one instruction is validated, an error is never forgotten, the address
sets only grow, and the text changes nowhere after the instruction.  `Later`
says so; every validator is shown to respect it.
-/

namespace NativeClient.Validator64

open NativeClient.Library
open NativeClient.Decoder64
open NativeClient.Validator32 (kNaClFullStop)

/-- `after` comes later than `before` in the validation of `inst`. -/
structure Later (inst : NaClInstState) (before after : NaClValidatorState) :
    Prop where
  ok : after.validatesOk = true → before.validatesOk = true
  quit : after.validatesOk = true → before.quit = false → after.quit = false
  sets : ∀ set offset, (before.jumpSets set).get offset = true →
    (after.jumpSets set).get offset = true
  possible : ∀ offset,
    (after.jumpSets .possibleTargets).get offset = true →
      (before.jumpSets .possibleTargets).get offset = true ∨
        offset = inst.mpc
  /-- The text of the instruction stays, or is squashed. -/
  squashed : before.text.AgreeOn after.text inst.mpc
      (inst.mpc + inst.length) ∨
    ∀ offset, inst.mpc ≤ offset → offset < inst.mpc + inst.length →
      after.text offset = kNaClFullStop
  rest : ∀ offset, inst.mpc + inst.length ≤ offset →
    after.text offset = before.text offset

theorem Later.refl (inst : NaClInstState) (state : NaClValidatorState) :
    Later inst state state where
  ok := id
  quit := fun _ running => running
  sets := fun _ _ member => member
  possible := fun _ member => .inl member
  squashed := .inl (Buffer.AgreeOn.refl _ _ _)
  rest := fun _ _ => rfl

theorem Later.trans
    {inst : NaClInstState} {first second third : NaClValidatorState}
    (start : Later inst first second) (next : Later inst second third) :
    Later inst first third where
  ok := fun accepted => start.ok (next.ok accepted)
  quit := fun accepted running =>
    next.quit accepted (start.quit (next.ok accepted) running)
  sets := fun set offset member =>
    next.sets set offset (start.sets set offset member)
  possible := by
    intro offset member
    rcases next.possible offset member with earlier | current
    · exact start.possible offset earlier
    · exact .inr current
  squashed := by
    rcases next.squashed with kept | squashed
    · rcases start.squashed with unchanged | squashed
      · exact .inl (unchanged.trans kept)
      · refine .inr ?_
        intro offset above below
        rw [← kept offset above below]
        exact squashed offset above below
    · exact .inr squashed
  rest := fun offset past =>
    (next.rest offset past).trans (start.rest offset past)

structure Frame (inst : NaClInstState) (before after : NaClValidatorState) :
    Prop extends Later inst before after where
  locals : after.locals = before.locals

theorem Frame.refl (inst : NaClInstState) (state : NaClValidatorState) :
    Frame inst state state :=
  ⟨Later.refl inst state, rfl⟩

theorem Frame.trans
    {inst : NaClInstState} {first second third : NaClValidatorState}
    (start : Frame inst first second) (next : Frame inst second third) :
    Frame inst first third :=
  ⟨start.toLater.trans next.toLater, next.locals.trans start.locals⟩

/-! ## Messages -/

section Messages

variable (config : NaClValidatorConfig)

private theorem naClRecordErrorReported_fields (state : NaClValidatorState) :
    (naClRecordErrorReported config state).validatesOk = state.validatesOk ∧
      (naClRecordErrorReported config state).jumpSets = state.jumpSets ∧
      (naClRecordErrorReported config state).locals = state.locals ∧
      (naClRecordErrorReported config state).text = state.text := by
  rw [naClRecordErrorReported]
  split
  · exact ⟨rfl, rfl, rfl, rfl⟩
  · exact ⟨rfl, rfl, rfl, rfl⟩

theorem naClValidatorMessage_fields (state : NaClValidatorState) :
    (naClValidatorMessage config state).validatesOk = false ∧
      (naClValidatorMessage config state).jumpSets = state.jumpSets ∧
      (naClValidatorMessage config state).locals = state.locals ∧
      (naClValidatorMessage config state).text = state.text := by
  rw [naClValidatorMessage]
  split
  · exact naClRecordErrorReported_fields config _
  · exact ⟨rfl, rfl, rfl, rfl⟩

theorem naClValidatorMessage_notOk (state : NaClValidatorState) :
    (naClValidatorMessage config state).validatesOk ≠ true := by
  rw [(naClValidatorMessage_fields config state).1]
  exact Bool.false_ne_true

theorem naClValidatorInstMessage_notOk
    (inst : NaClInstState) (state : NaClValidatorState) :
    (naClValidatorInstMessage config inst state).validatesOk ≠ true := by
  rw [naClValidatorInstMessage]
  split
  · exact naClValidatorMessage_notOk config state
  · exact naClValidatorMessage_notOk config state

theorem naClValidatorInstMessage_jumpSets
    (inst : NaClInstState) (state : NaClValidatorState) :
    (naClValidatorInstMessage config inst state).jumpSets =
      state.jumpSets := by
  rw [naClValidatorInstMessage]
  split
  · exact (naClValidatorMessage_fields config state).2.1
  · exact (naClValidatorMessage_fields config state).2.1

theorem naClValidatorInstMessage_locals
    (inst : NaClInstState) (state : NaClValidatorState) :
    (naClValidatorInstMessage config inst state).locals = state.locals := by
  rw [naClValidatorInstMessage]
  split
  · exact (naClValidatorMessage_fields config state).2.2.1
  · exact (naClValidatorMessage_fields config state).2.2.1

theorem naClValidatorInstMessage_text
    (inst : NaClInstState) (state : NaClValidatorState) :
    (naClValidatorInstMessage config inst state).text = state.text ∨
      (naClValidatorInstMessage config inst state).text =
        state.text.fill inst.mpc inst.length kNaClFullStop := by
  have same := (naClValidatorMessage_fields config state).2.2.2
  rw [naClValidatorInstMessage]
  split
  · refine .inr ?_
    dsimp only
    rw [same]
  · exact .inl same

theorem naClValidatorInstMessage_frame
    {inst current : NaClInstState} (state : NaClValidatorState)
    (place : inst = current ∨ inst.mpc + inst.length ≤ current.mpc) :
    Frame current state (naClValidatorInstMessage config inst state) := by
  have failed := naClValidatorInstMessage_notOk config inst state
  have sets := naClValidatorInstMessage_jumpSets config inst state
  have text := naClValidatorInstMessage_text config inst state
  refine ⟨⟨?_, ?_, ?_, ?_, ?_, ?_⟩,
    naClValidatorInstMessage_locals config inst state⟩
  · intro accepted
    exact absurd accepted failed
  · intro accepted
    exact absurd accepted failed
  · intro set offset member
    rw [sets]
    exact member
  · intro offset member
    rw [sets] at member
    exact .inl member
  · rcases text with kept | stubbed
    · rw [kept]
      exact .inl (Buffer.AgreeOn.refl _ _ _)
    · rw [stubbed]
      rcases place with same | earlier
      · subst same
        refine .inr ?_
        intro offset above below
        exact Buffer.fill_inside above below
      · refine .inl ?_
        intro offset above below
        exact (Buffer.fill_outside (.inr (by omega))).symm
  · intro offset past
    rcases text with kept | stubbed
    · rw [kept]
    · rw [stubbed]
      apply Buffer.fill_outside
      rcases place with same | earlier
      · subst same
        exact .inr past
      · exact .inr (by omega)

theorem instMessage_frame
    (inst : NaClInstState) (state : NaClValidatorState) :
    Frame inst state (naClValidatorInstMessage config inst state) :=
  naClValidatorInstMessage_frame config state (.inl rfl)

end Messages

/-! ## Address sets -/

structure InSegment (config : NaClValidatorConfig) (inst : NaClInstState) :
    Prop where
  vpc : inst.vpc = config.vbase + inst.mpc
  inside : inst.mpc < config.size

def Marked (state : NaClValidatorState) (inst : NaClInstState) : Prop :=
  (state.jumpSets .removedTargets).get inst.mpc = true

theorem Marked.later
    {current inst : NaClInstState} {before after : NaClValidatorState}
    (marked : Marked before inst) (later : Later current before after) :
    Marked after inst :=
  later.sets _ _ marked

section AddressSets

variable {config : NaClValidatorConfig} {address : Nat} {inst : NaClInstState}

theorem naClCheckAddressRange_inside
    (lower : config.vbase ≤ address)
    (upper : address < config.vlimit) (state : NaClValidatorState) :
    naClCheckAddressRange config address state = (true, state) := by
  rw [naClCheckAddressRange, if_neg (Nat.not_lt.mpr lower),
    if_neg (Nat.not_le.mpr upper)]

theorem naClAddressSetContains_inside
    (lower : config.vbase ≤ address)
    (upper : address < config.vlimit) (set : TargetSet)
    (state : NaClValidatorState) :
    naClAddressSetContains config set address state =
      ((state.jumpSets set).get (address - config.vbase), state) := by
  rw [naClAddressSetContains, naClCheckAddressRange_inside lower upper]

theorem naClAddressSetAdd_inside
    (lower : config.vbase ≤ address)
    (upper : address < config.vlimit) (set : TargetSet)
    (state : NaClValidatorState) :
    naClAddressSetAdd config set address state =
      { state with
        jumpSets := Function.update state.jumpSets set
          ((state.jumpSets set).set (address - config.vbase)) } := by
  rw [naClAddressSetAdd, naClCheckAddressRange_inside lower upper]

theorem naClAddressSetAdd_get
    (lower : config.vbase ≤ address)
    (upper : address < config.vlimit) (set other : TargetSet)
    (offset : Nat) (state : NaClValidatorState) :
    ((naClAddressSetAdd config set address state).jumpSets other).get offset =
      ((decide (other = set) && decide (address - config.vbase = offset)) ||
        (state.jumpSets other).get offset) := by
  rw [naClAddressSetAdd_inside lower upper]
  dsimp only
  by_cases same : other = set
  · subst same
    rw [Function.update_self, AddressTable.get_set]
    simp
  · rw [Function.update_of_ne same]
    simp [same]

theorem naClAddressSetAdd_frame
    (lower : config.vbase ≤ address)
    (upper : address < config.vlimit) {set : TargetSet}
    (inst : NaClInstState) (state : NaClValidatorState)
    (allowed : set = .possibleTargets → address = config.vbase + inst.mpc) :
    Frame inst state (naClAddressSetAdd config set address state) := by
  have get := naClAddressSetAdd_get lower upper set
  have same := naClAddressSetAdd_inside lower upper set state
  refine ⟨⟨?_, ?_, ?_, ?_, ?_, ?_⟩, ?_⟩
  · intro accepted
    rw [same] at accepted
    exact accepted
  · intro _ running
    rw [same]
    exact running
  · intro other offset member
    rw [get, member, Bool.or_true]
  · intro offset member
    rw [get] at member
    rcases Bool.or_eq_true_iff.mp member with added | earlier
    · obtain ⟨which, where_⟩ := Bool.and_eq_true_iff.mp added
      have place := allowed (of_decide_eq_true which).symm
      have at_ := of_decide_eq_true where_
      exact .inr (by omega)
    · exact .inl earlier
  · rw [same]
    exact .inl (Buffer.AgreeOn.refl _ _ _)
  · intro offset _
    rw [same]
  · rw [same]

private theorem mark_eq
    (inside : InSegment config inst)
    (state : NaClValidatorState) :
    naClMarkInstructionJumpIllegal config inst state =
      naClAddressSetAdd config .removedTargets inst.vpc state := by
  have place := inside.vpc
  have bound := inside.inside
  rw [naClMarkInstructionJumpIllegal, if_neg]
  rw [NaClValidatorConfig.vlimit]
  omega

private theorem vpc_range
    (inside : InSegment config inst) :
    config.vbase ≤ inst.vpc ∧ inst.vpc < config.vlimit := by
  have place := inside.vpc
  have bound := inside.inside
  rw [NaClValidatorConfig.vlimit]
  omega

theorem mark_marked
    (inside : InSegment config inst)
    (state : NaClValidatorState) :
    Marked (naClMarkInstructionJumpIllegal config inst state) inst := by
  obtain ⟨lower, upper⟩ := vpc_range inside
  have place := inside.vpc
  rw [Marked, mark_eq inside, naClAddressSetAdd_get lower upper]
  have same : inst.vpc - config.vbase = inst.mpc := by omega
  simp [same]

theorem mark_frame
    (inside : InSegment config inst)
    (current : NaClInstState) (state : NaClValidatorState) :
    Frame current state (naClMarkInstructionJumpIllegal config inst state) := by
  obtain ⟨lower, upper⟩ := vpc_range inside
  rw [mark_eq inside]
  apply naClAddressSetAdd_frame lower upper
  intro wrong
  cases wrong

theorem remember_frame
    (inside : InSegment config inst)
    (state : NaClValidatorState) :
    Frame inst state (naClRememberIp config inst state) ∧
      ((naClRememberIp config inst state).jumpSets .possibleTargets).get
        inst.mpc = true := by
  obtain ⟨lower, upper⟩ := vpc_range inside
  have place := inside.vpc
  have same : inst.vpc - config.vbase = inst.mpc := by omega
  rw [naClRememberIp, if_neg (by omega)]
  constructor
  · exact naClAddressSetAdd_frame lower upper inst state fun _ => place
  · rw [naClAddressSetAdd_get lower upper]
    simp [same]

end AddressSets

end NativeClient.Validator64
