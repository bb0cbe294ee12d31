import NativeClient.Validator64.MemoryReferences

/-!
# What the base register validator guarantees

The assignments of an instruction that passes it are permitted, and an
assignment to `%esp` or `%ebp` is completed by the next instruction: until then
it is pending in one of two slots, for the current and for the previous
instruction.
-/

namespace NativeClient.Validator64

open NativeClient.Library
open NativeClient.Decoder64
open NativeClient.Validator32 (kNaClFullStop)

/-! ## Permitted assignments -/

structure Assigns (inst : NaClInstState) (index : Nat) (reg : NaClOpKind) :
    Prop where
  node : index < (vectorOf inst).numberExprNodes
  assigned : isAssignment ((vectorOf inst).node index) = true
  register : naClGetExpVectorRegister (vectorOf inst) index = reg

/-- The instruction completes an assignment to `%esp` before it. -/
def RestoresRsp (config : NaClValidatorConfig) (look : Lookback)
    (inst : NaClInstState) : Prop :=
  ((inst.inst.name = .instOr ∨ inst.inst.name = .instAdd) ∧
      isRspRestore config look inst = true) ∨
    (inst.inst.name = .instLea ∧
      isRegMoveLea32To64 config look inst .regRSP = true)

/-- The instruction completes an assignment to `%ebp` before it. -/
def RestoresRbp (config : NaClValidatorConfig) (look : Lookback)
    (inst : NaClInstState) : Prop :=
  (inst.inst.name = .instAdd ∧ isRbpRestore config look inst = true) ∨
    (inst.inst.name = .instLea ∧
      isRegMoveLea32To64 config look inst .regRBP = true)

/-- The forms that keep `%rsp` in the sandbox on their own. -/
def KeepsRsp (text : Buffer) (inst : NaClInstState) (index : Nat) : Prop :=
  ((inst.inst.name = .instPush ∨ inst.inst.name = .instPop) ∧ index = 1) ∨
    (inst.inst.name = .instCall ∧ index = 3) ∨
    (inst.inst.name = .instAnd ∧ isAndRspNegative text inst = true) ∨
    naClIsMovUsingRegisters inst.inst (vectorOf inst) .regRSP .regRBP = true

def isStackRegister : NaClOpKind → Bool
  | .regRSP | .regRBP | .regESP | .regEBP => true
  | _ => false

structure ValidAssignment (config : NaClValidatorConfig) (look : Lookback)
    (text : Buffer) (inst : NaClInstState) (index : Nat) (reg : NaClOpKind)
    (state : NaClValidatorState) : Prop where
  base : reg ≠ config.baseRegister
  segment : isSegmentRegister reg = false
  rsp : reg = .regRSP → KeepsRsp text inst index ∨
    (RestoresRsp config look inst ∧ Marked state inst)
  rbp : reg = .regRBP →
    naClIsMovUsingRegisters inst.inst (vectorOf inst) .regRBP .regRSP = true ∨
      (RestoresRbp config look inst ∧ Marked state inst)
  subreg : isStackRegister reg = false →
    ∀ reg64, reg64 = config.baseRegister ∨ reg64 = .regRSP ∨
        reg64 = .regRBP →
      naClIs64Subreg config.pastRegTable64 inst reg reg64 = false

def ValidAssignments (config : NaClValidatorConfig) (look : Lookback)
    (text : Buffer) (inst : NaClInstState) (state : NaClValidatorState) :
    Prop :=
  ∀ index reg, Assigns inst index reg →
    ValidAssignment config look text inst index reg state

theorem ValidAssignment.later
    {config : NaClValidatorConfig} {look : Lookback} {text : Buffer}
    {inst current : NaClInstState} {index : Nat} {reg : NaClOpKind}
    {before after : NaClValidatorState}
    (valid : ValidAssignment config look text inst index reg before)
    (later : Later current before after) :
    ValidAssignment config look text inst index reg after where
  base := valid.base
  segment := valid.segment
  rsp := fun same => (valid.rsp same).imp_right
    fun restored => ⟨restored.1, restored.2.later later⟩
  rbp := fun same => (valid.rbp same).imp_right
    fun restored => ⟨restored.1, restored.2.later later⟩
  subreg := valid.subreg

theorem ValidAssignments.later
    {config : NaClValidatorConfig} {look : Lookback} {text : Buffer}
    {inst current : NaClInstState} {before after : NaClValidatorState}
    (valid : ValidAssignments config look text inst before)
    (later : Later current before after) :
    ValidAssignments config look text inst after :=
  fun index reg assigns => (valid index reg assigns).later later

theorem isAndRspNegative_of_later
    {inst : NaClInstState} {before after : NaClValidatorState}
    (later : Later inst before after)
    (found : isAndRspNegative after.text inst = true) :
    isAndRspNegative before.text inst = true := by
  simp only [isAndRspNegative, Bool.and_eq_true, beq_iff_eq, bne_iff_ne] at *
  obtain ⟨⟨⟨⟨length, first⟩, second⟩, third⟩, last⟩ := found
  rcases later.squashed with kept | squashed
  · have same : ∀ place, place < 4 →
        before.text (inst.mpc + place) = after.text (inst.mpc + place) := by
      intro place below
      exact kept _ (Nat.le_add_right _ _) (by omega)
    have start := same 0 (by omega)
    rw [Nat.add_zero] at start
    refine ⟨⟨⟨⟨length, ?_⟩, ?_⟩, ?_⟩, ?_⟩
    · rw [start]
      exact first
    · rw [same 1 (by omega)]
      exact second
    · rw [same 2 (by omega)]
      exact third
    · rw [same 3 (by omega)]
      exact last
  · rw [squashed inst.mpc (Nat.le_refl _) (by omega)] at first
    exact absurd first (by decide)

/-! ## Assignments to `%rsp` and `%rbp` -/

section Outcomes

variable {config : NaClValidatorConfig} (look : Lookback)
  {inst : NaClInstState} (inside : InSegment config inst)

/-- What becomes of an assignment to a stack register: it is kept by itself,
it restores the previous instruction's, or it is an error. -/
inductive Outcome (config : NaClValidatorConfig) (inst : NaClInstState)
    (keeps restores : Prop)
    (clear : NaClValidatorState → NaClValidatorState)
    (state : NaClValidatorState) : NaClValidatorState → Prop where
  | kept : keeps → Outcome config inst keeps restores clear state state
  | restored {marked : NaClValidatorState} :
      restores → Frame inst state marked → Marked marked inst →
      Outcome config inst keeps restores clear state (clear marked)
  | rejected : Outcome config inst keeps restores clear state
      (naClValidatorInstMessage config inst state)

private theorem checkMovRsp_outcome
    (index : Nat) (state : NaClValidatorState) :
    Outcome config inst (KeepsRsp state.text inst index)
      (RestoresRsp config look inst) NaClValidatorState.clearPreviousEsp state
      (checkMovRsp config inst state) := by
  rw [checkMovRsp]
  split_ifs with moves
  · exact .kept (.inr (.inr (.inr moves)))
  · exact .rejected

include inside

theorem naClCheckRspAssignments_outcome
    (index : Nat) (state : NaClValidatorState) :
    Outcome config inst (KeepsRsp state.text inst index)
      (RestoresRsp config look inst) NaClValidatorState.clearPreviousEsp state
      (naClCheckRspAssignments config look inst index state) := by
  have marks := mark_frame inside inst state
  have marked := mark_marked inside state
  rw [naClCheckRspAssignments]
  split
  · rename_i name
    split_ifs with first
    · exact .kept (.inl ⟨.inl name, first⟩)
    · exact .rejected
  · rename_i name
    split_ifs with first
    · exact .kept (.inl ⟨.inr name, first⟩)
    · exact .rejected
  · rename_i name
    split_ifs with third
    · exact .kept (.inr (.inl ⟨name, third⟩))
    · exact .rejected
  · rename_i name
    split_ifs with restores
    · exact .restored (.inl ⟨.inl name, restores⟩) marks marked
    · exact .rejected
  · rename_i name
    split_ifs with restores
    · exact .restored (.inl ⟨.inr name, restores⟩) marks marked
    · exact .rejected
  · rename_i name
    rw [naClAcceptRegMoveLea32To64]
    by_cases restores : isRegMoveLea32To64 config look inst .regRSP = true
    · rw [if_pos restores]
      exact .restored (.inr ⟨name, restores⟩)
        (marks.trans (mark_frame inside inst _)) (mark_marked inside _)
    · rw [if_neg restores]
      exact .rejected
  · rename_i name
    split_ifs with negative
    · exact .kept (.inr (.inr (.inl ⟨name, negative⟩)))
    · exact checkMovRsp_outcome look index state
  · exact checkMovRsp_outcome look index state

theorem naClCheckRbpAssignments_outcome
    (state : NaClValidatorState) :
    Outcome config inst
      (naClIsMovUsingRegisters inst.inst (vectorOf inst) .regRBP .regRSP =
        true)
      (RestoresRbp config look inst) NaClValidatorState.clearPreviousEbp state
      (naClCheckRbpAssignments config look inst state) := by
  have marks := mark_frame inside inst state
  have marked := mark_marked inside state
  rw [naClCheckRbpAssignments]
  split
  · rename_i name
    split_ifs with restores
    · exact .restored (.inl ⟨name, restores⟩) marks marked
    · exact .rejected
  · rename_i name
    rw [naClAcceptRegMoveLea32To64]
    by_cases restores : isRegMoveLea32To64 config look inst .regRBP = true
    · rw [if_pos restores]
      exact .restored (.inr ⟨name, restores⟩) marks marked
    · rw [if_neg restores]
      exact .rejected
  · split_ifs with moves
    · exact .kept moves
    · exact .rejected

end Outcomes

/-! ## The two slots -/

structure Slots (locals : NaClBaseRegisterLocals)
    (previous current : NaClRegisterLocals) : Prop where
  indices : (locals.previousIndex = 0 ∧ locals.currentIndex = 1) ∨
    (locals.previousIndex = 1 ∧ locals.currentIndex = 0)
  previous : locals.previous = previous
  current : locals.current = current

namespace Slots

variable {locals : NaClBaseRegisterLocals}
  {previous current : NaClRegisterLocals}

theorem distinct (slots : Slots locals previous current) :
    locals.previousIndex ≠ locals.currentIndex := by
  rcases slots.indices with ⟨first, second⟩ | ⟨first, second⟩
  · omega
  · omega

theorem setPrevious
    (slots : Slots locals previous current) (slot : NaClRegisterLocals) :
    Slots (locals.setPrevious slot) slot current where
  indices := slots.indices
  previous := Function.update_self _ _ _
  current := by
    rw [← slots.current]
    exact Function.update_of_ne slots.distinct.symm _ _

theorem setCurrent
    (slots : Slots locals previous current) (slot : NaClRegisterLocals) :
    Slots (locals.setCurrent slot) previous slot where
  indices := slots.indices
  previous := by
    rw [← slots.previous]
    exact Function.update_of_ne slots.distinct _ _
  current := Function.update_self _ _ _

theorem rotate
    (slots : Slots locals previous current) :
    Slots locals.rotate current previous := by
  have two : naclRegisterLocalsBufferSize = 2 := rfl
  have next : (locals.currentIndex + 1) % naclRegisterLocalsBufferSize =
      locals.previousIndex := by
    rw [two]
    rcases slots.indices with ⟨first, second⟩ | ⟨first, second⟩
    · omega
    · omega
  refine ⟨?_, ?_, ?_⟩
  · simp only [NaClBaseRegisterLocals.rotate, next]
    rcases slots.indices with both | both
    · exact .inr both.symm
    · exact .inl both.symm
  · exact slots.current
  · simp only [NaClBaseRegisterLocals.rotate, NaClBaseRegisterLocals.current,
      next]
    exact slots.previous

end Slots

def assignsBefore (inst : NaClInstState) (count : Nat) (reg : NaClOpKind) :
    Bool :=
  (List.range count).any fun index =>
    isAssignment ((vectorOf inst).node index) &&
      naClGetExpVectorRegister (vectorOf inst) index == reg

def pendingBefore (inst : NaClInstState) (count : Nat) : NaClRegisterLocals where
  espSetInst := if assignsBefore inst count .regESP then some inst else none
  ebpSetInst := if assignsBefore inst count .regEBP then some inst else none

def pending (inst : NaClInstState) : NaClRegisterLocals :=
  pendingBefore inst (vectorOf inst).numberExprNodes

theorem assignsBefore_iff (inst : NaClInstState) (reg : NaClOpKind) :
    assignsBefore inst (vectorOf inst).numberExprNodes reg = true ↔
      ∃ index, Assigns inst index reg := by
  simp only [assignsBefore, List.any_eq_true, List.mem_range,
    Bool.and_eq_true, beq_iff_eq]
  constructor
  · intro found
    obtain ⟨index, below, assigned, register⟩ := found
    exact ⟨index, below, assigned, register⟩
  · intro found
    obtain ⟨index, assigns⟩ := found
    exact ⟨index, assigns.node, assigns.assigned, assigns.register⟩

theorem assignsBefore_succ
    (inst : NaClInstState) (count : Nat) (reg : NaClOpKind) :
    assignsBefore inst (count + 1) reg =
      (assignsBefore inst count reg ||
        (isAssignment ((vectorOf inst).node count) &&
          naClGetExpVectorRegister (vectorOf inst) count == reg)) := by
  simp [assignsBefore, List.range_succ]

/-! ## One node -/

section Node

variable {config : NaClValidatorConfig} {look : Lookback}
  {inst : NaClInstState} {reg : NaClOpKind}

theorem baseRegister_plain (config : NaClValidatorConfig) :
    isStackRegister config.baseRegister = false ∧
      isSegmentRegister config.baseRegister = false := by
  obtain ⟨member, notRsp, notRbp⟩ := config.reserved
  revert member notRsp notRbp
  generalize config.baseRegister = reg
  intro member notRsp notRbp
  simp only [naClRegTable64, List.mem_cons, List.not_mem_nil, or_false] at member
  rcases member with same | same | same | same | same | same | same | same |
    same | same | same | same | same | same | same | same
  all_goals
    subst same
    first
      | exact ⟨rfl, rfl⟩
      | exact absurd rfl notRsp
      | exact absurd rfl notRbp

private theorem ne_base
    (stack : isStackRegister reg = true) :
    reg ≠ config.baseRegister := by
  intro same
  have plain := (baseRegister_plain config).1
  rw [← same, stack] at plain
  cases plain

private theorem naClCheckSubreg_frame
    (reg : NaClOpKind) (state : NaClValidatorState) :
    Frame inst state
      (naClCheckSubregChangeOfRspRbpOrBase config inst reg state) := by
  have report := instMessage_frame config inst state
  rw [naClCheckSubregChangeOfRspRbpOrBase]
  split_ifs
  · exact report
  · exact report
  · exact report
  · exact Frame.refl _ _

private theorem naClCheckSubreg_valid
    {state : NaClValidatorState}
    (accepted : (naClCheckSubregChangeOfRspRbpOrBase config inst reg
      state).validatesOk = true) :
    ∀ reg64, reg64 = config.baseRegister ∨ reg64 = .regRSP ∨
        reg64 = .regRBP →
      naClIs64Subreg config.pastRegTable64 inst reg reg64 = false := by
  have failed := naClValidatorInstMessage_notOk config inst state
  rw [naClCheckSubregChangeOfRspRbpOrBase] at accepted
  split_ifs at accepted with base rsp rbp
  · exact absurd accepted failed
  · exact absurd accepted failed
  · exact absurd accepted failed
  · intro reg64 which
    rcases which with same | same | same
    · rw [same]
      exact Bool.eq_false_of_not_eq_true base
    · rw [same]
      exact Bool.eq_false_of_not_eq_true rsp
    · rw [same]
      exact Bool.eq_false_of_not_eq_true rbp

private theorem not_stack
    (plain : isStackRegister reg = false) :
    reg ≠ .regRSP ∧ reg ≠ .regRBP ∧ reg ≠ .regESP ∧ reg ≠ .regEBP := by
  refine ⟨?_, ?_, ?_, ?_⟩
  all_goals
    intro same
    rw [same] at plain
    cases plain

private theorem checkAssignment_plain
    (plain : isStackRegister reg = false)
    (index : Nat) (state : NaClValidatorState) :
    checkAssignment config look inst index reg state =
      if reg = config.baseRegister ∨ isSegmentRegister reg = true then
        naClValidatorInstMessage config inst state
      else
        naClCheckSubregChangeOfRspRbpOrBase config inst reg state := by
  obtain ⟨notRsp, notRbp, notEsp, notEbp⟩ := not_stack plain
  rw [checkAssignment, if_neg notRsp, if_neg notRbp, if_neg notEsp,
    if_neg notEbp]
  by_cases base : reg = config.baseRegister
  · rw [if_pos base, if_pos (.inl base)]
  · rw [if_neg base]
    by_cases segment : isSegmentRegister reg = true
    · rw [if_pos segment, if_pos (.inr segment)]
    · rw [if_neg segment, if_neg (fun either => either.elim base segment)]

private theorem checkAssignment_plain_frame
    (plain : isStackRegister reg = false)
    (index : Nat) (state : NaClValidatorState) :
    Frame inst state (checkAssignment config look inst index reg state) := by
  rw [checkAssignment_plain plain]
  split_ifs
  · exact instMessage_frame config inst state
  · exact naClCheckSubreg_frame reg state

private theorem checkAssignment_plain_valid
    (plain : isStackRegister reg = false)
    {index : Nat} {state : NaClValidatorState}
    (accepted : (checkAssignment config look inst index reg
      state).validatesOk = true) (text : Buffer) :
    ValidAssignment config look text inst index reg
      (checkAssignment config look inst index reg state) := by
  obtain ⟨notRsp, notRbp, -, -⟩ := not_stack plain
  rw [checkAssignment_plain plain] at accepted ⊢
  split_ifs at accepted ⊢ with rejected
  · exact absurd accepted (naClValidatorInstMessage_notOk config inst state)
  · obtain ⟨base, segment⟩ := not_or.mp rejected
    exact ⟨base, Bool.eq_false_of_not_eq_true segment,
      fun same => absurd same notRsp, fun same => absurd same notRbp,
      fun _ => naClCheckSubreg_valid accepted⟩

end Node

/-! ## The loop over the nodes -/

/-- The instruction assigns `%rsp` and completes the assignment to `%esp`
before it, and may not be jumped to. -/
structure RspRestored (config : NaClValidatorConfig) (look : Lookback)
    (inst : NaClInstState) (state : NaClValidatorState) : Prop where
  assigned : ∃ index, Assigns inst index .regRSP
  restores : RestoresRsp config look inst
  marked : Marked state inst

structure RbpRestored (config : NaClValidatorConfig) (look : Lookback)
    (inst : NaClInstState) (state : NaClValidatorState) : Prop where
  assigned : ∃ index, Assigns inst index .regRBP
  restores : RestoresRbp config look inst
  marked : Marked state inst

structure Completed (config : NaClValidatorConfig) (look : Lookback)
    (inst : NaClInstState) (previous left : NaClRegisterLocals)
    (state : NaClValidatorState) : Prop where
  esp : left.espSetInst = previous.espSetInst ∨
    (left.espSetInst = none ∧ RspRestored config look inst state)
  ebp : left.ebpSetInst = previous.ebpSetInst ∨
    (left.ebpSetInst = none ∧ RbpRestored config look inst state)

structure NodesDone (config : NaClValidatorConfig) (look : Lookback)
    (inst : NaClInstState) (start : NaClValidatorState)
    (previous : NaClRegisterLocals) (count : Nat)
    (state : NaClValidatorState) : Prop where
  later : Later inst start state
  slots : ∃ left, Slots state.locals left (pendingBefore inst count) ∧
    Completed config look inst previous left state
  valid : state.validatesOk = true → ∀ index < count, ∀ reg,
    Assigns inst index reg →
    ValidAssignment config look start.text inst index reg state

section Nodes

variable {config : NaClValidatorConfig} {look : Lookback}
  {inst : NaClInstState} {start : NaClValidatorState}
  {previous : NaClRegisterLocals} {count : Nat} {state : NaClValidatorState}
  {after : NaClValidatorState} {index : Nat}

theorem Completed.later
    {left : NaClRegisterLocals} {after : NaClValidatorState}
    (completed : Completed config look inst previous left state)
    (later : Later inst state after) :
    Completed config look inst previous left after where
  esp := completed.esp.imp_right fun restored =>
    ⟨restored.1, restored.2.assigned, restored.2.restores,
      restored.2.marked.later later⟩
  ebp := completed.ebp.imp_right fun restored =>
    ⟨restored.1, restored.2.assigned, restored.2.restores,
      restored.2.marked.later later⟩

theorem Later.ofLocals
    (inst : NaClInstState) (state : NaClValidatorState)
    (locals : NaClBaseRegisterLocals) :
    Later inst state { state with locals := locals } :=
  ⟨id, fun _ running => running, fun _ _ member => member,
    fun _ member => .inl member, .inl (Buffer.AgreeOn.refl _ _ _),
    fun _ _ => rfl⟩

private theorem NodesDone.next
    (done : NodesDone config look inst start previous count state)
    {left : NaClRegisterLocals}
    (later : Later inst state after)
    (slots : Slots after.locals left (pendingBefore inst (count + 1)))
    (completed : Completed config look inst previous left after)
    (valid : after.validatesOk = true → ∀ reg, Assigns inst count reg →
      ValidAssignment config look start.text inst count reg after) :
    NodesDone config look inst start previous (count + 1) after where
  later := done.later.trans later
  slots := ⟨left, slots, completed⟩
  valid := by
    intro accepted index below reg assigns
    rcases Nat.lt_succ_iff_lt_or_eq.mp below with earlier | same
    · have before := done.valid (later.ok accepted) index earlier reg assigns
      exact before.later later
    · subst same
      exact valid accepted reg assigns

private theorem pendingBefore_succ_same
    (noEsp : naClGetExpVectorRegister (vectorOf inst) count ≠ .regESP ∨
      isAssignment ((vectorOf inst).node count) = false)
    (noEbp : naClGetExpVectorRegister (vectorOf inst) count ≠ .regEBP ∨
      isAssignment ((vectorOf inst).node count) = false) :
    pendingBefore inst (count + 1) = pendingBefore inst count := by
  have esp : assignsBefore inst (count + 1) .regESP =
      assignsBefore inst count .regESP := by
    rw [assignsBefore_succ]
    rcases noEsp with other | none_
    · simp [other]
    · simp [none_]
  have ebp : assignsBefore inst (count + 1) .regEBP =
      assignsBefore inst count .regEBP := by
    rw [assignsBefore_succ]
    rcases noEbp with other | none_
    · simp [other]
    · simp [none_]
  rw [pendingBefore, pendingBefore, esp, ebp]

private theorem NodesDone.nextFrame
    (done : NodesDone config look inst start previous count state)
    (frame : Frame inst state after)
    (same : pendingBefore inst (count + 1) = pendingBefore inst count)
    (valid : after.validatesOk = true → ∀ reg, Assigns inst count reg →
      ValidAssignment config look start.text inst count reg after) :
    NodesDone config look inst start previous (count + 1) after := by
  obtain ⟨left, slots, completed⟩ := done.slots
  refine done.next frame.toLater ?_ (completed.later frame.toLater) valid
  rw [frame.locals, same]
  exact slots

private theorem Assigns.register_eq
    {reg other : NaClOpKind}
    (assigns : Assigns inst index other)
    (register : naClGetExpVectorRegister (vectorOf inst) index = reg) :
    other = reg :=
  assigns.register.symm.trans register

private theorem checkAssignment_rsp (index : Nat) :
    checkAssignment config look inst index .regRSP state =
      naClCheckRspAssignments config look inst index state := by
  rw [checkAssignment, if_neg (ne_base rfl), if_pos rfl]

private theorem checkAssignment_rbp (index : Nat) :
    checkAssignment config look inst index .regRBP state =
      naClCheckRbpAssignments config look inst state := by
  rw [checkAssignment, if_neg (ne_base rfl), if_neg (by decide), if_pos rfl]

private theorem checkAssignment_esp (index : Nat) :
    checkAssignment config look inst index .regESP state =
      state.recordEsp inst := by
  rw [checkAssignment, if_neg (ne_base rfl), if_neg (by decide),
    if_neg (by decide), if_pos rfl]

private theorem checkAssignment_ebp (index : Nat) :
    checkAssignment config look inst index .regEBP state =
      state.recordEbp inst := by
  rw [checkAssignment, if_neg (ne_base rfl), if_neg (by decide),
    if_neg (by decide), if_neg (by decide), if_pos rfl]

private theorem NodesDone.nextNarrow
    (slot : NaClRegisterLocals → NaClRegisterLocals)
    (done : NodesDone config look inst start previous count state)
    (register : isStackRegister
        (naClGetExpVectorRegister (vectorOf inst) count) = true ∧
      naClGetExpVectorRegister (vectorOf inst) count ≠ .regRSP ∧
      naClGetExpVectorRegister (vectorOf inst) count ≠ .regRBP ∧
      isSegmentRegister
        (naClGetExpVectorRegister (vectorOf inst) count) = false)
    (pends : pendingBefore inst (count + 1) =
      slot (pendingBefore inst count)) :
    NodesDone config look inst start previous (count + 1)
      { state with
        locals := state.locals.setCurrent (slot state.locals.current) } := by
  obtain ⟨left, slots, completed⟩ := done.slots
  have later := Later.ofLocals inst state
    (state.locals.setCurrent (slot state.locals.current))
  refine done.next later ?_ (completed.later later) ?_
  · rw [pends, slots.current]
    exact slots.setCurrent _
  · intro _ reg assigns
    obtain ⟨stack, notRsp, notRbp, segment⟩ := register
    rw [← assigns.register]
    exact ⟨ne_base stack, segment, fun same => absurd same notRsp,
      fun same => absurd same notRbp,
      fun plain => absurd (stack.symm.trans plain) (by decide)⟩

private theorem validAssignment_rsp
    {text : Buffer}
    (permitted : KeepsRsp text inst index ∨
      (RestoresRsp config look inst ∧ Marked after inst)) :
    ValidAssignment config look text inst index .regRSP after :=
  ⟨ne_base rfl, rfl, fun _ => permitted,
    fun wrong => absurd wrong (by decide),
    fun wrong => absurd wrong (by decide)⟩

private theorem validAssignment_rbp
    {text : Buffer}
    (permitted : naClIsMovUsingRegisters inst.inst (vectorOf inst) .regRBP
        .regRSP = true ∨
      (RestoresRbp config look inst ∧ Marked after inst)) :
    ValidAssignment config look text inst index .regRBP after :=
  ⟨ne_base rfl, rfl, fun wrong => absurd wrong (by decide),
    fun _ => permitted, fun wrong => absurd wrong (by decide)⟩

theorem KeepsRsp.earlier
    {before : NaClValidatorState}
    (later : Later inst before after)
    (keeps : KeepsRsp after.text inst index) :
    KeepsRsp before.text inst index := by
  rcases keeps with stack | call | ⟨name, negative⟩ | moves
  · exact .inl stack
  · exact .inr (.inl call)
  · exact .inr (.inr (.inl
      ⟨name, isAndRspNegative_of_later later negative⟩))
  · exact .inr (.inr (.inr moves))

private theorem NodesDone.nextWide
    (clearSlot : NaClRegisterLocals → NaClRegisterLocals)
    {keeps restores : Prop} {clear : NaClValidatorState → NaClValidatorState}
    {reg : NaClOpKind}
    (done : NodesDone config look inst start previous count state)
    (outcome : Outcome config inst keeps restores clear state after)
    (register : naClGetExpVectorRegister (vectorOf inst) count = reg)
    (wide : reg ≠ .regESP ∧ reg ≠ .regEBP)
    (clears : ∀ marked, clear marked = { marked with
      locals := marked.locals.setPrevious
        (clearSlot marked.locals.previous) })
    (completes : ∀ {left after},
      Completed config look inst previous left after → restores →
      Marked after inst →
      Completed config look inst previous (clearSlot left) after)
    (permitted : ∀ {after}, keeps ∨ (restores ∧ Marked after inst) →
      ValidAssignment config look start.text inst count reg after) :
    NodesDone config look inst start previous (count + 1) after := by
  have same : pendingBefore inst (count + 1) = pendingBefore inst count :=
    pendingBefore_succ_same (.inl (register ▸ wide.1))
      (.inl (register ▸ wide.2))
  cases outcome with
  | kept keeps =>
      refine done.nextFrame (Frame.refl _ _) same ?_
      intro _ reg assigns
      rw [assigns.register_eq register]
      exact permitted (.inl keeps)
  | @restored marked restores frame marks =>
      obtain ⟨left, slots, completed⟩ := done.slots
      rw [clears]
      have later := frame.toLater.trans (Later.ofLocals inst marked
        (marked.locals.setPrevious (clearSlot marked.locals.previous)))
      refine done.next later ?_
        (completes (completed.later later) restores marks) ?_
      · rw [← frame.locals] at slots
        rw [same, slots.previous]
        exact slots.setPrevious _
      · intro _ reg assigns
        rw [assigns.register_eq register]
        exact permitted (.inr ⟨restores, marks⟩)
  | rejected =>
      refine done.nextFrame (instMessage_frame config inst state) same ?_
      intro accepted
      exact absurd accepted
        (naClValidatorInstMessage_notOk config inst state)

private theorem NodesDone.nextPlain
    (done : NodesDone config look inst start previous count state)
    (plain : isStackRegister
      (naClGetExpVectorRegister (vectorOf inst) count) = false) :
    NodesDone config look inst start previous (count + 1)
      (checkAssignment config look inst count
        (naClGetExpVectorRegister (vectorOf inst) count) state) := by
  obtain ⟨-, -, notEsp, notEbp⟩ := not_stack plain
  refine done.nextFrame (checkAssignment_plain_frame plain count state)
    (pendingBefore_succ_same (.inl notEsp) (.inl notEbp)) ?_
  intro accepted reg assigns
  rw [assigns.register_eq rfl]
  exact checkAssignment_plain_valid plain accepted start.text

theorem stack_cases
    {reg : NaClOpKind} (stack : isStackRegister reg = true) :
    reg = .regRSP ∨ reg = .regRBP ∨ reg = .regESP ∨ reg = .regEBP := by
  revert stack
  fun_cases isStackRegister reg
  · simp
  · simp
  · simp
  · simp
  · simp

private theorem NodesDone.step
    (done : NodesDone config look inst start previous count state)
    (inside : InSegment config inst)
    (below : count < (vectorOf inst).numberExprNodes) :
    NodesDone config look inst start previous (count + 1)
      (checkRegisterNode config look inst state count) := by
  rw [checkRegisterNode]
  split_ifs with assigned
  · cases stack : isStackRegister
        (naClGetExpVectorRegister (vectorOf inst) count) with
    | false => exact done.nextPlain stack
    | true =>
        rcases stack_cases stack with register | register | register | register
        · rw [register, checkAssignment_rsp]
          refine done.nextWide ({ · with espSetInst := none })
            (naClCheckRspAssignments_outcome look inside count state)
            register (by decide) (fun _ => rfl) ?_ ?_
          · intro left after kept restores marks
            exact ⟨.inr ⟨rfl, ⟨count, below, assigned, register⟩, restores,
              marks⟩, kept.ebp⟩
          · intro after permitted
            exact validAssignment_rsp
              (permitted.imp_left (KeepsRsp.earlier done.later))
        · rw [register, checkAssignment_rbp]
          refine done.nextWide ({ · with ebpSetInst := none })
            (naClCheckRbpAssignments_outcome look inside state)
            register (by decide) (fun _ => rfl) ?_ validAssignment_rbp
          intro left after kept restores marks
          exact ⟨kept.esp, .inr ⟨rfl, ⟨count, below, assigned, register⟩,
            restores, marks⟩⟩
        · rw [register, checkAssignment_esp]
          refine done.nextNarrow ({ · with espSetInst := some inst })
            (register ▸ by decide) ?_
          rw [pendingBefore, pendingBefore, assignsBefore_succ,
            assignsBefore_succ]
          simp [assigned, register]
        · rw [register, checkAssignment_ebp]
          refine done.nextNarrow ({ · with ebpSetInst := some inst })
            (register ▸ by decide) ?_
          rw [pendingBefore, pendingBefore, assignsBefore_succ,
            assignsBefore_succ]
          simp [assigned, register]
  · have unassigned := Bool.eq_false_of_not_eq_true assigned
    refine done.nextFrame (Frame.refl _ _)
      (pendingBefore_succ_same (.inr unassigned) (.inr unassigned)) ?_
    intro _ reg assigns
    exact absurd assigns.assigned assigned

theorem checkRegisterNodes_done
    (look : Lookback) (inside : InSegment config inst)
    (slots : Slots start.locals previous noAssignments) :
    NodesDone config look inst start previous
      (vectorOf inst).numberExprNodes
      (checkRegisterNodes config look inst start) := by
  refine foldl_range_invariant
    (fun count state =>
      NodesDone config look inst start previous count state) ?_ ?_
  · intro count state below done
    exact done.step inside below
  · exact ⟨Later.refl _ _, ⟨previous, slots, .inl rfl, .inl rfl⟩,
      fun _ index below => absurd below (Nat.not_lt_zero index)⟩

end Nodes

/-! ## The whole validator -/

section Validator

variable (config : NaClValidatorConfig) {inst : NaClInstState}
  {previous current : NaClRegisterLocals}

private theorem reportPrevious_spec
    (clearSlot : NaClRegisterLocals → NaClRegisterLocals)
    {state after : NaClValidatorState} {pends : Option NaClInstState}
    {clear : NaClValidatorState → NaClValidatorState}
    (reports : after = match pends with
      | some pend => clear (naClValidatorInstMessage config pend state)
      | none => state)
    (slots : Slots state.locals previous current)
    (earlier : ∀ pend, pends = some pend → pend.mpc + pend.length ≤ inst.mpc)
    (unchanged : pends = none → clearSlot previous = previous)
    (clears : ∀ marked, clear marked = { marked with
      locals := marked.locals.setPrevious
        (clearSlot marked.locals.previous) }) :
    Later inst state after ∧ Slots after.locals (clearSlot previous) current ∧
      (after.validatesOk = true → pends = none) := by
  subst reports
  cases pends with
  | none =>
      rw [unchanged rfl]
      exact ⟨Later.refl _ _, slots, fun _ => rfl⟩
  | some pend =>
      have report := naClValidatorInstMessage_frame config state
        (.inr (earlier pend rfl))
      simp only [clears]
      refine ⟨report.toLater.trans (Later.ofLocals inst _ _), ?_, ?_⟩
      · rw [← report.locals] at slots
        rw [← slots.previous]
        exact slots.setPrevious _
      · intro accepted
        exact absurd accepted
          (naClValidatorInstMessage_notOk config pend state)

theorem naClMaybeReportPreviousBad_spec
    {state : NaClValidatorState}
    (slots : Slots state.locals previous current)
    (earlier : ∀ pend, previous.espSetInst = some pend ∨
        previous.ebpSetInst = some pend →
      pend.mpc + pend.length ≤ inst.mpc) :
    Later inst state (naClMaybeReportPreviousBad config state) ∧
      Slots (naClMaybeReportPreviousBad config state).locals current
        noAssignments ∧
      ((naClMaybeReportPreviousBad config state).validatesOk = true →
        previous = noAssignments) := by
  have esp : reportPreviousEsp config state =
      match previous.espSetInst with
      | some pend =>
          (naClValidatorInstMessage config pend state).clearPreviousEsp
      | none => state := by
    rw [← slots.previous]
    rfl
  obtain ⟨first, espSlots, noEsp⟩ := reportPrevious_spec config
    ({ · with espSetInst := none }) esp slots
    (fun pend pends => earlier pend (.inl pends))
    (fun nothing => by rw [← nothing]) (fun _ => rfl)
  have pends : (reportPreviousEsp config state).locals.previous.ebpSetInst =
      previous.ebpSetInst := by
    rw [espSlots.previous]
  have ebp : reportPreviousEbp config (reportPreviousEsp config state) =
      match previous.ebpSetInst with
      | some pend => (naClValidatorInstMessage config pend
          (reportPreviousEsp config state)).clearPreviousEbp
      | none => reportPreviousEsp config state := by
    rw [← pends]
    rfl
  obtain ⟨second, bothSlots, noEbp⟩ := reportPrevious_spec config
    ({ · with ebpSetInst := none }) ebp espSlots
    (fun pend pends => earlier pend (.inr pends))
    (fun nothing => by rw [← nothing]) (fun _ => rfl)
  refine ⟨(first.trans second).trans (Later.ofLocals inst _ _),
    bothSlots.rotate, ?_⟩
  intro accepted
  have esp := noEsp (second.ok accepted)
  have ebp := noEbp accepted
  cases previous
  cases esp
  cases ebp
  rfl

end Validator

section Spec

variable {config : NaClValidatorConfig} {look : Lookback}
  {inst : NaClInstState} {previous : NaClRegisterLocals}

theorem naClBaseRegisterValidator_spec
    (look : Lookback) (inside : InSegment config inst) {state : NaClValidatorState}
    (slots : Slots state.locals previous noAssignments)
    (earlier : ∀ pend, previous.espSetInst = some pend ∨
        previous.ebpSetInst = some pend →
      pend.mpc + pend.length ≤ inst.mpc) :
    Later inst state (naClBaseRegisterValidator config look inst state) ∧
      Slots (naClBaseRegisterValidator config look inst state).locals
        (pending inst) noAssignments ∧
      ((naClBaseRegisterValidator config look inst state).validatesOk =
          true →
        ValidAssignments config look state.text inst
            (naClBaseRegisterValidator config look inst state) ∧
          (previous.espSetInst ≠ none → RspRestored config look inst
            (naClBaseRegisterValidator config look inst state)) ∧
          (previous.ebpSetInst ≠ none → RbpRestored config look inst
            (naClBaseRegisterValidator config look inst state))) := by
  have done := checkRegisterNodes_done look inside slots
  obtain ⟨left, leftSlots, completed⟩ := done.slots
  have leftEarlier : ∀ pend, left.espSetInst = some pend ∨
      left.ebpSetInst = some pend → pend.mpc + pend.length ≤ inst.mpc := by
    intro pend pends
    rcases pends with esp | ebp
    · rcases completed.esp with same | ⟨none_, -⟩
      · exact earlier pend (.inl (same.symm.trans esp))
      · rw [none_] at esp
        cases esp
    · rcases completed.ebp with same | ⟨none_, -⟩
      · exact earlier pend (.inr (same.symm.trans ebp))
      · rw [none_] at ebp
        cases ebp
  obtain ⟨later, nextSlots, empty⟩ := naClMaybeReportPreviousBad_spec config
    leftSlots leftEarlier
  refine ⟨done.later.trans later, nextSlots, ?_⟩
  intro accepted
  have nothing := empty accepted
  rw [nothing] at completed
  have final := completed.later later
  refine ⟨?_, ?_, ?_⟩
  · intro index reg assigns
    have valid := done.valid (later.ok accepted) index assigns.node reg assigns
    exact valid.later later
  · intro pends
    rcases final.esp with same | ⟨-, restored⟩
    · exact absurd same.symm pends
    · exact restored
  · intro pends
    rcases final.ebp with same | ⟨-, restored⟩
    · exact absurd same.symm pends
    · exact restored

end Spec

end NativeClient.Validator64
