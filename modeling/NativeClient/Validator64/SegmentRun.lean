import NativeClient.Validator64.BaseRegisters
import NativeClient.Validator64.Jumps

/-!
# Runs of the 64 bit segment validator

At every turn of the loop, the ring buffer holds the last instructions of the
sequential decode of the text, the address sets hold what these instructions
contribute, and the instructions have passed the validators if there was no
error.  An accepted segment therefore has passed as a whole.
-/

namespace NativeClient.Validator64

open NativeClient.Library
open NativeClient.Decoder64
open NativeClient.Validator32 (kNaClFullStop)

/-! ## One instruction -/

section Instruction

variable {config : NaClValidatorConfig} {look : Lookback}
  {inst : NaClInstState} {validator : NaClValidatorState → NaClValidatorState}
  {state : NaClValidatorState}

private theorem squash_frame
    (inst : NaClInstState) (state : NaClValidatorState) :
    Frame inst state
      { state with
        text := state.text.fill inst.mpc inst.length kNaClFullStop } where
  ok := id
  quit := fun _ running => running
  sets := fun _ _ member => member
  possible := fun _ member => .inl member
  squashed := .inr fun _ above below => Buffer.fill_inside above below
  rest := fun _ past => Buffer.fill_outside (.inr past)
  locals := rfl

theorem naClCpuCheck_frame
    (config : NaClValidatorConfig) (inst : NaClInstState)
    (state : NaClValidatorState) :
    Frame inst state (naClCpuCheck config inst state) := by
  have checked : Frame inst state
      (if inst.inst.insttype = .sse2x ∧
          inst.masked NativeClient.Decoder.kPrefixDATA16 = false then
        naClValidatorInstMessage config inst state
      else
        state) := by
    split_ifs
    · exact instMessage_frame config inst state
    · exact Frame.refl _ _
  rw [naClCpuCheck]
  split
  · exact checked.trans (squash_frame inst _)
  · exact checked

theorem naClValidateInstructionLegal_frame
    (config : NaClValidatorConfig) (inst : NaClInstState)
    (state : NaClValidatorState) :
    Frame inst state (naClValidateInstructionLegal config inst state) := by
  rw [naClValidateInstructionLegal]
  generalize allDisallowsFlags.filter (disallows inst) = reasons
  induction reasons generalizing state with
  | nil => exact Frame.refl _ _
  | cons reason reasons ih =>
      rw [List.foldl_cons]
      refine Frame.trans ?_ (ih _)
      split_ifs
      · exact Frame.refl _ _
      · exact instMessage_frame config inst state

private theorem unlessQuit_later
    (later : Later inst state (validator state)) :
    Later inst state (unlessQuit validator state) := by
  rw [unlessQuit]
  split_ifs
  · exact Later.refl _ _
  · exact later

theorem unlessQuit_frame
    (frame : Frame inst state (validator state)) :
    Frame inst state (unlessQuit validator state) := by
  rw [unlessQuit]
  split_ifs
  · exact Frame.refl _ _
  · exact frame

private theorem unlessQuit_running
    (running : (unlessQuit validator state).quit = false) :
    state.quit = false := by
  rw [unlessQuit] at running
  split_ifs at running with quit
  · exact running
  · exact Bool.eq_false_of_not_eq_true quit

theorem unlessQuit_eq
    {validator : NaClValidatorState → NaClValidatorState}
    {state : NaClValidatorState} (running : state.quit = false) :
    unlessQuit validator state = validator state := by
  rw [unlessQuit, running, if_neg Bool.false_ne_true]

structure Passed (config : NaClValidatorConfig) (look : Lookback)
    (text : Buffer) (previous : NaClRegisterLocals) (inst : NaClInstState)
    (state : NaClValidatorState) : Prop where
  assignments : ValidAssignments config look text inst state
  esp : previous.espSetInst ≠ none → RspRestored config look inst state
  ebp : previous.ebpSetInst ≠ none → RbpRestored config look inst state
  references : ValidReferences config look inst state
  remembered :
    (state.jumpSets .possibleTargets).get inst.mpc = true
  targets : ValidTargets config look inst state

theorem Passed.later
    {text : Buffer} {previous : NaClRegisterLocals}
    {current : NaClInstState} {before after : NaClValidatorState}
    (passed : Passed config look text previous inst before)
    (later : Later current before after) :
    Passed config look text previous inst after where
  assignments := passed.assignments.later later
  esp := fun pends =>
    let restored := passed.esp pends
    ⟨restored.assigned, restored.restores, restored.marked.later later⟩
  ebp := fun pends =>
    let restored := passed.ebp pends
    ⟨restored.assigned, restored.restores, restored.marked.later later⟩
  references := passed.references.later later
  remembered := later.sets _ _ passed.remembered
  targets := passed.targets.later later

private theorem ValidAssignments.mapText
    {text other : Buffer} {after : NaClValidatorState}
    (keeps : ∀ index, KeepsRsp text inst index → KeepsRsp other inst index)
    (valid : ValidAssignments config look text inst after) :
    ValidAssignments config look other inst after := by
  intro index reg assigns
  have found := valid index reg assigns
  refine ⟨found.base, found.segment, ?_, found.rbp, found.subreg⟩
  intro same
  exact (found.rsp same).imp_left (keeps index)

private theorem Passed.mapText
    {text other : Buffer} {previous : NaClRegisterLocals}
    {after : NaClValidatorState}
    (ahead : ∀ offset, inst.mpc ≤ offset → text offset = other offset)
    (passed : Passed config look text previous inst after) :
    Passed config look other previous inst after where
  assignments := by
    apply passed.assignments.mapText
    intro index keeps
    have start := ahead inst.mpc (Nat.le_refl _)
    have rest := fun place => ahead (inst.mpc + place) (Nat.le_add_right _ _)
    rw [KeepsRsp, isAndRspNegative, start, rest, rest, rest] at keeps
    exact keeps
  esp := passed.esp
  ebp := passed.ebp
  references := passed.references
  remembered := passed.remembered
  targets := passed.targets

variable {previous : NaClRegisterLocals}
  (inside : InSegment config inst) (seen : LooksInside config look)
  {state : NaClValidatorState}
  (slots : Slots state.locals previous noAssignments)
  (earlier : ∀ pend, previous.espSetInst = some pend ∨
      previous.ebpSetInst = some pend →
    pend.mpc + pend.length ≤ inst.mpc)
  (running : state.quit = false)

include inside seen slots earlier running

theorem naClApplyValidators_spec :
    Later inst state (naClApplyValidators config look inst state) ∧
      ((naClApplyValidators config look inst state).quit = false →
        Slots (naClApplyValidators config look inst state).locals
          (pending inst) noAssignments) ∧
      ((naClApplyValidators config look inst state).validatesOk = true →
        Passed config look state.text previous inst
          (naClApplyValidators config look inst state)) := by
  rw [naClApplyValidators]
  have started : Frame inst state
      (unlessQuit (naClValidateInstructionLegal config inst)
        (unlessQuit (naClCpuCheck config inst) state)) :=
    (unlessQuit_frame (naClCpuCheck_frame config inst state)).trans
      (unlessQuit_frame (naClValidateInstructionLegal_frame config inst _))
  generalize unlessQuit (naClValidateInstructionLegal config inst)
    (unlessQuit (naClCpuCheck config inst) state) = legal at started ⊢
  rw [← started.locals] at slots
  obtain ⟨based, rotated, assigned⟩ := naClBaseRegisterValidator_spec look
    inside slots earlier
  have base := unlessQuit_later based
  generalize baseRan : unlessQuit (naClBaseRegisterValidator config look inst)
    legal = guarded at base ⊢
  obtain ⟨refers, referred⟩ := naClMemoryReferenceValidator_spec inside seen
    guarded
  have memory := unlessQuit_frame refers
  generalize memoryRan : unlessQuit
    (naClMemoryReferenceValidator config look inst) guarded = referenced
    at memory ⊢
  obtain ⟨jumps, remembered, targeted⟩ := naClJumpValidator_spec inside seen
    referenced
  have jump := unlessQuit_frame jumps
  have total : Later inst state
      (unlessQuit (naClJumpValidator config look inst) referenced) :=
    started.toLater.trans (base.trans (memory.toLater.trans jump.toLater))
  refine ⟨total, ?_, ?_⟩
  · intro going
    have third := unlessQuit_running going
    rw [← memoryRan] at third
    have second := unlessQuit_running third
    rw [← baseRan] at second
    have first := unlessQuit_running second
    rw [unlessQuit_eq first] at baseRan
    rw [jump.locals, memory.locals, ← baseRan]
    exact rotated
  · intro accepted
    have third := jump.ok accepted
    have second := memory.ok third
    have first := base.ok second
    have legalRuns := started.quit first running
    have baseRuns := base.quit second legalRuns
    have memoryRuns := memory.quit third baseRuns
    rw [unlessQuit_eq legalRuns] at baseRan
    rw [unlessQuit_eq baseRuns] at memoryRan
    rw [unlessQuit_eq memoryRuns] at accepted jump ⊢
    rw [baseRan] at assigned
    rw [memoryRan] at referred
    obtain ⟨valid, esp, ebp⟩ := assigned second
    have later := memory.toLater.trans jump.toLater
    refine ⟨?_, ?_, ?_, ?_, remembered, targeted accepted⟩
    · have kept := valid.mapText
        (fun _ keeps => KeepsRsp.earlier started.toLater keeps)
      exact kept.later later
    · intro pends
      have restored := esp pends
      exact ⟨restored.assigned, restored.restores,
        restored.marked.later later⟩
    · intro pends
      have restored := ebp pends
      exact ⟨restored.assigned, restored.restores,
        restored.marked.later later⟩
    · exact (referred baseRuns third).later jump.toLater

end Instruction

/-! ## The loop over the instructions -/

section Run

variable (tables : Tables) (config : NaClValidatorConfig) (text : Buffer)

def lookAt (count : Nat) : Lookback :=
  fun distance =>
    if distance < kLookbackSize + 1 ∧ distance ≤ count then
      some (instructionAt tables text config.segment (count - distance))
    else
      none

def pendingAt : Nat → NaClRegisterLocals
  | 0 => noAssignments
  | count + 1 => pending (instructionAt tables text config.segment count)

def PassedAt (count : Nat) (state : NaClValidatorState) : Prop :=
  Passed config (lookAt tables config text count) text
    (pendingAt tables config text count)
    (instructionAt tables text config.segment count) state

structure Progress (count : Nat) (iter : NaClInstIter)
    (state : NaClValidatorState) : Prop where
  index : iter.index = offsetAt tables text config.segment count
  counted : iter.instCount = count
  empty : iter.buffer.back 0 = none
  ring : ∀ distance, 0 < distance → distance < kLookbackSize + 1 →
    distance ≤ count → iter.buffer.back distance =
      some (instructionAt tables text config.segment (count - distance))
  ahead : ∀ offset, offsetAt tables text config.segment count ≤ offset →
    state.text offset = text offset
  slots : Slots state.locals (pendingAt tables config text count)
    noAssignments
  possible : ∀ offset,
    (state.jumpSets .possibleTargets).get offset = true →
      ∃ earlier < count, offset = offsetAt tables text config.segment earlier
  within : ∀ earlier < count,
    IsInstruction tables text config.segment earlier
  running : state.quit = false
  passed : state.validatesOk = true → ∀ earlier < count,
    PassedAt tables config text earlier state

end Run

section Turn

variable {tables : Tables} {config : NaClValidatorConfig} {text : Buffer}

theorem progress_start :
    Progress tables config text 0 naClInstIterCreateWithLookback
      (naClValidatorStateCreate config text) where
  index := rfl
  counted := rfl
  empty := rfl
  ring := fun _ positive _ none_ => absurd positive (by omega)
  ahead := fun _ _ => rfl
  slots := ⟨.inl ⟨rfl, rfl⟩, rfl, rfl⟩
  possible := by
    intro offset member
    have none_ := AddressTable.get_empty offset
    exact absurd (none_.symm.trans member) Bool.false_ne_true
  within := fun earlier below => absurd below (Nat.not_lt_zero earlier)
  running := rfl
  passed := fun _ earlier below => absurd below (Nat.not_lt_zero earlier)

theorem instructionAt_inSegment
    {count : Nat} (inside : IsInstruction tables text config.segment count) :
    InSegment config (instructionAt tables text config.segment count) where
  vpc := by
    rw [instructionAt_vpc, instructionAt_mpc]
    rfl
  inside := by
    rw [instructionAt_mpc]
    exact inside

theorem lookAt_inside
    {count : Nat} (inside : IsInstruction tables text config.segment count) :
    LooksInside config (lookAt tables config text count) := by
  intro distance previous looked
  rw [lookAt] at looked
  split_ifs at looked
  cases looked
  apply instructionAt_inSegment
  exact Nat.lt_of_le_of_lt
    (offsetAt_mono tables text config.segment (Nat.sub_le _ _)) inside

theorem pendingAt_earlier
    {count : Nat} {pend : NaClInstState}
    (pends : (pendingAt tables config text count).espSetInst = some pend ∨
      (pendingAt tables config text count).ebpSetInst = some pend) :
    pend.mpc + pend.length ≤
      (instructionAt tables text config.segment count).mpc := by
  cases count with
  | zero => rcases pends with wrong | wrong <;> cases wrong
  | succ count =>
      have same : pend =
          instructionAt tables text config.segment count := by
        simp only [pendingAt, pending, pendingBefore] at pends
        rcases pends with esp | ebp
        · split_ifs at esp
          cases esp
          rfl
        · split_ifs at ebp
          cases ebp
          rfl
      rw [same, instructionAt_mpc, instructionAt_mpc, offsetAt_succ]

namespace Progress

variable {count : Nat} {iter : NaClInstIter} {state : NaClValidatorState}
  (progress : Progress tables config text count iter state)

include progress

private theorem decodes :
    naClDecodeInst tables state.text config.segment.vbase
        config.segment.size iter.index =
      naClDecodeInst tables text config.segment.vbase config.segment.size
        (offsetAt tables text config.segment count) := by
  have shifted : state.text.shift
      (offsetAt tables text config.segment count) =
      text.shift (offsetAt tables text config.segment count) := by
    funext offset
    exact progress.ahead _ (Nat.le_add_right _ _)
  rw [progress.index, naClDecodeInst, naClDecodeInst, shifted]

theorem currentInst_eq :
    currentInst tables config iter state =
      instructionAt tables text config.segment count := by
  have loads : naClInstIterGetState tables state.text config.segment iter =
      naClDecodeInst tables text config.segment.vbase config.segment.size
        (offsetAt tables text config.segment count) := by
    rw [naClInstIterGetState, naClInstIterGetLookbackState, progress.empty]
    exact progress.decodes
  have place := (naClDecodeInst_place tables text config.segment.vbase
    config.segment.size (offsetAt tables text config.segment count)).1
  have shifted : state.text.shift
      (offsetAt tables text config.segment count) =
      text.shift (offsetAt tables text config.segment count) := by
    funext offset
    exact progress.ahead _ (Nat.le_add_right _ _)
  rw [currentInst, loads, instructionAt, place, shifted]

private theorem loaded_back
    {distance : Nat} (small : distance < kLookbackSize + 1)
    (reached : distance ≤ count) :
    (loadedIter tables config iter state).buffer.back distance =
      some (instructionAt tables text config.segment (count - distance)) := by
  rw [loadedIter, progress.currentInst_eq]
  rcases Nat.eq_zero_or_pos distance with zero | positive
  · subst zero
    exact Ring.back_setCurrent_zero _ _
  · dsimp only
    rw [Ring.back_setCurrent _ _ positive small]
    exact progress.ring distance positive small reached

theorem lookback_eq :
    lookback tables config (loadedIter tables config iter state) state =
      lookAt tables config text count := by
  have counted : (loadedIter tables config iter state).instCount = count :=
    progress.counted
  funext distance
  rw [lookback, lookAt, naClInstIterHasLookbackState, counted]
  by_cases seen : distance < kLookbackSize + 1 ∧ distance ≤ count
  · rw [if_pos seen, if_pos (by simp [seen.1, seen.2]),
      naClInstIterGetLookbackState, progress.loaded_back seen.1 seen.2]
    rfl
  · rw [if_neg seen, if_neg (by simpa using seen)]

theorem validateInst_eq :
    validateInst tables config iter state =
      naClApplyValidators config (lookAt tables config text count)
        (instructionAt tables text config.segment count) state := by
  rw [validateInst, progress.lookback_eq, progress.currentInst_eq]

theorem validateInst_spec
    (inside : IsInstruction tables text config.segment count) :
    Later (instructionAt tables text config.segment count) state
        (validateInst tables config iter state) ∧
      ((validateInst tables config iter state).quit = false →
        Slots (validateInst tables config iter state).locals
          (pendingAt tables config text (count + 1)) noAssignments) ∧
      ((validateInst tables config iter state).validatesOk = true →
        PassedAt tables config text count
          (validateInst tables config iter state)) := by
  rw [progress.validateInst_eq]
  have spec := naClApplyValidators_spec (instructionAt_inSegment inside)
    (lookAt_inside inside) progress.slots
    (fun _ pends => pendingAt_earlier pends) progress.running
  refine ⟨spec.1, spec.2.1, ?_⟩
  intro accepted
  apply (spec.2.2 accepted).mapText
  intro offset past
  rw [instructionAt_mpc] at past
  exact progress.ahead offset past

theorem next
    (inside : IsInstruction tables text config.segment count)
    (going : (validateInst tables config iter state).quit = false) :
    Progress tables config text (count + 1)
      (naClInstIterAdvance tables (validateInst tables config iter state).text
        config.segment (loadedIter tables config iter state))
      (validateInst tables config iter state) := by
  obtain ⟨later, slots, passed⟩ := progress.validateInst_spec inside
  have current : ∀ memory : Buffer, naClInstIterGetState tables memory
      config.segment (loadedIter tables config iter state) =
      instructionAt tables text config.segment count := by
    intro memory
    rw [naClInstIterGetState, naClInstIterGetLookbackState,
      progress.loaded_back (Nat.succ_pos _) (Nat.zero_le _)]
    rfl
  constructor
  · rw [naClInstIterAdvance, current, offsetAt_succ, ← progress.index]
    rfl
  · rw [← progress.counted]
    rfl
  · exact Ring.back_advance_zero _ _
  · intro distance positive small reached
    obtain ⟨before, rfl⟩ : ∃ before, distance = before + 1 :=
      ⟨distance - 1, by omega⟩
    have stored : ((loadedIter tables config iter state).buffer.setCurrent
        (some (instructionAt tables text config.segment count))).back before =
        some (instructionAt tables text config.segment (count - before)) := by
      rcases Nat.eq_zero_or_pos before with zero | later
      · subst zero
        exact Ring.back_setCurrent_zero _ _
      · rw [Ring.back_setCurrent _ _ later (by omega)]
        exact progress.loaded_back (by omega) (by omega)
    rw [naClInstIterAdvance, naClInstIterLoad]
    dsimp only
    rw [current, Ring.back_advance_succ _ _ small, stored]
    congr 2
    omega
  · intro offset past
    rw [offsetAt_succ] at past
    rw [later.rest offset (by rw [instructionAt_mpc]; exact past)]
    exact progress.ahead offset (by omega)
  · exact slots going
  · intro offset member
    rcases later.possible offset member with earlier | here
    · obtain ⟨place, below, same⟩ := progress.possible offset earlier
      exact ⟨place, by omega, same⟩
    · rw [instructionAt_mpc] at here
      exact ⟨count, Nat.lt_succ_self _, here⟩
  · intro earlier below
    rcases Nat.lt_succ_iff_lt_or_eq.mp below with before | same
    · exact progress.within earlier before
    · rw [same]
      exact inside
  · exact going
  · intro accepted earlier below
    rcases Nat.lt_succ_iff_lt_or_eq.mp below with before | same
    · exact (progress.passed (later.ok accepted) earlier before).later later
    · rw [same]
      exact passed accepted

end Progress

end Turn

/-! ## Whole runs -/

section Acceptance

variable (tables : Tables) (config : NaClValidatorConfig) (text : Buffer)

/-- The states of the loop of `NaClValidateSegment`, before each turn. -/
inductive Heads : NaClInstIter × NaClValidatorState → Prop where
  | start : Heads
      (naClInstIterCreateWithLookback, naClValidatorStateCreate config text)
  | turn {before after : NaClInstIter × NaClValidatorState} :
      Heads before → validateTurn tables config before = .again after →
      Heads after

structure Validated (count : Nat) (state : NaClValidatorState) : Prop where
  ends : config.size ≤ offsetAt tables text config.segment count
  within : ∀ earlier < count,
    IsInstruction tables text config.segment earlier
  passed : ∀ earlier < count, PassedAt tables config text earlier state
  completed : pendingAt tables config text count = noAssignments
  aligned : config.vbase % config.alignment = 0
  reachable : ∀ offset < config.size,
    (state.jumpSets .actualTargets).get offset = true ∨
        (config.vbase + offset) % config.alignment = 0 →
      Reachable state offset
  possible : ∀ offset < config.size,
    (state.jumpSets .possibleTargets).get offset = true →
      ∃ earlier < count, offset = offsetAt tables text config.segment earlier

variable {tables config text} {head : NaClInstIter × NaClValidatorState}

theorem hasNext_iff
    {count : Nat} {iter : NaClInstIter} {state : NaClValidatorState}
    (progress : Progress tables config text count iter state) :
    naClInstIterHasNext config.segment iter = true ↔
      IsInstruction tables text config.segment count := by
  rw [naClInstIterHasNext, decide_eq_true_eq, progress.index]
  rfl

theorem validateTurn_again
    (more : naClInstIterHasNext config.segment head.1 = true)
    (going : (validateInst tables config head.1 head.2).quit = false) :
    validateTurn tables config head = .again
      (naClInstIterAdvance tables
        (validateInst tables config head.1 head.2).text config.segment
        (loadedIter tables config head.1 head.2),
      validateInst tables config head.1 head.2) := by
  simp only [validateTurn, more, going, if_true, Bool.false_eq_true, if_false]

theorem validateTurn_quit
    (more : naClInstIterHasNext config.segment head.1 = true)
    (quit : (validateInst tables config head.1 head.2).quit = true) :
    validateTurn tables config head =
      .leave (validateInst tables config head.1 head.2) := by
  simp only [validateTurn, more, quit, if_true]

theorem validateTurn_ends
    (done : naClInstIterHasNext config.segment head.1 = false) :
    validateTurn tables config head = .leave head.2 := by
  simp only [validateTurn, done, Bool.false_eq_true, if_false]

theorem Heads.progress
    (reached : Heads tables config text head) :
    Progress tables config text head.1.instCount head.1 head.2 := by
  induction reached with
  | start => exact progress_start
  | @turn before _ _ turned ih =>
      cases more : naClInstIterHasNext config.segment before.1 with
      | false =>
          rw [validateTurn_ends more] at turned
          cases turned
      | true =>
          cases quit : (validateInst tables config before.1 before.2).quit with
          | true =>
              rw [validateTurn_quit more quit] at turned
              cases turned
          | false =>
              rw [validateTurn_again more quit] at turned
              cases turned
              have next := ih.next ((hasNext_iff ih).mp more) quit
              rw [next.counted]
              exact next

private theorem loop_ends
    {fuel : Nat}
    {walked : NaClValidatorState} (reached : Heads tables config text head)
    (ran : runLoop (validateTurn tables config) fuel head = some walked) :
    (walked.quit = true ∧ walked.validatesOk = false) ∨
      ∃ count iter, Progress tables config text count iter walked ∧
        config.size ≤ offsetAt tables text config.segment count := by
  induction fuel generalizing head with
  | zero => cases ran
  | succ fuel ih =>
      have progress := reached.progress
      rw [runLoop] at ran
      cases more : naClInstIterHasNext config.segment head.1 with
      | false =>
          rw [validateTurn_ends more] at ran
          cases ran
          refine .inr ⟨_, _, progress, Nat.not_lt.mp ?_⟩
          intro inside
          have next := (hasNext_iff progress).mpr inside
          rw [more] at next
          cases next
      | true =>
          have inside := (hasNext_iff progress).mp more
          have later := (progress.validateInst_spec inside).1
          cases quit : (validateInst tables config head.1 head.2).quit with
          | true =>
              rw [validateTurn_quit more quit] at ran
              cases ran
              refine .inl ⟨quit, Bool.eq_false_of_not_eq_true ?_⟩
              intro accepted
              have going := later.quit accepted progress.running
              rw [quit] at going
              cases going
          | false =>
              have turned := validateTurn_again more quit
              rw [turned] at ran
              exact ih (reached.turn turned) ran

private theorem naClCpuCheckSummary_locals
    (config : NaClValidatorConfig) (state : NaClValidatorState) :
    (unlessQuit (naClCpuCheckSummary config) state).locals =
      state.locals := by
  rw [unlessQuit]
  split_ifs
  · rfl
  · rw [naClCpuCheckSummary]
    split_ifs
    · rfl
    · exact (naClValidatorMessage_fields config state).2.2.1

private theorem naClCpuCheckSummary_quiet
    (config : NaClValidatorConfig) (state : NaClValidatorState) :
    Quiet state (unlessQuit (naClCpuCheckSummary config) state) := by
  intro accepted
  rw [unlessQuit] at accepted ⊢
  split_ifs at accepted ⊢ with quit
  · rfl
  · rw [naClCpuCheckSummary] at accepted ⊢
    split_ifs at accepted ⊢
    · rfl
    · exact absurd accepted (naClValidatorMessage_notOk config state)

private theorem naClJumpValidatorSummarize_ok
    {fuel : Nat} {state final : NaClValidatorState}
    (ran : naClJumpValidatorSummarize config fuel state = some final)
    (accepted : final.validatesOk = true) :
    state.validatesOk = true := by
  cases quit : state.quit with
  | true =>
      rw [naClJumpValidatorSummarize, quit, if_pos rfl] at ran
      cases ran
      exact accepted
  | false =>
      exact (naClJumpValidatorSummarize_reachable quit ran accepted).1

private theorem validated_of_post
    {count fuel : Nat} {iter : NaClInstIter}
    {walked final : NaClValidatorState}
    (progress : Progress tables config text count iter walked)
    (ends : config.size ≤ offsetAt tables text config.segment count)
    (ran : naClApplyPostValidators config fuel walked = some final)
    (accepted : final.validatesOk = true) :
    ∃ state, Validated tables config text count state := by
  rw [naClApplyPostValidators] at ran
  have sameLocals := naClCpuCheckSummary_locals config walked
  have quiet := naClCpuCheckSummary_quiet config walked
  generalize unlessQuit (naClCpuCheckSummary config) walked = checked
    at ran sameLocals quiet
  have slots := progress.slots
  rw [← sameLocals] at slots
  obtain ⟨later, -, completed⟩ := naClMaybeReportPreviousBad_spec config slots
    (fun _ pends => pendingAt_earlier pends)
  have baseLater := unlessQuit_later later
  have checkedOk := baseLater.ok (naClJumpValidatorSummarize_ok ran accepted)
  have same := quiet checkedOk
  subst same
  have reported : unlessQuit (naClBaseRegisterSummarize config) checked =
      naClMaybeReportPreviousBad config checked :=
    unlessQuit_eq progress.running
  rw [reported] at ran
  have finished := naClJumpValidatorSummarize_ok ran accepted
  have going := later.quit finished progress.running
  obtain ⟨-, aligned, reachable⟩ :=
    naClJumpValidatorSummarize_reachable going ran accepted
  refine ⟨_, ends, progress.within, ?_, completed finished, aligned,
    reachable, ?_⟩
  · intro earlier below
    exact (progress.passed checkedOk earlier below).later later
  · intro offset inside member
    rcases later.possible offset member with before | here
    · exact progress.possible offset before
    · rw [instructionAt_mpc] at here
      omega

theorem accepts_validated
    (accepts : Accepts tables config text) :
    ∃ count state, Validated tables config text count state := by
  obtain ⟨fuel, final, ran, accepted⟩ := accepts
  obtain ⟨walked, looped, posted⟩ := Option.bind_eq_some_iff.mp ran
  rcases loop_ends Heads.start looped with failed | passed
  · obtain ⟨quit, rejected⟩ := failed
    simp only [naClApplyPostValidators, naClJumpValidatorSummarize,
      unlessQuit, quit, if_true, Option.some.injEq] at posted
    subst posted
    rw [rejected] at accepted
    cases accepted
  · obtain ⟨count, iter, progress, ends⟩ := passed
    exact ⟨count, validated_of_post progress ends posted accepted⟩

end Acceptance

end NativeClient.Validator64
