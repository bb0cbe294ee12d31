import NativeClient.Validator32.ValidSegment

/-!
# Runs of the segment validator

The loop of `NCDecodeSegment` with `ValidateInst` as its action visits the
instructions of the text in order.  `Visiting` is the invariant while no rule
was broken: after `number` instructions the ring holds the last of them, the
tables hold exactly the addresses and targets seen so far, and the text is
squashed up to there.
-/

namespace NativeClient.Validator32

open NativeClient.Library
open NativeClient.Decoder

/-! ## The rules see only the text -/

def AgreeFrom (memory text : Buffer) (start : Nat) : Prop :=
  ∀ offset, start ≤ offset → memory offset = text offset

theorem AgreeFrom.agreeOn {memory text : Buffer} {start : Nat}
    (agree : AgreeFrom memory text start) (stop : Nat) :
    text.AgreeOn memory start stop :=
  fun offset above _ => (agree offset above).symm

section Congruence

variable {segment : Segment} {memory text : Buffer} {offset : Nat}

theorem directTarget_congr
    (agree : AgreeFrom memory text offset) :
    directTarget (placed segment text offset) memory =
      directTarget (placed segment text offset) text := by
  have wide (distance : Nat) :
      signed32 memory (offset + distance) = signed32 text (offset + distance) :=
    (signed32_congr fun position above _ =>
      (agree position (by omega)).symm).symm
  have byte (distance : Nat) :
      memory (offset + distance) = text (offset + distance) :=
    agree _ (by omega)
  simp only [directTarget, placed_inst_maddr, Nat.add_assoc, wide, byte]

variable (segment text offset) in
theorem directShape_placed : DirectShape (placed segment text offset) text where
  jmp8 := by
    intro found
    rw [placed_inst_maddr]
    rcases (instAt_jmp8 found).2 with condition | jump
    · exact .inl condition
    · exact .inr (.inl jump)
  jmpz := by
    intro found
    rw [placed_inst_maddr]
    rcases instAt_jmpz found with ⟨call, -⟩ | ⟨escape, condition, -⟩
    · exact .inl call
    · exact .inr ⟨escape, condition⟩

theorem directShape_congr
    (agree : AgreeFrom memory text offset) :
    DirectShape (placed segment text offset) memory := by
  have shape := directShape_placed segment text offset
  constructor
  · intro found
    have jump := shape.jmp8 found
    rw [placed_inst_maddr] at jump ⊢
    rw [agree _ (by omega)]
    exact jump
  · intro found
    have jump := shape.jmpz found
    rw [placed_inst_maddr] at jump ⊢
    rw [agree _ (by omega), agree _ (by omega)]
    exact jump

theorem squashes_congr
    (cpufeatures : CPUFeatures) (agree : AgreeFrom memory text offset) :
    squashes cpufeatures memory (placed segment text offset) =
      squashes cpufeatures text (placed segment text offset) := by
  unfold squashes
  rw [placed_inst_maddr, agree _ (by omega)]

theorem instAllowed_congr
    {bounds : Bounds} {andinst : NCDecoderState}
    (agree : AgreeFrom memory text offset)
    (naclJmp : isNaclJmp andinst (placed segment text offset) memory
        bounds.alignmask ↔
      isNaclJmp andinst (placed segment text offset) text bounds.alignmask) :
    InstAllowed bounds memory andinst (placed segment text offset) ↔
      InstAllowed bounds text andinst (placed segment text offset) := by
  have type : TypeAllowed bounds memory andinst (placed segment text offset) ↔
      TypeAllowed bounds text andinst (placed segment text offset) := by
    unfold TypeAllowed
    rw [directTarget_congr agree, naclJmp, placed_inst_maddr,
      agree _ (Nat.le_add_right _ _), agree _ (Nat.le_add_right _ _)]
  constructor
  · exact fun allowed => ⟨allowed.prefixes, allowed.length, type.mp allowed.type⟩
  · exact fun allowed => ⟨allowed.prefixes, allowed.length, type.mpr allowed.type⟩

end Congruence

theorem bundleMask_alignmask (segment : Segment) :
    bundleMask (segment.alignment - 1) = 0xf0 ∨
      bundleMask (segment.alignment - 1) = 0xe0 := by
  rcases segment.bundle with narrow | wide
  · left
    rw [narrow]
    decide
  · right
    rw [wide]
    decide

theorem isNaclJmp_andinst
    {segment : Segment} {text : Buffer} {offset : Nat}
    {mstate : NCDecoderState}
    (naclJmp : isNaclJmp (placed segment text offset) mstate text
      segment.bounds.alignmask) :
    (instAt text offset).inst.length = 3 ∧
      (instAt text offset).opinfo.insttype = .i386L := by
  obtain ⟨-, -, -, -, -, -, opcode, modrm, mask⟩ := naclJmp
  rw [placed_inst_maddr] at opcode modrm mask
  have register : modrmRm (text (mstate.inst.maddr + 1)) < 8 := by
    unfold modrmRm
    rw [UInt8.toNat_and]
    exact Nat.lt_of_le_of_lt Nat.and_le_right (by decide)
  have known := instAt_and register opcode modrm (by
    rcases bundleMask_alignmask segment with same | same
    · exact .inl (mask.trans same)
    · exact .inr (mask.trans same))
  exact ⟨known.1, known.2.2.1⟩

theorem isNaclJmp_stubbed
    (cpufeatures : CPUFeatures) (segment : Segment) (text : Buffer)
    (number : Nat) :
    isNaclJmp (previousNth segment text number) (instNth segment text number)
        (stubbed cpufeatures segment text number) segment.bounds.alignmask ↔
      isNaclJmp (previousNth segment text number) (instNth segment text number)
        text segment.bounds.alignmask := by
  cases number with
  | zero => exact Iff.rfl
  | succ number =>
      have below : offsetAt text number < offsetAt text (number + 1) :=
        offsetAt_strictMono text (Nat.lt_succ_self number)
      by_cases squashed :
        squashes cpufeatures text (instNth segment text number) = true
      · have halted : stubbed cpufeatures segment text (number + 1)
            (offsetAt text number) = kNaClFullStop := by
          rw [stubbed_behind (Nat.lt_succ_self number) (Nat.le_refl _) below,
            if_pos squashed]
        constructor
        · rintro ⟨-, -, -, -, -, -, opcode, -⟩
          rw [previousNth, instNth, placed_inst_maddr, halted] at opcode
          exact absurd opcode (by decide)
        · intro naclJmp
          have type := (isNaclJmp_andinst naclJmp).2
          simp [squashes, instNth, type, treatment] at squashed
      · have agree : AgreeFrom (stubbed cpufeatures segment text (number + 1))
            text (offsetAt text number) := by
          intro offset above
          by_cases inside : offset < offsetAt text (number + 1)
          · rw [stubbed_behind (Nat.lt_succ_self number) above inside,
              if_neg squashed]
          · exact stubbed_ahead (Nat.not_lt.mp inside)
        unfold isNaclJmp
        simp only [previousNth, instNth, placed_inst_maddr]
        rw [agree _ (Nat.le_of_lt below), agree _ (by omega),
          agree _ (Nat.le_refl _), agree _ (Nat.le_add_right _ _),
          agree _ (Nat.le_add_right _ _)]

/-! ## One turn -/

structure Configured (cpufeatures : CPUFeatures) (segment : Segment)
    (vstate : NCValidatorState) : Prop where
  cpufeatures : vstate.cpufeatures = cpufeatures
  iadrbase : vstate.iadrbase = segment.base
  iadrlimit : vstate.iadrlimit = segment.base + segment.size
  alignment : vstate.alignment = segment.alignment
  alignmask : vstate.alignmask = segment.alignment - 1

theorem Configured.bounds
    {cpufeatures : CPUFeatures} {segment : Segment}
    {vstate : NCValidatorState}
    (configured : Configured cpufeatures segment vstate) :
    vstate.bounds = segment.bounds := by
  simp only [NCValidatorState.bounds, Segment.bounds, configured.iadrbase,
    configured.iadrlimit, configured.alignmask]

theorem Configured.of_same
    {cpufeatures : CPUFeatures} {segment : Segment}
    {before after : NCValidatorState}
    (configured : Configured cpufeatures segment before)
    (same : SameConfig before after) :
    Configured cpufeatures segment after where
  cpufeatures := same.cpufeatures.trans configured.cpufeatures
  iadrbase := same.iadrbase.trans configured.iadrbase
  iadrlimit := same.iadrlimit.trans configured.iadrlimit
  alignment := same.alignment.trans configured.alignment
  alignmask := same.alignmask.trans configured.alignmask

/-- The state after `number` instructions that broke no rule. -/
structure Visited (cpufeatures : CPUFeatures) (segment : Segment)
    (text : Buffer) (number : Nat) (validation : Validation) : Prop where
  configured : Configured cpufeatures segment validation.vstate
  clean : validation.vstate.stats.sawfailure = 0
  inside : offsetAt text number ≤ segment.size
  starts : ∀ offset, validation.vstate.vttable.get offset = true ↔
    Landing text number offset
  targets : ∀ offset, validation.vstate.kttable.get offset = true ↔
    ∃ earlier < number, ∃ target,
      directTarget (instNth segment text earlier) text = some target ∧
        segment.bounds.Contains target ∧ target - segment.base = offset
  memory : validation.memory = stubbed cpufeatures segment text number
  decoded : ∀ earlier < number,
    (instNth segment text earlier).internalErrors = 0
  allowed : ∀ earlier < number,
    InstAllowed segment.bounds text (previousNth segment text earlier)
      (instNth segment text earlier)

structure Visiting (cpufeatures : CPUFeatures) (segment : Segment)
    (text : Buffer) (number : Nat) (state : DecodeBuffer × Validation) :
    Prop where
  visited : Visited cpufeatures segment text number state.2
  mpc : state.1.mstate.mpc = offsetAt text number
  nextbyte : state.1.mstate.nextbyte = offsetAt text number
  vpc : state.1.mstate.vpc = segment.base + offsetAt text number
  previous : previousInst state.1 (-1) = previousNth segment text number

def validateTurn (segment : Segment) :
    DecodeBuffer × Validation → Turn (DecodeBuffer × Validation) Validation :=
  decodeSegmentTurn Validation.memory validatorStats validateInst
    (segment.base + segment.size)

section Turns

variable {cpufeatures : CPUFeatures} {segment : Segment} {text : Buffer}
  {number : Nat} {state : DecodeBuffer × Validation}

theorem Visited.agreeFrom
    {validation : Validation}
    (visited : Visited cpufeatures segment text number validation) :
    AgreeFrom validation.memory text (offsetAt text number) := by
  intro offset above
  rw [visited.memory]
  exact stubbed_ahead above

theorem Visited.fresh
    {validation : Validation}
    (visited : Visited cpufeatures segment text number validation) :
    validation.vstate.vttable.get (offsetAt text number) = false := by
  rw [Bool.eq_false_iff, Ne, visited.starts]
  intro landing
  exact Nat.lt_irrefl _ landing.lt_offsetAt

theorem Visiting.decode
    (visiting : Visiting cpufeatures segment text number state) :
    consumeNextInstruction state.2.memory state.1.mstate =
      instNth segment text number := by
  rw [consumeNextInstruction_eq _ (visiting.nextbyte.trans visiting.mpc.symm),
    visiting.mpc, visiting.vpc]
  unfold instNth placed
  congr 1
  exact instAt_congr (visiting.visited.agreeFrom.agreeOn _)

theorem instNth_mpc (segment : Segment) (text : Buffer) (number : Nat) :
    (instNth segment text number).mpc = offsetAt text number := by
  simp [instNth, placed, relocate, instAt_mpc]

theorem instNth_nextbyte (segment : Segment) (text : Buffer) (number : Nat) :
    (instNth segment text number).nextbyte = offsetAt text (number + 1) := by
  simp [instNth, placed, relocate, instAt_nextbyte, offsetAt_succ]

theorem instNth_newpc (segment : Segment) (text : Buffer) (number : Nat) :
    newpc (instNth segment text number) =
      wrap32 (segment.base + offsetAt text (number + 1) : Nat) := by
  simp [newpc, instNth, placed, relocate, offsetAt_succ, Int.add_assoc]

theorem Visiting.instAllowed_iff
    (visiting : Visiting cpufeatures segment text number state) :
    InstAllowed state.2.vstate.bounds state.2.memory
        (previousNth segment text number) (instNth segment text number) ↔
      InstAllowed segment.bounds text (previousNth segment text number)
        (instNth segment text number) := by
  rw [visiting.visited.configured.bounds]
  apply instAllowed_congr visiting.visited.agreeFrom
  rw [visiting.visited.memory]
  exact isNaclJmp_stubbed cpufeatures segment text number

theorem Visiting.turn_eq
    (visiting : Visiting cpufeatures segment text number state)
    (before : offsetAt text number < segment.size) :
    validateTurn segment state =
      let buffer := state.1.setCurrent (instNth segment text number)
      let counted := validatorStats.internalError^[
        (instNth segment text number).internalErrors] state.2
      if wrap32 (segment.base + offsetAt text (number + 1) : Nat) >
          segment.base + segment.size then
        .leave (counted.tally statsSegFault)
      else
        .again (incrementDecodeBuffer buffer, validateInst buffer counted) := by
  have more : state.1.mstate.vpc < segment.base + segment.size := by
    rw [visiting.vpc]
    omega
  unfold validateTurn decodeSegmentTurn
  simp only [if_pos more, visiting.decode, instNth_newpc]
  rfl

private theorem Visiting.records
    (visiting : Visiting cpufeatures segment text number state)
    (before : offsetAt text number < segment.size)
    (allowed : InstAllowed segment.bounds text
      (previousNth segment text number) (instNth segment text number)) :
    Records state.2
      (validateInst (state.1.setCurrent (instNth segment text number)) state.2)
      (instNth segment text number) := by
  have current := mstate_setCurrent state.1 (instNth segment text number)
  have configured := visiting.visited.configured
  have records := validateInst_records
    (state.1.setCurrent (instNth segment text number)) state.2
  rw [current, previousInst_setCurrent, visiting.previous] at records
  apply records
  · exact directShape_congr visiting.visited.agreeFrom
  · rw [configured.bounds]
    simp only [instNth, placed_inst_vaddr]
    exact ⟨Nat.le_add_right _ _, Nat.add_lt_add_left before _⟩
  · rw [configured.iadrbase]
    simp only [instNth, placed_inst_vaddr, Nat.add_sub_cancel_left]
    exact visiting.visited.fresh
  · exact visiting.instAllowed_iff.mpr allowed

private theorem get_startTable
    (vstate : NCValidatorState) (mstate : NCDecoderState) (offset : Nat)
    (fresh : vstate.vttable.get (mstate.inst.vaddr - vstate.iadrbase) = false) :
    (startTable vstate mstate).get offset = true ↔
      vstate.vttable.get offset = true ∨
        (mstate.inst.vaddr - vstate.iadrbase = offset ∧
          mstate.opinfo.insttype ≠ .indirect) := by
  unfold startTable
  simp only
  generalize mstate.inst.vaddr - vstate.iadrbase = own at fresh ⊢
  split_ifs with indirect
  · rw [AddressTable.get_clear, AddressTable.get_set]
    by_cases same : own = offset
    · subst same
      simp [fresh, indirect]
    · simp [same]
  · rw [AddressTable.get_set]
    simp [indirect, or_comm]

private theorem get_targetTable
    (vstate : NCValidatorState) (memory : Buffer) (mstate : NCDecoderState)
    (offset : Nat) :
    (targetTable vstate memory mstate).get offset = true ↔
      vstate.kttable.get offset = true ∨
        ∃ target, directTarget mstate memory = some target ∧
          vstate.bounds.Contains target ∧
          target - vstate.iadrbase = offset := by
  unfold targetTable
  cases directTarget mstate memory with
  | none => simp
  | some target =>
      simp only [Option.some.injEq, exists_eq_left']
      split_ifs with contained
      · rw [AddressTable.get_set]
        simp [contained, or_comm]
      · simp [contained]

private theorem Visited.succ
    {before after : Validation}
    (visited : Visited cpufeatures segment text number before)
    (decoded : (instNth segment text number).internalErrors = 0)
    (ends : offsetAt text (number + 1) ≤ segment.size)
    (allowed : InstAllowed segment.bounds text
      (previousNth segment text number) (instNth segment text number))
    (records : Records before after (instNth segment text number)) :
    Visited cpufeatures segment text (number + 1) after where
  configured := visited.configured.of_same records.config
  clean := records.sawfailure.trans visited.clean
  inside := ends
  starts := by
    intro offset
    have own : (instNth segment text number).inst.vaddr -
        before.vstate.iadrbase = offsetAt text number := by
      rw [visited.configured.iadrbase]
      simp only [instNth, placed_inst_vaddr, Nat.add_sub_cancel_left]
    rw [records.starts, get_startTable, landing_succ, visited.starts, own]
    · refine or_congr_right (and_congr_right ?_)
      rintro rfl
      exact Iff.rfl
    · rw [own]
      exact visited.fresh
  targets := by
    intro offset
    rw [records.targets, get_targetTable, visited.targets,
      visited.configured.bounds, visited.configured.iadrbase, instNth,
      directTarget_congr visited.agreeFrom, ← instNth]
    constructor
    · rintro (⟨earlier, small, rest⟩ | found)
      · exact ⟨earlier, by omega, rest⟩
      · exact ⟨number, Nat.lt_succ_self number, found⟩
    · rintro ⟨earlier, small, rest⟩
      rcases Nat.lt_succ_iff_lt_or_eq.mp small with before | rfl
      · exact .inl ⟨earlier, before, rest⟩
      · exact .inr rest
  memory := by
    rw [records.memory, visited.configured.cpufeatures, instNth,
      squashes_congr cpufeatures visited.agreeFrom, visited.memory,
      placed_inst_maddr]
    rfl
  decoded := by
    intro earlier small
    rcases Nat.lt_succ_iff_lt_or_eq.mp small with before | rfl
    · exact visited.decoded earlier before
    · exact decoded
  allowed := by
    intro earlier small
    rcases Nat.lt_succ_iff_lt_or_eq.mp small with before | rfl
    · exact visited.allowed earlier before
    · exact allowed

theorem Visiting.step_ok
    (visiting : Visiting cpufeatures segment text number state)
    (decoded : (instNth segment text number).internalErrors = 0)
    (ends : offsetAt text (number + 1) ≤ segment.size)
    (allowed : InstAllowed segment.bounds text
      (previousNth segment text number) (instNth segment text number)) :
    Visiting cpufeatures segment text (number + 1)
      (incrementDecodeBuffer
          (state.1.setCurrent (instNth segment text number)),
        validateInst (state.1.setCurrent (instNth segment text number))
          state.2) := by
  have forward : offsetAt text number < offsetAt text (number + 1) :=
    offsetAt_strictMono text (Nat.lt_succ_self number)
  have current := mstate_setCurrent state.1 (instNth segment text number)
  refine ⟨visiting.visited.succ decoded ends allowed
    (visiting.records (by omega) allowed), ?_, ?_, ?_, ?_⟩
  · simp only [mstate_increment, current, instNth_mpc]
    rfl
  · simp only [mstate_increment, current, instNth_nextbyte]
  · simp only [mstate_increment, current, instNth_newpc]
    have fits := segment.fits
    exact wrap32_of_lt (by omega)
  · simp only [previousInst_increment, current]
    rfl

theorem Visiting.turn_ok
    (visiting : Visiting cpufeatures segment text number state)
    (decoded : (instNth segment text number).internalErrors = 0)
    (ends : offsetAt text (number + 1) ≤ segment.size)
    (allowed : InstAllowed segment.bounds text
      (previousNth segment text number) (instNth segment text number)) :
    ∃ next, validateTurn segment state = .again next ∧
      Visiting cpufeatures segment text (number + 1) next := by
  have forward : offsetAt text number < offsetAt text (number + 1) :=
    offsetAt_strictMono text (Nat.lt_succ_self number)
  have exactly : wrap32 (segment.base + offsetAt text (number + 1) : Nat) =
      segment.base + offsetAt text (number + 1) := by
    have fits := segment.fits
    exact wrap32_of_lt (by omega)
  refine ⟨_, ?_, visiting.step_ok decoded ends allowed⟩
  rw [visiting.turn_eq (by omega), exactly]
  simp only
  rw [if_neg (by omega), decoded]
  rfl

/-! ## Turns that fail -/

def outcome : Turn (DecodeBuffer × Validation) Validation → Validation
  | .again next => next.2
  | .leave result => result

theorem internalErrors_keeps (errors : Nat) (validation : Validation) :
    Keeps validation.vstate
      (validatorStats.internalError^[errors] validation).vstate := by
  induction errors generalizing validation with
  | zero => exact .refl _
  | succ errors ih =>
      rw [Function.iterate_succ_apply]
      have first : Keeps validation.vstate
          (validatorStats.internalError validation).vstate :=
        keeps_tally fails_statsInternalError.tallies _
      exact first.trans (ih _)

theorem internalErrors_fails {errors : Nat} (some : errors ≠ 0)
    (validation : Validation) :
    (validatorStats.internalError^[errors] validation).vstate.Failed := by
  cases errors with
  | zero => exact (some rfl).elim
  | succ errors =>
      rw [Function.iterate_succ_apply]
      exact (internalErrors_keeps errors _).failed
        (failed_tally fails_statsInternalError _)

theorem validateTurn_keeps
    (segment : Segment) (state : DecodeBuffer × Validation) :
    Keeps state.2.vstate (outcome (validateTurn segment state)).vstate := by
  unfold validateTurn decodeSegmentTurn
  simp only
  split_ifs
  · exact (internalErrors_keeps _ _).trans
      (keeps_tally fails_statsSegFault.tallies _)
  · exact (internalErrors_keeps _ _).trans (validateInst_keeps _ _)
  · exact .refl _

structure Lost (segment : Segment) (state : DecodeBuffer × Validation) :
    Prop where
  iadrbase : state.2.vstate.iadrbase = segment.base
  below : state.1.mstate.vpc < segment.base
  fresh : state.1.mstate.nextbyte = state.1.mstate.mpc

theorem Lost.turn_fails (lost : Lost segment state) :
    (outcome (validateTurn segment state)).vstate.Failed := by
  have below := lost.below
  unfold validateTurn decodeSegmentTurn
  simp only
  rw [if_pos (by omega)]
  split_ifs
  · exact failed_tally fails_statsSegFault _
  · apply validateInst_fails_of_seen
    rw [mstate_setCurrent, consumeNextInstruction_eq _ lost.fresh]
    have base : (validatorStats.internalError^[
        (relocate state.1.mstate.mpc state.1.mstate.vpc
          (instAt state.2.memory state.1.mstate.mpc)).internalErrors]
        state.2).vstate.bounds.base = segment.base :=
      (internalErrors_keeps _ _).config.iadrbase.trans lost.iadrbase
    rintro ⟨⟨above, -⟩, -⟩
    rw [base] at above
    exact Nat.not_lt.mpr above below

theorem InstAllowed.prefixbytes_le
    {bounds : Bounds} {memory : Buffer} {andinst mstate : NCDecoderState}
    (allowed : InstAllowed bounds memory andinst mstate) :
    mstate.inst.prefixbytes ≤ 2 := by
  have prefixes := allowed.prefixes
  unfold prefixAllowed at prefixes
  split_ifs at prefixes with none one escape lock two
  all_goals simp only [kMaxValidPrefixBytes] at *; omega

private theorem newpc_wraps
    (room : segment.size + segment.alignment ≤ 2 ^ 32)
    (before : offsetAt text number < segment.size)
    (wraps : 2 ^ 32 ≤ segment.base + offsetAt text (number + 1))
    (allowed : InstAllowed segment.bounds text
      (previousNth segment text number) (instNth segment text number)) :
    wrap32 (segment.base + offsetAt text (number + 1) : Nat) <
      segment.base := by
  have fits := segment.fits
  have wide := segment.alignment_ge
  have prefixes := allowed.prefixbytes_le
  have length := allowed.length
  have next := offsetAt_succ text number
  simp only [instNth, placed_inst_length, placed_inst_prefixbytes,
    kMaxValidInstLength] at prefixes length
  have wrapped : wrap32 (segment.base + offsetAt text (number + 1) : Nat) =
      segment.base + offsetAt text (number + 1) - 2 ^ 32 := by
    unfold wrap32
    omega
  have base : segment.alignment ≤ segment.base := by
    apply Nat.le_of_dvd _ segment.aligned
    by_contra zero
    omega
  omega

theorem Visiting.step_forbidden
    (visiting : Visiting cpufeatures segment text number state)
    (forbidden : ¬ InstAllowed segment.bounds text
      (previousNth segment text number) (instNth segment text number)) :
    (validateInst (state.1.setCurrent (instNth segment text number))
      state.2).vstate.Failed := by
  have current := mstate_setCurrent state.1 (instNth segment text number)
  apply validateInst_fails_of_forbidden
  · rw [current]
    exact directShape_congr visiting.visited.agreeFrom
  · rw [current, previousInst_setCurrent, visiting.previous]
    exact fun permitted => forbidden (visiting.instAllowed_iff.mp permitted)

theorem Visiting.step_lost
    (visiting : Visiting cpufeatures segment text number state)
    (room : segment.size + segment.alignment ≤ 2 ^ 32)
    (before : offsetAt text number < segment.size)
    (wraps : 2 ^ 32 ≤ segment.base + offsetAt text (number + 1))
    (allowed : InstAllowed segment.bounds text
      (previousNth segment text number) (instNth segment text number)) :
    Lost segment
      (incrementDecodeBuffer
          (state.1.setCurrent (instNth segment text number)),
        validateInst (state.1.setCurrent (instNth segment text number))
          state.2) := by
  have current := mstate_setCurrent state.1 (instNth segment text number)
  refine ⟨?_, ?_, ?_⟩
  · exact (validateInst_keeps _ _).config.iadrbase.trans
      visiting.visited.configured.iadrbase
  · simp only [mstate_increment, current, instNth_newpc]
    exact newpc_wraps room before wraps allowed
  · simp only [mstate_increment, current, instNth_nextbyte, instNth_mpc]
    rfl

theorem Visiting.turn_bad
    (visiting : Visiting cpufeatures segment text number state)
    (room : segment.size + segment.alignment ≤ 2 ^ 32)
    (before : offsetAt text number < segment.size)
    (bad : ¬ ((instNth segment text number).internalErrors = 0 ∧
      offsetAt text (number + 1) ≤ segment.size ∧
      InstAllowed segment.bounds text
        (previousNth segment text number) (instNth segment text number))) :
    (outcome (validateTurn segment state)).vstate.Failed ∨
      ∃ next, validateTurn segment state = .again next ∧
        Lost segment next := by
  rw [visiting.turn_eq before]
  simp only
  split_ifs with past
  · exact .inl (failed_tally fails_statsSegFault _)
  · by_cases decoded : (instNth segment text number).internalErrors = 0
    swap
    · exact .inl ((validateInst_keeps _ _).failed
        (internalErrors_fails decoded _))
    rw [decoded]
    by_cases allowed : InstAllowed segment.bounds text
        (previousNth segment text number) (instNth segment text number)
    swap
    · exact .inl (visiting.step_forbidden allowed)
    have wraps : 2 ^ 32 ≤ segment.base + offsetAt text (number + 1) := by
      by_contra small
      have exactly := wrap32_of_lt (Nat.not_le.mp small)
      exact bad ⟨decoded, by omega, allowed⟩
    exact .inr ⟨_, rfl, visiting.step_lost room before wraps allowed⟩

theorem Visiting.turn_end
    (visiting : Visiting cpufeatures segment text number state)
    (all : offsetAt text number = segment.size) :
    validateTurn segment state = .leave state.2 := by
  unfold validateTurn decodeSegmentTurn
  simp only
  rw [visiting.vpc, all, if_neg (Nat.lt_irrefl _)]

/-! ## Whole runs -/

def Progress (cpufeatures : CPUFeatures) (segment : Segment) (text : Buffer)
    (state : DecodeBuffer × Validation) : Prop :=
  state.2.vstate.Failed ∨ Lost segment state ∨
    ∃ number, Visiting cpufeatures segment text number state

private theorem Progress.turn
    (room : segment.size + segment.alignment ≤ 2 ^ 32)
    (progress : Progress cpufeatures segment text state) :
    (outcome (validateTurn segment state)).vstate.Failed ∨
      (∃ next, validateTurn segment state = .again next ∧
        Progress cpufeatures segment text next) ∨
      ∃ count, validateTurn segment state = .leave state.2 ∧
        offsetAt text count = segment.size ∧
        Visited cpufeatures segment text count state.2 := by
  rcases progress with failed | lost | ⟨number, visiting⟩
  · exact .inl ((validateTurn_keeps segment state).failed failed)
  · exact .inl lost.turn_fails
  · rcases Nat.lt_or_eq_of_le visiting.visited.inside with before | all
    · by_cases good : (instNth segment text number).internalErrors = 0 ∧
        offsetAt text (number + 1) ≤ segment.size ∧
        InstAllowed segment.bounds text
          (previousNth segment text number) (instNth segment text number)
      · obtain ⟨decoded, ends, allowed⟩ := good
        obtain ⟨next, action, visited⟩ :=
          visiting.turn_ok decoded ends allowed
        exact .inr (.inl ⟨next, action, .inr (.inr ⟨number + 1, visited⟩)⟩)
      · rcases visiting.turn_bad room before good with
          failed | ⟨next, action, lost⟩
        · exact .inl failed
        · exact .inr (.inl ⟨next, action, .inr (.inl lost)⟩)
    · exact .inr (.inr ⟨number, visiting.turn_end all, all, visiting.visited⟩)

theorem run_failed_or_visited
    (room : segment.size + segment.alignment ≤ 2 ^ 32)
    (progress : Progress cpufeatures segment text state)
    {result : Validation}
    (returned : Returns (validateTurn segment) state result) :
    result.vstate.Failed ∨
      ∃ count, offsetAt text count = segment.size ∧
        Visited cpufeatures segment text count result := by
  refine Returns.invariant (Progress cpufeatures segment text)
    (fun value => value.vstate.Failed ∨
      ∃ count, offsetAt text count = segment.size ∧
        Visited cpufeatures segment text count value) ?_ ?_ progress returned
  · intro current next holds action
    rcases holds.turn room with failed | ⟨other, same, kept⟩ |
      ⟨count, same, -⟩
    · rw [action] at failed
      exact .inl failed
    · rw [action] at same
      cases same
      exact kept
    · rw [action] at same
      cases same
  · intro current value holds action
    rcases holds.turn room with failed | ⟨other, same, -⟩ |
      ⟨count, same, all, visited⟩
    · rw [action] at failed
      exact .inl failed
    · rw [action] at same
      cases same
    · rw [action] at same
      cases same
      exact .inr ⟨count, all, visited⟩

theorem run_visits
    {count : Nat}
    (all : offsetAt text count = segment.size)
    (decoded : ∀ number < count,
      (instNth segment text number).internalErrors = 0)
    (allowed : ∀ number < count,
      InstAllowed segment.bounds text (previousNth segment text number)
        (instNth segment text number))
    (visiting : Visiting cpufeatures segment text number state)
    (inside : number ≤ count) :
    ∃ result, Returns (validateTurn segment) state result ∧
      Visited cpufeatures segment text count result := by
  induction left : count - number generalizing number state with
  | zero =>
      obtain rfl : number = count := by omega
      exact ⟨state.2, (returns_leave (visiting.turn_end all)).mpr rfl,
        visiting.visited⟩
  | succ left ih =>
      have small : number < count := by omega
      have ends : offsetAt text (number + 1) ≤ segment.size := by
        rw [← all]
        exact (offsetAt_strictMono text).monotone small
      obtain ⟨next, action, visitingNext⟩ :=
        visiting.turn_ok (decoded number small) ends (allowed number small)
      obtain ⟨result, returned, visited⟩ :=
        ih visitingNext small (by omega)
      exact ⟨result, (returns_again action).mpr returned, visited⟩

end Turns

end NativeClient.Validator32
