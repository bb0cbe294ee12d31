import NativeClient.Validator32.Acceptance

/-!
# The sandbox

What an accepted segment promises to the runtime, whatever its bytes were, and
that the promise depends on those bytes alone.
-/

namespace NativeClient.Validator32

open NativeClient.Library
open NativeClient.Decoder

/-- `and $mask, %reg` at an offset, and `jmp *%reg` or `call *%reg` right after
it, in one bundle. -/
structure GuardedJump (segment : Segment) (text : Buffer) (offset : Nat) :
    Prop where
  unprefixedGuard : (instAt text offset).inst.prefixbytes = 0
  unprefixedJump : (instAt text (offset + 3)).inst.prefixbytes = 0
  jump : text (offset + 3) = 0xff
  transfer : modrmReg (text (offset + 4)) = 2 ∨ modrmReg (text (offset + 4)) = 4
  registerForm : modrmMod (text (offset + 4)) = 3
  notESP : modrmRm (text (offset + 4)) ≠ kRegESP
  guard : text offset = 0x83
  sameRegister : (text (offset + 1)).toNat =
    0xe0 ||| modrmRm (text (offset + 4))
  mask : (text (offset + 2)).toNat = 0x100 - segment.alignment
  sameBundle : (segment.base + offset) / segment.alignment =
    (segment.base + (offset + 4)) / segment.alignment

/-- The guarantees for a text whose sequential decode has `count`
instructions. -/
structure Sandboxed (segment : Segment) (text : Buffer) (count : Nat) :
    Prop where
  tiles : offsetAt text count = segment.size
  inside : ∀ number < count,
    offsetAt text number + (instAt text (offsetAt text number)).inst.length ≤
      segment.size
  bundled : ∀ number < count,
    (segment.base + offsetAt text number) / segment.alignment =
      (segment.base + (offsetAt text (number + 1) - 1)) / segment.alignment
  blocks : ∀ address, segment.bounds.Contains address →
    segment.alignment ∣ address →
    Landing text count (address - segment.base)
  targets : ∀ number < count,
    ∀ target ∈ directTarget (instNth segment text number) text,
      if segment.bounds.Contains target then
        Landing text count (target - segment.base)
      else
        segment.alignment ∣ target
  guarded : ∀ number < count,
    (instAt text (offsetAt text number)).opinfo.insttype = .indirect →
    ∃ previous, number = previous + 1 ∧
      offsetAt text number = offsetAt text previous + 3 ∧
      GuardedJump segment text (offsetAt text previous)

theorem div_eq_of_no_multiple
    {step low high : Nat} (positive : 0 < step) (ordered : low ≤ high)
    (none : ∀ middle, low < middle → middle ≤ high → ¬ step ∣ middle) :
    low / step = high / step := by
  by_contra different
  have less : low / step < high / step :=
    Nat.lt_of_le_of_ne (Nat.div_le_div_right ordered) different
  refine none (step * (high / step)) ?_ (Nat.mul_div_le high step)
    (Nat.dvd_mul_right _ _)
  calc low < step * (low / step + 1) := Nat.lt_mul_div_succ low positive
    _ ≤ step * (high / step) := Nat.mul_le_mul_left step less

section Valid

variable {segment : Segment} {text : Buffer} {count : Nat}

variable (valid : ValidSegment segment text count)

include valid

private theorem ValidSegment.not_dvd
    {number offset : Nat}
    (small : number < count)
    (low : offsetAt text number < offset)
    (high : offset < offsetAt text (number + 1)) :
    ¬ segment.alignment ∣ segment.base + offset := by
  intro divides
  have ends : offsetAt text (number + 1) ≤ segment.size := by
    rw [← valid.tiles]
    exact (offsetAt_strictMono text).monotone small
  obtain ⟨other, -, rfl, -⟩ := valid.blocks offset (by omega)
    ((Nat.dvd_add_right segment.aligned).mp divides)
  have above := offsetAt_lt_iff.mp low
  have below := offsetAt_lt_iff.mp high
  omega

private theorem ValidSegment.not_dvd_indirect
    {number : Nat}
    (small : number < count)
    (indirect :
      (instAt text (offsetAt text number)).opinfo.insttype = .indirect) :
    ¬ segment.alignment ∣ segment.base + offsetAt text number := by
  intro divides
  obtain ⟨other, -, -, direct⟩ := valid.blocks (offsetAt text number) (by
      rw [← valid.tiles]
      exact offsetAt_lt_iff.mpr small)
    ((Nat.dvd_add_right segment.aligned).mp divides)
  exact direct indirect

private theorem ValidSegment.bundled
    {number : Nat}
    (small : number < count) :
    (segment.base + offsetAt text number) / segment.alignment =
      (segment.base + (offsetAt text (number + 1) - 1)) /
        segment.alignment := by
  have forward : offsetAt text number < offsetAt text (number + 1) :=
    offsetAt_strictMono text (Nat.lt_succ_self number)
  have wide := segment.alignment_ge
  apply div_eq_of_no_multiple (by omega) (by omega)
  intro middle low high
  obtain ⟨offset, rfl⟩ := Nat.exists_eq_add_of_le
    (Nat.le_of_lt (Nat.lt_of_le_of_lt (Nat.le_add_right segment.base _) low))
  exact valid.not_dvd small (by omega) (by omega)

private theorem ValidSegment.guardedJump
    {previous : Nat}
    (small : previous + 1 < count)
    (indirect :
      (instAt text (offsetAt text (previous + 1))).opinfo.insttype =
        .indirect) :
    offsetAt text (previous + 1) = offsetAt text previous + 3 ∧
      GuardedJump segment text (offsetAt text previous) := by
  have type := (valid.allowed (previous + 1) small).type
  unfold TypeAllowed at type
  simp only [instNth, placed_opinfo, treatment_indirect.mpr indirect] at type
  have naclJmp := type.2.1
  have length := (isNaclJmp_andinst naclJmp).1
  have place : offsetAt text (previous + 1) = offsetAt text previous + 3 := by
    rw [offsetAt_succ, length]
  simp only [isNaclJmp, previousNth, instNth, placed_inst_prefixbytes,
    placed_inst_maddr, place] at naclJmp
  obtain ⟨jumpPrefix, guardPrefix, jump, transfer, form, register, guard,
    sameRegister, mask⟩ := naclJmp
  refine ⟨place, guardPrefix, jumpPrefix, jump, transfer, form, register,
    guard, sameRegister, ?_, ?_⟩
  · rw [mask]
    change bundleMask (segment.alignment - 1) = _
    rcases segment.bundle with same | same
    · rw [same]
      decide
    · rw [same]
      decide
  · have long := instAt_indirect indirect
    have end2 := offsetAt_succ text (previous + 1)
    have wide := segment.alignment_ge
    apply div_eq_of_no_multiple (by omega) (by omega)
    intro middle low high
    obtain ⟨offset, rfl⟩ := Nat.exists_eq_add_of_le
      (Nat.le_of_lt (Nat.lt_of_le_of_lt (Nat.le_add_right segment.base _) low))
    rcases Nat.lt_trichotomy offset (offsetAt text (previous + 1)) with
      before | rfl | after
    · exact valid.not_dvd (by omega) (by omega) before
    · exact valid.not_dvd_indirect small indirect
    · exact valid.not_dvd small after (by omega)

theorem ValidSegment.sandboxed :
    Sandboxed segment text count where
  tiles := valid.tiles
  inside := by
    intro number small
    rw [← offsetAt_succ, ← valid.tiles]
    exact (offsetAt_strictMono text).monotone small
  bundled := fun number small => valid.bundled small
  blocks := by
    intro address contained divides
    unfold Bounds.Contains Segment.bounds at contained
    simp only at contained
    exact valid.blocks _ (by omega) (Nat.dvd_sub divides segment.aligned)
  targets := by
    intro number small target named
    split_ifs with contained
    · exact valid.targets number small target named contained
    · rw [← segment.aligned_iff]
      exact ((valid.allowed number small).target named).resolve_left contained
  guarded := by
    intro number small indirect
    cases number with
    | zero =>
        have type := (valid.allowed 0 small).type
        unfold TypeAllowed at type
        simp only [instNth, placed_opinfo, treatment_indirect.mpr indirect]
          at type
        exact (type.1 rfl).elim
    | succ previous => exact ⟨previous, rfl, valid.guardedJump small indirect⟩

end Valid

/-! ## Accepted segments -/

section Accepted

variable {cpufeatures : CPUFeatures} {vbase vlimit : UInt32}
  {alignment : UInt8} {text text' final final' : Buffer} {verdict : Nat}

/-- Every segment that the validator accepts is sandboxed, both as it was and as
the validator left it. -/
theorem validates_sandboxed
    (accepted : Validates cpufeatures vbase vlimit alignment text 0 final) :
    ∃ segment, Describes segment vbase vlimit alignment ∧
      (∃ count, Sandboxed segment text count) ∧
      ∃ count, Sandboxed segment final count := by
  obtain ⟨-, segment, describes, count, valid, rfl⟩ := accepts_iff.mp accepted
  obtain ⟨finalCount, finalValid, -⟩ := valid.stubbed_valid cpufeatures
  exact ⟨segment, describes, ⟨count, valid.sandboxed⟩,
    ⟨finalCount, finalValid.sandboxed⟩⟩

theorem exists_validates
    (fuel : Nat)
    (run : (do
      let vstate ← ncValidateInit vbase vlimit alignment
      let validation ← ncValidateSegment cpufeatures vbase.toNat
        (vlimit.toNat - vbase.toNat) ⟨text, vstate⟩ fuel
      ncValidateFinish (some validation.vstate) fuel) = some verdict) :
    ∃ final, Validates cpufeatures vbase vlimit alignment text verdict final := by
  simp only [Option.bind_eq_bind, Option.bind_eq_some_iff] at run
  obtain ⟨vstate, init, validation, segment, finish⟩ := run
  exact ⟨validation.memory, vstate, init, fuel, validation, segment, rfl, finish⟩

/-- One bundle with a guarded jump in it. -/
theorem validates_sandboxed_nacljmp :
    let text := Buffer.ofList
      ([0x83, 0xe0, 0xf0, 0xff, 0xe0] ++ List.replicate 11 0x90)
    ∃ final, Validates { f386 := true } 0x10000 0x10010 16 text 0 final ∧
      ∃ segment, Describes segment 0x10000 0x10010 16 ∧
        (∃ count, Sandboxed segment text count) ∧
        ∃ count, Sandboxed segment final count := by
  intro text
  have accepted : ∃ final,
      Validates { f386 := true } 0x10000 0x10010 16 text 0 final :=
    exists_validates 20 (by decide +kernel)
  obtain ⟨final, validates⟩ := accepted
  exact ⟨final, validates, validates_sandboxed validates⟩

/-! ## The verdict depends on the segment only -/

theorem Validates.verdict_cases
    (validates :
      Validates cpufeatures vbase vlimit alignment text verdict final) :
    verdict = 0 ∨ verdict = 1 := by
  obtain ⟨segment, describes⟩ := validates.describes
  by_cases implemented : cpufeatures.f386 = true
  · obtain ⟨result, returned, -, finishes⟩ :=
      (validates_iff_returns describes implemented).mp validates
    have start := startState_visiting cpufeatures segment text
    have keeps := run_keeps returned
    have configured := start.visited.configured.of_same keeps.config
    obtain ⟨other, otherFinishes, flag, -⟩ :=
      configured.finishes (configured.room finishes)
    rw [finishes.unique otherFinishes]
    rcases flag with failed | same
    · exact .inr failed
    · rw [same]
      rcases keeps.flag with failed | clean
      · exact .inr failed
      · exact .inl (clean.trans start.visited.clean)
  · rw [Bool.not_eq_true] at implemented
    obtain ⟨-, finishes⟩ :=
      (validates_without_cpuid describes implemented).mp validates
    have configured : Configured cpufeatures segment
        ({ initState segment with
          cpufeatures := cpufeatures }.tally statsBadCPU) :=
      ⟨rfl, rfl, rfl, rfl, rfl⟩
    exact .inr (configured.rejects rfl finishes)

theorem Validates.verdict_unique {verdict' : Nat}
    (left : Validates cpufeatures vbase vlimit alignment text verdict final)
    (right :
      Validates cpufeatures vbase vlimit alignment text verdict' final') :
    verdict = verdict' := by
  obtain ⟨segment, describes⟩ := left.describes
  by_cases implemented : cpufeatures.f386 = true
  · rw [validates_iff_returns describes implemented] at left right
    obtain ⟨result, returned, -, finishes⟩ := left
    obtain ⟨result', returned', -, finishes'⟩ := right
    obtain rfl := returned.unique returned'
    exact finishes.unique finishes'
  · rw [Bool.not_eq_true] at implemented
    rw [validates_without_cpuid describes implemented] at left right
    exact left.2.unique right.2

theorem Validates.accepts_congr
    (agree : text.AgreeOn text' 0 (vlimit.toNat - vbase.toNat))
    (accepted : Validates cpufeatures vbase vlimit alignment text 0 final) :
    ∃ final', Validates cpufeatures vbase vlimit alignment text' 0 final' := by
  obtain ⟨implemented, segment, describes, count, valid, -⟩ :=
    accepts_iff.mp accepted
  have size : vlimit.toNat - vbase.toNat = segment.size := by
    rw [← describes.limit, describes.base, Nat.add_sub_cancel_left]
  rw [size] at agree
  obtain ⟨otherCount, otherValid, -⟩ := (valid.layout.congr agree).validSegment
  exact ⟨_, accepts_iff.mpr
    ⟨implemented, segment, describes, otherCount, otherValid, rfl⟩⟩

private theorem validateTurn_advances
    {segment : Segment} {state next : DecodeBuffer × Validation}
    (room : segment.base + segment.size + 32 ≤ 2 ^ 32)
    (fresh : state.1.mstate.nextbyte = state.1.mstate.mpc)
    (action : validateTurn segment state = .again next) :
    next.1.mstate.nextbyte = next.1.mstate.mpc ∧
      state.1.mstate.vpc < next.1.mstate.vpc ∧
      next.1.mstate.vpc ≤ segment.base + segment.size := by
  unfold validateTurn decodeSegmentTurn at action
  simp only [consumeNextInstruction_eq _ fresh] at action
  split_ifs at action with more past
  cases action
  simp only [mstate_increment, mstate_setCurrent]
  have positive := instAt_length_pos state.2.memory state.1.mstate.mpc
  have prefixes := instAt_prefixbytes_le state.2.memory state.1.mstate.mpc
  have short := instAt_length_le state.2.memory state.1.mstate.mpc
  have newpcEq : newpc (relocate state.1.mstate.mpc state.1.mstate.vpc
      (instAt state.2.memory state.1.mstate.mpc)) =
      state.1.mstate.vpc +
        (instAt state.2.memory state.1.mstate.mpc).inst.length := by
    unfold newpc
    have small : state.1.mstate.vpc +
        (instAt state.2.memory state.1.mstate.mpc).inst.length < 2 ^ 32 := by
      omega
    exact wrap32_of_lt small
  rw [newpcEq] at past ⊢
  refine ⟨?_, by omega, by omega⟩
  simp [relocate, instAt_nextbyte, instAt_mpc]

private theorem run_returns
    (cpufeatures : CPUFeatures) (segment : Segment) (text : Buffer)
    (room : segment.base + segment.size + 32 ≤ 2 ^ 32) :
    ∃ result, Returns (validateTurn segment)
      (startState cpufeatures segment text) result := by
  let inside (state : DecodeBuffer × Validation) :=
    state.1.mstate.nextbyte = state.1.mstate.mpc ∧
      state.1.mstate.vpc ≤ segment.base + segment.size
  have start : inside (startState cpufeatures segment text) :=
    ⟨rfl, Nat.le_add_right _ _⟩
  refine returns_of_measure inside
    (fun state => segment.base + segment.size - state.1.mstate.vpc) ?_ start
  rintro state next ⟨fresh, -⟩ action
  obtain ⟨nextFresh, forward, nextInside⟩ :=
    validateTurn_advances room fresh action
  exact ⟨⟨nextFresh, nextInside⟩, by omega⟩

theorem validates_total
    {segment : Segment} (describes : Describes segment vbase vlimit alignment)
    (room : vlimit.toNat + 32 ≤ 2 ^ 32)
    (cpufeatures : CPUFeatures) (text : Buffer) :
    ∃ verdict final,
      Validates cpufeatures vbase vlimit alignment text verdict final := by
  rw [← describes.limit] at room
  have narrow : segment.alignment ≤ 32 := by
    rcases segment.bundle with same | same <;> omega
  have start := startState_visiting cpufeatures segment text
  by_cases implemented : cpufeatures.f386 = true
  · obtain ⟨result, returned⟩ := run_returns cpufeatures segment text room
    have configured := start.visited.configured.of_same
      (run_keeps returned).config
    obtain ⟨verdict, finishes, -⟩ := configured.finishes (by omega)
    exact ⟨verdict, result.memory, (validates_iff_returns describes
      implemented).mpr ⟨result, returned, rfl, finishes⟩⟩
  · rw [Bool.not_eq_true] at implemented
    have configured : Configured cpufeatures segment
        ({ initState segment with
          cpufeatures := cpufeatures }.tally statsBadCPU) :=
      ⟨rfl, rfl, rfl, rfl, rfl⟩
    obtain ⟨verdict, finishes, -⟩ := configured.finishes (by omega)
    exact ⟨verdict, text, (validates_without_cpuid describes implemented).mpr
      ⟨rfl, finishes⟩⟩

/-- Two memories that agree on the bytes of a segment get the same verdict on
it.  A verdict is missing only where an instruction could run past the end of
the address space. -/
theorem verdict_of_agreeOn
    (agree : text.AgreeOn text' 0 (vlimit.toNat - vbase.toNat)) :
    ((∃ final, Validates cpufeatures vbase vlimit alignment text 0 final) ↔
        ∃ final', Validates cpufeatures vbase vlimit alignment text' 0 final') ∧
      (∀ verdict verdict' final final',
        Validates cpufeatures vbase vlimit alignment text verdict final →
        Validates cpufeatures vbase vlimit alignment text' verdict' final' →
        verdict = verdict') ∧
      ((ncValidateInit vbase vlimit alignment).isSome →
        vlimit.toNat + 32 ≤ 2 ^ 32 →
        ∃ verdict,
          (∃ final,
            Validates cpufeatures vbase vlimit alignment text verdict final) ∧
          ∃ final',
            Validates cpufeatures vbase vlimit alignment text' verdict
              final') := by
  have accepts :
      (∃ final, Validates cpufeatures vbase vlimit alignment text 0 final) ↔
        ∃ final',
          Validates cpufeatures vbase vlimit alignment text' 0 final' := by
    constructor
    · rintro ⟨final, accepted⟩
      exact accepted.accepts_congr agree
    · rintro ⟨final, accepted⟩
      exact accepted.accepts_congr agree.symm
  have same : ∀ verdict verdict' final final',
      Validates cpufeatures vbase vlimit alignment text verdict final →
      Validates cpufeatures vbase vlimit alignment text' verdict' final' →
      verdict = verdict' := by
    intro verdict verdict' final final' left right
    rcases left.verdict_cases with rfl | rfl
    · obtain ⟨other, accepted⟩ := accepts.mp ⟨final, left⟩
      exact accepted.verdict_unique right
    · rcases right.verdict_cases with rfl | rfl
      · obtain ⟨other, accepted⟩ := accepts.mpr ⟨final', right⟩
        exact left.verdict_unique accepted
      · rfl
  refine ⟨accepts, same, ?_⟩
  intro init room
  obtain ⟨vstate, init⟩ := Option.isSome_iff_exists.mp init
  obtain ⟨segment, describes, -⟩ := describes_of_ncValidateInit init
  obtain ⟨verdict, final, left⟩ :=
    validates_total describes room cpufeatures text
  obtain ⟨verdict', final', right⟩ :=
    validates_total describes room cpufeatures text'
  have equal := same _ _ _ _ left right
  exact ⟨verdict, ⟨final, left⟩, final', by rwa [equal]⟩

/-- Sixteen `nop`, once followed by zeros and once by the start of a call. -/
theorem verdict_of_agreeOn_nops :
    let text := Buffer.ofList (List.replicate 16 0x90)
    let text' := Buffer.ofList (List.replicate 16 0x90 ++ [0xe8])
    text.AgreeOn text' 0 16 ∧ ¬ text.AgreeOn text' 0 17 ∧
      ((∃ final, Validates { f386 := true } 0x10000 0x10010 16 text 0 final) ↔
        ∃ final', Validates { f386 := true } 0x10000 0x10010 16 text' 0
          final') := by
  intro text text'
  have agree : text.AgreeOn text' 0 16 := by
    intro offset _ below
    interval_cases offset <;> rfl
  refine ⟨agree, ?_, (verdict_of_agreeOn agree).1⟩
  intro longer
  exact absurd (longer 16 (by decide) (by decide)) (by decide)

end Accepted

end NativeClient.Validator32
