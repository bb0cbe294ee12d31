import NativeClient.Validator32.FinalPass
import NativeClient.Validator32.LayoutChange

/-!
# What the 32 bit validator accepts

`NCValidateInit`, `NCValidateSegment` and `NCValidateFinish` return zero exactly
on the valid segments.
-/

namespace NativeClient.Validator32

open NativeClient.Library
open NativeClient.Decoder

/-! ## The start of a run -/

/-- The segment is the range given to `NCValidateInit`. -/
structure Describes (segment : Segment) (vbase vlimit : UInt32)
    (alignment : UInt8) : Prop where
  base : segment.base = vbase.toNat
  limit : segment.base + segment.size = vlimit.toNat
  alignment : segment.alignment = alignment.toNat

def initState (segment : Segment) : NCValidatorState where
  cpufeatures := {}
  iadrbase := segment.base
  iadrlimit := segment.base + segment.size
  alignment := segment.alignment
  alignmask := segment.alignment - 1
  stats := {}
  vttable := AddressTable.empty
  kttable := AddressTable.empty
  doStubOut := false

section Start

variable {vbase vlimit : UInt32} {alignment : UInt8} {segment : Segment}

theorem ncValidateInit_of_describes
    (describes : Describes segment vbase vlimit alignment) :
    ncValidateInit vbase vlimit alignment = some (initState segment) := by
  have nonempty := segment.nonempty
  have limit := describes.limit
  have base := describes.base
  have aligned := (segment.and_alignmask_eq_zero segment.base).mpr
    segment.aligned
  rw [describes.alignment, base] at aligned
  unfold ncValidateInit
  rw [if_neg, if_neg, if_neg]
  · unfold initState
    rw [limit, base, describes.alignment]
  · exact not_not.mpr aligned
  · rintro ⟨narrow, wide⟩
    rcases segment.bundle with same | same
    · rw [describes.alignment] at same
      exact narrow (UInt8.toNat_inj.mp same)
    · rw [describes.alignment] at same
      exact wide (UInt8.toNat_inj.mp same)
  · rw [UInt32.le_iff_toNat_le]
    omega

theorem describes_of_ncValidateInit
    {vstate : NCValidatorState}
    (init : ncValidateInit vbase vlimit alignment = some vstate) :
    ∃ segment, Describes segment vbase vlimit alignment ∧
      vstate = initState segment := by
  have result := init
  unfold ncValidateInit at result
  split_ifs at result with order bundle aligned
  rw [UInt32.le_iff_toNat_le, Nat.not_le] at order
  have bundleSize : alignment.toNat = 16 ∨ alignment.toNat = 32 := by
    by_cases narrow : alignment = 16
    · exact .inl (by rw [narrow]; rfl)
    · have wide : alignment = 32 := by
        by_contra other
        exact bundle ⟨narrow, other⟩
      exact .inr (by rw [wide]; rfl)
  have divides : alignment.toNat ∣ vbase.toNat := by
    rw [not_not] at aligned
    rcases bundleSize with same | same
    · rw [same] at aligned ⊢
      rw [Nat.dvd_iff_mod_eq_zero,
        ← Nat.and_two_pow_sub_one_eq_mod vbase.toNat 4]
      exact aligned
    · rw [same] at aligned ⊢
      rw [Nat.dvd_iff_mod_eq_zero,
        ← Nat.and_two_pow_sub_one_eq_mod vbase.toNat 5]
      exact aligned
  let segment : Segment :=
    { base := vbase.toNat
      size := vlimit.toNat - vbase.toNat
      alignment := alignment.toNat
      bundle := bundleSize
      aligned := divides
      nonempty := by omega
      fits := by
        have small := vlimit.toNat_lt
        omega }
  have describes : Describes segment vbase vlimit alignment :=
    ⟨rfl, Nat.add_sub_of_le (Nat.le_of_lt order), rfl⟩
  refine ⟨segment, describes, ?_⟩
  rw [ncValidateInit_of_describes describes] at init
  exact (Option.some.inj init).symm

end Start

def detected (doStubOut : Bool) (cpufeatures : CPUFeatures)
    (segment : Segment) : NCValidatorState :=
  { initState segment with cpufeatures := cpufeatures, doStubOut := doStubOut }

def startIn (doStubOut : Bool) (cpufeatures : CPUFeatures)
    (segment : Segment) (text : Buffer) : DecodeBuffer × Validation :=
  (initDecodeBuffer segment.base,
    validatorStats.newSegment ⟨text, detected doStubOut cpufeatures segment⟩)

def startState (cpufeatures : CPUFeatures) (segment : Segment)
    (text : Buffer) : DecodeBuffer × Validation :=
  (initDecodeBuffer segment.base,
    validatorStats.newSegment
      ⟨text, { initState segment with cpufeatures := cpufeatures }⟩)

theorem startIn_visiting
    (doStubOut : Bool) (cpufeatures : CPUFeatures) (segment : Segment)
    (text : Buffer) :
    Visiting cpufeatures segment text 0
      (startIn doStubOut cpufeatures segment text) where
  visited :=
    { configured := ⟨rfl, rfl, rfl, rfl, rfl⟩
      clean := rfl
      inside := Nat.zero_le _
      starts := by
        intro offset
        refine iff_of_false ?_ ?_
        · change ¬ AddressTable.empty.get offset = true
          simp [AddressTable.get_empty]
        · rintro ⟨number, none, -⟩
          omega
      targets := by
        intro offset
        refine iff_of_false ?_ ?_
        · change ¬ AddressTable.empty.get offset = true
          simp [AddressTable.get_empty]
        · rintro ⟨number, none, -⟩
          omega
      memory := rfl
      decoded := fun number none => by omega
      allowed := fun number none => by omega }
  mpc := rfl
  nextbyte := rfl
  vpc := rfl
  previous := by
    rw [previousInst_one]
    rfl

theorem startState_visiting
    (cpufeatures : CPUFeatures) (segment : Segment) (text : Buffer) :
    Visiting cpufeatures segment text 0
      (startState cpufeatures segment text) :=
  startIn_visiting false cpufeatures segment text

theorem ncDecodeSegment_eq
    (doStubOut : Bool) (cpufeatures : CPUFeatures) (segment : Segment)
    (text : Buffer) (fuel : Nat) :
    ncDecodeSegment Validation.memory validatorStats validateInst segment.base
        segment.size ⟨text, detected doStubOut cpufeatures segment⟩ fuel =
      runLoop (validateTurn segment) fuel
        (startIn doStubOut cpufeatures segment text) := by
  have limit : wrap32 (segment.base + segment.size : Nat) =
      segment.base + segment.size := wrap32_of_lt segment.fits
  unfold ncDecodeSegment validateTurn startIn
  rw [← limit]
  rfl

theorem run_keeps
    {segment : Segment} {state : DecodeBuffer × Validation}
    {result : Validation}
    (returned : Returns (validateTurn segment) state result) :
    Keeps state.2.vstate result.vstate := by
  refine Returns.invariant
    (fun current => Keeps state.2.vstate current.2.vstate)
    (fun value => Keeps state.2.vstate value.vstate) ?_ ?_
    (Keeps.refl state.2.vstate) returned
  · intro current next keeps action
    have turn := validateTurn_keeps segment current
    rw [action] at turn
    exact keeps.trans turn
  · intro current value keeps action
    have turn := validateTurn_keeps segment current
    rw [action] at turn
    exact keeps.trans turn

/-! ## The verdict -/

section Verdict

variable {doStubOut : Bool} {cpufeatures : CPUFeatures}
  {vbase vlimit : UInt32} {alignment : UInt8} {segment : Segment}
  {text final : Buffer} {verdict : Nat}

theorem ValidatesIn.describes
    (validates : ValidatesIn doStubOut cpufeatures vbase vlimit alignment text
      verdict final) :
    ∃ segment, Describes segment vbase vlimit alignment := by
  obtain ⟨vstate, init, -⟩ := validates
  obtain ⟨segment, describes, -⟩ := describes_of_ncValidateInit init
  exact ⟨segment, describes⟩

theorem validatesIn_iff_returns
    (describes : Describes segment vbase vlimit alignment)
    (implemented : cpufeatures.f386 = true) :
    ValidatesIn doStubOut cpufeatures vbase vlimit alignment text verdict
        final ↔
      ∃ result,
        Returns (validateTurn segment)
          (startIn doStubOut cpufeatures segment text) result ∧
        result.memory = final ∧ Finishes result.vstate verdict := by
  have size : vlimit.toNat - vbase.toNat = segment.size := by
    rw [← describes.limit, describes.base, Nat.add_sub_cancel_left]
  have nonempty : segment.size ≠ 0 := Nat.pos_iff_ne_zero.mp segment.nonempty
  have started (fuel : Nat) :
      ncValidateSegment cpufeatures vbase.toNat (vlimit.toNat - vbase.toNat)
          ⟨text, ncValidateSetStubOutMode (initState segment) doStubOut⟩ fuel =
        runLoop (validateTurn segment) fuel
          (startIn doStubOut cpufeatures segment text) := by
    rw [size, ← describes.base, ← ncDecodeSegment_eq]
    simp only [ncValidateSegment, ncValidateStart, if_neg nonempty, implemented,
      if_true]
    rfl
  unfold ValidatesIn
  rw [ncValidateInit_of_describes describes]
  simp only [Option.some.injEq, exists_eq_left', started]
  constructor
  · rintro ⟨fuel, result, run, memory, finish⟩
    exact ⟨result, ⟨fuel, run⟩, memory, fuel, finish⟩
  · rintro ⟨result, ⟨few, run⟩, memory, more, finish⟩
    exact ⟨max few more, result, runLoop_mono run (Nat.le_max_left few more),
      memory, Finishes.mono finish (Nat.le_max_right few more)⟩

theorem validatesIn_without_cpuid
    (describes : Describes segment vbase vlimit alignment)
    (missing : cpufeatures.f386 = false) :
    ValidatesIn doStubOut cpufeatures vbase vlimit alignment text verdict
        final ↔
      text = final ∧
        Finishes ((detected doStubOut cpufeatures segment).tally statsBadCPU)
          verdict := by
  have size : vlimit.toNat - vbase.toNat = segment.size := by
    rw [← describes.limit, describes.base, Nat.add_sub_cancel_left]
  have nonempty : segment.size ≠ 0 := Nat.pos_iff_ne_zero.mp segment.nonempty
  unfold ValidatesIn
  rw [ncValidateInit_of_describes describes, size]
  simp only [Option.some.injEq, exists_eq_left', ncValidateSegment,
    ncValidateStart, if_neg nonempty, missing, Bool.false_eq_true, if_false]
  constructor
  · rintro ⟨fuel, memory, finish⟩
    exact ⟨memory, fuel, finish⟩
  · rintro ⟨memory, fuel, finish⟩
    exact ⟨fuel, memory, finish⟩

theorem validates_iff_validatesIn :
    Validates cpufeatures vbase vlimit alignment text verdict final ↔
      ValidatesIn false cpufeatures vbase vlimit alignment text verdict
        final := by
  have off {vstate : NCValidatorState}
      (init : ncValidateInit vbase vlimit alignment = some vstate) :
      ncValidateSetStubOutMode vstate false = vstate := by
    obtain ⟨segment, -, rfl⟩ := describes_of_ncValidateInit init
    rfl
  constructor
  · rintro ⟨vstate, init, run⟩
    refine ⟨vstate, init, ?_⟩
    rwa [off init]
  · rintro ⟨vstate, init, run⟩
    rw [off init] at run
    exact ⟨vstate, init, run⟩

theorem Validates.describes
    (validates :
      Validates cpufeatures vbase vlimit alignment text verdict final) :
    ∃ segment, Describes segment vbase vlimit alignment :=
  (validates_iff_validatesIn.mp validates).describes

theorem validates_iff_returns
    (describes : Describes segment vbase vlimit alignment)
    (implemented : cpufeatures.f386 = true) :
    Validates cpufeatures vbase vlimit alignment text verdict final ↔
      ∃ result,
        Returns (validateTurn segment) (startState cpufeatures segment text)
          result ∧
        result.memory = final ∧ Finishes result.vstate verdict :=
  validates_iff_validatesIn.trans
    (validatesIn_iff_returns describes implemented)

theorem validates_without_cpuid
    (describes : Describes segment vbase vlimit alignment)
    (missing : cpufeatures.f386 = false) :
    Validates cpufeatures vbase vlimit alignment text verdict final ↔
      text = final ∧
        Finishes ({ initState segment with
          cpufeatures := cpufeatures }.tally statsBadCPU) verdict :=
  validates_iff_validatesIn.trans (validatesIn_without_cpuid describes missing)

theorem Configured.room
    {vstate : NCValidatorState}
    (configured : Configured cpufeatures segment vstate)
    (finishes : Finishes vstate verdict) :
    segment.size + segment.alignment ≤ 2 ^ 32 := by
  have size : vstate.size = segment.size := by
    rw [NCValidatorState.size, configured.iadrbase, configured.iadrlimit,
      Nat.add_sub_cancel_left]
  by_contra full
  refine not_finishes_of_full vstate ?_ ?_ verdict finishes
  · rw [configured.alignment]
    exact segment.bundle
  · rw [size, configured.alignment]
    omega

theorem Configured.finishes
    {vstate : NCValidatorState}
    (configured : Configured cpufeatures segment vstate)
    (room : segment.size + segment.alignment ≤ 2 ^ 32) :
    ∃ verdict, Finishes vstate verdict ∧
      (verdict = 1 ∨ verdict = vstate.stats.sawfailure) ∧
      (verdict = 0 ↔ vstate.stats.sawfailure = 0 ∧
        (∀ offset < segment.size, vstate.kttable.get offset = true →
          vstate.vttable.get offset = true) ∧
        ∀ offset < segment.size, segment.alignment ∣ offset →
          vstate.vttable.get offset = true) := by
  have size : vstate.size = segment.size := by
    rw [NCValidatorState.size, configured.iadrbase, configured.iadrlimit,
      Nat.add_sub_cancel_left]
  have spec := finishes_of_room vstate
  rw [configured.alignment, configured.iadrbase, configured.alignmask, size]
    at spec
  exact spec segment.bundle
    ((segment.and_alignmask_eq_zero segment.base).mpr segment.aligned) room

theorem Configured.rejects
    {vstate : NCValidatorState}
    (configured : Configured cpufeatures segment vstate)
    (failed : vstate.Failed) (finishes : Finishes vstate verdict) :
    verdict = 1 := by
  obtain ⟨other, otherFinishes, flag, -⟩ :=
    configured.finishes (configured.room finishes)
  rw [finishes.unique otherFinishes]
  exact flag.elim id fun same => same.trans failed

theorem Visited.accepts_iff
    {count : Nat} {validation : Validation}
    (visited : Visited cpufeatures segment text count validation)
    (tiles : offsetAt text count = segment.size) :
    Finishes validation.vstate 0 ↔ ValidSegment segment text count := by
  have landing (offset : Nat) := visited.starts offset
  constructor
  · intro finishes
    have room := visited.configured.room finishes
    obtain ⟨other, otherFinishes, -, clean⟩ := visited.configured.finishes room
    rw [← finishes.unique otherFinishes] at clean
    obtain ⟨-, targets, blocks⟩ := clean.mp rfl
    refine ⟨tiles, visited.decoded, visited.allowed, ?_, ?_, room⟩
    · intro number small target named contained
      have offsetSmall : target - segment.base < segment.size := by
        unfold Bounds.Contains Segment.bounds at contained
        simp only at contained
        omega
      rw [← landing]
      exact targets _ offsetSmall ((visited.targets _).mpr
        ⟨number, small, target, named, contained, rfl⟩)
    · intro offset inside divides
      rw [← landing]
      exact blocks offset inside divides
  · intro valid
    obtain ⟨verdict, finishes, -, clean⟩ :=
      visited.configured.finishes valid.room
    have accepted : verdict = 0 := by
      rw [clean]
      refine ⟨visited.clean, ?_, ?_⟩
      · intro offset _ marked
        obtain ⟨number, small, target, named, contained, rfl⟩ :=
          (visited.targets offset).mp marked
        rw [landing]
        exact valid.targets number small target named contained
      · intro offset inside divides
        rw [landing]
        exact valid.blocks offset inside divides
    rwa [accepted] at finishes

/-- The validator accepts exactly the valid segments, on a machine with CPUID.
It leaves the text with the instructions this machine lacks squashed; what the
stub-out mode would overwrite is never in an accepted segment. -/
theorem validatesIn_accepts_iff :
    ValidatesIn doStubOut cpufeatures vbase vlimit alignment text 0 final ↔
      cpufeatures.f386 = true ∧
      ∃ segment, Describes segment vbase vlimit alignment ∧
        ∃ count, ValidSegment segment text count ∧
          final = stubbed cpufeatures segment text count := by
  constructor
  · intro validates
    obtain ⟨segment, describes⟩ := validates.describes
    by_cases implemented : cpufeatures.f386 = true
    · refine ⟨implemented, segment, describes, ?_⟩
      obtain ⟨result, returned, rfl, finishes⟩ :=
        (validatesIn_iff_returns describes implemented).mp validates
      have start := startIn_visiting doStubOut cpufeatures segment text
      have configured := start.visited.configured.of_same
        (run_keeps returned).config
      have room := configured.room finishes
      rcases run_failed_or_visited room (.inr (.inr ⟨0, start⟩)) returned with
        failed | ⟨count, tiles, visited⟩
      · exact absurd (configured.rejects failed finishes) (by decide)
      · exact ⟨count, (visited.accepts_iff tiles).mp finishes, visited.memory⟩
    · rw [Bool.not_eq_true] at implemented
      obtain ⟨-, finishes⟩ :=
        (validatesIn_without_cpuid describes implemented).mp validates
      have configured : Configured cpufeatures segment
          ((detected doStubOut cpufeatures segment).tally statsBadCPU) :=
        ⟨rfl, rfl, rfl, rfl, rfl⟩
      exact absurd (configured.rejects rfl finishes) (by decide)
  · rintro ⟨implemented, segment, describes, count, valid, rfl⟩
    rw [validatesIn_iff_returns describes implemented]
    obtain ⟨result, returned, visited⟩ := run_visits valid.tiles valid.decoded
      valid.allowed (startIn_visiting doStubOut cpufeatures segment text)
      (Nat.zero_le count)
    exact ⟨result, returned, visited.memory,
      (visited.accepts_iff valid.tiles).mpr valid⟩

theorem accepts_iff :
    Validates cpufeatures vbase vlimit alignment text 0 final ↔
      cpufeatures.f386 = true ∧
      ∃ segment, Describes segment vbase vlimit alignment ∧
        ∃ count, ValidSegment segment text count ∧
          final = stubbed cpufeatures segment text count :=
  validates_iff_validatesIn.trans validatesIn_accepts_iff

end Verdict

end NativeClient.Validator32
