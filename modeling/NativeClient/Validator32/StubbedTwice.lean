import NativeClient.Validator32.Acceptance

/-!
# Validating a stubbed text again

The validator overwrites the instructions that the CPU lacks.  What it leaves
needs no more of that: the instructions of the new text are the `HLT`s and
those that were kept, which the CPU has.
-/

namespace NativeClient.Validator32

open NativeClient.Library
open NativeClient.Decoder

/-! ## Texts with nothing to squash -/

def Settled (cpufeatures : CPUFeatures) (segment : Segment) (text : Buffer)
    (count : Nat) : Prop :=
  ∀ number < count,
    squashes cpufeatures text (instNth segment text number) = false

section Settled

variable {cpufeatures : CPUFeatures} {segment : Segment}
  {text memory : Buffer} {count offset : Nat}

theorem stubbed_of_settled
    (settled : Settled cpufeatures segment text count) :
    stubbed cpufeatures segment text count = text := by
  induction count with
  | zero => rfl
  | succ count ih =>
      have last := settled count (Nat.lt_succ_self count)
      rw [stubbed, last, if_neg Bool.false_ne_true]
      exact ih fun number small => settled number (by omega)

theorem treatment_sfenceClflush {insttype : NaClInstType} :
    treatment insttype = .sfenceClflush ↔ insttype = .sfenceClflush := by
  cases insttype <;> simp [treatment]

theorem squashes_copies
    (copies : Copies text memory offset offset
      (instAt text offset).inst.length) :
    squashes cpufeatures memory (placed segment memory offset) =
      squashes cpufeatures text (placed segment text offset) := by
  have same := instAt_copies copies
  unfold squashes
  simp only [placed_opinfo, placed_inst_maddr, same]
  by_cases fence : (instAt text offset).opinfo.insttype = .sfenceClflush
  · have long := instAt_sfenceClflush fence
    rw [copies 2 (by omega)]
  · cases kind : treatment (instAt text offset).opinfo.insttype with
    | sfenceClflush => exact absurd (treatment_sfenceClflush.mp kind) fence
    | _ => rfl

theorem squashes_hlt
    (halted : memory offset = kNaClFullStop) :
    squashes cpufeatures memory (placed segment memory offset) = false := by
  have type := (instAt_hlt halted).2.2.1
  simp [squashes, type, treatment]

theorem ValidSegment.stubbed_settled
    (valid : ValidSegment segment text count) (cpufeatures : CPUFeatures) :
    ∃ stubCount,
      ValidSegment segment (stubbed cpufeatures segment text count)
        stubCount ∧
      Settled cpufeatures segment (stubbed cpufeatures segment text count)
        stubCount := by
  have stubs := valid.stubs cpufeatures
  obtain ⟨stubCount, stubValid, same⟩ :=
    (valid.layout.overwrite stubs).validSegment
  refine ⟨stubCount, stubValid, ?_⟩
  intro number small
  have start := (same _).mpr ⟨number, Nat.le_of_lt small, rfl⟩
  have inside : offsetAt (stubbed cpufeatures segment text count) number <
      segment.size := by
    rw [← stubValid.tiles]
    exact offsetAt_lt_iff.mpr small
  rcases stubs.cases start inside with
    ⟨kept, notSquashed⟩ | ⟨whole, -, -, -, -, -, halted⟩
  · rw [instNth, squashes_copies (stubs.copied _ kept inside notSquashed)]
    exact Bool.not_eq_true _ ▸ notSquashed
  · exact squashes_hlt halted

end Settled

/-! ## Validating twice -/

section Twice

variable {doStubOut : Bool} {cpufeatures : CPUFeatures}
  {vbase vlimit : UInt32} {alignment : UInt8} {text final : Buffer}

theorem ValidatesIn.unique
    {verdict verdict' : Nat} {final' : Buffer}
    (left : ValidatesIn doStubOut cpufeatures vbase vlimit alignment text
      verdict final)
    (right : ValidatesIn doStubOut cpufeatures vbase vlimit alignment text
      verdict' final') :
    verdict = verdict' ∧ final = final' := by
  obtain ⟨segment, describes⟩ := left.describes
  by_cases implemented : cpufeatures.f386 = true
  · rw [validatesIn_iff_returns describes implemented] at left right
    obtain ⟨result, returned, rfl, finishes⟩ := left
    obtain ⟨result', returned', rfl, finishes'⟩ := right
    obtain rfl := returned.unique returned'
    exact ⟨finishes.unique finishes', rfl⟩
  · rw [Bool.not_eq_true] at implemented
    rw [validatesIn_without_cpuid describes implemented] at left right
    exact ⟨left.2.unique right.2, left.1.symm.trans right.1⟩

theorem ValidatesIn.again
    (accepted : ValidatesIn doStubOut cpufeatures vbase vlimit alignment text 0
      final) :
    ValidatesIn doStubOut cpufeatures vbase vlimit alignment final 0 final := by
  obtain ⟨implemented, segment, describes, count, valid, rfl⟩ :=
    validatesIn_accepts_iff.mp accepted
  obtain ⟨stubCount, stubValid, settled⟩ := valid.stubbed_settled cpufeatures
  exact validatesIn_accepts_iff.mpr ⟨implemented, segment, describes, stubCount,
    stubValid, (stubbed_of_settled settled).symm⟩

/-- Validation with stubbing is idempotent: the buffer that an accepting run
leaves is accepted again, and left as it is, in every run. -/
theorem validation_idempotent
    (accepted : ValidatesIn doStubOut cpufeatures vbase vlimit alignment text 0
      final) :
    ValidatesIn doStubOut cpufeatures vbase vlimit alignment final 0 final ∧
      ∀ verdict final',
        ValidatesIn doStubOut cpufeatures vbase vlimit alignment final verdict
          final' →
        verdict = 0 ∧ final' = final := by
  refine ⟨accepted.again, ?_⟩
  intro verdict final' second
  obtain ⟨verdicts, finals⟩ := accepted.again.unique second
  exact ⟨verdicts.symm, finals.symm⟩

private theorem exists_validatesIn
    {verdict : Nat} {byte : UInt8} (fuel : Nat)
    (run : (do
      let vstate ← ncValidateInit vbase vlimit alignment
      let validation ← ncValidateSegment cpufeatures vbase.toNat
        (vlimit.toNat - vbase.toNat)
        ⟨text, ncValidateSetStubOutMode vstate doStubOut⟩ fuel
      let verdict ← ncValidateFinish (some validation.vstate) fuel
      return (validation.memory 0, verdict)) = some (byte, verdict)) :
    ∃ final, final 0 = byte ∧
      ValidatesIn doStubOut cpufeatures vbase vlimit alignment text verdict
        final := by
  simp only [Option.bind_eq_bind, Option.bind_eq_some_iff, Option.pure_def,
    Option.some.injEq, Prod.mk.injEq] at run
  obtain ⟨vstate, init, validation, segment, _, finish, first, rfl⟩ := run
  exact ⟨validation.memory, first, vstate, init, fuel, validation, segment,
    rfl, finish⟩

/-- One bundle that starts with `sfence`, on a machine without it. -/
theorem validation_idempotent_sfence :
    let text := Buffer.ofList
      ([0x0f, 0xae, 0xf8] ++ List.replicate 13 0x90)
    ∃ final, final 0 = kNaClFullStop ∧
      ValidatesIn false { f386 := true } 0x10000 0x10010 16 text 0 final ∧
      ValidatesIn false { f386 := true } 0x10000 0x10010 16 final 0 final ∧
      ∀ verdict final',
        ValidatesIn false { f386 := true } 0x10000 0x10010 16 final verdict
          final' →
        verdict = 0 ∧ final' = final := by
  intro text
  obtain ⟨final, first, accepted⟩ : ∃ final, final 0 = kNaClFullStop ∧
      ValidatesIn false { f386 := true } 0x10000 0x10010 16 text 0 final :=
    exists_validatesIn 20 (by decide +kernel)
  exact ⟨final, first, accepted, validation_idempotent accepted⟩

end Twice

end NativeClient.Validator32
