import NativeClient.Validator32.InstructionRules
import Mathlib.Order.Monotone.Basic

/-!
# Valid segments

What the validator is for, stated without its tables and its ring buffer: the
instructions of a text follow one another from its first byte to its last, each
obeys the rules for one instruction, and control can only land on an instruction
that is not the second half of a guarded jump.
-/

namespace NativeClient.Validator32

open NativeClient.Library
open NativeClient.Decoder

/-- An address range that `NCValidateInit` takes. -/
structure Segment where
  base : Nat
  size : Nat
  alignment : Nat
  bundle : alignment = 16 ∨ alignment = 32
  aligned : alignment ∣ base
  nonempty : 0 < size
  fits : base + size < 2 ^ 32

namespace Segment

def bounds (segment : Segment) : Bounds :=
  ⟨segment.base, segment.base + segment.size, segment.alignment - 1⟩

theorem alignment_ge (segment : Segment) : 16 ≤ segment.alignment := by
  rcases segment.bundle with narrow | wide <;> omega

theorem and_alignmask_eq_zero (segment : Segment) (address : Nat) :
    address &&& (segment.alignment - 1) = 0 ↔
      segment.alignment ∣ address := by
  rcases segment.bundle with narrow | wide
  · rw [narrow, show 16 - 1 = 2 ^ 4 - 1 from rfl,
      Nat.and_two_pow_sub_one_eq_mod]
    exact (Nat.dvd_iff_mod_eq_zero).symm
  · rw [wide, show 32 - 1 = 2 ^ 5 - 1 from rfl,
      Nat.and_two_pow_sub_one_eq_mod]
    exact (Nat.dvd_iff_mod_eq_zero).symm

theorem aligned_iff (segment : Segment) (address : Nat) :
    segment.bounds.Aligned address ↔ segment.alignment ∣ address :=
  segment.and_alignmask_eq_zero address

end Segment

/-! ## The instructions of a text -/

def offsetAt (text : Buffer) : Nat → Nat
  | 0 => 0
  | number + 1 =>
      offsetAt text number + (instAt text (offsetAt text number)).inst.length

def placed (segment : Segment) (text : Buffer) (offset : Nat) :
    NCDecoderState :=
  relocate offset (segment.base + offset) (instAt text offset)

def instNth (segment : Segment) (text : Buffer) (number : Nat) :
    NCDecoderState :=
  placed segment text (offsetAt text number)

def previousNth (segment : Segment) (text : Buffer) : Nat → NCDecoderState
  | 0 => emptySlot 0 0
  | number + 1 => instNth segment text number

theorem offsetAt_strictMono (text : Buffer) : StrictMono (offsetAt text) := by
  apply strictMono_nat_of_lt_succ
  intro number
  have positive := instAt_length_pos text (offsetAt text number)
  simp only [offsetAt]
  omega

theorem offsetAt_lt_iff {text : Buffer} {first second : Nat} :
    offsetAt text first < offsetAt text second ↔ first < second :=
  (offsetAt_strictMono text).lt_iff_lt

theorem offsetAt_inj {text : Buffer} {first second : Nat}
    (same : offsetAt text first = offsetAt text second) : first = second :=
  (offsetAt_strictMono text).injective same

@[simp] theorem placed_inst_length
    (segment : Segment) (text : Buffer) (offset : Nat) :
    (placed segment text offset).inst.length =
      (instAt text offset).inst.length := rfl

@[simp] theorem placed_inst_prefixbytes
    (segment : Segment) (text : Buffer) (offset : Nat) :
    (placed segment text offset).inst.prefixbytes =
      (instAt text offset).inst.prefixbytes := rfl

@[simp] theorem placed_opinfo
    (segment : Segment) (text : Buffer) (offset : Nat) :
    (placed segment text offset).opinfo = (instAt text offset).opinfo := rfl

@[simp] theorem placed_inst_vaddr
    (segment : Segment) (text : Buffer) (offset : Nat) :
    (placed segment text offset).inst.vaddr = segment.base + offset := rfl

@[simp] theorem placed_inst_maddr
    (segment : Segment) (text : Buffer) (offset : Nat) :
    (placed segment text offset).inst.maddr = offset := by
  simp [placed, relocate, instAt_maddr]

theorem offsetAt_succ (text : Buffer) (number : Nat) :
    offsetAt text (number + 1) =
      offsetAt text number + (instAt text (offsetAt text number)).inst.length :=
  rfl

/-! ## Validity -/

def Landing (text : Buffer) (count offset : Nat) : Prop :=
  ∃ number < count, offsetAt text number = offset ∧
    (instAt text offset).opinfo.insttype ≠ .indirect

theorem landing_succ {text : Buffer} {count offset : Nat} :
    Landing text (count + 1) offset ↔
      Landing text count offset ∨
        (offsetAt text count = offset ∧
          (instAt text offset).opinfo.insttype ≠ .indirect) := by
  constructor
  · rintro ⟨number, small, start, type⟩
    rcases Nat.lt_succ_iff_lt_or_eq.mp small with earlier | rfl
    · exact .inl ⟨number, earlier, start, type⟩
    · exact .inr ⟨start, type⟩
  · rintro (⟨number, small, start, type⟩ | ⟨start, type⟩)
    · exact ⟨number, by omega, start, type⟩
    · exact ⟨count, Nat.lt_succ_self count, start, type⟩

theorem Landing.lt_offsetAt {text : Buffer} {count offset : Nat}
    (landing : Landing text count offset) : offset < offsetAt text count := by
  obtain ⟨number, small, rfl, -⟩ := landing
  exact offsetAt_lt_iff.mpr small

/-- The text of a segment is a row of `count` allowed instructions. -/
structure ValidSegment (segment : Segment) (text : Buffer) (count : Nat) :
    Prop where
  tiles : offsetAt text count = segment.size
  decoded : ∀ number < count, (instNth segment text number).internalErrors = 0
  allowed : ∀ number < count,
    InstAllowed segment.bounds text (previousNth segment text number)
      (instNth segment text number)
  targets : ∀ number < count,
    ∀ target ∈ directTarget (instNth segment text number) text,
      segment.bounds.Contains target →
      Landing text count (target - segment.base)
  blocks : ∀ offset < segment.size, segment.alignment ∣ offset →
    Landing text count offset
  room : segment.size + segment.alignment ≤ 2 ^ 32

/-- The text after its first instructions were visited: an instruction that
the CPU does not implement has become a row of `HLT`. -/
def stubbed (cpufeatures : CPUFeatures) (segment : Segment) (text : Buffer) :
    Nat → Buffer
  | 0 => text
  | number + 1 =>
      if squashes cpufeatures text (instNth segment text number) then
        (stubbed cpufeatures segment text number).fill (offsetAt text number)
          (instAt text (offsetAt text number)).inst.length kNaClFullStop
      else
        stubbed cpufeatures segment text number

section Stubbed

variable {cpufeatures : CPUFeatures} {segment : Segment} {text : Buffer}

theorem stubbed_ahead
    {number offset : Nat} (ahead : offsetAt text number ≤ offset) :
    stubbed cpufeatures segment text number offset = text offset := by
  induction number with
  | zero => rfl
  | succ number ih =>
      rw [offsetAt_succ] at ahead
      rw [stubbed]
      split_ifs
      · rw [Buffer.fill_outside (.inr ahead)]
        exact ih (by omega)
      · exact ih (by omega)

theorem stubbed_behind
    {visited number offset : Nat} (seen : number < visited)
    (above : offsetAt text number ≤ offset)
    (below : offset < offsetAt text (number + 1)) :
    stubbed cpufeatures segment text visited offset =
      if squashes cpufeatures text (instNth segment text number) then
        kNaClFullStop
      else
        text offset := by
  induction visited with
  | zero => omega
  | succ visited ih =>
      rw [stubbed]
      by_cases last : number = visited
      · subst last
        rw [offsetAt_succ] at below
        split_ifs
        · exact Buffer.fill_inside above below
        · exact stubbed_ahead above
      · have earlier : number < visited := by omega
        have before : offsetAt text (number + 1) ≤ offsetAt text visited :=
          (offsetAt_strictMono text).monotone earlier
        have kept : (stubbed cpufeatures segment text visited).fill
            (offsetAt text visited)
            (instAt text (offsetAt text visited)).inst.length kNaClFullStop
            offset = stubbed cpufeatures segment text visited offset :=
          Buffer.fill_outside (.inl (by omega))
        split_ifs with squashed squashedNumber
        · rw [kept, ih earlier, if_pos squashedNumber]
        · rw [kept, ih earlier, if_neg squashedNumber]
        · rw [ih earlier, if_pos (by assumption)]
        · rw [ih earlier, if_neg (by assumption)]

end Stubbed

end NativeClient.Validator32
