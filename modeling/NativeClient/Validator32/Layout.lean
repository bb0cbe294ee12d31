import NativeClient.Validator32.SegmentRun

/-!
# Layouts

A valid segment described by the set of its instruction starts instead of their
numbers.  Layouts are what survives when bytes of a text are replaced: an
instruction that keeps its bytes keeps its rules.
-/

namespace NativeClient.Validator32

open NativeClient.Library
open NativeClient.Decoder

/-! ## Instructions that keep their bytes -/

/-- `memory` holds at `place` the bytes that `text` holds at `offset`. -/
def Copies (text memory : Buffer) (offset place length : Nat) : Prop :=
  ∀ index < length, memory (place + index) = text (offset + index)

theorem instAt_copies
    {text memory : Buffer} {offset place : Nat}
    (copies : Copies text memory offset place
      (instAt text offset).inst.length) :
    instAt memory place = instAt text offset := by
  have textHere := instAt_shift text offset 0
  have memoryHere := instAt_shift memory place 0
  rw [Nat.add_zero] at textHere memoryHere
  rw [← memoryHere, ← textHere]
  apply instAt_congr
  intro position _ below
  rw [textHere, Nat.zero_add] at below
  exact (copies position below).symm

theorem instAt_jmpz_length
    {text : Buffer} {offset : Nat}
    (type : (instAt text offset).opinfo.insttype = .jmpz)
    (allowed : prefixAllowed (instAt text offset) = true) :
    (text (offset + (instAt text offset).inst.prefixbytes) ≠ 0x0f ∧
        (instAt text offset).inst.length =
          (instAt text offset).inst.prefixbytes + 5) ∨
      (text (offset + (instAt text offset).inst.prefixbytes) = 0x0f ∧
        (instAt text offset).inst.length =
          (instAt text offset).inst.prefixbytes + 6) := by
  rcases instAt_jmpz type with ⟨opcode, oneByte, length⟩ |
    ⟨opcode, -, length⟩
  · left
    have notEscape : text (offset + (instAt text offset).inst.prefixbytes) ≠
        0x0f := by
      rcases opcode with call | jump
      · rw [call]
        decide
      · rw [jump]
        decide
    refine ⟨notEscape, length ?_⟩
    have covered : badPrefixMask .jmpz &&& kPrefixDATA16 = kPrefixDATA16 := by
      decide
    unfold prefixAllowed at allowed
    simp only [type, oneByte, Bool.false_eq_true, if_false] at allowed
    split_ifs at allowed with none one two
    · rw [instAt_prefixmask_of_unprefixed text offset none, Nat.zero_and]
    · rw [decide_eq_true_eq] at allowed
      rw [← covered, ← Nat.and_assoc, allowed, Nat.zero_and]
    · simp at allowed
  · exact .inr ⟨opcode, length⟩

theorem directTarget_copies
    {segment other : Segment} {text memory : Buffer} {offset place : Nat}
    (address : other.base + place = segment.base + offset)
    (copies : Copies text memory offset place
      (instAt text offset).inst.length)
    (allowed : prefixAllowed (instAt text offset) = true) :
    directTarget (placed other memory place) memory =
      directTarget (placed segment text offset) text := by
  have same := instAt_copies copies
  have byte (index : Nat) (inside : index < (instAt text offset).inst.length) :
      memory (place + index) = text (offset + index) := copies index inside
  have word (index : Nat)
      (inside : index + 4 ≤ (instAt text offset).inst.length) :
      signed32 memory (place + index) = signed32 text (offset + index) := by
    have moved : signed32 (memory.shift (place + index)) 0 =
        signed32 (text.shift (offset + index)) 0 := by
      apply signed32_congr
      intro position _ below
      simp only [Buffer.shift_apply, Nat.add_assoc]
      exact byte (index + position) (by omega)
    simpa [signed32, word32] using moved
  have shorter := instAt_prefixbytes_lt text offset
  unfold directTarget
  simp only [placed_inst_maddr, placed_inst_prefixbytes, placed_inst_vaddr,
    placed_inst_length, placed_opinfo, same, address]
  split
  next type =>
    have length := (instAt_jmp8 type).1
    rw [Nat.add_assoc, Nat.add_assoc, byte _ (by omega)]
  next type =>
    rw [byte _ shorter]
    rcases instAt_jmpz_length type allowed with
      ⟨opcode, length⟩ | ⟨opcode, length⟩
    · rw [if_neg opcode, if_neg opcode, Nat.add_assoc, Nat.add_assoc,
        word _ (by omega)]
    · rw [if_pos opcode, if_pos opcode, Nat.add_assoc, Nat.add_assoc,
        word _ (by omega)]
  next => rfl

theorem InstAllowed.of_direct
    {bounds : Bounds} {memory : Buffer}
    {andinst other mstate : NCDecoderState}
    (direct : mstate.opinfo.insttype ≠ .indirect)
    (allowed : InstAllowed bounds memory andinst mstate) :
    InstAllowed bounds memory other mstate := by
  refine ⟨allowed.prefixes, allowed.length, ?_⟩
  have type := allowed.type
  unfold TypeAllowed at type ⊢
  cases kind : treatment mstate.opinfo.insttype with
  | indirect => exact (direct (treatment_indirect.mp kind)).elim
  | _ =>
      rw [kind] at type
      exact type

section Copies

variable {segment other : Segment} {text memory : Buffer} {offset place : Nat}
  (address : other.base + place = segment.base + offset)
  (alignment : other.alignment = segment.alignment)
  (covers : ∀ target, segment.bounds.Contains target →
    other.bounds.Contains target)
  (copies : Copies text memory offset place (instAt text offset).inst.length)

include address alignment

private theorem returnsToBundle_copies
    (same : instAt memory place = instAt text offset)
    (returns : ReturnsToBundle segment.bounds (placed segment text offset)) :
    ReturnsToBundle other.bounds (placed other memory place) := by
  unfold ReturnsToBundle Bounds.Aligned Segment.bounds at returns ⊢
  simp only [placed_inst_vaddr, placed_inst_length] at returns ⊢
  rw [same, address, alignment]
  exact returns

include covers copies

theorem InstAllowed.copies_direct
    {andinst andinst' : NCDecoderState}
    (direct : (instAt text offset).opinfo.insttype ≠ .indirect)
    (allowed : InstAllowed segment.bounds text andinst
      (placed segment text offset)) :
    InstAllowed other.bounds memory andinst' (placed other memory place) := by
  have same := instAt_copies copies
  have prefixes : prefixAllowed (instAt text offset) = true := allowed.prefixes
  have targets := directTarget_copies address copies prefixes
  have opcode : memory (place + (instAt text offset).inst.prefixbytes) =
      text (offset + (instAt text offset).inst.prefixbytes) :=
    copies _ (instAt_prefixbytes_lt text offset)
  have arrives : ∀ target,
      segment.bounds.Contains target ∨ segment.bounds.Aligned target →
      other.bounds.Contains target ∨ other.bounds.Aligned target := by
    rintro target (inside | aligned)
    · exact .inl (covers target inside)
    · right
      rw [Segment.aligned_iff] at aligned ⊢
      rwa [alignment]
  have type := allowed.type
  refine ⟨?_, ?_, ?_⟩
  · change prefixAllowed (instAt memory place) = true
    rw [same, prefixes]
  · have length := allowed.length
    simp only [placed_inst_length, placed_inst_prefixbytes] at length ⊢
    rw [same]
    exact length
  · unfold TypeAllowed at type ⊢
    rw [targets]
    simp only [placed_opinfo, placed_inst_maddr, placed_inst_prefixbytes, same,
      opcode] at type ⊢
    cases kind : treatment (instAt text offset).opinfo.insttype with
    | indirect => exact (direct (treatment_indirect.mp kind)).elim
    | jmp8 =>
        simp only [kind] at type ⊢
        exact fun target named => arrives target (type target named)
    | jmpz =>
        simp only [kind] at type ⊢
        exact ⟨fun target named => arrives target (type.1 target named),
          fun call => returnsToBundle_copies address alignment same
            (type.2 call)⟩
    | sse2x =>
        simp only [kind] at type ⊢
        change (instAt memory place).inst.prefixmask &&& _ ≠ 0
        rw [same]
        exact type
    | _ =>
        rw [kind] at type
        exact type

omit covers in
theorem InstAllowed.copies_indirect
    {guard guardPlace : Nat}
    (indirect : (instAt text offset).opinfo.insttype = .indirect)
    (copiesGuard : Copies text memory guard guardPlace 3)
    (allowed : InstAllowed segment.bounds text (placed segment text guard)
      (placed segment text offset)) :
    InstAllowed other.bounds memory (placed other memory guardPlace)
      (placed other memory place) := by
  have same := instAt_copies copies
  have type := allowed.type
  unfold TypeAllowed at type
  simp only [placed_opinfo, treatment_indirect.mpr indirect] at type
  obtain ⟨-, naclJmp, call⟩ := type
  have guardLength := (isNaclJmp_andinst naclJmp).1
  have sameGuard : instAt memory guardPlace = instAt text guard := by
    apply instAt_copies
    rw [guardLength]
    exact copiesGuard
  have long := instAt_indirect indirect
  have first : memory place = text offset := copies 0 (by omega)
  have modrm : memory (place + 1) = text (offset + 1) := copies 1 (by omega)
  refine ⟨?_, ?_, ?_⟩
  · change prefixAllowed (instAt memory place) = true
    rw [same]
    exact allowed.prefixes
  · have length := allowed.length
    simp only [placed_inst_length, placed_inst_prefixbytes] at length ⊢
    rw [same]
    exact length
  · unfold TypeAllowed
    simp only [placed_opinfo, same, treatment_indirect.mpr indirect]
    refine ⟨?_, ?_, ?_⟩
    · simp only [placed_inst_length, sameGuard]
      omega
    · unfold isNaclJmp Segment.bounds at naclJmp ⊢
      simp only [placed_inst_maddr, placed_inst_prefixbytes] at naclJmp ⊢
      rw [same, sameGuard, first, modrm, alignment,
        copiesGuard 1 (by omega), copiesGuard 2 (by omega),
        show memory guardPlace = text guard from copiesGuard 0 (by omega)]
      exact naclJmp
    · simp only [placed_inst_maddr] at call ⊢
      rw [modrm]
      exact fun isCall => returnsToBundle_copies address alignment same
        (call isCall)

end Copies

/-! ## Layouts -/

structure Fits (segment : Segment) (text : Buffer) (starts : Nat → Prop)
    (offset : Nat) : Prop where
  decoded : (instAt text offset).internalErrors = 0
  direct : (instAt text offset).opinfo.insttype ≠ .indirect →
    InstAllowed segment.bounds text (emptySlot 0 0) (placed segment text offset)
  indirect : (instAt text offset).opinfo.insttype = .indirect →
    ∃ guard, starts guard ∧ guard + 3 = offset ∧
      (instAt text guard).inst.length = 3 ∧
      InstAllowed segment.bounds text (placed segment text guard)
        (placed segment text offset)

def Lands (segment : Segment) (text : Buffer) (starts : Nat → Prop)
    (offset : Nat) : Prop :=
  starts offset ∧ offset < segment.size ∧
    (instAt text offset).opinfo.insttype ≠ .indirect

/-- The text of a segment is valid, with instructions at exactly `starts`. -/
structure ValidLayout (segment : Segment) (text : Buffer)
    (starts : Nat → Prop) : Prop where
  first : starts 0
  next : ∀ offset, starts offset → offset < segment.size →
    starts (offset + (instAt text offset).inst.length)
  within : ∀ offset, starts offset → offset ≤ segment.size
  reached : ∀ offset, starts offset → offset ≠ 0 →
    ∃ previous, starts previous ∧
      previous + (instAt text previous).inst.length = offset
  fits : ∀ offset, starts offset → offset < segment.size →
    Fits segment text starts offset
  targets : ∀ offset, starts offset → offset < segment.size →
    ∀ target ∈ directTarget (placed segment text offset) text,
      segment.bounds.Contains target →
      Lands segment text starts (target - segment.base)
  blocks : ∀ offset < segment.size, segment.alignment ∣ offset →
    Lands segment text starts offset
  room : segment.size + segment.alignment ≤ 2 ^ 32

def startsOf (text : Buffer) (count offset : Nat) : Prop :=
  ∃ number ≤ count, offsetAt text number = offset

section Layouts

variable {segment : Segment} {text : Buffer} {starts : Nat → Prop}
  {count offset : Nat}

theorem ValidSegment.number_lt
    (valid : ValidSegment segment text count) {number : Nat}
    (inside : offsetAt text number < segment.size) : number < count := by
  rw [← valid.tiles] at inside
  exact offsetAt_lt_iff.mp inside

theorem ValidSegment.lands_iff
    (valid : ValidSegment segment text count) :
    Lands segment text (startsOf text count) offset ↔
      Landing text count offset := by
  constructor
  · rintro ⟨⟨number, -, rfl⟩, inside, type⟩
    exact ⟨number, valid.number_lt inside, rfl, type⟩
  · rintro ⟨number, small, rfl, type⟩
    refine ⟨⟨number, Nat.le_of_lt small, rfl⟩, ?_, type⟩
    rw [← valid.tiles]
    exact offsetAt_lt_iff.mpr small

private theorem ValidSegment.fits
    (valid : ValidSegment segment text count) {number : Nat}
    (small : number < count) :
    Fits segment text (startsOf text count) (offsetAt text number) where
  decoded := valid.decoded number small
  direct := fun direct => (valid.allowed number small).of_direct direct
  indirect := by
    intro indirect
    have allowed := valid.allowed number small
    have type := allowed.type
    unfold TypeAllowed at type
    simp only [instNth, placed_opinfo, treatment_indirect.mpr indirect] at type
    cases number with
    | zero => exact (type.1 rfl).elim
    | succ previous =>
        have length := (isNaclJmp_andinst type.2.1).1
        exact ⟨offsetAt text previous, ⟨previous, by omega, rfl⟩, by
          rw [offsetAt_succ, length], length, allowed⟩

theorem ValidSegment.layout
    (valid : ValidSegment segment text count) :
    ValidLayout segment text (startsOf text count) where
  first := ⟨0, Nat.zero_le _, rfl⟩
  next := by
    rintro offset ⟨number, -, rfl⟩ inside
    exact ⟨number + 1, valid.number_lt inside, rfl⟩
  within := by
    rintro offset ⟨number, small, rfl⟩
    rw [← valid.tiles]
    exact (offsetAt_strictMono text).monotone small
  reached := by
    rintro offset ⟨number, small, rfl⟩ later
    cases number with
    | zero => exact (later rfl).elim
    | succ previous => exact ⟨offsetAt text previous, ⟨previous, by omega, rfl⟩,
        rfl⟩
  fits := by
    rintro offset ⟨number, -, rfl⟩ inside
    exact valid.fits (valid.number_lt inside)
  targets := by
    rintro offset ⟨number, -, rfl⟩ inside target named contained
    rw [valid.lands_iff]
    exact valid.targets number (valid.number_lt inside) target named contained
  blocks := by
    intro offset inside divides
    rw [valid.lands_iff]
    exact valid.blocks offset inside divides
  room := valid.room

private theorem ValidLayout.exists_count
    (layout : ValidLayout segment text starts) (number : Nat)
    (start : starts (offsetAt text number)) :
    ∃ count ≥ number, offsetAt text count = segment.size ∧
      ∀ later, number ≤ later → later ≤ count →
        starts (offsetAt text later) := by
  induction left : segment.size - offsetAt text number using Nat.strongRecOn
    generalizing number with
  | ind size ih =>
      rcases Nat.lt_or_eq_of_le (layout.within _ start) with inside | ends
      · have next := layout.next _ start inside
        rw [← offsetAt_succ] at next
        have forward : offsetAt text number < offsetAt text (number + 1) :=
          offsetAt_strictMono text (Nat.lt_succ_self number)
        obtain ⟨count, above, ends, all⟩ :=
          ih (segment.size - offsetAt text (number + 1)) (by omega)
            (number + 1) next rfl
        refine ⟨count, by omega, ends, ?_⟩
        intro later low high
        rcases Nat.eq_or_lt_of_le low with rfl | after
        · exact start
        · exact all later after high
      · refine ⟨number, Nat.le_refl _, ends, ?_⟩
        intro later low high
        rw [Nat.le_antisymm high low]
        exact start

private theorem ValidLayout.exists_number
    (layout : ValidLayout segment text starts) (start : starts offset) :
    ∃ number, offsetAt text number = offset := by
  induction offset using Nat.strongRecOn with
  | ind offset ih =>
      by_cases zero : offset = 0
      · exact ⟨0, zero.symm⟩
      · obtain ⟨previous, earlier, ends⟩ := layout.reached offset start zero
        have positive := instAt_length_pos text previous
        obtain ⟨number, rfl⟩ := ih previous (by omega) earlier
        exact ⟨number + 1, ends⟩

theorem ValidLayout.validSegment
    (layout : ValidLayout segment text starts) :
    ∃ count, ValidSegment segment text count ∧
      ∀ offset, starts offset ↔ startsOf text count offset := by
  obtain ⟨count, -, tiles, all⟩ := layout.exists_count 0 layout.first
  have same : ∀ offset, starts offset ↔ startsOf text count offset := by
    intro offset
    constructor
    · intro start
      obtain ⟨number, rfl⟩ := layout.exists_number start
      refine ⟨number, ?_, rfl⟩
      have within := layout.within _ start
      rw [← tiles] at within
      exact (offsetAt_strictMono text).le_iff_le.mp within
    · rintro ⟨number, small, rfl⟩
      exact all number (Nat.zero_le _) small
  have inside {number : Nat} (small : number < count) :
      offsetAt text number < segment.size := by
    rw [← tiles]
    exact offsetAt_lt_iff.mpr small
  have landing {offset : Nat} (lands : Lands segment text starts offset) :
      Landing text count offset := by
    obtain ⟨start, below, type⟩ := lands
    obtain ⟨number, rfl⟩ := layout.exists_number start
    rw [← tiles] at below
    exact ⟨number, offsetAt_lt_iff.mp below, rfl, type⟩
  refine ⟨count, ⟨tiles, ?_, ?_, ?_, ?_, layout.room⟩, same⟩
  · intro number small
    exact (layout.fits _ (all number (Nat.zero_le _) (Nat.le_of_lt small))
      (inside small)).decoded
  · intro number small
    have fits := layout.fits _ (all number (Nat.zero_le _) (Nat.le_of_lt small))
      (inside small)
    by_cases indirect : (instAt text (offsetAt text number)).opinfo.insttype =
        .indirect
    · obtain ⟨guard, start, ends, length, allowed⟩ := fits.indirect indirect
      obtain ⟨index, rfl⟩ := layout.exists_number start
      rw [← length, ← offsetAt_succ] at ends
      obtain rfl := offsetAt_inj ends
      exact allowed
    · exact (fits.direct indirect).of_direct indirect
  · intro number small target named contained
    exact landing (layout.targets _
      (all number (Nat.zero_le _) (Nat.le_of_lt small)) (inside small) target
      named contained)
  · intro offset below divides
    exact landing (layout.blocks offset below divides)

end Layouts

end NativeClient.Validator32
