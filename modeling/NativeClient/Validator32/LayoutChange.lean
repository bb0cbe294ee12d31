import NativeClient.Validator32.Layout

/-!
# Changing a text without breaking its layout

Three changes that keep a valid segment valid: bytes outside the segment, whole
instructions overwritten with `HLT`, and a run of bundles replaced by another
valid text that can be entered wherever the old one could.
-/

namespace NativeClient.Validator32

open NativeClient.Library
open NativeClient.Decoder

section Facts

variable {segment : Segment} {text : Buffer} {starts : Nat → Prop}
  {offset later : Nat}

theorem ValidLayout.last
    (layout : ValidLayout segment text starts) : starts segment.size := by
  obtain ⟨count, valid, same⟩ := layout.validSegment
  exact (same _).mpr ⟨count, Nat.le_refl _, valid.tiles⟩

theorem ValidLayout.ends_before
    (layout : ValidLayout segment text starts)
    (start : starts offset) (laterStart : starts later)
    (less : offset < later) :
    offset + (instAt text offset).inst.length ≤ later := by
  obtain ⟨count, valid, same⟩ := layout.validSegment
  obtain ⟨first, -, rfl⟩ := (same _).mp start
  obtain ⟨second, -, rfl⟩ := (same _).mp laterStart
  rw [← offsetAt_succ]
  exact (offsetAt_strictMono text).monotone (offsetAt_lt_iff.mp less)

theorem ValidLayout.ends_inside
    (layout : ValidLayout segment text starts)
    (start : starts offset) (inside : offset < segment.size) :
    offset + (instAt text offset).inst.length ≤ segment.size :=
  layout.within _ (layout.next offset start inside)

theorem InstAllowed.target
    {bounds : Bounds} {memory : Buffer} {andinst mstate : NCDecoderState}
    (allowed : InstAllowed bounds memory andinst mstate) {target : Nat}
    (named : target ∈ directTarget mstate memory) :
    bounds.Contains target ∨ bounds.Aligned target := by
  have type := allowed.type
  unfold TypeAllowed at type
  by_cases short : mstate.opinfo.insttype = .jmp8
  · rw [treatment_jmp8.mpr short] at type
    exact type target named
  · by_cases near : mstate.opinfo.insttype = .jmpz
    · rw [treatment_jmpz.mpr near] at type
      exact type.1 target named
    · rw [directTarget_eq_none mstate memory short near] at named
      cases named

theorem directTarget_direct
    {memory : Buffer} {mstate : NCDecoderState} {target : Nat}
    (named : target ∈ directTarget mstate memory) :
    mstate.opinfo.insttype ≠ .indirect := by
  intro indirect
  rw [directTarget_eq_none mstate memory (by simp [indirect])
    (by simp [indirect])] at named
  cases named

theorem Fits.prefixes
    (fits : Fits segment text starts offset) :
    prefixAllowed (instAt text offset) = true := by
  by_cases indirect : (instAt text offset).opinfo.insttype = .indirect
  · obtain ⟨guard, -, -, -, allowed⟩ := fits.indirect indirect
    exact allowed.prefixes
  · exact (fits.direct indirect).prefixes

theorem Fits.copies
    {other : Segment} {memory : Buffer} {starts' : Nat → Prop} {place : Nat}
    (fits : Fits segment text starts offset)
    (address : other.base + place = segment.base + offset)
    (alignment : other.alignment = segment.alignment)
    (covers : ∀ target, segment.bounds.Contains target →
      other.bounds.Contains target)
    (copies : Copies text memory offset place (instAt text offset).inst.length)
    (guarded : (instAt text offset).opinfo.insttype = .indirect →
      ∀ guard, starts guard → guard + 3 = offset →
        (instAt text guard).inst.length = 3 →
        (instAt text guard).opinfo.insttype = .i386L →
        ∃ guardPlace, starts' guardPlace ∧ guardPlace + 3 = place ∧
          Copies text memory guard guardPlace 3) :
    Fits other memory starts' place := by
  have same := instAt_copies copies
  refine ⟨by rw [same]; exact fits.decoded, ?_, ?_⟩
  · intro direct
    rw [same] at direct
    exact (fits.direct direct).copies_direct address alignment covers copies
      direct
  · intro indirect
    rw [same] at indirect
    obtain ⟨guard, start, ends, length, allowed⟩ := fits.indirect indirect
    have type := allowed.type
    unfold TypeAllowed at type
    simp only [placed_opinfo, treatment_indirect.mpr indirect] at type
    obtain ⟨guardPlace, startPlace, endsPlace, copiesGuard⟩ :=
      guarded indirect guard start ends length (isNaclJmp_andinst type.2.1).2
    refine ⟨guardPlace, startPlace, endsPlace, ?_,
      allowed.copies_indirect address alignment copies indirect copiesGuard⟩
    rw [instAt_copies (by rw [length]; exact copiesGuard), length]

end Facts

/-! ## Bytes outside the segment -/

theorem ValidLayout.congr
    {segment : Segment} {text memory : Buffer} {starts : Nat → Prop}
    (layout : ValidLayout segment text starts)
    (agree : text.AgreeOn memory 0 segment.size) :
    ValidLayout segment memory starts := by
  have copies : ∀ offset, starts offset → offset < segment.size →
      Copies text memory offset offset (instAt text offset).inst.length := by
    intro offset start inside index small
    have ends := layout.ends_inside start inside
    exact (agree _ (Nat.zero_le _) (by omega)).symm
  have same : ∀ offset, starts offset → offset < segment.size →
      instAt memory offset = instAt text offset :=
    fun offset start inside => instAt_copies (copies offset start inside)
  have lands : ∀ offset, Lands segment text starts offset →
      Lands segment memory starts offset := by
    rintro offset ⟨start, inside, type⟩
    exact ⟨start, inside, by rwa [same offset start inside]⟩
  refine ⟨layout.first, ?_, layout.within, ?_, ?_, ?_, ?_, layout.room⟩
  · intro offset start inside
    rw [same offset start inside]
    exact layout.next offset start inside
  · intro offset start later
    obtain ⟨previous, earlier, ends⟩ := layout.reached offset start later
    have positive := instAt_length_pos text previous
    have within := layout.within offset start
    exact ⟨previous, earlier, by rwa [same previous earlier (by omega)]⟩
  · intro offset start inside
    refine (layout.fits offset start inside).copies rfl rfl
      (fun _ contained => contained) (copies offset start inside) ?_
    intro _ guard guardStart ends length _
    have guardCopies := copies guard guardStart (by omega)
    rw [length] at guardCopies
    exact ⟨guard, guardStart, ends, guardCopies⟩
  · intro offset start inside target named contained
    have prefixes := (layout.fits offset start inside).prefixes
    rw [directTarget_copies rfl (copies offset start inside) prefixes] at named
    exact lands _ (layout.targets offset start inside target named contained)
  · intro offset inside divides
    exact lands offset (layout.blocks offset inside divides)

/-! ## Whole instructions overwritten with `HLT` -/

/-- `memory` is `text` with the instructions at `stub` overwritten.  No half of
a guarded jump is among them. -/
structure Stubs (segment : Segment) (text memory : Buffer)
    (starts stub : Nat → Prop) : Prop where
  halted : ∀ offset, starts offset → offset < segment.size → stub offset →
    ∀ index < (instAt text offset).inst.length,
      memory (offset + index) = kNaClFullStop
  notIndirect : ∀ offset, stub offset →
    (instAt text offset).opinfo.insttype ≠ .indirect
  notGuard : ∀ offset, stub offset →
    (instAt text offset).opinfo.insttype ≠ .i386L
  copied : ∀ offset, starts offset → offset < segment.size → ¬ stub offset →
    Copies text memory offset offset (instAt text offset).inst.length

def stubStarts (segment : Segment) (text : Buffer) (starts stub : Nat → Prop)
    (offset : Nat) : Prop :=
  starts offset ∨
    ∃ whole, starts whole ∧ whole < segment.size ∧ stub whole ∧
      whole ≤ offset ∧ offset < whole + (instAt text whole).inst.length

theorem fits_hlt
    {segment : Segment} {memory : Buffer} {starts : Nat → Prop} {offset : Nat}
    (halted : memory offset = kNaClFullStop) :
    Fits segment memory starts offset := by
  obtain ⟨length, prefixes, type, decoded⟩ := instAt_hlt halted
  refine ⟨decoded, fun _ => ⟨?_, ?_, ?_⟩, ?_⟩
  · unfold prefixAllowed
    rw [placed_inst_prefixbytes, if_pos prefixes]
  · simp only [placed_inst_length, length, kMaxValidInstLength]
    omega
  · unfold TypeAllowed
    simp only [placed_opinfo, type, treatment]
  · simp [type]

section Stubs

variable {segment : Segment} {text memory : Buffer} {starts stub : Nat → Prop}
  (layout : ValidLayout segment text starts)
  (stubs : Stubs segment text memory starts stub)

include stubs in
theorem Stubs.lands {offset : Nat}
    (lands : Lands segment text starts offset) :
    Lands segment memory (stubStarts segment text starts stub) offset := by
  obtain ⟨start, inside, type⟩ := lands
  refine ⟨.inl start, inside, ?_⟩
  by_cases stubbed : stub offset
  · have halted := stubs.halted offset start inside stubbed 0
      (instAt_length_pos text offset)
    rw [Nat.add_zero] at halted
    simp [(instAt_hlt halted).2.2.1]
  · rwa [instAt_copies (stubs.copied offset start inside stubbed)]

theorem Stubs.cases {offset : Nat}
    (stubs : Stubs segment text memory starts stub)
    (start : stubStarts segment text starts stub offset)
    (inside : offset < segment.size) :
    (starts offset ∧ ¬ stub offset) ∨
      ∃ whole, starts whole ∧ whole < segment.size ∧ stub whole ∧
        whole ≤ offset ∧ offset < whole + (instAt text whole).inst.length ∧
        memory offset = kNaClFullStop := by
  rcases start with start | ⟨whole, start, small, stubbed, low, high⟩
  · by_cases stubbed : stub offset
    · have positive := instAt_length_pos text offset
      exact .inr ⟨offset, start, inside, stubbed, Nat.le_refl _, by omega,
        stubs.halted offset start inside stubbed 0 positive⟩
    · exact .inl ⟨start, stubbed⟩
  · have halted := stubs.halted whole start small stubbed (offset - whole)
      (by omega)
    rw [Nat.add_sub_of_le low] at halted
    exact .inr ⟨whole, start, small, stubbed, low, high, halted⟩

private theorem Stubs.reached {whole offset : Nat}
    (stubs : Stubs segment text memory starts stub)
    (start : starts whole) (inside : whole < segment.size)
    (stubbed : stub whole) (low : whole < offset)
    (high : offset ≤ whole + (instAt text whole).inst.length) :
    ∃ previous, stubStarts segment text starts stub previous ∧
      previous + (instAt memory previous).inst.length = offset := by
  have halted := stubs.halted whole start inside stubbed (offset - 1 - whole)
    (by omega)
  rw [Nat.add_sub_of_le (by omega)] at halted
  refine ⟨offset - 1, .inr ⟨whole, start, inside, stubbed, by omega, by omega⟩,
    ?_⟩
  rw [(instAt_hlt halted).1]
  omega

include layout stubs

private theorem ValidLayout.stub_reached {offset : Nat}
    (start : starts offset) (later : offset ≠ 0) :
    ∃ previous, stubStarts segment text starts stub previous ∧
      previous + (instAt memory previous).inst.length = offset := by
  obtain ⟨previous, earlier, ends⟩ := layout.reached offset start later
  have positive := instAt_length_pos text previous
  have within := layout.within offset start
  by_cases stubbed : stub previous
  · exact stubs.reached earlier (by omega) stubbed (by omega)
      (Nat.le_of_eq ends.symm)
  · have kept := instAt_copies (stubs.copied previous earlier (by omega) stubbed)
    exact ⟨previous, .inl earlier, by rwa [kept]⟩

theorem ValidLayout.overwrite :
    ValidLayout segment memory (stubStarts segment text starts stub) := by
  refine ⟨.inl layout.first, ?_, ?_, ?_, ?_, ?_, ?_, layout.room⟩
  · intro offset start inside
    rcases stubs.cases start inside with
      ⟨kept, notStubbed⟩ |
      ⟨whole, wholeStart, small, stubbed, low, high, halted⟩
    · rw [instAt_copies (stubs.copied offset kept inside notStubbed)]
      exact .inl (layout.next offset kept inside)
    · rw [(instAt_hlt halted).1]
      rcases Nat.lt_or_eq_of_le (Nat.succ_le_of_lt high) with more | ends
      · exact .inr ⟨whole, wholeStart, small, stubbed, by omega, more⟩
      · rw [Nat.succ_eq_add_one] at ends
        rw [ends]
        exact .inl (layout.next whole wholeStart small)
  · rintro offset (start | ⟨whole, start, small, stubbed, low, high⟩)
    · exact layout.within offset start
    · have ends := layout.ends_inside start small
      omega
  · rintro offset (start | ⟨whole, start, small, stubbed, low, high⟩) later
    · exact layout.stub_reached stubs start later
    · rcases Nat.eq_or_lt_of_le low with rfl | after
      · exact layout.stub_reached stubs start later
      · exact stubs.reached start small stubbed after (Nat.le_of_lt high)
  · intro offset start inside
    rcases stubs.cases start inside with
      ⟨kept, notStubbed⟩ | ⟨whole, -, -, -, -, -, halted⟩
    · refine (layout.fits offset kept inside).copies rfl rfl
        (fun _ contained => contained)
        (stubs.copied offset kept inside notStubbed) ?_
      intro _ guard guardStart ends length type
      have guardCopies := stubs.copied guard guardStart (by omega)
        (fun stubbed => stubs.notGuard guard stubbed type)
      rw [length] at guardCopies
      exact ⟨guard, .inl guardStart, ends, guardCopies⟩
    · exact fits_hlt halted
  · intro offset start inside target named contained
    rcases stubs.cases start inside with
      ⟨kept, notStubbed⟩ | ⟨whole, -, -, -, -, -, halted⟩
    · have prefixes := (layout.fits offset kept inside).prefixes
      rw [directTarget_copies rfl (stubs.copied offset kept inside notStubbed)
        prefixes] at named
      exact stubs.lands
        (layout.targets offset kept inside target named contained)
    · have type := (instAt_hlt halted).2.2.1
      rw [directTarget_eq_none _ _ (by simp [type]) (by simp [type])] at named
      cases named
  · intro offset inside divides
    exact stubs.lands (layout.blocks offset inside divides)

end Stubs

section Squashed

variable {segment : Segment} {text : Buffer} {count : Nat}

theorem squashes_type
    {cpufeatures : CPUFeatures} {mstate : NCDecoderState}
    (squashed : squashes cpufeatures text mstate = true) :
    mstate.opinfo.insttype ≠ .indirect ∧ mstate.opinfo.insttype ≠ .i386L := by
  constructor
  · intro type
    simp [squashes, type, treatment] at squashed
  · intro type
    simp [squashes, type, treatment] at squashed

theorem ValidSegment.stubs
    (valid : ValidSegment segment text count) (cpufeatures : CPUFeatures) :
    Stubs segment text (stubbed cpufeatures segment text count)
      (startsOf text count)
      (fun offset => squashes cpufeatures text
        (placed segment text offset) = true) where
  halted := by
    rintro offset ⟨number, -, rfl⟩ inside squashed index small
    rw [stubbed_behind (valid.number_lt inside) (Nat.le_add_right _ _)
      (Nat.add_lt_add_left small _), if_pos (by exact squashed)]
  notIndirect := fun offset squashed => (squashes_type squashed).1
  notGuard := fun offset squashed => (squashes_type squashed).2
  copied := by
    rintro offset ⟨number, -, rfl⟩ inside kept index small
    rw [stubbed_behind (valid.number_lt inside) (Nat.le_add_right _ _)
      (Nat.add_lt_add_left small _), if_neg (by exact kept)]

theorem ValidSegment.stubbed_valid
    (valid : ValidSegment segment text count) (cpufeatures : CPUFeatures) :
    ∃ stubCount,
      ValidSegment segment (stubbed cpufeatures segment text count)
        stubCount ∧
      ∀ offset, Landing text count offset →
        Landing (stubbed cpufeatures segment text count) stubCount offset := by
  have stubs := valid.stubs cpufeatures
  obtain ⟨stubCount, stubValid, same⟩ :=
    (valid.layout.overwrite stubs).validSegment
  refine ⟨stubCount, stubValid, ?_⟩
  intro offset landing
  obtain ⟨start, inside, type⟩ := stubs.lands (valid.lands_iff.mpr landing)
  exact stubValid.lands_iff.mp ⟨(same offset).mp start, inside, type⟩

end Squashed

/-! ## A run of bundles replaced -/

structure Within (part segment : Segment) (start : Nat) : Prop where
  base : part.base = segment.base + start
  alignment : part.alignment = segment.alignment
  ends : start + part.size ≤ segment.size
  divides : segment.alignment ∣ start
  boundary : segment.alignment ∣ start + part.size ∨
    start + part.size = segment.size

theorem Within.contains
    {part segment : Segment} {start target : Nat}
    (within : Within part segment start)
    (contained : part.bounds.Contains target) :
    segment.bounds.Contains target := by
  have base := within.base
  have ends := within.ends
  unfold Bounds.Contains Segment.bounds at contained ⊢
  simp only at contained ⊢
  omega

def spliceStarts (part : Segment) (start : Nat) (starts inner : Nat → Prop)
    (offset : Nat) : Prop :=
  (starts offset ∧ (offset < start ∨ start + part.size ≤ offset)) ∨
    (start ≤ offset ∧ offset < start + part.size ∧ inner (offset - start))

section Splice

variable {segment part : Segment} {text new : Buffer}
  {starts inner : Nat → Prop} {start : Nat}
  (layout : ValidLayout segment text starts)
  (replacement : ValidLayout part new inner)
  (within : Within part segment start)

include layout within

private theorem Within.lands_start : Lands segment text starts start := by
  have nonempty := part.nonempty
  have ends := within.ends
  exact layout.blocks start (by omega) within.divides

private theorem Within.starts_end : starts (start + part.size) := by
  rcases within.boundary with divides | all
  · rcases Nat.lt_or_eq_of_le within.ends with inside | all
    · exact (layout.blocks _ inside divides).1
    · rw [all]
      exact layout.last
  · rw [all]
    exact layout.last

private theorem Within.direct_end
    (inside : start + part.size < segment.size) :
    (instAt text (start + part.size)).opinfo.insttype ≠ .indirect := by
  rcases within.boundary with divides | all
  · exact (layout.blocks _ inside divides).2.2
  · omega

private theorem Within.copies_outer {offset : Nat}
    (startHere : starts offset)
    (outside : offset < start ∨ start + part.size ≤ offset) :
    Copies text (text.splice new start part.size) offset offset
      (instAt text offset).inst.length := by
  intro index small
  apply Buffer.splice_outside
  rcases outside with before | after
  · have ends := layout.ends_before startHere
      (within.lands_start layout).1 before
    omega
  · omega

omit layout within in
private theorem copies_inner {offset : Nat}
    (replacement : ValidLayout part new inner)
    (startHere : inner offset) (inside : offset < part.size) :
    Copies new (text.splice new start part.size) offset (start + offset)
      (instAt new offset).inst.length := by
  intro index small
  have ends := replacement.ends_inside startHere inside
  rw [Buffer.splice_inside (by omega) (by omega)]
  congr 1
  omega

include replacement

private theorem Within.splice_lands
    (enters : ∀ offset < part.size,
      Lands segment text starts (start + offset) →
      Lands part new inner offset)
    {offset : Nat} (lands : Lands segment text starts offset) :
    Lands segment (text.splice new start part.size)
      (spliceStarts part start starts inner) offset := by
  obtain ⟨startHere, inside, type⟩ := lands
  by_cases replaced : start ≤ offset ∧ offset < start + part.size
  · obtain ⟨above, below⟩ := replaced
    obtain ⟨distance, rfl⟩ := Nat.exists_eq_add_of_le above
    obtain ⟨innerStart, small, innerType⟩ :=
      enters distance (by omega) ⟨startHere, inside, type⟩
    refine ⟨.inr ⟨above, below, by rwa [Nat.add_sub_cancel_left]⟩, inside, ?_⟩
    rwa [instAt_copies (copies_inner replacement innerStart small)]
  · have outside : offset < start ∨ start + part.size ≤ offset := by omega
    refine ⟨.inl ⟨startHere, outside⟩, inside, ?_⟩
    rwa [instAt_copies (within.copies_outer layout startHere outside)]

private theorem Within.splice_next {offset : Nat}
    (startHere : spliceStarts part start starts inner offset)
    (inside : offset < segment.size) :
    spliceStarts part start starts inner
      (offset + (instAt (text.splice new start part.size) offset).inst.length)
    := by
  have nonempty := part.nonempty
  rcases startHere with ⟨outer, outside⟩ | ⟨above, below, innerStart⟩
  · rw [instAt_copies (within.copies_outer layout outer outside)]
    have next := layout.next offset outer inside
    rcases outside with before | after
    · have ends := layout.ends_before outer (within.lands_start layout).1 before
      rcases Nat.lt_or_eq_of_le ends with less | same
      · exact .inl ⟨next, .inl less⟩
      · rw [same]
        exact .inr ⟨Nat.le_refl _, by omega, by
          rw [Nat.sub_self]
          exact replacement.first⟩
    · exact .inl ⟨next, .inr (by omega)⟩
  · obtain ⟨distance, rfl⟩ := Nat.exists_eq_add_of_le above
    rw [Nat.add_sub_cancel_left] at innerStart
    have small : distance < part.size := by omega
    have ends := replacement.ends_inside innerStart small
    rw [instAt_copies (copies_inner replacement innerStart small)]
    rcases Nat.lt_or_eq_of_le ends with less | same
    · refine .inr ⟨by omega, by omega, ?_⟩
      rw [Nat.add_assoc, Nat.add_sub_cancel_left]
      exact replacement.next distance innerStart small
    · rw [Nat.add_assoc, same]
      exact .inl ⟨within.starts_end layout, .inr (Nat.le_refl _)⟩

private theorem Within.splice_reached {offset : Nat}
    (startHere : spliceStarts part start starts inner offset)
    (later : offset ≠ 0) :
    ∃ previous, spliceStarts part start starts inner previous ∧
      previous + (instAt (text.splice new start part.size)
        previous).inst.length = offset := by
  have nonempty := part.nonempty
  have inner_reached {distance : Nat} (innerStart : inner distance)
      (positive : distance ≠ 0) :
      ∃ previous, spliceStarts part start starts inner previous ∧
        previous + (instAt (text.splice new start part.size)
          previous).inst.length = start + distance := by
    obtain ⟨previous, earlier, ends⟩ :=
      replacement.reached distance innerStart positive
    have bound := replacement.within distance innerStart
    have length := instAt_length_pos new previous
    refine ⟨start + previous, .inr ⟨by omega, by omega, by
      rwa [Nat.add_sub_cancel_left]⟩, ?_⟩
    rw [instAt_copies (copies_inner replacement earlier (by omega)),
      Nat.add_assoc, ends]
  have outer_reached (outer : starts offset)
      (apart : offset ≤ start ∨ start + part.size < offset) :
      ∃ previous, spliceStarts part start starts inner previous ∧
        previous + (instAt (text.splice new start part.size)
          previous).inst.length = offset := by
    obtain ⟨previous, earlier, ends⟩ := layout.reached offset outer later
    have bound := layout.within offset outer
    have length := instAt_length_pos text previous
    have outside : previous < start ∨ start + part.size ≤ previous := by
      rcases apart with before | after
      · omega
      · by_contra straddles
        have stops := layout.ends_before earlier (within.starts_end layout)
          (by omega)
        omega
    refine ⟨previous, .inl ⟨earlier, outside⟩, ?_⟩
    rwa [instAt_copies (within.copies_outer layout earlier outside)]
  rcases startHere with ⟨outer, before | after⟩ | ⟨above, below, innerStart⟩
  · exact outer_reached outer (.inl (Nat.le_of_lt before))
  · rcases Nat.eq_or_lt_of_le after with rfl | strictly
    · exact inner_reached replacement.last (by omega)
    · exact outer_reached outer (.inr strictly)
  · obtain ⟨distance, rfl⟩ := Nat.exists_eq_add_of_le above
    rw [Nat.add_sub_cancel_left] at innerStart
    by_cases zero : distance = 0
    · subst zero
      exact outer_reached (within.lands_start layout).1 (.inl (Nat.le_refl _))
    · exact inner_reached innerStart zero

private theorem Within.splice_fits {offset : Nat}
    (startHere : spliceStarts part start starts inner offset)
    (inside : offset < segment.size) :
    Fits segment (text.splice new start part.size)
      (spliceStarts part start starts inner) offset := by
  have nonempty := part.nonempty
  rcases startHere with ⟨outer, outside⟩ | ⟨above, below, innerStart⟩
  · refine (layout.fits offset outer inside).copies rfl rfl
      (fun _ contained => contained)
      (within.copies_outer layout outer outside) ?_
    intro indirect guard guardStart ends length _
    have guardOutside : guard < start ∨ start + part.size ≤ guard := by
      rcases outside with before | after
      · omega
      · by_contra straddles
        have stops := layout.ends_before guardStart (within.starts_end layout)
          (by omega)
        have same : start + part.size = offset := by omega
        rw [← same] at indirect inside
        exact within.direct_end layout inside indirect
    have guardCopies : Copies text (text.splice new start part.size) guard
        guard 3 := by
      rw [← length]
      exact within.copies_outer layout guardStart guardOutside
    exact ⟨guard, .inl ⟨guardStart, guardOutside⟩, ends, guardCopies⟩
  · obtain ⟨distance, rfl⟩ := Nat.exists_eq_add_of_le above
    rw [Nat.add_sub_cancel_left] at innerStart
    have small : distance < part.size := by omega
    refine (replacement.fits distance innerStart small).copies
      (by rw [within.base, Nat.add_assoc]) within.alignment.symm
      (fun _ contained => within.contains contained)
      (copies_inner replacement innerStart small) ?_
    intro _ guard guardStart ends length _
    have guardCopies : Copies new (text.splice new start part.size) guard
        (start + guard) 3 := by
      rw [← length]
      exact copies_inner replacement guardStart (by omega)
    exact ⟨start + guard, .inr ⟨by omega, by omega, by
      rwa [Nat.add_sub_cancel_left]⟩, by omega, guardCopies⟩

theorem ValidLayout.splice
    (enters : ∀ offset < part.size,
      Lands segment text starts (start + offset) →
      Lands part new inner offset) :
    ValidLayout segment (text.splice new start part.size)
      (spliceStarts part start starts inner) := by
  have nonempty := part.nonempty
  have lands {offset : Nat} (old : Lands segment text starts offset) :=
    within.splice_lands layout replacement enters old
  refine ⟨?_, fun offset => within.splice_next layout replacement, ?_,
    fun offset => within.splice_reached layout replacement,
    fun offset => within.splice_fits layout replacement, ?_, ?_, layout.room⟩
  · rcases Nat.eq_zero_or_pos start with zero | positive
    · exact .inr ⟨by omega, by omega, by simpa using replacement.first⟩
    · exact .inl ⟨layout.first, .inl positive⟩
  · have ends := within.ends
    rintro offset (⟨outer, -⟩ | ⟨-, below, -⟩)
    · exact layout.within offset outer
    · omega
  · intro offset startHere inside target named contained
    rcases startHere with ⟨outer, outside⟩ | ⟨above, below, innerStart⟩
    · have prefixes := (layout.fits offset outer inside).prefixes
      rw [directTarget_copies rfl
        (within.copies_outer layout outer outside) prefixes] at named
      exact lands (layout.targets offset outer inside target named contained)
    · obtain ⟨distance, rfl⟩ := Nat.exists_eq_add_of_le above
      rw [Nat.add_sub_cancel_left] at innerStart
      have small : distance < part.size := by omega
      have fits := replacement.fits distance innerStart small
      rw [directTarget_copies (by rw [within.base, Nat.add_assoc])
        (copies_inner replacement innerStart small) fits.prefixes] at named
      by_cases own : part.bounds.Contains target
      · obtain ⟨targetStart, targetInside, type⟩ :=
          replacement.targets distance innerStart small target named own
        have base := within.base
        have place : target - segment.base = start + (target - part.base) := by
          unfold Bounds.Contains Segment.bounds at own
          simp only at own
          omega
        rw [place]
        refine ⟨.inr ⟨by omega, by omega, by rwa [Nat.add_sub_cancel_left]⟩,
          ?_, ?_⟩
        · have ends := within.ends
          omega
        · rwa [instAt_copies (copies_inner replacement targetStart targetInside)]
      · -- A jump out of the new bundles must go to a bundle boundary.
        have direct := directTarget_direct named
        rw [placed_opinfo] at direct
        have aligned :=
          ((fits.direct direct).target named).resolve_left own
        rw [Segment.aligned_iff, within.alignment] at aligned
        apply lands
        refine layout.blocks _ ?_ (Nat.dvd_sub aligned segment.aligned)
        unfold Bounds.Contains Segment.bounds at contained
        simp only at contained
        omega
  · intro offset inside divides
    exact lands (layout.blocks offset inside divides)

end Splice

end NativeClient.Validator32
