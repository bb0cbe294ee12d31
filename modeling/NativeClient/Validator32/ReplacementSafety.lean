import NativeClient.Validator32.ReplacementRun
import NativeClient.Validator32.Sandbox
import Mathlib.Logic.Relation

/-!
# Replacements keep a region valid

The replacement validator looks at a run of bundles alone.  The rest of the
region still fits around them, because control can enter the new bundles
wherever it could enter the old ones.
-/

namespace NativeClient.Validator32

open NativeClient.Library
open NativeClient.Decoder

/-- A replacement of a run of bundles by code that was accepted for it: the
bytes that the validator left in the new buffer take the place of the old
ones. -/
inductive Replaces (cpufeatures : CPUFeatures) (vbase vlimit : UInt32)
    (alignment : UInt8) (before : Buffer) : Buffer → Prop where
  | replace (start stop : UInt32) (new final : Buffer)
      (above : vbase ≤ start) (below : stop ≤ vlimit)
      (startAligned : alignment.toNat ∣ start.toNat)
      (stopAligned : alignment.toNat ∣ stop.toNat ∨ stop = vlimit)
      (accepted : ValidatesReplacement cpufeatures start stop alignment
        (before.shift (start.toNat - vbase.toNat)) new 0 final) :
      Replaces cpufeatures vbase vlimit alignment before
        (before.splice final (start.toNat - vbase.toNat)
          (stop.toNat - start.toNat))

theorem offsetAt_shift
    {text : Buffer} {first start : Nat} (begins : offsetAt text first = start)
    (number : Nat) :
    offsetAt text (first + number) =
      start + offsetAt (text.shift start) number := by
  induction number with
  | zero => exact begins
  | succ number ih =>
      rw [← Nat.add_assoc, offsetAt_succ, offsetAt_succ, ih, instAt_shift,
        Nat.add_assoc]

private theorem enters_replacement
    {segment part : Segment} {text new : Buffer} {count partCount start : Nat}
    (valid : ValidSegment segment text count)
    (newValid : ValidSegment part new partCount)
    (within : Within part segment start)
    (matched : Matched (text.shift start) new partCount)
    {offset : Nat} (inside : offset < part.size)
    (landing : Landing text count (start + offset)) :
    Landing new partCount offset := by
  have nonempty := part.nonempty
  have ends := within.ends
  obtain ⟨first, -, begins, -⟩ :=
    valid.blocks start (by omega) within.divides
  obtain ⟨number, -, place, type⟩ := landing
  obtain ⟨distance, rfl⟩ : ∃ distance, number = first + distance := by
    apply Nat.exists_eq_add_of_le
    rw [← (offsetAt_strictMono text).le_iff_le]
    omega
  rw [offsetAt_shift begins] at place
  have oldPlace : offsetAt (text.shift start) distance = offset := by omega
  have few : distance < partCount := by
    apply (offsetAt_strictMono (text.shift start)).lt_iff_lt.mp
    rw [oldPlace, matched.starts partCount (Nat.le_refl _), newValid.tiles]
    exact inside
  have newPlace : offsetAt new distance = offset :=
    (matched.starts distance (Nat.le_of_lt few)).symm.trans oldPlace
  refine ⟨distance, few, newPlace, ?_⟩
  have kinds := matched.indirect distance few
  rw [oldPlace, newPlace, instAt_shift] at kinds
  exact fun indirect => type (kinds.mpr indirect)

section Regions

variable {cpufeatures : CPUFeatures} {vbase vlimit : UInt32}
  {alignment : UInt8} {text text' : Buffer}

theorem Replaces.accepted
    (replaces : Replaces cpufeatures vbase vlimit alignment text text')
    (accepted :
      ∃ final, Validates cpufeatures vbase vlimit alignment text 0 final) :
    ∃ final, Validates cpufeatures vbase vlimit alignment text' 0 final := by
  obtain ⟨final, validates⟩ := accepted
  obtain ⟨implemented, segment, describes, count, valid, -⟩ :=
    accepts_iff.mp validates
  obtain ⟨start, stop, new, newFinal, above, below, startAligned, stopAligned,
    pairAccepted⟩ := replaces
  obtain ⟨-, part, partDescribes, partCount, newValid, matched, rfl⟩ :=
    accepts_replacement pairAccepted
  obtain ⟨finalCount, finalValid, finalLanding⟩ :=
    newValid.stubbed_valid cpufeatures
  rw [UInt32.le_iff_toNat_le] at above below
  have base := describes.base
  have limit := describes.limit
  have partBase := partDescribes.base
  have partLimit := partDescribes.limit
  have sameAlignment : part.alignment = segment.alignment := by
    rw [partDescribes.alignment, describes.alignment]
  have within : Within part segment (start.toNat - vbase.toNat) := by
    refine ⟨by omega, sameAlignment, by omega, ?_, ?_⟩
    · rw [← base]
      refine Nat.dvd_sub ?_ segment.aligned
      rw [describes.alignment]
      exact startAligned
    · rcases stopAligned with divides | rfl
      · left
        have stopPlace : start.toNat - vbase.toNat + part.size =
            stop.toNat - segment.base := by omega
        rw [stopPlace]
        refine Nat.dvd_sub ?_ segment.aligned
        rw [describes.alignment]
        exact divides
      · right
        omega
  have size : stop.toNat - start.toNat = part.size := by omega
  rw [size]
  have layout := valid.layout.splice finalValid.layout within (by
    intro offset inside lands
    rw [valid.lands_iff] at lands
    rw [finalValid.lands_iff]
    exact finalLanding offset
      (enters_replacement valid newValid within matched inside lands))
  obtain ⟨newCount, newRegion, -⟩ := layout.validSegment
  exact ⟨_, accepts_iff.mpr
    ⟨implemented, segment, describes, newCount, newRegion, rfl⟩⟩

/-- A region that was accepted once is accepted again after any number of
accepted replacements. -/
theorem accepted_after_replacements
    (accepted :
      ∃ final, Validates cpufeatures vbase vlimit alignment text 0 final)
    (replaced : Relation.ReflTransGen
      (Replaces cpufeatures vbase vlimit alignment) text text') :
    ∃ final, Validates cpufeatures vbase vlimit alignment text' 0 final := by
  induction replaced with
  | refl => exact accepted
  | tail _ replaces ih => exact replaces.accepted ih

theorem exists_validatesReplacement
    {old new : Buffer} {verdict : Nat} (fuel : Nat)
    (run : (do
      let vstate ← ncValidateInit vbase vlimit alignment
      let validation ← ncValidateSegmentPair cpufeatures vbase.toNat
        (vlimit.toNat - vbase.toNat) old ⟨new, vstate⟩ fuel
      ncValidateFinish (some validation.vstate) fuel) = some verdict) :
    ∃ final, ValidatesReplacement cpufeatures vbase vlimit alignment old new
      verdict final := by
  simp only [Option.bind_eq_bind, Option.bind_eq_some_iff] at run
  obtain ⟨vstate, init, validation, segment, finish⟩ := run
  exact ⟨validation.memory, vstate, init, fuel, validation, segment, rfl,
    finish⟩

end Regions

/-- Two bundles of `nop`, the second of them replaced. -/
theorem accepted_after_replacements_inc :
    let text := Buffer.ofList (List.replicate 32 0x90)
    ∃ final, (∃ before, Validates { f386 := true } 0x10000 0x10020 16 text 0
        before) ∧
      ∃ after, Validates { f386 := true } 0x10000 0x10020 16
        (text.splice final 16 16) 0 after := by
  intro text
  have accepted : ∃ before,
      Validates { f386 := true } 0x10000 0x10020 16 text 0 before :=
    exists_validates 40 (by decide +kernel)
  obtain ⟨final, replacement⟩ : ∃ final,
      ValidatesReplacement { f386 := true } 0x10010 0x10020 16 (text.shift 16)
        (Buffer.ofList (List.replicate 16 0x40)) 0 final :=
    exists_validatesReplacement 40 (by decide +kernel)
  have replaces : Replaces { f386 := true } 0x10000 0x10020 16 text
      (text.splice final 16 16) :=
    .replace 0x10010 0x10020 _ final (by decide) (by decide) (by decide)
      (.inl (by decide)) replacement
  exact ⟨final, accepted,
    accepted_after_replacements accepted (.single replaces)⟩

end NativeClient.Validator32
