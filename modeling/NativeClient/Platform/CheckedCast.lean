import Mathlib.Data.Int.Basic
import Mathlib.Tactic.Ring

/-!
# Checked casts

A cast is checked by comparing with the limits of the target, which are cast
into the source type for it.  There is one way to do this for each combination
of signed and unsigned types.
-/

namespace NativeClient.Platform

structure IntType where
  signed : Bool
  width : Nat
  positive : 0 < width

namespace IntType

variable (type : IntType)

def min : Int := if type.signed then -(2 ^ (type.width - 1)) else 0

def max : Int :=
  if type.signed then 2 ^ (type.width - 1) - 1 else 2 ^ type.width - 1

/-- `digits` of `numeric_limits`. -/
def digits : Nat := if type.signed then type.width - 1 else type.width

def cast (value : Int) : Int :=
  if type.signed then value.bmod (2 ^ type.width)
  else value % 2 ^ type.width

def Represents (value : Int) : Prop := type.min ≤ value ∧ value ≤ type.max

end IntType

section Ranges

/-- `cast_min`, into the type `type` of `b`. -/
def castMin (type : IntType) (a b : Int) : Int :=
  if type.cast a < b then type.cast a else b

def castMax (type : IntType) (a b : Int) : Int :=
  if type.cast a > b then type.cast a else b

variable (target source : IntType)

/-- `OverlapMin` of the `RangeDetail` for the signs of the types. -/
def overlapMin : Int :=
  if target.signed = source.signed then
    castMax source target.min source.min
  else if target.signed then
    if target.min ≥ 0 then castMax source target.min source.min
    else source.min
  else
    if source.min ≥ 0 then castMax source target.min source.min
    else if source.max ≥ 0 then castMin source target.min source.max
    else source.min

def overlapMax : Int :=
  if target.signed = source.signed then
    castMin source target.max source.max
  else if target.signed then
    if target.max ≥ 0 then castMin source target.max source.max
    else source.min
  else
    if source.max ≥ 0 then castMin source target.max source.max
    else source.min

def overlapExists : Bool := overlapMin target source < overlapMax target source

/-- `kCompileTimeTrivial`; all types are supported. -/
def compileTimeTrivial : Bool :=
  target.signed == source.signed && decide (target.digits ≥ source.digits)

def runtimeTrivial : Bool :=
  compileTimeTrivial target source &&
    (decide (target.min ≤ source.min) && decide (target.max ≥ source.max))

def runtimeRangeCheck (src : Int) : Bool :=
  overlapExists target source &&
    (decide (src ≤ overlapMax target source) &&
      decide (src ≥ overlapMin target source))

def canCast (input : Int) : Bool :=
  runtimeTrivial target source ||
    (overlapExists target source && runtimeRangeCheck target source input)

def checkedCast (onTruncate : Int → Option Int) (input : Int) : Option Int :=
  if canCast target source input then some (target.cast input)
  else onTruncate input

/-- `OnTruncate` of `TruncationPolicySaturate`. -/
def onTruncateSaturate (input : Int) : Option Int :=
  if !overlapExists target source then none
  else
    let clamped := Max.max input (overlapMin target source)
    let clamped := Min.min clamped (overlapMax target source)
    some (target.cast clamped)

def saturateCast (input : Int) : Option Int :=
  checkedCast target source (onTruncateSaturate target source) input

end Ranges

section Types

variable {type : IntType}

theorem two_pow_width (type : IntType) :
    (2 : Int) ^ type.width = 2 * 2 ^ (type.width - 1) := by
  obtain ⟨width, same⟩ : ∃ width, type.width = width + 1 :=
    ⟨type.width - 1, by have := type.positive; omega⟩
  rw [same, Nat.add_sub_cancel, pow_succ]
  ring

theorem half_pos (type : IntType) : (0 : Int) < 2 ^ (type.width - 1) :=
  Int.pow_pos (by decide)

theorem IntType.Represents.cast_eq
    {value : Int} (represents : type.Represents value) :
    type.cast value = value := by
  obtain ⟨least, most⟩ := represents
  have whole := two_pow_width type
  have half := half_pos type
  unfold IntType.min at least
  unfold IntType.max at most
  unfold IntType.cast
  cases sign : type.signed with
  | true =>
      rw [sign, if_pos rfl] at least most
      rw [if_pos rfl]
      apply Int.bmod_eq_of_le
      · push_cast
        omega
      · push_cast
        omega
  | false =>
      rw [sign, if_neg (by decide)] at least most
      rw [if_neg (by decide)]
      exact Int.emod_eq_of_lt least (by omega)

end Types

section Overlap

variable {target source : IntType}

theorem castMin_of_represents
    {type : IntType} {a : Int} (represents : type.Represents a) (b : Int) :
    castMin type a b = Min.min a b := by
  unfold castMin
  rw [represents.cast_eq]
  split
  next less => omega
  next => omega

theorem castMax_of_represents
    {type : IntType} {a : Int} (represents : type.Represents a) (b : Int) :
    castMax type a b = Max.max a b := by
  unfold castMax
  rw [represents.cast_eq]
  split
  next less => omega
  next => omega

def Overlaps (target source : IntType) : Prop :=
  overlapMin target source = Max.max target.min source.min ∧
    overlapMax target source = Min.min target.max source.max ∧
    Max.max target.min source.min < Min.min target.max source.max

theorem pow_le_pow_of_le {first second : Nat} (less : first ≤ second) :
    (2 : Int) ^ first ≤ 2 ^ second := by
  exact_mod_cast Nat.pow_le_pow_right (by decide) less

theorem overlaps_same
    (sign : target.signed = source.signed) (less : target.width < source.width) :
    Overlaps target source := by
  have half := half_pos target
  have whole := two_pow_width target
  have halves := pow_le_pow_of_le
    (show target.width - 1 ≤ source.width - 1 by omega)
  have wholes := pow_le_pow_of_le (Nat.le_of_lt less)
  have limits : source.min ≤ target.min ∧ target.min < target.max ∧
      target.max ≤ source.max := by
    unfold IntType.min IntType.max
    rw [← sign]
    cases target.signed with
    | true =>
        simp only [if_true]
        omega
    | false =>
        simp only [Bool.false_eq_true, if_false]
        omega
  unfold Overlaps overlapMin overlapMax
  rw [if_pos sign, if_pos sign,
    castMax_of_represents ⟨limits.1, by omega⟩,
    castMin_of_represents ⟨by omega, limits.2.2⟩]
  exact ⟨rfl, rfl, by omega⟩

theorem overlaps_signed
    (isSigned : target.signed = true) (unsigned : source.signed = false)
    (wide : 1 < target.width) :
    Overlaps target source := by
  have half := half_pos target
  have more : (2 : Int) ^ 1 ≤ 2 ^ (target.width - 1) :=
    pow_le_pow_of_le (by omega)
  have some : (2 : Int) ^ 1 ≤ 2 ^ source.width :=
    pow_le_pow_of_le source.positive
  have differ : ¬ target.signed = source.signed := by
    rw [isSigned, unsigned]
    decide
  have minTarget : target.min = -(2 ^ (target.width - 1)) := by
    rw [IntType.min, isSigned, if_pos rfl]
  have maxTarget : target.max = 2 ^ (target.width - 1) - 1 := by
    rw [IntType.max, isSigned, if_pos rfl]
  have minSource : source.min = 0 := by
    rw [IntType.min, unsigned, if_neg (by decide)]
  have maxSource : source.max = 2 ^ source.width - 1 := by
    rw [IntType.max, unsigned, if_neg (by decide)]
  have top : castMin source target.max source.max =
      Min.min target.max source.max := by
    rcases Nat.le_total (target.width - 1) source.width with narrow | wider
    · have limits := pow_le_pow_of_le narrow
      exact castMin_of_represents ⟨by omega, by omega⟩ _
    · -- The limit is cast to the largest value of the source.
      obtain ⟨rest, split⟩ := Nat.exists_eq_add_of_le wider
      have factor : target.max = (2 ^ source.width - 1) +
          2 ^ source.width * (2 ^ rest - 1) := by
        rw [maxTarget, split, pow_add]
        ring
      have wrapped : source.cast target.max = source.max := by
        rw [IntType.cast, unsigned, if_neg (by decide), factor,
          Int.add_mul_emod_self_left, maxSource]
        exact Int.emod_eq_of_lt (by omega) (by omega)
      have limits := pow_le_pow_of_le wider
      unfold castMin
      rw [wrapped, if_neg (Int.lt_irrefl _)]
      omega
  unfold Overlaps overlapMin overlapMax
  rw [if_neg differ, if_neg differ, if_pos isSigned, if_pos isSigned,
    if_neg (by omega), if_pos (by omega), top]
  exact ⟨by omega, rfl, by omega⟩

theorem overlaps_unsigned
    (unsigned : target.signed = false) (isSigned : source.signed = true)
    (less : target.width < source.width) :
    Overlaps target source := by
  have half := half_pos source
  have some : (2 : Int) ^ 1 ≤ 2 ^ target.width :=
    pow_le_pow_of_le target.positive
  have limits := pow_le_pow_of_le
    (show target.width ≤ source.width - 1 by omega)
  have differ : ¬ target.signed = source.signed := by
    rw [isSigned, unsigned]
    decide
  have minTarget : target.min = 0 := by
    rw [IntType.min, unsigned, if_neg (by decide)]
  have maxTarget : target.max = 2 ^ target.width - 1 := by
    rw [IntType.max, unsigned, if_neg (by decide)]
  have minSource : source.min = -(2 ^ (source.width - 1)) := by
    rw [IntType.min, isSigned, if_pos rfl]
  have maxSource : source.max = 2 ^ (source.width - 1) - 1 := by
    rw [IntType.max, isSigned, if_pos rfl]
  have notSigned : ¬ target.signed = true := by
    rw [unsigned]
    decide
  unfold Overlaps overlapMin overlapMax
  rw [if_neg differ, if_neg differ, if_neg notSigned, if_neg notSigned,
    if_neg (by omega), if_pos (by omega), if_pos (by omega),
    castMin_of_represents ⟨by omega, by omega⟩,
    castMin_of_represents ⟨by omega, by omega⟩]
  exact ⟨by omega, rfl, by omega⟩

end Overlap

section Exactness

/-- The casts between two types are exact: `can_cast` tells whether the value is
in the target, `checked_cast` keeps it then, and `saturate_cast` yields the
nearest value. -/
def Exact (target source : IntType) : Prop :=
  ∀ input, source.Represents input →
    (canCast target source input = true ↔ target.Represents input) ∧
    (target.Represents input → ∀ onTruncate,
      checkedCast target source onTruncate input = some input) ∧
    ∃ output, saturateCast target source input = some output ∧
      target.Represents output ∧
      ∀ other, target.Represents other →
        (input - output).natAbs ≤ (input - other).natAbs

def Comparable (target source : IntType) : Prop :=
  (target.signed = false → source.signed = true →
    target.width < source.width) ∧
  (target.signed = true → source.signed = false → 1 < target.width)

variable {target source : IntType}

theorem exact_of_canCast
    (can : ∀ input, source.Represents input →
      (canCast target source input = true ↔ target.Represents input))
    (saturates : ∀ input, source.Represents input →
      ¬ target.Represents input →
      ∃ output, onTruncateSaturate target source input = some output ∧
        target.Represents output ∧
        ∀ other, target.Represents other →
          (input - output).natAbs ≤ (input - other).natAbs) :
    Exact target source := by
  intro input inSource
  have decides := can input inSource
  have keeps : target.Represents input → ∀ onTruncate,
      checkedCast target source onTruncate input = some input := by
    intro represents onTruncate
    unfold checkedCast
    rw [if_pos (decides.mpr represents), represents.cast_eq]
  refine ⟨decides, keeps, ?_⟩
  by_cases represents : target.Represents input
  · refine ⟨input, keeps represents _, represents, ?_⟩
    intro other _
    rw [Int.sub_self]
    exact Nat.zero_le _
  · unfold saturateCast checkedCast
    rw [if_neg (fun cast => represents (decides.mp cast))]
    exact saturates input inSource represents

theorem exact_of_overlaps
    (overlaps : Overlaps target source)
    (nontrivial : runtimeTrivial target source = false) :
    Exact target source := by
  obtain ⟨least, most, some⟩ := overlaps
  have exist : overlapExists target source = true := by
    unfold overlapExists
    rw [least, most]
    exact decide_eq_true some
  apply exact_of_canCast
  · rintro input ⟨above, below⟩
    unfold canCast runtimeRangeCheck
    rw [nontrivial, exist, least, most, Bool.false_or, Bool.true_and,
      Bool.true_and, Bool.and_eq_true, decide_eq_true_iff, decide_eq_true_iff]
    unfold IntType.Represents
    omega
  · rintro input ⟨above, below⟩ outside
    have within : target.Represents
        (Min.min (Max.max input (overlapMin target source))
          (overlapMax target source)) := by
      rw [least, most]
      unfold IntType.Represents
      omega
    refine ⟨_, ?_, within, ?_⟩
    · unfold onTruncateSaturate
      rw [exist]
      dsimp only
      rw [if_neg (by decide), within.cast_eq]
    · rintro other ⟨otherAbove, otherBelow⟩
      rw [least, most]
      unfold IntType.Represents at outside
      omega

theorem exact_of_trivial
    (isTrivial : runtimeTrivial target source = true) :
    Exact target source := by
  have limits := isTrivial
  unfold runtimeTrivial at limits
  rw [Bool.and_eq_true, Bool.and_eq_true, decide_eq_true_iff,
    decide_eq_true_iff] at limits
  have all : ∀ input, source.Represents input → target.Represents input := by
    rintro input ⟨above, below⟩
    exact ⟨by omega, by omega⟩
  apply exact_of_canCast
  · intro input inSource
    unfold canCast
    rw [isTrivial]
    exact iff_of_true rfl (all input inSource)
  · intro input inSource outside
    exact absurd (all input inSource) outside

theorem trivial_of_wide
    (sign : target.signed = source.signed) (wide : source.width ≤ target.width) :
    runtimeTrivial target source = true := by
  have halves := pow_le_pow_of_le
    (show source.width - 1 ≤ target.width - 1 by omega)
  have wholes := pow_le_pow_of_le wide
  unfold runtimeTrivial compileTimeTrivial
  simp only [Bool.and_eq_true, decide_eq_true_iff, beq_iff_eq]
  refine ⟨⟨sign, ?_⟩, ?_, ?_⟩
  · unfold IntType.digits
    rw [← sign]
    split
    next => omega
    next => omega
  · unfold IntType.min
    rw [← sign]
    split
    next => omega
    next => omega
  · unfold IntType.max
    rw [← sign]
    split
    next => omega
    next => omega

theorem nontrivial_of_signs (differ : target.signed ≠ source.signed) :
    runtimeTrivial target source = false := by
  unfold runtimeTrivial compileTimeTrivial
  rw [beq_eq_false_iff_ne.mpr differ]
  rfl

theorem exact_of_comparable (comparable : Comparable target source) :
    Exact target source := by
  by_cases sign : target.signed = source.signed
  · cases isTrivial : runtimeTrivial target source with
    | true => exact exact_of_trivial isTrivial
    | false =>
        have less : target.width < source.width := by
          by_contra wide
          have isTrivial' := trivial_of_wide sign (Nat.not_lt.mp wide)
          rw [isTrivial] at isTrivial'
          cases isTrivial'
        exact exact_of_overlaps (overlaps_same sign less) isTrivial
  · have nontrivial := nontrivial_of_signs sign
    cases targetSign : target.signed with
    | true =>
        cases sourceSign : source.signed with
        | true => exact absurd (targetSign.trans sourceSign.symm) sign
        | false =>
            exact exact_of_overlaps (overlaps_signed targetSign sourceSign
              (comparable.2 targetSign sourceSign)) nontrivial
    | false =>
        cases sourceSign : source.signed with
        | true =>
            exact exact_of_overlaps (overlaps_unsigned targetSign sourceSign
              (comparable.1 targetSign sourceSign)) nontrivial
        | false => exact absurd (targetSign.trans sourceSign.symm) sign

end Exactness

section Failures

variable {target source : IntType}

theorem not_exact_of_noOverlap
    (differ : target.signed ≠ source.signed)
    (apart : overlapExists target source = false) (represents :
      source.Represents 0) :
    ¬ Exact target source := by
  intro exact
  obtain ⟨output, saturated, -⟩ := (exact 0 represents).2.2
  unfold saturateCast checkedCast canCast onTruncateSaturate at saturated
  rw [nontrivial_of_signs differ, apart] at saturated
  cases saturated

theorem cast_max_unsigned
    (isSigned : source.signed = true) (unsigned : target.signed = false)
    (wide : source.width ≤ target.width) :
    source.cast target.max = -1 := by
  obtain ⟨rest, split⟩ := Nat.exists_eq_add_of_le wide
  have half := half_pos source
  have whole := two_pow_width source
  have factor : target.max =
      -1 + ((2 ^ source.width : Nat) : Int) * 2 ^ rest := by
    rw [IntType.max, unsigned, if_neg (by decide), split, pow_add]
    push_cast
    ring
  rw [IntType.cast, isSigned, if_pos rfl, factor, Int.add_mul_bmod_self_left]
  apply Int.bmod_eq_of_le
  · push_cast
    omega
  · push_cast
    omega

theorem noOverlap_unsigned
    (unsigned : target.signed = false) (isSigned : source.signed = true)
    (wide : source.width ≤ target.width) :
    overlapExists target source = false := by
  have half := half_pos source
  have minTarget : target.min = 0 := by
    rw [IntType.min, unsigned, if_neg (by decide)]
  have minSource : source.min = -(2 ^ (source.width - 1)) := by
    rw [IntType.min, isSigned, if_pos rfl]
  have maxSource : source.max = 2 ^ (source.width - 1) - 1 := by
    rw [IntType.max, isSigned, if_pos rfl]
  have notSigned : ¬ target.signed = true := by
    rw [unsigned]
    decide
  have differ : ¬ target.signed = source.signed := by
    rw [isSigned]
    exact notSigned
  unfold overlapExists overlapMin overlapMax
  rw [if_neg differ, if_neg differ, if_neg notSigned, if_neg notSigned,
    if_neg (by omega), if_pos (by omega), if_pos (by omega),
    castMin_of_represents ⟨by omega, by omega⟩]
  unfold castMin
  rw [cast_max_unsigned isSigned unsigned wide, if_pos (by omega)]
  exact decide_eq_false (by omega)

theorem noOverlap_oneBit
    (isSigned : target.signed = true) (unsigned : source.signed = false)
    (narrow : target.width ≤ 1) :
    overlapExists target source = false := by
  have some : (2 : Int) ^ 1 ≤ 2 ^ source.width :=
    pow_le_pow_of_le source.positive
  have one : target.width - 1 = 0 := by omega
  have minTarget : target.min = -1 := by
    rw [IntType.min, isSigned, if_pos rfl, one]
    rfl
  have maxTarget : target.max = 0 := by
    rw [IntType.max, isSigned, if_pos rfl, one]
    rfl
  have minSource : source.min = 0 := by
    rw [IntType.min, unsigned, if_neg (by decide)]
  have maxSource : source.max = 2 ^ source.width - 1 := by
    rw [IntType.max, unsigned, if_neg (by decide)]
  have differ : ¬ target.signed = source.signed := by
    rw [isSigned, unsigned]
    decide
  unfold overlapExists overlapMin overlapMax
  rw [if_neg differ, if_neg differ, if_pos isSigned, if_pos isSigned,
    if_neg (by omega), if_pos (by omega),
    castMin_of_represents ⟨by omega, by omega⟩]
  exact decide_eq_false (by omega)

theorem represents_zero (type : IntType) : type.Represents 0 := by
  have half := half_pos type
  have whole := two_pow_width type
  unfold IntType.Represents IntType.min IntType.max
  split
  next => omega
  next => omega

/-- The casts between two types are exact just when the limits of the target
can be compared in the source type. -/
theorem exact_iff_comparable (target source : IntType) :
    Exact target source ↔ Comparable target source := by
  constructor
  · intro exact
    refine ⟨?_, ?_⟩
    · intro unsigned isSigned
      by_contra wide
      have differ : target.signed ≠ source.signed := by
        rw [unsigned, isSigned]
        decide
      exact not_exact_of_noOverlap differ
        (noOverlap_unsigned unsigned isSigned (Nat.not_lt.mp wide))
        (represents_zero source) exact
    · intro isSigned unsigned
      by_contra narrow
      have differ : target.signed ≠ source.signed := by
        rw [unsigned, isSigned]
        decide
      exact not_exact_of_noOverlap differ
        (noOverlap_oneBit isSigned unsigned (Nat.not_lt.mp narrow))
        (represents_zero source) exact
  · exact exact_of_comparable

/-- 5 is not cast from a signed to an unsigned type of 32 bits. -/
theorem unsigned32_rejects_five :
    ¬ (IntType.Represents ⟨true, 32, by decide⟩ 5 →
      (canCast ⟨false, 32, by decide⟩ ⟨true, 32, by decide⟩ 5 = true ↔
        IntType.Represents ⟨false, 32, by decide⟩ 5)) := by
  intro exact
  have can := (exact ⟨by decide, by decide⟩).mpr ⟨by decide, by decide⟩
  exact absurd can (by decide)

end Failures

end NativeClient.Platform
