import Mathlib.Data.Nat.Periodic
import Mathlib.Data.Fintype.BigOperators
import Mathlib.Data.Fintype.Fin

/-!
# Uniform random numbers

`uniform` turns 32-bit outputs of a generator into numbers below a bound.  It
drops the outputs below the bias, so that the number of the others is a
multiple of the bound.
-/

namespace NativeClient.Platform

def bias (rangeMax : UInt32) : UInt32 := ~~~0 % rangeMax + 1

/-- `NaClSecureRngDefaultUniform`, from the outputs of `GenUint32` on: the
number and the outputs that are left, or nothing if there are too few. -/
def uniform (rangeMax : UInt32) : List UInt32 → Option (UInt32 × List UInt32)
  | [] => none
  | v :: outputs =>
      if rangeMax &&& (rangeMax - 1) = 0 then
        some (v &&& (rangeMax - 1), outputs)
      else if v < bias rangeMax then uniform rangeMax outputs
      else some (v % rangeMax, outputs)

/-- The number of outputs that are turned into `value` when the generator yields
them between the outputs `earlier` and `later`. -/
def preimages (rangeMax : UInt32) (earlier later : List UInt32)
    (value : UInt32) : Nat :=
  Nat.count (fun output =>
    uniform rangeMax (earlier ++ output.toUInt32 :: later) =
      some (value, later)) (2 ^ 32)

/-- The number of outputs with which the call returns. -/
def accepted (rangeMax : UInt32) (earlier later : List UInt32) : Nat :=
  Nat.count (fun output =>
    (uniform rangeMax (earlier ++ output.toUInt32 :: later)).map Prod.snd =
      some later) (2 ^ 32)

section Outputs

variable {rangeMax : UInt32}

def least (rangeMax : UInt32) : Nat :=
  if rangeMax &&& (rangeMax - 1) = 0 then 0 else (bias rangeMax).toNat

variable (positive : rangeMax ≠ 0)

include positive

theorem isPowerOfTwo_iff :
    rangeMax &&& (rangeMax - 1) = 0 ↔ rangeMax.toNat.isPowerOfTwo := by
  have notZero : rangeMax.toNat ≠ 0 := by
    intro zero
    exact positive (UInt32.toNat_inj.mp zero)
  have one : (1 : UInt32) ≤ rangeMax := by
    rw [UInt32.le_iff_toNat_le]
    change 1 ≤ rangeMax.toNat
    omega
  rw [← Nat.and_sub_one_eq_zero_iff_isPowerOfTwo notZero, ← UInt32.toNat_inj,
    UInt32.toNat_and, UInt32.toNat_sub_of_le _ _ one]
  rfl

theorem toNat_pos : 0 < rangeMax.toNat := by
  rw [Nat.pos_iff_ne_zero]
  intro zero
  exact positive (UInt32.toNat_inj.mp zero)

theorem toNat_bias :
    (bias rangeMax).toNat = (2 ^ 32 - 1) % rangeMax.toNat + 1 := by
  have small := rangeMax.toNat_lt
  have below := Nat.mod_lt (2 ^ 32 - 1) (toNat_pos positive)
  have ones : (~~~0 : UInt32).toNat = 2 ^ 32 - 1 := by decide
  unfold bias
  rw [UInt32.toNat_add, UInt32.toNat_mod, ones]
  exact Nat.mod_eq_of_lt (show (2 ^ 32 - 1) % rangeMax.toNat + 1 < 2 ^ 32 by
    omega)

theorem least_spec :
    (∃ count, 0 < count ∧
      least rangeMax + rangeMax.toNat * count = 2 ^ 32) ∧
      least rangeMax ≤ 2 ^ 31 := by
  have pos := toNat_pos positive
  have small := rangeMax.toNat_lt
  unfold least
  by_cases power : rangeMax &&& (rangeMax - 1) = 0
  · rw [if_pos power]
    obtain ⟨exponent, value⟩ := (isPowerOfTwo_iff positive).mp power
    have short : exponent ≤ 32 := by
      rw [value] at small
      exact Nat.le_of_lt ((Nat.pow_lt_pow_iff_right (by decide)).mp small)
    refine ⟨⟨2 ^ (32 - exponent), Nat.pow_pos (by decide), ?_⟩, by decide⟩
    rw [value, Nat.zero_add, ← Nat.pow_add, Nat.add_sub_of_le short]
  · rw [if_neg power, toNat_bias positive]
    have division := Nat.div_add_mod (2 ^ 32 - 1) rangeMax.toNat
    have below := Nat.mod_lt (2 ^ 32 - 1) pos
    have some : 0 < (2 ^ 32 - 1) / rangeMax.toNat :=
      Nat.div_pos (by omega) pos
    have once : rangeMax.toNat ≤
        rangeMax.toNat * ((2 ^ 32 - 1) / rangeMax.toNat) :=
      Nat.le_mul_of_pos_right _ some
    exact ⟨⟨_, some, by omega⟩, by omega⟩

theorem uniform_cons
    (v : UInt32) (outputs : List UInt32) :
    uniform rangeMax (v :: outputs) =
      if least rangeMax ≤ v.toNat then some (v % rangeMax, outputs)
      else uniform rangeMax outputs := by
  rw [uniform]
  unfold least
  by_cases power : rangeMax &&& (rangeMax - 1) = 0
  · rw [if_pos power, if_pos power, if_pos (Nat.zero_le _)]
    obtain ⟨exponent, value⟩ := (isPowerOfTwo_iff positive).mp power
    have one : (1 : UInt32) ≤ rangeMax := by
      rw [UInt32.le_iff_toNat_le]
      exact toNat_pos positive
    have low : v &&& (rangeMax - 1) = v % rangeMax := by
      apply UInt32.toNat_inj.mp
      rw [UInt32.toNat_and, UInt32.toNat_sub_of_le _ _ one, UInt32.toNat_mod,
        value]
      exact Nat.and_two_pow_sub_one_eq_mod _ _
    rw [low]
  · have below : v < bias rangeMax ↔ v.toNat < (bias rangeMax).toNat :=
      UInt32.lt_iff_toNat_lt
    rw [if_neg power, if_neg power]
    by_cases rejected : v.toNat < (bias rangeMax).toNat
    · rw [if_pos (below.mpr rejected), if_neg (by omega)]
    · rw [if_neg (fun less => rejected (below.mp less)), if_pos (by omega)]

theorem length_uniform_lt
    {outputs rest : List UInt32} {v : UInt32}
    (returned : uniform rangeMax outputs = some (v, rest)) :
    rest.length < outputs.length := by
  induction outputs with
  | nil => cases returned
  | cons output outputs ih =>
      rw [uniform_cons positive] at returned
      rw [List.length_cons]
      split at returned
      next =>
        cases returned
        exact Nat.lt_succ_self _
      next => exact Nat.lt_succ_of_lt (ih returned)

theorem uniform_lt
    {outputs rest : List UInt32} {v : UInt32}
    (returned : uniform rangeMax outputs = some (v, rest)) :
    v < rangeMax := by
  induction outputs with
  | nil => cases returned
  | cons output outputs ih =>
      rw [uniform_cons positive] at returned
      split at returned
      next =>
        cases returned
        rw [UInt32.lt_iff_toNat_lt, UInt32.toNat_mod]
        exact Nat.mod_lt _ (toNat_pos positive)
      next => exact ih returned

theorem uniform_eq_none (outputs : List UInt32) :
    uniform rangeMax outputs = none ↔
      ∀ v ∈ outputs, v.toNat < least rangeMax := by
  induction outputs with
  | nil => exact iff_of_true rfl (fun _ member => absurd member List.not_mem_nil)
  | cons output outputs ih =>
      rw [uniform_cons positive, List.forall_mem_cons]
      by_cases enough : least rangeMax ≤ output.toNat
      · rw [if_pos enough]
        exact iff_of_false nofun (fun both => absurd both.1 (by omega))
      · rw [if_neg enough, ih]
        exact ⟨fun rest => ⟨by omega, rest⟩, fun both => both.2⟩

/-- Outputs that are dropped leave no trace. -/
theorem uniform_append
    {earlier : List UInt32}
    (none : uniform rangeMax earlier = none) (rest : List UInt32) :
    uniform rangeMax (earlier ++ rest) = uniform rangeMax rest := by
  rw [uniform_eq_none positive] at none
  induction earlier with
  | nil => rfl
  | cons output earlier ih =>
      rw [List.forall_mem_cons] at none
      rw [List.cons_append, uniform_cons positive, if_neg (by omega),
        ih none.2]

theorem uniform_eq_some_later
    {earlier : List UInt32}
    (none : uniform rangeMax earlier = none) (output : UInt32)
    (later : List UInt32) (value : UInt32) :
    uniform rangeMax (earlier ++ output :: later) = some (value, later) ↔
      least rangeMax ≤ output.toNat ∧ output % rangeMax = value := by
  rw [uniform_append positive none, uniform_cons positive]
  by_cases enough : least rangeMax ≤ output.toNat
  · rw [if_pos enough, Option.some_inj, Prod.mk.injEq]
    exact ⟨fun both => ⟨enough, both.1⟩, fun both => ⟨both.2, rfl⟩⟩
  · rw [if_neg enough]
    refine iff_of_false (fun returned => ?_) (fun both => enough both.1)
    exact absurd (length_uniform_lt positive returned) (Nat.lt_irrefl _)

end Outputs

section Counting

theorem card_filter_Ico_mul
    {period : Nat} {p : Nat → Prop} [DecidablePred p]
    (periodic : Function.Periodic p period) (start count : Nat) :
    ((Finset.Ico start (start + period * count)).filter p).card =
      count * Nat.count p period := by
  induction count with
  | zero => simp
  | succ count ih =>
      have last := Nat.filter_Ico_card_eq_of_periodic
        (start + period * count) period p periodic
      have parts : Finset.Ico start (start + period * (count + 1)) =
          Finset.Ico start (start + period * count) ∪
            Finset.Ico (start + period * count)
              (start + period * count + period) := by
        rw [Finset.Ico_union_Ico_eq_Ico (by omega) (by omega), Nat.mul_succ,
          Nat.add_assoc]
      have apart : Disjoint
          ((Finset.Ico start (start + period * count)).filter p)
          ((Finset.Ico (start + period * count)
            (start + period * count + period)).filter p) :=
        Finset.disjoint_filter_filter (Finset.Ico_disjoint_Ico_consecutive _ _ _)
      rw [parts, Finset.filter_union, Finset.card_union_of_disjoint apart, ih,
        last, Nat.succ_mul]

theorem count_mod {period value : Nat} (small : value < period) :
    Nat.count (fun number => number % period = value) period = 1 := by
  rw [Nat.count_eq_card_filter_range]
  have only : (Finset.range period).filter
      (fun number => number % period = value) = {value} := by
    ext number
    simp only [Finset.mem_filter, Finset.mem_range, Finset.mem_singleton]
    constructor
    · rintro ⟨below, same⟩
      rw [← same, Nat.mod_eq_of_lt below]
    · rintro rfl
      exact ⟨small, Nat.mod_eq_of_lt small⟩
  rw [only, Finset.card_singleton]

theorem toNat_output {output : Nat} (small : output < 2 ^ 32) :
    output.toUInt32.toNat = output :=
  UInt32.toNat_ofNat_of_lt' small

variable {rangeMax : UInt32} {earlier : List UInt32}

theorem preimages_eq
    (positive : rangeMax ≠ 0) (none : uniform rangeMax earlier = none)
    (later : List UInt32) {value : UInt32} (small : value < rangeMax)
    {count : Nat}
    (whole : least rangeMax + rangeMax.toNat * count = 2 ^ 32) :
    preimages rangeMax earlier later value = count := by
  have below : value.toNat < rangeMax.toNat := UInt32.lt_iff_toNat_lt.mp small
  have same : (Finset.range (2 ^ 32)).filter (fun output =>
        uniform rangeMax (earlier ++ output.toUInt32 :: later) =
          some (value, later)) =
      (Finset.Ico (least rangeMax)
        (least rangeMax + rangeMax.toNat * count)).filter
        fun output => output % rangeMax.toNat = value.toNat := by
    rw [whole]
    ext output
    simp only [Finset.mem_filter, Finset.mem_range, Finset.mem_Ico]
    rw [and_comm (b := output < 2 ^ 32), and_assoc]
    refine and_congr_right fun inside => ?_
    rw [uniform_eq_some_later positive none, ← UInt32.toNat_inj,
      UInt32.toNat_mod, toNat_output inside]
  unfold preimages
  rw [Nat.count_eq_card_filter_range, same,
    card_filter_Ico_mul (by intro number; simp), count_mod below, Nat.mul_one]

theorem accepted_eq
    (positive : rangeMax ≠ 0) (none : uniform rangeMax earlier = none)
    (later : List UInt32) :
    accepted rangeMax earlier later = 2 ^ 32 - least rangeMax := by
  have same : (Finset.range (2 ^ 32)).filter (fun output =>
        (uniform rangeMax (earlier ++ output.toUInt32 :: later)).map Prod.snd =
          some later) =
      Finset.Ico (least rangeMax) (2 ^ 32) := by
    ext output
    simp only [Finset.mem_filter, Finset.mem_range, Finset.mem_Ico]
    rw [and_comm]
    refine and_congr_left fun inside => ?_
    have returns := fun value =>
      uniform_eq_some_later positive none output.toUInt32 later value
    rw [toNat_output inside] at returns
    rw [Option.map_eq_some_iff]
    constructor
    · rintro ⟨⟨value, _⟩, returned, rfl⟩
      exact ((returns value).mp returned).1
    · intro enough
      exact ⟨_, (returns _).mpr ⟨enough, rfl⟩, rfl⟩
  unfold accepted
  rw [Nat.count_eq_card_filter_range, same, Nat.card_Ico]

/-- The sequences of `length` outputs that are all dropped. -/
def dropped (rangeMax : UInt32) (length : Nat) :
    Finset (Fin length → Fin (2 ^ 32)) :=
  Finset.univ.filter fun outputs =>
    uniform rangeMax (List.ofFn fun index => (outputs index).val.toUInt32) =
      none

theorem card_dropped (positive : rangeMax ≠ 0) (length : Nat) :
    (dropped rangeMax length).card ≤ (2 ^ 31) ^ length := by
  have same : dropped rangeMax length = Fintype.piFinset fun _ =>
      Finset.univ.filter fun output : Fin (2 ^ 32) =>
        output.val < least rangeMax := by
    ext outputs
    unfold dropped
    rw [Finset.mem_filter, uniform_eq_none positive, Fintype.mem_piFinset]
    simp only [Finset.mem_univ, true_and, Finset.mem_filter, List.forall_mem_ofFn_iff]
    refine forall_congr' fun index => ?_
    rw [toNat_output (outputs index).isLt]
  have few : (Finset.univ.filter fun output : Fin (2 ^ 32) =>
      output.val < least rangeMax).card ≤ 2 ^ 31 := by
    rw [Fin.card_filter_val_lt]
    exact (Nat.min_le_right _ _).trans (least_spec positive).2
  rw [same, Fintype.card_piFinset_const]
  exact Nat.pow_le_pow_left few length

/-- The numbers are below the bound.  Behind any outputs that are dropped, each
number comes from equally many outputs, and at least half of the outputs are
accepted, so that at most one in `2 ^ length` sequences is dropped
altogether. -/
theorem uniform_unbiased (rangeMax : UInt32) (positive : rangeMax ≠ 0) :
    (∀ outputs v rest, uniform rangeMax outputs = some (v, rest) →
      v < rangeMax) ∧
    (∃ count, 0 < count ∧
      ∀ earlier later, uniform rangeMax earlier = none →
        ∀ value < rangeMax, preimages rangeMax earlier later value = count) ∧
    (∀ earlier later, uniform rangeMax earlier = none →
      2 ^ 31 ≤ accepted rangeMax earlier later) ∧
    ∀ length, 2 ^ length * (dropped rangeMax length).card ≤
      (2 ^ 32) ^ length := by
  obtain ⟨⟨count, some, whole⟩, half⟩ := least_spec positive
  refine ⟨?_, ⟨count, some, ?_⟩, ?_, ?_⟩
  · intro outputs v rest returned
    exact uniform_lt positive returned
  · intro earlier later none value small
    exact preimages_eq positive none later small whole
  · intro earlier later none
    rw [accepted_eq positive none]
    omega
  · intro length
    have few := card_dropped positive length
    calc
      2 ^ length * (dropped rangeMax length).card
          ≤ 2 ^ length * (2 ^ 31) ^ length := Nat.mul_le_mul_left _ few
      _ = (2 ^ 32) ^ length := by
        rw [← Nat.mul_pow, show 2 * 2 ^ 31 = 2 ^ 32 from rfl]

/-- The outputs below the bias 6 are dropped. -/
theorem uniform_unbiased_ten :
    (∀ outputs v rest, uniform 10 outputs = some (v, rest) → v < 10) ∧
    (∃ count, 0 < count ∧
      ∀ value < 10, preimages 10 [5, 0] [7] value = count) ∧
    2 ^ 31 ≤ accepted 10 [5, 0] [7] ∧
    ∀ length, 2 ^ length * (dropped 10 length).card ≤ (2 ^ 32) ^ length := by
  obtain ⟨below, ⟨count, some, equal⟩, half, few⟩ :=
    uniform_unbiased 10 (by decide)
  have none : uniform 10 [5, 0] = none := by decide
  exact ⟨below, ⟨count, some, equal _ _ none⟩, half _ _ none, few⟩

end Counting

end NativeClient.Platform
