import NativeClient.Runtime.DynamicRegions

/-!
# What the search for a region finds

The search starts from the last byte of the range that is asked for.  The last
region that starts there or before is the only one whose end has to be looked
at: the regions are disjoint, so that those before it end before it starts.
-/

namespace NativeClient.Runtime

open NativeClient.Library

/-- A byte of the region is one of the `size` bytes from `ptr` on. -/
def NaClDynamicRegion.Overlaps (region : NaClDynamicRegion) (ptr size : Nat) :
    Prop :=
  ∃ address, region.start ≤ address ∧ address < region.stop ∧
    ptr ≤ address ∧ address < ptr + size

theorem NaClDynamicRegion.overlaps_iff
    {region : NaClDynamicRegion} {ptr size : Nat}
    (region_pos : 0 < region.size) (size_pos : 0 < size) :
    region.Overlaps ptr size ↔ region.start < ptr + size ∧ ptr < region.stop := by
  unfold Overlaps stop
  constructor
  · rintro ⟨address, above, below, after, before⟩
    omega
  · rintro ⟨starts, ends⟩
    exact ⟨max region.start ptr, by omega, by omega, by omega, by omega⟩

structure SortedDisjoint (table : RegionTable) : Prop where
  sorted : SortedBy NaClDynamicRegion.start table.dynamicRegions
    table.numDynamicRegions
  disjoint : ∀ first second, first < second →
    second < table.numDynamicRegions →
    (table.dynamicRegions first).stop ≤ (table.dynamicRegions second).start

structure Proper (wordBits : Nat) (table : RegionTable) : Prop where
  nonempty : ∀ index < table.numDynamicRegions,
    0 < (table.dynamicRegions index).size
  below : ∀ index < table.numDynamicRegions,
    (table.dynamicRegions index).stop < 2 ^ wordBits

/-- The region with the greatest start that is at most `ptr`, if there is
one. -/
def GreatestLEQ (table : RegionTable) (ptr : Nat) : Option Nat → Prop
  | none => ∀ index < table.numDynamicRegions,
      ptr < (table.dynamicRegions index).start
  | some index =>
      index < table.numDynamicRegions ∧
        (table.dynamicRegions index).start ≤ ptr ∧
        ∀ other < table.numDynamicRegions,
          (table.dynamicRegions other).start ≤ ptr →
          (table.dynamicRegions other).start ≤
            (table.dynamicRegions index).start

def LastOverlapping (table : RegionTable) (ptr size : Nat) :
    Option Nat → Prop
  | none => ∀ index < table.numDynamicRegions,
      ¬ (table.dynamicRegions index).Overlaps ptr size
  | some index =>
      index < table.numDynamicRegions ∧
        (table.dynamicRegions index).Overlaps ptr size ∧
        ∀ other < table.numDynamicRegions,
          (table.dynamicRegions other).Overlaps ptr size → other ≤ index

variable {wordBits : Nat} {table : RegionTable}

theorem greatestLEQ_find (regions : SortedDisjoint table) (ptr : Nat) :
    GreatestLEQ table ptr (naClDynamicRegionFindClosestLEQ table ptr) := by
  have closest := findClosestLEQ_spec regions.sorted ptr
  cases found : naClDynamicRegionFindClosestLEQ table ptr with
  | none =>
      rw [found] at closest
      exact closest
  | some index =>
      rw [found] at closest
      refine ⟨closest.inside, closest.atMost, ?_⟩
      intro other inside starts
      rcases Nat.lt_trichotomy other index with before | rfl | after
      · exact le_of_lt (regions.sorted other index before closest.inside)
      · exact le_refl _
      · exact absurd starts (not_le.mpr (closest.later other after inside))

theorem Proper.reaches_iff
    (proper : Proper wordBits table) (ptr : Nat)
    {index : Nat} (inside : index < table.numDynamicRegions) :
    reaches wordBits ptr (table.dynamicRegions index) = true ↔
      ptr < (table.dynamicRegions index).stop := by
  rw [reaches, wrapWord_of_lt (proper.below index inside), decide_eq_true_iff]

theorem lastOverlapping_find
    (regions : SortedDisjoint table) (proper : Proper wordBits table)
    {ptr size : Nat} (positive : 0 < size)
    (small : ptr + size ≤ 2 ^ wordBits) :
    LastOverlapping table ptr size
      (naClDynamicRegionFind wordBits table ptr size) := by
  have closest := findClosestLEQ_spec regions.sorted
    (lastByte wordBits ptr size)
  have overlaps : ∀ index < table.numDynamicRegions,
      ((table.dynamicRegions index).Overlaps ptr size ↔
        (table.dynamicRegions index).start < ptr + size ∧
          ptr < (table.dynamicRegions index).stop) :=
    fun index inside => NaClDynamicRegion.overlaps_iff
      (proper.nonempty index inside) positive
  unfold naClDynamicRegionFind
  rw [lastByte_of_pos positive small] at closest ⊢
  cases located : naClDynamicRegionFindClosestLEQ table (ptr + size - 1) with
  | none =>
      rw [located] at closest
      intro index inside overlap
      have starts := ((overlaps index inside).mp overlap).1
      have later := closest index inside
      omega
  | some last =>
      rw [located] at closest
      have inside := closest.inside
      have starts := closest.atMost
      have later : ∀ other < table.numDynamicRegions,
          (table.dynamicRegions other).Overlaps ptr size → other ≤ last := by
        intro other within overlap
        by_contra after
        have beyond := closest.later other (not_le.mp after) within
        have before := ((overlaps other within).mp overlap).1
        omega
      by_cases reached : ptr < (table.dynamicRegions last).stop
      · rw [Option.filter_some,
          if_pos ((proper.reaches_iff ptr inside).mpr reached)]
        exact ⟨inside, (overlaps last inside).mpr ⟨by omega, reached⟩, later⟩
      · rw [Option.filter_some, if_neg fun reaches =>
          reached ((proper.reaches_iff ptr inside).mp reaches)]
        intro other within overlap
        have ends := ((overlaps other within).mp overlap).2
        rcases Nat.lt_or_eq_of_le (later other within overlap) with
          before | rfl
        · -- A region before the last one ends before that one starts.
          have apart := regions.disjoint other last before inside
          unfold NaClDynamicRegion.stop at reached
          omega
        · exact reached ends

/-- The search for the closest region and the one for an overlapping region
are exact. -/
theorem regionSearch_exact (regions : SortedDisjoint table) :
    (∀ ptr, GreatestLEQ table ptr
      (naClDynamicRegionFindClosestLEQ table ptr)) ∧
    (Proper wordBits table → ∀ ptr size, 0 < size →
      ptr + size ≤ 2 ^ wordBits →
        ((naClDynamicRegionFind wordBits table ptr size).isSome = true ↔
          ∃ index < table.numDynamicRegions,
            (table.dynamicRegions index).Overlaps ptr size) ∧
        LastOverlapping table ptr size
          (naClDynamicRegionFind wordBits table ptr size)) := by
  refine ⟨greatestLEQ_find regions, ?_⟩
  intro proper ptr size positive small
  have last := lastOverlapping_find regions proper positive small
  refine ⟨?_, last⟩
  cases found : naClDynamicRegionFind wordBits table ptr size with
  | none =>
      rw [found] at last
      refine iff_of_false Bool.false_ne_true ?_
      rintro ⟨index, inside, overlap⟩
      exact last index inside overlap
  | some index =>
      rw [found] at last
      exact iff_of_true rfl ⟨index, last.1, last.2.1⟩

def twoRegions : RegionTable where
  dynamicRegions := fun index => ⟨64 + 64 * index, 32, -1⟩
  numDynamicRegions := 2
  dynamicRegionsAllocated := 32

theorem sortedDisjoint_twoRegions : SortedDisjoint twoRegions := by
  refine ⟨?_, ?_⟩
  · intro lower upper before inside
    show 64 + 64 * lower < 64 + 64 * upper
    omega
  · intro first second before inside
    show 64 + 64 * first + 32 ≤ 64 + 64 * second
    omega

theorem proper_twoRegions : Proper 32 twoRegions := by
  refine ⟨fun _ _ => (by decide : 0 < 32), ?_⟩
  intro index inside
  have less : index < 2 := inside
  show 64 + 64 * index + 32 < 2 ^ 32
  omega

theorem regionSearch_exact_twoRegions :
    SortedDisjoint twoRegions ∧ Proper 32 twoRegions ∧
      (naClDynamicRegionFind 32 twoRegions 90 100).isSome = true :=
  ⟨sortedDisjoint_twoRegions, proper_twoRegions,
    (((regionSearch_exact sortedDisjoint_twoRegions).2 proper_twoRegions
      90 100 (by decide) (by decide)).1).mpr
        ⟨0, by decide, 90, by decide, by decide, by decide, by decide⟩⟩

/-- For an empty range in a region, the region is found. -/
theorem emptyRange_found :
    SortedDisjoint twoRegions ∧
      naClDynamicRegionFind 32 twoRegions 80 0 = some 0 ∧
      ¬ ∃ index < twoRegions.numDynamicRegions,
        (twoRegions.dynamicRegions index).Overlaps 80 0 := by
  refine ⟨sortedDisjoint_twoRegions, by decide, ?_⟩
  rintro ⟨index, -, address, -, -, after, before⟩
  omega

end NativeClient.Runtime
