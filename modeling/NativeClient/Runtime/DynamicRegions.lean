import NativeClient.Library.SortedSlots
import NativeClient.Runtime.Addresses
import Mathlib.Algebra.Group.Int.Defs

/-!
# The table of dynamic regions

`dynamic_regions` is a `malloc`ed array of `dynamic_regions_allocated` cells
whose first `num_dynamic_regions` are in use.  Addresses are `uintptr_t`s of
`wordBits` bits, and sums of them wrap around.
-/

namespace NativeClient.Runtime

open NativeClient.Library

structure NaClDynamicRegion where
  start : Nat
  size : Nat
  deleteGeneration : Int
deriving DecidableEq

namespace NaClDynamicRegion

def stop (region : NaClDynamicRegion) : Nat :=
  region.start + region.size

end NaClDynamicRegion

structure RegionTable where
  dynamicRegions : Nat → NaClDynamicRegion
  numDynamicRegions : Nat
  dynamicRegionsAllocated : Nat

def kMinDynamicRegionsAllocated : Nat := 32

def kBinarySearchToScanCutoff : Nat := 16

/-- The index of the last region that starts at `ptr` or before it. -/
def naClDynamicRegionFindClosestLEQ (table : RegionTable) (ptr : Nat) :
    Option Nat :=
  if table.numDynamicRegions = 0 then
    none
  else if (table.dynamicRegions (table.numDynamicRegions - 1)).start ≤ ptr then
    some (table.numDynamicRegions - 1)
  else if ptr < (table.dynamicRegions 0).start then
    none
  else
    let range := bisect NaClDynamicRegion.start table.dynamicRegions ptr
      kBinarySearchToScanCutoff table.numDynamicRegions 0
      table.numDynamicRegions
    some (scan NaClDynamicRegion.start table.dynamicRegions ptr
      table.numDynamicRegions range.1 range.2)

/-- The last byte of `size` bytes from `ptr` on, as the code computes it. -/
def lastByte (wordBits ptr size : Nat) : Nat :=
  wrapWord wordBits (ptr + size + (2 ^ wordBits - 1))

def reaches (wordBits ptr : Nat) (region : NaClDynamicRegion) : Bool :=
  ptr < wrapWord wordBits region.stop

def naClDynamicRegionFind (wordBits : Nat) (table : RegionTable)
    (ptr size : Nat) : Option Nat :=
  (naClDynamicRegionFindClosestLEQ table (lastByte wordBits ptr size)).filter
    fun index => reaches wordBits ptr (table.dynamicRegions index)

def growTable (table : RegionTable) : RegionTable :=
  if table.dynamicRegionsAllocated = table.numDynamicRegions then
    { table with
      dynamicRegionsAllocated :=
        if table.dynamicRegionsAllocated * 2 < kMinDynamicRegionsAllocated then
          kMinDynamicRegionsAllocated
        else
          table.dynamicRegionsAllocated * 2 }
  else
    table

/-- `for (; regionp != end && regionp->start < item.start; ++regionp);` with
`left` regions before `end`. -/
def scroll (regions : Nat → NaClDynamicRegion) (start : Nat) : Nat → Nat → Nat
  | 0, index => index
  | left + 1, index =>
      if (regions index).start < start then
        scroll regions start left (index + 1)
      else
        index

def insertRegion (table : RegionTable) (item : NaClDynamicRegion)
    (index : Nat) : RegionTable :=
  { table with
    dynamicRegions := insertShift table.dynamicRegions item index
      (table.numDynamicRegions - index)
    numDynamicRegions := table.numDynamicRegions + 1 }

/-- A failed `realloc` ends the process. -/
def naClDynamicRegionCreate (wordBits : Nat) (reallocSucceeds : Bool)
    (table : RegionTable) (start size : Nat) : Option (RegionTable × Bool) :=
  if table.dynamicRegionsAllocated = table.numDynamicRegions ∧
      reallocSucceeds = false then
    none
  else
    let grown := growTable table
    let regionp := naClDynamicRegionFindClosestLEQ grown
      (lastByte wordBits start size)
    if regionp.any fun index =>
        reaches wordBits start (grown.dynamicRegions index) then
      some (grown, false)
    else
      let index := regionp.getD 0
      some (insertRegion grown ⟨start, size, -1⟩
        (scroll grown.dynamicRegions start (grown.numDynamicRegions - index)
          index), true)

def removeRegion (table : RegionTable) (index : Nat) : RegionTable :=
  { table with
    dynamicRegions := removeShift table.dynamicRegions index
      (table.numDynamicRegions - 1 - index)
    numDynamicRegions := table.numDynamicRegions - 1 }

def naClDynamicRegionDelete (reallocSucceeds : Bool) (table : RegionTable)
    (index : Nat) : Option RegionTable :=
  let removed := removeRegion table index
  if kMinDynamicRegionsAllocated < removed.dynamicRegionsAllocated ∧
      removed.numDynamicRegions < removed.dynamicRegionsAllocated / 4 then
    if reallocSucceeds then
      some { removed with
        dynamicRegionsAllocated := removed.dynamicRegionsAllocated / 2 }
    else
      none
  else
    some removed

/-- The regions are sorted and disjoint, hold whole bundles, lie between two
bounds, and fit in the allocated cells. -/
structure Orderly (bundleSize lowest highest : Nat) (table : RegionTable) :
    Prop where
  sorted : SortedBy NaClDynamicRegion.start table.dynamicRegions
    table.numDynamicRegions
  nonempty : ∀ index < table.numDynamicRegions,
    0 < (table.dynamicRegions index).size
  disjoint : ∀ first second, first < second →
    second < table.numDynamicRegions →
    (table.dynamicRegions first).stop ≤ (table.dynamicRegions second).start
  aligned : ∀ index < table.numDynamicRegions,
    bundleSize ∣ (table.dynamicRegions index).start ∧
      bundleSize ∣ (table.dynamicRegions index).size
  contained : ∀ index < table.numDynamicRegions,
    lowest ≤ (table.dynamicRegions index).start ∧
      (table.dynamicRegions index).stop ≤ highest
  allocated : table.numDynamicRegions ≤ table.dynamicRegionsAllocated

variable {bundleSize lowest highest wordBits : Nat} {table : RegionTable}
  {size index start : Nat} {reallocSucceeds : Bool} {result : RegionTable}

/-- The search returns the region with the greatest start that is at most
`ptr`, and nothing exactly when every region starts later. -/
theorem findClosestLEQ_spec
    (sorted : SortedBy NaClDynamicRegion.start table.dynamicRegions
      table.numDynamicRegions) (ptr : Nat) :
    match naClDynamicRegionFindClosestLEQ table ptr with
    | none => ∀ index < table.numDynamicRegions,
        ptr < (table.dynamicRegions index).start
    | some index => IsClosest NaClDynamicRegion.start table.dynamicRegions
        table.numDynamicRegions ptr index := by
  rw [naClDynamicRegionFindClosestLEQ]
  split_ifs with empty final before
  · intro index inside
    omega
  · refine ⟨by omega, final, ?_⟩
    intro other after inside
    omega
  · intro index inside
    rcases Nat.eq_zero_or_pos index with first | later
    · rw [first]
      exact before
    · exact lt_trans before (sorted 0 index later inside)
  · have brackets : Brackets NaClDynamicRegion.start table.dynamicRegions
        table.numDynamicRegions ptr 0 table.numDynamicRegions := by
      refine ⟨by omega, le_refl _, not_lt.mp before, ?_⟩
      intro other past inside
      omega
    have narrowed := (brackets.bisect sorted kBinarySearchToScanCutoff
      table.numDynamicRegions (by omega)).1
    exact narrowed.scan sorted table.numDynamicRegions
      (by have inside := narrowed.inside; omega)

theorem find_inside
    (sorted : SortedBy NaClDynamicRegion.start table.dynamicRegions
      table.numDynamicRegions)
    {ptr : Nat}
    (found : naClDynamicRegionFind wordBits table ptr size = some index) :
    index < table.numDynamicRegions := by
  have closest := findClosestLEQ_spec sorted (lastByte wordBits ptr size)
  obtain ⟨located, _⟩ := Option.filter_eq_some_iff.mp found
  rw [located] at closest
  exact closest.inside

/-- No region has a byte among the `size` bytes from `start` on. -/
def Free (table : RegionTable) (start size : Nat) : Prop :=
  ∀ index < table.numDynamicRegions,
    (table.dynamicRegions index).stop ≤ start ∨
      start + size ≤ (table.dynamicRegions index).start

theorem lastByte_of_pos
    {ptr : Nat} (positive : 0 < size)
    (small : ptr + size ≤ 2 ^ wordBits) :
    lastByte wordBits ptr size = ptr + size - 1 := by
  have power : 0 < 2 ^ wordBits := Nat.two_pow_pos wordBits
  have split : ptr + size + (2 ^ wordBits - 1) =
      ptr + size - 1 + 2 ^ wordBits := by
    omega
  rw [lastByte, wrapWord, split, Nat.add_mod_right, Nat.mod_eq_of_lt]
  omega

theorem Orderly.reaches_iff
    (orderly : Orderly bundleSize lowest highest table)
    (small : highest < 2 ^ wordBits) (ptr : Nat)
    (inside : index < table.numDynamicRegions) :
    reaches wordBits ptr (table.dynamicRegions index) = true ↔
      ptr < (table.dynamicRegions index).stop := by
  have below := (orderly.contained index inside).2
  rw [reaches, wrapWord_of_lt (by omega), decide_eq_true_iff]

private theorem free_of_not_reached
    (orderly : Orderly bundleSize lowest highest table)
    (small : highest < 2 ^ wordBits)
    (positive : 0 < size)
    (fits : start + size ≤ 2 ^ wordBits)
    (missed : ((naClDynamicRegionFindClosestLEQ table
      (lastByte wordBits start size)).any fun index =>
        reaches wordBits start (table.dynamicRegions index)) = false) :
    Free table start size := by
  have closest := findClosestLEQ_spec orderly.sorted
    (lastByte wordBits start size)
  rw [lastByte_of_pos positive fits] at closest missed
  intro index inside
  cases found : naClDynamicRegionFindClosestLEQ table (start + size - 1) with
  | none =>
      rw [found] at closest
      have later := closest index inside
      right
      omega
  | some last =>
      rw [found] at closest missed
      have passed : (table.dynamicRegions last).stop ≤ start := by
        by_contra overlap
        have reached := (orderly.reaches_iff small start closest.inside).mpr
          (by omega)
        simp [reached] at missed
      rcases lt_trichotomy index last with before | same | after
      · left
        have ordered := orderly.disjoint index last before closest.inside
        have extent : (table.dynamicRegions last).start ≤
            (table.dynamicRegions last).stop := Nat.le_add_right _ _
        omega
      · left
        rw [same]
        exact passed
      · right
        have later := closest.later index after inside
        omega

theorem scroll_spec
    (regions : Nat → NaClDynamicRegion) (start left index : Nat) :
    index ≤ scroll regions start left index ∧
      scroll regions start left index ≤ index + left ∧
      (∀ passed, index ≤ passed → passed < scroll regions start left index →
        (regions passed).start < start) ∧
      (scroll regions start left index < index + left →
        start ≤ (regions (scroll regions start left index)).start) := by
  induction left generalizing index with
  | zero =>
      refine ⟨le_refl _, le_refl _, ?_, ?_⟩
      · intro passed from_ below
        exact absurd below (not_lt.mpr from_)
      · intro below
        exact absurd below (lt_irrefl _)
  | succ left ih =>
      rw [scroll]
      split_ifs with before
      · obtain ⟨lower, upper, passes, stops⟩ := ih (index + 1)
        refine ⟨by omega, by omega, ?_, ?_⟩
        · intro passed from_ below
          rcases Nat.eq_or_lt_of_le from_ with same | after
          · rw [← same]
            exact before
          · exact passes passed after below
        · intro below
          exact stops (by omega)
      · refine ⟨le_refl _, by omega, ?_, ?_⟩
        · intro passed from_ below
          exact absurd below (not_lt.mpr from_)
        · intro _
          exact not_lt.mp before

theorem growTable_dynamicRegions (table : RegionTable) :
    (growTable table).dynamicRegions = table.dynamicRegions := by
  rw [growTable]
  split_ifs <;> rfl

theorem growTable_numDynamicRegions (table : RegionTable) :
    (growTable table).numDynamicRegions = table.numDynamicRegions := by
  rw [growTable]
  split_ifs <;> rfl

theorem growTable_room
    (fits : table.numDynamicRegions ≤ table.dynamicRegionsAllocated) :
    (growTable table).numDynamicRegions <
      (growTable table).dynamicRegionsAllocated := by
  by_cases full : table.dynamicRegionsAllocated = table.numDynamicRegions
  · rw [growTable, if_pos full, kMinDynamicRegionsAllocated]
    dsimp only
    split_ifs <;> omega
  · rw [growTable, if_neg full]
    omega

section

variable (orderly : Orderly bundleSize lowest highest table)

include orderly

theorem Orderly.congr
    {other : RegionTable}
    (count : other.numDynamicRegions = table.numDynamicRegions)
    (cells : ∀ index < table.numDynamicRegions,
      (other.dynamicRegions index).start = (table.dynamicRegions index).start ∧
        (other.dynamicRegions index).size = (table.dynamicRegions index).size)
    (allocated : other.numDynamicRegions ≤ other.dynamicRegionsAllocated) :
    Orderly bundleSize lowest highest other := by
  have stops : ∀ index < table.numDynamicRegions,
      (other.dynamicRegions index).stop =
        (table.dynamicRegions index).stop := by
    intro index inside
    rw [NaClDynamicRegion.stop, (cells index inside).1, (cells index inside).2]
    rfl
  constructor
  · rw [count]
    intro first second ordered below
    rw [(cells first (lt_trans ordered below)).1, (cells second below).1]
    exact orderly.sorted first second ordered below
  · rw [count]
    intro index inside
    rw [(cells index inside).2]
    exact orderly.nonempty index inside
  · rw [count]
    intro first second ordered below
    rw [stops first (lt_trans ordered below), (cells second below).1]
    exact orderly.disjoint first second ordered below
  · rw [count]
    intro index inside
    rw [(cells index inside).1, (cells index inside).2]
    exact orderly.aligned index inside
  · rw [count]
    intro index inside
    rw [(cells index inside).1, stops index inside]
    exact orderly.contained index inside
  · exact allocated

theorem Orderly.grow :
    Orderly bundleSize lowest highest (growTable table) := by
  apply orderly.congr (growTable_numDynamicRegions table)
  · intro index inside
    rw [growTable_dynamicRegions]
    exact ⟨rfl, rfl⟩
  · exact le_of_lt (growTable_room orderly.allocated)

theorem Orderly.insertRegion
    (room : table.numDynamicRegions < table.dynamicRegionsAllocated)
    {item : NaClDynamicRegion} (positive : 0 < item.size)
    (aligned : bundleSize ∣ item.start ∧ bundleSize ∣ item.size)
    (contained : lowest ≤ item.start ∧ item.stop ≤ highest)
    (inside : index ≤ table.numDynamicRegions)
    (before : ∀ lower < index, (table.dynamicRegions lower).stop ≤ item.start)
    (after : ∀ upper, index ≤ upper → upper < table.numDynamicRegions →
      item.stop ≤ (table.dynamicRegions upper).start) :
    Orderly bundleSize lowest highest (insertRegion table item index) := by
  have cell : ∀ position < table.numDynamicRegions + 1,
      (Runtime.insertRegion table item index).dynamicRegions position =
        if position < index then table.dynamicRegions position
        else if position = index then item
        else table.dynamicRegions (position - 1) := by
    intro position below
    dsimp only [Runtime.insertRegion]
    rw [insertShift_apply]
    split_ifs <;> first | rfl | omega
  -- Disjointness is the ordering: it gives sortedness back, as no region is
  -- empty.
  have nonempty : ∀ position < table.numDynamicRegions + 1,
      0 < ((Runtime.insertRegion table item index).dynamicRegions
        position).size := by
    intro position below
    rw [cell position below]
    split_ifs with lower same
    · exact orderly.nonempty position (by omega)
    · exact positive
    · exact orderly.nonempty (position - 1) (by omega)
  have disjoint : ∀ first second, first < second →
      second < table.numDynamicRegions + 1 →
      ((Runtime.insertRegion table item index).dynamicRegions first).stop ≤
        ((Runtime.insertRegion table item index).dynamicRegions
          second).start := by
    intro first second ordered below
    rw [cell first (by omega), cell second below]
    split_ifs <;> first
      | omega
      | exact orderly.disjoint _ _ (by omega) (by omega)
      | exact before _ (by omega)
      | exact after _ (by omega) (by omega)
  constructor
  · intro first second ordered below
    have apart := disjoint first second ordered below
    have extent := nonempty first (lt_trans ordered below)
    rw [NaClDynamicRegion.stop] at apart
    omega
  · exact nonempty
  · exact disjoint
  · intro position below
    have count : position < table.numDynamicRegions + 1 := below
    rw [cell position count]
    split_ifs
    · exact orderly.aligned position (by omega)
    · exact aligned
    · exact orderly.aligned (position - 1) (by omega)
  · intro position below
    have count : position < table.numDynamicRegions + 1 := below
    rw [cell position count]
    split_ifs
    · exact orderly.contained position (by omega)
    · exact contained
    · exact orderly.contained (position - 1) (by omega)
  · exact room

private theorem scroll_separates
    (positive : 0 < size) (free : Free table start size)
    {from_ : Nat} (inside : from_ ≤ table.numDynamicRegions)
    (earlier : ∀ lower < from_, (table.dynamicRegions lower).start < start) :
    let index := scroll table.dynamicRegions start
      (table.numDynamicRegions - from_) from_
    index ≤ table.numDynamicRegions ∧
      (∀ lower < index, (table.dynamicRegions lower).stop ≤ start) ∧
      (∀ upper, index ≤ upper → upper < table.numDynamicRegions →
        start + size ≤ (table.dynamicRegions upper).start) := by
  intro index
  obtain ⟨_, upperBound, passes, stops⟩ := scroll_spec table.dynamicRegions
    start (table.numDynamicRegions - from_) from_
  have within : index ≤ table.numDynamicRegions := by omega
  refine ⟨within, ?_, ?_⟩
  · intro lower below
    have starts : (table.dynamicRegions lower).start < start := by
      by_cases first : lower < from_
      · exact earlier lower first
      · exact passes lower (by omega) below
    rcases free lower (by omega) with ends | later
    · exact ends
    · omega
  · intro upper above below
    have stopped : start ≤ (table.dynamicRegions index).start :=
      stops (by omega)
    have ordered : (table.dynamicRegions index).start ≤
        (table.dynamicRegions upper).start := by
      rcases Nat.eq_or_lt_of_le above with same | after
      · rw [same]
      · exact le_of_lt (orderly.sorted index upper after below)
    rcases free upper below with ends | later
    · have extent := orderly.nonempty upper below
      rw [NaClDynamicRegion.stop] at ends
      omega
    · exact later

theorem Orderly.create
    (small : highest < 2 ^ wordBits)
    (positive : 0 < size)
    (aligned : bundleSize ∣ start ∧ bundleSize ∣ size)
    (contained : lowest ≤ start ∧ start + size ≤ highest)
    {created : Bool}
    (ran : naClDynamicRegionCreate wordBits reallocSucceeds table start size =
      some (result, created)) :
    Orderly bundleSize lowest highest result := by
  have grown := orderly.grow
  have room := growTable_room orderly.allocated
  rw [naClDynamicRegionCreate] at ran
  dsimp only at ran
  split_ifs at ran with failed taken
  · cases ran
    exact grown
  · cases ran
    have free := free_of_not_reached grown small positive
      (le_of_lt (lt_of_le_of_lt contained.2 small))
      (Bool.eq_false_iff.mpr taken)
    have closest := findClosestLEQ_spec grown.sorted
      (lastByte wordBits start size)
    cases found : naClDynamicRegionFindClosestLEQ (growTable table)
        (lastByte wordBits start size) with
    | none =>
        obtain ⟨inside, before, after⟩ := scroll_separates grown positive free
          (Nat.zero_le _) (fun lower below => absurd below (Nat.not_lt_zero _))
        exact grown.insertRegion room positive aligned contained inside before
          after
    | some last =>
        rw [found] at closest taken
        have passed : ((growTable table).dynamicRegions last).stop ≤ start := by
          by_contra overlap
          have reached := (grown.reaches_iff small start closest.inside).mpr
            (by omega)
          exact taken (by simp [reached])
        have earlier : ∀ lower < last,
            ((growTable table).dynamicRegions lower).start < start := by
          intro lower below
          have ordered := grown.sorted lower last below closest.inside
          rw [NaClDynamicRegion.stop] at passed
          omega
        obtain ⟨inside, before, after⟩ := scroll_separates grown positive free
          (le_of_lt closest.inside) earlier
        exact grown.insertRegion room positive aligned contained inside before
          after

theorem Orderly.removeRegion
    (inside : index < table.numDynamicRegions) :
    Orderly bundleSize lowest highest (removeRegion table index) := by
  have cell : ∀ position < table.numDynamicRegions - 1,
      (Runtime.removeRegion table index).dynamicRegions position =
        table.dynamicRegions
          (if index ≤ position then position + 1 else position) := by
    intro position below
    dsimp only [Runtime.removeRegion]
    rw [removeShift_apply]
    split_ifs <;> first | rfl | omega
  constructor
  · intro first second ordered below
    rw [cell first (lt_trans ordered below), cell second below]
    have count : second < table.numDynamicRegions - 1 := below
    apply orderly.sorted <;> split_ifs <;> omega
  · intro position below
    rw [cell position below]
    have count : position < table.numDynamicRegions - 1 := below
    apply orderly.nonempty
    split_ifs <;> omega
  · intro first second ordered below
    rw [cell first (lt_trans ordered below), cell second below]
    have count : second < table.numDynamicRegions - 1 := below
    apply orderly.disjoint <;> split_ifs <;> omega
  · intro position below
    rw [cell position below]
    have count : position < table.numDynamicRegions - 1 := below
    apply orderly.aligned
    split_ifs <;> omega
  · intro position below
    rw [cell position below]
    have count : position < table.numDynamicRegions - 1 := below
    apply orderly.contained
    split_ifs <;> omega
  · have allocated := orderly.allocated
    exact le_trans (Nat.sub_le _ _) allocated

theorem Orderly.delete
    (inside : index < table.numDynamicRegions)
    (ran : naClDynamicRegionDelete reallocSucceeds table index = some result) :
    Orderly bundleSize lowest highest result := by
  have removed := orderly.removeRegion inside
  simp only [naClDynamicRegionDelete] at ran
  split_ifs at ran with wasteful succeeds
  · cases ran
    refine removed.congr rfl ?_ ?_
    · intro position below
      exact ⟨rfl, rfl⟩
    · dsimp only
      omega
  · cases ran
    exact removed

end

/-! ## The regions as a set -/

def RegionTable.Has (table : RegionTable) (region : NaClDynamicRegion) :
    Prop :=
  ∃ index < table.numDynamicRegions, table.dynamicRegions index = region

theorem growTable_has (region : NaClDynamicRegion) :
    (growTable table).Has region ↔ table.Has region := by
  rw [RegionTable.Has, RegionTable.Has, growTable_dynamicRegions,
    growTable_numDynamicRegions]

theorem insertRegion_has
    (inside : index ≤ table.numDynamicRegions)
    (item region : NaClDynamicRegion) :
    (insertRegion table item index).Has region ↔
      table.Has region ∨ region = item := by
  have cell : ∀ position, (insertRegion table item index).dynamicRegions
      position = if position < index then table.dynamicRegions position
        else if position = index then item
        else if position ≤ table.numDynamicRegions then
          table.dynamicRegions (position - 1)
        else table.dynamicRegions position := by
    intro position
    dsimp only [insertRegion]
    rw [insertShift_apply, Nat.add_sub_cancel' inside]
  constructor
  · intro has
    obtain ⟨position, below, same⟩ := has
    have count : position < table.numDynamicRegions + 1 := below
    rw [cell] at same
    split_ifs at same with before here
    · exact .inl ⟨position, by omega, same⟩
    · exact .inr same.symm
    · exact .inl ⟨position - 1, by omega, same⟩
    · omega
  · intro has
    rcases has with ⟨position, below, same⟩ | same
    · by_cases before : position < index
      · refine ⟨position, Nat.lt_succ_of_lt below, ?_⟩
        rw [cell, if_pos before]
        exact same
      · refine ⟨position + 1, Nat.succ_lt_succ below, ?_⟩
        rw [cell, if_neg (by omega), if_neg (by omega), if_pos (by omega)]
        exact same
    · refine ⟨index, Nat.lt_succ_of_le inside, ?_⟩
      rw [cell, if_neg (Nat.lt_irrefl _), if_pos rfl, same]

theorem Orderly.create_has
    (orderly : Orderly bundleSize lowest highest table)
    {created : Bool}
    (ran : naClDynamicRegionCreate wordBits reallocSucceeds table start size =
      some (result, created)) (region : NaClDynamicRegion) :
    result.Has region ↔
      table.Has region ∨ (created = true ∧ region = ⟨start, size, -1⟩) := by
  rw [naClDynamicRegionCreate] at ran
  dsimp only at ran
  split_ifs at ran with failed taken
  · cases ran
    rw [growTable_has]
    simp
  · cases ran
    have grown := orderly.grow
    have closest := findClosestLEQ_spec grown.sorted
      (lastByte wordBits start size)
    have first : (naClDynamicRegionFindClosestLEQ (growTable table)
        (lastByte wordBits start size)).getD 0 ≤
        (growTable table).numDynamicRegions := by
      cases found : naClDynamicRegionFindClosestLEQ (growTable table)
          (lastByte wordBits start size) with
      | none => exact Nat.zero_le _
      | some last =>
          rw [found] at closest
          exact le_of_lt closest.inside
    obtain ⟨-, inside, -⟩ := scroll_spec (growTable table).dynamicRegions start
      ((growTable table).numDynamicRegions -
        (naClDynamicRegionFindClosestLEQ (growTable table)
          (lastByte wordBits start size)).getD 0)
      ((naClDynamicRegionFindClosestLEQ (growTable table)
        (lastByte wordBits start size)).getD 0)
    rw [Nat.add_sub_cancel' first] at inside
    rw [insertRegion_has inside, growTable_has]
    simp

theorem removeRegion_has
    (inside : index < table.numDynamicRegions)
    (region : NaClDynamicRegion) :
    (removeRegion table index).Has region ↔
      ∃ position < table.numDynamicRegions, position ≠ index ∧
        table.dynamicRegions position = region := by
  have cell : ∀ position < table.numDynamicRegions - 1,
      (removeRegion table index).dynamicRegions position =
        table.dynamicRegions
          (if index ≤ position then position + 1 else position) := by
    intro position below
    dsimp only [removeRegion]
    rw [removeShift_apply]
    split_ifs <;> first | rfl | omega
  constructor
  · intro has
    obtain ⟨position, below, same⟩ := has
    have count : position < table.numDynamicRegions - 1 := below
    rw [cell position below] at same
    refine ⟨_, ?_, ?_, same⟩
    · split_ifs <;> omega
    · split_ifs <;> omega
  · intro has
    obtain ⟨position, below, other, same⟩ := has
    by_cases before : position < index
    · refine ⟨position, ?_, ?_⟩
      · show position < table.numDynamicRegions - 1
        omega
      · rw [cell position (by omega), if_neg (by omega)]
        exact same
    · refine ⟨position - 1, ?_, ?_⟩
      · show position - 1 < table.numDynamicRegions - 1
        omega
      · rw [cell (position - 1) (by omega), if_pos (by omega)]
        rw [Nat.sub_add_cancel (by omega)]
        exact same

theorem delete_has
    (inside : index < table.numDynamicRegions)
    (ran : naClDynamicRegionDelete reallocSucceeds table index = some result)
    (region : NaClDynamicRegion) :
    result.Has region ↔
      ∃ position < table.numDynamicRegions, position ≠ index ∧
        table.dynamicRegions position = region := by
  rw [← removeRegion_has inside]
  simp only [naClDynamicRegionDelete] at ran
  split_ifs at ran with wasteful succeeds
  · cases ran
    rfl
  · cases ran
    rfl

end NativeClient.Runtime
