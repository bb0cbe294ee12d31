import NativeClient.DecoderGenerator.Minimization
import Mathlib.Data.List.Nodup

/-!
# Decoding with a minimised table

The groups of a table hold its rows, dropping unused columns changes no row,
and the order of disjoint rows does not matter.  So the generated code decodes
as the table does exactly if no group loses a word.
-/

namespace NativeClient.DecoderGenerator

open NativeClient.Library

structure Grouped (rows : List Row) (groups : Groups) : Prop where
  perm : (groups.map Prod.snd).flatten.Perm rows
  keys : ∀ group ∈ groups, ∀ row ∈ group.2, row.key = group.1
  nodup : (groups.map Prod.fst).Nodup

private theorem addToGroup_flatten (groups : Groups) (row : Row) :
    ((addToGroup groups row).map Prod.snd).flatten.Perm
      ((groups.map Prod.snd).flatten ++ [row]) := by
  induction groups with
  | nil => exact .refl _
  | cons group groups ih =>
      unfold addToGroup
      split
      next =>
        simp only [List.map_cons, List.flatten_cons, List.append_assoc]
        exact List.Perm.append_left _ List.perm_append_comm
      next =>
        simp only [List.map_cons, List.flatten_cons, List.append_assoc]
        exact List.Perm.append_left _ ih

variable {groups : Groups} {row : Row} {rows : List Row} {table : Table}
  {itervalues : List (List Row) → List (List Row)}

private theorem addToGroup_keys
    (keys : ∀ group ∈ groups, ∀ row ∈ group.2, row.key = group.1) :
    ∀ group ∈ addToGroup groups row, ∀ row ∈ group.2, row.key = group.1 := by
  induction groups with
  | nil =>
      intro group member other inGroup
      rw [List.mem_singleton.mp member] at inGroup ⊢
      rw [List.mem_singleton.mp inGroup]
  | cons head groups ih =>
      have headKeys := keys head List.mem_cons_self
      have rest : ∀ group ∈ groups, ∀ row ∈ group.2, row.key = group.1 :=
        fun group member => keys group (List.mem_cons_of_mem _ member)
      unfold addToGroup
      split
      next same =>
        intro group member other inGroup
        rcases List.mem_cons.mp member with rfl | later
        · rcases List.mem_append.mp inGroup with old | new
          · exact headKeys other old
          · rw [List.mem_singleton.mp new]
            exact same
        · exact rest group later other inGroup
      next =>
        intro group member other inGroup
        rcases List.mem_cons.mp member with rfl | later
        · exact headKeys other inGroup
        · exact ih rest group later other inGroup

private theorem mem_addToGroup
    {key : String × Option String}
    (member : key ∈ (addToGroup groups row).map Prod.fst) :
    key ∈ groups.map Prod.fst ∨ key = row.key := by
  induction groups with
  | nil =>
      right
      exact List.mem_singleton.mp member
  | cons head groups ih =>
      unfold addToGroup at member
      split at member
      next => exact .inl member
      next =>
        rw [List.map_cons, List.mem_cons] at member ⊢
        rcases member with here | later
        · exact .inl (.inl here)
        · rcases ih later with old | new
          · exact .inl (.inr old)
          · exact .inr new

private theorem addToGroup_nodup
    (nodup : (groups.map Prod.fst).Nodup) :
    ((addToGroup groups row).map Prod.fst).Nodup := by
  induction groups with
  | nil => exact List.nodup_singleton _
  | cons head groups ih =>
      rw [List.map_cons, List.nodup_cons] at nodup
      unfold addToGroup
      split
      next => exact List.nodup_cons.mpr nodup
      next other =>
        rw [List.map_cons, List.nodup_cons]
        refine ⟨?_, ih nodup.2⟩
        intro again
        rcases mem_addToGroup again with old | new
        · exact nodup.1 old
        · exact other new.symm

theorem rowsByAction_grouped (rows : List Row) :
    Grouped rows (rowsByAction rows) := by
  have step : ∀ (rest before : List Row) (groups : Groups),
      Grouped before groups →
      Grouped (before ++ rest) (rest.foldl addToGroup groups) := by
    intro rest
    induction rest with
    | nil =>
        intro before groups grouped
        rw [List.append_nil]
        exact grouped
    | cons row rest ih =>
        intro before groups grouped
        rw [List.foldl_cons, List.append_cons]
        apply ih
        exact ⟨(addToGroup_flatten groups row).trans
          (grouped.perm.append_right _), addToGroup_keys grouped.keys,
          addToGroup_nodup grouped.nodup⟩
  exact step rows [] [] ⟨.refl _, fun _ member => absurd member
    List.not_mem_nil, List.nodup_nil⟩

def Decodes (rows : List Row) (word : BitVec 32)
    (key : String × Option String) : Prop :=
  ∃ row ∈ rows, row.Covers word ∧ row.key = key

theorem firstMatch_eq_some_iff
    (disjoint : DisjointItems Row.Covers rows)
    (word : BitVec 32) (key : String × Option String) :
    firstMatch rows word = some key ↔ Decodes rows word key := by
  unfold firstMatch
  rw [Option.map_eq_some_iff]
  constructor
  · rintro ⟨row, found, sameKey⟩
    have covers := List.find?_some found
    exact ⟨row, List.mem_of_find?_eq_some found, covers, sameKey⟩
  · rintro ⟨row, member, covers, sameKey⟩
    obtain ⟨first, found⟩ : ∃ first,
        rows.find? (fun row => row.matchesWord word) = some first := by
      rw [← Option.isSome_iff_exists, List.find?_isSome]
      exact ⟨row, member, covers⟩
    refine ⟨first, found, ?_⟩
    have firstCovers := List.find?_some found
    have same : first = row := by
      by_contra different
      exact disjoint.excludes (List.mem_of_find?_eq_some found) member
        different word firstCovers covers
    rw [same]
    exact sameKey

private theorem matchesWord_keepColumns
    (member : row ∈ rows) (numCols : Nat)
    (word : BitVec 32) :
    (keepColumns (columnKept rows numCols) row.patterns).all
        (fun pattern => pattern.matchesWord word) =
      row.matchesWord word := by
  unfold keepColumns Row.matchesWord
  rw [Bool.eq_iff_iff, List.all_eq_true, List.all_eq_true]
  constructor
  · intro kept pattern inRow
    obtain ⟨col, found⟩ := List.mem_iff_getElem?.mp inRow
    by_cases keeps : columnKept rows numCols col = true
    · apply kept
      rw [List.mem_map]
      refine ⟨(pattern, col), ?_, rfl⟩
      rw [List.mem_filter, List.mem_zipIdx_iff_getElem?]
      exact ⟨found, keeps⟩
    · -- A column that is dropped has no bit that matters in any row.
      have unused : columnUsed rows col = false := by
        rw [← Bool.not_eq_true]
        intro used
        apply keeps
        unfold columnKept
        rw [used, Bool.true_or, Bool.true_or]
      have none : pattern.mask = 0#32 := by
        unfold columnUsed at unused
        rw [List.any_eq_false] at unused
        have here := unused row member
        simp only [found, bne_iff_ne, not_not] at here
        exact here
      unfold BitPattern.matchesWord
      rw [if_pos none]
  · intro every pattern kept
    obtain ⟨⟨_, col⟩, inFiltered, rfl⟩ := List.mem_map.mp kept
    obtain ⟨inZip, -⟩ := List.mem_filter.mp inFiltered
    exact every _ (List.mem_iff_getElem?.mpr
      ⟨col, List.mem_zipIdx_iff_getElem?.mp inZip⟩)

theorem removeUnusedColumns_some
    {columns : Nat} (some : 0 < columns)
    (nonempty : rows ≠ [])
    (width : ∀ row ∈ rows, row.patterns.length = columns) :
    ∃ change : Row → Row, removeUnusedColumns rows = .some (rows.map change) ∧
      ∀ row ∈ rows, (change row).key = row.key ∧
        ∀ word, (change row).matchesWord word = row.matchesWord word := by
  obtain ⟨first, rest, rfl⟩ := List.exists_cons_of_ne_nil nonempty
  have firstWidth := width first List.mem_cons_self
  refine ⟨fun row => { row with
    patterns := keepColumns (columnKept (first :: rest) first.patterns.length)
      row.patterns }, ?_, ?_⟩
  · unfold removeUnusedColumns
    simp only
    rw [if_neg]
    rw [not_or, not_not, List.all_eq_true]
    refine ⟨by omega, ?_⟩
    intro row member
    rw [width row member, firstWidth]
    exact decide_eq_true (Nat.le_refl columns)
  · intro row member
    refine ⟨rfl, ?_⟩
    intro word
    exact matchesWord_keepColumns member _ word

private theorem decodes_iff_group
    (table : Table) (word : BitVec 32) (key : String × Option String) :
    Decodes table.rows word key ↔
      ∃ group ∈ rowsByAction table.rows, group.1 = key ∧
        Denoted Row.Covers group.2 word := by
  have grouped := rowsByAction_grouped table.rows
  constructor
  · rintro ⟨row, member, covers, sameKey⟩
    obtain ⟨rows, inMap, inRows⟩ :=
      List.mem_flatten.mp (grouped.perm.mem_iff.mpr member)
    obtain ⟨group, inGroups, rfl⟩ := List.mem_map.mp inMap
    refine ⟨group, inGroups, ?_, row, inRows, covers⟩
    rw [← sameKey]
    exact (grouped.keys group inGroups row inRows).symm
  · rintro ⟨group, inGroups, rfl, row, inRows, covers⟩
    refine ⟨row, ?_, covers, grouped.keys group inGroups row inRows⟩
    apply grouped.perm.mem_iff.mp
    exact List.mem_flatten_of_mem (List.mem_map_of_mem inGroups) inRows

private theorem mem_optimized
    (permutes : ∀ groups, (itervalues groups).Perm groups) :
    row ∈ (itervalues ((rowsByAction table.rows).map Prod.snd)).flatMap
        optimizeRowsForSingleAction ↔
      ∃ group ∈ rowsByAction table.rows,
        row ∈ optimizeRowsForSingleAction group.2 := by
  rw [List.mem_flatMap]
  constructor
  · rintro ⟨rows, inValues, inRows⟩
    obtain ⟨group, inGroups, rfl⟩ :=
      List.mem_map.mp ((permutes _).mem_iff.mp inValues)
    exact ⟨group, inGroups, inRows⟩
  · rintro ⟨group, inGroups, inRows⟩
    exact ⟨group.2, (permutes _).mem_iff.mpr (List.mem_map_of_mem inGroups),
      inRows⟩

section

variable {table : Table}
  (disjoint : DisjointItems Row.Covers table.rows)

include disjoint

private theorem groups_disjoint :
    DisjointItems Row.Covers
      ((rowsByAction table.rows).map Prod.snd).flatten :=
  (disjointItems_perm (rowsByAction_grouped table.rows).perm).mpr disjoint

private theorem group_consistent
    {group : (String × Option String) × List Row}
    (member : group ∈ rowsByAction table.rows) :
    Consistent table.columns group.1 group.2 := by
  have grouped := rowsByAction_grouped table.rows
  have inside : group.2 ∈ (rowsByAction table.rows).map Prod.snd :=
    List.mem_map_of_mem member
  constructor
  · intro row inGroup
    refine ⟨table.width row ?_, grouped.keys group member row inGroup⟩
    exact grouped.perm.mem_iff.mp (List.mem_flatten_of_mem inside inGroup)
  · exact (List.pairwise_flatten.mp (groups_disjoint disjoint)).1 group.2
      inside

variable {itervalues : List (List Row) → List (List Row)}
  (permutes : ∀ groups, (itervalues groups).Perm groups)

include permutes

private theorem decodes_optimized_iff (word : BitVec 32)
    (key : String × Option String) :
    Decodes ((itervalues ((rowsByAction table.rows).map Prod.snd)).flatMap
        optimizeRowsForSingleAction) word key ↔
      ∃ group ∈ rowsByAction table.rows, group.1 = key ∧
        Denoted Row.Covers (optimizeRowsForSingleAction group.2) word := by
  constructor
  · rintro ⟨row, member, covers, sameKey⟩
    obtain ⟨group, inGroups, inRows⟩ :=
      (mem_optimized permutes).mp member
    have consistent := optimizeRowsForSingleAction_consistent table.someColumn
      (group_consistent disjoint inGroups)
    refine ⟨group, inGroups, ?_, row, inRows, covers⟩
    rw [← sameKey]
    exact (consistent.shape row inRows).2.symm
  · rintro ⟨group, inGroups, rfl, row, inRows, covers⟩
    have consistent := optimizeRowsForSingleAction_consistent table.someColumn
      (group_consistent disjoint inGroups)
    exact ⟨row, (mem_optimized permutes).mpr
      ⟨group, inGroups, inRows⟩, covers, (consistent.shape row inRows).2⟩

private theorem optimized_disjoint :
    DisjointItems Row.Covers
      ((itervalues ((rowsByAction table.rows).map Prod.snd)).flatMap
        optimizeRowsForSingleAction) := by
  have values := (disjointItems_perm (permutes _).flatten).mpr
    (groups_disjoint disjoint)
  obtain ⟨-, across⟩ := List.pairwise_flatten.mp values
  have narrow : ∀ rows ∈ itervalues ((rowsByAction table.rows).map Prod.snd),
      ∀ row ∈ optimizeRowsForSingleAction rows, ∀ word, row.Covers word →
        Denoted Row.Covers rows word := by
    intro rows inValues row member word covers
    obtain ⟨group, inGroups, rfl⟩ :=
      List.mem_map.mp ((permutes _).mem_iff.mp inValues)
    exact optimizeRowsForSingleAction_narrows table.someColumn
      (group_consistent disjoint inGroups).shape ⟨row, member, covers⟩
  rw [List.flatMap_def]
  refine List.pairwise_flatten.mpr ⟨?_, ?_⟩
  · intro rows inMap
    obtain ⟨before, inValues, rfl⟩ := List.mem_map.mp inMap
    obtain ⟨group, inGroups, rfl⟩ :=
      List.mem_map.mp ((permutes _).mem_iff.mp inValues)
    exact (optimizeRowsForSingleAction_consistent table.someColumn
      (group_consistent disjoint inGroups)).disjoint
  · rw [List.pairwise_map]
    refine across.imp_of_mem ?_
    intro left right inLeft inRight apart row inRow other inOther word covers
      otherCovers
    obtain ⟨before, inBefore, beforeCovers⟩ :=
      narrow left inLeft row inRow word covers
    obtain ⟨after, inAfter, afterCovers⟩ :=
      narrow right inRight other inOther word otherCovers
    exact apart before inBefore after inAfter word beforeCovers afterCovers

end

private theorem optimized_ne_nil
    (permutes : ∀ groups, (itervalues groups).Perm groups) :
    (itervalues ((rowsByAction table.rows).map Prod.snd)).flatMap
      optimizeRowsForSingleAction ≠ [] := by
  have grouped := rowsByAction_grouped table.rows
  obtain ⟨row, member⟩ := List.exists_mem_of_ne_nil _ table.someRow
  obtain ⟨rows, inMap, inRows⟩ :=
    List.mem_flatten.mp (grouped.perm.mem_iff.mpr member)
  obtain ⟨group, inGroups, rfl⟩ := List.mem_map.mp inMap
  have kept : ∀ rows next, mergeStep rows = some next → rows ≠ [] →
      next ≠ [] := by
    intro rows next stepped _
    unfold mergeStep at stepped
    split at stepped
    next => cases stepped
    next =>
      cases stepped
      exact List.append_ne_nil_of_right_ne_nil _ (List.cons_ne_nil _ _)
  have remains : optimizeRowsForSingleAction group.2 ≠ [] :=
    mergeRun_invariant kept _ (List.ne_nil_of_mem inRows)
  obtain ⟨left, inLeft⟩ := List.exists_mem_of_ne_nil _ remains
  exact List.ne_nil_of_mem ((mem_optimized permutes).mpr
    ⟨group, inGroups, inLeft⟩)

def DecodesAlike (itervalues : List (List Row) → List (List Row))
    (table : Table) : Prop :=
  ∃ rows, generateTable itervalues table = some rows ∧
    ∀ word, firstMatch rows word = firstMatch table.rows word

def MergesLoseNothing (table : Table) : Prop :=
  ∀ group ∈ rowsByAction table.rows, ∀ state,
    Visits mergeStep group.2 state → ∀ first second others,
    mergeablePair state = some (first, second, others) →
    ¬ first.LosesWords second

private theorem sortedRows_changed
    {change : Row → Row}
    (disjoint : DisjointItems Row.Covers rows)
    (changes : ∀ row ∈ rows, (change row).key = row.key ∧
      ∀ word, (change row).matchesWord word = row.matchesWord word) :
    DisjointItems Row.Covers (sortedRows (rows.map change)) ∧
      ∀ word key, Decodes (sortedRows (rows.map change)) word key ↔
        Decodes rows word key := by
  have sorted : (sortedRows (rows.map change)).Perm (rows.map change) :=
    List.mergeSort_perm _ _
  constructor
  · rw [disjointItems_perm sorted]
    refine List.pairwise_map.mpr (disjoint.imp_of_mem ?_)
    intro left right inLeft inRight apart word covers otherCovers
    unfold Row.Covers at covers otherCovers
    rw [(changes left inLeft).2] at covers
    rw [(changes right inRight).2] at otherCovers
    exact apart word covers otherCovers
  · intro word key
    constructor
    · rintro ⟨row, member, covers, sameKey⟩
      obtain ⟨before, inRows, rfl⟩ :=
        List.mem_map.mp (sorted.mem_iff.mp member)
      obtain ⟨keeps, keepsWords⟩ := changes before inRows
      unfold Row.Covers at covers
      rw [keepsWords] at covers
      exact ⟨before, inRows, covers, keeps.symm.trans sameKey⟩
    · rintro ⟨row, member, covers, sameKey⟩
      obtain ⟨keeps, keepsWords⟩ := changes row member
      refine ⟨change row, sorted.mem_iff.mpr (List.mem_map_of_mem member), ?_,
        keeps.trans sameKey⟩
      unfold Row.Covers
      rw [keepsWords]
      exact covers

private theorem generateTable_some
    (permutes : ∀ groups, (itervalues groups).Perm groups)
    (disjoint : DisjointItems Row.Covers table.rows) :
    ∃ rows, generateTable itervalues table = some rows ∧
      DisjointItems Row.Covers rows ∧
      ∀ word key, Decodes rows word key ↔
        ∃ group ∈ rowsByAction table.rows, group.1 = key ∧
          Denoted Row.Covers (optimizeRowsForSingleAction group.2) word := by
  have width : ∀ row ∈ (itervalues ((rowsByAction table.rows).map
      Prod.snd)).flatMap optimizeRowsForSingleAction,
      row.patterns.length = table.columns := by
    intro row member
    obtain ⟨group, inGroups, inRows⟩ := (mem_optimized permutes).mp member
    exact ((optimizeRowsForSingleAction_consistent table.someColumn
      (group_consistent disjoint inGroups)).shape row inRows).1
  obtain ⟨change, dropped, changes⟩ := removeUnusedColumns_some
    table.someColumn (optimized_ne_nil permutes) width
  obtain ⟨apart, decodes⟩ :=
    sortedRows_changed (optimized_disjoint disjoint permutes) changes
  refine ⟨_, ?_, apart, ?_⟩
  · unfold generateTable optimizeRows
    rw [dropped, Option.map_some]
  · intro word key
    rw [decodes, decodes_optimized_iff disjoint permutes]

private theorem group_unique
    {group other : (String × Option String) × List Row}
    (member : group ∈ rowsByAction rows) (otherMember : other ∈ rowsByAction rows)
    (same : group.1 = other.1) : group = other := by
  have nodup := (rowsByAction_grouped rows).nodup
  exact List.inj_on_of_nodup_map nodup member otherMember same

/-- The merge of two patterns matches what one of them matches, unless both
are `'!='` patterns; and a table is decoded alike exactly if no merge of such
patterns loses words. -/
theorem minimization_exact
    (pattern other : BitPattern)
    (itervalues : List (List Row) → List (List Row)) (table : Table) :
    (pattern.Compatible other →
      (pattern.AddMatchesUnion other ↔ ¬ pattern.NegatedPair other)) ∧
    ((∀ groups, (itervalues groups).Perm groups) →
      DisjointItems Row.Covers table.rows →
      (DecodesAlike itervalues table ↔ MergesLoseNothing table)) := by
  refine ⟨BitPattern.addMatchesUnion_iff, ?_⟩
  intro permutes disjoint
  obtain ⟨rows, generated, apart, decodes⟩ :=
    generateTable_some permutes disjoint
  have alike : DecodesAlike itervalues table ↔
      ∀ word key, Decodes rows word key ↔ Decodes table.rows word key := by
    constructor
    · rintro ⟨other, otherGenerated, same⟩ word key
      rw [generated, Option.some.injEq] at otherGenerated
      subst otherGenerated
      rw [← firstMatch_eq_some_iff apart, same, firstMatch_eq_some_iff disjoint]
    · intro same
      refine ⟨rows, generated, ?_⟩
      intro word
      apply Option.ext
      intro key
      rw [firstMatch_eq_some_iff apart, same, firstMatch_eq_some_iff disjoint]
  have groupIff : MergesLoseNothing table ↔
      ∀ group ∈ rowsByAction table.rows, ∀ word,
        Denoted Row.Covers group.2 word →
        Denoted Row.Covers (optimizeRowsForSingleAction group.2) word := by
    refine forall₂_congr ?_
    intro group member
    exact (optimizeRowsForSingleAction_keeps_iff table.someColumn
      (group_consistent disjoint member)).symm
  rw [alike, groupIff]
  constructor
  · intro same group member word covered
    have before : Decodes table.rows word group.1 :=
      (decodes_iff_group table word group.1).mpr ⟨group, member, rfl, covered⟩
    obtain ⟨other, otherMember, sameKey, found⟩ :=
      (decodes word group.1).mp ((same word group.1).mpr before)
    rw [group_unique otherMember member sameKey] at found
    exact found
  · intro keeps word key
    rw [decodes, decodes_iff_group table]
    constructor
    · rintro ⟨group, member, sameKey, found⟩
      exact ⟨group, member, sameKey,
        optimizeRowsForSingleAction_narrows table.someColumn
          (group_consistent disjoint member).shape found⟩
    · rintro ⟨group, member, sameKey, covered⟩
      exact ⟨group, member, sameKey, keeps group member word covered⟩

def lowBits (mask value : Fin 4) (op : Op)
    (within : value.val &&& mask.val = value.val) : BitPattern where
  mask := BitVec.ofNat 32 mask
  value := BitVec.ofNat 32 value
  op := op
  within := by
    revert within
    revert mask value
    decide

/-- The rows `x0` and `x1`, with the same action. -/
def completeTable : Table where
  columns := 1
  rows := [⟨[lowBits 1 0 .eq rfl], "=DataProc", none⟩,
    ⟨[lowBits 1 1 .eq rfl], "=DataProc", none⟩]
  someColumn := by decide
  someRow := by decide
  width := by decide

private theorem lowBits_masked
    (mask value : Fin 4) (op : Op)
    (within : value.val &&& mask.val = value.val) (word : BitVec 32) :
    (lowBits mask value op within).matchesWord word =
      (lowBits mask value op within).matchesWord (word &&& 3#32) := by
  have inner : 3#32 &&& BitVec.ofNat 32 mask = BitVec.ofNat 32 mask := by
    clear within
    revert mask
    decide
  unfold BitPattern.matchesWord
  simp only [lowBits]
  rw [BitVec.and_assoc, inner]

private theorem masked_cases (word : BitVec 32) :
    word &&& 3#32 = 0#32 ∨ word &&& 3#32 = 1#32 ∨ word &&& 3#32 = 2#32 ∨
      word &&& 3#32 = 3#32 := by
  have small : (word &&& 3#32).toNat ≤ 3 := by
    rw [BitVec.toNat_and]
    exact Nat.and_le_right
  have values : ∀ value : BitVec 32, value.toNat ≤ 3 →
      value = 0#32 ∨ value = 1#32 ∨ value = 2#32 ∨ value = 3#32 := by
    intro value below
    simp only [← BitVec.toNat_inj, BitVec.toNat_ofNat, Nat.reducePow,
      Nat.reduceMod]
    omega
  exact values _ small

private theorem disjoint_completeTable :
    DisjointItems Row.Covers completeTable.rows := by
  refine List.pairwise_pair.mpr ?_
  intro word
  simp only [Row.Covers, Row.matchesWord, List.all_cons, List.all_nil,
    Bool.and_true, lowBits_masked _ _ _ _ word]
  obtain masked | masked | masked | masked := masked_cases word <;>
    rw [masked] <;> decide

/-- The rows `x0` and `x1` become one row. -/
theorem minimization_completeTable :
    ((lowBits 1 0 .eq rfl).AddMatchesUnion (lowBits 1 1 .eq rfl) ↔
      ¬ (lowBits 1 0 .eq rfl).NegatedPair (lowBits 1 1 .eq rfl)) ∧
    (DecodesAlike id completeTable ↔ MergesLoseNothing completeTable) :=
  have exact := minimization_exact (lowBits 1 0 .eq rfl) (lowBits 1 1 .eq rfl)
    id completeTable
  ⟨exact.1 (.inr (by decide)),
    exact.2 (fun _ => .refl _) disjoint_completeTable⟩

/-- The first row matches the words that end in `01`, the second those that
end in `00`. -/
def negatedTable : Table where
  columns := 2
  rows := [⟨[lowBits 2 0 .eq rfl, lowBits 3 0 .ne rfl], "=DataProc", none⟩,
    ⟨[lowBits 2 0 .eq rfl, lowBits 3 1 .ne rfl], "=DataProc", none⟩]
  someColumn := by decide
  someRow := by decide
  width := by decide

private theorem disjoint_negatedTable :
    DisjointItems Row.Covers negatedTable.rows := by
  refine List.pairwise_pair.mpr ?_
  intro word
  simp only [Row.Covers, Row.matchesWord, List.all_cons, List.all_nil,
    Bool.and_true, lowBits_masked _ _ _ _ word]
  obtain masked | masked | masked | masked := masked_cases word <;>
    rw [masked] <;> decide

/-- The merge of the two rows matches nothing. -/
theorem negatedTable_loses_words :
    (∃ pattern other : BitPattern, pattern.Compatible other ∧
      ¬ pattern.AddMatchesUnion other) ∧
    DisjointItems Row.Covers negatedTable.rows ∧
    firstMatch negatedTable.rows 1#32 = some ("=DataProc", none) ∧
    ∃ rows, generateTable id negatedTable = some rows ∧
      firstMatch rows 1#32 = none := by
  refine ⟨⟨lowBits 3 0 .ne rfl, lowBits 3 1 .ne rfl, .inr (by decide), ?_⟩,
    disjoint_negatedTable, by decide, ?_⟩
  · intro union
    have differs := union 1#32
    revert differs
    decide
  · refine ⟨[⟨[lowBits 2 0 .eq rfl, lowBits 2 0 .ne rfl], "=DataProc", none⟩],
      ?_, by decide⟩
    have optimized : optimizeRows id negatedTable.rows =
        some [⟨[lowBits 2 0 .eq rfl, lowBits 2 0 .ne rfl], "=DataProc",
          none⟩] := by
      decide +kernel
    unfold generateTable
    rw [optimized]
    simp only [Option.map_some, sortedRows, List.mergeSort_singleton]

end NativeClient.DecoderGenerator
