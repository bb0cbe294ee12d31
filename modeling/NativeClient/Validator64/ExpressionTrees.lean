import NativeClient.Library.Preorder
import NativeClient.Validator64.Expressions

/-!
# Expression trees

The operands of an instruction are trees that stand in one vector in preorder.
The width of a node is found by recursion over the ranks of the nodes, its
kids by skipping the widths of the kids before, and its parent by a scan
backwards.
-/

namespace NativeClient.Validator64

open NativeClient.Library
open NativeClient.Decoder64

def expRank (vector : NaClExpVector) (index : Nat) : Nat :=
  naClExpKindRank (vector.node index).kind

/-- The nodes of the vector are the forest in preorder, in an array of
`NACL_MAX_EXPS` nodes. -/
structure Flattens (vector : NaClExpVector) (forest : Forest) : Prop where
  nodes : vector.numberExprNodes = forest.size
  room : forest.size ≤ naclMaxExps
  ranked : forest.Ranked (expRank vector) 0

section Trees

variable {vector : NaClExpVector} {forest kids : Forest}
  {start index fuel : Nat}

private theorem foldl_widths
    (ranked : forest.Ranked (expRank vector) start) {count : Nat}
    (place : start = index + count) (small : forest.size ≤ fuel)
    (widths : ∀ (kids : Forest) (node : Nat), kids.size < fuel →
      expRank vector node = kids.count →
      kids.Ranked (expRank vector) (node + 1) →
      expWidth vector fuel node = kids.size + 1) :
    (List.range forest.count).foldl
        (fun count _ => count + expWidth vector fuel (index + count)) count =
      count + forest.size := by
  induction forest generalizing start count with
  | nil => rfl
  | cons first rest _ ih =>
      obtain ⟨arity, below, behind⟩ := ranked
      rw [Forest.size] at small ⊢
      rw [Forest.count, List.range_succ_eq_map, List.foldl_cons,
        List.foldl_map, ← place, widths first start (by omega) arity below,
        ih behind (by omega) (by omega)]
      omega

private theorem expWidth_eq
    (arity : expRank vector index = kids.count)
    (ranked : kids.Ranked (expRank vector) (index + 1))
    (enough : kids.size < fuel) :
    expWidth vector fuel index = kids.size + 1 := by
  induction fuel generalizing kids index with
  | zero => exact absurd enough (Nat.not_lt_zero _)
  | succ fuel ih =>
      have loop := foldl_widths ranked (rfl : index + 1 = index + 1)
        (by omega : kids.size ≤ fuel)
        (fun below node small same placed => ih same placed small)
      rw [← arity] at loop
      rw [expWidth]
      exact loop.trans (Nat.add_comm _ _)

private theorem roots_eq
    (ranked : forest.Ranked (expRank vector) start)
    (small : forest.size ≤ naclMaxExps) :
    forest.roots start = (List.range forest.count).map fun kid =>
      (List.range kid).foldl (fun next _ => next + naClExpWidth vector next)
        start := by
  induction forest generalizing start with
  | nil => rfl
  | cons first rest _ ih =>
      obtain ⟨arity, below, behind⟩ := ranked
      rw [Forest.size] at small
      have width : naClExpWidth vector start = first.size + 1 :=
        expWidth_eq arity below (by omega)
      rw [Forest.roots, Forest.count, List.range_succ_eq_map, List.map_cons,
        List.map_map, ih behind (by omega)]
      refine congrArg (start :: ·) (List.map_congr_left fun kid _ => ?_)
      rw [Function.comp_apply, List.range_succ_eq_map, List.foldl_cons,
        List.foldl_map, width]

private theorem parentIndex_skip
    (ranked : forest.Ranked (expRank vector) start) {numKids : Nat}
    (positive : 0 < numKids) :
    parentIndex vector (start + forest.size) numKids =
      parentIndex vector start (numKids + forest.count) := by
  induction forest generalizing start numKids with
  | nil => rfl
  | cons first rest ihFirst ihRest =>
      obtain ⟨arity, below, behind⟩ := ranked
      have place : start + (first.cons rest).size =
          start + (first.size + 1) + rest.size := by
        rw [Forest.size]
        omega
      have inner : start + (first.size + 1) = start + 1 + first.size := by
        omega
      rw [place, ihRest behind positive, inner, ihFirst below (by omega),
        parentIndex]
      change (if _ ≤ expRank vector start then _ else parentIndex vector start
        (_ + 1 - expRank vector start)) = _
      rw [arity, if_neg (by omega), Forest.count]
      congr 1
      omega

private theorem parentIndex_root
    (ranked : forest.Ranked (expRank vector) start)
    (root : index ∈ forest.roots start) {numKids : Nat}
    (positive : 0 < numKids) :
    ∃ before < forest.count, parentIndex vector index numKids =
      parentIndex vector start (numKids + before) := by
  induction forest generalizing start with
  | nil => cases root
  | cons first rest _ ih =>
      obtain ⟨arity, below, behind⟩ := ranked
      rcases List.mem_cons.mp root with here | later
      · rw [here]
        exact ⟨0, Nat.succ_pos _, rfl⟩
      · obtain ⟨before, less, scanned⟩ := ih behind later
        refine ⟨before + 1, Nat.succ_lt_succ less, ?_⟩
        have skipped := @parentIndex_skip vector (.cons first .nil) start
          ⟨arity, below, trivial⟩ (numKids + before) (by omega)
        rw [scanned]
        exact skipped

private theorem parentIndex_kid
    {parent : Nat} (arity : expRank vector parent = kids.count)
    (ranked : kids.Ranked (expRank vector) (parent + 1))
    (kid : index ∈ kids.roots (parent + 1)) :
    naClGetExpParentIndex vector index = some parent := by
  obtain ⟨before, less, scanned⟩ := parentIndex_root ranked kid Nat.one_pos
  rw [naClGetExpParentIndex, scanned, parentIndex]
  change (if _ ≤ expRank vector parent then _ else _) = _
  rw [if_pos (by omega)]

private theorem parentIndex_none
    (ranked : forest.Ranked (expRank vector) 0)
    (root : index ∈ forest.roots 0) :
    naClGetExpParentIndex vector index = none := by
  obtain ⟨before, -, scanned⟩ := parentIndex_root ranked root Nat.one_pos
  exact scanned

private theorem Flattens.node
    (flattens : Flattens vector forest)
    (node : forest.kidsAt 0 index = some kids) :
    expRank vector index = kids.count ∧
      kids.Ranked (expRank vector) (index + 1) ∧
      naClExpWidth vector index = kids.size + 1 ∧
      kids.roots (index + 1) = (List.range kids.count).map
        (naClGetExpKidIndex vector index) := by
  obtain ⟨arity, ranked, smaller⟩ := flattens.ranked.kidsAt node
  have room := flattens.room
  refine ⟨arity, ranked, expWidth_eq arity ranked (by omega), ?_⟩
  rw [roots_eq ranked (by omega)]
  have place : ((index : Int) + 1).toNat = index + 1 := by omega
  refine List.map_congr_left fun kid _ => ?_
  rw [naClGetExpKidIndex, place]

end Trees

/-- In a vector that is a forest in preorder, the width of a node is the number
of nodes of its tree, the kid indices are the cells of the kids, and the parent
index is the node that has the index among its kids, or nothing for a root. -/
theorem expressionTrees_exact
    {vector : NaClExpVector} {forest : Forest}
    (flattens : Flattens vector forest) {index : Nat}
    (inside : index < vector.numberExprNodes) :
    ∃ kids, forest.kidsAt 0 index = some kids ∧
      naClExpKindRank (vector.node index).kind = kids.count ∧
      naClExpWidth vector index = kids.size + 1 ∧
      kids.roots (index + 1) = (List.range kids.count).map
        (naClGetExpKidIndex vector index) ∧
      (∀ parent, naClGetExpParentIndex vector index = some parent ↔
        parent < vector.numberExprNodes ∧
        ∃ kid < naClExpKindRank (vector.node parent).kind,
          naClGetExpKidIndex vector parent kid = index) ∧
      (naClGetExpParentIndex vector index = none ↔
        index ∈ forest.roots 0) := by
  have nodes := flattens.nodes
  obtain ⟨kids, node⟩ :=
    @Forest.exists_kidsAt forest 0 index (Nat.zero_le index) (by omega)
  obtain ⟨arity, -, width, roots⟩ := flattens.node node
  refine ⟨kids, node, arity, width, roots, ?_, ?_⟩
  · intro parent
    constructor
    · intro found
      rcases Forest.root_or_kid node with root | ⟨other, siblings, there, kid⟩
      · rw [parentIndex_none flattens.ranked root] at found
        cases found
      · obtain ⟨rank, ranked, -, places⟩ := flattens.node there
        rw [parentIndex_kid rank ranked kid] at found
        cases found
        have bounds := Forest.kidsAt_bounds there
        rw [places, ← rank] at kid
        obtain ⟨number, less, same⟩ := List.mem_map.mp kid
        exact ⟨by omega, number, List.mem_range.mp less, same⟩
    · intro ⟨below, kid, less, same⟩
      obtain ⟨siblings, there⟩ :=
        @Forest.exists_kidsAt forest 0 parent (Nat.zero_le parent) (by omega)
      obtain ⟨rank, ranked, -, places⟩ := flattens.node there
      apply parentIndex_kid rank ranked
      rw [places, ← rank]
      exact List.mem_map.mpr ⟨kid, List.mem_range.mpr less, same⟩
  · constructor
    · intro nothing
      rcases Forest.root_or_kid node with root | ⟨parent, siblings, there, kid⟩
      · exact root
      · obtain ⟨rank, ranked, -, -⟩ := flattens.node there
        rw [parentIndex_kid rank ranked kid] at nothing
        cases nothing
    · exact parentIndex_none flattens.ranked

/-- `[%rax+%rcx*1]` as the only operand. -/
private def memoffVector : NaClExpVector where
  numberExprNodes := 6
  node := fun index => ⟨[.operandReference, .exprMemOffset, .exprRegister,
    .exprRegister, .exprConstant, .exprConstant].getD index .undefinedExp, 0,
    []⟩

private def memoffForest : Forest :=
  .cons (.cons (.cons .nil (.cons .nil (.cons .nil (.cons .nil .nil)))) .nil)
    .nil

theorem expressionTrees_exact_memoff :
    naClExpWidth memoffVector 1 = 5 ∧
      naClGetExpParentIndex memoffVector 1 = some 0 ∧
      ∃ kids, memoffForest.kidsAt 0 1 = some kids ∧
        naClExpWidth memoffVector 1 = kids.size + 1 := by
  have flattens : Flattens memoffVector memoffForest :=
    ⟨rfl, by decide, rfl, ⟨rfl, ⟨rfl, trivial, rfl, trivial, rfl, trivial, rfl,
      trivial, trivial⟩, trivial⟩, trivial⟩
  obtain ⟨kids, node, -, width, -⟩ :=
    expressionTrees_exact flattens (by decide : 1 < 6)
  exact ⟨by decide, by decide, kids, node, width⟩

end NativeClient.Validator64
