import Mathlib.Data.List.Pairwise
import Mathlib.Data.List.Perm.Basic
import Mathlib.Logic.Relation

/-!
# Merging the items of a list

Items stand for sets of values.  A step takes two items out of a list and puts
in one that stands for no more than the two together.  A run of such steps
never gains a value, and loses none exactly if no step does.
-/

namespace NativeClient.Library

variable {α β : Type}

/-- At most `fuel` steps, until there is none left to make. -/
def mergeRun (step : List α → Option (List α)) : Nat → List α → List α
  | 0, items => items
  | fuel + 1, items =>
      match step items with
      | none => items
      | some next => mergeRun step fuel next

def Visits (step : List α → Option (List α)) : List α → List α → Prop :=
  Relation.ReflTransGen fun items next => step items = some next

section

variable (denotes : α → β → Prop)

def Denoted (items : List α) (value : β) : Prop :=
  ∃ item ∈ items, denotes item value

def Excludes (left right : α) : Prop :=
  ∀ value, denotes left value → ¬ denotes right value

def DisjointItems (items : List α) : Prop :=
  items.Pairwise (Excludes denotes)

/-- `left` and `right` are replaced by `merged`. -/
structure Merges (items next : List α) (left right merged : α)
    (rest : List α) : Prop where
  before : items.Perm (left :: right :: rest)
  after : next.Perm (merged :: rest)
  narrow : ∀ value, denotes merged value →
    denotes left value ∨ denotes right value

end

variable {denotes : α → β → Prop} {items next : List α}
  {left right merged : α} {rest : List α}

theorem denoted_perm
    {other : List α} (permuted : items.Perm other) (value : β) :
    Denoted denotes items value ↔ Denoted denotes other value := by
  constructor
  · rintro ⟨item, member, holds⟩
    exact ⟨item, permuted.mem_iff.mp member, holds⟩
  · rintro ⟨item, member, holds⟩
    exact ⟨item, permuted.mem_iff.mpr member, holds⟩

theorem denoted_cons (item : α) (items : List α) (value : β) :
    Denoted denotes (item :: items) value ↔
      denotes item value ∨ Denoted denotes items value := by
  unfold Denoted
  simp only [List.mem_cons, exists_eq_or_imp]

private theorem excludes_symm
    {left right : α} (excludes : Excludes denotes left right) :
    Excludes denotes right left :=
  fun value held other => excludes value other held

theorem DisjointItems.excludes
    (disjoint : DisjointItems denotes items) (inLeft : left ∈ items)
    (inRight : right ∈ items) (different : left ≠ right) :
    Excludes denotes left right := by
  have symmetric : Std.Symm (Excludes denotes) := ⟨fun _ _ => excludes_symm⟩
  exact List.Pairwise.forall disjoint inLeft inRight different

theorem disjointItems_perm
    {other : List α} (permuted : items.Perm other) :
    DisjointItems denotes items ↔ DisjointItems denotes other :=
  permuted.pairwise_iff excludes_symm

theorem Merges.narrows
    (merges : Merges denotes items next left right merged rest) {value : β}
    (held : Denoted denotes next value) : Denoted denotes items value := by
  rw [denoted_perm merges.after, denoted_cons] at held
  rw [denoted_perm merges.before, denoted_cons, denoted_cons]
  rcases held with inMerged | inRest
  · rcases merges.narrow value inMerged with inLeft | inRight
    · exact .inl inLeft
    · exact .inr (.inl inRight)
  · exact .inr (.inr inRest)

theorem Merges.disjoint
    (merges : Merges denotes items next left right merged rest)
    (disjoint : DisjointItems denotes items) :
    DisjointItems denotes next := by
  rw [disjointItems_perm merges.before] at disjoint
  obtain ⟨leftApart, others⟩ := List.pairwise_cons.mp disjoint
  obtain ⟨rightApart, restApart⟩ := List.pairwise_cons.mp others
  rw [disjointItems_perm merges.after]
  refine List.pairwise_cons.mpr ⟨?_, restApart⟩
  intro item member value held
  rcases merges.narrow value held with inLeft | inRight
  · exact leftApart item (List.mem_cons_of_mem right member) value inLeft
  · exact rightApart item member value inRight

theorem Merges.keeps_iff
    (merges : Merges denotes items next left right merged rest)
    (disjoint : DisjointItems denotes items) :
    (∀ value, Denoted denotes items value → Denoted denotes next value) ↔
      ∀ value, denotes left value ∨ denotes right value →
        denotes merged value := by
  rw [disjointItems_perm merges.before] at disjoint
  obtain ⟨leftApart, others⟩ := List.pairwise_cons.mp disjoint
  obtain ⟨rightApart, -⟩ := List.pairwise_cons.mp others
  constructor
  · intro keeps value held
    have before : Denoted denotes items value := by
      rw [denoted_perm merges.before, denoted_cons, denoted_cons]
      rcases held with inLeft | inRight
      · exact .inl inLeft
      · exact .inr (.inl inRight)
    have after := keeps value before
    rw [denoted_perm merges.after, denoted_cons] at after
    rcases after with inMerged | ⟨item, member, inItem⟩
    · exact inMerged
    · rcases held with inLeft | inRight
      · exact absurd inItem
          (leftApart item (List.mem_cons_of_mem right member) value inLeft)
      · exact absurd inItem (rightApart item member value inRight)
  · intro covers value held
    rw [denoted_perm merges.before, denoted_cons, denoted_cons] at held
    rw [denoted_perm merges.after, denoted_cons]
    rcases held with inLeft | inRight | inRest
    · exact .inl (covers value (.inl inLeft))
    · exact .inl (covers value (.inr inRight))
    · exact .inr inRest

section

variable {step : List α → Option (List α)} {invariant : List α → Prop}
  (kept : ∀ items next, step items = some next → invariant items →
    invariant next)
  (narrows : ∀ items next, step items = some next → invariant items →
    ∀ value, Denoted denotes next value → Denoted denotes items value)

include kept

theorem visits_invariant
    {state : List α} (visited : Visits step items state)
    (start : invariant items) : invariant state := by
  induction visited with
  | refl => exact start
  | tail _ stepped holds => exact kept _ _ stepped holds

theorem mergeRun_invariant
    (fuel : Nat) {items : List α} (start : invariant items) :
    invariant (mergeRun step fuel items) := by
  induction fuel generalizing items with
  | zero => exact start
  | succ fuel ih =>
      unfold mergeRun
      cases stepped : step items with
      | none => exact start
      | some next => exact ih (kept items next stepped start)

include narrows

theorem mergeRun_narrows
    (fuel : Nat) {items : List α} (start : invariant items) {value : β}
    (held : Denoted denotes (mergeRun step fuel items) value) :
    Denoted denotes items value := by
  induction fuel generalizing items with
  | zero => exact held
  | succ fuel ih =>
      unfold mergeRun at held
      cases stepped : step items with
      | none =>
          rw [stepped] at held
          exact held
      | some next =>
          rw [stepped] at held
          exact narrows items next stepped start value
            (ih (kept items next stepped start) held)

theorem mergeRun_keeps_iff
    (shrinks : ∀ items next, step items = some next →
      next.length < items.length)
    {fuel : Nat} {items : List α} (enough : items.length ≤ fuel)
    (start : invariant items) :
    (∀ value, Denoted denotes items value →
        Denoted denotes (mergeRun step fuel items) value) ↔
      ∀ state, Visits step items state → ∀ next, step state = some next →
        ∀ value, Denoted denotes state value → Denoted denotes next value := by
  induction fuel generalizing items with
  | zero =>
      have stuck : ∀ next, ¬ step items = some next := by
        intro next stepped
        have fewer := shrinks items next stepped
        omega
      refine ⟨?_, fun _ value held => held⟩
      intro _ state visited next stepped
      rcases Relation.ReflTransGen.cases_head visited with
        rfl | ⟨first, firstStep, -⟩
      · exact absurd stepped (stuck next)
      · exact absurd firstStep (stuck first)
  | succ fuel ih =>
      unfold mergeRun
      cases stepped : step items with
      | none =>
          refine ⟨?_, fun _ value held => held⟩
          intro _ state visited next other
          rcases Relation.ReflTransGen.cases_head visited with
            rfl | ⟨first, firstStep, -⟩
          · rw [stepped] at other
            cases other
          · rw [stepped] at firstStep
            cases firstStep
      | some next =>
          have fewer := shrinks items next stepped
          have nextStart := kept items next stepped start
          have inner := @ih next (by omega) nextStart
          simp only
          constructor
          · intro keeps state visited other otherStep
            rcases Relation.ReflTransGen.cases_head visited with
              rfl | ⟨first, firstStep, later⟩
            · intro value held
              rw [stepped, Option.some.injEq] at otherStep
              rw [← otherStep]
              exact mergeRun_narrows kept narrows fuel nextStart
                (keeps value held)
            · rw [stepped, Option.some.injEq] at firstStep
              subst firstStep
              refine inner.mp ?_ state later other otherStep
              intro value held
              exact keeps value (narrows items next stepped start value held)
          · intro every value held
            apply inner.mpr
            · intro state visited
              exact every state (visited.head stepped)
            · exact every items .refl next stepped value held

end

end NativeClient.Library
