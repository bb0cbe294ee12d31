import Mathlib.Data.List.Nodup
import Mathlib.Logic.Function.Basic

/-!
# Linked lists with a pointer to the last link

The links of a list are its head and the `next` of every cell.  New cells are
appended through the last link, which is the head when the list is empty.
-/

namespace NativeClient.Library

variable {ν α : Type} {pointer : Option ν} {contents : List (ν × α)}

structure Cell (ν α : Type) where
  next : Option ν
  item : α

inductive Link (ν : Type) where
  | head
  | next (node : ν)

structure LinkedList (ν α : Type) where
  head : Option ν
  cells : ν → Option (Cell ν α)

namespace LinkedList

def setCell [DecidableEq ν] (list : LinkedList ν α) (node : ν) (cell : Option (Cell ν α)) :
    LinkedList ν α :=
  { list with cells := Function.update list.cells node cell }

/-- `*link = pointer`; `none` if the cell of the link is not allocated. -/
def setLink [DecidableEq ν] (list : LinkedList ν α) (link : Link ν) (pointer : Option ν) :
    Option (LinkedList ν α) :=
  match link with
  | .head => some { list with head := pointer }
  | .next node =>
      match list.cells node with
      | none => none
      | some cell => some (list.setCell node (some { cell with next := pointer }))

end LinkedList

/-- The cells from `pointer` on are those of the contents. -/
def Linked (cells : ν → Option (Cell ν α)) :
    Option ν → List (ν × α) → Prop
  | pointer, [] => pointer = none
  | pointer, (node, item) :: rest =>
      pointer = some node ∧
        ∃ next, cells node = some ⟨next, item⟩ ∧ Linked cells next rest

def lastLink (contents : List (ν × α)) : Link ν :=
  match contents.getLast? with
  | none => .head
  | some (node, _) => .next node

structure Represents (list : LinkedList ν α) (contents : List (ν × α)) :
    Prop where
  linked : Linked list.cells list.head contents
  distinct : (contents.map Prod.fst).Nodup

theorem Linked.congr
    {cells after : ν → Option (Cell ν α)}
    (linked : Linked cells pointer contents)
    (same : ∀ node ∈ contents.map Prod.fst, after node = cells node) :
    Linked after pointer contents := by
  induction contents generalizing pointer with
  | nil => exact linked
  | cons entry rest ih =>
      obtain ⟨node, item⟩ := entry
      obtain ⟨here, next, cell, later⟩ := linked
      refine ⟨here, next, (same node (by simp)).trans cell, ih later ?_⟩
      intro other member
      exact same other (List.mem_cons_of_mem _ member)

theorem Linked.allocated
    {cells : ν → Option (Cell ν α)}
    (linked : Linked cells pointer contents) :
    ∀ node ∈ contents.map Prod.fst, cells node ≠ none := by
  induction contents generalizing pointer with
  | nil => exact nofun
  | cons entry rest ih =>
      obtain ⟨node, item⟩ := entry
      obtain ⟨-, next, cell, later⟩ := linked
      intro other member
      rcases List.mem_cons.mp member with rfl | member
      · rw [cell]
        nofun
      · exact ih later other member

theorem Linked.append
    {cells after : ν → Option (Cell ν α)}
    {front : List (ν × α)} {last node : ν} {lastItem item : α}
    (linked : Linked cells pointer (front ++ [(last, lastItem)]))
    (fresh : last ∉ front.map Prod.fst)
    (same : ∀ other, other ∈ front.map Prod.fst → after other = cells other)
    (lastCell : after last = some ⟨some node, lastItem⟩)
    (cell : after node = some ⟨none, item⟩) :
    Linked after pointer (front ++ [(last, lastItem)] ++ [(node, item)]) := by
  induction front generalizing pointer with
  | nil => exact ⟨linked.1, _, lastCell, rfl, _, cell, rfl⟩
  | cons entry front ih =>
      obtain ⟨first, firstItem⟩ := entry
      obtain ⟨here, next, firstCell, later⟩ := linked
      refine ⟨here, next, (same first (by simp)).trans firstCell, ih later ?_ ?_⟩
      · exact fun member => fresh (List.mem_cons_of_mem _ member)
      · exact fun other member => same other (List.mem_cons_of_mem _ member)

theorem Represents.append
    [DecidableEq ν] {list : LinkedList ν α}
    (represents : Represents list contents)
    {node : ν} (fresh : list.cells node = none) (item : α) :
    ∃ after, (list.setCell node (some ⟨none, item⟩)).setLink
        (lastLink contents) (some node) = some after ∧
      Represents after (contents ++ [(node, item)]) := by
  obtain ⟨linked, distinct⟩ := represents
  have absent : node ∉ contents.map Prod.fst :=
    fun member => linked.allocated node member fresh
  have distinctAfter : ((contents ++ [(node, item)]).map Prod.fst).Nodup := by
    rw [List.map_append]
    exact List.Nodup.append distinct (List.nodup_singleton _)
      (List.disjoint_singleton.mpr absent)
  rcases List.eq_nil_or_concat' contents with rfl | ⟨front, last, rfl⟩
  · refine ⟨_, rfl, ⟨rfl, none, ?_, rfl⟩, distinctAfter⟩
    exact Function.update_self _ _ _
  · obtain ⟨last, lastItem⟩ := last
    have lastCell : list.cells last = some ⟨none, lastItem⟩ := by
      clear absent distinct distinctAfter
      generalize list.head = pointer at linked
      induction front generalizing pointer with
      | nil =>
          obtain ⟨-, next, cell, rfl⟩ := linked
          exact cell
      | cons entry front ih =>
          obtain ⟨-, next, -, later⟩ := linked
          exact ih next later
    rw [List.map_append, List.mem_append, not_or] at absent
    have different : last ≠ node := fun same =>
      absent.2 (same ▸ List.mem_singleton.mpr rfl)
    have lastFresh : last ∉ front.map Prod.fst := by
      rw [List.map_append, List.nodup_append] at distinct
      intro member
      exact distinct.2.2 last member last (List.mem_singleton.mpr rfl) rfl
    unfold lastLink LinkedList.setLink LinkedList.setCell
    rw [List.getLast?_concat]
    dsimp only
    rw [Function.update_of_ne different, lastCell]
    refine ⟨_, rfl, linked.append lastFresh ?_ ?_ ?_, distinctAfter⟩
    · intro other member
      have notLast : other ≠ last := fun same => lastFresh (same ▸ member)
      have notNode : other ≠ node := fun same => absent.1 (same ▸ member)
      exact (Function.update_of_ne notLast _ _).trans
        (Function.update_of_ne notNode _ _)
    · exact Function.update_self _ _ _
    · exact (Function.update_of_ne (Ne.symm different) _ _).trans
        (Function.update_self _ _ _)

theorem Represents.tail
    [DecidableEq ν] {list : LinkedList ν α} {node : ν} {item : α} {rest : List (ν × α)}
    (represents : Represents list ((node, item) :: rest)) :
    ∃ next, list.head = some node ∧ list.cells node = some ⟨next, item⟩ ∧
      (next = none ↔ rest = []) ∧
      Represents ({ list with head := next }.setCell node none) rest := by
  obtain ⟨⟨head, next, cell, later⟩, distinct⟩ := represents
  obtain ⟨absent, distinctRest⟩ := List.nodup_cons.mp distinct
  refine ⟨next, head, cell, ?_, later.congr fun other member => ?_, distinctRest⟩
  · cases rest with
    | nil => exact iff_of_true later rfl
    | cons entry rest =>
        refine iff_of_false ?_ (List.cons_ne_nil _ _)
        rw [later.1]
        nofun
  · have different : other ≠ node := by
      rintro rfl
      exact absent member
    exact Function.update_of_ne different _ _

theorem lastLink_cons
    {entry : ν × α} {rest : List (ν × α)} (more : rest ≠ []) :
    lastLink (entry :: rest) = lastLink rest := by
  unfold lastLink
  rw [List.getLast?_cons_of_ne_nil more]

end NativeClient.Library
