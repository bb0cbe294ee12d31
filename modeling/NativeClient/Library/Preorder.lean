import Mathlib.Data.Nat.Basic

/-!
# Forests in preorder

A forest that is laid out in consecutive cells, every root in front of the
forest of its kids.  `rank` says how many kids the node of a cell has.
-/

namespace NativeClient.Library

inductive Forest where
  | nil
  | cons (kids rest : Forest)

namespace Forest

def count : Forest → Nat
  | nil => 0
  | cons _ rest => rest.count + 1

def size : Forest → Nat
  | nil => 0
  | cons kids rest => kids.size + 1 + rest.size

def roots : Forest → Nat → List Nat
  | nil, _ => []
  | cons kids rest, start => start :: rest.roots (start + (kids.size + 1))

def kidsAt : Forest → Nat → Nat → Option Forest
  | nil, _, _ => none
  | cons kids rest, start, cell =>
      if cell = start then some kids
      else if cell < start + (kids.size + 1) then
        kids.kidsAt (start + 1) cell
      else
        rest.kidsAt (start + (kids.size + 1)) cell

def Ranked (rank : Nat → Nat) : Forest → Nat → Prop
  | nil, _ => True
  | cons kids rest, start =>
      rank start = kids.count ∧ kids.Ranked rank (start + 1) ∧
        rest.Ranked rank (start + (kids.size + 1))

variable {rank : Nat → Nat} {forest kids : Forest} {start cell : Nat}

theorem kidsAt_bounds
    (node : forest.kidsAt start cell = some kids) :
    start ≤ cell ∧ cell < start + forest.size := by
  induction forest generalizing start with
  | nil => cases node
  | cons first rest ihFirst ihRest =>
      rw [kidsAt] at node
      rw [size]
      split_ifs at node with here inside
      · omega
      · have bounds := ihFirst node
        omega
      · have bounds := ihRest node
        omega

theorem exists_kidsAt
    (above : start ≤ cell) (below : cell < start + forest.size) :
    ∃ kids, forest.kidsAt start cell = some kids := by
  induction forest generalizing start with
  | nil => exact absurd below (Nat.not_lt.mpr above)
  | cons first rest ihFirst ihRest =>
      rw [size] at below
      rw [kidsAt]
      split_ifs with here inside
      · exact ⟨first, rfl⟩
      · exact ihFirst (by omega) (by omega)
      · exact ihRest (by omega) (by omega)

theorem Ranked.kidsAt
    (ranked : forest.Ranked rank start)
    (node : forest.kidsAt start cell = some kids) :
    rank cell = kids.count ∧ kids.Ranked rank (cell + 1) ∧
      kids.size < forest.size := by
  induction forest generalizing start with
  | nil => cases node
  | cons first rest ihFirst ihRest =>
      obtain ⟨arity, below, behind⟩ := ranked
      rw [Forest.kidsAt] at node
      rw [size]
      split_ifs at node with here inside
      · cases node
        subst here
        exact ⟨arity, below, by omega⟩
      · obtain ⟨same, placed, smaller⟩ := ihFirst below node
        exact ⟨same, placed, by omega⟩
      · obtain ⟨same, placed, smaller⟩ := ihRest behind node
        exact ⟨same, placed, by omega⟩

theorem root_or_kid
    (node : forest.kidsAt start cell = some kids) :
    cell ∈ forest.roots start ∨ ∃ parent siblings,
      forest.kidsAt start parent = some siblings ∧
        cell ∈ siblings.roots (parent + 1) := by
  induction forest generalizing start with
  | nil => cases node
  | cons first rest ihFirst ihRest =>
      rw [kidsAt] at node
      split_ifs at node with here inside
      · rw [here]
        exact .inl List.mem_cons_self
      · right
        rcases ihFirst node with root | ⟨parent, siblings, found, kid⟩
        · exact ⟨start, first, by rw [kidsAt, if_pos rfl], root⟩
        · have bounds := kidsAt_bounds found
          refine ⟨parent, siblings, ?_, kid⟩
          rw [kidsAt, if_neg (by omega), if_pos (by omega)]
          exact found
      · rcases ihRest node with root | ⟨parent, siblings, found, kid⟩
        · exact .inl (List.mem_cons_of_mem _ root)
        · have bounds := kidsAt_bounds found
          refine .inr ⟨parent, siblings, ?_, kid⟩
          rw [kidsAt, if_neg (by omega), if_neg (by omega)]
          exact found

end Forest

end NativeClient.Library
