import Mathlib.Data.List.Basic
import Mathlib.Data.List.Perm.Basic
import Mathlib.Data.List.Forall2

/-!
# Partial functions in pieces

A list of items, each of which stands for a partial function.  Where the
pieces are apart the list stands for their union, whatever its order, and
cutting a set of keys out of every piece cuts it out of the union.
-/

namespace NativeClient.Library

variable {α κ β : Type}

def Apart (piece : α → κ → Option β) (left right : α) : Prop :=
  ∀ key, piece left key = none ∨ piece right key = none

def union (piece : α → κ → Option β) (items : List α) (key : κ) : Option β :=
  items.findSome? (piece · key)

variable {piece : α → κ → Option β}

theorem Apart.symm {left right : α} (apart : Apart piece left right) :
    Apart piece right left := by
  intro key
  exact (apart key).symm

@[simp]
theorem union_nil (key : κ) : union piece [] key = none := rfl

theorem union_cons (item : α) (items : List α) (key : κ) :
    union piece (item :: items) key =
      (piece item key).or (union piece items key) := by
  rw [union, List.findSome?_cons]
  cases piece item key <;> rfl

theorem union_append (items others : List α) (key : κ) :
    union piece (items ++ others) key =
      (union piece items key).or (union piece others key) := by
  rw [union, List.findSome?_append]
  rfl

theorem union_eq_none_iff {items : List α} {key : κ} :
    union piece items key = none ↔ ∀ item ∈ items, piece item key = none := by
  rw [union, List.findSome?_eq_none_iff]

theorem union_eq_some_iff
    {items : List α} (apart : items.Pairwise (Apart piece))
    {key : κ} {value : β} :
    union piece items key = some value ↔
      ∃ item ∈ items, piece item key = some value := by
  induction items with
  | nil => simp
  | cons item items ih =>
      rw [List.pairwise_cons] at apart
      obtain ⟨head, rest⟩ := apart
      rw [union_cons]
      cases found : piece item key with
      | none =>
          simp [ih rest, found]
      | some other =>
          have absent : ∀ later ∈ items, piece later key = none := by
            intro later member
            refine (head later member key).resolve_left ?_
            rw [found]
            exact Option.some_ne_none other
          constructor
          · intro same
            refine ⟨item, List.mem_cons_self, ?_⟩
            rw [found]
            exact same
          · rintro ⟨later, member, valued⟩
            rcases List.mem_cons.mp member with rfl | member
            · rw [found] at valued
              exact valued
            · rw [absent later member] at valued
              cases valued

theorem union_perm
    {items others : List α} (apart : items.Pairwise (Apart piece))
    (perm : items.Perm others) (key : κ) :
    union piece items key = union piece others key := by
  have apartOthers : others.Pairwise (Apart piece) :=
    perm.pairwise apart Apart.symm
  apply Option.ext
  intro value
  rw [union_eq_some_iff apart, union_eq_some_iff apartOthers]
  simp only [perm.mem_iff]

theorem union_filter
    {items : List α} {keep : α → Bool}
    (empty : ∀ item ∈ items, keep item = false → ∀ key, piece item key = none)
    (key : κ) : union piece (items.filter keep) key = union piece items key := by
  induction items with
  | nil => rfl
  | cons item items ih =>
      have rest := ih (fun later member =>
        empty later (List.mem_cons_of_mem item member))
      cases kept : keep item with
      | true => rw [List.filter_cons_of_pos kept, union_cons, union_cons, rest]
      | false =>
          rw [List.filter_cons_of_neg (by simp [kept]), union_cons, rest,
            empty item List.mem_cons_self kept key, Option.none_or]

/-- What is left of a piece once the keys in `removed` are taken out of it, in
parts that are apart. -/
structure CutTo (piece : α → κ → Option β) (removed : κ → Prop) (item : α)
    (parts : List α) : Prop where
  apart : parts.Pairwise (Apart piece)
  inside : ∀ key, removed key → union piece parts key = none
  outside : ∀ key, ¬ removed key → union piece parts key = piece item key

section Cuts

variable {removed : κ → Prop} {items : List α} {parts : List (List α)}

theorem CutTo.none_of_none
    {item part : α} {parts : List α} (cut : CutTo piece removed item parts)
    (member : part ∈ parts) {key : κ} (absent : piece item key = none) :
    piece part key = none := by
  have empty : union piece parts key = none := by
    by_cases inside : removed key
    · exact cut.inside key inside
    · rw [cut.outside key inside, absent]
  exact union_eq_none_iff.mp empty part member

theorem exists_of_mem_right
    {γ : Type} {Related : α → γ → Prop} {items : List α} {others : List γ}
    (related : List.Forall₂ Related items others) {other : γ}
    (member : other ∈ others) : ∃ item ∈ items, Related item other := by
  induction related with
  | nil => cases member
  | cons holds _ ih =>
      rcases List.mem_cons.mp member with rfl | member
      · exact ⟨_, List.mem_cons_self, holds⟩
      · obtain ⟨item, itemMember, holds⟩ := ih member
        exact ⟨item, List.mem_cons_of_mem _ itemMember, holds⟩

theorem CutTo.apart_flatten
    (cuts : List.Forall₂ (CutTo piece removed) items parts)
    (apart : items.Pairwise (Apart piece)) :
    parts.flatten.Pairwise (Apart piece) := by
  induction cuts with
  | nil => exact List.Pairwise.nil
  | cons cut cuts ih =>
      rw [List.pairwise_cons] at apart
      rw [List.flatten_cons, List.pairwise_append]
      refine ⟨cut.apart, ih apart.2, ?_⟩
      intro left leftMember right rightMember key
      obtain ⟨own, ownMember, inOwn⟩ := List.mem_flatten.mp rightMember
      obtain ⟨item, itemMember, rightCut⟩ := exists_of_mem_right cuts ownMember
      rcases apart.1 item itemMember key with none | none
      · exact Or.inl (cut.none_of_none leftMember none)
      · exact Or.inr (rightCut.none_of_none inOwn none)

theorem CutTo.union_inside
    (cuts : List.Forall₂ (CutTo piece removed) items parts) {key : κ}
    (inside : removed key) : union piece parts.flatten key = none := by
  induction cuts with
  | nil => rfl
  | cons cut _ ih =>
      rw [List.flatten_cons, union_append, cut.inside key inside, ih]
      rfl

theorem CutTo.union_outside
    (cuts : List.Forall₂ (CutTo piece removed) items parts) {key : κ}
    (outside : ¬ removed key) :
    union piece parts.flatten key = union piece items key := by
  induction cuts with
  | nil => rfl
  | cons cut _ ih =>
      rw [List.flatten_cons, union_append, union_cons, ih,
        cut.outside key outside]

end Cuts

end NativeClient.Library
