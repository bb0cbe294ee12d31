import Mathlib.Data.List.Nodup
import Mathlib.Logic.Function.Basic

/-!
# Circular lists with two links

A circle is a head and its elements, each linked to the next one and to the one
before.  A segment is the way from one node to another; a circle is a segment
from its head back to the head.
-/

namespace NativeClient.Library

variable {ν : Type}

structure Links (ν : Type) where
  next : ν → ν
  prev : ν → ν

def Segment (links : Links ν) : ν → List ν → ν → Prop
  | first, [], last => links.next first = last ∧ links.prev last = first
  | first, node :: nodes, last =>
      (links.next first = node ∧ links.prev node = first) ∧
        Segment links node nodes last

def Circle (links : Links ν) (head : ν) (nodes : List ν) : Prop :=
  Segment links head nodes head ∧ (head :: nodes).Nodup

section Segments

variable {links after : Links ν} {first last node : ν} {nodes more : List ν}

theorem segment_append :
    Segment links first (nodes ++ node :: more) last ↔
      Segment links first nodes node ∧ Segment links node more last := by
  induction nodes generalizing first with
  | nil => exact Iff.rfl
  | cons next nodes ih =>
      simp only [List.cons_append, Segment, ih, and_assoc]

variable (segment : Segment links first nodes last)

include segment

theorem Segment.congr
    (sameNext : ∀ node ∈ first :: nodes, after.next node = links.next node)
    (samePrev : ∀ node ∈ nodes ++ [last], after.prev node = links.prev node) :
    Segment after first nodes last := by
  induction nodes generalizing first with
  | nil =>
      exact ⟨(sameNext first (by simp)).trans segment.1,
        (samePrev last (by simp)).trans segment.2⟩
  | cons node nodes ih =>
      obtain ⟨⟨next, prev⟩, rest⟩ := segment
      refine ⟨⟨(sameNext first (by simp)).trans next,
        (samePrev node (by simp)).trans prev⟩, ih rest ?_ ?_⟩
      · intro other member
        exact sameNext other (List.mem_cons_of_mem _ member)
      · intro other member
        exact samePrev other (List.mem_cons_of_mem _ member)

theorem Segment.prev_mem :
    links.prev last ∈ first :: nodes := by
  induction nodes generalizing first with
  | nil =>
      rw [segment.2]
      exact List.mem_singleton_self first
  | cons node nodes ih => exact List.mem_cons_of_mem _ (ih segment.2)

theorem Segment.next_mem :
    links.next first ∈ last :: nodes := by
  cases nodes with
  | nil =>
      rw [segment.1]
      exact List.mem_singleton_self last
  | cons node nodes =>
      rw [segment.1.1]
      simp

theorem Segment.redirect
    (nodup : (first :: nodes).Nodup)
    {target : ν}
    (turned : after.next (links.prev last) = target)
    (back : after.prev target = links.prev last)
    (keepNext : ∀ node ∈ first :: nodes, node ≠ links.prev last →
      after.next node = links.next node)
    (keepPrev : ∀ node ∈ nodes, after.prev node = links.prev node) :
    Segment after first nodes target := by
  induction nodes generalizing first with
  | nil =>
      rw [segment.2] at turned back
      exact ⟨turned, back⟩
  | cons node nodes ih =>
      obtain ⟨⟨next, prev⟩, rest⟩ := segment
      obtain ⟨outside, tail⟩ := List.nodup_cons.mp nodup
      have inner : first ≠ links.prev last := by
        intro same
        exact outside (same ▸ rest.prev_mem)
      refine ⟨⟨(keepNext first (by simp) inner).trans next,
        (keepPrev node (by simp)).trans prev⟩, ih rest tail ?_ ?_⟩
      · intro other member
        exact keepNext other (List.mem_cons_of_mem _ member)
      · intro other member
        exact keepPrev other (List.mem_cons_of_mem _ member)

theorem Segment.unique
    (other : Segment links first more last)
    (avoids : last ∉ nodes) (otherAvoids : last ∉ more) : nodes = more := by
  induction nodes generalizing first more with
  | nil =>
      cases more with
      | nil => rfl
      | cons node more =>
          have same : node = last := other.1.1.symm.trans segment.1
          exact absurd (by simp [same]) otherAvoids
  | cons node nodes ih =>
      cases more with
      | nil =>
          have same : node = last := segment.1.1.symm.trans other.1
          exact absurd (by simp [same]) avoids
      | cons found more =>
          have same : node = found := segment.1.1.symm.trans other.1.1
          subst same
          rw [ih segment.2 other.2 (fun member => avoids (by simp [member]))
            (fun member => otherAvoids (by simp [member]))]

end Segments

section Rings

variable {links after : Links ν} {head : ν} {nodes more : List ν}

theorem Circle.unique
    (circle : Circle links head nodes) (other : Circle links head more) :
    nodes = more :=
  circle.1.unique other.1 (List.nodup_cons.mp circle.2).1
    (List.nodup_cons.mp other.2).1

theorem Circle.congr
    (circle : Circle links head nodes)
    (same : ∀ node ∈ head :: nodes, after.next node = links.next node ∧
      after.prev node = links.prev node) :
    Circle after head nodes := by
  refine ⟨circle.1.congr (fun node member => (same node member).1) ?_, circle.2⟩
  intro node member
  refine (same node ?_).2
  simp only [List.mem_append, List.mem_singleton] at member
  simpa [or_comm] using member

theorem Circle.next_eq_head_iff (circle : Circle links head nodes) :
    links.next head = head ↔ nodes = [] := by
  cases nodes with
  | nil => exact iff_of_true circle.1.1 rfl
  | cons node nodes =>
      refine iff_of_false ?_ (List.cons_ne_nil _ _)
      intro same
      have outside := (List.nodup_cons.mp circle.2).1
      exact outside (by simp [← circle.1.1.1, same])

theorem Circle.next_head
    {node : ν} (circle : Circle links head (node :: nodes)) :
    links.next head = node :=
  circle.1.1.1

theorem Circle.prev_head
    {node : ν} (circle : Circle links head (nodes ++ [node])) :
    links.prev head = node :=
  (segment_append.mp circle.1).2.2

end Rings

end NativeClient.Library
