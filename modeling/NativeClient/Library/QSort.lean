import Mathlib.Data.List.Sort

/-!
# Sorting by a comparison function

What `qsort` promises: the result has the same items, and they are in order
if the comparison is an order of the items of the array.  Of a comparison that
is not, nothing is promised about the order.
-/

namespace NativeClient.Library

variable {α : Type}

structure OrdersItems (compare : α → α → Int) (items : List α) : Prop where
  swap : ∀ left ∈ items, ∀ right ∈ items,
    0 < compare left right ↔ compare right left < 0
  trans : ∀ first ∈ items, ∀ second ∈ items, ∀ third ∈ items,
    compare first second ≤ 0 → compare second third ≤ 0 →
      compare first third ≤ 0

structure QSort (α : Type) where
  sort : (α → α → Int) → List α → List α
  perm : ∀ compare items, (sort compare items).Perm items
  sorted : ∀ compare items, OrdersItems compare items →
    (sort compare items).Pairwise (fun left right => compare left right ≤ 0)

theorem QSort.sorted_by_key
    (qsort : QSort α) {compare : α → α → Int} {items : List α}
    (key : α → Nat)
    (agrees : ∀ left ∈ items, ∀ right ∈ items,
      compare left right = (key left : Int) - key right) :
    (qsort.sort compare items).Pairwise
      (fun left right => key left ≤ key right) := by
  have orders : OrdersItems compare items := by
    constructor
    · intro left leftMember right rightMember
      rw [agrees left leftMember right rightMember,
        agrees right rightMember left leftMember]
      omega
    · intro first firstMember second secondMember third thirdMember
      rw [agrees first firstMember second secondMember,
        agrees second secondMember third thirdMember,
        agrees first firstMember third thirdMember]
      omega
  refine (qsort.sorted compare items orders).imp_of_mem ?_
  intro left right leftMember rightMember ordered
  rw [(qsort.perm compare items).mem_iff] at leftMember rightMember
  rw [agrees left leftMember right rightMember] at ordered
  omega

def insertionQSort (α : Type) : QSort α where
  sort compare items :=
    (items.attach.insertionSort
      (fun left right : { item // item ∈ items } =>
        compare left right ≤ 0)).map Subtype.val
  perm compare items := by
    have sorted := List.perm_insertionSort
      (fun left right : { item // item ∈ items } => compare left right ≤ 0)
      items.attach
    have mapped := sorted.map Subtype.val
    rw [List.attach_map_subtype_val] at mapped
    exact mapped
  sorted compare items orders := by
    let before := fun left right : { item // item ∈ items } =>
      compare left right ≤ 0
    have total : Std.Total before := by
      constructor
      intro left right
      by_cases ordered : compare left right ≤ 0
      · exact Or.inl ordered
      · have swapped := (orders.swap left left.2 right right.2).mp (by omega)
        exact Or.inr (Int.le_of_lt swapped)
    have transitive : IsTrans { item // item ∈ items } before := by
      constructor
      intro first second third
      exact orders.trans first first.2 second second.2 third third.2
    have sorted := List.pairwise_insertionSort before items.attach
    exact List.pairwise_map.mpr sorted

end NativeClient.Library
