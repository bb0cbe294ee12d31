import Mathlib.Data.List.Basic

/-!
# Gaps between ranges

A range that lies between ranges of a list, and apart from all of them, lies
between two neighbours if the list is in order.  So a search through the
neighbours misses no gap.
-/

namespace NativeClient.Library

variable {α : Type} (starts ends : α → Nat)

/-- The range of `count` from `first` on lies between items, and apart from all
of them. -/
structure Between (items : List α) (first count : Nat) : Prop where
  behind : ∃ item ∈ items, ends item ≤ first
  before : ∃ item ∈ items, first + count ≤ starts item
  apart : ∀ item ∈ items, ends item ≤ first ∨ first + count ≤ starts item

structure InOrder (items : List α) : Prop where
  proper : ∀ item ∈ items, starts item < ends item
  ordered : items.Pairwise
    (fun left right => starts left ≤ starts right ∧ ends left ≤ ends right)

def FitsAt (items : List α) (index first count : Nat) : Prop :=
  ∃ left right, items[index]? = some left ∧ items[index + 1]? = some right ∧
    ends left ≤ first ∧ first + count ≤ starts right

variable {starts ends} {items others : List α} {first count : Nat}

theorem Between.of_mem_iff
    (between : Between starts ends items first count)
    (same : ∀ item, item ∈ items ↔ item ∈ others) :
    Between starts ends others first count := by
  constructor
  · obtain ⟨item, member, ended⟩ := between.behind
    exact ⟨item, (same item).mp member, ended⟩
  · obtain ⟨item, member, started⟩ := between.before
    exact ⟨item, (same item).mp member, started⟩
  · intro item member
    exact between.apart item ((same item).mpr member)

theorem between_of_fitsAt
    (inOrder : InOrder starts ends items) {index : Nat}
    (fits : FitsAt starts ends items index first count) :
    Between starts ends items first count := by
  obtain ⟨left, right, leftAt, rightAt, above, below⟩ := fits
  obtain ⟨leftInside, rfl⟩ := List.getElem?_eq_some_iff.mp leftAt
  obtain ⟨rightInside, rfl⟩ := List.getElem?_eq_some_iff.mp rightAt
  have ordered := List.pairwise_iff_getElem.mp inOrder.ordered
  refine ⟨⟨_, List.getElem_mem leftInside, above⟩,
    ⟨_, List.getElem_mem rightInside, below⟩, ?_⟩
  intro item member
  obtain ⟨place, inside, rfl⟩ := List.mem_iff_getElem.mp member
  rcases Nat.lt_trichotomy place index with less | rfl | more
  · have up := (ordered place index inside leftInside less).2
    exact .inl (Nat.le_trans up above)
  · exact .inl above
  · rcases Nat.eq_or_lt_of_le more with rfl | later
    · exact .inr below
    · have up := (ordered (index + 1) place rightInside inside later).1
      exact .inr (Nat.le_trans below up)

theorem fitsAt_cons
    {item : α} {index : Nat}
    (fits : FitsAt starts ends items index first count) :
    FitsAt starts ends (item :: items) (index + 1) first count := fits

theorem fitsAt_of_between
    (inOrder : InOrder starts ends items)
    (between : Between starts ends items first count) :
    ∃ index, FitsAt starts ends items index first count := by
  induction items with
  | nil =>
      obtain ⟨item, member, -⟩ := between.behind
      cases member
  | cons head rest ih =>
      obtain ⟨item, member, ended⟩ := between.behind
      obtain ⟨other, otherMember, started⟩ := between.before
      have headProper := inOrder.proper head List.mem_cons_self
      have otherProper := inOrder.proper other otherMember
      obtain ⟨fromHead, ordered⟩ := List.pairwise_cons.mp inOrder.ordered
      cases rest with
      | nil =>
          rw [List.mem_singleton.mp member] at ended
          rw [List.mem_singleton.mp otherMember] at started
          omega
      | cons next rest =>
          have nextMember : next ∈ next :: rest := List.mem_cons_self
          have nextProper := inOrder.proper next
            (List.mem_cons_of_mem head nextMember)
          have upper := fromHead next nextMember
          rcases between.apart next (List.mem_cons_of_mem head nextMember) with
            passed | ahead
          · have restOrder : InOrder starts ends (next :: rest) :=
              ⟨fun item member =>
                inOrder.proper item (List.mem_cons_of_mem head member), ordered⟩
            have restBetween : Between starts ends (next :: rest) first
                count := by
              refine ⟨⟨next, nextMember, passed⟩, ⟨other, ?_, started⟩, ?_⟩
              · rcases List.mem_cons.mp otherMember with rfl | later
                · omega
                · exact later
              · intro item member
                exact between.apart item (List.mem_cons_of_mem head member)
            obtain ⟨index, fits⟩ := ih restOrder restBetween
            exact ⟨index + 1, fitsAt_cons fits⟩
          · refine ⟨0, head, next, rfl, rfl, ?_, ahead⟩
            rcases List.mem_cons.mp member with rfl | later
            · exact ended
            · -- An item from `next` on does not end below the range.
              have above : ends next ≤ ends item := by
                rcases List.mem_cons.mp later with rfl | later
                · exact Nat.le_refl _
                · exact ((List.pairwise_cons.mp ordered).1 item later).2
              omega

theorem between_iff_fitsAt (inOrder : InOrder starts ends items) :
    Between starts ends items first count ↔
      ∃ index, FitsAt starts ends items index first count :=
  ⟨fitsAt_of_between inOrder, fun ⟨_, fits⟩ => between_of_fitsAt inOrder fits⟩

end NativeClient.Library
