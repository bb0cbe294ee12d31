import Mathlib.Data.List.Basic
import Mathlib.Data.List.Induction
import Mathlib.Data.List.Perm.Basic

/-!
# Compaction of an array of pointers

The marked items of an array are dropped by moving the items at its end into
the gaps.  A null pointer that is read stops the machine, and so does an array
in which every item is marked.
-/

namespace NativeClient.Library

variable {α : Type}

def deref (slots : List (Option α)) (index : Nat) : Option α :=
  slots[index]?.join

variable (marked : α → Bool)

/-- Clear the marked items from the end of the array downwards.  The count is
of the slots not yet looked at. -/
def dropTail (slots : List (Option α)) : Nat → Option (List (Option α) × Nat)
  | 0 => some (slots, 0)
  | last + 1 => do
      let item ← deref slots last
      if marked item then
        dropTail (slots.set last none) last
      else
        some (slots, last)

/-- The same between a gap that has been filled and the slot `last`. -/
def dropAbove (filled : Nat) (slots : List (Option α)) :
    Nat → Option (List (Option α) × Nat)
  | 0 => none
  | last + 1 =>
      if filled < last then do
        let item ← deref slots last
        if marked item then
          dropAbove filled (slots.set last none) last
        else
          some (slots, last)
      else
        some (slots, last)

/-- Move the item at `last` into the next gap, until there is none below
`last`. -/
def fillGaps : Nat → Nat → List (Option α) → Nat →
    Option (List (Option α) × Nat)
  | 0, _, slots, last => some (slots, last)
  | fuel + 1, index, slots, last =>
      if index < last then do
        let item ← deref slots index
        if marked item then
          let moved := (slots.set index (slots[last]?.join)).set last none
          let (slots, last) ← dropAbove marked index moved last
          fillGaps fuel (index + 1) slots last
        else
          fillGaps fuel (index + 1) slots last
      else
        some (slots, last)

def compact (slots : List (Option α)) : Option (List (Option α)) := do
  let (cleared, last) ← dropTail marked slots slots.length
  let item ← deref cleared last
  if marked item then
    none
  else
    let (filled, last) ← fillGaps marked slots.length 0 cleared last
    some (filled.take (last + 1))

def EndsLive (slots : List (Option α)) : Prop :=
  slots = [] ∨ ∃ front item, slots = front ++ [some item] ∧ marked item = false

def EndsNull (slots : List (Option α)) : Prop :=
  ∃ front, slots = front ++ [none]

/-- `slots` is `front` and marked items after it. -/
structure MarkedAfter (front slots : List (Option α)) : Prop where
  split : ∃ tail : List α, slots = front ++ tail.map some ∧
    ∀ item ∈ tail, marked item = true

variable {marked}

@[simp]
theorem deref_append_at
    (front : List (Option α)) (slot : Option α) (rest : List (Option α)) :
    deref (front ++ slot :: rest) front.length = slot := by
  simp [deref]

private theorem set_append_at
    (front : List (Option α)) (slot fresh : Option α)
    (rest : List (Option α)) :
    (front ++ slot :: rest).set front.length fresh = front ++ fresh :: rest := by
  simp

theorem MarkedAfter.refl (slots : List (Option α)) :
    MarkedAfter marked slots slots :=
  ⟨[], by simp, by simp⟩

theorem MarkedAfter.snoc
    {front slots : List (Option α)} (after : MarkedAfter marked front slots)
    {item : α} (isMarked : marked item = true) :
    MarkedAfter marked front (slots ++ [some item]) := by
  obtain ⟨tail, same, all⟩ := after.split
  refine ⟨tail ++ [item], ?_, ?_⟩
  · simp [same]
  · intro other member
    rcases List.mem_append.mp member with member | member
    · exact all other member
    · rw [List.mem_singleton.mp member]
      exact isMarked

theorem MarkedAfter.length_le
    {front slots : List (Option α)} (after : MarkedAfter marked front slots) :
    front.length ≤ slots.length := by
  obtain ⟨tail, same, _⟩ := after.split
  rw [same, List.length_append]
  exact Nat.le_add_right _ _

theorem dropAbove_bounds
    {filled last stop : Nat} {slots after : List (Option α)}
    (run : dropAbove marked filled slots last = some (after, stop)) :
    stop < last ∧ after.length = slots.length := by
  induction last generalizing slots with
  | zero => cases run
  | succ last ih =>
      rw [dropAbove] at run
      split_ifs at run
      · obtain ⟨item, -, rest⟩ := Option.bind_eq_some_iff.mp run
        split_ifs at rest
        · obtain ⟨less, length⟩ := ih rest
          exact ⟨Nat.lt_succ_of_lt less, length.trans List.length_set⟩
        · cases rest
          exact ⟨Nat.lt_succ_self _, rfl⟩
      · cases run
        exact ⟨Nat.lt_succ_self _, rfl⟩

theorem dropTail_bounds
    {last stop : Nat} {slots after : List (Option α)}
    (run : dropTail marked slots last = some (after, stop)) :
    stop ≤ last - 1 ∧ after.length = slots.length := by
  induction last generalizing slots with
  | zero =>
      cases run
      exact ⟨Nat.le_refl 0, rfl⟩
  | succ last ih =>
      rw [dropTail] at run
      obtain ⟨item, -, rest⟩ := Option.bind_eq_some_iff.mp run
      split_ifs at rest
      · obtain ⟨less, length⟩ := ih rest
        exact ⟨by omega, length.trans List.length_set⟩
      · cases rest
        exact ⟨Nat.le_refl _, rfl⟩

theorem dropAbove_cases
    (marked : α → Bool) (filled : Nat) (pre mid junk : List (Option α))
    (gap : filled + 1 = pre.length) :
    ∃ left, MarkedAfter marked left mid ∧
      (EndsNull left ∧
          dropAbove marked filled (pre ++ mid ++ junk)
            (pre.length + mid.length) = none ∨
        EndsLive marked left ∧ ∃ after,
          dropAbove marked filled (pre ++ mid ++ junk)
            (pre.length + mid.length) =
              some (pre ++ left ++ after, filled + left.length)) := by
  induction mid using List.reverseRecOn generalizing junk with
  | nil =>
      refine ⟨[], MarkedAfter.refl [], Or.inr ⟨Or.inl rfl, junk, ?_⟩⟩
      rw [List.length_nil, Nat.add_zero, ← gap, dropAbove,
        if_neg (Nat.lt_irrefl filled)]
      rfl
  | append_singleton mid slot ih =>
      have place : pre.length + (mid ++ [slot]).length =
          (pre ++ mid).length + 1 := by
        simp
        omega
      have above : filled < (pre ++ mid).length := by
        simp
        omega
      have shape : pre ++ (mid ++ [slot]) ++ junk =
          (pre ++ mid) ++ slot :: junk := by
        simp
      rw [place, shape, dropAbove, if_pos above, deref_append_at]
      cases slot with
      | none =>
          exact ⟨mid ++ [none], MarkedAfter.refl _, Or.inl ⟨⟨mid, rfl⟩, rfl⟩⟩
      | some item =>
          rw [Option.bind_eq_bind, Option.bind_some]
          cases isMarked : marked item with
          | false =>
              refine ⟨mid ++ [some item], MarkedAfter.refl _,
                Or.inr ⟨Or.inr ⟨mid, item, rfl, isMarked⟩, junk, ?_⟩⟩
              rw [if_neg Bool.false_ne_true, ← shape]
              simp
              omega
          | true =>
              rw [if_pos rfl, set_append_at]
              obtain ⟨left, after, ended⟩ := ih (none :: junk)
              refine ⟨left, after.snoc isMarked, ?_⟩
              rw [List.length_append]
              exact ended

theorem dropTail_cases
    (marked : α → Bool) (mid junk : List (Option α)) :
    ∃ left, MarkedAfter marked left mid ∧
      (EndsNull left ∧ dropTail marked (mid ++ junk) mid.length = none ∨
        EndsLive marked left ∧
          dropTail marked (mid ++ junk) mid.length =
            some (left ++ List.replicate (mid.length - left.length) none ++
              junk, left.length - 1)) := by
  induction mid using List.reverseRecOn generalizing junk with
  | nil =>
      exact ⟨[], MarkedAfter.refl [], Or.inr ⟨Or.inl rfl, rfl⟩⟩
  | append_singleton mid slot ih =>
      have place : (mid ++ [slot]).length = mid.length + 1 := by
        simp
      have shape : mid ++ [slot] ++ junk = mid ++ slot :: junk := by
        simp
      rw [place, shape, dropTail, deref_append_at]
      cases slot with
      | none =>
          exact ⟨mid ++ [none], MarkedAfter.refl _, Or.inl ⟨⟨mid, rfl⟩, rfl⟩⟩
      | some item =>
          rw [Option.bind_eq_bind, Option.bind_some]
          cases isMarked : marked item with
          | false =>
              refine ⟨mid ++ [some item], MarkedAfter.refl _,
                Or.inr ⟨Or.inr ⟨mid, item, rfl, isMarked⟩, ?_⟩⟩
              rw [if_neg Bool.false_ne_true]
              simp
          | true =>
              rw [if_pos rfl, set_append_at]
              obtain ⟨left, after, ended⟩ := ih (none :: junk)
              refine ⟨left, after.snoc isMarked, ?_⟩
              have shorter := after.length_le
              rcases ended with ⟨null, stopped⟩ | ⟨live, done⟩
              · exact Or.inl ⟨null, stopped⟩
              · refine Or.inr ⟨live, ?_⟩
                rw [done, Nat.succ_sub shorter, List.replicate_succ']
                simp

theorem MarkedAfter.null_mem
    {front slots : List (Option α)} (after : MarkedAfter marked front slots)
    (null : none ∈ front) : none ∈ slots := by
  obtain ⟨tail, same, _⟩ := after.split
  rw [same]
  exact List.mem_append_left _ null

theorem EndsNull.null_mem {slots : List (Option α)} (null : EndsNull slots) :
    none ∈ slots := by
  obtain ⟨front, rfl⟩ := null
  simp

/-- The items of `slots` that are not marked, in some order, with no null slot
among them. -/
structure Kept (marked : α → Bool) (slots : List (Option α)) (kept : List α) :
    Prop where
  items : ∃ items : List α, slots = items.map some ∧
    kept.Perm (items.filter (fun item => !marked item))

namespace Kept

theorem nil : Kept marked [] [] :=
  ⟨[], rfl, List.Perm.refl _⟩

theorem cons_live
    {slots : List (Option α)} {kept : List α} (keeps : Kept marked slots kept)
    {item : α} (live : marked item = false) :
    Kept marked (some item :: slots) (item :: kept) := by
  obtain ⟨items, rfl, perm⟩ := keeps.items
  refine ⟨item :: items, rfl, ?_⟩
  rw [List.filter_cons_of_pos (by simp [live])]
  exact perm.cons item

theorem append_marked
    {front slots : List (Option α)} {kept : List α}
    (keeps : Kept marked front kept)
    (after : MarkedAfter marked front slots) : Kept marked slots kept := by
  obtain ⟨items, rfl, perm⟩ := keeps.items
  obtain ⟨tail, same, all⟩ := after.split
  refine ⟨items ++ tail, by rw [same, List.map_append], ?_⟩
  have dropped : tail.filter (fun item => !marked item) = [] := by
    rw [List.filter_eq_nil_iff]
    intro item member
    simp [all item member]
  rw [List.filter_append, dropped, List.append_nil]
  exact perm

theorem fill
    {slots : List (Option α)} {kept : List α} (keeps : Kept marked slots kept)
    {gap last : α} (isMarked : marked gap = true)
    (live : marked last = false) :
    Kept marked (some gap :: (slots ++ [some last])) (last :: kept) := by
  obtain ⟨items, rfl, perm⟩ := keeps.items
  refine ⟨gap :: (items ++ [last]), by simp, ?_⟩
  rw [List.filter_cons_of_neg (by simp [isMarked]), List.filter_append,
    List.filter_cons_of_pos (by simp [live]), List.filter_nil]
  exact (perm.cons last).trans (List.perm_append_singleton _ _).symm

end Kept

theorem EndsLive.tail
    {slot next : Option α} {rest : List (Option α)}
    (ends : EndsLive marked (slot :: next :: rest)) :
    EndsLive marked (next :: rest) := by
  rcases ends with empty | ⟨front, item, same, live⟩
  · cases empty
  · cases front with
    | nil => simp at same
    | cons first front =>
        exact Or.inr ⟨front, item, (List.cons.inj same).2, live⟩

private theorem moved_eq
    (pre front junk : List (Option α)) (gap live : α) {last : Nat}
    (place : last = pre.length + 1 + front.length) :
    ((pre ++ some gap :: (front ++ [some live] ++ junk)).set pre.length
        ((pre ++ some gap :: (front ++ [some live] ++ junk))[last]?.join)).set
          last none =
      pre ++ [some live] ++ front ++ none :: junk := by
  have read : (pre ++ some gap :: (front ++ [some live] ++ junk))[last]?.join =
      some live := by
    have shape : pre ++ some gap :: (front ++ [some live] ++ junk) =
        (pre ++ some gap :: front) ++ some live :: junk := by
      simp
    have length : last = (pre ++ some gap :: front).length := by
      simp
      omega
    rw [shape, length]
    exact deref_append_at _ _ _
  have shape : pre ++ some live :: (front ++ [some live] ++ junk) =
      (pre ++ [some live] ++ front) ++ some live :: junk := by
    simp
  have length : last = (pre ++ [some live] ++ front).length := by
    simp
    omega
  rw [read, set_append_at, shape, length, set_append_at]

theorem fillGaps_cases
    (fuel : Nat) (pre mid junk : List (Option α)) (last : Nat)
    (enough : mid.length ≤ fuel) (ends : EndsLive marked mid)
    (place : last + 1 = pre.length + mid.length) :
    none ∈ mid ∧
        fillGaps marked fuel pre.length (pre ++ mid ++ junk) last = none ∨
      ∃ kept after, Kept marked mid kept ∧
        fillGaps marked fuel pre.length (pre ++ mid ++ junk) last =
          some (pre ++ kept.map some ++ after, pre.length + kept.length - 1) := by
  induction fuel generalizing pre mid junk last with
  | zero =>
      obtain rfl : mid = [] := List.eq_nil_of_length_eq_zero (by omega)
      refine Or.inr ⟨[], junk, Kept.nil, ?_⟩
      rw [List.length_nil] at place
      simp [fillGaps]
      omega
  | succ fuel ih =>
      rw [fillGaps]
      match mid with
      | [] =>
          rw [List.length_nil] at place
          refine Or.inr ⟨[], junk, Kept.nil, ?_⟩
          rw [if_neg (by omega)]
          simp
          omega
      | [slot] =>
          rw [List.length_singleton] at place
          rcases ends with empty | ⟨front, item, same, live⟩
          · cases empty
          · obtain ⟨rfl, rfl⟩ : front = [] ∧ slot = some item := by
              cases front with
              | nil => simpa using same
              | cons first front => simp at same
            refine Or.inr ⟨[item], junk, Kept.nil.cons_live live, ?_⟩
            rw [if_neg (by omega)]
            simp
            omega
      | slot :: next :: rest =>
          have placed : last + 1 = pre.length + (rest.length + 2) := place
          have shape : pre ++ slot :: next :: rest ++ junk =
              pre ++ slot :: (next :: rest ++ junk) := by
            simp
          rw [if_pos (by omega), shape, deref_append_at]
          cases slot with
          | none => exact Or.inl ⟨List.mem_cons_self, rfl⟩
          | some item =>
              rw [Option.bind_eq_bind, Option.bind_some]
              cases isMarked : marked item with
              | false =>
                  rw [if_neg Bool.false_ne_true]
                  have stepped := ih (pre ++ [some item]) (next :: rest) junk
                    last (by simpa using enough) ends.tail (by
                      simp
                      omega)
                  rw [List.length_append, List.length_singleton,
                    List.append_assoc, List.append_assoc,
                    List.singleton_append] at stepped
                  rcases stepped with ⟨null, stopped⟩ | ⟨kept, after, keeps, done⟩
                  · exact Or.inl ⟨List.mem_cons_of_mem _ null, stopped⟩
                  · refine Or.inr ⟨item :: kept, after,
                      keeps.cons_live isMarked, ?_⟩
                    rw [done]
                    simp [Nat.add_comm, Nat.add_left_comm]
              | true =>
                  obtain ⟨front, live, same, liveLast⟩ := ends.tail.resolve_left
                    (List.cons_ne_nil next rest)
                  have length : front.length = rest.length := by
                    have lengths := congrArg List.length same
                    simp at lengths
                    omega
                  rw [if_pos rfl, same]
                  dsimp only
                  rw [moved_eq pre front junk item live (by omega)]
                  obtain ⟨left, after, ended⟩ := dropAbove_cases marked
                    pre.length (pre ++ [some live]) front (none :: junk) (by simp)
                  have lastPlace :
                      last = (pre ++ [some live]).length + front.length := by
                    simp
                    omega
                  rw [lastPlace]
                  rcases ended with ⟨null, stopped⟩ | ⟨leftLive, junk, dropped⟩
                  · rw [stopped]
                    refine Or.inl ⟨List.mem_cons_of_mem _ ?_, rfl⟩
                    exact List.mem_append_left _ (after.null_mem null.null_mem)
                  · rw [dropped]
                    simp only [Option.bind_eq_bind, Option.bind_some]
                    have shorter := after.length_le
                    have stepped := ih (pre ++ [some live]) left junk
                      (pre.length + left.length) (by
                        simp at enough
                        omega) leftLive (by
                          simp
                          omega)
                    rw [List.length_append, List.length_singleton] at stepped
                    rcases stepped with ⟨null, stopped⟩ |
                      ⟨kept, after', keeps, done⟩
                    · refine Or.inl ⟨List.mem_cons_of_mem _ ?_, stopped⟩
                      exact List.mem_append_left _ (after.null_mem null)
                    · refine Or.inr ⟨live :: kept, after',
                        (keeps.append_marked after).fill isMarked liveLast, ?_⟩
                      rw [done]
                      simp [Nat.add_comm, Nat.add_left_comm]

theorem compact_cases
    (marked : α → Bool) {slots : List (Option α)} (nonempty : slots ≠ []) :
    compact marked slots = none ∧
        (none ∈ slots ∨ ∀ item, some item ∈ slots → marked item = true) ∨
      ∃ kept, kept ≠ [] ∧ Kept marked slots kept ∧
        compact marked slots = some (kept.map some) := by
  obtain ⟨left, after, ended⟩ := dropTail_cases marked slots []
  rw [List.append_nil] at ended
  rw [compact]
  rcases ended with ⟨null, stopped⟩ | ⟨ends, dropped⟩
  · rw [stopped]
    exact Or.inl ⟨rfl, Or.inl (after.null_mem null.null_mem)⟩
  · rw [dropped, Option.bind_eq_bind, Option.bind_some]
    dsimp only
    rcases ends with rfl | ⟨front, item, rfl, live⟩
    · refine Or.inl ⟨?_, Or.inr ?_⟩
      · have positive : slots.length ≠ 0 := by
          simpa using nonempty
        obtain ⟨count, isSucc⟩ := Nat.exists_eq_succ_of_ne_zero positive
        rw [List.length_nil, Nat.sub_zero, isSucc, List.replicate_succ]
        rfl
      · obtain ⟨tail, rfl, all⟩ := after.split
        intro item member
        exact all item (by simpa using member)
    · have read : ∀ junk, deref (front ++ [some item] ++ junk)
          ((front ++ [some item]).length - 1) = some item := by
        intro junk
        simp [deref]
      rw [List.append_nil, read]
      simp only [Option.bind_eq_bind, Option.bind_some]
      rw [if_neg (by simp [live])]
      rcases fillGaps_cases slots.length [] (front ++ [some item])
          (List.replicate (slots.length - (front ++ [some item]).length) none)
          ((front ++ [some item]).length - 1) after.length_le
          (Or.inr ⟨front, item, rfl, live⟩) (by simp) with
        ⟨null, stopped⟩ | ⟨kept, junk, keeps, done⟩
      · rw [List.nil_append, List.length_nil] at stopped
        rw [stopped]
        exact Or.inl ⟨rfl, Or.inl (after.null_mem null)⟩
      · have some_kept : kept ≠ [] := by
          obtain ⟨items, same, perm⟩ := keeps.items
          have member : item ∈ items := by
            have inMap : some item ∈ items.map some := by
              rw [← same]
              simp
            simpa using inMap
          apply List.ne_nil_of_mem
          rw [perm.mem_iff]
          exact List.mem_filter.mpr ⟨member, by simp [live]⟩
        refine Or.inr ⟨kept, some_kept, keeps.append_marked after, ?_⟩
        rw [List.nil_append, List.length_nil] at done
        rw [done, Option.bind_some]
        have positive : 0 < kept.length := List.length_pos_of_ne_nil some_kept
        simp only [List.nil_append, Nat.zero_add]
        rw [Nat.sub_add_cancel positive, List.take_left' (by simp)]

end NativeClient.Library
