import NativeClient.Srpc.Fragments

/-!
# Empty entries

`BuildFragmentHeader` loses the end of a fragment if some entry is empty while
the last one gets bytes.  Whether that ever happens can be read off the
lengths of the entries: the empty entry must not lie in the fragment in which
the last entry begins.
-/

namespace NativeClient.Srpc

def EmptyAt : List Nat → Nat → Prop
  | [], _ => False
  | length :: lengths, offset =>
      (length = 0 ∧ offset = 0) ∨
        (length ≤ offset ∧ EmptyAt lengths (offset - length))

theorem EmptyAt.le_sum
    {lengths : List Nat} {offset : Nat} (empty : EmptyAt lengths offset) :
    offset ≤ lengths.sum := by
  induction lengths generalizing offset with
  | nil => exact empty.elim
  | cons length lengths ih =>
      rw [List.sum_cons]
      rcases empty with ⟨-, here⟩ | ⟨behind, later⟩
      · omega
      · have bound := ih later
        omega

theorem EmptyAt.mem
    {lengths : List Nat} {offset : Nat} (empty : EmptyAt lengths offset) :
    0 ∈ lengths := by
  induction lengths generalizing offset with
  | nil => exact empty.elim
  | cons length lengths ih =>
      rcases empty with ⟨rfl, -⟩ | ⟨-, later⟩
      · exact List.mem_cons_self
      · exact List.mem_cons_of_mem _ (ih later)

theorem exists_emptyAt
    {lengths : List Nat} (member : 0 ∈ lengths) :
    ∃ offset, EmptyAt lengths offset := by
  induction lengths with
  | nil => exact absurd member List.not_mem_nil
  | cons length lengths ih =>
      rcases List.mem_cons.mp member with rfl | later
      · exact ⟨0, .inl ⟨rfl, rfl⟩⟩
      · obtain ⟨offset, empty⟩ := ih later
        refine ⟨offset + length, .inr ⟨Nat.le_add_left _ _, ?_⟩⟩
        rw [Nat.add_sub_cancel]
        exact empty

def FragmentsFilled (lengths : List Nat) : Prop :=
  ∀ front last, lengths = front ++ [last] →
    0 < last ∧ ∀ offset, EmptyAt front offset →
      offset / maxImcSendmsgSize ≠ front.sum / maxImcSendmsgSize

theorem fragmentsFilled_nil : FragmentsFilled [] := by
  intro front last split
  simp at split

theorem fragmentsFilled_concat (front : List Nat) (last : Nat) :
    FragmentsFilled (front ++ [last]) ↔
      0 < last ∧ ∀ offset, EmptyAt front offset →
        offset / maxImcSendmsgSize ≠ front.sum / maxImcSendmsgSize := by
  constructor
  · intro filled
    exact filled front last rfl
  · intro holds other otherLast split
    obtain ⟨rfl, same⟩ := List.append_inj' split rfl
    cases same
    exact holds

abbrev lengths (entries : List IoVec) : List Nat := entries.map IoVec.length

theorem sum_lengths (entries : List IoVec) :
    (lengths entries).sum = totalLength entries := rfl

theorem fragmentsFilled_entries (front : List IoVec) (last : IoVec) :
    FragmentsFilled (lengths (front ++ [last])) ↔
      0 < last.length ∧ ∀ offset, EmptyAt (lengths front) offset →
        offset / maxImcSendmsgSize ≠
          totalLength front / maxImcSendmsgSize := by
  rw [lengths, List.map_append, List.map_singleton, fragmentsFilled_concat,
    sum_lengths]

theorem emptyAt_consumed (entries : List IoVec) (byteCount offset : Nat) :
    EmptyAt (lengths (consumedEntries entries byteCount).1) offset ↔
      EmptyAt (lengths entries) (offset + byteCount) := by
  induction entries generalizing byteCount with
  | nil => rfl
  | cons entry entries ih =>
      rw [consumedEntries]
      split
      next none => rw [none, Nat.add_zero]
      next some =>
          split
          next within =>
            simp only [lengths, List.map_cons, EmptyAt, IoVec.advance]
            have same : offset - (entry.length - byteCount) =
                offset + byteCount - entry.length := by omega
            rw [same]
            constructor
            · rintro (⟨none, -⟩ | ⟨behind, later⟩)
              · omega
              · exact .inr ⟨by omega, later⟩
            · rintro (⟨none, -⟩ | ⟨behind, later⟩)
              · omega
              · exact .inr ⟨by omega, later⟩
          next beyond =>
            have same : offset + (byteCount - entry.length) =
                offset + byteCount - entry.length := by omega
            rw [ih, same]
            simp only [lengths, List.map_cons, EmptyAt]
            constructor
            · intro later
              exact .inr ⟨by omega, later⟩
            · rintro (⟨-, none⟩ | ⟨-, later⟩)
              · omega
              · exact later

theorem consumedEntries_append
    {front back : List IoVec} {byteCount : Nat}
    (within : byteCount ≤ totalLength front) :
    (consumedEntries (front ++ back) byteCount).1 =
      (consumedEntries front byteCount).1 ++ back := by
  induction front generalizing byteCount with
  | nil =>
      obtain rfl : byteCount = 0 := Nat.le_zero.mp within
      rw [List.nil_append, consumedEntries_zero]
      rfl
  | cons entry front ih =>
      rw [totalLength_cons] at within
      rw [List.cons_append, consumedEntries, consumedEntries]
      split
      next => rfl
      next =>
          split
          next => rfl
          next => exact ih (by omega)

theorem consumedEntries_beyond
    {front back : List IoVec} {byteCount : Nat}
    (beyond : totalLength front < byteCount) :
    consumedEntries (front ++ back) byteCount =
      consumedEntries back (byteCount - totalLength front) := by
  induction front generalizing byteCount with
  | nil => rfl
  | cons entry front ih =>
      rw [totalLength_cons] at beyond ⊢
      rw [List.cons_append, consumedEntries, if_neg (by omega),
        if_neg (by omega), ih (by omega), Nat.sub_sub]

def nextCount (entries : List IoVec) : Nat :=
  min (totalLength entries) maxImcSendmsgSize

def NextComplete (entries : List IoVec) : Prop :=
  ∀ front last, entries = front ++ [last] →
    totalLength front < nextCount entries →
    ∀ entry ∈ front, 0 < entry.length

private theorem nextCount_concat
    {front : List IoVec} {last : IoVec} :
    totalLength front < nextCount (front ++ [last]) ↔
      totalLength front < maxImcSendmsgSize ∧ 0 < last.length := by
  unfold nextCount
  rw [totalLength_append, totalLength_cons, totalLength_nil]
  omega

theorem FragmentsFilled.nextComplete
    {entries : List IoVec} (filled : FragmentsFilled (lengths entries)) :
    NextComplete entries := by
  rintro front last rfl reached entry member
  obtain ⟨near, -⟩ := nextCount_concat.mp reached
  rw [fragmentsFilled_entries] at filled
  refine Nat.pos_of_ne_zero fun none => ?_
  obtain ⟨offset, empty⟩ :=
    exists_emptyAt (List.mem_map.mpr ⟨entry, member, none⟩)
  have below := empty.le_sum
  rw [sum_lengths] at below
  apply filled.2 offset empty
  rw [Nat.div_eq_of_lt (Nat.lt_of_le_of_lt below near),
    Nat.div_eq_of_lt near]

private theorem fragmentsFilled_singleton
    {last : IoVec} (some : 0 < last.length) :
    FragmentsFilled (lengths [last]) := by
  rw [← List.nil_append [last], fragmentsFilled_entries]
  exact ⟨some, fun _ empty => empty.elim⟩

theorem fragmentsFilled_consumed
    {entries : List IoVec} (complete : NextComplete entries) :
    FragmentsFilled
        (lengths (consumedEntries entries (nextCount entries)).1) ↔
      FragmentsFilled (lengths entries) := by
  rcases List.eq_nil_or_concat entries with rfl | ⟨front, last, rfl⟩
  · rfl
  rw [List.concat_eq_append] at complete ⊢
  by_cases reached : totalLength front < nextCount (front ++ [last])
  · -- All entries before the last are consumed, and none of them was empty.
    have filled := complete front last rfl reached
    obtain ⟨-, some⟩ := nextCount_concat.mp reached
    have before : FragmentsFilled (lengths (front ++ [last])) := by
      rw [fragmentsFilled_entries]
      refine ⟨some, ?_⟩
      intro offset empty
      obtain ⟨entry, member, none⟩ := List.mem_map.mp empty.mem
      exact absurd none (Nat.ne_of_gt (filled entry member))
    refine iff_of_true ?_ before
    rw [consumedEntries_beyond reached, consumedEntries]
    split
    next => exact fragmentsFilled_singleton some
    next =>
        split
        next within =>
          apply fragmentsFilled_singleton
          simp only [IoVec.advance]
          omega
        next => exact fragmentsFilled_nil
  · have within : nextCount (front ++ [last]) ≤ totalLength front :=
      Nat.le_of_not_lt reached
    rw [consumedEntries_append within, fragmentsFilled_entries,
      fragmentsFilled_entries]
    refine and_congr_right fun some => ?_
    -- The fragment is full, so all offsets are in the fragment before.
    have far : maxImcSendmsgSize ≤ totalLength front := by
      have short := mt nextCount_concat.mpr reached
      omega
    have full : nextCount (front ++ [last]) = maxImcSendmsgSize := by
      unfold nextCount
      rw [totalLength_append]
      omega
    rw [full, totalLength_consumed]
    have positive : 0 < maxImcSendmsgSize := by decide
    have shifted : ∀ offset,
        (offset + maxImcSendmsgSize) / maxImcSendmsgSize =
          offset / maxImcSendmsgSize + 1 :=
      fun offset => Nat.add_div_right offset positive
    have beforeLast := shifted (totalLength front - maxImcSendmsgSize)
    rw [Nat.sub_add_cancel far] at beforeLast
    constructor
    · intro later offset empty
      by_cases near : offset < maxImcSendmsgSize
      · rw [Nat.div_eq_of_lt near, beforeLast]
        exact (Nat.succ_ne_zero _).symm
      · have behind : offset - maxImcSendmsgSize + maxImcSendmsgSize = offset :=
          Nat.sub_add_cancel (Nat.le_of_not_lt near)
        have differs := later (offset - maxImcSendmsgSize)
          ((emptyAt_consumed _ _ _).mpr (behind.symm ▸ empty))
        rw [← behind, shifted]
        omega
    · intro earlier offset empty
      have differs := earlier _ ((emptyAt_consumed _ _ _).mp empty)
      rw [shifted] at differs
      omega

end NativeClient.Srpc
