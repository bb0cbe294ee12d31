import NativeClient.Srpc.MessageChannel

/-!
# Fragments as lists of places

The copied vector and the index into it stand for the entries that are left.
Consuming a fragment drops its places, and building one takes them, unless an
entry without bytes comes before the last one: then the vector of the datagram
ends too early.
-/

namespace NativeClient.Srpc

open NativeClient.Library

structure Stands (vector : List IoVec) (header : MessageHeader)
    (entries : List IoVec) : Prop where
  split : ∃ front, vector = front ++ entries ∧ front.length = header.iov
  length : header.iovLength = entries.length

section Views

variable {vector entries : List IoVec} {header : MessageHeader}

theorem Stands.view_eq (stands : Stands vector header entries) :
    view vector header = entries := by
  obtain ⟨front, rfl, starts⟩ := stands.split
  unfold view
  rw [← starts, List.drop_left, stands.length, List.take_length]

theorem Stands.addFragmentLength
    (stands : Stands vector header entries) (behind : 0 < header.iov) :
    Stands (addFragmentLength vector header).1 (addFragmentLength vector header).2
      (lengthEntry .fragmentSize :: entries) := by
  obtain ⟨front, rfl, starts⟩ := stands.split
  have nonempty : front ≠ [] := by
    rintro rfl
    rw [← starts] at behind
    exact absurd behind (by decide)
  obtain ⟨before, slot, rfl⟩ :=
    (List.eq_nil_or_concat front).resolve_left nonempty
  rw [List.concat_eq_append, List.length_append, List.length_singleton]
    at starts
  have place : header.iov - 1 = before.length := by omega
  refine ⟨⟨before, ?_, place.symm⟩, ?_⟩
  · unfold Srpc.addFragmentLength
    simp only [place, List.concat_eq_append, List.append_assoc,
      List.singleton_append]
    rw [List.set_append_right _ _ (Nat.le_refl _), Nat.sub_self,
      List.set_cons_zero]
  · unfold Srpc.addFragmentLength
    rw [List.length_cons, stands.length]

end Views

def consumedEntries : List IoVec → Nat → List IoVec × Nat
  | [], byteCount => ([], byteCount)
  | entry :: entries, byteCount =>
      if byteCount = 0 then (entry :: entries, 0)
      else if byteCount < entry.length then (entry.advance byteCount :: entries, 0)
      else consumedEntries entries (byteCount - entry.length)

theorem consumedEntries_zero (entries : List IoVec) :
    consumedEntries entries 0 = (entries, 0) := by
  cases entries with
  | nil => rfl
  | cons entry entries => rw [consumedEntries, if_pos rfl]

theorem IoVec.places_advance (entry : IoVec) (bytes : Nat) :
    (entry.advance bytes).places = entry.places.drop bytes := by
  apply List.ext_getElem
  · rw [List.length_drop, IoVec.length_places, IoVec.length_places]
    rfl
  · intro index left right
    simp only [IoVec.places, IoVec.advance, List.getElem_map,
      List.getElem_range, List.getElem_drop, Nat.add_assoc]

theorem places_consumed (entries : List IoVec) (byteCount : Nat) :
    places (consumedEntries entries byteCount).1 =
      (places entries).drop byteCount := by
  induction entries generalizing byteCount with
  | nil => rw [consumedEntries, places_nil, List.drop_nil]
  | cons entry entries ih =>
      rw [consumedEntries]
      split
      next none => rw [none, List.drop_zero]
      next some =>
          split
          next within =>
            rw [places_cons, places_cons, IoVec.places_advance,
              List.drop_append_of_le_length]
            rw [IoVec.length_places]
            omega
          next beyond =>
            have whole : entry.places.drop byteCount = [] := by
              apply List.drop_eq_nil_of_le
              rw [IoVec.length_places]
              omega
            rw [ih, places_cons, List.drop_append, IoVec.length_places, whole,
              List.nil_append]

theorem totalLength_consumed (entries : List IoVec) (byteCount : Nat) :
    totalLength (consumedEntries entries byteCount).1 =
      totalLength entries - byteCount := by
  rw [← length_places, places_consumed, List.length_drop, length_places]

theorem consumedEntries_left (entries : List IoVec) (byteCount : Nat) :
    (consumedEntries entries byteCount).2 =
      byteCount - totalLength entries := by
  induction entries generalizing byteCount with
  | nil => rfl
  | cons entry entries ih =>
      rw [consumedEntries, totalLength_cons]
      split
      next none => omega
      next some =>
          split
          next within => omega
          next beyond =>
            rw [ih]
            omega

theorem length_consumed_le (entries : List IoVec) (byteCount : Nat) :
    (consumedEntries entries byteCount).1.length ≤ entries.length := by
  induction entries generalizing byteCount with
  | nil => exact Nat.le_refl _
  | cons entry entries ih =>
      rw [consumedEntries]
      split
      next => exact Nat.le_refl _
      next =>
          split
          next => simp only [List.length_cons, Nat.le_refl]
          next =>
            have shorter := ih (byteCount - entry.length)
            rw [List.length_cons]
            omega

private theorem consumeEntries_eq
    (front entries : List IoVec) (byteCount : Nat) :
    ∃ before,
      (consumeEntries entries.length (front ++ entries) front.length
          byteCount).vector =
        before ++ (consumedEntries entries byteCount).1 ∧
      before.length = (consumeEntries entries.length (front ++ entries)
          front.length byteCount).iov ∧
      (consumeEntries entries.length (front ++ entries) front.length
          byteCount).iovLength =
        (consumedEntries entries byteCount).1.length ∧
      (consumeEntries entries.length (front ++ entries) front.length
          byteCount).byteCount =
        (consumedEntries entries byteCount).2 ∧
      front.length ≤ before.length := by
  induction entries generalizing front byteCount with
  | nil => exact ⟨front, rfl, rfl, rfl, rfl, Nat.le_refl _⟩
  | cons entry entries ih =>
      have here : (front ++ entry :: entries)[front.length]? = some entry := by
        rw [List.getElem?_append_right (Nat.le_refl _), Nat.sub_self]
        rfl
      rw [List.length_cons, consumeEntries, consumedEntries]
      by_cases none : byteCount = 0
      · rw [if_pos none, if_pos none]
        exact ⟨front, rfl, rfl, rfl, none, Nat.le_refl _⟩
      · rw [if_neg none, if_neg none, here]
        have places : ∀ value : IoVec,
            (front ++ entry :: entries).set front.length value =
              front ++ value :: entries := by
          intro value
          rw [List.set_append_right _ _ (Nat.le_refl _), Nat.sub_self,
            List.set_cons_zero]
        simp only [places]
        by_cases within : byteCount < entry.length
        · have least : min entry.length byteCount = byteCount := by omega
          rw [if_pos within, least, if_pos (by omega)]
          exact ⟨front, rfl, rfl, rfl, Nat.sub_self _, Nat.le_refl _⟩
        · have least : min entry.length byteCount = entry.length := by omega
          rw [if_neg within, least, if_neg (by omega)]
          have next := ih (front ++ [{ entry with length := entry.length - entry.length }])
            (byteCount - entry.length)
          rw [List.append_assoc, List.singleton_append, List.length_append,
            List.length_singleton] at next
          obtain ⟨before, vectorEq, iovEq, lengthEq, leftEq, after⟩ := next
          exact ⟨before, vectorEq, iovEq, lengthEq, leftEq, by omega⟩

section Consume

variable {vector lengths entries : List IoVec} {header : MessageHeader}

theorem Stands.consumeFragment
    (stands : Stands vector header (lengths ++ entries))
    (fragment : LengthHeader) :
    Stands (consumeFragment vector header fragment lengths.length).1
        (consumeFragment vector header fragment lengths.length).2
        (consumedEntries entries fragment.byteCount).1 ∧
      header.iov + lengths.length ≤
        (Srpc.consumeFragment vector header fragment lengths.length).2.iov := by
  obtain ⟨front, rfl, starts⟩ := stands.split
  obtain ⟨before, vectorEq, iovEq, lengthEq, -, after⟩ :=
    consumeEntries_eq (front ++ lengths) entries fragment.byteCount
  have fewer : header.iovLength - lengths.length = entries.length := by
    rw [stands.length, List.length_append, Nat.add_sub_cancel_left]
  unfold Srpc.consumeFragment
  simp only [fewer, ← starts, ← List.append_assoc, ← List.length_append]
  refine ⟨⟨⟨before, vectorEq, iovEq⟩, lengthEq⟩, ?_⟩
  rw [← iovEq]
  exact after

theorem Stands.consumeFragment_flags
    (stands : Stands vector header (lengths ++ entries))
    (fragment : LengthHeader) :
    (Srpc.consumeFragment vector header fragment lengths.length).2.flags =
      ⟨header.flags.dataTruncated ||
          decide (totalLength entries < fragment.byteCount),
        header.flags.descTruncated ||
          decide (header.descLength < fragment.descCount)⟩ := by
  obtain ⟨front, rfl, starts⟩ := stands.split
  obtain ⟨-, -, -, -, leftEq, -⟩ :=
    consumeEntries_eq (front ++ lengths) entries fragment.byteCount
  have fewer : header.iovLength - lengths.length = entries.length := by
    rw [stands.length, List.length_append, Nat.add_sub_cancel_left]
  unfold Srpc.consumeFragment
  simp only [fewer, ← starts, ← List.append_assoc, ← List.length_append, leftEq,
    consumedEntries_left]
  congr 2
  · simp only [Nat.sub_pos_iff_lt]
  · congr 1
    apply propext
    omega

end Consume

def cutEntries : List IoVec → Nat → List IoVec
  | [], _ => []
  | entry :: entries, byteCount =>
      { entry with length := min byteCount entry.length } ::
        cutEntries entries (byteCount - min byteCount entry.length)

@[simp] theorem length_cutEntries (entries : List IoVec) (byteCount : Nat) :
    (cutEntries entries byteCount).length = entries.length := by
  induction entries generalizing byteCount with
  | nil => rfl
  | cons entry entries ih =>
      rw [cutEntries, List.length_cons, ih, List.length_cons]

theorem places_cut (entries : List IoVec) (byteCount : Nat) :
    places (cutEntries entries byteCount) = (places entries).take byteCount := by
  induction entries generalizing byteCount with
  | nil => rw [cutEntries, places_nil, List.take_nil]
  | cons entry entries ih =>
      have head : IoVec.places { entry with length := min byteCount entry.length } =
          entry.places.take byteCount := by
        unfold IoVec.places
        rw [← List.map_take, List.take_range]
      have rest : byteCount - min byteCount entry.length =
          byteCount - entry.length := by omega
      rw [cutEntries, places_cons, places_cons, ih, head, List.take_append,
        IoVec.length_places, rest]

theorem cutEntries_append (front back : List IoVec) (byteCount : Nat) :
    cutEntries (front ++ back) byteCount =
      cutEntries front byteCount ++
        cutEntries back (byteCount - totalLength front) := by
  induction front generalizing byteCount with
  | nil => rfl
  | cons entry front ih =>
      have rest : byteCount - min byteCount entry.length - totalLength front =
          byteCount - (entry.length + totalLength front) := by omega
      rw [List.cons_append, cutEntries, ih, cutEntries, totalLength_cons, rest]
      rfl

variable {entries : List IoVec} {byteCount totalBytes : Nat}

theorem cutEntries_of_le
    (enough : totalLength entries ≤ byteCount) :
    cutEntries entries byteCount = entries := by
  induction entries generalizing byteCount with
  | nil => rfl
  | cons entry entries ih =>
      rw [totalLength_cons] at enough
      have least : min byteCount entry.length = entry.length := by omega
      rw [cutEntries, least, ih (by omega)]

theorem cutEntries_positive
    {front : List IoVec} {last : IoVec}
    (beyond : totalLength front < byteCount) (reached : 0 < last.length)
    (filled : ∀ entry ∈ front, 0 < entry.length) :
    ∀ entry ∈ cutEntries (front ++ [last]) byteCount, 0 < entry.length := by
  rw [cutEntries_append, cutEntries_of_le (Nat.le_of_lt beyond)]
  intro entry member
  rcases List.mem_append.mp member with before | here
  · exact filled entry before
  · rw [cutEntries, cutEntries, List.mem_singleton] at here
    subst here
    simp only
    omega

private theorem limitEntries_fst
    (entries : List IoVec)
    (index iovLength : Nat) :
    (limitEntries byteCount entries index totalBytes iovLength).1 =
      cutEntries entries (byteCount - totalBytes) := by
  induction entries generalizing index totalBytes iovLength with
  | nil => rfl
  | cons entry entries ih =>
      simp only [limitEntries, cutEntries]
      rw [ih, Nat.sub_sub]

private theorem limitEntries_full
    {index iovLength : Nat}
    (some : ∀ entry ∈ cutEntries entries (byteCount - totalBytes),
      0 < entry.length) :
    (limitEntries byteCount entries index totalBytes iovLength).2 =
      iovLength := by
  induction entries generalizing index totalBytes iovLength with
  | nil => rfl
  | cons entry entries ih =>
      rw [cutEntries, List.forall_mem_cons] at some
      obtain ⟨positive, rest⟩ := some
      simp only [limitEntries]
      rw [if_neg (Nat.ne_of_gt positive), ih]
      rw [← Nat.sub_sub]
      exact rest

private theorem limitEntries_last
    {front : List IoVec} {last : IoVec}
    {index iovLength : Nat}
    (nothing : min (byteCount - totalBytes - totalLength front) last.length = 0) :
    (limitEntries byteCount (front ++ [last]) index totalBytes iovLength).2 =
      index + front.length := by
  induction front generalizing index totalBytes iovLength with
  | nil =>
      rw [totalLength_nil, Nat.sub_zero] at nothing
      simp only [List.nil_append, limitEntries]
      rw [if_pos nothing]
      rfl
  | cons entry front ih =>
      rw [totalLength_cons] at nothing
      simp only [List.cons_append, limitEntries]
      rw [ih (by omega), List.length_cons]
      omega

private theorem limitEntries_early
    {front : List IoVec} {last : IoVec}
    {byteCount totalBytes index iovLength : Nat}
    (beyond : totalLength front < byteCount - totalBytes)
    (reached : 0 < last.length)
    (empty : ∃ entry ∈ front, entry.length = 0) :
    (limitEntries byteCount (front ++ [last]) index totalBytes iovLength).2 <
      index + front.length := by
  induction front generalizing index totalBytes iovLength with
  | nil =>
      obtain ⟨entry, member, -⟩ := empty
      exact absurd member List.not_mem_nil
  | cons entry front ih =>
      rw [totalLength_cons] at beyond
      have least : min (byteCount - totalBytes) entry.length = entry.length := by
        omega
      simp only [List.cons_append, limitEntries, least, List.length_cons]
      by_cases later : ∃ other ∈ front, other.length = 0
      · have early := @ih (totalBytes + entry.length) (index + 1)
          (if entry.length = 0 then index else iovLength) (by omega) later
        omega
      · have here : entry.length = 0 := by
          obtain ⟨other, member, none⟩ := empty
          rcases List.mem_cons.mp member with rfl | behind
          · exact none
          · exact absurd ⟨other, behind, none⟩ later
        rw [if_pos here, limitEntries_full]
        · omega
        · apply cutEntries_positive (by omega) reached
          intro other member
          exact Nat.pos_of_ne_zero fun none => later ⟨other, member, none⟩

section Build

variable {lengths front entries : List IoVec} {last : IoVec} {byteCount : Nat}

private theorem buildFragmentHeader_eq :
    buildFragmentHeader (lengths ++ entries) byteCount lengths.length =
      (lengths ++ cutEntries entries byteCount).take
        (limitEntries byteCount entries lengths.length 0
          (lengths ++ entries).length).2 := by
  unfold buildFragmentHeader
  simp only [List.drop_left, List.take_left, limitEntries_fst, Nat.sub_zero]

theorem buildFragmentHeader_nil :
    buildFragmentHeader (lengths ++ []) byteCount lengths.length = lengths := by
  rw [buildFragmentHeader_eq]
  simp only [cutEntries, limitEntries, List.append_nil, List.take_length]

theorem buildFragmentHeader_short
    (short : byteCount ≤ totalLength front) :
    buildFragmentHeader (lengths ++ (front ++ [last])) byteCount
        lengths.length = lengths ++ cutEntries front byteCount := by
  rw [buildFragmentHeader_eq, limitEntries_last (by omega), cutEntries_append,
    ← List.append_assoc]
  apply List.take_left'
  rw [List.length_append, length_cutEntries]

theorem buildFragmentHeader_reaching
    (beyond : totalLength front < byteCount) (reached : 0 < last.length)
    (filled : ∀ entry ∈ front, 0 < entry.length) :
    buildFragmentHeader (lengths ++ (front ++ [last])) byteCount
        lengths.length = lengths ++ cutEntries (front ++ [last]) byteCount := by
  rw [buildFragmentHeader_eq, limitEntries_full]
  · apply List.take_of_length_le
    simp only [List.length_append, length_cutEntries, Nat.le_refl]
  · rw [Nat.sub_zero]
    exact cutEntries_positive beyond reached filled

private theorem totalLength_take_le (entries : List IoVec) (count : Nat) :
    totalLength (entries.take count) ≤ totalLength entries := by
  have split := congrArg totalLength (List.take_append_drop count entries)
  rw [totalLength_append] at split
  omega

theorem buildFragmentHeader_early
    (beyond : totalLength front < byteCount) (reached : 0 < last.length)
    (empty : ∃ entry ∈ front, entry.length = 0) :
    totalLength (buildFragmentHeader (lengths ++ (front ++ [last])) byteCount
        lengths.length) ≤ totalLength lengths + totalLength front := by
  have early := @limitEntries_early front last byteCount 0 lengths.length
    (lengths ++ (front ++ [last])).length beyond reached empty
  rw [buildFragmentHeader_eq, cutEntries_append,
    cutEntries_of_le (Nat.le_of_lt beyond)]
  generalize (limitEntries byteCount (front ++ [last]) lengths.length 0
    (lengths ++ (front ++ [last])).length).2 = count at early ⊢
  rw [← List.append_assoc, List.take_append_of_le_length, ← totalLength_append]
  · exact totalLength_take_le _ _
  · rw [List.length_append]
    exact Nat.le_of_lt early

end Build

def twoLengths : List IoVec :=
  [lengthEntry .totalSize, lengthEntry .fragmentSize]

theorem copyAndAddIovs_eq
    (within : totalLength entries + 2 * fragmentOverhead ≤ abiSsizeMax) :
    ∃ copy, copyAndAddIovs entries 2 = some copy ∧
      (copy.set 0 (lengthEntry .totalSize)).set 1 (lengthEntry .fragmentSize) =
        twoLengths ++ entries := by
  have split := congrArg totalLength (List.take_append_drop 2 entries)
  rw [totalLength_append] at split
  refine ⟨List.replicate 2 ⟨⟨.caller, 0⟩, 0⟩ ++ entries, ?_, rfl⟩
  unfold copyAndAddIovs iovTotalBytes
  simp only
  rw [if_neg]
  rw [if_neg (by omega)]
  exact Option.some_ne_none _

theorem iovTotalBytes_twoLengths
    (within : totalLength entries + 2 * fragmentOverhead ≤ abiSsizeMax) :
    iovTotalBytes (twoLengths ++ entries) 0 ≠ none ∧
      iovTotalBytes (twoLengths ++ entries) 2 = some (totalLength entries) := by
  unfold iovTotalBytes
  constructor
  · simp only [List.drop_zero, totalLength_append]
    rw [if_neg]
    · exact Option.some_ne_none _
    · simp only [twoLengths, totalLength_cons, totalLength_nil, lengthEntry]
      omega
  · have skipped : (twoLengths ++ entries).drop 2 = entries := rfl
    rw [skipped, if_neg (by omega)]

end NativeClient.Srpc
