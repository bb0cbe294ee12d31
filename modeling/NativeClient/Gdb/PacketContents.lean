import NativeClient.Gdb.Packet

/-!
# What a packet holds

The vector of a packet is made of the characters that were read, those that
were not, a NUL, and room for more.  Every operation is described by what it
does to the first two.
-/

namespace NativeClient.Gdb

open NativeClient.Library

namespace Packet

structure Valid (pkt : Packet) : Prop where
  read : pkt.readIndex ≤ pkt.writeIndex
  write : pkt.writeIndex < pkt.data.length
  terminated : pkt.data[pkt.writeIndex]? = some 0

def unread (pkt : Packet) : List UInt8 :=
  (pkt.data.take pkt.writeIndex).drop pkt.readIndex

/-- The packet holds the characters `before`, which were read, and `after`. -/
structure Holds (pkt : Packet) (before after : List UInt8) : Prop where
  data : ∃ room, pkt.data = before ++ after ++ 0 :: room
  read : pkt.readIndex = before.length
  write : pkt.writeIndex = before.length + after.length

variable {pkt : Packet} {before after : List UInt8}

theorem Holds.valid (holds : pkt.Holds before after) : pkt.Valid := by
  obtain ⟨⟨room, data⟩, read, write⟩ := holds
  refine ⟨by omega, ?_, ?_⟩
  · rw [data, write]
    simp
  · rw [data, write, ← List.length_append, List.getElem?_append_right
      (Nat.le_refl _), Nat.sub_self]
    rfl

theorem Holds.unread_eq (holds : pkt.Holds before after) :
    pkt.unread = after := by
  obtain ⟨⟨room, data⟩, read, write⟩ := holds
  unfold unread
  rw [data, read, write, ← List.length_append, List.take_left, List.drop_left]

theorem Valid.holds (valid : pkt.Valid) :
    pkt.Holds (pkt.data.take pkt.readIndex) pkt.unread := by
  obtain ⟨read, write, terminated⟩ := valid
  have parts : pkt.data.take pkt.readIndex ++ pkt.unread =
      pkt.data.take pkt.writeIndex := by
    unfold unread
    have front : pkt.data.take pkt.readIndex =
        (pkt.data.take pkt.writeIndex).take pkt.readIndex := by
      rw [List.take_take, Nat.min_eq_left read]
    rw [front, List.take_append_drop]
  refine ⟨⟨pkt.data.drop (pkt.writeIndex + 1), ?_⟩, ?_, ?_⟩
  · obtain ⟨inside, value⟩ := List.getElem?_eq_some_iff.mp terminated
    rw [parts, ← value, ← List.drop_eq_getElem_cons inside,
      List.take_append_drop]
  · rw [List.length_take]
    omega
  · rw [← List.length_append, parts, List.length_take]
    omega

section Writing

theorem holds_clear (pkt : Packet) : pkt.clear.Holds [] [] :=
  ⟨⟨List.replicate 63 0, rfl⟩, rfl, rfl⟩

theorem Holds.addRawChar
    (holds : pkt.Holds before after) (ch : UInt8) :
    (pkt.addRawChar ch).Holds before (after ++ [ch]) := by
  obtain ⟨⟨room, data⟩, read, write⟩ := holds
  -- There is room for the character and for the NUL behind it.
  obtain ⟨spare, more, grown⟩ : ∃ spare more,
      (if pkt.data.length ≤ pkt.writeIndex + 1 then
        resize pkt.data (pkt.data.length + growSize) else pkt.data) =
      before ++ after ++ 0 :: spare :: more := by
    by_cases full : pkt.data.length ≤ pkt.writeIndex + 1
    · rw [if_pos full]
      have none : room = [] := by
        rw [data, write] at full
        simp only [List.length_append, List.length_cons] at full
        exact List.eq_nil_of_length_eq_zero (by omega)
      refine ⟨0, List.replicate 63 0, ?_⟩
      unfold resize
      rw [List.take_of_length_le (Nat.le_add_right _ _),
        Nat.add_sub_cancel_left, data, none]
      simp [growSize, List.replicate_succ]
    · rw [if_neg full]
      cases room with
      | nil =>
          rw [data, write] at full
          simp only [List.length_append, List.length_cons, List.length_nil,
            not_le] at full
          omega
      | cons spare more => exact ⟨spare, more, data⟩
  refine ⟨⟨more, ?_⟩, read, ?_⟩
  · unfold Packet.addRawChar
    dsimp only
    rw [grown, write, ← List.length_append,
      List.set_append_right _ _ (Nat.le_refl _), Nat.sub_self,
      List.set_append_right _ _ (Nat.le_add_right _ 1),
      Nat.add_sub_cancel_left]
    simp
  · unfold Packet.addRawChar
    dsimp only
    rw [write, List.length_append, List.length_singleton]
    omega

theorem Holds.addString
    (holds : pkt.Holds before after) (str : List UInt8) :
    (pkt.addString str).Holds before (after ++ str) := by
  induction str generalizing pkt after with
  | nil =>
      rw [List.append_nil]
      exact holds
  | cons ch str ih =>
      have rest := ih (holds.addRawChar ch)
      rw [List.append_assoc] at rest
      exact rest

def blockText (block : List UInt8) : List UInt8 :=
  block.flatMap fun byte =>
    [nibble (byte.toNat / 16), nibble (byte.toNat % 16)]

theorem addBlock_eq (pkt : Packet) (block : List UInt8) :
    pkt.addBlock block = pkt.addString (blockText block) := by
  induction block generalizing pkt with
  | nil => rfl
  | cons byte block ih => exact ih (pkt.addWord8 byte)

def numberSepText (val : Nat) (sep : UInt8) : List UInt8 :=
  (if val = 2 ^ 64 - 1 then [ascii '-', ascii '1'] else numberText val) ++
    if sep = 0 then [] else [sep]

theorem addNumberSep_eq (pkt : Packet) (val : Nat) (sep : UInt8) :
    pkt.addNumberSep val sep = pkt.addString (numberSepText val sep) := by
  have joined : ∀ str, (pkt.addString str).addString
      (if sep = 0 then [] else [sep]) =
      pkt.addString (str ++ if sep = 0 then [] else [sep]) := by
    intro str
    unfold Packet.addString
    rw [List.foldl_append]
  unfold addNumberSep numberSepText
  rw [← joined]
  by_cases all : val = 2 ^ 64 - 1
  · rw [if_pos all, if_pos all]
    by_cases none : sep = 0
    · rw [if_pos none, if_pos none]
      rfl
    · rw [if_neg none, if_neg none]
      rfl
  · rw [if_neg all, if_neg all]
    by_cases none : sep = 0
    · rw [if_pos none, if_pos none]
      rfl
    · rw [if_neg none, if_neg none]
      rfl

end Writing

section Reading

variable {char : CharType}

theorem getD_append (front : List UInt8) (ch : UInt8) (back : List UInt8) :
    (front ++ ch :: back).getD front.length 0 = ch := by
  rw [List.getD_eq_getElem?_getD, List.getElem?_append_right (Nat.le_refl _),
    Nat.sub_self]
  rfl

theorem Holds.getRawChar_end
    (holds : pkt.Holds before []) (char : CharType) (old : UInt8) :
    pkt.getRawChar char old = ⟨false, old, pkt⟩ := by
  have read := holds.read
  have write := holds.write
  rw [List.length_nil] at write
  unfold getRawChar
  rw [if_pos (by omega)]

theorem Holds.here
    {ch : UInt8} (holds : pkt.Holds before (ch :: after)) :
    ¬ pkt.writeIndex ≤ pkt.readIndex ∧ pkt.data.getD pkt.readIndex 0 = ch := by
  obtain ⟨⟨room, data⟩, read, write⟩ := holds
  rw [List.length_cons] at write
  refine ⟨by omega, ?_⟩
  rw [data, read, List.append_assoc]
  exact getD_append _ _ _

theorem Holds.skip
    {ch : UInt8} (holds : pkt.Holds before (ch :: after)) :
    Holds { pkt with readIndex := pkt.readIndex + 1 } (before ++ [ch])
      after := by
  obtain ⟨⟨room, data⟩, read, write⟩ := holds
  refine ⟨⟨room, ?_⟩, ?_, ?_⟩
  · rw [data]
    simp
  · rw [read, List.length_append, List.length_singleton]
  · rw [write, List.length_append, List.length_singleton, List.length_cons]
    omega

theorem Holds.getRawChar_plain
    {ch : UInt8} (holds : pkt.Holds before (ch :: after))
    (char : CharType) (plain : ch ≠ ascii '*') (old : UInt8) :
    ∃ next, pkt.getRawChar char old = ⟨true, ch, next⟩ ∧
      next.Holds (before ++ [ch]) after ∧ next.seq = pkt.seq := by
  obtain ⟨more, here⟩ := holds.here
  refine ⟨_, ?_, holds.skip, rfl⟩
  unfold getRawChar
  rw [if_neg more, here]
  dsimp only
  rw [if_neg plain]

theorem overwrite_append
    {front old back new : List UInt8} (same : new.length = old.length) :
    overwrite (front ++ old ++ back) front.length new =
      front ++ new ++ back := by
  unfold overwrite
  have start : (front ++ old ++ back).take front.length = front := by
    rw [List.append_assoc, List.take_left]
  have rest : (front ++ old ++ back).drop (front.length + new.length) =
      back := by
    rw [same, ← List.length_append, List.drop_left]
  rw [start, rest]

theorem resize_append (front back : List UInt8) (more : Nat) :
    ∃ room, resize (front ++ back) (front.length + more) = front ++ room ∧
      room.length = more := by
  refine ⟨resize back more, ?_, ?_⟩
  · unfold resize
    rw [List.take_length_add_append, List.length_append,
      Nat.add_sub_add_left, List.append_assoc]
  · unfold resize
    rw [List.length_append, List.length_take, List.length_replicate]
    omega

theorem exists_parts
    {list : List UInt8} {first second third : Nat}
    (length : list.length = first + second + third) :
    ∃ front middle back, list = front ++ middle ++ back ∧
      front.length = first ∧ middle.length = second ∧ back.length = third := by
  refine ⟨list.take first, (list.drop first).take second,
    list.drop (first + second), ?_, ?_, ?_, ?_⟩
  · rw [List.append_assoc, ← List.drop_drop, List.take_append_drop,
      List.take_append_drop]
  · rw [List.length_take]
    omega
  · rw [List.length_take, List.length_drop]
    omega
  · rw [List.length_drop]
    omega

theorem Holds.expandRun
    {ch length : UInt8} {count : Nat}
    (holds : pkt.Holds (before ++ [ch] ++ [ascii '*']) (length :: after))
    (enough : 3 ≤ count) :
    ∃ next, pkt.expandRun count = ⟨true, ch, next⟩ ∧
      next.Holds (before ++ [ch] ++ [ch])
        (List.replicate (count - 2) ch ++ after) ∧ next.seq = pkt.seq := by
  obtain ⟨⟨room, data⟩, read, write⟩ := holds
  obtain ⟨more, rfl⟩ : ∃ more, count = more + 3 :=
    ⟨count - 3, by omega⟩
  -- The vector is made longer behind the last character.
  obtain ⟨room, resized, roomLength⟩ := resize_append
    (before ++ [ch] ++ [ascii '*'] ++ length :: after) (0 :: room) (more + 1)
  rw [← data] at resized
  have size : pkt.writeIndex + (more + 3) - 3 + 1 =
      (before ++ [ch] ++ [ascii '*'] ++ length :: after).length +
        (more + 1) := by
    rw [write]
    simp
    omega
  -- What is not read moves up.
  obtain ⟨gap, old, last, parts, gapLength, oldLength, lastLength⟩ :=
    @exists_parts ([ascii '*'] ++ length :: after ++ room) (more + 1)
      (after.length + 1) 1 (by simp; omega)
  have regrouped : before ++ [ch] ++ [ascii '*'] ++ length :: after ++ room =
      before ++ [ch] ++ gap ++ old ++ last := by
    have appended := congrArg (fun list => before ++ [ch] ++ list) parts
    simpa [List.append_assoc] using appended
  have source : ((before ++ [ch] ++ [ascii '*'] ++ length :: after ++
      room).drop pkt.readIndex).take (pkt.writeIndex - pkt.readIndex) =
      length :: after := by
    have count : pkt.writeIndex - pkt.readIndex = (length :: after).length := by
      omega
    rw [count, read, List.append_assoc _ (length :: after), List.drop_left,
      List.take_left]
  have moved : memmove (resize pkt.data (pkt.writeIndex + (more + 3) - 3 + 1))
      (pkt.readIndex + (more + 3) - 3) pkt.readIndex
      (pkt.writeIndex - pkt.readIndex) =
      before ++ [ch] ++ gap ++ (length :: after) ++ last := by
    have place : pkt.readIndex + (more + 3) - 3 =
        (before ++ [ch] ++ gap).length := by
      rw [read]
      simp
      omega
    unfold memmove
    rw [size, resized, source, regrouped, place]
    exact overwrite_append (by rw [oldLength]; rfl)
  -- The run is filled in, over the star and the length.
  have filled : memset (before ++ [ch] ++ gap ++ (length :: after) ++ last)
      (pkt.readIndex - 1) ch (more + 3 - 1) =
      before ++ [ch] ++ List.replicate (more + 2) ch ++ (after ++ last) := by
    have grouped : before ++ [ch] ++ gap ++ (length :: after) ++ last =
        before ++ [ch] ++ (gap ++ [length]) ++ (after ++ last) := by simp
    have place : pkt.readIndex - 1 = (before ++ [ch]).length := by
      rw [read]
      simp
    unfold memset
    rw [grouped, place]
    exact overwrite_append (by simp [gapLength])
  have first : (before ++ [ch] ++ gap ++ (length :: after) ++ last).getD
      (pkt.readIndex - 2) 0 = ch := by
    have grouped : before ++ [ch] ++ gap ++ (length :: after) ++ last =
        before ++ ch :: (gap ++ (length :: after) ++ last) := by simp
    have place : pkt.readIndex - 2 = before.length := by
      rw [read]
      simp
    rw [grouped, place]
    exact getD_append _ _ _
  obtain ⟨final, rfl⟩ : ∃ final, last = [final] :=
    List.length_eq_one_iff.mp lastLength
  have ends : (before ++ [ch] ++ List.replicate (more + 2) ch ++
      (after ++ [final])).length - 1 =
      (before ++ [ch] ++ List.replicate (more + 2) ch ++ after).length := by
    simp
    omega
  refine ⟨{ pkt with
      data := (before ++ [ch] ++ List.replicate (more + 2) ch ++
        (after ++ [final])).set
          (before ++ [ch] ++ List.replicate (more + 2) ch ++ after).length 0
      writeIndex :=
        (before ++ [ch] ++ List.replicate (more + 2) ch ++ after).length },
    ?_, ⟨⟨[], ?_⟩, ?_, ?_⟩, rfl⟩
  · unfold Packet.expandRun
    dsimp only
    rw [moved, first, filled, ends]
  · dsimp only
    rw [← List.append_assoc _ after [final],
      List.set_append_right _ _ (Nat.le_refl _), Nat.sub_self]
    simp [List.replicate_succ]
  · dsimp only
    rw [read]
    simp
  · dsimp only
    simp
    omega

theorem Holds.getRawChar_run
    {ch length : UInt8}
    (holds : pkt.Holds (before ++ [ch]) (ascii '*' :: length :: after))
    (enough : 3 ≤ char.value length - 28) (old : UInt8) :
    ∃ next, pkt.getRawChar char old = ⟨true, ch, next⟩ ∧
      next.Holds (before ++ [ch] ++ [ch])
        (List.replicate ((char.value length - 28).toNat - 2) ch ++ after) ∧
      next.seq = pkt.seq := by
  obtain ⟨more, here⟩ := holds.here
  have skipped := holds.skip
  obtain ⟨more', there⟩ := skipped.here
  obtain ⟨next, expanded, filled, seq⟩ := @Holds.expandRun _ _ _ _ _
    (char.value length - 28).toNat skipped (by omega)
  refine ⟨next, ?_, filled, seq⟩
  have read := skipped.read
  rw [List.length_append, List.length_append, List.length_singleton,
    List.length_singleton] at read
  unfold getRawChar
  rw [if_neg more, here]
  dsimp only at read more' there ⊢
  rw [if_pos rfl, if_neg (by omega), if_neg more', there,
    if_neg (Int.not_lt.mpr enough)]
  exact expanded

theorem Holds.getRawChar_malformed
    (holds : pkt.Holds before (ascii '*' :: after))
    (malformed : before = [] ∨ after = [] ∨
      ∃ length rest, after = length :: rest ∧ char.value length - 28 < 3)
    (old : UInt8) :
    (pkt.getRawChar char old).ok = false := by
  obtain ⟨more, here⟩ := holds.here
  have skipped := holds.skip
  have read := skipped.read
  have write := skipped.write
  rw [List.length_append, List.length_singleton] at read write
  unfold getRawChar
  rw [if_neg more, here]
  dsimp only at read write ⊢
  rw [if_pos rfl]
  split
  next => rfl
  next notFirst =>
    split
    next => rfl
    next notLast =>
      rcases malformed with rfl | rfl | ⟨length, rest, rfl, short⟩
      · rw [List.length_nil] at read
        omega
      · rw [List.length_nil] at write
        omega
      · rw [skipped.here.2, if_pos short]

end Reading

end Packet

end NativeClient.Gdb
