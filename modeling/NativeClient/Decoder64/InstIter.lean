import NativeClient.Decoder64.OpcodeSequences

/-!
# The instruction iterator

`nc_inst_iter.c`: an index into a segment, and a ring buffer with the current
instruction and the ones before it.  Walked to its end, the iterator tiles the
segment with instructions exactly when it never stops at an opcode sequence
that lacks its last byte.
-/

namespace NativeClient.Decoder64

open NativeClient.Library

def kLookbackSize : Nat := 4

structure NaClInstIter where
  index : Nat
  instCount : Nat
  buffer : Ring (Option NaClInstState) (kLookbackSize + 1)

def naClInstIterCreateWithLookback : NaClInstIter where
  index := 0
  instCount := 0
  buffer := ⟨fun _ => none, 0, Nat.succ_pos _⟩

structure NaClSegment where
  vbase : Nat
  size : Nat

section Iterator

variable (tables : Tables) (text : Buffer) (segment : NaClSegment)

def naClInstIterHasNext (iter : NaClInstIter) : Bool :=
  iter.index < segment.size

def naClInstIterGetLookbackState (iter : NaClInstIter) (distance : Nat) :
    NaClInstState :=
  (iter.buffer.back distance).getD
    (naClDecodeInst tables text segment.vbase segment.size iter.index)

def naClInstIterGetState (iter : NaClInstIter) : NaClInstState :=
  naClInstIterGetLookbackState tables text segment iter 0

def naClInstIterLoad (iter : NaClInstIter) : NaClInstIter :=
  { iter with
    buffer := iter.buffer.setCurrent
      (some (naClInstIterGetState tables text segment iter)) }

def naClInstIterHasLookbackState (iter : NaClInstIter) (distance : Nat) :
    Bool :=
  decide (distance < kLookbackSize + 1) && decide (distance ≤ iter.instCount)

def naClInstIterAdvance (iter : NaClInstIter) : NaClInstIter :=
  let loaded := naClInstIterLoad tables text segment iter
  { index :=
      iter.index + (naClInstIterGetState tables text segment iter).length
    instCount := iter.instCount + 1
    buffer := loaded.buffer.advance none }

inductive Walks : NaClInstIter → Prop where
  | create : Walks naClInstIterCreateWithLookback
  | advance {iter : NaClInstIter} :
      Walks iter → naClInstIterHasNext segment iter = true →
      Walks (naClInstIterAdvance tables text segment iter)

def walkTurn (iter : NaClInstIter) : Turn NaClInstIter NaClInstIter :=
  if naClInstIterHasNext segment iter then
    .again (naClInstIterAdvance tables text segment iter)
  else
    .leave iter

structure Tiles : Prop where
  taken : ∀ iter, Walks tables text segment iter →
    naClInstIterHasNext segment iter = true →
    1 ≤ (naClInstIterGetState tables text segment iter).length ∧
      (naClInstIterGetState tables text segment iter).length ≤
        segment.size - iter.index
  ends : ∃ iter, Returns (walkTurn tables text segment)
    naClInstIterCreateWithLookback iter ∧ iter.index = segment.size
  closed : ∀ iter, Walks tables text segment iter →
    naClInstIterHasNext segment iter = true →
    ∀ other, Below segment.size text other →
      naClInstIterGetState tables other segment iter =
        naClInstIterGetState tables text segment iter
  sequences : ∀ iter, Walks tables text segment iter →
    naClInstIterHasNext segment iter = true →
    ∀ inst length, naClConsumeOpcodeSequence (text.shift iter.index)
        (naClInstStateInit segment.vbase segment.size
          iter.index).lengthLimit = some (inst, length) →
      length ≤ (naClInstStateInit segment.vbase segment.size
        iter.index).lengthLimit

def WholeSequences : Prop :=
  ∀ iter, Walks tables text segment iter →
    naClInstIterHasNext segment iter = true →
    ¬ Truncated (text.shift iter.index) (segment.size - iter.index)

end Iterator

section Decoding

variable {tables : Tables} {text : Buffer} {segment : NaClSegment}

theorem naClDecodeInst_taken
    (tables : Tables) (text : Buffer) (vbase : Nat) {size index : Nat}
    (next : index < size)
    (whole : ¬ Truncated (text.shift index) (size - index)) :
    1 ≤ (naClDecodeInst tables text vbase size index).length ∧
      (naClDecodeInst tables text vbase size index).length ≤ size - index := by
  have room : 0 < (naClInstStateInit vbase size index).lengthLimit := by
    rw [naClInstStateInit, naclMaxBytesPerX86Instruction]
    dsimp only
    omega
  have limit : (naClInstStateInit vbase size index).lengthLimit ≤
      size - index := Nat.min_le_left _ _
  rw [naClDecodeInst]
  split
  · rename_i inst length found
    have inside := consumeOpcodeSequence_inside whole found
    have positive := (naClConsumeOpcodeSequence_eq_some_iff.mp found).2.1
    exact ⟨positive, Nat.le_trans inside limit⟩
  · have taken := decodeByOpcode_taken tables (text.shift index)
      (Nat.zero_le (naClInstStateInit vbase size index).lengthLimit) room
    exact ⟨taken.1, Nat.le_trans taken.2 limit⟩

private theorem sequence_kept
    {bytes other : Buffer} {left : Nat} (same : Below left bytes other)
    (whole : ¬ Truncated bytes left) {result : NaClInst × Nat}
    (found : naClConsumeOpcodeSequence bytes
      (min left naclMaxBytesPerX86Instruction) = some result) :
    naClConsumeOpcodeSequence other
      (min left naclMaxBytesPerX86Instruction) = some result := by
  obtain ⟨inst, length⟩ := result
  have inside := consumeOpcodeSequence_inside whole found
  rw [naClConsumeOpcodeSequence_eq_some_iff] at found ⊢
  have agree : window bytes length = window other length := by
    apply window_congr
    intro offset below
    exact same offset (by omega)
  rw [← agree]
  exact found

theorem consumeOpcodeSequence_closed
    {bytes other : Buffer} {left : Nat} (same : Below left bytes other)
    (whole : ¬ Truncated bytes left) :
    naClConsumeOpcodeSequence bytes
        (min left naclMaxBytesPerX86Instruction) =
      naClConsumeOpcodeSequence other
        (min left naclMaxBytesPerX86Instruction) := by
  have back : Below left other bytes :=
    fun offset below => (same offset below).symm
  have otherWhole : ¬ Truncated other left := by
    rw [← Truncated.congr same]
    exact whole
  apply Option.ext
  intro result
  exact ⟨sequence_kept same whole, sequence_kept back otherWhole⟩

theorem naClDecodeInst_closed
    (tables : Tables) (vbase : Nat) {text other : Buffer} {size index : Nat}
    (next : index < size) (same : Below size text other)
    (whole : ¬ Truncated (text.shift index) (size - index)) :
    naClDecodeInst tables other vbase size index =
      naClDecodeInst tables text vbase size index := by
  have ahead : Below (size - index) (text.shift index)
      (other.shift index) := by
    intro offset below
    exact same (index + offset) (by omega)
  have limited : Below (naClInstStateInit vbase size index).lengthLimit
      (text.shift index) (other.shift index) := by
    intro offset below
    exact ahead offset (Nat.lt_of_lt_of_le below (Nat.min_le_left _ _))
  have sequence : naClConsumeOpcodeSequence (other.shift index)
      (naClInstStateInit vbase size index).lengthLimit =
      naClConsumeOpcodeSequence (text.shift index)
        (naClInstStateInit vbase size index).lengthLimit :=
    (consumeOpcodeSequence_closed ahead whole).symm
  rw [naClDecodeInst, naClDecodeInst, sequence,
    decodeByOpcode_closed tables (Nat.zero_le _) limited]

theorem naClDecodeInst_of_truncated
    (tables : Tables) (text : Buffer) (vbase : Nat) {size index : Nat}
    (next : index < size)
    (truncated : Truncated (text.shift index) (size - index)) :
    ∃ byte, (naClDecodeInst tables (Function.update text size byte) vbase size
      index).length = size - index + 1 := by
  obtain ⟨sequence, member, begins⟩ := truncated
  have bounded := opcodeSequences_length sequence member
  have lengths := congrArg List.length begins
  rw [List.length_dropLast, length_window] at lengths
  have nonempty : sequence.bytes ≠ [] := List.ne_nil_of_length_pos bounded.1
  refine ⟨sequence.bytes.getLast nonempty, ?_⟩
  set other : Buffer :=
    Function.update text size (sequence.bytes.getLast nonempty)
  have whole : window (other.shift index) (size - index + 1) =
      sequence.bytes := by
    have front : window (other.shift index) (size - index) =
        window (text.shift index) (size - index) := by
      apply window_congr
      intro offset below
      have inside : index + offset ≠ size := by omega
      exact Function.update_of_ne inside _ _
    have last : other.shift index (size - index) =
        sequence.bytes.getLast nonempty := by
      rw [Buffer.shift_apply, Nat.add_sub_of_le (Nat.le_of_lt next)]
      exact Function.update_self _ _ _
    rw [window_succ, front, last, ← begins,
      List.dropLast_append_getLast nonempty]
  obtain ⟨inst, matched⟩ := matchingInst_isSome member
  have limit : (naClInstStateInit vbase size index).lengthLimit =
      size - index := by
    rw [naClInstStateInit, naclMaxBytesPerX86Instruction]
    dsimp only
    omega
  have found : naClConsumeOpcodeSequence (other.shift index)
      (naClInstStateInit vbase size index).lengthLimit =
      some (inst, size - index + 1) := by
    rw [limit, naClConsumeOpcodeSequence_eq_some_iff, whole]
    exact ⟨by omega, by omega, by omega, matched⟩
  rw [naClDecodeInst, found]

end Decoding

section Walk

variable {tables : Tables} {text : Buffer} {segment : NaClSegment}
  {iter : NaClInstIter}

theorem Walks.empty
    (walks : Walks tables text segment iter) :
    iter.buffer.back 0 = none := by
  cases walks with
  | create => rfl
  | advance _ _ => exact Ring.back_advance_zero _ _

theorem Walks.getState
    (walks : Walks tables text segment iter) (memory : Buffer) :
    naClInstIterGetState tables memory segment iter =
      naClDecodeInst tables memory segment.vbase segment.size iter.index := by
  rw [naClInstIterGetState, naClInstIterGetLookbackState, walks.empty]
  rfl

theorem Walks.taken
    (walks : Walks tables text segment iter)
    (whole : WholeSequences tables text segment)
    (next : naClInstIterHasNext segment iter = true) :
    1 ≤ (naClInstIterGetState tables text segment iter).length ∧
      (naClInstIterGetState tables text segment iter).length ≤
        segment.size - iter.index := by
  rw [walks.getState]
  exact naClDecodeInst_taken tables text segment.vbase
    (of_decide_eq_true next) (whole iter walks next)

theorem Walks.index_le
    (walks : Walks tables text segment iter)
    (whole : WholeSequences tables text segment) :
    iter.index ≤ segment.size := by
  induction walks with
  | create => exact Nat.zero_le _
  | advance walks next ih =>
      have taken := walks.taken whole next
      rw [naClInstIterAdvance]
      dsimp only
      omega

theorem walk_ends
    (whole : WholeSequences tables text segment) :
    ∃ iter, Returns (walkTurn tables text segment)
      naClInstIterCreateWithLookback iter ∧ iter.index = segment.size := by
  have stops : ∃ iter, Returns (walkTurn tables text segment)
      naClInstIterCreateWithLookback iter := by
    apply returns_of_measure (Walks tables text segment)
      (fun iter => segment.size - iter.index) _ Walks.create
    intro iter after walks turned
    rw [walkTurn] at turned
    split_ifs at turned with next
    cases turned
    have taken := walks.taken whole next
    refine ⟨walks.advance next, ?_⟩
    rw [naClInstIterAdvance]
    dsimp only
    omega
  obtain ⟨final, returned⟩ := stops
  refine ⟨final, returned, ?_⟩
  apply Returns.invariant (Walks tables text segment)
    (fun iter => iter.index = segment.size) _ _ Walks.create returned
  · intro iter after walks turned
    rw [walkTurn] at turned
    split_ifs at turned with next
    cases turned
    exact walks.advance next
  · intro iter result walks turned
    rw [walkTurn] at turned
    split_ifs at turned with next
    cases turned
    have atMost := walks.index_le whole
    have done : ¬ iter.index < segment.size := by
      intro less
      exact next (decide_eq_true less)
    omega

end Walk

/-- The iterator tiles a segment, independently of what follows it in memory,
exactly when it never stops where only an opcode sequence without its last
byte is left. -/
theorem tiles_iff_wholeSequences
    (tables : Tables) (text : Buffer) (segment : NaClSegment) :
    Tiles tables text segment ↔ WholeSequences tables text segment := by
  constructor
  · intro tiles iter walks next truncated
    have inside : iter.index < segment.size := of_decide_eq_true next
    obtain ⟨byte, length⟩ := naClDecodeInst_of_truncated tables text
      segment.vbase inside truncated
    have same : Below segment.size text
        (Function.update text segment.size byte) := by
      intro offset below
      exact (Function.update_of_ne (Nat.ne_of_lt below) _ _).symm
    have closed := tiles.closed iter walks next _ same
    have taken := (tiles.taken iter walks next).2
    rw [← closed, walks.getState, length] at taken
    omega
  · intro whole
    refine ⟨?_, walk_ends whole, ?_, ?_⟩
    · intro iter walks next
      exact walks.taken whole next
    · intro iter walks next other same
      rw [walks.getState, walks.getState]
      exact naClDecodeInst_closed tables segment.vbase
        (of_decide_eq_true next) same (whole iter walks next)
    · intro iter walks next inst length found
      exact consumeOpcodeSequence_inside (whole iter walks next) found

def emptyTables : Tables where
  gOpcodeTable := fun _ _ => []
  naClBuildExpVector := fun _ _ => ⟨0, fun _ => ⟨.undefinedExp, 0, []⟩⟩
  reads := fun _ _ _ _ => rfl

/-- Thirty bytes of nops, one more nop and `0f` make a bundle; `0b` follows
it. -/
def truncatedUd2 : Buffer :=
  Buffer.ofList
    [ 0x66, 0x66, 0x66, 0x66, 0x66, 0x66, 0x2e, 0x0f, 0x1f, 0x84, 0, 0, 0, 0, 0,
      0x66, 0x66, 0x66, 0x66, 0x66, 0x66, 0x2e, 0x0f, 0x1f, 0x84, 0, 0, 0, 0, 0,
      0x90, 0x0f, 0x0b ]

private def ud2Walk : Nat → NaClInstIter
  | 0 => naClInstIterCreateWithLookback
  | count + 1 =>
      naClInstIterAdvance emptyTables truncatedUd2 ⟨0, 32⟩ (ud2Walk count)

/-- The last instruction of the bundle is two bytes long, with one byte
left. -/
theorem not_tiles_truncatedUd2 :
    ¬ Tiles emptyTables truncatedUd2 ⟨0, 32⟩ := by
  intro tiles
  have first : Walks emptyTables truncatedUd2 ⟨0, 32⟩ (ud2Walk 1) :=
    Walks.create.advance (by decide +kernel)
  have second : Walks emptyTables truncatedUd2 ⟨0, 32⟩ (ud2Walk 2) :=
    first.advance (by decide +kernel)
  have third : Walks emptyTables truncatedUd2 ⟨0, 32⟩ (ud2Walk 3) :=
    second.advance (by decide +kernel)
  have taken := (tiles.taken _ third (by decide +kernel)).2
  revert taken
  decide +kernel

end NativeClient.Decoder64
