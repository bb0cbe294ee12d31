import NativeClient.Gdb.PacketRuns
import Mathlib.Data.Nat.ModEq
import Mathlib.Tactic.IntervalCases

/-!
# Numbers and blocks in packets

The hexadecimal texts that are written into a packet are read back as what they
stand for.  A number is written without its leading zeros, and the largest one
as `-1`.
-/

namespace NativeClient.Gdb

open NativeClient.Library

section Nibbles

theorem nibbleToInt_nibble {value : Nat} (small : value < 16) :
    nibbleToInt (nibble value) = some value := by
  interval_cases value <;> decide

theorem nibble_plain {value : Nat} (small : value < 16) :
    nibble value ≠ ascii '*' ∧ nibble value ≠ ascii '-' := by
  interval_cases value <;> decide

end Nibbles

namespace Packet

variable {pkt : Packet} {before after : List UInt8}

section Blocks

theorem Holds.getWord8
    (char : CharType) {high low : Nat} (highSmall : high < 16) (lowSmall : low < 16)
    (holds : pkt.Holds before (nibble high :: nibble low :: after)) :
    ∃ next, pkt.getWord8 char = (some (high * 16 + low).toUInt8, next) ∧
      next.Holds (before ++ [nibble high] ++ [nibble low]) after ∧
      next.seq = pkt.seq := by
  obtain ⟨middle, first, behind, seq⟩ :=
    holds.getRawChar_plain char (nibble_plain highSmall).1 0
  obtain ⟨next, second, last, seq'⟩ :=
    behind.getRawChar_plain char (nibble_plain lowSmall).1 0
  refine ⟨next, ?_, last, seq'.trans seq⟩
  unfold Packet.getWord8
  simp only [first, second, if_true, nibbleToInt_nibble highSmall,
    nibbleToInt_nibble lowSmall]

theorem Holds.getBlock
    (char : CharType) {block : List UInt8}
    (holds : pkt.Holds before (blockText block ++ after)) :
    ∃ next, pkt.getBlock char block.length = (block, true, next) ∧
      next.Holds (before ++ blockText block) after ∧ next.seq = pkt.seq := by
  induction block generalizing pkt before with
  | nil =>
      refine ⟨pkt, rfl, ?_, rfl⟩
      rw [show blockText [] = [] from rfl, List.append_nil]
      exact holds
  | cons byte block ih =>
      have small := byte.toNat_lt
      obtain ⟨middle, read, behind, seq⟩ := Holds.getWord8 char
        (show byte.toNat / 16 < 16 by omega) (Nat.mod_lt _ (by decide)) holds
      obtain ⟨next, rest, last, seq'⟩ := ih behind
      have whole : (byte.toNat / 16 * 16 + byte.toNat % 16).toUInt8 = byte := by
        rw [Nat.div_add_mod']
        exact UInt8.ofNat_toNat
      refine ⟨next, ?_, ?_, seq'.trans seq⟩
      · rw [List.length_cons, Packet.getBlock, read]
        simp only [rest, whole]
      · have text : blockText (byte :: block) =
            [nibble (byte.toNat / 16)] ++ [nibble (byte.toNat % 16)] ++
              blockText block := rfl
        rw [text, ← List.append_assoc, ← List.append_assoc]
        exact last

end Blocks

section Numbers

def lowValue : List Nat → Nat
  | [] => 0
  | digit :: digits => digit + 16 * lowValue digits

/-- The nibbles that `AddNumberSep` takes from at most `bytes` bytes. -/
def nibbleValues : (bytes : Nat) → Nat → List Nat
  | 0, _ => []
  | bytes + 1, val =>
      val % 256 % 16 :: val % 256 / 16 ::
        if val / 256 = 0 then [] else nibbleValues bytes (val / 256)

theorem nibbles_eq (bytes val : Nat) :
    nibbles bytes val = (nibbleValues bytes val).map nibble := by
  induction bytes generalizing val with
  | zero => rfl
  | succ bytes ih =>
      unfold nibbles nibbleValues
      rw [List.map_cons, List.map_cons]
      by_cases done : val / 256 = 0
      · rw [if_pos done, if_pos done]
        rfl
      · rw [if_neg done, if_neg done, ih]

theorem nibbleValues_spec
    {bytes val : Nat} (small : val < 256 ^ bytes) :
    lowValue (nibbleValues bytes val) = val ∧
      ∀ digit ∈ nibbleValues bytes val, digit < 16 := by
  induction bytes generalizing val with
  | zero =>
      rw [Nat.pow_zero] at small
      refine ⟨?_, fun _ member => absurd member List.not_mem_nil⟩
      simp only [nibbleValues, lowValue]
      omega
  | succ bytes ih =>
      have rest : val / 256 < 256 ^ bytes := by
        rw [Nat.pow_succ] at small
        omega
      obtain ⟨value, digits⟩ := ih rest
      unfold nibbleValues
      by_cases done : val / 256 = 0
      · rw [if_pos done]
        refine ⟨?_, ?_⟩
        · simp only [lowValue]
          omega
        · intro digit member
          simp only [List.mem_cons, List.not_mem_nil, or_false] at member
          omega
      · rw [if_neg done]
        refine ⟨?_, ?_⟩
        · simp only [lowValue, value]
          omega
        · intro digit member
          simp only [List.mem_cons] at member
          rcases member with low | high | later
          · omega
          · omega
          · exact digits digit later

theorem lowValue_append (front back : List Nat) :
    lowValue (front ++ back) =
      lowValue front + 16 ^ front.length * lowValue back := by
  induction front with
  | nil => simp [lowValue]
  | cons digit front ih =>
      rw [List.cons_append, lowValue, lowValue, ih, List.length_cons,
        Nat.pow_succ]
      ring

theorem length_nibbleValues (bytes val : Nat) :
    1 < (nibbleValues (bytes + 1) val).length ∧
      (nibbleValues (bytes + 1) val).length ≤ 2 * (bytes + 1) := by
  induction bytes generalizing val with
  | zero =>
      unfold nibbleValues
      split <;> simp [nibbleValues]
  | succ bytes ih =>
      have rest := ih (val / 256)
      unfold nibbleValues
      split
      next => simp
      next =>
        rw [List.length_cons, List.length_cons]
        omega

theorem nibble_eq_zero {value : Nat} (small : value < 16) :
    nibble value = ascii '0' ↔ value = 0 := by
  interval_cases value <;> decide

theorem numberText_spec {val : Nat} (small : val < 2 ^ 64) :
    ∃ first digits, numberText val = (first :: digits).map nibble ∧
      (∀ digit ∈ first :: digits, digit < 16) ∧
      lowValue (first :: digits).reverse = val ∧ digits.length < 16 := by
  obtain ⟨value, digitsSmall⟩ := @nibbleValues_spec 8 val small
  obtain ⟨notShort, notLong⟩ := length_nibbleValues 7 val
  -- The digits that are written, the lowest first.
  obtain ⟨written, text, writtenSmall, writtenValue, positive, most⟩ :
      ∃ written, numberText val = (written.map nibble).reverse ∧
        (∀ digit ∈ written, digit < 16) ∧ lowValue written = val ∧
        0 < written.length ∧ written.length ≤ 16 := by
    unfold numberText
    rw [nibbles_eq]
    dsimp only
    split
    next zero =>
      rw [List.getLast?_map, Option.map_eq_some_iff] at zero
      obtain ⟨-, last, isLast, isZero⟩ := zero
      obtain ⟨front, parts⟩ := List.getLast?_eq_some_iff.mp isLast
      have lastZero : last = 0 :=
        (nibble_eq_zero (digitsSmall last
          (List.mem_of_getLast? isLast))).mp isZero
      rw [parts] at value digitsSmall notShort notLong ⊢
      rw [List.length_append, List.length_singleton] at notShort notLong
      refine ⟨front, ?_, ?_, ?_, by omega, by omega⟩
      · rw [List.map_append, List.map_singleton, List.dropLast_concat]
      · intro digit member
        exact digitsSmall digit (List.mem_append_left _ member)
      · rw [lowValue_append, lastZero] at value
        simpa [lowValue] using value
    next =>
      exact ⟨nibbleValues 8 val, rfl, digitsSmall, value,
        Nat.zero_lt_of_lt notShort, notLong⟩
  cases reversed : written.reverse with
  | nil =>
      rw [List.reverse_eq_nil_iff] at reversed
      rw [reversed] at positive
      cases positive
  | cons first digits =>
      have length := congrArg List.length reversed
      rw [List.length_reverse, List.length_cons] at length
      refine ⟨first, digits, ?_, ?_, ?_, by omega⟩
      · rw [text, ← List.map_reverse, reversed]
      · intro digit member
        rw [← reversed, List.mem_reverse] at member
        exact writtenSmall digit member
      · rw [← reversed, List.reverse_reverse, writtenValue]

/-- The sum that the loop of `GetNumberSep` makes of digits. -/
def sumOfDigits (out : Nat) (digits : List Nat) : Nat :=
  digits.foldl (fun out digit => (out * 16 + digit) % 2 ^ 64) out

theorem sumOfDigits_modEq (out : Nat) (digits : List Nat) :
    sumOfDigits out digits ≡
      out * 16 ^ digits.length + lowValue digits.reverse [MOD 2 ^ 64] := by
  induction digits generalizing out with
  | nil => simp [sumOfDigits, lowValue, Nat.ModEq]
  | cons digit digits ih =>
      have first : (out * 16 + digit) % 2 ^ 64 ≡ out * 16 + digit
          [MOD 2 ^ 64] := Nat.mod_modEq _ _
      have regrouped : out * 16 ^ (digit :: digits).length +
          lowValue (digit :: digits).reverse =
          (out * 16 + digit) * 16 ^ digits.length +
            lowValue digits.reverse := by
        rw [List.reverse_cons, lowValue_append, List.length_cons,
          List.length_reverse, Nat.pow_succ, lowValue, lowValue]
        ring
      rw [regrouped]
      exact (ih _).trans ((first.mul_right _).add_right _)

theorem sumOfDigits_lt (out : Nat) (digit : Nat) (digits : List Nat) :
    sumOfDigits out (digit :: digits) < 2 ^ 64 := by
  induction digits generalizing out digit with
  | nil => exact Nat.mod_lt _ (by decide)
  | cons next digits ih => exact ih _ next

theorem sumOfDigits_eq
    {val digit : Nat} {digits : List Nat} (small : val < 2 ^ 64)
    (value : lowValue (digit :: digits).reverse = val) :
    sumOfDigits 0 (digit :: digits) = val := by
  have same := sumOfDigits_modEq 0 (digit :: digits)
  rw [Nat.zero_mul, Nat.zero_add, value] at same
  exact same.eq_of_lt_of_lt (sumOfDigits_lt 0 digit digits) small

/-- The separator that `AddNumberSep` writes. -/
def sepText (sep : UInt8) : List UInt8 := if sep = 0 then [] else [sep]

structure Separates (sep : UInt8) (more : List UInt8) : Prop where
  noDigit : nibbleToInt sep = none
  noStar : sep ≠ ascii '*'
  last : sep = 0 → more = []

theorem Holds.getRawChar_sep
    (char : CharType) {sep : UInt8} {more : List UInt8}
    (separates : Separates sep more)
    (holds : pkt.Holds before (sepText sep ++ more)) :
    ∃ ok next before', pkt.getRawChar char 0 = ⟨ok, sep, next⟩ ∧
      next.Holds before' more ∧ next.seq = pkt.seq := by
  by_cases none : sep = 0
  · have ended := separates.last none
    subst none ended
    exact ⟨_, _, before, holds.getRawChar_end char 0, holds, rfl⟩
  · rw [sepText, if_neg none] at holds
    obtain ⟨next, read, after, seq⟩ :=
      holds.getRawChar_plain char separates.noStar 0
    exact ⟨_, next, _, read, after, seq⟩

theorem Holds.numberLoop
    (char : CharType) {sep : UInt8} {more : List UInt8}
    (separates : Separates sep more)
    {out digit : Nat} {digits : List Nat}
    (small : ∀ value ∈ digit :: digits, value < 16)
    (holds : pkt.Holds before (digits.map nibble ++ (sepText sep ++ more)))
    {fuel : Nat} (enough : digits.length + 2 ≤ fuel) :
    ∃ next before',
      runLoop (numberTurn char) fuel ⟨out, nibble digit, pkt⟩ =
        some ⟨sumOfDigits out (digit :: digits), sep, next⟩ ∧
      next.Holds before' more ∧ next.seq = pkt.seq := by
  have isDigit := nibbleToInt_nibble (small digit List.mem_cons_self)
  induction digits generalizing out digit pkt before fuel with
  | nil =>
      obtain ⟨fuel, rfl⟩ : ∃ rest, fuel = rest + 2 := ⟨fuel - 2, by grind⟩
      obtain ⟨ok, next, before', read, after, seq⟩ :=
        Holds.getRawChar_sep char separates holds
      refine ⟨next, before', ?_, after, seq⟩
      rw [runLoop, numberTurn, isDigit]
      dsimp only
      rw [read]
      cases ok with
      | false => rfl
      | true =>
          -- The separator ends the loop in another turn.
          dsimp only
          rw [if_pos rfl]
          dsimp only
          rw [runLoop, numberTurn]
          dsimp only
          rw [separates.noDigit]
          rfl
  | cons following digits ih =>
      obtain ⟨fuel, rfl⟩ : ∃ rest, fuel = rest + 1 := ⟨fuel - 1, by grind⟩
      have followingSmall := small following (by simp)
      obtain ⟨middle, read, behind, seq⟩ :=
        holds.getRawChar_plain char (nibble_plain followingSmall).1 0
      obtain ⟨next, before', rest, after, seq'⟩ := @ih _ _
        ((out * 16 + digit) % 2 ^ 64) following
        (fun value member => small value (List.mem_cons_of_mem _ member))
        behind fuel (by grind) (nibbleToInt_nibble followingSmall)
      refine ⟨next, before', ?_, after, seq'.trans seq⟩
      rw [runLoop, numberTurn, isDigit]
      dsimp only
      rw [read]
      dsimp only
      rw [if_pos rfl]
      exact rest

theorem Holds.getNumberSep
    (char : CharType) {val : Nat} {sep : UInt8} {more : List UInt8}
    (small : val < 2 ^ 64) (separates : Separates sep more)
    (holds : pkt.Holds before (numberSepText val sep ++ more)) :
    ∃ next before', pkt.getNumberSep char = ⟨some (val, sep), next⟩ ∧
      next.Holds before' more ∧ next.seq = pkt.seq := by
  unfold numberSepText at holds
  rw [List.append_assoc] at holds
  by_cases all : val = 2 ^ 64 - 1
  · rw [if_pos all] at holds
    obtain ⟨first, read, behind, seq⟩ :=
      holds.getRawChar_plain char (by decide) 0
    obtain ⟨second, read', behind', seq'⟩ :=
      behind.getRawChar_plain char (by decide) (ascii '-')
    obtain ⟨ok, next, before', read'', after, seq''⟩ :=
      Holds.getRawChar_sep char separates behind'
    refine ⟨next, before', ?_, after, seq''.trans (seq'.trans seq)⟩
    unfold Packet.getNumberSep
    simp only [read, read', read'', Bool.not_true, Bool.false_eq_true,
      if_false, if_true, all]
  · rw [if_neg all] at holds
    obtain ⟨first, digits, text, digitsSmall, value, most⟩ :=
      numberText_spec small
    rw [text, List.map_cons, List.cons_append] at holds
    have plain := nibble_plain (digitsSmall first List.mem_cons_self)
    obtain ⟨middle, read, behind, seq⟩ :=
      holds.getRawChar_plain char plain.1 0
    have turns : digits.length + 2 ≤ 256 * pkt.data.length := by
      have inside := holds.valid.write
      omega
    obtain ⟨next, before', loop, after, seq'⟩ := @Holds.numberLoop _ _ char
      _ _ separates 0 first digits digitsSmall behind _ turns
    refine ⟨next, before', ?_, after, seq'.trans seq⟩
    rw [sumOfDigits_eq small value] at loop
    unfold Packet.getNumberSep
    simp only [read, Bool.not_true, Bool.false_eq_true, if_false,
      if_neg plain.2, loop]

end Numbers

section RoundTrips

theorem Valid.holds_addString
    (valid : pkt.Valid) (nothing : pkt.unread = []) (str : List UInt8) :
    (pkt.addString str).Holds (pkt.data.take pkt.readIndex) str := by
  have holds := valid.holds.addString str
  rw [nothing, List.nil_append] at holds
  exact holds

theorem addString_append (pkt : Packet) (front back : List UInt8) :
    (pkt.addString front).addString back = pkt.addString (front ++ back) := by
  unfold Packet.addString
  rw [List.foldl_append]

theorem getRawChars_expand
    (char : CharType) (pkt : Packet) (chars : List UInt8) :
    (∀ count ≤ (expand char none chars).length, ∃ next,
      (pkt.clear.addString chars).getRawChars char count =
        some ((expand char none chars).take count, next) ∧
      next.Valid ∧
      ∃ last run place,
        next.unread = filling last run ++ chars.drop place ∧
        (expand char none chars).drop count =
          filling last run ++ expand char last (chars.drop place)) ∧
      ∃ next,
        (pkt.clear.addString chars).getRawChars char
          (expand char none chars).length =
            some (expand char none chars, next) ∧
        ∀ old, (next.getRawChar char old).ok = false := by
  have start := @reading_start char pkt chars
  refine ⟨fun count enough => ?_, ?_⟩
  · obtain ⟨next, read, reading⟩ := start.getRawChars enough
    exact ⟨next, read, reading.valid, reading.unread⟩
  · obtain ⟨next, read, reading⟩ := start.getRawChars (Nat.le_refl _)
    rw [List.take_length] at read
    rw [List.drop_length] at reading
    exact ⟨next, read, reading.stop⟩

variable (char : CharType) (more : List UInt8)

theorem getNumberSep_addNumberSep
    (valid : pkt.Valid) (nothing : pkt.unread = [])
    {val : Nat} {sep : UInt8} (small : val < 2 ^ 64)
    (separates : Separates sep more) :
    ∃ next, ((pkt.addNumberSep val sep).addString more).getNumberSep char =
        ⟨some (val, sep), next⟩ ∧ next.Valid ∧ next.unread = more := by
  rw [addNumberSep_eq, addString_append]
  obtain ⟨next, before, read, after, -⟩ := Holds.getNumberSep char small
    separates (valid.holds_addString nothing _)
  exact ⟨next, read, after.valid, after.unread_eq⟩

theorem getBlock_addBlock
    (valid : pkt.Valid) (nothing : pkt.unread = []) (block : List UInt8) :
    ∃ next, ((pkt.addBlock block).addString more).getBlock char block.length =
        (block, true, next) ∧ next.Valid ∧ next.unread = more := by
  rw [addBlock_eq, addString_append]
  obtain ⟨next, read, after, -⟩ := Holds.getBlock char
    (valid.holds_addString nothing _)
  exact ⟨next, read, after.valid, after.unread_eq⟩

theorem getWord_addWord
    (valid : pkt.Valid) (nothing : pkt.unread = [])
    {size value : Nat} (small : value < 256 ^ size) :
    ∃ next, ((pkt.addWord size value).addString more).getWord char size =
        (some value, next) ∧ next.Valid ∧ next.unread = more := by
  obtain ⟨next, read, after⟩ :=
    getBlock_addBlock char more valid nothing (littleEndian size value)
  rw [length_littleEndian] at read
  refine ⟨next, ?_, after⟩
  unfold getWord addWord
  rw [read]
  dsimp only
  rw [if_pos rfl, ofLittleEndian_littleEndian small]

theorem getWord8_addWord8
    (valid : pkt.Valid) (nothing : pkt.unread = []) (byte : UInt8) :
    ∃ next, ((pkt.addWord8 byte).addString more).getWord8 char =
        (some byte, next) ∧ next.Valid ∧ next.unread = more := by
  obtain ⟨next, read, after⟩ :=
    getBlock_addBlock char more valid nothing [byte]
  refine ⟨next, ?_, after⟩
  unfold Packet.addBlock at read
  rw [List.foldl_cons, List.foldl_nil] at read
  rw [List.length_singleton, Packet.getBlock] at read
  cases word : ((pkt.addWord8 byte).addString more).getWord8 char with
  | mk first packet =>
      rw [word] at read
      cases first with
      | none => cases read
      | some first =>
          simp only [Packet.getBlock, Prod.mk.injEq, List.cons.injEq, and_true,
            true_and] at read
          rw [read.1, read.2]

/-- Reading a packet expands its runs, up to the first that is malformed, and
what is written as a number, a word or a block is read back. -/
theorem packet_decoding (char : CharType) :
    (∀ (pkt : Packet) (chars : List UInt8),
      (∀ count ≤ (expand char none chars).length, ∃ next,
        (pkt.clear.addString chars).getRawChars char count =
          some ((expand char none chars).take count, next) ∧
        next.Valid ∧
        ∃ last run place,
          next.unread = filling last run ++ chars.drop place ∧
          (expand char none chars).drop count =
            filling last run ++ expand char last (chars.drop place)) ∧
      ∃ next,
        (pkt.clear.addString chars).getRawChars char
          (expand char none chars).length =
            some (expand char none chars, next) ∧
        ∀ old, (next.getRawChar char old).ok = false) ∧
    ∀ pkt : Packet, pkt.Valid → pkt.unread = [] →
      (∀ val sep more, val < 2 ^ 64 → Separates sep more →
        ∃ next, ((pkt.addNumberSep val sep).addString more).getNumberSep char =
            ⟨some (val, sep), next⟩ ∧ next.Valid ∧ next.unread = more) ∧
      (∀ size value more, value < 256 ^ size →
        ∃ next, ((pkt.addWord size value).addString more).getWord char size =
            (some value, next) ∧ next.Valid ∧ next.unread = more) ∧
      (∀ byte more,
        ∃ next, ((pkt.addWord8 byte).addString more).getWord8 char =
            (some byte, next) ∧ next.Valid ∧ next.unread = more) ∧
      ∀ block more,
        ∃ next, ((pkt.addBlock block).addString more).getBlock char
            block.length = (block, true, next) ∧
          next.Valid ∧ next.unread = more := by
  refine ⟨getRawChars_expand char, fun pkt valid nothing => ⟨?_, ?_, ?_, ?_⟩⟩
  · intro val sep more small separates
    exact getNumberSep_addNumberSep char more valid nothing small separates
  · intro size value more small
    exact getWord_addWord char more valid nothing small
  · intro byte more
    exact getWord8_addWord8 char more valid nothing byte
  · intro block more
    exact getBlock_addBlock char more valid nothing block

theorem packet_decoding_number :
    ∃ next, ((Packet.empty.addNumberSep 4660 (ascii ',')).addString
        []).getNumberSep .signed = ⟨some (4660, ascii ','), next⟩ ∧
      next.Valid ∧ next.unread = [] := by
  have holds := holds_clear ⟨-1, [], 0, 0⟩
  exact ((packet_decoding .signed).2 Packet.empty holds.valid
    holds.unread_eq).1 4660 (ascii ',') [] (by decide)
      ⟨by decide, by decide, by decide⟩

end RoundTrips

end Packet

end NativeClient.Gdb
