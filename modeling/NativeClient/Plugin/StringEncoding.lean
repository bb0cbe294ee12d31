import NativeClient.Library.Loop
import NativeClient.Library.Utf8
import Mathlib.Tactic.Ring

/-!
# Byte strings as UTF-8

Byte strings are encoded for the browser, and decoded when they come back.
The output goes to a block from `malloc`; a byte that is written outside of it,
or read outside of the input, is a fault.
-/

namespace NativeClient.Plugin

open NativeClient.Library

/-- `sizeBits` are the bits of a `size_t`; `malloc` tells whether there is a
block of a size. -/
structure Platform where
  sizeBits : Nat
  malloc : Nat → Bool

structure ByteString (sizeBits : Nat) where
  bytes : List UInt8
  fits : bytes.length + 1 < 2 ^ sizeBits

structure Output where
  size : Nat
  written : List UInt8

def Output.put (output : Output) (ch : UInt8) : Option Output :=
  if output.written.length < output.size then
    some { output with written := output.written ++ [ch] }
  else none

/-- How a function ends: by a fault, with `false`, or with a result, without
its terminator. -/
inductive Outcome where
  | fault
  | failed
  | returned (bytes : List UInt8)

def Output.finish (output : Output) : Outcome :=
  if output.written.length < output.size then .returned output.written
  else .fault

structure LoopState where
  index : Nat
  output : Output

section Encoding

/-- What `ByteStringAsUTF8` writes for a character. -/
def putEncoded (output : Output) (ch : UInt8) : Option Output :=
  if ch < 128 then output.put ch
  else (output.put ((0xc0 : UInt8) ||| (ch >>> 6))).bind fun output =>
    output.put ((0x80 : UInt8) ||| (ch &&& 0x3f))

def asTurn (input : List UInt8) (state : LoopState) :
    Turn LoopState Outcome :=
  if state.index < input.length then
    match input[state.index]? with
    | none => .leave .fault
    | some ch =>
        match putEncoded state.output ch with
        | none => .leave .fault
        | some output => .again ⟨state.index + 1, output⟩
  else .leave state.output.finish

def byteStringAsUTF8 (platform : Platform) (input : List UInt8) : Outcome :=
  let maxOutputSize := input.length * 2 % 2 ^ platform.sizeBits
  let size := (maxOutputSize + 1) % 2 ^ platform.sizeBits
  if platform.malloc size then
    (runLoop (asTurn input) (input.length + 1) ⟨0, ⟨size, []⟩⟩).getD .fault
  else .failed

end Encoding

section Decoding

def fromTurn (input : List UInt8) (state : LoopState) :
    Turn LoopState Outcome :=
  if state.index < input.length then
    match input[state.index]? with
    | none => .leave .fault
    | some ch =>
        if ch &&& 0x80 = 0 then
          match state.output.put ch with
          | none => .leave .fault
          | some output => .again ⟨state.index + 1, output⟩
        else if state.index = input.length - 1 then .leave .failed
        else
          match input[state.index + 1]? with
          | none => .leave .fault
          | some ch2 =>
              if ch &&& 0xe0 ≠ 0xc0 then .leave .failed
              else if ch2 &&& 0xc0 ≠ 0x80 then .leave .failed
              else
                let value : UInt32 :=
                  ((ch.toUInt32 &&& 0x1f) <<< 6) ||| (ch2.toUInt32 &&& 0x3f)
                if value < 128 then .leave .failed
                else if value ≥ 0x100 then .leave .failed
                else
                  match state.output.put value.toUInt8 with
                  | none => .leave .fault
                  | some output => .again ⟨state.index + 2, output⟩
  else .leave state.output.finish

def byteStringFromUTF8 (platform : Platform) (input : List UInt8) : Outcome :=
  let size := (input.length + 1) % 2 ^ platform.sizeBits
  if platform.malloc size then
    (runLoop (fromTurn input) (input.length + 1) ⟨0, ⟨size, []⟩⟩).getD .fault
  else .failed

end Decoding

section Encodes

theorem Output.put_eq_some
    {output : Output} (room : output.written.length < output.size) (ch : UInt8) :
    output.put ch = some { output with written := output.written ++ [ch] } := by
  unfold Output.put
  rw [if_pos room]

theorem encoded_eq {ch : UInt8} (large : ¬ ch < 128) :
    utf8Byte ch =
      [(0xc0 : UInt8) ||| (ch >>> 6), (0x80 : UInt8) ||| (ch &&& 0x3f)] := by
  revert ch
  apply forall_byte
  decide +kernel

theorem putEncoded_eq_some
    {output : Output} {ch : UInt8}
    (room : output.written.length + (utf8Byte ch).length ≤ output.size) :
    putEncoded output ch =
      some { output with written := output.written ++ utf8Byte ch } := by
  unfold putEncoded
  by_cases small : ch < 128
  · rw [utf8Byte_small small] at room ⊢
    rw [if_pos small]
    exact Output.put_eq_some (Nat.lt_of_succ_le room) ch
  · rw [encoded_eq small] at room ⊢
    rw [if_neg small]
    simp only [List.length_cons, List.length_nil] at room
    have second : (output.written ++ [(0xc0 : UInt8) ||| (ch >>> 6)]).length <
        output.size := by
      rw [List.length_append, List.length_singleton]
      omega
    rw [Output.put_eq_some (by omega), Option.bind_some,
      Output.put_eq_some second]
    simp

theorem putEncoded_eq_none
    {output : Output} {ch : UInt8}
    (full : output.size < output.written.length + (utf8Byte ch).length) :
    putEncoded output ch = none := by
  unfold putEncoded Output.put
  by_cases small : ch < 128
  · rw [utf8Byte_small small, List.length_singleton] at full
    rw [if_pos small, if_neg (by omega)]
  · rw [encoded_eq small] at full
    simp only [List.length_cons, List.length_nil] at full
    rw [if_neg small]
    by_cases room : output.written.length < output.size
    · rw [if_pos room, Option.bind_some]
      dsimp only
      rw [if_neg (by rw [List.length_append, List.length_singleton]; omega)]
    · rw [if_neg room]
      rfl

theorem asLoop_eq
    {input before rest : List UInt8} (parts : input = before ++ rest)
    (output : Output) {fuel : Nat} (enough : rest.length < fuel) :
    runLoop (asTurn input) fuel ⟨before.length, output⟩ =
      some (if output.written.length + (utf8 rest).length < output.size then
        .returned (output.written ++ utf8 rest) else .fault) := by
  induction rest generalizing before output fuel with
  | nil =>
      obtain ⟨fuel, rfl⟩ : ∃ less, fuel = less + 1 := ⟨fuel - 1, by grind⟩
      have ends : ¬ before.length < input.length := by
        rw [parts, List.append_nil]
        exact Nat.lt_irrefl _
      rw [runLoop, asTurn]
      dsimp only
      rw [if_neg ends]
      simp only [utf8_nil, List.length_nil, Nat.add_zero, List.append_nil]
      rfl
  | cons ch rest ih =>
      obtain ⟨fuel, rfl⟩ : ∃ less, fuel = less + 1 := ⟨fuel - 1, by grind⟩
      have inside : before.length < input.length := by
        rw [parts, List.length_append, List.length_cons]
        omega
      have here : input[before.length]? = some ch := by
        rw [parts, List.getElem?_append_right (Nat.le_refl _), Nat.sub_self]
        rfl
      rw [runLoop, asTurn]
      dsimp only
      rw [if_pos inside, here]
      dsimp only
      rw [utf8_cons, List.length_append]
      by_cases room : output.written.length + (utf8Byte ch).length ≤ output.size
      · rw [putEncoded_eq_some room]
        dsimp only
        have next := @ih (before ++ [ch])
          (by rw [parts, List.append_assoc]; rfl)
          { output with written := output.written ++ utf8Byte ch } fuel
          (show rest.length < fuel by
            rw [List.length_cons] at enough
            omega)
        rw [List.length_append, List.length_singleton] at next
        rw [next]
        dsimp only
        rw [List.length_append, List.append_assoc, Nat.add_assoc]
      · rw [putEncoded_eq_none (Nat.not_le.mp room), if_neg (by omega)]

end Encodes

section Decodes

def decode : List UInt8 → Option (List UInt8)
  | [] => some []
  | [ch] => if ch < 128 then some [ch] else none
  | ch :: ch2 :: rest =>
      if ch < 128 then (decode (ch2 :: rest)).map fun text => ch :: text
      else if TwoBytes ch ch2 then
        (decode rest).map fun text => UInt8.ofNat (twoByteValue ch ch2) :: text
      else none

theorem decode_small {ch : UInt8} (small : ch < 128) (rest : List UInt8) :
    decode (ch :: rest) = (decode rest).map fun text => ch :: text := by
  cases rest with
  | nil => simp [decode, small]
  | cons ch2 rest => rw [decode, if_pos small]

theorem decode_large
    {ch ch2 : UInt8} (large : ¬ ch < 128) (rest : List UInt8) :
    decode (ch :: ch2 :: rest) =
      if TwoBytes ch ch2 then
        (decode rest).map fun text => UInt8.ofNat (twoByteValue ch ch2) :: text
      else none := by
  rw [decode, if_neg large]

theorem decode_utf8 (text : List UInt8) : decode (utf8 text) = some text := by
  induction text with
  | nil => rfl
  | cons byte text ih =>
      rw [utf8_cons]
      by_cases small : byte < 128
      · rw [utf8Byte_small small, List.singleton_append, decode_small small, ih]
        rfl
      · obtain ⟨lead, tail, bytes, twoBytes, value⟩ := twoBytes_utf8Byte small
        have notSmall : ¬ lead < 128 := by
          rcases twoBytes.1 with rfl | rfl
          · decide
          · decide
        rw [bytes, List.cons_append, List.singleton_append,
          decode_large notSmall, if_pos twoBytes, ih, value, Option.map_some,
          UInt8.ofNat_toNat]

theorem decode_eq_some {input text : List UInt8} :
    decode input = some text ↔ utf8 text = input := by
  refine ⟨fun decoded => ?_, fun same => same ▸ decode_utf8 text⟩
  induction input using decode.induct generalizing text with
  | case1 =>
      cases decoded
      rfl
  | case2 ch small =>
      rw [decode_small small] at decoded
      cases decoded
      rw [utf8_cons, utf8Byte_small small]
      rfl
  | case3 ch large => simp [decode, large] at decoded
  | case4 ch ch2 rest small ih =>
      rw [decode_small small] at decoded
      obtain ⟨later, found, rfl⟩ := Option.map_eq_some_iff.mp decoded
      rw [utf8_cons, utf8Byte_small small, ih found]
      rfl
  | case5 ch ch2 rest large twoBytes ih =>
      rw [decode_large large, if_pos twoBytes] at decoded
      obtain ⟨later, found, rfl⟩ := Option.map_eq_some_iff.mp decoded
      rw [utf8_cons, (utf8Byte_twoByteValue twoBytes).2, ih found]
      rfl
  | case6 ch ch2 rest large notTwo =>
      rw [decode_large large, if_neg notTwo] at decoded
      cases decoded

section Tests

theorem highBit_eq_zero (ch : UInt8) : ch &&& 0x80 = 0 ↔ ch < 128 := by
  revert ch
  apply forall_byte
  decide +kernel

theorem leadBits_iff (ch : UInt8) :
    ch &&& 0xe0 = 0xc0 ↔ ch.toNat / 32 = 6 := by
  revert ch
  apply forall_byte
  decide +kernel

theorem tailBits_iff (ch : UInt8) :
    ch &&& 0xc0 = 0x80 ↔ 128 ≤ ch ∧ ch < 192 := by
  revert ch
  apply forall_byte
  decide +kernel

theorem leadValue (ch : UInt8) :
    (ch.toUInt32 &&& 0x1f).toNat = ch.toNat % 32 := by
  revert ch
  apply forall_byte
  decide +kernel

theorem tailValue (ch : UInt8) :
    (ch.toUInt32 &&& 0x3f).toNat = ch.toNat % 64 := by
  revert ch
  apply forall_byte
  decide +kernel

theorem toNat_value (ch ch2 : UInt8) :
    (((ch.toUInt32 &&& 0x1f) <<< 6) ||| (ch2.toUInt32 &&& 0x3f)).toNat =
      ch.toNat % 32 * 64 + ch2.toNat % 64 := by
  have shifted : ((ch.toUInt32 &&& 0x1f) <<< 6).toNat =
      (ch.toNat % 32) <<< 6 := by
    rw [UInt32.toNat_shiftLeft, leadValue]
    apply Nat.mod_eq_of_lt
    rw [Nat.shiftLeft_eq]
    change ch.toNat % 32 * 2 ^ 6 < 2 ^ 32
    omega
  have low : ch2.toNat % 64 < 2 ^ 6 := Nat.mod_lt _ (by decide)
  rw [UInt32.toNat_or, shifted, tailValue, ← Nat.shiftLeft_add_eq_or_of_lt low,
    Nat.shiftLeft_eq]

end Tests

theorem tests_iff (ch ch2 : UInt8) :
    (ch &&& 0xe0 = 0xc0 ∧ ch2 &&& 0xc0 = 0x80 ∧
      128 ≤ ch.toNat % 32 * 64 + ch2.toNat % 64 ∧
      ch.toNat % 32 * 64 + ch2.toNat % 64 < 256) ↔ TwoBytes ch ch2 := by
  have leads : (ch = 194 ∨ ch = 195) ↔ ch.toNat = 194 ∨ ch.toNat = 195 := by
    rw [← UInt8.toNat_inj, ← UInt8.toNat_inj]
    rfl
  have tails : (128 ≤ ch2 ∧ ch2 < 192) ↔
      128 ≤ ch2.toNat ∧ ch2.toNat < 192 := by
    rw [UInt8.le_iff_toNat_le, UInt8.lt_iff_toNat_lt]
    rfl
  rw [leadBits_iff, tailBits_iff]
  unfold TwoBytes
  rw [leads, tails]
  omega

theorem value_eq {ch ch2 : UInt8} (twoBytes : TwoBytes ch ch2) :
    ch.toNat % 32 * 64 + ch2.toNat % 64 = twoByteValue ch ch2 := by
  unfold twoByteValue
  rcases twoBytes.1 with rfl | rfl
  · rfl
  · rfl

section Turns

variable {input : List UInt8} {index : Nat} {output : Output} {ch : UInt8}

theorem fromTurn_small
    (here : input[index]? = some ch) (small : ch < 128)
    (room : output.written.length < output.size) :
    fromTurn input ⟨index, output⟩ =
      .again ⟨index + 1, { output with written := output.written ++ [ch] }⟩ := by
  have inside := (List.getElem?_eq_some_iff.mp here).1
  unfold fromTurn
  dsimp only
  rw [if_pos inside, here]
  dsimp only
  rw [if_pos ((highBit_eq_zero ch).mpr small), Output.put_eq_some room]

theorem fromTurn_last
    (here : input[index]? = some ch) (large : ¬ ch < 128)
    (last : index + 1 = input.length) :
    fromTurn input ⟨index, output⟩ = .leave .failed := by
  unfold fromTurn
  dsimp only
  rw [if_pos (by omega), here]
  dsimp only
  rw [if_neg (fun zero => large ((highBit_eq_zero ch).mp zero)),
    if_pos (by omega)]

theorem fromTurn_two
    {ch2 : UInt8} (here : input[index]? = some ch)
    (there : input[index + 1]? = some ch2) (large : ¬ ch < 128)
    (room : output.written.length < output.size) :
    fromTurn input ⟨index, output⟩ =
      if TwoBytes ch ch2 then
        .again ⟨index + 2, { output with
          written :=
            output.written ++ [UInt8.ofNat (twoByteValue ch ch2)] }⟩
      else .leave .failed := by
  have inside := (List.getElem?_eq_some_iff.mp there).1
  have tests := tests_iff ch ch2
  unfold fromTurn
  dsimp only
  rw [if_pos (by omega), here]
  dsimp only
  rw [if_neg (fun zero => large ((highBit_eq_zero ch).mp zero)),
    if_neg (by omega), there]
  dsimp only
  generalize valueEq : (((ch.toUInt32 &&& 0x1f) <<< 6) |||
    (ch2.toUInt32 &&& 0x3f) : UInt32) = value
  have valueNat : value.toNat = ch.toNat % 32 * 64 + ch2.toNat % 64 := by
    rw [← valueEq]
    exact toNat_value ch ch2
  have least : value < 128 ↔ value.toNat < 128 := UInt32.lt_iff_toNat_lt
  have most : value ≥ 0x100 ↔ 256 ≤ value.toNat := UInt32.le_iff_toNat_le
  by_cases twoBytes : TwoBytes ch ch2
  · obtain ⟨lead, tail, above, below⟩ := tests.mpr twoBytes
    have byte : value.toUInt8 = UInt8.ofNat (twoByteValue ch ch2) := by
      rw [← value_eq twoBytes, ← valueNat]
      rfl
    rw [if_pos twoBytes, if_neg (not_not_intro lead),
      if_neg (not_not_intro tail), if_neg (by rw [least]; omega),
      if_neg (by rw [most]; omega), Output.put_eq_some room, byte]
  · rw [if_neg twoBytes]
    by_cases lead : ch &&& 0xe0 = 0xc0
    · rw [if_neg (not_not_intro lead)]
      by_cases tail : ch2 &&& 0xc0 = 0x80
      · rw [if_neg (not_not_intro tail)]
        by_cases small : value < 128
        · rw [if_pos small]
        · rw [if_neg small, if_pos]
          rw [most]
          rw [least] at small
          by_contra below
          exact twoBytes (tests.mp ⟨lead, tail, by omega, by omega⟩)
      · rw [if_pos tail]
    · rw [if_pos lead]

end Turns

theorem getElem?_before
    (before rest : List UInt8) (count : Nat) :
    (before ++ rest)[before.length + count]? = rest[count]? := by
  rw [List.getElem?_append_right (Nat.le_add_right _ _),
    Nat.add_sub_cancel_left]

theorem fromLoop_eq
    {input before rest : List UInt8} (parts : input = before ++ rest)
    {output : Output}
    (room : output.written.length + rest.length < output.size)
    {fuel : Nat} (enough : rest.length < fuel) :
    runLoop (fromTurn input) fuel ⟨before.length, output⟩ =
      some (match decode rest with
        | none => .failed
        | some text => .returned (output.written ++ text)) := by
  induction rest using decode.induct generalizing before output fuel with
  | case1 =>
      obtain ⟨fuel, rfl⟩ : ∃ less, fuel = less + 1 := ⟨fuel - 1, by grind⟩
      have ends : ¬ before.length < input.length := by
        rw [parts, List.append_nil]
        exact Nat.lt_irrefl _
      have leaves : fromTurn input ⟨before.length, output⟩ =
          .leave output.finish := by
        unfold fromTurn
        rw [if_neg ends]
      rw [List.length_nil, Nat.add_zero] at room
      rw [runLoop, leaves]
      dsimp only
      unfold Output.finish
      rw [if_pos room]
      simp [decode]
  | case2 ch small =>
      obtain ⟨fuel, rfl⟩ : ∃ less, fuel = less + 2 := ⟨fuel - 2, by grind⟩
      have here : input[before.length]? = some ch := by
        rw [parts]
        exact getElem?_before before [ch] 0
      rw [List.length_singleton] at room
      have ends : ¬ before.length + 1 < input.length := by
        rw [parts, List.length_append, List.length_singleton]
        exact Nat.lt_irrefl _
      rw [runLoop, fromTurn_small here small (by omega)]
      dsimp only
      rw [runLoop]
      unfold fromTurn
      rw [if_neg ends]
      dsimp only
      unfold Output.finish
      rw [if_pos (by
        rw [List.length_append, List.length_singleton]
        exact room)]
      simp [decode, small]
  | case3 ch large =>
      obtain ⟨fuel, rfl⟩ : ∃ less, fuel = less + 1 := ⟨fuel - 1, by grind⟩
      have here : input[before.length]? = some ch := by
        rw [parts]
        exact getElem?_before before [ch] 0
      rw [runLoop, fromTurn_last here large (by
        rw [parts, List.length_append, List.length_singleton])]
      simp [decode, large]
  | case4 ch ch2 rest small ih =>
      obtain ⟨fuel, rfl⟩ : ∃ less, fuel = less + 1 := ⟨fuel - 1, by grind⟩
      have here : input[before.length]? = some ch := by
        rw [parts]
        exact getElem?_before before _ 0
      rw [List.length_cons] at room enough
      have next := @ih (before ++ [ch]) (by rw [parts, List.append_assoc]; rfl)
        { output with written := output.written ++ [ch] }
        (by
          dsimp only
          rw [List.length_append, List.length_singleton]
          omega)
        fuel (by omega)
      rw [List.length_append, List.length_singleton] at next
      rw [runLoop, fromTurn_small here small (by omega)]
      dsimp only
      rw [next, decode_small small]
      cases decode (ch2 :: rest) with
      | none => rfl
      | some text => simp
  | case5 ch ch2 rest large twoBytes ih =>
      obtain ⟨fuel, rfl⟩ : ∃ less, fuel = less + 1 := ⟨fuel - 1, by grind⟩
      have here : input[before.length]? = some ch := by
        rw [parts]
        exact getElem?_before before _ 0
      have there : input[before.length + 1]? = some ch2 := by
        rw [parts]
        exact getElem?_before before _ 1
      rw [List.length_cons, List.length_cons] at room enough
      have next := @ih (before ++ [ch, ch2])
        (by rw [parts, List.append_assoc]; rfl)
        { output with
          written := output.written ++ [UInt8.ofNat (twoByteValue ch ch2)] }
        (by
          dsimp only
          rw [List.length_append, List.length_singleton]
          omega)
        fuel (by omega)
      rw [List.length_append, List.length_cons, List.length_singleton] at next
      rw [runLoop, fromTurn_two here there large (by omega), if_pos twoBytes]
      dsimp only
      rw [next, decode_large large, if_pos twoBytes]
      cases decode rest with
      | none => rfl
      | some text => simp
  | case6 ch ch2 rest large notTwo =>
      obtain ⟨fuel, rfl⟩ : ∃ less, fuel = less + 1 := ⟨fuel - 1, by grind⟩
      have here : input[before.length]? = some ch := by
        rw [parts]
        exact getElem?_before before _ 0
      have there : input[before.length + 1]? = some ch2 := by
        rw [parts]
        exact getElem?_before before _ 1
      rw [List.length_cons, List.length_cons] at room
      rw [runLoop, fromTurn_two here there large (by omega), if_neg notTwo,
        decode_large large, if_neg notTwo]

end Decodes

section RoundTrip

variable {sizeBits : Nat}

/-- Whatever `malloc` does there is no fault.  If it finds every block, then a
byte string is encoded as UTF-8 and decoded again, and just the texts in UTF-8
of code points below 256 are accepted, and encoded again. -/
def Faithful (text : ByteString sizeBits) : Prop :=
  ∀ malloc : Nat → Bool,
    byteStringAsUTF8 ⟨sizeBits, malloc⟩ text.bytes ≠ .fault ∧
    byteStringFromUTF8 ⟨sizeBits, malloc⟩ text.bytes ≠ .fault ∧
    ((∀ size, malloc size = true) →
      byteStringAsUTF8 ⟨sizeBits, malloc⟩ text.bytes =
        .returned (utf8 text.bytes) ∧
      byteStringFromUTF8 ⟨sizeBits, malloc⟩ (utf8 text.bytes) =
        .returned text.bytes ∧
      ∀ result,
        (byteStringFromUTF8 ⟨sizeBits, malloc⟩ text.bytes = .returned result ↔
          utf8 result = text.bytes) ∧
        (utf8 result = text.bytes →
          byteStringAsUTF8 ⟨sizeBits, malloc⟩ result = .returned text.bytes))

theorem even_pow {number : Nat} (small : number + 1 < 2 ^ sizeBits) :
    2 ^ sizeBits = 2 * 2 ^ (sizeBits - 1) := by
  cases sizeBits with
  | zero => omega
  | succ bits =>
      rw [Nat.add_sub_cancel, Nat.pow_succ]
      ring

theorem byteStringAsUTF8_eq
    {input : List UInt8} (fits : input.length + 1 < 2 ^ sizeBits)
    (small : 2 * input.length < 2 ^ sizeBits) (malloc : Nat → Bool) :
    byteStringAsUTF8 ⟨sizeBits, malloc⟩ input =
      if malloc (2 * input.length + 1) then .returned (utf8 input)
      else .failed := by
  have even := even_pow fits
  have size : (input.length * 2 % 2 ^ sizeBits + 1) % 2 ^ sizeBits =
      2 * input.length + 1 := by
    rw [Nat.mul_comm, Nat.mod_eq_of_lt small, Nat.mod_eq_of_lt (by omega)]
  have room := (length_utf8 input).2
  have loop := @asLoop_eq input [] input rfl ⟨2 * input.length + 1, []⟩
    (input.length + 1) (Nat.lt_succ_self _)
  dsimp only at loop
  rw [List.length_nil, if_pos (by omega), List.nil_append] at loop
  unfold byteStringAsUTF8
  dsimp only
  rw [size, loop]
  rfl

theorem byteStringAsUTF8_fault
    {input : List UInt8} (fits : input.length + 1 < 2 ^ sizeBits)
    (large : 2 ^ sizeBits ≤ 2 * input.length) :
    byteStringAsUTF8 ⟨sizeBits, fun _ => true⟩ input = .fault := by
  have size : (input.length * 2 % 2 ^ sizeBits + 1) % 2 ^ sizeBits =
      2 * input.length - 2 ^ sizeBits + 1 := by
    have cut : 2 * input.length % 2 ^ sizeBits =
        2 * input.length - 2 ^ sizeBits := by
      rw [Nat.mod_eq_sub_mod large, Nat.mod_eq_of_lt (by omega)]
    rw [Nat.mul_comm, cut, Nat.mod_eq_of_lt (by omega)]
  have least := (length_utf8 input).1
  have loop := @asLoop_eq input [] input rfl
    ⟨2 * input.length - 2 ^ sizeBits + 1, []⟩ (input.length + 1)
    (Nat.lt_succ_self _)
  dsimp only at loop
  rw [List.length_nil, if_neg (by omega)] at loop
  unfold byteStringAsUTF8
  dsimp only
  rw [size, loop, if_pos rfl]
  rfl

theorem byteStringFromUTF8_eq
    {input : List UInt8} (fits : input.length + 1 < 2 ^ sizeBits)
    (malloc : Nat → Bool) :
    byteStringFromUTF8 ⟨sizeBits, malloc⟩ input =
      if malloc (input.length + 1) then
        match decode input with
        | none => .failed
        | some text => .returned text
      else .failed := by
  have loop := @fromLoop_eq input [] input rfl ⟨input.length + 1, []⟩
    (by dsimp only; rw [List.length_nil]; omega) (input.length + 1)
    (Nat.lt_succ_self _)
  rw [List.length_nil] at loop
  unfold byteStringFromUTF8
  dsimp only
  rw [Nat.mod_eq_of_lt fits, loop]
  rfl

theorem faithful_of_small
    (text : ByteString sizeBits) (small : 2 * text.bytes.length < 2 ^ sizeBits) :
    Faithful text := by
  intro malloc
  have even := even_pow text.fits
  have encoded := length_utf8 text.bytes
  refine ⟨?_, ?_, fun granted => ⟨?_, ?_, fun result => ⟨?_, ?_⟩⟩⟩
  · rw [byteStringAsUTF8_eq text.fits small]
    split
    next => nofun
    next => nofun
  · rw [byteStringFromUTF8_eq text.fits]
    split
    next =>
      split
      next => nofun
      next => nofun
    next => nofun
  · rw [byteStringAsUTF8_eq text.fits small, granted, if_pos rfl]
  · rw [byteStringFromUTF8_eq (by omega), granted, if_pos rfl, decode_utf8]
  · rw [byteStringFromUTF8_eq text.fits, granted, if_pos rfl, ← decode_eq_some]
    cases decode text.bytes with
    | none => exact iff_of_false nofun nofun
    | some decoded =>
        dsimp only
        rw [Outcome.returned.injEq, Option.some_inj]
  · intro same
    have length := length_utf8 result
    rw [same] at length
    have fits := text.fits
    rw [byteStringAsUTF8_eq (by omega) (by omega), granted, if_pos rfl, same]

/-- The encoding is faithful just when twice the length is a `size_t`. -/
theorem faithful_iff (text : ByteString sizeBits) :
    Faithful text ↔ 2 * text.bytes.length < 2 ^ sizeBits := by
  refine ⟨fun faithful => ?_, faithful_of_small text⟩
  by_contra large
  exact (faithful fun _ => true).1
    (byteStringAsUTF8_fault text.fits (Nat.not_lt.mp large))

/-- Half of the addresses of a machine of 32 bits. -/
theorem twoGigabytes_fault :
    ¬ Faithful (⟨List.replicate (2 ^ 31) 0, by
      rw [List.length_replicate]
      decide⟩ : ByteString 32) := by
  intro faithful
  have fault := @byteStringAsUTF8_fault 32 (List.replicate (2 ^ 31) 0)
    (by rw [List.length_replicate]; decide)
    (by rw [List.length_replicate]; decide)
  exact (faithful fun _ => true).1 fault

end RoundTrip

end NativeClient.Plugin
