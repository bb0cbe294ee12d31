import Mathlib.Data.List.Basic

/-!
# Bytes as code points in UTF-8

`utf8` is the canonical UTF-8 encoding of a text of code points below 256.  A
code point from 128 on takes two bytes, of which the first is `c2` or `c3`.
-/

namespace NativeClient.Library

def utf8Byte (byte : UInt8) : List UInt8 :=
  String.utf8EncodeChar (Char.ofNat byte.toNat)

def utf8 (text : List UInt8) : List UInt8 := text.flatMap utf8Byte

theorem forall_byte
    {p : UInt8 → Prop} (all : ∀ number < 256, p (UInt8.ofNat number))
    (byte : UInt8) : p byte := by
  have found := all byte.toNat byte.toNat_lt
  rw [UInt8.ofNat_toNat] at found
  exact found

theorem utf8Byte_small {byte : UInt8} (small : byte < 128) :
    utf8Byte byte = [byte] := by
  revert byte
  apply forall_byte
  decide +kernel

theorem utf8Byte_large {byte : UInt8} (large : ¬ byte < 128) :
    utf8Byte byte =
      [UInt8.ofNat (192 + byte.toNat / 64),
        UInt8.ofNat (128 + byte.toNat % 64)] := by
  revert byte
  apply forall_byte
  decide +kernel

def TwoBytes (lead tail : UInt8) : Prop :=
  (lead = 194 ∨ lead = 195) ∧ 128 ≤ tail ∧ tail < 192

instance (lead tail : UInt8) : Decidable (TwoBytes lead tail) :=
  inferInstanceAs (Decidable ((lead = 194 ∨ lead = 195) ∧ _))

def twoByteValue (lead tail : UInt8) : Nat :=
  lead.toNat % 4 * 64 + tail.toNat % 64

theorem twoBytes_utf8Byte {byte : UInt8} (large : ¬ byte < 128) :
    ∃ lead tail, utf8Byte byte = [lead, tail] ∧ TwoBytes lead tail ∧
      twoByteValue lead tail = byte.toNat := by
  have small := byte.toNat_lt
  have least : 128 ≤ byte.toNat := by
    rw [UInt8.lt_iff_toNat_lt] at large
    exact Nat.not_lt.mp large
  refine ⟨_, _, utf8Byte_large large, ⟨?_, ?_, ?_⟩, ?_⟩
  · have cases : byte.toNat / 64 = 2 ∨ byte.toNat / 64 = 3 := by omega
    rcases cases with low | high
    · rw [low]
      exact .inl rfl
    · rw [high]
      exact .inr rfl
  · rw [UInt8.le_iff_toNat_le, UInt8.toNat_ofNat']
    change 128 ≤ _
    omega
  · rw [UInt8.lt_iff_toNat_lt, UInt8.toNat_ofNat']
    change _ < 192
    omega
  · unfold twoByteValue
    rw [UInt8.toNat_ofNat', UInt8.toNat_ofNat']
    omega

theorem utf8Byte_twoByteValue
    {lead tail : UInt8} (twoBytes : TwoBytes lead tail) :
    ¬ UInt8.ofNat (twoByteValue lead tail) < 128 ∧
      utf8Byte (UInt8.ofNat (twoByteValue lead tail)) = [lead, tail] := by
  obtain ⟨first, least, most⟩ := twoBytes
  have leastNat : 128 ≤ tail.toNat := UInt8.le_iff_toNat_le.mp least
  have mostNat : tail.toNat < 192 := UInt8.lt_iff_toNat_lt.mp most
  have value : (UInt8.ofNat (twoByteValue lead tail)).toNat =
      lead.toNat % 4 * 64 + tail.toNat % 64 := by
    rw [UInt8.toNat_ofNat']
    unfold twoByteValue
    omega
  have leads : lead.toNat = 194 ∨ lead.toNat = 195 := by
    rcases first with rfl | rfl
    · exact .inl rfl
    · exact .inr rfl
  have large : ¬ UInt8.ofNat (twoByteValue lead tail) < 128 := by
    rw [UInt8.lt_iff_toNat_lt, value]
    change ¬ _ < 128
    omega
  refine ⟨large, ?_⟩
  rw [utf8Byte_large large, value]
  congr 1
  · apply UInt8.toNat_inj.mp
    rw [UInt8.toNat_ofNat']
    omega
  · congr 1
    apply UInt8.toNat_inj.mp
    rw [UInt8.toNat_ofNat']
    omega

@[simp] theorem utf8_nil : utf8 [] = [] := rfl

theorem utf8_cons (byte : UInt8) (text : List UInt8) :
    utf8 (byte :: text) = utf8Byte byte ++ utf8 text := rfl

theorem length_utf8Byte (byte : UInt8) :
    1 ≤ (utf8Byte byte).length ∧ (utf8Byte byte).length ≤ 2 := by
  by_cases small : byte < 128
  · rw [utf8Byte_small small]
    simp
  · rw [utf8Byte_large small]
    simp

theorem length_utf8 (text : List UInt8) :
    text.length ≤ (utf8 text).length ∧
      (utf8 text).length ≤ 2 * text.length := by
  induction text with
  | nil => decide
  | cons byte text ih =>
      have here := length_utf8Byte byte
      rw [utf8_cons, List.length_append, List.length_cons]
      omega

end NativeClient.Library
