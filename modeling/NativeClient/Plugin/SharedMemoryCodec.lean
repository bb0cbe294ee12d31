import NativeClient.Plugin.SharedMemory

/-!
# The decoder of `RpcWrite`

The masks of `RpcWrite` cut a string into characters of one and of two bytes.
What it stores, how it ends and whether it reads behind the terminator follow
from how the first bytes of the string and its terminator are cut.
-/

namespace NativeClient.Plugin

open NativeClient.Library

section Characters

inductive Characters (pair : UInt8 → UInt8 → Prop) : List UInt8 → Prop where
  | nil : Characters pair []
  | one {c : UInt8} {rest : List UInt8} (notNul : c ≠ 0) (small : c < 128)
      (later : Characters pair rest) : Characters pair (c :: rest)
  | two {c1 c2 : UInt8} {rest : List UInt8} (pass : pair c1 c2)
      (later : Characters pair rest) : Characters pair (c1 :: c2 :: rest)

/-- Two bytes that `RpcWrite` takes for a character. -/
def Masked (c1 c2 : UInt8) : Prop := ¬ c1 < 128 ∧ MaskTests c1 c2

theorem Characters.append
    {pair : UInt8 → UInt8 → Prop} {front back : List UInt8}
    (first : Characters pair front) (second : Characters pair back) :
    Characters pair (front ++ back) := by
  induction first with
  | nil => exact second
  | one notNul small later ih => exact .one notNul small ih
  | two pass later ih => exact .two pass ih

theorem Characters.cancel
    {pair : UInt8 → UInt8 → Prop} (large : ∀ c1 c2, pair c1 c2 → ¬ c1 < 128)
    {front back : List UInt8} (first : Characters pair front)
    (whole : Characters pair (front ++ back)) : Characters pair back := by
  induction first with
  | nil => exact whole
  | @one c rest notNul small later ih =>
      rw [List.cons_append] at whole
      generalize together : rest ++ back = text at whole ih
      cases whole with
      | one _ _ whole => exact ih whole
      | two pass => exact absurd small (large _ _ pass)
  | @two c1 c2 rest pass later ih =>
      rw [List.cons_append, List.cons_append] at whole
      cases whole with
      | one _ small => exact absurd small (large _ _ pass)
      | two _ whole => exact ih whole

/-- What `RpcWrite` stores for a text. -/
def decodeMasked : List UInt8 → List UInt8
  | [] => []
  | [c] => [c]
  | c1 :: c2 :: rest =>
      if c1 < 128 then c1 :: decodeMasked (c2 :: rest)
      else maskedValue c1 c2 :: decodeMasked rest

theorem decodeMasked_small {c : UInt8} (small : c < 128) (rest : List UInt8) :
    decodeMasked (c :: rest) = c :: decodeMasked rest := by
  cases rest with
  | nil => rfl
  | cons c2 rest => rw [decodeMasked, if_pos small]

theorem decodeMasked_large
    {c1 : UInt8} (large : ¬ c1 < 128) (c2 : UInt8) (rest : List UInt8) :
    decodeMasked (c1 :: c2 :: rest) =
      maskedValue c1 c2 :: decodeMasked rest := by
  rw [decodeMasked, if_neg large]

theorem decodeMasked_append
    {front : List UInt8} (first : Characters Masked front)
    (back : List UInt8) :
    decodeMasked (front ++ back) = decodeMasked front ++ decodeMasked back := by
  induction first with
  | nil => rfl
  | one notNul small later ih =>
      rw [List.cons_append, decodeMasked_small small, ih,
        decodeMasked_small small]
      rfl
  | two pass later ih =>
      rw [List.cons_append, List.cons_append, decodeMasked_large pass.1, ih,
        decodeMasked_large pass.1]
      rfl

theorem length_decodeMasked
    {bytes : List UInt8} (characters : Characters Masked bytes) :
    (decodeMasked bytes).length ≤ bytes.length ∧
      ((decodeMasked bytes).length = bytes.length →
        decodeMasked bytes = bytes ∧ ∀ byte ∈ bytes, byte < 128) := by
  induction characters with
  | nil => exact ⟨Nat.le_refl _, fun _ => ⟨rfl, nofun⟩⟩
  | one notNul small later ih =>
      rw [decodeMasked_small small, List.length_cons, List.length_cons]
      refine ⟨Nat.succ_le_succ ih.1, fun same => ?_⟩
      obtain ⟨equal, below⟩ := ih.2 (Nat.succ_injective same)
      rw [equal]
      exact ⟨rfl, List.forall_mem_cons.mpr ⟨small, below⟩⟩
  | two pass later ih =>
      rw [decodeMasked_large pass.1]
      simp only [List.length_cons]
      exact ⟨by omega, fun same => by omega⟩

theorem Characters.of_small
    {pair : UInt8 → UInt8 → Prop} {bytes : List UInt8}
    (noNul : 0 ∉ bytes) (small : ∀ byte ∈ bytes, byte < 128) :
    Characters pair bytes ∧ decodeMasked bytes = bytes ∧ utf8 bytes = bytes := by
  induction bytes with
  | nil => exact ⟨.nil, rfl, rfl⟩
  | cons byte bytes ih =>
      obtain ⟨here, later⟩ := List.forall_mem_cons.mp small
      obtain ⟨notHere, notLater⟩ := not_or.mp (mt List.mem_cons.mpr noNul)
      obtain ⟨characters, decoded, encoded⟩ := ih notLater later
      refine ⟨.one (Ne.symm notHere) here characters, ?_, ?_⟩
      · rw [decodeMasked_small here, decoded]
      · rw [utf8_cons, utf8Byte_small here, encoded]
        rfl

theorem Characters.noNul
    {bytes : List UInt8} (characters : Characters TwoBytes bytes) :
    0 ∉ bytes := by
  induction characters with
  | nil => exact List.not_mem_nil
  | one notNul small later ih =>
      exact fun member => (List.mem_cons.mp member).elim
        (fun same => notNul same.symm) ih
  | two pass later ih =>
      obtain ⟨lead, tail, _⟩ := pass
      rw [List.mem_cons, List.mem_cons, not_or, not_or]
      refine ⟨?_, ?_, ih⟩
      · rintro rfl
        rcases lead with bad | bad
        · cases bad
        · cases bad
      · rintro rfl
        exact absurd tail (by decide)

theorem lead_large {c1 c2 : UInt8} (pass : TwoBytes c1 c2) : ¬ c1 < 128 := by
  rcases pass.1 with rfl | rfl
  · decide
  · decide

theorem toNat_maskedValue (c1 c2 : UInt8) :
    (maskedValue c1 c2).toNat = c1.toNat % 4 * 64 + c2.toNat % 64 := by
  have high : ∀ c : UInt8, (c <<< 6).toNat = c.toNat % 4 * 64 :=
    forall_byte (by decide +kernel)
  have low : ∀ c : UInt8, (c &&& 0x3f).toNat = c.toNat % 64 :=
    forall_byte (by decide +kernel)
  have small := Nat.mod_lt c2.toNat (show 0 < 2 ^ 6 by decide)
  unfold maskedValue
  rw [UInt8.toNat_or, high, low, Nat.mul_comm]
  exact (Nat.two_pow_add_eq_or_of_lt small _).symm

theorem maskedValue_eq (c1 c2 : UInt8) :
    maskedValue c1 c2 = UInt8.ofNat (twoByteValue c1 c2) := by
  have lead := Nat.mod_lt c1.toNat (show 0 < 4 by decide)
  have tail := Nat.mod_lt c2.toNat (show 0 < 64 by decide)
  apply UInt8.toNat_inj.mp
  rw [toNat_maskedValue, UInt8.toNat_ofNat']
  unfold twoByteValue
  omega

theorem utf8_decodeMasked
    {bytes : List UInt8} (characters : Characters TwoBytes bytes) :
    utf8 (decodeMasked bytes) = bytes := by
  induction characters with
  | nil => rfl
  | one notNul small later ih =>
      rw [decodeMasked_small small, utf8_cons, utf8Byte_small small, ih]
      rfl
  | two pass later ih =>
      rw [decodeMasked_large (lead_large pass), maskedValue_eq, utf8_cons,
        (utf8Byte_twoByteValue pass).2, ih]
      rfl

theorem Characters.canonical
    {text bytes : List UInt8} (encoded : utf8 text = bytes)
    (characters : Characters Masked bytes) : Characters TwoBytes bytes := by
  induction text generalizing bytes with
  | nil =>
      subst encoded
      exact .nil
  | cons byte text ih =>
      subst encoded
      rw [utf8_cons] at characters ⊢
      generalize later : utf8 text = bytes at characters ih ⊢
      by_cases small : byte < 128
      · rw [utf8Byte_small small] at characters ⊢
        cases characters with
        | one notNul _ rest => exact .one notNul small (ih rfl rest)
        | two pass => exact absurd small pass.1
      · obtain ⟨lead, tail, split, pass, -⟩ := twoBytes_utf8Byte small
        rw [split] at characters ⊢
        cases characters with
        | one _ isSmall => exact absurd isSmall (lead_large pass)
        | two _ rest => exact .two pass (ih rfl rest)

end Characters

end NativeClient.Plugin
