import NativeClient.Variants.Values

/-!
# Values at their places

`Written` says that the bytes of a value are at a place.  The writers put every
value behind the one before it, and the readers find it there.
-/

namespace NativeClient.Variants

open NativeClient.Library

def wireSize : Value → Nat
  | .double _ => doubleSize
  | .string bytes => fixedSize + roundUp bytes.length
  | .object _ _ => objectSize
  | _ => fixedSize

def totalSize (values : List Value) : Nat := (values.map wireSize).sum

theorem totalSize_cons (value : Value) (values : List Value) :
    totalSize (value :: values) = wireSize value + totalSize values := rfl

theorem le_roundUp (length : Nat) : length ≤ roundUp length := by
  unfold roundUp
  omega

theorem fixedSize_le_wireSize (value : Value) : fixedSize ≤ wireSize value := by
  cases value with
  | string bytes => exact Nat.le_add_right _ _
  | double bits => exact show fixedSize ≤ doubleSize by decide
  | object first second => exact show fixedSize ≤ objectSize by decide
  | _ => exact Nat.le_refl _

section Sizes

theorem roundedStringBytes_eq
    {length : Nat} (fits : fixedSize + roundUp length ≤ uint32Max) :
    roundedStringBytes length = roundUp length := by
  have more := le_roundUp length
  unfold fixedSize at fits
  rw [roundedStringBytes, if_neg (by omega)]

theorem valueSize_eq {value : Value} (fits : wireSize value ≤ uint32Max) :
    valueSize value = wireSize value := by
  cases value with
  | string bytes =>
      have rounded := roundedStringBytes_eq fits
      have bound : fixedSize + roundUp bytes.length ≤ uint32Max := fits
      rw [valueSize, rounded, if_neg]
      · rfl
      · unfold addWouldOverflow
        unfold fixedSize at *
        rw [decide_eq_true_eq]
        omega
  | _ => rfl

theorem writtenSize_eq {value : Value} (fits : wireSize value ≤ uint32Max) :
    writtenSize value = wireSize value := by
  cases value with
  | string bytes => rw [writtenSize, roundedStringBytes_eq fits, wireSize]
  | _ => rfl

theorem addWouldOverflow_eq_false
    {first second : Nat} (fits : first + second ≤ uint32Max) :
    addWouldOverflow first second = false := by
  unfold addWouldOverflow
  rw [decide_eq_false_iff_not]
  omega

theorem vectorSize_eq
    {size : Nat} {values : List Value}
    (fits : size + totalSize values ≤ uint32Max) :
    vectorSize size values = size + totalSize values := by
  induction values generalizing size with
  | nil => rfl
  | cons value values ih =>
      rw [totalSize_cons] at fits ⊢
      have positive := fixedSize_le_wireSize value
      unfold fixedSize at positive
      have same := valueSize_eq (show wireSize value ≤ uint32Max by omega)
      rw [vectorSize, same, addWouldOverflow_eq_false (by omega), if_neg, ih,
        Nat.add_assoc]
      · omega
      · rintro (zero | overflow)
        · omega
        · cases overflow

end Sizes

section Places

/-- The value is in the buffer at `p`. -/
def Written (buffer : Buffer) (p : Nat) (value : Value) : Prop :=
  Holds buffer p (littleEndian 4 value.type) ∧
    match value with
    | .undefined => True
    | .null => True
    | .boolean value => Holds buffer (p + 4) [if value then 1 else 0]
    | .int32 bits => Holds buffer (p + 4) (littleEndian 4 bits)
    | .double bits => Holds buffer (p + 8) (littleEndian 8 bits)
    | .string bytes =>
        Holds buffer (p + 4) (littleEndian 4 bytes.length) ∧
          Holds buffer (p + 8) bytes
    | .object first second =>
        Holds buffer (p + 8) (littleEndian 8 first) ∧
          Holds buffer (p + 16) (littleEndian 8 second)

def AllWritten (buffer : Buffer) : Nat → List Value → Prop
  | _, [] => True
  | p, value :: values =>
      Written buffer p value ∧ AllWritten buffer (p + wireSize value) values

variable {p : Nat} {value : Value} {clears : Bool} {values : List Value}

theorem Written.applyStores
    {buffer : Buffer} (written : Written buffer p value)
    {stores : List Store}
    (behind : ∀ store ∈ stores, p + wireSize value ≤ store.address) :
    Written (applyStores stores buffer) p value := by
  have keeps : ∀ {start : Nat} {bytes : List UInt8},
      start + bytes.length ≤ p + wireSize value → Holds buffer start bytes →
        Holds (Library.applyStores stores buffer) start bytes := by
    intro start bytes inside
    refine holds_applyStores_beside fun store member => .inl ?_
    exact Nat.le_trans inside (behind store member)
  have size := fixedSize_le_wireSize value
  unfold fixedSize at size
  refine ⟨keeps (by rw [length_littleEndian]; omega) written.1, ?_⟩
  obtain ⟨type, rest⟩ := written
  cases value with
  | undefined => trivial
  | null => trivial
  | boolean value => exact keeps (by simp; omega) rest
  | int32 bits => exact keeps (by rw [length_littleEndian]; omega) rest
  | double bits =>
      exact keeps (by rw [length_littleEndian]; exact Nat.le_refl _) rest
  | string bytes =>
      have rounded := le_roundUp bytes.length
      refine ⟨keeps (by rw [length_littleEndian]; omega) rest.1, ?_⟩
      refine keeps ?_ rest.2
      rw [wireSize, fixedSize]
      omega
  | object first second =>
      refine ⟨keeps ?_ rest.1, keeps ?_ rest.2⟩
      · rw [length_littleEndian, wireSize, objectSize]
        omega
      · rw [length_littleEndian, wireSize, objectSize]

theorem valueStores_inside
    (fits : wireSize value ≤ uint32Max) :
    ∀ store ∈ valueStores clears p value,
      p + 4 ≤ store.address ∧
        store.address + store.bytes.length ≤ p + wireSize value := by
  intro store member
  cases value with
  | undefined => cases member
  | null => cases member
  | boolean value =>
      rw [List.mem_singleton.mp member]
      exact ⟨Nat.le_refl _, Nat.add_le_add_left (show 4 + 1 ≤ fixedSize by decide) p⟩
  | int32 bits =>
      rw [List.mem_singleton.mp member, length_littleEndian]
      exact ⟨Nat.le_refl _, Nat.le_refl _⟩
  | double bits =>
      rw [List.mem_singleton.mp member, length_littleEndian]
      exact ⟨Nat.add_le_add_left (by decide) p, Nat.le_refl _⟩
  | string bytes =>
      have rounded := le_roundUp bytes.length
      have same := roundedStringBytes_eq fits
      simp only [wireSize, fixedSize]
      rcases List.mem_cons.mp member with rfl | member
      · rw [length_littleEndian]
        dsimp only
        omega
      rcases List.mem_cons.mp member with rfl | member
      · dsimp only
        omega
      cases clears with
      | false => cases member
      | true =>
          rw [if_pos rfl] at member
          rw [List.mem_singleton.mp member, same, List.length_replicate]
          dsimp only
          omega
  | object first second =>
      rcases List.mem_cons.mp member with rfl | member
      · rw [length_littleEndian]
        exact ⟨Nat.add_le_add_left (by decide) p,
          Nat.add_le_add_left (by decide : 16 ≤ 24) p⟩
      · rw [List.mem_singleton.mp member, length_littleEndian]
        exact ⟨Nat.add_le_add_left (by decide) p, Nat.le_refl _⟩

theorem elementStores_inside
    (fits : wireSize value ≤ uint32Max) :
    ∀ store ∈ elementStores clears p value,
      p ≤ store.address ∧
        store.address + store.bytes.length ≤ p + wireSize value := by
  have size := fixedSize_le_wireSize value
  unfold fixedSize at size
  intro store member
  rcases List.mem_cons.mp member with rfl | member
  · rw [length_littleEndian]
    dsimp only
    omega
  rcases List.mem_append.mp member with clear | member
  · cases clears with
    | false => cases clear
    | true =>
        rw [if_pos rfl] at clear
        rw [List.mem_singleton.mp clear, length_littleEndian]
        dsimp only
        omega
  · have inside := valueStores_inside fits store member
    omega

theorem written_elementStores
    (clears : Bool) (p : Nat) (fits : wireSize value ≤ uint32Max)
    (memory : Buffer) :
    Written (applyStores (elementStores clears p value) memory) p value := by
  constructor
  · refine @holds_applyStores [] _ ⟨p, littleEndian 4 value.type⟩ ?_ memory
    intro later member
    left
    rw [length_littleEndian]
    rcases List.mem_append.mp member with clear | member
    · cases clears with
      | false => cases clear
      | true =>
          rw [if_pos rfl] at clear
          rw [List.mem_singleton.mp clear]
    · exact (valueStores_inside fits later member).1
  · rw [elementStores, applyStores_cons, applyStores_append]
    generalize applyStores (if clears then [⟨p + 4, littleEndian 4 0⟩] else [])
      _ = cleared
    cases value with
    | undefined => trivial
    | null => trivial
    | boolean value => exact Store.holds_apply ⟨p + 4, _⟩ cleared
    | int32 bits => exact Store.holds_apply ⟨p + 4, _⟩ cleared
    | double bits => exact Store.holds_apply ⟨p + 8, _⟩ cleared
    | string bytes =>
        have padding : ∀ later ∈ (if clears then
            [(⟨p + 8 + bytes.length, List.replicate
              (roundedStringBytes bytes.length - bytes.length) 0⟩ : Store)]
            else []), p + 8 + bytes.length ≤ later.address := by
          intro later member
          cases clears with
          | false => cases member
          | true =>
              rw [if_pos rfl] at member
              rw [List.mem_singleton.mp member]
        constructor
        · refine @holds_applyStores [] _ ⟨p + 4, littleEndian 4 bytes.length⟩ ?_
            cleared
          intro later member
          left
          rw [length_littleEndian]
          rcases List.mem_cons.mp member with rfl | member
          · exact Nat.le_refl _
          · have behind := padding later member
            dsimp only
            omega
        · refine @holds_applyStores [_] _ ⟨p + 8, bytes⟩ ?_ cleared
          intro later member
          exact .inl (padding later member)
    | object first second =>
        constructor
        · refine @holds_applyStores [] _ ⟨p + 8, littleEndian 8 first⟩ ?_ cleared
          intro later member
          left
          rw [List.mem_singleton.mp member, length_littleEndian]
        · exact @holds_applyStores [_] [] ⟨p + 16, littleEndian 8 second⟩ nofun
            cleared

def layoutStores (clears : Bool) : Nat → List Value → List Store
  | _, [] => []
  | p, value :: values =>
      elementStores clears p value ++
        layoutStores clears (p + wireSize value) values

theorem layoutStores_inside
    (fits : totalSize values ≤ uint32Max) :
    ∀ store ∈ layoutStores clears p values,
      p ≤ store.address ∧
        store.address + store.bytes.length ≤ p + totalSize values := by
  induction values generalizing p with
  | nil => exact fun store member => absurd member List.not_mem_nil
  | cons value values ih =>
      rw [totalSize_cons] at fits ⊢
      intro store member
      rcases List.mem_append.mp member with here | later
      · have inside := elementStores_inside (by omega) store here
        omega
      · have inside := ih (by omega) store later
        omega

theorem allWritten_layoutStores
    (clears : Bool) (p : Nat)
    (fits : totalSize values ≤ uint32Max) (memory : Buffer) :
    AllWritten (applyStores (layoutStores clears p values) memory) p values := by
  induction values generalizing p memory with
  | nil => trivial
  | cons value values ih =>
      rw [totalSize_cons] at fits
      rw [layoutStores, applyStores_append]
      refine ⟨?_, ih _ (by omega) _⟩
      refine (written_elementStores clears p (by omega) memory).applyStores ?_
      intro store member
      exact (layoutStores_inside (by omega) store member).1

theorem serializeValues_eq
    {length offset : Nat}
    (room : offset + totalSize values ≤ length) (fits : length ≤ uint32Max) :
    serializeValues clears length offset values =
      some (layoutStores clears offset values) := by
  induction values generalizing offset with
  | nil => rfl
  | cons value values ih =>
      rw [totalSize_cons] at room
      have positive := fixedSize_le_wireSize value
      unfold fixedSize at positive
      have small : wireSize value ≤ uint32Max := by omega
      have overflows : addWouldOverflow offset (wireSize value) = false :=
        addWouldOverflow_eq_false (by omega)
      have goesOn : ¬(wireSize value = 0 ∨
          addWouldOverflow offset (wireSize value) = true) := by
        rw [overflows]
        rintro (zero | overflow)
        · omega
        · cases overflow
      rw [serializeValues, if_neg (by omega), valueSize_eq small,
        writtenSize_eq small]
      simp only [if_neg goesOn]
      rw [ih (by omega)]
      rfl

end Places

end NativeClient.Variants
