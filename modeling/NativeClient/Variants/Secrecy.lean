import NativeClient.Variants.Layout

/-!
# What the buffer held before

The proxy and the bridge serialize values to a buffer that may hold anything.
The receiver sees none of it where every byte is stored.  The bridge leaves
bytes of most values as they are.
-/

namespace NativeClient.Variants

open NativeClient.Library

/-- `SerializePpVar` with the stores that it makes, if it succeeds. -/
def serializePpVar (vars : List Value) (length : Nat) : Option (List Store) :=
  serializeValues true length 0 vars

def serializeNPVariant (variants : List Value) (length : Nat) :
    Option (List Store) :=
  serializeValues false length 0 variants

/-- If the values are serialized, then every byte of their range is the same
whatever the buffer held before. -/
def RevealsNothing (serialized : Option (List Store)) (values : List Value) :
    Prop :=
  ∀ stores, serialized = some stores → ∀ first second : Buffer,
    ∀ address < totalSize values,
      applyStores stores first address = applyStores stores second address

def FillsPlace : Value → Prop
  | .int32 _ => True
  | .string bytes => bytes.length % 8 = 0
  | _ => False

/-- Every value starts before `length`, and the sizes stay within 32 bits. -/
def FitsBefore (length : Nat) : Nat → List Value → Prop
  | _, [] => True
  | offset, value :: values =>
      offset < length ∧ offset + wireSize value ≤ uint32Max ∧
        FitsBefore length (offset + wireSize value) values

section Serialized

theorem valueSize_tooLarge
    {value : Value} (large : uint32Max < wireSize value) :
    valueSize value = 0 := by
  cases value with
  | string bytes =>
      have more := le_roundUp bytes.length
      rw [wireSize, fixedSize] at large
      rw [valueSize, roundedStringBytes]
      split
      next => rw [if_pos (.inl rfl)]
      next =>
        rw [if_pos]
        have bound : uint32Max = 2 ^ 32 - 1 := rfl
        right
        unfold addWouldOverflow fixedSize
        rw [decide_eq_true_eq]
        omega
  | double bits => exact absurd large (show ¬ uint32Max < doubleSize by decide)
  | object first second =>
      exact absurd large (show ¬ uint32Max < objectSize by decide)
  | undefined => exact absurd large (show ¬ uint32Max < fixedSize by decide)
  | null => exact absurd large (show ¬ uint32Max < fixedSize by decide)
  | boolean value =>
      exact absurd large (show ¬ uint32Max < fixedSize by decide)
  | int32 bits => exact absurd large (show ¬ uint32Max < fixedSize by decide)

theorem serializeValues_cases
    (clears : Bool) (length offset : Nat) (values : List Value) :
    (FitsBefore length offset values →
      serializeValues clears length offset values =
        some (layoutStores clears offset values)) ∧
    (¬ FitsBefore length offset values →
      serializeValues clears length offset values = none) := by
  induction values generalizing offset with
  | nil => exact ⟨fun _ => rfl, fun unfit => absurd trivial unfit⟩
  | cons value values ih =>
      have positive := fixedSize_le_wireSize value
      unfold fixedSize at positive
      rw [serializeValues]
      by_cases starts : offset < length
      case neg =>
        rw [if_pos (by omega)]
        exact ⟨fun fits => absurd fits.1 starts, fun _ => rfl⟩
      case pos =>
        rw [if_neg (by omega)]
        dsimp only
        by_cases small : offset + wireSize value ≤ uint32Max
        case pos =>
          have valueSmall : wireSize value ≤ uint32Max := by omega
          rw [valueSize_eq valueSmall, writtenSize_eq valueSmall,
            addWouldOverflow_eq_false small, if_neg]
          · obtain ⟨succeeds, fails⟩ := ih (offset + wireSize value)
            constructor
            · rintro ⟨-, -, later⟩
              rw [succeeds later]
              rfl
            · intro unfit
              rw [fails fun later => unfit ⟨starts, small, later⟩]
              rfl
          · rintro (zero | overflow)
            · omega
            · cases overflow
        case neg =>
          rw [if_pos]
          · exact ⟨fun fits => absurd fits.2.1 small, fun _ => rfl⟩
          · by_cases valueSmall : wireSize value ≤ uint32Max
            · right
              rw [valueSize_eq valueSmall]
              unfold addWouldOverflow
              rw [decide_eq_true_eq]
              omega
            · exact .inl (valueSize_tooLarge (by omega))

theorem FitsBefore.sizes
    {length offset : Nat} {values : List Value}
    (fits : FitsBefore length offset values) :
    ∀ value ∈ values, wireSize value ≤ uint32Max := by
  induction values generalizing offset with
  | nil => exact nofun
  | cons value values ih =>
      intro other member
      rcases List.mem_cons.mp member with rfl | member
      · have here := fits.2.1
        omega
      · exact ih fits.2.2 other member

end Serialized

section Coverage

def Covered (stores : List Store) (address : Nat) : Prop :=
  ∃ store ∈ stores, store.Covers address

theorem covered_append {first second : List Store} {address : Nat} :
    Covered (first ++ second) address ↔
      Covered first address ∨ Covered second address := by
  unfold Covered
  simp only [List.mem_append, or_and_right, exists_or]

theorem covered_cons {store : Store} {stores : List Store} {address : Nat} :
    Covered (store :: stores) address ↔
      store.Covers address ∨ Covered stores address := by
  unfold Covered
  simp only [List.mem_cons, or_and_right, exists_or, exists_eq_left]

theorem not_covered_nil {address : Nat} : ¬ Covered [] address := by
  rintro ⟨store, member, -⟩
  cases member

theorem roundUp_length (length : Nat) :
    roundUp length < length + 8 ∧ (length % 8 = 0 → roundUp length = length) ∧
      (length % 8 ≠ 0 → length < roundUp length) := by
  unfold roundUp
  omega

theorem covered_ppVar
    {value : Value} (small : wireSize value ≤ uint32Max) {p offset : Nat}
    (inside : offset < wireSize value) :
    Covered (elementStores true p value) (p + offset) := by
  rw [elementStores, if_pos rfl, List.singleton_append, covered_cons,
    covered_cons]
  unfold Store.Covers
  dsimp only
  rw [length_littleEndian, length_littleEndian]
  by_cases fixed : offset < 8
  · omega
  · refine .inr (.inr ?_)
    cases value with
    | double bits =>
        have size : offset < 16 := inside
        rw [valueStores, covered_cons]
        unfold Store.Covers
        dsimp only
        rw [length_littleEndian]
        omega
    | string bytes =>
        rw [wireSize, fixedSize] at inside
        have rounded := roundedStringBytes_eq small
        have more := le_roundUp bytes.length
        rw [valueStores, if_pos rfl, covered_cons, covered_cons, covered_cons,
          rounded]
        unfold Store.Covers
        dsimp only
        rw [List.length_replicate]
        omega
    | object first second =>
        rw [wireSize, objectSize] at inside
        rw [valueStores, covered_cons, covered_cons]
        unfold Store.Covers
        dsimp only
        rw [length_littleEndian, length_littleEndian]
        omega
    | undefined => exact absurd inside fixed
    | null => exact absurd inside fixed
    | boolean value => exact absurd inside fixed
    | int32 bits => exact absurd inside fixed

theorem covered_npVariant
    {value : Value} (small : wireSize value ≤ uint32Max) (p : Nat) :
    (FillsPlace value → ∀ offset < wireSize value,
      Covered (elementStores false p value) (p + offset)) ∧
    (¬ FillsPlace value → ∃ offset < wireSize value,
      ¬ Covered (elementStores false p value) (p + offset)) := by
  have start : elementStores false p value =
      ⟨p, littleEndian 4 value.type⟩ :: valueStores false p value := rfl
  rw [start]
  simp only [covered_cons]
  unfold Store.Covers
  simp only [length_littleEndian]
  cases value with
  | int32 bits =>
      refine ⟨fun _ offset inside => ?_, fun unfilled => absurd trivial unfilled⟩
      have size : offset < 8 := inside
      rw [valueStores, covered_cons]
      unfold Store.Covers
      dsimp only
      rw [length_littleEndian]
      omega
  | string bytes =>
      have rounding := roundUp_length bytes.length
      rw [wireSize, fixedSize, valueStores]
      simp only [covered_cons, Bool.false_eq_true, if_false]
      unfold Store.Covers
      simp only [length_littleEndian]
      constructor
      · intro filled offset inside
        have same := rounding.2.1 filled
        omega
      · intro unfilled
        have more := rounding.2.2 unfilled
        refine ⟨8 + bytes.length, by omega, ?_⟩
        rintro (type | length | text | rest)
        · omega
        · omega
        · omega
        · exact not_covered_nil rest
  | undefined =>
      refine ⟨False.elim, fun _ => ⟨4, by decide, ?_⟩⟩
      rintro (type | rest)
      · omega
      · exact not_covered_nil rest
  | null =>
      refine ⟨False.elim, fun _ => ⟨4, by decide, ?_⟩⟩
      rintro (type | rest)
      · omega
      · exact not_covered_nil rest
  | boolean value =>
      refine ⟨False.elim, fun _ => ⟨5, show 5 < 8 by decide, ?_⟩⟩
      rw [valueStores, covered_cons]
      unfold Store.Covers
      dsimp only
      rintro (type | byte | rest)
      · omega
      · have bound := byte.2
        rw [List.length_singleton] at bound
        omega
      · exact not_covered_nil rest
  | double bits =>
      refine ⟨False.elim, fun _ => ⟨4, show 4 < 16 by decide, ?_⟩⟩
      rw [valueStores, covered_cons]
      unfold Store.Covers
      dsimp only
      rintro (type | number | rest)
      · omega
      · omega
      · exact not_covered_nil rest
  | object first second =>
      refine ⟨False.elim, fun _ => ⟨4, show 4 < 24 by decide, ?_⟩⟩
      rw [valueStores, covered_cons, covered_cons]
      unfold Store.Covers
      dsimp only
      rintro (type | pid | object | rest)
      · omega
      · omega
      · omega
      · exact not_covered_nil rest

theorem covered_layout
    {clears : Bool} {p offset : Nat} {value : Value} {values : List Value}
    (small : wireSize value ≤ uint32Max)
    (smallLater : ∀ value ∈ values, wireSize value ≤ uint32Max) :
    (offset < wireSize value →
      (Covered (layoutStores clears p (value :: values)) (p + offset) ↔
        Covered (elementStores clears p value) (p + offset))) ∧
    (wireSize value ≤ offset →
      (Covered (layoutStores clears p (value :: values)) (p + offset) ↔
        Covered (layoutStores clears (p + wireSize value) values)
          (p + offset))) := by
  have behind : ∀ (start : Nat) (values : List Value),
      (∀ value ∈ values, wireSize value ≤ uint32Max) →
      ∀ store ∈ layoutStores clears start values, start ≤ store.address := by
    intro start values sizes
    induction values generalizing start with
    | nil => exact nofun
    | cons value values ih =>
        obtain ⟨here, later⟩ := List.forall_mem_cons.mp sizes
        intro store member
        rcases List.mem_append.mp member with element | rest
        · exact (elementStores_inside here store element).1
        · exact (Nat.le_add_right _ _).trans (ih _ later store rest)
  rw [layoutStores]
  constructor
  · intro inside
    rw [covered_append, or_iff_left]
    rintro ⟨store, member, covers, -⟩
    have start := behind _ values smallLater store member
    omega
  · intro outside
    rw [covered_append, or_iff_right]
    rintro ⟨store, member, -, covers⟩
    have ends := (elementStores_inside small store member).2
    omega

theorem covered_ppVars
    {values : List Value} (small : ∀ value ∈ values, wireSize value ≤ uint32Max)
    {p offset : Nat} (inside : offset < totalSize values) :
    Covered (layoutStores true p values) (p + offset) := by
  induction values generalizing p offset with
  | nil => exact absurd inside (Nat.not_lt_zero _)
  | cons value values ih =>
      obtain ⟨here, later⟩ := List.forall_mem_cons.mp small
      rw [totalSize_cons] at inside
      obtain ⟨first, rest⟩ := @covered_layout true p offset value values here
        later
      by_cases near : offset < wireSize value
      · exact (first near).mpr (covered_ppVar here near)
      · have far := @ih later (p + wireSize value) (offset - wireSize value)
          (by omega)
        rw [Nat.add_assoc, Nat.add_sub_cancel' (by omega)] at far
        exact (rest (by omega)).mpr far

theorem covered_npVariants
    {values : List Value} (small : ∀ value ∈ values, wireSize value ≤ uint32Max)
    (p : Nat) :
    (∀ offset < totalSize values,
      Covered (layoutStores false p values) (p + offset)) ↔
      ∀ value ∈ values, FillsPlace value := by
  induction values generalizing p with
  | nil => exact iff_of_true (fun _ inside => absurd inside (Nat.not_lt_zero _)) nofun
  | cons value values ih =>
      obtain ⟨here, later⟩ := List.forall_mem_cons.mp small
      have apart := fun offset => @covered_layout false p offset value values
        here later
      obtain ⟨filled, gap⟩ := covered_npVariant here p
      rw [totalSize_cons, List.forall_mem_cons,
        ← ih later (p + wireSize value)]
      constructor
      · intro all
        constructor
        · by_contra unfilled
          obtain ⟨offset, inside, uncovered⟩ := gap unfilled
          exact uncovered (((apart offset).1 inside).mp (all offset (by omega)))
        · intro offset inside
          rw [Nat.add_assoc]
          exact ((apart _).2 (Nat.le_add_right _ _)).mp (all _ (by omega))
      · rintro ⟨fills, rest⟩ offset inside
        by_cases near : offset < wireSize value
        · exact ((apart offset).1 near).mpr (filled fills offset near)
        · have far := rest (offset - wireSize value) (by omega)
          rw [Nat.add_assoc, Nat.add_sub_cancel' (by omega)] at far
          exact ((apart offset).2 (by omega)).mpr far

end Coverage

theorem revealsNothing_iff
    (clears : Bool) (length : Nat) (values : List Value) :
    RevealsNothing (serializeValues clears length 0 values) values ↔
      (FitsBefore length 0 values → ∀ offset < totalSize values,
        Covered (layoutStores clears 0 values) (0 + offset)) := by
  obtain ⟨succeeds, fails⟩ := serializeValues_cases clears length 0 values
  unfold RevealsNothing
  constructor
  · intro reveals fits offset inside
    rw [Nat.zero_add]
    apply (applyStores_same_iff _ _).mp
    intro first second
    exact reveals _ (succeeds fits) first second offset inside
  · intro covered stores serialized first second address inside
    by_cases fits : FitsBefore length 0 values
    · rw [succeeds fits] at serialized
      cases serialized
      have here := covered fits address inside
      rw [Nat.zero_add] at here
      exact (applyStores_same_iff _ _).mpr here first second
    · rw [fails fits] at serialized
      cases serialized

/-- The proxy never reveals what the buffer held before.  The bridge does not
just if each of the values that fit is an integer or a string of whole words. -/
theorem serialized_reveal_nothing_iff (length : Nat) (values : List Value) :
    RevealsNothing (serializePpVar values length) values ∧
    (RevealsNothing (serializeNPVariant values length) values ↔
      (FitsBefore length 0 values → ∀ value ∈ values, FillsPlace value)) := by
  constructor
  · refine (revealsNothing_iff true length values).mpr fun fits offset => ?_
    exact covered_ppVars fits.sizes
  · refine (revealsNothing_iff false length values).trans ?_
    exact forall_congr' fun fits => covered_npVariants fits.sizes 0

/-- Three bytes behind a boolean. -/
theorem boolean_revealed :
    ¬ RevealsNothing (serializeNPVariant [.boolean true] 8) [.boolean true] := by
  intro reveals
  have same := reveals _ rfl (fun _ => 0) (fun _ => 1) 5 (by decide)
  revert same
  decide

end NativeClient.Variants
