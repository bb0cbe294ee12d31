import NativeClient.Variants.Layout

/-!
# Values that are read again

What the writers put into a buffer is what the readers make of it.  The bridge
reserves the size of a whole `SerializedString` in its last check, so that it
refuses the longest strings that it writes itself.
-/

namespace NativeClient.Variants

open NativeClient.Library

section Reading

variable {format : Format} {memory : Nat → Bool} {buffer : Buffer} {length p : Nat}

theorem uint64At_of_holds
    {start : Nat} {bits : Fin (2 ^ 64)}
    (holds : Holds buffer start (littleEndian 8 bits)) :
    uint64At buffer start = bits := by
  rw [uint64At, numberAt_of_holds bits.isLt holds]
  exact Fin.ext (Nat.mod_eq_of_lt bits.isLt)

def Value.Simple : Value → Prop
  | string _ => False
  | object _ _ => False
  | _ => True

private theorem type_of_written {value : Value} (written : Written buffer p value) :
    numberAt buffer p 4 = value.type := by
  refine numberAt_of_holds ?_ written.1
  cases value <;> simp [Value.type]

theorem readElement_simple
    {value : Value} (simple : value.Simple) (written : Written buffer p value) :
    (readElement format memory buffer length p).value =
      some (value, wireSize value) := by
  have type := type_of_written written
  obtain ⟨_, rest⟩ := written
  cases value with
  | undefined => rw [readElement, type]; rfl
  | null => rw [readElement, type]; rfl
  | boolean value =>
      have byte : buffer (p + 4) = if value then 1 else 0 := (holds_cons.mp rest).1
      rw [readElement, type, byte]
      cases value <;> rfl
  | int32 bits =>
      have number := numberAt_of_holds bits.isLt rest
      have same : Fin.ofNat (2 ^ 32) bits.val = bits :=
        Fin.ext (Nat.mod_eq_of_lt bits.isLt)
      rw [readElement, type, number, same]
      rfl
  | double bits =>
      rw [readElement, type, uint64At_of_holds rest]
      rfl
  | string bytes => exact absurd simple id
  | object first second => exact absurd simple id

theorem readElement_string
    {bytes : List UInt8} (written : Written buffer p (.string bytes))
    (fits : wireSize (.string bytes) ≤ uint32Max) (allocated : memory p) :
    (readElement format memory buffer length p).value =
      if addWouldOverflow (format.round bytes.length) format.reserve then none
      else some (format.makeString bytes, fixedSize + format.round bytes.length) := by
  have type := type_of_written written
  obtain ⟨_, count, holds⟩ := written
  have more := le_roundUp bytes.length
  have bound : fixedSize + roundUp bytes.length ≤ uint32Max := fits
  unfold fixedSize at bound
  have number := numberAt_of_holds
    (show bytes.length < 256 ^ 4 by unfold uint32Max at bound; omega) count
  have small : addWouldOverflow bytes.length 7 = false :=
    addWouldOverflow_eq_false (by omega)
  have reads : readElement format memory buffer length p =
      readString format memory buffer length p := by
    rw [readElement, type]
    rfl
  rw [reads, readString, number]
  simp only [small, Bool.false_eq_true, if_false]
  by_cases empty : bytes.length = 0
  · rw [if_pos empty, List.length_eq_zero_iff.mp empty]
  · rw [if_neg empty, if_neg (not_not.mpr allocated)]
    have text : bytesAt buffer (p + 8) bytes.length = bytes := holds
    simp only [text]

/-- What the reader relies on: no objects, memory for every copy, strings that
are made from their bytes, and sums that fit. -/
structure Readable (format : Format) (memory : Nat → Bool) (values : List Value) :
    Prop where
  noObject : ∀ first second, .object first second ∉ values
  allocated : ∀ p, memory p
  text : ∀ bytes, .string bytes ∈ values → format.makeString bytes = .string bytes
  round : ∀ bytes, .string bytes ∈ values →
    format.round bytes.length = roundUp bytes.length

theorem Readable.tail {value : Value} {values : List Value}
    (readable : Readable format memory (value :: values)) :
    Readable format memory values where
  noObject := fun first second member =>
    readable.noObject first second (List.mem_cons_of_mem _ member)
  allocated := readable.allocated
  text := fun bytes member => readable.text bytes (List.mem_cons_of_mem _ member)
  round := fun bytes member => readable.round bytes (List.mem_cons_of_mem _ member)

def Reserved (format : Format) : Value → Prop
  | .string bytes => roundUp bytes.length + format.reserve ≤ uint32Max
  | _ => True

theorem readElement_written
    {value : Value} {values : List Value}
    (readable : Readable format memory (value :: values))
    (written : Written buffer p value) (fits : wireSize value ≤ uint32Max)
    (reserve : format.reserve ≤ uint32Max) :
    (Reserved format value →
        (readElement format memory buffer length p).value =
          some (value, wireSize value)) ∧
      (¬Reserved format value →
        (readElement format memory buffer length p).value = none) := by
  cases value with
  | string bytes =>
      have text := readable.text bytes List.mem_cons_self
      have round := readable.round bytes List.mem_cons_self
      have reads := @readElement_string format memory buffer length p bytes written
        fits (readable.allocated p)
      rw [round, text] at reads
      rw [reads]
      constructor
      · intro reserved
        rw [addWouldOverflow_eq_false reserved, if_neg nofun]
        rfl
      · intro unreserved
        rw [if_pos]
        unfold addWouldOverflow
        unfold Reserved at unreserved
        rw [decide_eq_true_eq]
        omega
  | object first second =>
      exact absurd List.mem_cons_self (readable.noObject first second)
  | _ =>
      exact ⟨fun _ => readElement_simple trivial written,
        fun unreserved => absurd trivial unreserved⟩

theorem deserializeValues_written
    {values : List Value} {readEnd : Nat}
    (readable : Readable format memory values)
    (written : AllWritten buffer p values)
    (fits : totalSize values ≤ uint32Max) (room : p + totalSize values ≤ length)
    (reserve : format.reserve ≤ uint32Max) :
    ((deserializeValues format memory buffer length values.length p readEnd).ok ↔
        ∀ value ∈ values, Reserved format value) ∧
      ((∀ value ∈ values, Reserved format value) →
        (deserializeValues format memory buffer length values.length p
          readEnd).values = values) := by
  induction values generalizing p readEnd with
  | nil => exact ⟨iff_of_true rfl (fun _ member => absurd member List.not_mem_nil),
      fun _ => rfl⟩
  | cons value values ih =>
      rw [totalSize_cons] at fits room
      have positive := fixedSize_le_wireSize value
      unfold fixedSize at positive
      obtain ⟨reads, refuses⟩ := @readElement_written format memory buffer length p
        value values readable written.1 (by omega) reserve
      rw [List.length_cons, deserializeValues, if_neg (by omega)]
      by_cases reserved : Reserved format value
      · obtain ⟨ok, same⟩ := @ih (p + wireSize value)
          (max readEnd (p + (readElement format memory buffer length p).span))
          readable.tail written.2 (by omega) (by omega)
        simp only [reads reserved, List.forall_mem_cons]
        refine ⟨ok.trans ⟨fun rest => ⟨reserved, rest⟩, fun all => all.2⟩, ?_⟩
        intro all
        rw [same all.2]
      · simp only [refuses reserved, List.forall_mem_cons]
        exact ⟨iff_of_false nofun fun all => reserved all.1,
          fun all => absurd all.1 reserved⟩

end Reading

section RoundTrip

theorem fromWireFormat_toWireFormat
    {format : Format} {memory : Nat → Bool} {values : List Value}
    (readable : Readable format memory values)
    (reserve : format.reserve ≤ uint32Max)
    {length : Nat} (room : totalSize values ≤ length) (fits : length ≤ uint32Max)
    (clears : Bool) (initial : Buffer) :
    toWireFormat clears true values length =
        some (layoutStores clears 0 values, totalSize values) ∧
      ((fromWireFormat format memory
          (applyStores (layoutStores clears 0 values) initial) (totalSize values)
          values.length).ok ↔ ∀ value ∈ values, Reserved format value) ∧
      ((∀ value ∈ values, Reserved format value) →
        (fromWireFormat format memory
          (applyStores (layoutStores clears 0 values) initial) (totalSize values)
          values.length).values = values) := by
  cases values with
  | nil =>
      exact ⟨rfl, iff_of_true rfl (fun _ member => absurd member List.not_mem_nil),
        fun _ => rfl⟩
  | cons value values =>
      have positive := fixedSize_le_wireSize value
      unfold fixedSize at positive
      have size : 0 < totalSize (value :: values) := by
        rw [totalSize_cons]
        omega
      have total := @vectorSize_eq 0 (value :: values) (by omega)
      rw [Nat.zero_add] at total
      refine ⟨?_, ?_⟩
      · rw [toWireFormat, if_neg (List.cons_ne_nil _ _), total]
        simp only
        rw [if_neg (by omega), if_neg nofun, serializeValues_eq (by omega) (by omega)]
        rfl
      · have written := allWritten_layoutStores clears 0
          (show totalSize (value :: values) ≤ uint32Max by omega) initial
        have some : (value :: values).length ≠ 0 := Nat.succ_ne_zero _
        rw [fromWireFormat, if_neg some, if_neg (by omega)]
        exact deserializeValues_written readable written (by omega)
          (by omega) reserve

theorem covered_elementStores
    {p : Nat} {value : Value} (fits : wireSize value ≤ uint32Max) {address : Nat}
    (above : p ≤ address) (below : address < p + wireSize value) :
    ∃ store ∈ elementStores true p value, store.Covers address := by
  by_cases type : address < p + 4
  · refine ⟨⟨p, littleEndian 4 value.type⟩, List.mem_cons_self, above, ?_⟩
    rw [length_littleEndian]
    exact type
  by_cases fixed : address < p + 8
  · refine ⟨⟨p + 4, littleEndian 4 0⟩,
      List.mem_cons_of_mem _ List.mem_cons_self, Nat.not_lt.mp type, ?_⟩
    rw [length_littleEndian]
    exact fixed
  have behind : ∀ store ∈ valueStores true p value,
      store ∈ elementStores true p value := by
    intro store member
    exact List.mem_cons_of_mem _ (List.mem_append_right _ member)
  cases value with
  | double bits =>
      refine ⟨_, behind _ List.mem_cons_self, Nat.not_lt.mp fixed, ?_⟩
      rw [length_littleEndian]
      exact below
  | string bytes =>
      have same := roundedStringBytes_eq fits
      have more := le_roundUp bytes.length
      have below : address < p + (8 + roundUp bytes.length) := below
      by_cases text : address < p + 8 + bytes.length
      · exact ⟨_, behind _ (List.mem_cons_of_mem _ List.mem_cons_self),
          Nat.not_lt.mp fixed, text⟩
      · refine ⟨_, behind _ (List.mem_cons_of_mem _ (List.mem_cons_of_mem _
          List.mem_cons_self)), Nat.not_lt.mp text, ?_⟩
        rw [List.length_replicate, same]
        dsimp only
        omega
  | object first second =>
      by_cases half : address < p + 16
      · refine ⟨_, behind _ List.mem_cons_self, Nat.not_lt.mp fixed, ?_⟩
        rw [length_littleEndian]
        exact half
      · refine ⟨_, behind _ (List.mem_cons_of_mem _ List.mem_cons_self),
          Nat.not_lt.mp half, ?_⟩
        rw [length_littleEndian]
        exact below
  | _ => exact absurd below fixed

theorem covered_layoutStores
    {p : Nat} {values : List Value} (fits : totalSize values ≤ uint32Max)
    {address : Nat} :
    (∃ store ∈ layoutStores true p values, store.Covers address) ↔
      p ≤ address ∧ address < p + totalSize values := by
  constructor
  · rintro ⟨store, member, above, below⟩
    have inside := layoutStores_inside fits store member
    omega
  · induction values generalizing p with
    | nil =>
        rintro ⟨above, below⟩
        exact absurd below (Nat.not_lt.mpr above)
    | cons value values ih =>
        rw [totalSize_cons] at fits ⊢
        rintro ⟨above, below⟩
        by_cases here : address < p + wireSize value
        · obtain ⟨store, member, covers⟩ :=
            covered_elementStores (by omega) above here
          exact ⟨store, List.mem_append_left _ member, covers⟩
        · obtain ⟨store, member, covers⟩ :=
            ih (p := p + wireSize value) (by omega) ⟨by omega, by omega⟩
          exact ⟨store, List.mem_append_right _ member, covers⟩

theorem wireSize_le_totalSize
    {value : Value} {values : List Value} (member : value ∈ values) :
    wireSize value ≤ totalSize values := by
  induction values with
  | nil => exact absurd member List.not_mem_nil
  | cons other values ih =>
      rw [totalSize_cons]
      rcases List.mem_cons.mp member with rfl | later
      · exact Nat.le_add_right _ _
      · exact Nat.le_trans (ih later) (Nat.le_add_left _ _)

/-- `Serialize` writes as many bytes as `PpVarVectorSize` computes, and
`DeserializeTo` makes the same values of them.  The browser makes a string from
its bytes. -/
theorem ppVar_round_trip
    {varFromUtf8 : List UInt8 → Value}
    {newProxy : Fin (2 ^ 64) → Fin (2 ^ 64) → Value} {vars : List Value}
    (noObject : ∀ first second, .object first second ∉ vars)
    (text : ∀ bytes, .string bytes ∈ vars → varFromUtf8 bytes = .string bytes)
    {length : Nat} (room : totalSize vars ≤ length) (fits : length ≤ uint32Max)
    {memory : Nat → Bool} (allocated : ∀ p, memory p) (initial : Buffer) :
    ∃ stores, serialize true vars length = some (stores, ppVarVectorSize vars) ∧
      (∀ address, (∃ store ∈ stores, store.Covers address) ↔
        address < ppVarVectorSize vars) ∧
      (deserializeTo varFromUtf8 newProxy memory (applyStores stores initial)
        (ppVarVectorSize vars) vars.length).ok ∧
      (deserializeTo varFromUtf8 newProxy memory (applyStores stores initial)
        (ppVarVectorSize vars) vars.length).values = vars := by
  have total : ppVarVectorSize vars = totalSize vars := by
    rw [ppVarVectorSize, vectorSize_eq (by omega), Nat.zero_add]
  have size : ∀ value ∈ vars, wireSize value ≤ uint32Max := by
    intro value member
    have least := wireSize_le_totalSize member
    omega
  have reserved : ∀ value ∈ vars,
      Reserved (ppVarFormat varFromUtf8 newProxy) value := by
    intro value member
    cases value with
    | string bytes =>
        have bound : fixedSize + roundUp bytes.length ≤ uint32Max :=
          size _ member
        show roundUp bytes.length + fixedSize ≤ uint32Max
        omega
    | _ => trivial
  have readable : Readable (ppVarFormat varFromUtf8 newProxy) memory vars := by
    refine ⟨noObject, allocated, text, ?_⟩
    intro bytes member
    exact roundedStringBytes_eq (size _ member)
  obtain ⟨written, ok, same⟩ := fromWireFormat_toWireFormat readable
    (show fixedSize ≤ uint32Max by decide) room fits true initial
  rw [total]
  refine ⟨layoutStores true 0 vars, written, ?_, ok.mpr reserved, same reserved⟩
  intro address
  rw [covered_layoutStores (by omega), Nat.zero_add]
  exact ⟨fun both => both.2, fun below => ⟨Nat.zero_le _, below⟩⟩

/-- A string of three bytes between other values. -/
theorem ppVar_round_trip_mixed :
    ∃ stores, serialize true
        [.boolean true, .string [97, 98, 99], .double 7, .undefined] 64 =
          some (stores, 48) ∧
      (deserializeTo .string (fun _ _ => .null) (fun _ => true)
        (applyStores stores fun _ => 0) 48 4).values =
          [.boolean true, .string [97, 98, 99], .double 7, .undefined] := by
  obtain ⟨stores, written, _, _, same⟩ := @ppVar_round_trip .string
    (fun _ _ => .null) [.boolean true, .string [97, 98, 99], .double 7, .undefined]
    (by simp) (fun _ _ => rfl) 64 (by decide) (by decide) (fun _ => true)
    (fun _ => rfl) fun _ => 0
  exact ⟨stores, written, same⟩

end RoundTrip

section Bridge

/-- The bridge writes as many bytes as it computed and makes the same variants of
them. -/
def VariantsReturn (createProxy : Fin (2 ^ 64) → Fin (2 ^ 64) → Value)
    (memory : Nat → Bool) (initial : Buffer) (variants : List Value)
    (length : Nat) : Prop :=
  ∃ stores,
    npVariantsToWireFormat true variants length =
      some (stores, npVariantVectorSize variants) ∧
    (∀ store ∈ stores, store.address + store.bytes.length ≤
      npVariantVectorSize variants) ∧
    (wireFormatToNpVariants createProxy memory (applyStores stores initial)
      (npVariantVectorSize variants) variants.length).ok ∧
    (wireFormatToNpVariants createProxy memory (applyStores stores initial)
      (npVariantVectorSize variants) variants.length).values = variants

def StringReturns (sizeMax : Nat) (memory : Nat → Bool) (initial : Buffer)
    (string : List UInt8) (length : Nat) : Prop :=
  ∃ stores wireLength,
    npStringToWireFormat true string length = some (stores, wireLength) ∧
    (wireFormatToNpString sizeMax memory (applyStores stores initial)
      wireLength).string = some string

variable {createProxy : Fin (2 ^ 64) → Fin (2 ^ 64) → Value}
  {memory : Nat → Bool} {initial : Buffer} {variants : List Value} {length : Nat}

theorem reserved_npVariantFormat_iff (value : Value) :
    Reserved (npVariantFormat createProxy) value ↔
      ∀ bytes, value = .string bytes → bytes.length ≤ 2 ^ 32 - 24 := by
  cases value with
  | string bytes =>
      have rounded : Reserved (npVariantFormat createProxy) (.string bytes) ↔
          roundUp bytes.length + 16 ≤ uint32Max := Iff.rfl
      rw [rounded]
      unfold roundUp uint32Max
      constructor
      · intro reserved other same
        cases same
        omega
      · intro short
        have bound := short bytes rfl
        omega
  | _ => exact iff_of_true trivial nofun

theorem variantsReturn_iff
    (noObject : ∀ first second, .object first second ∉ variants)
    (room : totalSize variants ≤ length) (fits : length ≤ uint32Max)
    (allocated : ∀ p, memory p) :
    VariantsReturn createProxy memory initial variants length ↔
      ∀ bytes, .string bytes ∈ variants → bytes.length ≤ 2 ^ 32 - 24 := by
  have total : npVariantVectorSize variants = totalSize variants := by
    rw [npVariantVectorSize, vectorSize_eq (by omega), Nat.zero_add]
  have readable : Readable (npVariantFormat createProxy) memory variants :=
    ⟨noObject, allocated, fun _ _ => rfl, fun _ _ => rfl⟩
  obtain ⟨written, ok, same⟩ := fromWireFormat_toWireFormat readable
    (show 16 ≤ uint32Max by decide) room fits false initial
  have short : (∀ value ∈ variants,
      Reserved (npVariantFormat createProxy) value) ↔
        ∀ bytes, .string bytes ∈ variants → bytes.length ≤ 2 ^ 32 - 24 := by
    simp only [reserved_npVariantFormat_iff]
    constructor
    · intro all bytes member
      exact all _ member bytes rfl
    · rintro all value member bytes rfl
      exact all bytes member
  rw [← short]
  constructor
  · rintro ⟨stores, wrote, _, read, _⟩
    cases wrote.symm.trans (total ▸ written)
    rw [total] at read
    exact ok.mp read
  · intro reserved
    refine ⟨layoutStores false 0 variants, total ▸ written, ?_, ?_, ?_⟩
    · intro store member
      have inside := layoutStores_inside (by omega) store member
      omega
    · rw [total]
      exact ok.mpr reserved
    · rw [total]
      exact same reserved

/-- All strings return; variants do unless one is a string of the last lengths
that the writer admits. -/
theorem npVariant_round_trip
    (noObject : ∀ first second, .object first second ∉ variants)
    (room : totalSize variants ≤ length) (fits : length ≤ uint32Max)
    {sizeMax : Nat} (size : uint32Max ≤ sizeMax) (allocated : ∀ p, memory p) :
    (VariantsReturn createProxy memory initial variants length ∧
        ∀ string stringRoom, string.length + 4 ≤ stringRoom →
          stringRoom ≤ uint32Max →
            StringReturns sizeMax memory initial string stringRoom) ↔
      ∀ bytes, .string bytes ∈ variants → bytes.length ≤ 2 ^ 32 - 24 := by
  rw [variantsReturn_iff noObject room fits allocated, and_iff_left]
  intro string stringRoom enough bounded
  obtain ⟨stores, wrote, read⟩ := npString_round_trip enough bounded size
    (allocated string.length) initial
  exact ⟨stores, _, wrote, read⟩

theorem npVariant_round_trip_pair :
    VariantsReturn (fun _ _ => .null) (fun _ => true) (fun _ => 0)
        [.int32 5, .string [97]] 24 ∧
      StringReturns (2 ^ 64 - 1) (fun _ => true) (fun _ => 0) [97] 5 := by
  obtain ⟨variants, strings⟩ := (@npVariant_round_trip (fun _ _ => .null)
    (fun _ => true) (fun _ => 0) [.int32 5, .string [97]] 24 (by simp) (by decide)
    (by decide) (2 ^ 64 - 1) (by decide) fun _ => rfl).mpr (by simp)
  exact ⟨variants, strings [97] 5 (by decide) (by decide)⟩

theorem not_variantsReturn_of_long
    {bytes : List UInt8} (fits : fixedSize + roundUp bytes.length ≤ uint32Max)
    (long : 2 ^ 32 - 24 < bytes.length) :
    totalSize [.string bytes] ≤ uint32Max ∧
      ¬VariantsReturn (fun _ _ => .null) (fun _ => true) (fun _ => 0)
        [.string bytes] uint32Max := by
  have size : totalSize [.string bytes] ≤ uint32Max := fits
  refine ⟨size, ?_⟩
  rw [variantsReturn_iff (by simp) size (Nat.le_refl _) fun _ => rfl]
  intro short
  have bound := short bytes List.mem_cons_self
  omega

def zeros (count : Nat) : List UInt8 := List.replicate count 0

/-- The longest string that is written is not read. -/
theorem npVariant_not_returned :
    totalSize [.string (zeros (2 ^ 32 - 16))] ≤ uint32Max ∧
      ¬VariantsReturn (fun _ _ => .null) (fun _ => true) (fun _ => 0)
        [.string (zeros (2 ^ 32 - 16))] uint32Max := by
  have length : (zeros (2 ^ 32 - 16)).length = 2 ^ 32 - 16 :=
    List.length_replicate
  refine not_variantsReturn_of_long ?_ ?_
  · rw [length]
    decide
  · rw [length]
    decide

end Bridge

end NativeClient.Variants
