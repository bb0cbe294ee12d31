import NativeClient.Variants.Layout

/-!
# What the readers read

The readers only check that a value starts inside the buffer.  So they stay
inside it exactly if everything that the types and the announced lengths call
for is there, for every value that they come to.
-/

namespace NativeClient.Variants

open NativeClient.Library

section Elements

/-- The length that a string at `p` announces. -/
def announced (buffer : Buffer) (p : Nat) : Nat := numberAt buffer (p + 4) 4

/-- The string at `p` is copied: it is not empty, its length can be rounded up,
and there is memory for it. -/
def Copied (memory : Nat → Bool) (buffer : Buffer) (p : Nat) : Prop :=
  numberAt buffer p 4 = 5 ∧ announced buffer p ≠ 0 ∧
    announced buffer p + 7 ≤ uint32Max ∧ memory p

instance (memory : Nat → Bool) (buffer : Buffer) (p : Nat) :
    Decidable (Copied memory buffer p) :=
  inferInstanceAs (Decidable (_ ∧ _))

/-- How many bytes the value at `p` calls for. -/
def spanAt (memory : Nat → Bool) (buffer : Buffer) (p : Nat) : Nat :=
  match numberAt buffer p 4 with
  | 2 => 5
  | 3 => 8
  | 4 => doubleSize
  | 5 => if Copied memory buffer p then 8 + announced buffer p else 8
  | 6 => objectSize
  | _ => 4

def layoutSize (buffer : Buffer) (p : Nat) : Option Nat :=
  match numberAt buffer p 4 with
  | 0 => some fixedSize
  | 1 => some fixedSize
  | 2 => some fixedSize
  | 3 => some fixedSize
  | 4 => some doubleSize
  | 5 => some (fixedSize + roundUp (announced buffer p))
  | 6 => some objectSize
  | _ => none

def StringAccepted (format : Format) (memory : Nat → Bool) (buffer : Buffer)
    (p : Nat) : Prop :=
  announced buffer p + 7 ≤ uint32Max ∧
    (announced buffer p ≠ 0 → memory p) ∧
    format.round (announced buffer p) + format.reserve ≤ uint32Max

instance (format : Format) (memory : Nat → Bool) (buffer : Buffer) (p : Nat) :
    Decidable (StringAccepted format memory buffer p) :=
  inferInstanceAs (Decidable (_ ∧ _))

def sizeAt (format : Format) (memory : Nat → Bool) (buffer : Buffer) (p : Nat) :
    Option Nat :=
  if numberAt buffer p 4 = 5 ∧ ¬StringAccepted format memory buffer p then none
  else layoutSize buffer p

variable {format : Format} {memory : Nat → Bool} {buffer : Buffer} {length p : Nat}

structure Format.Sound (format : Format) : Prop where
  round : ∀ n, format.round n + format.reserve ≤ uint32Max →
    format.round n = roundUp n
  reserve : format.reserve ≤ uint32Max

theorem addWouldOverflow_iff {first second : Nat} (small : second ≤ uint32Max) :
    addWouldOverflow first second = true ↔ ¬first + second ≤ uint32Max := by
  unfold addWouldOverflow
  rw [decide_eq_true_eq]
  omega

theorem readString_spec (sound : format.Sound) (type : numberAt buffer p 4 = 5) :
    (readString format memory buffer length p).span = spanAt memory buffer p ∧
      (readString format memory buffer length p).value.map Prod.snd =
        sizeAt format memory buffer p ∧
      (readString format memory buffer length p).copies =
        if Copied memory buffer p then
          [(format.copySize length (announced buffer p), announced buffer p)]
        else [] := by
  have span : spanAt memory buffer p =
      if Copied memory buffer p then 8 + announced buffer p else 8 := by
    rw [spanAt, type]
    rfl
  have size : sizeAt format memory buffer p =
      if StringAccepted format memory buffer p then
        some (fixedSize + roundUp (announced buffer p))
      else none := by
    rw [sizeAt, layoutSize, type]
    by_cases accepted : StringAccepted format memory buffer p
    · rw [if_neg fun both => both.2 accepted, if_pos accepted]
      rfl
    · rw [if_pos ⟨rfl, accepted⟩, if_neg accepted]
  have count : numberAt buffer (p + 4) 4 = announced buffer p := rfl
  rw [span, size, readString, count]
  by_cases large : announced buffer p + 7 ≤ uint32Max
  · have rounds : ¬addWouldOverflow (announced buffer p) 7 = true := by
      rw [addWouldOverflow_iff (by decide), not_not]
      exact large
    rw [if_neg rounds]
    by_cases reserved :
        format.round (announced buffer p) + format.reserve ≤ uint32Max
    · have fits : ¬addWouldOverflow (format.round (announced buffer p))
          format.reserve = true := by
        rw [addWouldOverflow_iff sound.reserve, not_not]
        exact reserved
      have rounded := sound.round _ reserved
      simp only [if_neg fits]
      by_cases empty : announced buffer p = 0
      · have copied : ¬Copied memory buffer p := fun copied => copied.2.1 empty
        have accepted : StringAccepted format memory buffer p :=
          ⟨large, fun some => absurd empty some, reserved⟩
        rw [if_neg copied, if_pos accepted, if_neg copied, if_pos empty, rounded]
        exact ⟨rfl, rfl, rfl⟩
      · by_cases allocated : memory p
        · have copied : Copied memory buffer p := ⟨type, empty, large, allocated⟩
          have accepted : StringAccepted format memory buffer p :=
            ⟨large, fun _ => allocated, reserved⟩
          rw [if_pos copied, if_pos accepted, if_pos copied, if_neg empty,
            if_neg (not_not.mpr allocated), rounded]
          exact ⟨rfl, rfl, rfl⟩
        · have copied : ¬Copied memory buffer p :=
            fun copied => allocated copied.2.2.2
          have accepted : ¬StringAccepted format memory buffer p :=
            fun accepted => allocated (accepted.2.1 empty)
          rw [if_neg copied, if_neg accepted, if_neg copied, if_neg empty,
            if_pos allocated]
          exact ⟨rfl, rfl, rfl⟩
    · have overflows : addWouldOverflow (format.round (announced buffer p))
          format.reserve = true := by
        rw [addWouldOverflow_iff sound.reserve]
        exact reserved
      have accepted : ¬StringAccepted format memory buffer p :=
        fun accepted => reserved accepted.2.2
      simp only [if_pos overflows, if_neg accepted]
      by_cases empty : announced buffer p = 0
      · have copied : ¬Copied memory buffer p := fun copied => copied.2.1 empty
        rw [if_neg copied, if_neg copied, if_pos empty]
        exact ⟨rfl, rfl, rfl⟩
      · by_cases allocated : memory p
        · have copied : Copied memory buffer p := ⟨type, empty, large, allocated⟩
          rw [if_pos copied, if_pos copied, if_neg empty,
            if_neg (not_not.mpr allocated)]
          exact ⟨rfl, rfl, rfl⟩
        · have copied : ¬Copied memory buffer p :=
            fun copied => allocated copied.2.2.2
          rw [if_neg copied, if_neg copied, if_neg empty, if_pos allocated]
          exact ⟨rfl, rfl, rfl⟩
  · have overflows : addWouldOverflow (announced buffer p) 7 = true := by
      rw [addWouldOverflow_iff (by decide)]
      exact large
    have copied : ¬Copied memory buffer p := fun copied => large copied.2.2.1
    have accepted : ¬StringAccepted format memory buffer p :=
      fun accepted => large accepted.1
    rw [if_pos overflows, if_neg copied, if_neg accepted, if_neg copied]
    exact ⟨rfl, rfl, rfl⟩

theorem readElement_spec (sound : format.Sound) (p : Nat) :
    (readElement format memory buffer length p).span = spanAt memory buffer p ∧
      (readElement format memory buffer length p).value.map Prod.snd =
        sizeAt format memory buffer p ∧
      (readElement format memory buffer length p).copies =
        if Copied memory buffer p then
          [(format.copySize length (announced buffer p), announced buffer p)]
        else [] := by
  by_cases string : numberAt buffer p 4 = 5
  · have reads : readElement format memory buffer length p =
        readString format memory buffer length p := by
      rw [readElement, string]
      rfl
    rw [reads]
    exact readString_spec sound string
  · have copied : ¬Copied memory buffer p := fun copied => string copied.1
    have size : sizeAt format memory buffer p = layoutSize buffer p := by
      rw [sizeAt, if_neg fun both => string both.1]
    rw [if_neg copied, size, readElement, spanAt, layoutSize]
    generalize numberAt buffer p 4 = type at string
    rcases type with _ | _ | _ | _ | _ | _ | _ | type
    · exact ⟨rfl, rfl, rfl⟩
    · exact ⟨rfl, rfl, rfl⟩
    · exact ⟨rfl, rfl, rfl⟩
    · exact ⟨rfl, rfl, rfl⟩
    · exact ⟨rfl, rfl, rfl⟩
    · exact absurd rfl string
    · exact ⟨rfl, rfl, rfl⟩
    · exact ⟨rfl, rfl, rfl⟩

end Elements

section Loop

variable {format : Format} {memory : Nat → Bool} {buffer : Buffer} {length : Nat}

/-- Every value that the loop comes to satisfies `fits` where it starts, and
`last` holds where the last one ends. -/
def Guarded (format : Format) (memory : Nat → Bool) (buffer : Buffer)
    (length : Nat) (fits last : Nat → Prop) : Nat → Nat → Prop
  | 0, p => last p
  | argc + 1, p => p < length → fits p ∧
      ∀ size, sizeAt format memory buffer p = some size →
        Guarded format memory buffer length fits last argc (p + size)

def HoldsComplete (buffer : Buffer) (length : Nat) : Nat → Nat → Prop
  | 0, _ => True
  | argc + 1, p => ∃ size, layoutSize buffer p = some size ∧ p + size ≤ length ∧
      HoldsComplete buffer length argc (p + size)

theorem deserializeValues_succ (sound : format.Sound)
    {argc p readEnd : Nat} (inside : p < length) :
    (sizeAt format memory buffer p = none ∧
        deserializeValues format memory buffer length (argc + 1) p readEnd =
          ⟨false, [], max readEnd (p + spanAt memory buffer p),
            if Copied memory buffer p then
              [(format.copySize length (announced buffer p), announced buffer p)]
            else []⟩) ∨
      ∃ value size, sizeAt format memory buffer p = some size ∧
        deserializeValues format memory buffer length (argc + 1) p readEnd =
          { deserializeValues format memory buffer length argc (p + size)
              (max readEnd (p + spanAt memory buffer p)) with
            values := value :: (deserializeValues format memory buffer length argc
              (p + size) (max readEnd (p + spanAt memory buffer p))).values
            copies := (if Copied memory buffer p then
                [(format.copySize length (announced buffer p), announced buffer p)]
              else []) ++
              (deserializeValues format memory buffer length argc (p + size)
                (max readEnd (p + spanAt memory buffer p))).copies } := by
  obtain ⟨span, size, copies⟩ :=
    @readElement_spec format memory buffer length sound p
  rw [deserializeValues, if_neg (Nat.not_le.mpr inside)]
  simp only [span, copies]
  cases element : (readElement format memory buffer length p).value with
  | none =>
      rw [element] at size
      exact .inl ⟨size.symm, rfl⟩
  | some pair =>
      obtain ⟨value, count⟩ := pair
      rw [element] at size
      exact .inr ⟨value, count, size.symm, rfl⟩

theorem le_readEnd_deserializeValues (sound : format.Sound) (argc p readEnd : Nat) :
    readEnd ≤
      (deserializeValues format memory buffer length argc p readEnd).readEnd := by
  induction argc generalizing p readEnd with
  | zero => exact Nat.le_refl _
  | succ argc ih =>
      by_cases inside : p < length
      · rcases @deserializeValues_succ format memory buffer length sound argc p
          readEnd inside with ⟨_, same⟩ | ⟨value, size, _, same⟩
        · rw [same]
          exact Nat.le_max_left _ _
        · rw [same]
          exact Nat.le_trans (Nat.le_max_left _ _) (ih _ _)
      · rw [deserializeValues, if_pos (Nat.not_lt.mp inside)]

theorem layoutSize_of_sizeAt {p size : Nat}
    (goesOn : sizeAt format memory buffer p = some size) :
    layoutSize buffer p = some size := by
  unfold sizeAt at goesOn
  split at goesOn
  · cases goesOn
  · exact goesOn

theorem deserializeValues_confined_iff (sound : format.Sound)
    {argc p readEnd : Nat} (before : readEnd ≤ length) :
    ((deserializeValues format memory buffer length argc p readEnd).readEnd ≤
          length ∧
        ((deserializeValues format memory buffer length argc p readEnd).ok →
          p ≤ length ∧ HoldsComplete buffer length argc p)) ↔
      Guarded format memory buffer length
        (fun p => p + spanAt memory buffer p ≤ length) (· ≤ length) argc p := by
  induction argc generalizing p readEnd with
  | zero =>
      constructor
      · rintro ⟨_, complete⟩
        exact (complete rfl).1
      · intro inside
        exact ⟨before, fun _ => ⟨inside, trivial⟩⟩
  | succ argc ih =>
      rw [Guarded]
      by_cases inside : p < length
      · rw [forall_prop_of_true inside]
        rcases @deserializeValues_succ format memory buffer length sound argc p
          readEnd inside with ⟨none, same⟩ | ⟨value, size, goesOn, same⟩
        · rw [same, none]
          constructor
          · rintro ⟨reads, _⟩
            exact ⟨Nat.le_trans (Nat.le_max_right _ _) reads, nofun⟩
          · rintro ⟨reads, _⟩
            exact ⟨Nat.max_le.mpr ⟨before, reads⟩, nofun⟩
        · have layout := layoutSize_of_sizeAt goesOn
          rw [same]
          simp only [goesOn, Option.some.injEq, forall_eq']
          by_cases reads : p + spanAt memory buffer p ≤ length
          · rw [← @ih (p + size) _ (Nat.max_le.mpr ⟨before, reads⟩),
              and_iff_right reads]
            refine and_congr_right fun _ => forall_congr' fun _ => ?_
            rw [HoldsComplete, layout]
            simp only [Option.some.injEq, exists_eq_left']
            exact and_iff_right (Nat.le_of_lt inside)
          · refine iff_of_false ?_ fun guarded => reads guarded.1
            rintro ⟨later, _⟩
            have monotone := @le_readEnd_deserializeValues format memory buffer
              length sound argc (p + size)
              (max readEnd (p + spanAt memory buffer p))
            omega
      · rw [deserializeValues, if_pos (Nat.not_lt.mp inside)]
        exact iff_of_true ⟨before, nofun⟩ fun below => absurd below inside

theorem deserializeValues_copies_iff (sound : format.Sound)
    {argc p readEnd : Nat} (before : readEnd ≤ length) :
    ((deserializeValues format memory buffer length argc p readEnd).readEnd ≤
          length ∧
        ∀ copy ∈ (deserializeValues format memory buffer length argc p
          readEnd).copies, copy.2 ≤ copy.1) ↔
      Guarded format memory buffer length
        (fun p => p + spanAt memory buffer p ≤ length ∧
          (Copied memory buffer p →
            announced buffer p ≤ format.copySize length (announced buffer p)))
        (fun _ => True) argc p := by
  have copies : ∀ p, (∀ copy ∈ (if Copied memory buffer p then
      [(format.copySize length (announced buffer p), announced buffer p)]
      else [] : List (Nat × Nat)), copy.2 ≤ copy.1) ↔
        (Copied memory buffer p →
          announced buffer p ≤ format.copySize length (announced buffer p)) := by
    intro p
    by_cases copied : Copied memory buffer p
    · rw [if_pos copied, List.forall_mem_singleton, forall_prop_of_true copied]
    · rw [if_neg copied, forall_prop_of_false copied]
      simp
  induction argc generalizing p readEnd with
  | zero =>
      exact iff_of_true ⟨before, fun _ member => absurd member List.not_mem_nil⟩
        trivial
  | succ argc ih =>
      rw [Guarded]
      by_cases inside : p < length
      · rw [forall_prop_of_true inside]
        rcases @deserializeValues_succ format memory buffer length sound argc p
          readEnd inside with ⟨none, same⟩ | ⟨value, size, goesOn, same⟩
        · rw [same, none, copies]
          constructor
          · rintro ⟨reads, fits⟩
            exact ⟨⟨Nat.le_trans (Nat.le_max_right _ _) reads, fits⟩, nofun⟩
          · rintro ⟨⟨reads, fits⟩, _⟩
            exact ⟨Nat.max_le.mpr ⟨before, reads⟩, fits⟩
        · rw [same]
          simp only [goesOn, Option.some.injEq, forall_eq', List.forall_mem_append,
            copies]
          by_cases reads : p + spanAt memory buffer p ≤ length
          · have later := @ih (p + size) (max readEnd (p + spanAt memory buffer p))
              (Nat.max_le.mpr ⟨before, reads⟩)
            constructor
            · rintro ⟨within, here, rest⟩
              exact ⟨⟨reads, here⟩, later.mp ⟨within, rest⟩⟩
            · rintro ⟨⟨_, here⟩, guarded⟩
              obtain ⟨within, rest⟩ := later.mpr guarded
              exact ⟨within, here, rest⟩
          · refine iff_of_false ?_ fun guarded => reads guarded.1.1
            rintro ⟨later, _⟩
            have monotone := @le_readEnd_deserializeValues format memory buffer
              length sound argc (p + size)
              (max readEnd (p + spanAt memory buffer p))
            omega
      · rw [deserializeValues, if_pos (Nat.not_lt.mp inside)]
        exact iff_of_true ⟨before, fun _ member => absurd member List.not_mem_nil⟩
          fun below => absurd below inside

end Loop

section Proxy

variable {varFromUtf8 : List UInt8 → Value}
  {newProxy : Fin (2 ^ 64) → Fin (2 ^ 64) → Value}
  {memory : Nat → Bool} {bytes : Buffer} {length argc : Nat}

theorem ppVarFormat_sound : (ppVarFormat varFromUtf8 newProxy).Sound := by
  refine ⟨?_, show fixedSize ≤ uint32Max by decide⟩
  intro n fits
  have bound : roundedStringBytes n + fixedSize ≤ uint32Max := fits
  show roundedStringBytes n = roundUp n
  unfold roundedStringBytes fixedSize at *
  split
  next large =>
    rw [if_pos large] at bound
    omega
  · rfl

def Confined (varFromUtf8 : List UInt8 → Value)
    (newProxy : Fin (2 ^ 64) → Fin (2 ^ 64) → Value) (memory : Nat → Bool)
    (bytes : Buffer) (length argc : Nat) : Prop :=
  (deserializeTo varFromUtf8 newProxy memory bytes length argc).readEnd ≤ length ∧
    (¬HoldsComplete bytes length argc 0 →
      (deserializeTo varFromUtf8 newProxy memory bytes length argc).ok = false)

/-- `DeserializeTo` is confined exactly if all that its values call for is in
the buffer, and the last one ends there. -/
theorem deserializeTo_confined_iff :
    Confined varFromUtf8 newProxy memory bytes length argc ↔
      Guarded (ppVarFormat varFromUtf8 newProxy) memory bytes length
        (fun p => p + spanAt memory bytes p ≤ length) (· ≤ length) argc 0 := by
  rw [← deserializeValues_confined_iff ppVarFormat_sound (Nat.zero_le length),
    Confined, deserializeTo, fromWireFormat]
  by_cases none : argc = 0
  · subst none
    rw [if_pos rfl]
    exact iff_of_true ⟨Nat.zero_le _, fun not => absurd trivial not⟩
      ⟨Nat.zero_le _, fun _ => ⟨Nat.zero_le _, trivial⟩⟩
  rw [if_neg none]
  by_cases empty : length = 0
  · subst empty
    obtain ⟨less, rfl⟩ := Nat.exists_eq_succ_of_ne_zero none
    rw [if_pos rfl, deserializeValues, if_pos (Nat.le_refl 0)]
    exact iff_of_true ⟨Nat.le_refl 0, fun _ => rfl⟩ ⟨Nat.le_refl 0, nofun⟩
  rw [if_neg empty]
  refine and_congr_right fun _ => ?_
  rw [← Bool.not_eq_true, not_imp_not]
  exact forall_congr' fun _ => (and_iff_right (Nat.zero_le _)).symm

/-- A string of eight bytes that announces a hundred, and four bytes that are
taken for a whole value. -/
theorem deserializeTo_not_confined :
    ¬Confined .string (fun _ _ => .null) (fun _ => true)
        (Buffer.ofList [5, 0, 0, 0, 100, 0, 0, 0]) 8 1 ∧
      ¬Confined .string (fun _ _ => .null) (fun _ => true)
        (Buffer.ofList [0, 0, 0, 0]) 4 1 := by
  constructor
  · intro confined
    exact absurd confined.1 (by decide)
  · intro confined
    have incomplete : ¬HoldsComplete (Buffer.ofList [0, 0, 0, 0]) 4 1 0 := by
      rintro ⟨size, layout, inside, _⟩
      cases layout
      exact absurd inside (by decide)
    exact absurd (confined.2 incomplete) (by decide)

end Proxy

section Bridge

variable {createProxy : Fin (2 ^ 64) → Fin (2 ^ 64) → Value}
  {memory : Nat → Bool} {bytes : Buffer} {length argc : Nat}

theorem Guarded.congr
    {format : Format} {fits other last : Nat → Prop}
    (same : ∀ p, fits p ↔ other p) (p : Nat) :
    Guarded format memory bytes length fits last argc p ↔
      Guarded format memory bytes length other last argc p := by
  induction argc generalizing p with
  | zero => exact Iff.rfl
  | succ argc ih =>
      rw [Guarded, Guarded]
      simp only [same, ih]

def VariantsConfined (createProxy : Fin (2 ^ 64) → Fin (2 ^ 64) → Value)
    (memory : Nat → Bool) (bytes : Buffer) (length argc : Nat) : Prop :=
  (wireFormatToNpVariants createProxy memory bytes length argc).readEnd ≤ length ∧
    ∀ copy ∈ (wireFormatToNpVariants createProxy memory bytes length argc).copies,
      copy.2 ≤ copy.1

def StringConfined (sizeMax : Nat) (memory : Nat → Bool) (bytes : Buffer)
    (length : Nat) : Prop :=
  (wireFormatToNpString sizeMax memory bytes length).readEnd ≤ length ∧
    ∀ copy ∈ (wireFormatToNpString sizeMax memory bytes length).copies,
      copy.2 ≤ copy.1

/-- The values that the loop comes to are inside, and no string is copied in the
one case where the size of the copy wraps. -/
def VariantFits (memory : Nat → Bool) (bytes : Buffer) (length p : Nat) : Prop :=
  p + spanAt memory bytes p ≤ length ∧
    (Copied memory bytes p → length ≠ uint32Max)

theorem variantFits_iff (small : length ≤ uint32Max) (p : Nat) :
    (p + spanAt memory bytes p ≤ length ∧
        (Copied memory bytes p → announced bytes p ≤
          (npVariantFormat createProxy).copySize length (announced bytes p))) ↔
      VariantFits memory bytes length p := by
  refine and_congr_right fun inside => forall_congr' fun copied => ?_
  have span : spanAt memory bytes p = 8 + announced bytes p := by
    rw [spanAt, copied.1]
    exact if_pos copied
  have some := copied.2.1
  show announced bytes p ≤ (length + 1) % 2 ^ 32 ↔ length ≠ uint32Max
  unfold uint32Max at *
  rcases Nat.lt_or_ge (length + 1) (2 ^ 32) with less | all
  · rw [Nat.mod_eq_of_lt less]
    omega
  · have whole : length + 1 = 2 ^ 32 := by omega
    rw [whole, Nat.mod_self]
    omega

theorem variantsConfined_iff_guarded (small : length ≤ uint32Max) :
    VariantsConfined createProxy memory bytes length argc ↔
      Guarded (npVariantFormat createProxy) memory bytes length
        (VariantFits memory bytes length) (fun _ => True) argc 0 := by
  have sound : (npVariantFormat createProxy).Sound :=
    ⟨fun _ _ => rfl, show 16 ≤ uint32Max by decide⟩
  rw [← Guarded.congr (variantFits_iff small) 0,
    ← deserializeValues_copies_iff sound (Nat.zero_le length),
    VariantsConfined, wireFormatToNpVariants, fromWireFormat]
  by_cases none : argc = 0
  · rw [none, if_pos rfl]
    exact Iff.rfl
  rw [if_neg none]
  by_cases empty : length = 0
  · obtain ⟨less, rfl⟩ := Nat.exists_eq_succ_of_ne_zero none
    rw [if_pos empty, deserializeValues, if_pos (Nat.le_of_eq empty)]
  · rw [if_neg empty]

theorem stringConfined_iff
    {sizeMax : Nat} (size : uint32Max ≤ sizeMax) (small : length ≤ uint32Max) :
    StringConfined sizeMax memory bytes length ↔
      4 ≤ length ∧ (sizeMax < numberAt bytes 0 4 + 4 →
        memory (numberAt bytes 0 4) = false) := by
  have bound : numberAt bytes 0 4 < 256 ^ 4 := numberAt_lt 0 4
  unfold StringConfined wireFormatToNpString uint32Max at *
  by_cases refused : length < (numberAt bytes 0 4 + 4) % (sizeMax + 1)
  · rw [if_pos refused]
    simp only [List.not_mem_nil, false_implies, implies_true, and_true]
    refine ⟨fun inside => ⟨inside, fun wraps => ?_⟩, fun both => both.1⟩
    rw [Nat.mod_eq_sub_mod (by omega), Nat.mod_eq_of_lt (by omega)] at refused
    omega
  rw [if_neg refused]
  by_cases allocated : memory (numberAt bytes 0 4)
  · rw [if_neg (not_not.mpr allocated), List.forall_mem_singleton,
      and_iff_left (Nat.le_refl _), allocated]
    rcases Nat.lt_or_ge sizeMax (numberAt bytes 0 4 + 4) with wraps | fits
    · refine iff_of_false ?_ fun both => absurd (both.2 wraps) nofun
      dsimp only
      omega
    · rw [Nat.mod_eq_of_lt (by omega)] at refused
      refine iff_of_true ?_ ⟨by omega, fun wraps => by omega⟩
      dsimp only
      omega
  · rw [if_pos allocated]
    simp only [List.not_mem_nil, false_implies, implies_true, and_true]
    exact ⟨fun inside => ⟨inside, fun _ => Bool.not_eq_true _ ▸ allocated⟩,
      fun both => both.1⟩

/-- When the bridge is confined, for variants and for strings. -/
theorem npDecoding_confined_iff
    {sizeMax : Nat} (size : uint32Max ≤ sizeMax) (small : length ≤ uint32Max) :
    (VariantsConfined createProxy memory bytes length argc ↔
        Guarded (npVariantFormat createProxy) memory bytes length
          (VariantFits memory bytes length) (fun _ => True) argc 0) ∧
      (StringConfined sizeMax memory bytes length ↔
        4 ≤ length ∧ (sizeMax < numberAt bytes 0 4 + 4 →
          memory (numberAt bytes 0 4) = false)) :=
  ⟨variantsConfined_iff_guarded small, stringConfined_iff size small⟩

/-- A boolean in a buffer of eight bytes, and a string of one byte. -/
theorem npDecoding_confined_small :
    VariantsConfined (fun _ _ => .null) (fun _ => true)
        (Buffer.ofList [2, 0, 0, 0, 1, 0, 0, 0]) 8 1 ∧
      StringConfined (2 ^ 64 - 1) (fun _ => true) (Buffer.ofList [1, 0, 0, 0, 97])
        5 := by
  refine ⟨(@npDecoding_confined_iff (fun _ _ => .null) (fun _ => true)
    (Buffer.ofList [2, 0, 0, 0, 1, 0, 0, 0]) 8 1 (2 ^ 64 - 1) (by decide)
    (by decide)).1.mpr ?_, (@npDecoding_confined_iff (fun _ _ => .null)
    (fun _ => true) (Buffer.ofList [1, 0, 0, 0, 97]) 5 0 (2 ^ 64 - 1) (by decide)
    (by decide)).2.mpr ⟨by decide, fun large => absurd large (by decide)⟩⟩
  exact fun _ => ⟨⟨by decide, fun copied => absurd copied.1 (by decide)⟩,
    fun _ _ => trivial⟩

/-- A string longer than its message is copied, and on a 32-bit host one whose
length wraps. -/
theorem npDecoding_not_confined :
    ¬VariantsConfined (fun _ _ => .null) (fun _ => true)
        (Buffer.ofList [5, 0, 0, 0, 100, 0, 0, 0]) 8 1 ∧
      ¬StringConfined (2 ^ 32 - 1) (fun _ => true)
        (Buffer.ofList [252, 255, 255, 255]) 4 ∧
      ¬StringConfined (2 ^ 64 - 1) (fun _ => true) (Buffer.ofList [0]) 1 := by
  refine ⟨fun confined => absurd confined.1 (by decide), ?_, ?_⟩
  · rw [stringConfined_iff (by decide) (by decide)]
    exact fun both => absurd (both.2 (by decide)) (by decide)
  · rw [stringConfined_iff (by decide) (by decide)]
    exact fun both => absurd both.1 (by decide)

end Bridge

end NativeClient.Variants
