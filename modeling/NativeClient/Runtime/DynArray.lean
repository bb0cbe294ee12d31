import NativeClient.Library.Bytes
import NativeClient.Library.WordBits
import NativeClient.Runtime.Addresses
import Mathlib.Algebra.Order.Ring.Nat
import Mathlib.Data.Nat.Init

/-!
# Dynamic arrays

`DynArray` keeps pointers in one block, and in another one a bit for each
entry that is not `NULL`.  Both grow by doubling.  The number of bytes of the
first block is computed without a check, and can wrap: a call with a large
index may free the block, or make it smaller.
-/

namespace NativeClient.Runtime

open NativeClient.Library

variable {α : Type}

/-- The array, with the sizes of its two blocks; a freed block has no cells.
`NULL` is `none`. -/
structure DynArray (α : Type) where
  numEntries : Nat
  ptrArray : Nat → Option α
  ptrArrayCells : Nat
  ptrArraySpace : Nat
  available : Words
  availableCells : Nat
  availIx : Nat

structure Allocations where
  ptrArray : Bool
  available : Bool

variable (size : WordSize)

def bitsToAllocWords (nbits : Nat) : Nat :=
  size.wrap (nbits + 31) / 32

/-- `none` if the constructor fails. -/
def dynArrayCtor (allocations : Allocations) (initialSize : Nat) :
    Option (DynArray α) :=
  let initialSize := if initialSize = 0 then 32 else initialSize
  if size.sizeMax / size.pointerBytes < initialSize ∨
      size.sizeMax / 4 < bitsToAllocWords size initialSize then
    none
  else if allocations.ptrArray && allocations.available then
    some {
      numEntries := 0
      ptrArray := fun _ => none
      ptrArrayCells := initialSize
      ptrArraySpace := initialSize
      available := fun _ => 0
      availableCells := bitsToAllocWords size initialSize
      availIx := 0 }
  else
    none

/-- `none` if the entry is not in the block. -/
def dynArrayGet (dap : DynArray α) (idx : Nat) : Option (Option α) :=
  if idx < dap.numEntries then
    if idx < dap.ptrArrayCells then some (dap.ptrArray idx) else none
  else
    some none

/-- The loop that doubles the space until the index is in it; `none` when the
size wraps. -/
def desiredSpace (idx : Nat) : Nat → Nat → Option Nat
  | 0, _ => none
  | fuel + 1, desired =>
      if idx < desired then
        some desired
      else if size.wrap (2 * desired) < desired then
        none
      else
        desiredSpace idx fuel (size.wrap (2 * desired))

def desiredSpaceFor (dap : DynArray α) (idx : Nat) : Option Nat :=
  desiredSpace size idx (size.bits + 1) dap.ptrArraySpace

def growAvailable (allocations : Allocations) (dap : DynArray α)
    (desired : Nat) : Option (DynArray α × Bool) :=
  let oldNwords := bitsToAllocWords size dap.ptrArraySpace
  let newNwords := bitsToAllocWords size desired
  let bytes := size.wrap (newNwords * 4)
  if bytes = 0 then
    some ({ dap with availableCells := 0 }, false)
  else if allocations.available = false then
    some (dap, false)
  else if bytes / 4 < newNwords then
    none
  else
    some ({ dap with
      available := fun ix =>
        if oldNwords ≤ ix ∧ ix < newNwords then 0 else dap.available ix
      availableCells := bytes / 4
      ptrArraySpace := desired }, true)

/-- Both blocks.  `realloc` to no bytes frees the block and returns `NULL`; a
`memset` past its end is undefined. -/
def growArray (allocations : Allocations) (dap : DynArray α) (desired : Nat) :
    Option (DynArray α × Bool) :=
  let bytes := size.wrap (desired * size.pointerBytes)
  let cleared := size.wrap ((desired - dap.ptrArraySpace) * size.pointerBytes) /
    size.pointerBytes
  if bytes = 0 then
    some ({ dap with ptrArrayCells := 0 }, false)
  else if allocations.ptrArray = false then
    some (dap, false)
  else if bytes / size.pointerBytes < dap.ptrArraySpace + cleared then
    none
  else
    growAvailable size allocations
      { dap with
        ptrArray := fun idx =>
          if dap.ptrArraySpace ≤ idx ∧ idx < dap.ptrArraySpace + cleared then
            none
          else
            dap.ptrArray idx
        ptrArrayCells := bytes / size.pointerBytes } desired

def storeEntry (dap : DynArray α) (idx : Nat) (ptr : Option α) :
    Option (DynArray α) :=
  if idx < dap.ptrArrayCells ∧ idx / 32 < dap.availableCells then
    some { dap with
      ptrArray := Function.update dap.ptrArray idx ptr
      available :=
        if ptr.isSome then dap.available.set idx else dap.available.clear idx
      availIx :=
        if ptr.isNone ∧ idx / 32 < dap.availIx then idx / 32 else dap.availIx
      numEntries := if dap.numEntries ≤ idx then idx + 1 else dap.numEntries }
  else
    none

/-- The array and the value that is returned; `none` if the behaviour is
undefined. -/
def dynArraySet (allocations : Allocations) (dap : DynArray α) (idx : Nat)
    (ptr : Option α) : Option (DynArray α × Bool) :=
  match desiredSpaceFor size dap idx with
  | none => some (dap, false)
  | some desired =>
      if desired ≠ dap.ptrArraySpace then
        match growArray size allocations dap desired with
        | none => none
        | some (grown, true) =>
            (storeEntry grown idx ptr).map fun stored => (stored, true)
        | some (grown, false) => some (grown, false)
      else
        (storeEntry dap idx ptr).map fun stored => (stored, true)

def scanAvailable (words : Words) : Nat → Nat → Option Nat
  | 0, _ => none
  | left + 1, ix =>
      if words ix ≠ BitVec.allOnes 32 then some ix
      else scanAvailable words left (ix + 1)

def dynArrayFirstAvail (dap : DynArray α) : Option (DynArray α × Nat) :=
  let lastIx := bitsToAllocWords size dap.ptrArraySpace
  if dap.availableCells < lastIx then
    none
  else
    match scanAvailable dap.available (lastIx - dap.availIx) dap.availIx with
    | some ix =>
        some ({ dap with availIx := ix },
          ffs (~~~ (dap.available ix)) - 1 + 32 * ix)
    | none => some (dap, dap.ptrArraySpace)

/-- The arrays after any permitted calls, with the values of the last
successful `DynArraySet` at each index. -/
inductive DynArrayRun (permitted : DynArray α → Nat → Prop) :
    DynArray α → (Nat → Option α) → Prop where
  | ctor {allocations : Allocations} {initialSize : Nat} {dap : DynArray α} :
      dynArrayCtor size allocations initialSize = some dap →
      DynArrayRun permitted dap fun _ => none
  | set {dap next : DynArray α} {entries : Nat → Option α} {ok : Bool}
      (allocations : Allocations) (idx : Nat) (ptr : Option α) :
      DynArrayRun permitted dap entries → permitted dap idx →
      dynArraySet size allocations dap idx ptr = some (next, ok) →
      DynArrayRun permitted next
        (if ok then Function.update entries idx ptr else entries)
  | firstAvail {dap next : DynArray α} {entries : Nat → Option α}
      {pos : Nat} :
      DynArrayRun permitted dap entries →
      dynArrayFirstAvail size dap = some (next, pos) →
      DynArrayRun permitted next entries

def FitsSize (dap : DynArray α) (idx : Nat) : Prop :=
  ∀ desired, desiredSpaceFor size dap idx = some desired →
    desired * size.pointerBytes < 2 ^ size.bits

structure DynArraySound (permitted : DynArray α → Nat → Prop)
    (dap : DynArray α) (entries : Nat → Option α) : Prop where
  get : ∀ idx, dynArrayGet dap idx = some (entries idx)
  bits : ∀ idx < 32 * bitsToAllocWords size dap.ptrArraySpace,
    dap.available.get idx = (entries idx).isSome
  beyond : ∀ idx, 32 * bitsToAllocWords size dap.ptrArraySpace ≤ idx →
    entries idx = none
  full : ∀ word < dap.availIx, dap.available word = BitVec.allOnes 32
  first : ∃ next pos, dynArrayFirstAvail size dap = some (next, pos) ∧
    entries pos = none ∧ ∀ lower < pos, entries lower ≠ none
  defined : ∀ allocations idx ptr, permitted dap idx →
    dynArraySet size allocations dap idx ptr ≠ none

/-! ## The space -/

section Space

variable {size}

theorem desiredSpace_le
    {idx fuel desired result : Nat}
    (ran : desiredSpace size idx fuel desired = some result) :
    idx < result ∧ desired ≤ result := by
  induction fuel generalizing desired with
  | zero => cases ran
  | succ fuel ih =>
      rw [desiredSpace] at ran
      split_ifs at ran with inside wraps
      · cases ran
        exact ⟨inside, Nat.le_refl _⟩
      · have later := ih ran
        exact ⟨later.1, (Nat.not_lt.mp wraps).trans later.2⟩

theorem bitsToAllocWords_of_fits
    {space : Nat} (fits : space * size.pointerBytes < 2 ^ size.bits) :
    bitsToAllocWords size space = (space + 31) / 32 := by
  have bytes := size.pointerBytes_pos
  have small : 4 * space ≤ space * size.pointerBytes := by
    rw [Nat.mul_comm]
    exact Nat.mul_le_mul_left _ bytes
  have large : 2 ^ 32 ≤ 2 ^ size.bits := by
    rcases size.word with narrow | wide
    · rw [narrow]
    · rw [wide]
      decide
  rw [bitsToAllocWords, WordSize.wrap_of_lt (by omega)]

end Space

/-! ## The invariant -/

structure Represents (dap : DynArray α) (entries : Nat → Option α) :
    Prop where
  fits : dap.ptrArraySpace * size.pointerBytes < 2 ^ size.bits
  positive : 0 < dap.ptrArraySpace
  cells : dap.ptrArraySpace ≤ dap.ptrArrayCells
  words : (dap.ptrArraySpace + 31) / 32 ≤ dap.availableCells
  inside : dap.numEntries ≤ dap.ptrArraySpace
  contents : ∀ idx < dap.ptrArraySpace, dap.ptrArray idx = entries idx
  beyond : ∀ idx, dap.numEntries ≤ idx → entries idx = none
  bits : ∀ idx < 32 * ((dap.ptrArraySpace + 31) / 32),
    dap.available.get idx = (entries idx).isSome
  full : ∀ word < dap.availIx, dap.available word = BitVec.allOnes 32
  hint : dap.availIx ≤ (dap.ptrArraySpace + 31) / 32

section Operations

variable {size} {dap next : DynArray α} {entries : Nat → Option α}

theorem dynArrayCtor_represents
    {allocations : Allocations} {initialSize : Nat}
    (ran : dynArrayCtor size allocations initialSize = some dap) :
    Represents size dap fun _ => none := by
  have positive : 0 < (if initialSize = 0 then 32 else initialSize) := by
    split_ifs <;> omega
  simp only [dynArrayCtor] at ran
  generalize (if initialSize = 0 then 32 else initialSize) = space
    at ran positive
  split_ifs at ran with overflow succeeded
  cases ran
  obtain ⟨counted, -⟩ := not_or.mp overflow
  have bytes := size.pointerBytes_pos
  have power : 0 < 2 ^ size.bits := Nat.two_pow_pos _
  have fits : space * size.pointerBytes < 2 ^ size.bits := by
    have most := (Nat.le_div_iff_mul_le (by omega)).mp (Nat.not_lt.mp counted)
    rw [WordSize.sizeMax] at most
    omega
  constructor
  · exact fits
  · exact positive
  · exact Nat.le_refl _
  · exact Nat.le_of_eq (bitsToAllocWords_of_fits fits).symm
  · exact Nat.zero_le _
  · exact fun _ _ => rfl
  · exact fun _ _ => rfl
  · intro idx _
    simp [Words.get]
  · intro word below
    exact absurd below (Nat.not_lt_zero _)
  · exact Nat.zero_le _

section

variable (represents : Represents size dap entries)

include represents

theorem Represents.get
    (idx : Nat) :
    dynArrayGet dap idx = some (entries idx) := by
  have inside := represents.inside
  have cells := represents.cells
  rw [dynArrayGet]
  split_ifs with used present
  · rw [represents.contents idx (by omega)]
  · omega
  · rw [represents.beyond idx (by omega)]

private theorem Represents.withBlock
    (ptrArray : Nat → Option α)
    (cells : Nat) (enough : dap.ptrArraySpace ≤ cells)
    (same : ∀ idx < dap.ptrArraySpace, ptrArray idx = dap.ptrArray idx) :
    Represents size
      { dap with ptrArray := ptrArray, ptrArrayCells := cells } entries where
  fits := represents.fits
  positive := represents.positive
  cells := enough
  words := represents.words
  inside := represents.inside
  contents := fun idx below =>
    (same idx below).trans (represents.contents idx below)
  beyond := represents.beyond
  bits := represents.bits
  full := represents.full
  hint := represents.hint

private theorem growAvailable_represents
    (allocations : Allocations)
    {desired : Nat} (larger : dap.ptrArraySpace ≤ desired)
    (fits : desired * size.pointerBytes < 2 ^ size.bits)
    (cells : desired ≤ dap.ptrArrayCells)
    (empty : ∀ idx, dap.ptrArraySpace ≤ idx → idx < desired →
      dap.ptrArray idx = none) :
    ∃ grown ok, growAvailable size allocations dap desired =
        some (grown, ok) ∧
      Represents size grown entries ∧
      (ok = true → grown.ptrArraySpace = desired) := by
  have positive := represents.positive
  have bytes := size.pointerBytes_pos
  have inside := represents.inside
  have small : 4 * desired ≤ desired * size.pointerBytes := by
    rw [Nat.mul_comm]
    exact Nat.mul_le_mul_left _ bytes
  have counted : size.wrap ((desired + 31) / 32 * 4) =
      (desired + 31) / 32 * 4 := WordSize.wrap_of_lt (by omega)
  simp only [growAvailable, bitsToAllocWords_of_fits fits,
    bitsToAllocWords_of_fits represents.fits, counted,
    Nat.mul_div_cancel _ (show 0 < 4 by decide), Nat.lt_irrefl, if_false,
    if_neg (show (desired + 31) / 32 * 4 ≠ 0 by omega)]
  split_ifs with failed
  · exact ⟨dap, false, rfl, represents, fun wrong => by cases wrong⟩
  · refine ⟨_, true, rfl, ?_, fun _ => rfl⟩
    constructor
    · exact fits
    · exact Nat.lt_of_lt_of_le positive larger
    · exact cells
    · exact Nat.le_refl _
    · exact inside.trans larger
    · intro idx below
      by_cases old : idx < dap.ptrArraySpace
      · exact represents.contents idx old
      · rw [represents.beyond idx (by omega)]
        exact empty idx (by omega) below
    · exact represents.beyond
    · intro idx below
      by_cases old : idx < 32 * ((dap.ptrArraySpace + 31) / 32)
      · rw [← represents.bits idx old]
        simp only [Words.get]
        rw [if_neg (by omega)]
      · rw [represents.beyond idx (by omega)]
        simp only [Words.get]
        rw [if_pos (by dsimp only at below; omega)]
        simp
    · intro word below
      have hint := represents.hint
      have early : word < dap.availIx := below
      dsimp only
      rw [if_neg (by omega)]
      exact represents.full word early
    · have hint := represents.hint
      dsimp only
      omega

private theorem growArray_represents
    (allocations : Allocations)
    {desired : Nat} (larger : dap.ptrArraySpace ≤ desired)
    (fits : desired * size.pointerBytes < 2 ^ size.bits) :
    ∃ grown ok, growArray size allocations dap desired = some (grown, ok) ∧
      Represents size grown entries ∧
      (ok = true → grown.ptrArraySpace = desired) := by
  have positive := represents.positive
  have bytes := size.pointerBytes_pos
  have counted : size.wrap (desired * size.pointerBytes) =
      desired * size.pointerBytes := WordSize.wrap_of_lt fits
  have rest : (desired - dap.ptrArraySpace) * size.pointerBytes ≤
      desired * size.pointerBytes :=
    Nat.mul_le_mul_right _ (Nat.sub_le _ _)
  have cleared : size.wrap
      ((desired - dap.ptrArraySpace) * size.pointerBytes) /
        size.pointerBytes = desired - dap.ptrArraySpace := by
    rw [WordSize.wrap_of_lt (by omega), Nat.mul_div_cancel _ (by omega)]
  have nonzero : desired * size.pointerBytes ≠ 0 :=
    Nat.mul_ne_zero (by omega) (by omega)
  simp only [growArray, counted, cleared, Nat.mul_div_cancel _
    (show 0 < size.pointerBytes by omega), if_neg nonzero,
    Nat.add_sub_of_le larger, Nat.lt_irrefl, if_false]
  split_ifs with failed
  · exact ⟨dap, false, rfl, represents, fun wrong => by cases wrong⟩
  · have block := represents.withBlock
      (fun idx =>
        if dap.ptrArraySpace ≤ idx ∧ idx < desired then none
        else dap.ptrArray idx)
      desired larger (fun idx below => if_neg (fun both => by omega))
    exact growAvailable_represents block allocations larger fits
      (Nat.le_refl _) (fun idx above below => if_pos ⟨above, below⟩)

private theorem storeEntry_represents
    {idx : Nat}
    (inside : idx < dap.ptrArraySpace) (ptr : Option α) :
    ∃ stored, storeEntry dap idx ptr = some stored ∧
      Represents size stored (Function.update entries idx ptr) := by
  have cells := represents.cells
  have words := represents.words
  have count := represents.inside
  have hint := represents.hint
  rw [storeEntry, if_pos ⟨by omega, by omega⟩]
  refine ⟨_, rfl, ?_⟩
  constructor
  · exact represents.fits
  · exact represents.positive
  · exact cells
  · exact words
  · dsimp only
    split_ifs <;> omega
  · intro other below
    dsimp only
    rw [Function.update_apply, Function.update_apply,
      represents.contents other below]
  · intro other above
    dsimp only at above
    have later : dap.numEntries ≤ other ∧ other ≠ idx := by
      split_ifs at above <;> omega
    rw [Function.update_of_ne later.2]
    exact represents.beyond other later.1
  · intro other below
    rw [Function.update_apply]
    cases ptr with
    | none =>
        simp only [Option.isSome_none, Bool.false_eq_true, if_false]
        rw [Words.get_clear, represents.bits other below]
        split_ifs with same
        · simp [same]
        · simp [same]
    | some value =>
        simp only [Option.isSome_some, if_true]
        rw [Words.get_set, represents.bits other below]
        split_ifs with same
        · simp [same]
        · simp [same]
  · intro word below
    rw [Words.eq_allOnes_iff]
    intro other place
    cases ptr with
    | none =>
        simp only [Option.isNone_none, true_and, Option.isSome_none,
          Bool.false_eq_true, if_false] at below ⊢
        have earlier : word < dap.availIx ∧ word ≠ idx / 32 := by
          split_ifs at below <;> omega
        have kept := (Words.eq_allOnes_iff _ _).mp
          (represents.full word earlier.1) other place
        have different : other ≠ idx := by
          intro same
          rw [same] at place
          omega
        rw [Words.get_clear, kept]
        simp [different]
    | some value =>
        simp only [Option.isNone_some, Bool.false_eq_true, false_and, if_false,
          Option.isSome_some, if_true] at below ⊢
        have kept := (Words.eq_allOnes_iff _ _).mp (represents.full word below)
          other place
        rw [Words.get_set, kept, Bool.true_or]
  · dsimp only
    split_ifs <;> omega

theorem dynArraySet_represents
    (allocations : Allocations)
    {idx : Nat} (fits : FitsSize size dap idx) (ptr : Option α) :
    ∃ next ok, dynArraySet size allocations dap idx ptr = some (next, ok) ∧
      Represents size next
        (if ok then Function.update entries idx ptr else entries) := by
  rw [dynArraySet]
  cases found : desiredSpaceFor size dap idx with
  | none => exact ⟨dap, false, rfl, represents⟩
  | some desired =>
      obtain ⟨inside, larger⟩ := desiredSpace_le found
      dsimp only
      split_ifs with grows
      · obtain ⟨grown, ok, ran, same, space⟩ :=
          growArray_represents represents allocations larger
            (fits desired found)
        rw [ran]
        cases ok with
        | false => exact ⟨grown, false, rfl, same⟩
        | true =>
            obtain ⟨stored, kept, stores⟩ := storeEntry_represents same
              (by rw [space rfl]; exact inside) ptr
            exact ⟨stored, true, by dsimp only; rw [kept]; rfl, stores⟩
      · obtain ⟨stored, kept, stores⟩ := storeEntry_represents represents
          (by rw [← not_not.mp grows]; exact inside) ptr
        exact ⟨stored, true, by rw [kept]; rfl, stores⟩

end

private theorem scanAvailable_spec
    (words : Words) (left ix : Nat) :
    match scanAvailable words left ix with
    | some found => ix ≤ found ∧ found < ix + left ∧
        words found ≠ BitVec.allOnes 32 ∧
        ∀ word, ix ≤ word → word < found → words word = BitVec.allOnes 32
    | none => ∀ word, ix ≤ word → word < ix + left →
        words word = BitVec.allOnes 32 := by
  induction left generalizing ix with
  | zero =>
      intro word above below
      omega
  | succ left ih =>
      rw [scanAvailable]
      split_ifs with missing
      · refine ⟨Nat.le_refl _, by omega, missing, ?_⟩
        intro word above below
        omega
      · have full := not_not.mp missing
        have later := ih (ix + 1)
        cases scanned : scanAvailable words left (ix + 1) with
        | none =>
            rw [scanned] at later
            intro word above below
            rcases Nat.eq_or_lt_of_le above with here | after
            · rw [← here]
              exact full
            · exact later word after (by omega)
        | some found =>
            rw [scanned] at later
            obtain ⟨above, below, first, earlier⟩ := later
            refine ⟨by omega, by omega, first, ?_⟩
            intro word from_ before
            rcases Nat.eq_or_lt_of_le from_ with here | after
            · rw [← here]
              exact full
            · exact earlier word after before

theorem dynArrayFirstAvail_represents
    (represents : Represents size dap entries) :
    ∃ next pos, dynArrayFirstAvail size dap = some (next, pos) ∧
      Represents size next entries ∧ entries pos = none ∧
      ∀ lower < pos, entries lower ≠ none := by
  have words := represents.words
  have hint := represents.hint
  have inside := represents.inside
  have taken : ∀ idx < 32 * ((dap.ptrArraySpace + 31) / 32),
      dap.available (idx / 32) = BitVec.allOnes 32 → entries idx ≠ none := by
    intro idx below full missing
    have member := (Words.eq_allOnes_iff _ _).mp full idx rfl
    rw [represents.bits idx below, missing] at member
    cases member
  have scan := scanAvailable_spec dap.available
    ((dap.ptrArraySpace + 31) / 32 - dap.availIx) dap.availIx
  rw [Nat.add_sub_of_le hint] at scan
  simp only [dynArrayFirstAvail, bitsToAllocWords_of_fits represents.fits,
    if_neg (Nat.not_lt.mpr words)]
  cases scanned : scanAvailable dap.available
      ((dap.ptrArraySpace + 31) / 32 - dap.availIx) dap.availIx with
  | some ix =>
      rw [scanned] at scan
      obtain ⟨above, below, missing, full⟩ := scan
      obtain ⟨bit, found, small, clear, lower⟩ := dap.available.ffs_not missing
      have earlier : ∀ word < ix,
          dap.available word = BitVec.allOnes 32 := by
        intro word before
        rcases Nat.lt_or_ge word dap.availIx with skipped | searched
        · exact represents.full word skipped
        · exact full word searched before
      refine ⟨_, _, rfl, ?_, ?_, ?_⟩
      · exact { represents with full := earlier, hint := Nat.le_of_lt below }
      · rw [found, Nat.add_sub_cancel, Nat.add_comm]
        have bits := represents.bits (32 * ix + bit) (by omega)
        rw [clear] at bits
        exact Option.isNone_iff_eq_none.mp (by
          rw [← Option.not_isSome, ← bits]
          rfl)
      · intro idx before
        rw [found, Nat.add_sub_cancel] at before
        rcases Nat.lt_or_ge idx (32 * ix) with low | same
        · exact taken idx (by omega) (earlier (idx / 32) (by omega))
        · obtain ⟨place, rfl⟩ := Nat.exists_eq_add_of_le same
          have member := lower place (by omega)
          rw [represents.bits _ (by omega)] at member
          intro missing
          rw [missing] at member
          cases member
  | none =>
      rw [scanned] at scan
      have every : ∀ idx < 32 * ((dap.ptrArraySpace + 31) / 32),
          entries idx ≠ none := by
        intro idx below
        apply taken idx below
        rcases Nat.lt_or_ge (idx / 32) dap.availIx with skipped | searched
        · exact represents.full _ skipped
        · exact scan _ searched (by omega)
      refine ⟨_, _, rfl, represents, represents.beyond _ inside, ?_⟩
      intro idx before
      exact every idx (by omega)

theorem Represents.sound
    (represents : Represents size dap entries) :
    DynArraySound size (FitsSize size) dap entries where
  get := represents.get
  bits := by
    rw [bitsToAllocWords_of_fits represents.fits]
    exact represents.bits
  beyond := by
    have inside := represents.inside
    rw [bitsToAllocWords_of_fits represents.fits]
    intro idx above
    exact represents.beyond idx (by omega)
  full := represents.full
  first := by
    obtain ⟨next, pos, ran, -, free, least⟩ :=
      dynArrayFirstAvail_represents represents
    exact ⟨next, pos, ran, free, least⟩
  defined := by
    intro allocations idx ptr fits undefined
    obtain ⟨next, ok, ran, -⟩ :=
      dynArraySet_represents represents allocations fits ptr
    rw [ran] at undefined
    cases undefined

end Operations

theorem dynArrayRun_represents
    {size : WordSize} {dap : DynArray α} {entries : Nat → Option α}
    (run : DynArrayRun size (FitsSize size) dap entries) :
    Represents size dap entries := by
  induction run with
  | ctor ran => exact dynArrayCtor_represents ran
  | set allocations idx ptr _ fits ran ih =>
      obtain ⟨next, ok, same, represents⟩ :=
        dynArraySet_represents ih allocations fits ptr
      rw [same] at ran
      cases ran
      exact represents
  | firstAvail _ ran ih =>
      obtain ⟨next, pos, same, represents, -⟩ :=
        dynArrayFirstAvail_represents ih
      rw [same] at ran
      cases ran
      exact represents

/-- After any calls for which the bytes of the array can be counted, the array
holds the values that were set, its bits agree with them, and the first free
entry is found. -/
theorem dynArrayRun_sound
    (size : WordSize) {dap : DynArray α} {entries : Nat → Option α}
    (run : DynArrayRun size (FitsSize size) dap entries) :
    DynArraySound size (FitsSize size) dap entries :=
  (dynArrayRun_represents run).sound

def narrowWords : WordSize := ⟨32, bits32⟩

def allAllocated : Allocations := ⟨true, true⟩

def emptyArray : DynArray Nat where
  numEntries := 0
  ptrArray := fun _ => none
  ptrArrayCells := 2
  ptrArraySpace := 2
  available := fun _ => 0
  availableCells := 1
  availIx := 0

def smallArray : DynArray Nat :=
  { emptyArray with
    numEntries := 1
    ptrArray := Function.update (fun _ => none) 0 (some 7)
    available := Words.set (fun _ => 0) 0 }

private theorem smallArray_run
    {permitted : DynArray Nat → Nat → Prop}
    (allowed : permitted emptyArray 0) :
    DynArrayRun narrowWords permitted smallArray
      (Function.update (fun _ => none) 0 (some 7)) := by
  have stores : dynArraySet narrowWords allAllocated emptyArray 0 (some 7) =
      some (smallArray, true) := rfl
  exact .set allAllocated 0 (some 7)
    (@DynArrayRun.ctor Nat narrowWords permitted allAllocated 2 _ rfl)
    allowed stores

private theorem fitsSize_two
    {dap : DynArray Nat} (space : dap.ptrArraySpace = 2) {idx desired : Nat}
    (found : desiredSpace narrowWords idx 33 2 = some desired)
    (small : desired < 2 ^ 30) : FitsSize narrowWords dap idx := by
  intro other same
  unfold desiredSpaceFor at same
  rw [space] at same
  cases same.symm.trans found
  change desired * 4 < 2 ^ 32
  omega

/-- The array grows at the second attempt, for which there is memory. -/
theorem dynArrayRun_sound_grown :
    ∃ dap, dap.ptrArraySpace = 8 ∧
      DynArraySound narrowWords (FitsSize narrowWords) dap
        (Function.update (Function.update (fun _ => none) 0 (some 7)) 5
          (some 9)) := by
  have first := smallArray_run (fitsSize_two rfl
    (show desiredSpace narrowWords 0 33 2 = some 2 from rfl) (by decide))
  have found : desiredSpace narrowWords 5 33 2 = some 8 := rfl
  have failed := DynArrayRun.set ⟨false, true⟩ 5 (some 9) first
    (fitsSize_two rfl found (by decide)) rfl
  have grown := failed.set allAllocated 5 (some 9)
    (fitsSize_two rfl found (by decide)) rfl
  exact ⟨_, rfl, dynArrayRun_sound narrowWords grown⟩

/-- The array is freed by an entry at a large index, and the first entry is
lost. -/
theorem not_dynArraySound_freed :
    ∃ dap entries,
      DynArrayRun narrowWords (fun _ _ => True) dap entries ∧
      ¬ DynArraySound narrowWords (fun (_ : DynArray Nat) _ => True) dap
        entries := by
  have frees : dynArraySet narrowWords allAllocated smallArray (2 ^ 29)
      (some 8) = some ({ smallArray with ptrArrayCells := 0 }, false) := by
    have grows : desiredSpaceFor narrowWords smallArray (2 ^ 29) =
        some (2 ^ 30) := by
      decide +kernel
    rw [dynArraySet, grows]
    rfl
  have freed : DynArrayRun narrowWords (fun _ _ => True)
      { smallArray with ptrArrayCells := 0 }
      (Function.update (fun _ => none) 0 (some 7)) :=
    .set allAllocated (2 ^ 29) (some 8) (smallArray_run trivial) trivial
      frees
  refine ⟨_, _, freed, ?_⟩
  intro sound
  have lost := sound.get 0
  cases lost

end NativeClient.Runtime
