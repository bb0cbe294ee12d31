import NativeClient.Runtime.DynamicText
import NativeClient.Library.Loop
import Mathlib.Data.UInt

/-!
# The first copy of new code

`CopyCodeSafelyInitial` copies all words but the first of each bundle, and then
these.  The first loop takes the size of the code as an `int32_t`, so that on a
machine with 64 bits it stops at once for two gigabytes or more; the second
loop takes it as a `uint32_t`.  Nobody copies as much: the code is mapped
first, and `NaClDescImcShmMap` maps less than two gigabytes.
-/

namespace NativeClient.Runtime.InitialCopy

open NativeClient.Library

/-- The pointers of a loop, `src_ptr` from the start of the code on, with the
stores that it has made. -/
structure Walk where
  destPtr : Nat
  srcPtr : Nat
  stores : List Store

/-- The three loops: `emit` are the stores of one turn. -/
def walkTurn (endPtr stride : Nat) (emit : Nat → Nat → List Store)
    (walk : Walk) : Turn Walk (List Store) :=
  if walk.destPtr < endPtr then
    .again
      { destPtr := walk.destPtr + stride
        srcPtr := walk.srcPtr + stride
        stores := walk.stores ++ emit walk.destPtr walk.srcPtr }
  else
    .leave walk.stores

/-- `dest + size` for an `int32_t`.  With pointers of 64 bits an end before
the address zero is at the top of the address space: the process faults. -/
def tailsEnd (wordBits dest : Nat) (size : UInt32) : Option Nat :=
  let stop := (dest : Int) + (size.toNat : Int).bmod (2 ^ 32)
  if wordBits = 32 then
    some (stop % 2 ^ 32).toNat
  else if stop < 0 then
    none
  else
    some stop.toNat

def copyBundleTails (wordBits dest : Nat) (src : Buffer) (size : UInt32)
    (bundleSize : Nat) : Option (List Store) :=
  (tailsEnd wordBits dest size).bind fun endPtr =>
    runLoop
      (walkTurn endPtr 4 fun destPtr srcPtr =>
        if destPtr % bundleSize ≠ 0 then [⟨destPtr, codeWord src srcPtr⟩]
        else [])
      (size.toNat / 4 + 1) ⟨dest, 0, []⟩

def copyBundleHeads (dest : Nat) (src : Buffer) (size : UInt32)
    (bundleSize : Nat) : Option (List Store) :=
  runLoop
    (walkTurn (dest + size.toNat) bundleSize fun destPtr srcPtr =>
      [⟨destPtr, codeWord src srcPtr⟩])
    (size.toNat / bundleSize + 1) ⟨dest, 0, []⟩

/-- The pointer to words advances by `bundle_size / sizeof(uint32_t)`. -/
def replaceBundleHeadsWithHalts (haltWord : List UInt8) (dest : Nat)
    (size : UInt32) (bundleSize : Nat) : Option (List Store) :=
  runLoop
    (walkTurn (dest + size.toNat) (4 * (bundleSize / 4)) fun destPtr _ =>
      [⟨destPtr, haltWord⟩])
    (size.toNat / bundleSize + 1) ⟨dest, 0, []⟩

def copyCodeSafelyInitial (wordBits dest : Nat) (src : Buffer) (size : UInt32)
    (bundleSize : Nat) : Option (List Store) := do
  let tails ← copyBundleTails wordBits dest src size bundleSize
  let heads ← copyBundleHeads dest src size bundleSize
  return tails ++ heads

structure Place (wordBits bundleSize dest : Nat) (size : UInt32) : Prop where
  word : wordBits = 32 ∨ wordBits = 64
  bundle : bundleSize = 16 ∨ bundleSize = 32
  aligned : bundleSize ∣ dest
  whole : bundleSize ∣ size.toNat
  fits : dest + size.toNat < 2 ^ wordBits

section Property

variable (halt : List UInt8) (dest bundleSize : Nat) (src : Buffer)
  (size : UInt32)

def Halts (memory : Buffer) (bundle : Nat) : Prop :=
  ∀ index (inside : index < halt.length),
    memory (dest + bundleSize * bundle + index) = halt[index]

def Copied (memory : Buffer) (bundle : Nat) : Prop :=
  ∀ offset < bundleSize,
    memory (dest + bundleSize * bundle + offset) =
      src (bundleSize * bundle + offset)

def Untouched (before memory : Buffer) : Prop :=
  ∀ address, address < dest ∨ dest + size.toNat ≤ address →
    memory address = before address

def Visible (before memory : Buffer) : Prop :=
  (∀ bundle, bundleSize * bundle < size.toNat →
    Halts halt dest bundleSize memory bundle ∨
      Copied dest bundleSize src memory bundle) ∧
    Untouched dest size before memory

def CopiesSafely (wordBits : Nat) (before : Buffer) : Prop :=
  ∃ stores, copyCodeSafelyInitial wordBits dest src size bundleSize =
      some stores ∧
    Through (Visible halt dest bundleSize src size before) stores before ∧
    ∀ offset < size.toNat,
      applyStores stores before (dest + offset) = src offset

end Property

section Walks

variable {endPtr stride : Nat} {emit : Nat → Nat → List Store}

theorem walk_none
    {walk : Walk} (past : endPtr ≤ walk.destPtr) (fuel : Nat) :
    runLoop (walkTurn endPtr stride emit) (fuel + 1) walk =
      some walk.stores := by
  rw [runLoop, walkTurn, if_neg (by omega)]

theorem walk_stores (count : Nat) (walk : Walk)
    (positive : 0 < stride) (ends : endPtr = walk.destPtr + stride * count) :
    runLoop (walkTurn endPtr stride emit) (count + 1) walk =
      some (walk.stores ++ (List.range count).flatMap fun turn =>
        emit (walk.destPtr + stride * turn) (walk.srcPtr + stride * turn)) := by
  induction count generalizing walk with
  | zero =>
      rw [walk_none (by omega)]
      simp
  | succ count ih =>
      have next : ∀ base turn : Nat,
          base + stride + stride * turn = base + stride * (turn + 1) := by
        intro base turn
        rw [Nat.mul_succ]
        omega
      have more : walk.destPtr < endPtr := by
        rw [ends, Nat.mul_add, Nat.mul_one]
        omega
      rw [runLoop, walkTurn, if_pos more]
      dsimp only
      rw [ih _ (ends.trans (next _ count).symm)]
      dsimp only
      simp only [next]
      rw [List.range_succ_eq_map, List.flatMap_cons, List.flatMap_map,
        List.append_assoc, Nat.mul_zero, Nat.add_zero, Nat.add_zero]

end Walks

section Stores

variable {wordBits bundleSize dest : Nat} {size : UInt32} {src : Buffer}

theorem Place.words (place : Place wordBits bundleSize dest size) :
    4 ∣ bundleSize ∧ 4 ≤ bundleSize := by
  rcases place.bundle with rfl | rfl
  · decide
  · decide

theorem Place.size_eq (place : Place wordBits bundleSize dest size) :
    size.toNat = bundleSize * (size.toNat / bundleSize) :=
  (Nat.mul_div_cancel' place.whole).symm

theorem tailsEnd_cases (place : Place wordBits bundleSize dest size) :
    (tailsEnd wordBits dest size = some (dest + size.toNat) ∧
        (wordBits = 32 ∨ size.toNat < 2 ^ 31)) ∨
      (wordBits = 64 ∧ 2 ^ 31 ≤ size.toNat ∧
        ((dest + size.toNat < 2 ^ 32 ∧ tailsEnd wordBits dest size = none) ∨
          (2 ^ 32 ≤ dest + size.toNat ∧ ∃ endPtr, endPtr ≤ dest ∧
            tailsEnd wordBits dest size = some endPtr))) := by
  have fits := place.fits
  have bound := size.toNat_lt
  unfold tailsEnd
  dsimp only
  have value : (size.toNat : Int).bmod (2 ^ 32) =
      if size.toNat < 2 ^ 31 then (size.toNat : Int)
      else (size.toNat : Int) - 2 ^ 32 := by
    split
    next small => exact Int.bmod_eq_of_le (by omega) (by omega)
    next large =>
      rw [Int.bmod_def, Int.emod_eq_of_lt (by omega) (by omega)]
      split
      next => omega
      next => rfl
  rw [value]
  rcases place.word with rfl | rfl
  · left
    rw [if_pos rfl]
    refine ⟨congrArg some ?_, .inl rfl⟩
    split
    next => omega
    next => omega
  · rw [if_neg (by decide)]
    by_cases small : size.toNat < 2 ^ 31
    · left
      rw [if_pos small, if_neg (by omega)]
      exact ⟨congrArg some (by omega), .inr small⟩
    · right
      refine ⟨rfl, by omega, ?_⟩
      rw [if_neg small]
      by_cases low : dest + size.toNat < 2 ^ 32
      · left
        exact ⟨low, if_pos (by omega)⟩
      · right
        exact ⟨by omega, _, by omega, if_neg (by omega)⟩

def tailStores (dest bundleSize : Nat) (src : Buffer) (size : UInt32) :
    List Store :=
  (List.range (size.toNat / 4)).flatMap fun word =>
    if (dest + 4 * word) % bundleSize ≠ 0 then
      [⟨dest + 4 * word, codeWord src (4 * word)⟩]
    else
      []

def headStores (dest bundleSize : Nat) (word : Nat → List UInt8)
    (size : UInt32) : List Store :=
  (List.range (size.toNat / bundleSize)).map fun bundle =>
    ⟨dest + bundleSize * bundle, word (bundleSize * bundle)⟩

theorem copyBundleTails_none
    {endPtr : Nat} (past : endPtr ≤ dest)
    (ends : tailsEnd wordBits dest size = some endPtr) :
    copyBundleTails wordBits dest src size bundleSize = some [] := by
  unfold copyBundleTails
  rw [ends, Option.bind_some]
  exact walk_none past _

/-- The same bytes, for the text at `other` of which `dest` is an alias. -/
def Store.aliased (dest other : Nat) (store : Store) : Store :=
  ⟨store.address - dest + other, store.bytes⟩

variable (place : Place wordBits bundleSize dest size)

include place

theorem copyBundleTails_whole
    (ends : tailsEnd wordBits dest size = some (dest + size.toNat)) :
    copyBundleTails wordBits dest src size bundleSize =
      some (tailStores dest bundleSize src size) := by
  have words := Nat.mul_div_cancel'
    (Nat.dvd_trans place.words.1 place.whole)
  unfold copyBundleTails
  rw [ends, Option.bind_some,
    walk_stores (size.toNat / 4) _ (by decide) (by rw [words])]
  simp only [List.nil_append, Nat.zero_add]
  rfl

theorem copyBundleHeads_eq :
    copyBundleHeads dest src size bundleSize =
      some (headStores dest bundleSize (codeWord src) size) := by
  have positive := place.words.2
  unfold copyBundleHeads
  rw [walk_stores (size.toNat / bundleSize) _ (by omega)
    (congrArg (dest + ·) place.size_eq)]
  simp only [List.nil_append, Nat.zero_add, headStores]
  rw [List.map_eq_flatMap]

theorem replaceBundleHeadsWithHalts_eq
    (haltWord : List UInt8) :
    replaceBundleHeadsWithHalts haltWord dest size bundleSize =
      some (headStores dest bundleSize (fun _ => haltWord) size) := by
  have positive := place.words.2
  unfold replaceBundleHeadsWithHalts
  rw [Nat.mul_div_cancel' place.words.1,
    walk_stores (size.toNat / bundleSize) _ (by omega)
      (congrArg (dest + ·) place.size_eq)]
  simp only [List.nil_append, headStores]
  rw [List.map_eq_flatMap]

/-! ## The stores of the dynamic code calls -/

theorem writeBundleHeads_eq
    (word : Nat → List UInt8) (other : Nat) :
    writeBundleHeads other word size bundleSize =
      (headStores dest bundleSize word size).map (Store.aliased dest other) := by
  have positive := place.words.2
  have count : (size.toNat + (bundleSize - 1)) / bundleSize =
      size.toNat / bundleSize := by
    rw [place.size_eq, Nat.mul_add_div (by omega),
      Nat.div_eq_of_lt (show bundleSize - 1 < bundleSize by omega),
      Nat.mul_div_cancel_left _ (by omega), Nat.add_zero]
  unfold writeBundleHeads headStores Store.aliased
  rw [count, List.map_map]
  refine List.map_congr_left fun bundle _ => ?_
  dsimp only [Function.comp_apply]
  rw [Nat.add_sub_cancel_left, Nat.add_comm]

theorem copyBundleTails_eq
    (small : size.toNat < 2 ^ 31) (other : Nat) :
    Runtime.copyBundleTails dest other src size bundleSize =
      (tailStores dest bundleSize src size).map (Store.aliased dest other) := by
  have words := Nat.mul_div_cancel'
    (Nat.dvd_trans place.words.1 place.whole)
  have count : (signedSize size + 3) / 4 = size.toNat / 4 := by
    unfold signedSize
    rw [if_pos small]
    omega
  unfold Runtime.copyBundleTails tailStores Store.aliased
  rw [count]
  induction List.range (size.toNat / 4) with
  | nil => rfl
  | cons word list ih =>
      rw [List.filter_cons, List.flatMap_cons, List.map_append]
      by_cases tail : (dest + 4 * word) % bundleSize = 0
      · rw [if_neg (by simp [tail]), if_neg (not_not_intro tail), ih]
        rfl
      · rw [if_pos (by simp [tail]), if_pos tail, List.map_cons, ih]
        rw [List.map_singleton, List.singleton_append]
        dsimp only
        rw [Nat.add_sub_cancel_left, Nat.add_comm (4 * word)]

/-- `dyncode_create` makes the stores of the loops. -/
theorem copyCodeSafelyInitial_aliased
    (small : size.toNat < 2 ^ 31) (other : Nat) :
    (copyCodeSafelyInitial wordBits dest src size bundleSize).map
        (List.map (Store.aliased dest other)) =
      some (Runtime.copyCodeSafelyInitial dest other src size bundleSize) := by
  have ends : tailsEnd wordBits dest size = some (dest + size.toNat) := by
    rcases tailsEnd_cases place with ⟨ends, -⟩ | ⟨-, large, -⟩
    · exact ends
    · omega
  unfold copyCodeSafelyInitial Runtime.copyCodeSafelyInitial
    Runtime.copyBundleHeads
  rw [copyBundleTails_whole place ends, copyBundleHeads_eq place,
    copyBundleTails_eq place small, writeBundleHeads_eq place, ← List.map_append]
  rfl

/-- `dyncode_delete` makes the stores of the loop. -/
theorem replaceBundleHeadsWithHalts_aliased
    (other : Nat) :
    (replaceBundleHeadsWithHalts (List.replicate 4 naclHaltOpcode) dest size
        bundleSize).map (List.map (Store.aliased dest other)) =
      some (Runtime.replaceBundleHeadsWithHalts other size bundleSize) := by
  unfold Runtime.replaceBundleHeadsWithHalts
  rw [replaceBundleHeadsWithHalts_eq place, writeBundleHeads_eq place]
  rfl

end Stores

section Moments

variable {wordBits bundleSize dest : Nat} {size : UInt32} {src : Buffer}
  {halt : List UInt8} {before memory : Buffer} {offset : Nat} {store : Store}

def Copying (dest : Nat) (src : Buffer) (size : UInt32) (store : Store) :
    Prop :=
  ∃ offset, offset + 4 ≤ size.toNat ∧
    store = ⟨dest + offset, codeWord src offset⟩

def TailsEqual (dest bundleSize : Nat) (src : Buffer) (size : UInt32)
    (memory : Buffer) : Prop :=
  ∀ offset < size.toNat, 4 ≤ offset % bundleSize →
    memory (dest + offset) = src offset

theorem covers_codeWord {address : Nat} :
    (⟨dest + offset, codeWord src offset⟩ : Store).Covers address ↔
      dest + offset ≤ address ∧ address < dest + offset + 4 := Iff.rfl

theorem Copying.value
    (copying : Copying dest src size store)
    (covered : store.Covers (dest + offset)) :
    store.bytes.getD (dest + offset - store.address) 0 = src offset := by
  obtain ⟨start, -, rfl⟩ := copying
  obtain ⟨above, below⟩ := covers_codeWord.mp covered
  obtain ⟨index, less, rfl⟩ : ∃ index, index < 4 ∧ offset = start + index :=
    ⟨offset - start, by omega, by omega⟩
  have same : dest + (start + index) - (dest + start) = index := by omega
  rw [same]
  match index, less with
  | 0, _ => rfl
  | 1, _ => rfl
  | 2, _ => rfl
  | 3, _ => rfl

theorem Copying.keeps_equal
    (copying : Copying dest src size store)
    (equal : memory (dest + offset) = src offset) :
    store.apply memory (dest + offset) = src offset := by
  by_cases covered : store.Covers (dest + offset)
  · rw [Store.apply_inside covered]
    exact copying.value covered
  · rw [Store.apply_outside covered]
    exact equal

theorem Copying.untouched
    (copying : Copying dest src size store)
    (untouched : Untouched dest size before memory) :
    Untouched dest size before (store.apply memory) := by
  obtain ⟨offset, inside, rfl⟩ := copying
  intro address outside
  rw [Store.apply_outside]
  · exact untouched address outside
  · intro covered
    obtain ⟨above, below⟩ := covers_codeWord.mp covered
    omega

structure HeadPhase (halt : List UInt8) (dest bundleSize : Nat)
    (src : Buffer) (size : UInt32) (start memory : Buffer) : Prop where
  tails : TailsEqual dest bundleSize src size memory
  heads : ∀ bundle, bundleSize * bundle < size.toNat →
    Halts halt dest bundleSize memory bundle ∨
      ∀ index < 4, memory (dest + bundleSize * bundle + index) =
        src (bundleSize * bundle + index)
  untouched : Untouched dest size start memory

variable (place : Place wordBits bundleSize dest size)

include place

theorem mem_tailStores :
    store ∈ tailStores dest bundleSize src size ↔
      ∃ word, 4 * word < size.toNat ∧ (dest + 4 * word) % bundleSize ≠ 0 ∧
        store = ⟨dest + 4 * word, codeWord src (4 * word)⟩ := by
  have words := Nat.mul_div_cancel'
    (Nat.dvd_trans place.words.1 place.whole)
  unfold tailStores
  rw [List.mem_flatMap]
  constructor
  · rintro ⟨word, ranged, member⟩
    rw [List.mem_range] at ranged
    split at member
    next tail =>
      exact ⟨word, by omega, tail, List.mem_singleton.mp member⟩
    next => cases member
  · rintro ⟨word, inside, tail, rfl⟩
    refine ⟨word, List.mem_range.mpr (by omega), ?_⟩
    rw [if_pos tail]
    exact List.mem_singleton_self _

theorem tailStores_copying :
    ∀ store ∈ tailStores dest bundleSize src size,
      Copying dest src size store := by
  intro store member
  obtain ⟨word, inside, -, rfl⟩ := (mem_tailStores place).mp member
  have words := Nat.dvd_trans place.words.1 place.whole
  exact ⟨4 * word, by omega, rfl⟩

theorem Place.bundle_end
    {bundle : Nat}
    (inside : bundleSize * bundle < size.toNat) :
    bundle < size.toNat / bundleSize ∧
      bundleSize * bundle + bundleSize ≤ size.toNat := by
  have total := place.size_eq
  have less : bundle < size.toNat / bundleSize := by
    rw [total] at inside
    exact Nat.lt_of_mul_lt_mul_left inside
  refine ⟨less, ?_⟩
  have next := Nat.mul_le_mul_left bundleSize less
  rw [Nat.mul_succ] at next
  omega

theorem headStores_copying :
    ∀ store ∈ headStores dest bundleSize (codeWord src) size,
      Copying dest src size store := by
  intro store member
  obtain ⟨bundle, ranged, rfl⟩ := List.mem_map.mp member
  rw [List.mem_range] at ranged
  have next := Nat.mul_le_mul_left bundleSize ranged
  have large := place.words.2
  rw [← place.size_eq, Nat.mul_succ] at next
  exact ⟨bundleSize * bundle, by omega, rfl⟩

theorem tail_not_head
    {word bundle index : Nat}
    (tail : (dest + 4 * word) % bundleSize ≠ 0) (head : index < 4) :
    ¬ (⟨dest + 4 * word, codeWord src (4 * word)⟩ : Store).Covers
        (dest + bundleSize * bundle + index) := by
  intro covered
  obtain ⟨above, below⟩ := covers_codeWord.mp covered
  obtain ⟨first, rfl⟩ := place.aligned
  rcases place.bundle with rfl | rfl
  · omega
  · omega

theorem tails_through
    (src : Buffer)
    (short : halt.length ≤ 4)
    (halted : ∀ bundle, bundleSize * bundle < size.toNat →
      Halts halt dest bundleSize before bundle) :
    Through (fun memory =>
      (∀ bundle, bundleSize * bundle < size.toNat →
        Halts halt dest bundleSize memory bundle) ∧
      Untouched dest size before memory)
      (tailStores dest bundleSize src size) before := by
  apply through_of_invariant
  · rintro store member memory ⟨halts, untouched⟩
    have copying := tailStores_copying place store member
    refine ⟨?_, copying.untouched untouched⟩
    intro bundle inside index within
    obtain ⟨word, -, tail, rfl⟩ := (mem_tailStores place).mp member
    rw [Store.apply_outside (tail_not_head place tail (by omega))]
    exact halts bundle inside index within
  · exact ⟨halted, fun _ _ => rfl⟩

theorem tailsEqual_tailStores
    (src : Buffer)
    (memory : Buffer) :
    TailsEqual dest bundleSize src size
      (applyStores (tailStores dest bundleSize src size) memory) := by
  intro offset inside tail
  apply applyStores_inside
  · intro store member covered
    exact (tailStores_copying place store member).value covered
  · left
    refine ⟨_, (mem_tailStores place).mpr ⟨offset / 4, by omega, ?_, rfl⟩, ?_⟩
    · obtain ⟨first, rfl⟩ := place.aligned
      rcases place.bundle with rfl | rfl
      · omega
      · omega
    · exact covers_codeWord.mpr ⟨by omega, by omega⟩

theorem HeadPhase.visible
    (phase : HeadPhase halt dest bundleSize src size before memory) :
    Visible halt dest bundleSize src size before memory := by
  refine ⟨?_, phase.untouched⟩
  intro bundle inside
  rcases phase.heads bundle inside with halts | equal
  · exact .inl halts
  · right
    intro offset within
    by_cases head : offset < 4
    · exact equal offset head
    · have ends := (place.bundle_end inside).2
      rw [Nat.add_assoc]
      apply phase.tails
      · omega
      · rw [Nat.mul_add_mod, Nat.mod_eq_of_lt within]
        omega

theorem HeadPhase.step
    (short : halt.length ≤ 4)
    (member : store ∈ headStores dest bundleSize (codeWord src) size)
    (phase : HeadPhase halt dest bundleSize src size before memory) :
    HeadPhase halt dest bundleSize src size before
      (store.apply memory) := by
  have copying := headStores_copying place store member
  refine ⟨?_, ?_, copying.untouched phase.untouched⟩
  · intro offset inside tail
    exact copying.keeps_equal (phase.tails offset inside tail)
  · intro bundle inside
    obtain ⟨written, -, rfl⟩ := List.mem_map.mp member
    have large := place.words.2
    by_cases same : written = bundle
    · right
      intro index head
      subst same
      rw [Store.apply_inside (covers_codeWord.mpr ⟨by omega, by omega⟩),
        Nat.add_assoc]
      exact copying.value (covers_codeWord.mpr ⟨by omega, by omega⟩)
    · rcases phase.heads bundle inside with halts | equal
      · left
        intro index within
        rw [Store.apply_outside]
        · exact halts index within
        · intro covered
          obtain ⟨above, below⟩ := covers_codeWord.mp covered
          rcases place.bundle with rfl | rfl
          · omega
          · omega
      · right
        intro index head
        rw [Nat.add_assoc]
        apply copying.keeps_equal
        rw [← Nat.add_assoc]
        exact equal index head

theorem heads_through
    (short : halt.length ≤ 4)
    (halted : ∀ bundle, bundleSize * bundle < size.toNat →
      Halts halt dest bundleSize memory bundle)
    (untouched : Untouched dest size before memory)
    (tails : TailsEqual dest bundleSize src size memory) :
    Through (Visible halt dest bundleSize src size before)
      (headStores dest bundleSize (codeWord src) size) memory := by
  have phases : Through (HeadPhase halt dest bundleSize src size before)
      (headStores dest bundleSize (codeWord src) size) memory := by
    apply through_of_invariant
    · intro store member memory phase
      exact phase.step place short member
    · exact ⟨tails, fun bundle inside => .inl (halted bundle inside), untouched⟩
  exact phases.mono fun memory phase => phase.visible place

theorem applyStores_headStores
    (memory : Buffer)
    (inside : offset < size.toNat) :
    applyStores (headStores dest bundleSize (codeWord src) size) memory
        (dest + offset) =
      if offset % bundleSize < 4 then src offset
      else memory (dest + offset) := by
  have large := place.words.2
  have total := Nat.div_add_mod offset bundleSize
  split
  next head =>
    apply applyStores_inside
    · intro store member covered
      exact (headStores_copying place store member).value covered
    · left
      refine ⟨_, List.mem_map.mpr ⟨offset / bundleSize, ?_, rfl⟩, ?_⟩
      · rw [List.mem_range]
        exact (place.bundle_end (by omega)).1
      · exact covers_codeWord.mpr ⟨by omega, by omega⟩
  next tail =>
    apply applyStores_outside
    intro store member covered
    obtain ⟨bundle, -, rfl⟩ := List.mem_map.mp member
    obtain ⟨above, below⟩ := covers_codeWord.mp covered
    rcases place.bundle with rfl | rfl
    · omega
    · omega

theorem copies_whole
    (short : halt.length ≤ 4)
    (halted : ∀ bundle, bundleSize * bundle < size.toNat →
      Halts halt dest bundleSize before bundle)
    (ends : tailsEnd wordBits dest size = some (dest + size.toNat)) :
    CopiesSafely halt dest bundleSize src size wordBits before := by
  have tails := tails_through place src short halted
  have after := tailsEqual_tailStores place src before
  refine ⟨tailStores dest bundleSize src size ++
    headStores dest bundleSize (codeWord src) size, ?_, ?_, ?_⟩
  · unfold copyCodeSafelyInitial
    rw [copyBundleTails_whole place ends, copyBundleHeads_eq place]
    rfl
  · apply through_append
    · refine tails.mono ?_
      rintro memory ⟨halts, untouched⟩
      exact ⟨fun bundle inside => .inl (halts bundle inside), untouched⟩
    · obtain ⟨halts, untouched⟩ := through_iff_forall.mp tails _
        List.prefix_rfl
      exact heads_through place short halts untouched after
  · intro offset inside
    rw [applyStores_append, applyStores_headStores place _ inside]
    split
    next => rfl
    next tail => exact after offset inside (by omega)

theorem copies_heads_iff
    (short : halt.length ≤ 4)
    (halted : ∀ bundle, bundleSize * bundle < size.toNat →
      Halts halt dest bundleSize before bundle)
    {endPtr : Nat} (past : endPtr ≤ dest)
    (ends : tailsEnd wordBits dest size = some endPtr) :
    CopiesSafely halt dest bundleSize src size wordBits before ↔
      TailsEqual dest bundleSize src size before := by
  have copied : copyCodeSafelyInitial wordBits dest src size bundleSize =
      some (headStores dest bundleSize (codeWord src) size) := by
    unfold copyCodeSafelyInitial
    rw [copyBundleTails_none past ends, copyBundleHeads_eq place]
    rfl
  constructor
  · rintro ⟨stores, ran, -, final⟩ offset inside tail
    cases copied.symm.trans ran
    have equal := final offset inside
    rw [applyStores_headStores place _ inside, if_neg (by omega)] at equal
    exact equal
  · intro tails
    refine ⟨_, copied, heads_through place short halted (fun _ _ => rfl) tails,
      ?_⟩
    intro offset inside
    rw [applyStores_headStores place _ inside]
    split
    next => rfl
    next tail => exact tails offset inside (by omega)

theorem copiesSafely_iff
    (short : halt.length ≤ 4)
    (halted : ∀ bundle, bundleSize * bundle < size.toNat →
      Halts halt dest bundleSize before bundle) :
    CopiesSafely halt dest bundleSize src size wordBits before ↔
      wordBits = 32 ∨ size.toNat < 2 ^ 31 ∨
        2 ^ 32 ≤ dest + size.toNat ∧
          TailsEqual dest bundleSize src size before := by
  rcases tailsEnd_cases place with ⟨ends, small⟩ |
    ⟨wide, large, ⟨low, none'⟩ | ⟨high, endPtr, past, ends⟩⟩
  · refine iff_of_true (copies_whole place short halted ends) ?_
    rcases small with narrow | less
    · exact .inl narrow
    · exact .inr (.inl less)
  · refine iff_of_false ?_ ?_
    · rintro ⟨stores, ran, -⟩
      unfold copyCodeSafelyInitial copyBundleTails at ran
      rw [none'] at ran
      cases ran
    · rintro (narrow | less | ⟨high, -⟩)
      · omega
      · omega
      · omega
  · rw [copies_heads_iff place short halted past ends]
    constructor
    · intro tails
      exact .inr (.inr ⟨high, tails⟩)
    · rintro (narrow | less | ⟨-, tails⟩)
      · omega
      · omega
      · exact tails

theorem replacesHeads
    {haltWord : List UInt8}
    (word : haltWord.length = 4) (before : Buffer) :
    ∃ stores, replaceBundleHeadsWithHalts haltWord dest size bundleSize =
        some stores ∧
      (∀ bundle, bundleSize * bundle < size.toNat →
        Halts haltWord dest bundleSize (applyStores stores before) bundle) ∧
      ∀ address, (∀ bundle, bundleSize * bundle < size.toNat →
          address < dest + bundleSize * bundle ∨
            dest + bundleSize * bundle + 4 ≤ address) →
        applyStores stores before address = before address := by
  have large := place.words.2
  refine ⟨_, replaceBundleHeadsWithHalts_eq place haltWord, ?_, ?_⟩
  · intro bundle inside index within
    apply applyStores_inside
    · intro store member covered
      obtain ⟨other, -, rfl⟩ := List.mem_map.mp member
      obtain ⟨above, below⟩ := covered
      dsimp only at above below ⊢
      have same : dest + bundleSize * bundle + index -
          (dest + bundleSize * other) = index := by
        rcases place.bundle with rfl | rfl
        · omega
        · omega
      rw [same, List.getD_eq_getElem?_getD, List.getElem?_eq_getElem within,
        Option.getD_some]
    · left
      refine ⟨_, List.mem_map.mpr ⟨bundle, ?_, rfl⟩, ?_⟩
      · rw [List.mem_range]
        exact (place.bundle_end inside).1
      · constructor
        · dsimp only
          omega
        · dsimp only
          omega
  · intro address outside
    apply applyStores_outside
    intro store member covered
    obtain ⟨bundle, ranged, rfl⟩ := List.mem_map.mp member
    rw [List.mem_range] at ranged
    obtain ⟨above, below⟩ := covered
    dsimp only at above below
    have next := Nat.mul_le_mul_left bundleSize ranged
    rw [← place.size_eq, Nat.mul_succ] at next
    rcases outside bundle (by omega) with lower | upper
    · omega
    · omega

/-- The copy of new code over bundles that halt, and halts over bundles that
are deleted. -/
theorem initialCopy_safe
    (small : size.toNat < 2 ^ 31) (short : halt.length ≤ 4)
    (halted : ∀ bundle, bundleSize * bundle < size.toNat →
      Halts halt dest bundleSize before bundle)
    {haltWord : List UInt8} (word : haltWord.length = 4) :
    CopiesSafely halt dest bundleSize src size wordBits before ∧
    ∃ stores, replaceBundleHeadsWithHalts haltWord dest size bundleSize =
        some stores ∧
      (∀ bundle, bundleSize * bundle < size.toNat →
        Halts haltWord dest bundleSize (applyStores stores before) bundle) ∧
      ∀ address, (∀ bundle, bundleSize * bundle < size.toNat →
          address < dest + bundleSize * bundle ∨
            dest + bundleSize * bundle + 4 ≤ address) →
        applyStores stores before address = before address :=
  ⟨(copiesSafely_iff place short halted).mpr (.inr (.inl small)),
    replacesHeads place word before⟩

end Moments

theorem halts_filled
    (dest bundleSize bundle : Nat) :
    Halts [naclHaltOpcode] dest bundleSize (fun _ => naclHaltOpcode)
      bundle := by
  intro index within
  rw [List.length_singleton, Nat.lt_one_iff] at within
  subst within
  rfl

theorem initialCopy_safe_twoBundles :
    Place 64 32 64 64 ∧
      CopiesSafely [naclHaltOpcode] 64 32 (fun address => address.toUInt8) 64 64
        (fun _ => naclHaltOpcode) ∧
      ∃ stores, replaceBundleHeadsWithHalts (List.replicate 4 naclHaltOpcode)
          64 64 32 = some stores ∧
        applyStores stores (fun _ => naclHaltOpcode) 68 = naclHaltOpcode := by
  have place : Place 64 32 64 64 :=
    ⟨.inr rfl, .inr rfl, by decide, by decide, by decide⟩
  obtain ⟨copies, stores, ran, -, others⟩ :=
    @initialCopy_safe 64 32 64 64 (fun address => address.toUInt8)
      [naclHaltOpcode] (fun _ => naclHaltOpcode) place (by decide) (by decide)
      (fun bundle _ => halts_filled 64 32 bundle)
      (List.replicate 4 naclHaltOpcode) rfl
  refine ⟨place, copies, stores, ran, others 68 fun bundle _ => ?_⟩
  omega

/-- Of two gigabytes only the heads are copied. -/
theorem twoGigabytes_incomplete :
    Place 64 32 (2 ^ 32) (2 ^ 31) ∧
      ¬ CopiesSafely [naclHaltOpcode] (2 ^ 32) 32 (fun _ => 0x90) (2 ^ 31) 64
        (fun _ => naclHaltOpcode) := by
  have place : Place 64 32 (2 ^ 32) (2 ^ 31) :=
    ⟨.inr rfl, .inr rfl, by decide, by decide, by decide⟩
  refine ⟨place, ?_⟩
  rw [copiesSafely_iff place (by decide)]
  · rintro (narrow | small | ⟨-, tails⟩)
    · exact absurd narrow (by decide)
    · exact absurd small (by decide)
    · exact absurd (tails 4 (by decide) (by decide)) (by decide)
  · exact fun bundle _ => halts_filled (2 ^ 32) 32 bundle

end NativeClient.Runtime.InitialCopy
