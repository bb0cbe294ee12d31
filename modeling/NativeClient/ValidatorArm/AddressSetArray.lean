import NativeClient.ValidatorArm.AddressSet

/-!
# The array of an address set

The same set with the array that the constructor allocates: an access out of
the array has no result.  Every call on a set of aligned words has one, and an
iteration from the beginning to the end yields each word of the set once, in
ascending order.
-/

namespace NativeClient.ValidatorArm

open NativeClient.Library

/-- `bits` is the array that `bits_` points to. -/
structure ArraySet where
  base : Nat
  size : Nat
  bits : List (BitVec 32)

namespace ArraySet

abbrev Iterator := AddressSet.Iterator

def maxIndex (set : ArraySet) : Nat :=
  wrap32 (set.size + 3 : Nat) / 4

def make (base size : Nat) : ArraySet where
  base := base
  size := size
  bits := List.replicate (wrap32 (size + 3 : Nat) / 4) 0

def offset (set : ArraySet) (address : Nat) : Nat :=
  wrap32 ((address : Int) - set.base)

def add (set : ArraySet) (address : Nat) : Option ArraySet :=
  if set.offset address < set.size then do
    let wordAddress := set.offset address / 4
    let word ← set.bits[wordAddress / 32]?
    some { set with
      bits := set.bits.set (wordAddress / 32)
        (word ||| 1#32 <<< (wordAddress % 32)) }
  else
    some set

def contains (set : ArraySet) (address : Nat) : Option Bool :=
  if set.offset address < set.size then do
    let wordAddress := set.offset address / 4
    let word ← set.bits[wordAddress / 32]?
    some (word &&& 1#32 <<< (wordAddress % 32) != 0)
  else
    some false

def restOfWord (bits : List (BitVec 32)) (index shift : Nat) :
    Option (BitVec 32) :=
  if 31 < shift then some 0
  else (bits[index]?).map fun word : BitVec 32 => word >>> shift

/-- The loop of `advance`; the count is of the words that are left. -/
def advanceLoop (bits : List (BitVec 32)) : Nat → Nat → Nat → Option (Nat × Nat)
  | 0, index, shift => some (index, shift)
  | left + 1, index, shift => do
      let word ← restOfWord bits index shift
      match scanWord 33 word shift with
      | some found => some (index, found)
      | none => advanceLoop bits left (index + 1) 0

def advance (set : ArraySet) (it : Iterator) : Option Iterator := do
  let found ← advanceLoop set.bits (set.maxIndex - it.index) it.index it.shift
  some ⟨found.1, found.2⟩

def begin (set : ArraySet) : Option Iterator :=
  set.advance ⟨0, 0⟩

def finish (set : ArraySet) : Option Iterator :=
  set.advance ⟨set.maxIndex, 0⟩

/-- `operator++`. -/
def next (set : ArraySet) (it : Iterator) : Option Iterator :=
  set.advance { it with shift := it.shift + 1 }

/-- `operator*`. -/
def deref (set : ArraySet) (it : Iterator) : Nat :=
  wrap32 (set.base + 4 * (it.index * 32 + it.shift) : Nat)

/-- What a loop from an iterator to the end goes through.  There is no result
if the loop takes more rounds than the first argument. -/
def walk (set : ArraySet) : Nat → Iterator → Option (List Nat)
  | 0, _ => none
  | rounds + 1, it => do
      let last ← set.finish
      if it = last then
        some []
      else do
        let after ← set.next it
        let rest ← walk set rounds after
        some (set.deref it :: rest)

def addAll (set : ArraySet) : List Nat → Option ArraySet
  | [] => some set
  | address :: rest => do
      let set ← set.add address
      set.addAll rest

structure Represents (array : ArraySet) (set : AddressSet) : Prop where
  base : array.base = set.base
  size : array.size = set.size
  length : array.bits.length = set.maxIndex
  words : ∀ index < set.maxIndex, array.bits[index]? = some (set.bits index)

section Refinement

variable {array : ArraySet} {set : AddressSet}

theorem represents_make (base size : Nat) :
    (make base size).Represents (AddressSet.empty base size) where
  base := rfl
  size := rfl
  length := List.length_replicate
  words index below := by
    rw [make, List.getElem?_replicate]
    exact if_pos below

theorem Represents.offset_eq
    (represents : array.Represents set) (address : Nat) :
    array.offset address = set.offset address := by
  rw [offset, AddressSet.offset, represents.base]

theorem Represents.maxIndex_eq (represents : array.Represents set) :
    array.maxIndex = set.maxIndex := by
  rw [maxIndex, AddressSet.maxIndex, represents.size]

theorem word_lt_maxIndex
    {address : Nat} (room : set.size < 2 ^ 32 - 3)
    (inside : set.InRange address) :
    set.offset address / 4 / 32 < set.maxIndex := by
  have sum : wrap32 (set.size + 3 : Nat) = set.size + 3 :=
    wrap32_of_lt (by omega)
  rw [AddressSet.InRange] at inside
  rw [AddressSet.maxIndex, sum]
  omega

theorem Represents.add
    (represents : array.Represents set) (room : set.size < 2 ^ 32 - 3)
    (address : Nat) :
    ∃ added, array.add address = some added ∧
      added.Represents (set.add address) := by
  rw [ArraySet.add, AddressSet.add, represents.offset_eq, represents.size]
  split
  · next inside =>
      have below := word_lt_maxIndex room inside
      dsimp only
      rw [represents.words _ below]
      refine ⟨_, rfl, represents.base, rfl, ?_, ?_⟩
      · rw [List.length_set]
        exact represents.length
      · intro index less
        change index < set.maxIndex at less
        show (array.bits.set _ _)[index]? = some (set.bits.set _ index)
        rw [Words.set]
        by_cases same : index = set.offset address / 4 / 32
        · rw [same, Function.update_self, List.getElem?_set_self]
          rw [represents.length]
          exact below
        · rw [Function.update_of_ne same, List.getElem?_set_ne (Ne.symm same)]
          exact represents.words index less
  · exact ⟨array, rfl, represents⟩

theorem and_shifted_ne_zero (word : BitVec 32) {bit : Nat} (small : bit < 32) :
    (word &&& 1#32 <<< bit != 0) = word.getLsbD bit := by
  have one : (BitVec.twoPow 32 bit).getLsbD bit = true := by
    rw [BitVec.getLsbD_twoPow]
    exact Bool.and_eq_true_iff.mpr
      ⟨decide_eq_true small, decide_eq_true rfl⟩
  show (word &&& BitVec.twoPow 32 bit != 0) = word.getLsbD bit
  rw [BitVec.and_twoPow]
  cases word.getLsbD bit with
  | false => rfl
  | true =>
      rw [if_pos rfl, bne_iff_ne]
      intro zero
      rw [zero] at one
      simp at one

theorem Represents.contains
    (represents : array.Represents set) (room : set.size < 2 ^ 32 - 3)
    (address : Nat) :
    array.contains address = some (set.contains address) := by
  rw [ArraySet.contains, AddressSet.contains, represents.offset_eq,
    represents.size]
  split
  · next inside =>
      dsimp only
      rw [represents.words _ (word_lt_maxIndex room inside)]
      show some _ = some _
      rw [and_shifted_ne_zero _ (Nat.mod_lt _ (by decide)), Words.get]
  · rfl

theorem Represents.advanceLoop_eq
    (represents : array.Represents set) {left index : Nat} (shift : Nat)
    (inside : index + left ≤ set.maxIndex) :
    advanceLoop array.bits left index shift =
      some (scanWords set.bits left index shift) := by
  induction left generalizing index shift with
  | zero => rfl
  | succ left ih =>
      have read : restOfWord array.bits index shift =
          some (if 31 < shift then 0 else set.bits index >>> shift) := by
        rw [restOfWord, represents.words index (by omega)]
        split <;> rfl
      rw [advanceLoop, read, scanWords, Option.bind_eq_bind, Option.bind_some]
      cases scanWord 33 (if 31 < shift then 0 else set.bits index >>> shift)
          shift with
      | some found => rfl
      | none => exact @ih (index + 1) 0 (by omega)

theorem Represents.advance_eq
    (represents : array.Represents set) {it : Iterator}
    (inside : it.index ≤ set.maxIndex) :
    array.advance it = some (set.advance it) := by
  rw [advance, represents.maxIndex_eq, represents.advanceLoop_eq it.shift
    (by omega)]
  rfl

theorem Represents.deref_eq
    (represents : array.Represents set) (it : Iterator) :
    array.deref it = set.deref it := by
  rw [deref, AddressSet.deref, represents.base]

end Refinement

/-! ## The members -/

def Inside (base size address : Nat) : Prop :=
  base ≤ address ∧ address < base + size

section Members

variable {set : AddressSet} {addresses : List Nat}

def Holds (set : AddressSet) (addresses : List Nat) : Prop :=
  ∀ place, set.bits.get place = true ↔
    ∃ address ∈ addresses, set.InRange address ∧ set.offset address / 4 = place

theorem holds_empty (base size : Nat) : Holds (AddressSet.empty base size) [] := by
  intro place
  refine iff_of_false ?_ ?_
  · show ¬ (0#32).getLsbD _ = true
    simp
  · rintro ⟨address, member, -⟩
    cases member

theorem Holds.add (holds : Holds set addresses) (address : Nat) :
    Holds (set.add address) (addresses ++ [address]) := by
  intro place
  have offset (other : Nat) :
      (set.add address).offset other = set.offset other := by
    rw [AddressSet.offset, AddressSet.offset, AddressSet.base_add]
  have inRange (other : Nat) :
      (set.add address).InRange other ↔ set.InRange other := by
    rw [AddressSet.InRange, AddressSet.InRange, offset, AddressSet.size_add]
  have bits : (set.add address).bits.get place = true ↔
      set.bits.get place = true ∨
        set.InRange address ∧ set.offset address / 4 = place := by
    rw [AddressSet.add, AddressSet.InRange]
    split
    · next inside =>
        rw [Words.get_set]
        simp only [Bool.or_eq_true, decide_eq_true_eq, inside, true_and]
        rw [@eq_comm _ place]
    · next outside =>
        simp only [outside, false_and, or_false]
  rw [bits, holds place]
  constructor
  · rintro (⟨other, member, inside, here⟩ | ⟨inside, here⟩)
    · exact ⟨other, List.mem_append_left _ member, (inRange other).mpr inside,
        (congrArg (· / 4) (offset other)).trans here⟩
    · exact ⟨address, List.mem_append_right _ (List.mem_singleton.mpr rfl),
        (inRange address).mpr inside,
        (congrArg (· / 4) (offset address)).trans here⟩
  · rintro ⟨other, member, inside, here⟩
    rw [inRange] at inside
    rw [offset] at here
    rcases List.mem_append.mp member with old | fresh
    · exact .inl ⟨other, old, inside, here⟩
    · rw [List.mem_singleton.mp fresh] at inside here
      exact .inr ⟨inside, here⟩

def placeAddress (base place : Nat) : Nat :=
  wrap32 (base + 4 * place : Nat)

theorem deref_eq_place (set : AddressSet) (it : Iterator) :
    set.deref it = placeAddress set.base it.place := by
  rw [AddressSet.deref, placeAddress, AddressSet.Iterator.place,
    Nat.mul_comm it.index]

end Members

section Runs

variable {array : ArraySet} {set : AddressSet} {addresses : List Nat}

theorem Represents.addAll
    (represents : array.Represents set) (room : set.size < 2 ^ 32 - 3)
    {before : List Nat} (holds : Holds set before) (addresses : List Nat) :
    ∃ added next, array.addAll addresses = some added ∧
      added.Represents next ∧ Holds next (before ++ addresses) ∧
      next.base = set.base ∧ next.size = set.size := by
  induction addresses generalizing array set before with
  | nil =>
      refine ⟨array, set, rfl, represents, ?_, rfl, rfl⟩
      rw [List.append_nil]
      exact holds
  | cons address rest ih =>
      obtain ⟨stepped, run, stepRepresents⟩ := represents.add room address
      obtain ⟨added, next, runs, done, nextHolds, base, size⟩ :=
        ih stepRepresents (by rw [AddressSet.size_add]; exact room)
          (holds.add address)
      refine ⟨added, next, ?_, done, ?_, ?_, ?_⟩
      · rw [ArraySet.addAll, run]
        exact runs
      · rw [List.append_assoc] at nextHolds
        exact nextHolds
      · rw [base, AddressSet.base_add]
      · rw [size, AddressSet.size_add]

def WalksThrough (array : ArraySet) (it : Iterator) (places : List Nat) :
    Prop :=
  ∃ rounds, ∀ more, rounds ≤ more →
    array.walk more it = some (places.map (placeAddress array.base))

structure BitsFrom (set : AddressSet) (start : Nat) (places : List Nat) :
    Prop where
  ordered : places.Pairwise (· < ·)
  members : ∀ place, place ∈ places ↔
    start ≤ place ∧ place < set.finish.place ∧ set.bits.get place = true

theorem Represents.finish_eq (represents : array.Represents set) :
    array.finish = some set.finish := by
  rw [finish, represents.maxIndex_eq]
  exact represents.advance_eq (Nat.le_refl _)

theorem Represents.walk_finish (represents : array.Represents set) :
    WalksThrough array set.finish [] ∧
      BitsFrom set set.finish.place [] := by
  refine ⟨⟨1, ?_⟩, List.Pairwise.nil, ?_⟩
  · intro more enough
    obtain ⟨more, rfl⟩ := Nat.exists_eq_add_of_le' enough
    rw [ArraySet.walk, represents.finish_eq]
    exact if_pos rfl
  · intro place
    refine iff_of_false List.not_mem_nil ?_
    omega

theorem Represents.walk_next
    (represents : array.Represents set) {it : Iterator} {places : List Nat}
    (valid : set.Valid it) (more : it ≠ set.finish)
    (rest : WalksThrough array (set.next it) places)
    (bits : BitsFrom set (set.next it).place places) :
    WalksThrough array it (it.place :: places) ∧
      BitsFrom set it.place (it.place :: places) := by
  obtain ⟨nextValid, skipped⟩ := AddressSet.next_spec valid more
  have progress := AddressSet.place_lt_next valid more
  obtain ⟨inside, low, here⟩ := valid.stops.resolve_left (by
    rw [← AddressSet.finish_eq]
    exact more)
  have before : it.place < set.finish.place := by
    rw [AddressSet.finish_eq]
    unfold AddressSet.Iterator.place
    simp only
    omega
  refine ⟨?_, ?_, ?_⟩
  · obtain ⟨rounds, runs⟩ := rest
    refine ⟨rounds + 1, ?_⟩
    intro total enough
    obtain ⟨extra, rfl⟩ := Nat.exists_eq_add_of_le' enough
    have moved : array.next it = some (set.next it) :=
      represents.advance_eq (Nat.le_of_lt inside)
    rw [← Nat.add_assoc, ArraySet.walk, represents.finish_eq,
      Option.bind_eq_bind, Option.bind_some, if_neg more, moved,
      Option.bind_some, runs (extra + rounds) (Nat.le_add_left _ _)]
    show some (_ :: _) = some (_ :: _)
    rw [represents.deref_eq, deref_eq_place, represents.base]
  · refine List.pairwise_cons.mpr ⟨?_, bits.ordered⟩
    intro place member
    have bounds := (bits.members place).mp member
    omega
  · intro place
    rw [List.mem_cons, bits.members]
    constructor
    · rintro (rfl | ⟨above, rest⟩)
      · exact ⟨Nat.le_refl _, before, here⟩
      · exact ⟨by omega, rest⟩
    · rintro ⟨above, below, isSet⟩
      rcases Nat.eq_or_lt_of_le above with same | later
      · exact .inl same.symm
      · refine .inr ⟨?_, below, isSet⟩
        by_contra between
        have clear := skipped place later (by omega)
        rw [clear] at isSet
        cases isSet

theorem Represents.walk
    (represents : array.Represents set) (distance : Nat) {it : Iterator}
    (valid : set.Valid it) (near : set.finish.place ≤ it.place + distance) :
    ∃ places, WalksThrough array it places ∧ BitsFrom set it.place places := by
  induction distance generalizing it with
  | zero =>
      by_cases done : it = set.finish
      · rw [done]
        exact ⟨[], represents.walk_finish⟩
      rw [AddressSet.finish_eq] at done near
      obtain ⟨inside, low, -⟩ := valid.stops.resolve_left done
      unfold AddressSet.Iterator.place at near
      simp only at near
      omega
  | succ distance ih =>
      by_cases done : it = set.finish
      · rw [done]
        exact ⟨[], represents.walk_finish⟩
      have progress := AddressSet.place_lt_next valid done
      obtain ⟨places, rest, bits⟩ :=
        ih (AddressSet.next_spec valid done).1 (by omega)
      exact ⟨it.place :: places, represents.walk_next valid done rest bits⟩

theorem Represents.iterate (represents : array.Represents set) :
    ∃ first places, array.begin = some first ∧
      WalksThrough array first places ∧ BitsFrom set 0 places := by
  obtain ⟨valid, skipped⟩ := set.begin_spec
  obtain ⟨places, walks, bits⟩ :=
    represents.walk set.finish.place valid (Nat.le_add_left _ _)
  refine ⟨set.begin, places, represents.advance_eq (Nat.zero_le _), walks,
    bits.ordered, ?_⟩
  intro place
  rw [bits.members]
  constructor
  · rintro ⟨-, rest⟩
    exact ⟨Nat.zero_le _, rest⟩
  · rintro ⟨-, below, isSet⟩
    refine ⟨?_, below, isSet⟩
    by_contra before
    have clear := skipped place (by omega)
    rw [clear] at isSet
    cases isSet

end Runs

def WordOf (base size : Nat) (addresses : List Nat) (word : Nat) : Prop :=
  ∃ address ∈ addresses, Inside base size address ∧ word = address / 4 * 4

section Addresses

variable {set : AddressSet} {base size address other : Nat}

theorem inRange_iff
    (isBase : set.base = base) (isSize : set.size = size)
    (fits : base + size ≤ 2 ^ 32) (small : address < 2 ^ 32) :
    set.InRange address ↔ Inside base size address := by
  rw [AddressSet.InRange, AddressSet.offset, isBase, isSize, Inside]
  unfold wrap32
  omega

theorem offset_of_inside
    (isBase : set.base = base) (small : address < 2 ^ 32)
    (inside : Inside base size address) :
    set.offset address = address - base := by
  rw [AddressSet.offset, isBase]
  rw [Inside] at inside
  unfold wrap32
  omega

theorem same_word_iff
    (aligned : 4 ∣ base) (above : base ≤ address) (otherAbove : base ≤ other) :
    (other - base) / 4 = (address - base) / 4 ↔
      address / 4 * 4 = other / 4 * 4 := by
  omega

theorem placeAddress_word
    (aligned : 4 ∣ base) (above : base ≤ address) (small : address < 2 ^ 32) :
    placeAddress base ((address - base) / 4) = address / 4 * 4 := by
  rw [placeAddress, wrap32_of_lt (by omega)]
  omega

theorem place_lt_finish_of_inside
    (isSize : set.size = size) (room : size < 2 ^ 32 - 3)
    (inside : Inside base size address) :
    (address - base) / 4 < set.finish.place := by
  have sum : wrap32 (set.size + 3 : Nat) = set.size + 3 :=
    wrap32_of_lt (by omega)
  rw [AddressSet.finish_eq]
  unfold AddressSet.Iterator.place AddressSet.maxIndex
  rw [Inside] at inside
  simp only [sum]
  omega

end Addresses

/-- Whatever is added, the set holds the words of the addresses in the range,
an iteration yields them in ascending order, and no access is out of the
array. -/
theorem arraySet_exact
    {base size : Nat} {addresses : List Nat} (aligned : 4 ∣ base)
    (room : size < 2 ^ 32 - 3) (fits : base + size ≤ 2 ^ 32)
    (words : ∀ address ∈ addresses, address < 2 ^ 32) :
    ∃ set, (make base size).addAll addresses = some set ∧
      (∀ address < 2 ^ 32, ∃ answer, set.contains address = some answer ∧
        (answer = true ↔ Inside base size address ∧
          WordOf base size addresses (address / 4 * 4))) ∧
      ∃ first rounds members, set.begin = some first ∧
        (∀ more, rounds ≤ more → set.walk more first = some members) ∧
        members.Pairwise (· < ·) ∧
        ∀ word, word ∈ members ↔ WordOf base size addresses word := by
  obtain ⟨array, set, run, represents, holds, isBase, isSize⟩ :=
    (represents_make base size).addAll room (holds_empty base size) addresses
  change set.base = base at isBase
  change set.size = size at isSize
  rw [List.nil_append] at holds
  -- The bits that are set, as addresses.
  have bits (place : Nat) : set.bits.get place = true ↔
      ∃ address ∈ addresses, Inside base size address ∧
        (address - base) / 4 = place := by
    rw [holds]
    refine exists_congr fun address => and_congr_right fun member => ?_
    rw [inRange_iff isBase isSize fits (words address member)]
    refine and_congr_right fun inside => ?_
    rw [offset_of_inside isBase (words address member) inside]
  refine ⟨array, run, ?_, ?_⟩
  · intro address small
    refine ⟨_, represents.contains (by rw [isSize]; exact room) address, ?_⟩
    rw [AddressSet.contains_iff, inRange_iff isBase isSize fits small, bits]
    refine and_congr_right fun inside => ?_
    rw [offset_of_inside isBase small inside]
    refine exists_congr fun other => and_congr_right fun member =>
      and_congr_right fun otherInside => ?_
    exact same_word_iff aligned inside.1 otherInside.1
  · obtain ⟨first, places, begins, ⟨rounds, runs⟩, yields⟩ :=
      represents.iterate
    have isArrayBase : array.base = base := represents.base.trans isBase
    rw [isArrayBase] at runs
    have address_of {place : Nat} (member : place ∈ places) :
        ∃ address ∈ addresses, Inside base size address ∧
          (address - base) / 4 = place ∧
          placeAddress base place = address / 4 * 4 := by
      obtain ⟨address, inAddresses, inside, here⟩ :=
        (bits place).mp ((yields.members place).mp member).2.2
      refine ⟨address, inAddresses, inside, here, ?_⟩
      rw [← here]
      exact placeAddress_word aligned inside.1 (words address inAddresses)
    refine ⟨first, rounds, places.map (placeAddress base), begins, runs, ?_, ?_⟩
    · refine List.pairwise_map.mpr (yields.ordered.imp_of_mem ?_)
      intro left right leftMember rightMember less
      obtain ⟨leftAddress, -, leftInside, leftPlace, leftWord⟩ :=
        address_of leftMember
      obtain ⟨rightAddress, -, rightInside, rightPlace, rightWord⟩ :=
        address_of rightMember
      rw [leftWord, rightWord]
      have leftAbove := leftInside.1
      have rightAbove := rightInside.1
      omega
    · intro word
      rw [List.mem_map]
      constructor
      · rintro ⟨place, member, rfl⟩
        obtain ⟨address, inAddresses, inside, -, isWord⟩ := address_of member
        exact ⟨address, inAddresses, inside, isWord⟩
      · rintro ⟨address, inAddresses, inside, rfl⟩
        refine ⟨(address - base) / 4, ?_, placeAddress_word aligned inside.1
          (words address inAddresses)⟩
        exact (yields.members _).mpr ⟨Nat.zero_le _,
          place_lt_finish_of_inside isSize room inside,
          (bits _).mpr ⟨address, inAddresses, inside, rfl⟩⟩

/-- A set of four words, with an address inside of a word and one outside of
the range. -/
theorem arraySet_exact_four :
    ∃ set, (make 0x1234 16).addAll [0x1235, 0x1200, 0x1240] = some set ∧
      ∃ first rounds members, set.begin = some first ∧
        (∀ more, rounds ≤ more → set.walk more first = some members) ∧
        members.Pairwise (· < ·) ∧
        ∀ word, word ∈ members ↔
          WordOf 0x1234 16 [0x1235, 0x1200, 0x1240] word := by
  obtain ⟨set, run, -, iterates⟩ :=
    @arraySet_exact 0x1234 16 [0x1235, 0x1200, 0x1240] (by decide) (by decide)
      (by decide) (by decide)
  exact ⟨set, run, iterates⟩

end ArraySet

end NativeClient.ValidatorArm
