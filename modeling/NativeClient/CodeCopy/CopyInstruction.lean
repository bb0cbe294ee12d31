import NativeClient.Library.Stores

/-!
# Replacing one instruction

`CopyInstruction` of `nccopycode.c`, as the list of its stores.  Other threads
may execute the slot while it is being written, so what matters is the memory
after each store.
-/

namespace NativeClient.CodeCopy

open NativeClient.Library

def kNaClFullStop : UInt8 := 0xf4
def kTrustAligned : Nat := 8
def kTrustUnaligned : Nat := 1
def kInstructionFetchSize : Nat := 8

def alignDown (address align : Nat) : Nat :=
  address / align * align

def isAligned (dst size align : Nat) : Bool :=
  alignDown dst align = alignDown (dst + size - 1) align

def isTrustedWrite (dst size writesize : Nat) : Option Nat :=
  if size > writesize then
    none
  else if !isAligned dst size kInstructionFetchSize then
    none
  else if writesize ≤ kTrustAligned ∧ isAligned dst size writesize then
    some (dst &&& (writesize - 1))
  else if writesize ≤ kTrustUnaligned then
    some 0
  else
    none

structure Change where
  dst : Nat
  src : Nat
  sz : Nat

def scroll (memory source : Buffer) : Nat → Nat → Nat → Change
  | dst, src, 0 => ⟨dst, src, 0⟩
  | dst, src, sz + 1 =>
      if memory dst = source src then
        scroll memory source (dst + 1) (src + 1) sz
      else
        ⟨dst, src, sz + 1⟩

def trim (memory source : Buffer) (dst src : Nat) : Nat → Change
  | 0 => ⟨dst, src, 0⟩
  | sz + 1 =>
      if memory (dst + sz) = source (src + sz) then
        trim memory source dst src sz
      else
        ⟨dst, src, sz + 1⟩

def readBytes (source : Buffer) (src count : Nat) : List UInt8 :=
  (List.range count).map fun index => source (src + index)

/-- `onestore_memmove4` or `onestore_memmove8`: the changed bytes and their
neighbours, as they were, in one store. -/
def oneStore (memory source : Buffer) (change : Change)
    (writesize offset : Nat) : Store where
  address := change.dst - offset
  bytes := (List.range writesize).map fun index =>
    if offset ≤ index ∧ index < offset + change.sz then
      source (change.src + (index - offset))
    else
      memory (change.dst - offset + index)

def slowStores (memcpy : Memcpy) (memory source : Buffer) (maddr : Nat)
    (change : Change) : List Store :=
  let halt : Store := ⟨maddr, [kNaClFullStop]⟩
  if change.dst = maddr then
    [halt] ++
      memcpy.stores (change.dst + 1)
        (readBytes source (change.src + 1) (change.sz - 1)) ++
      [⟨maddr, [source change.src]⟩]
  else
    [halt] ++
      memcpy.stores change.dst (readBytes source change.src change.sz) ++
      [⟨maddr, [memory maddr]⟩]

/-- The stores that replace the instruction at `maddr` by the one at `src`. -/
def copyInstruction (memcpy : Memcpy) (memory source : Buffer)
    (maddr src length : Nat) : List Store :=
  let first := scroll memory source maddr src length
  if first.sz = 0 then
    []
  else
    let change := trim memory source first.dst first.src first.sz
    if change.sz = 1 then
      [⟨change.dst, [source change.src]⟩]
    else
      match isTrustedWrite change.dst change.sz 4 with
      | some offset => [oneStore memory source change 4 offset]
      | none =>
          match isTrustedWrite change.dst change.sz 8 with
          | some offset => [oneStore memory source change 8 offset]
          | none => slowStores memcpy memory source maddr change

/-! ## The changed bytes -/

structure Spans (memory source : Buffer) (maddr src length : Nat)
    (change : Change) : Prop where
  above : maddr ≤ change.dst
  together : change.dst - maddr = change.src - src
  aboveSource : src ≤ change.src
  below : change.dst + change.sz ≤ maddr + length
  before : ∀ index, maddr + index < change.dst →
    memory (maddr + index) = source (src + index)
  after : ∀ index < length, change.dst + change.sz ≤ maddr + index →
    memory (maddr + index) = source (src + index)

theorem scroll_spans
    (memory source : Buffer) (dst src sz : Nat) :
    Spans memory source dst src sz (scroll memory source dst src sz) ∧
      (scroll memory source dst src sz).dst +
        (scroll memory source dst src sz).sz = dst + sz := by
  induction sz generalizing dst src with
  | zero =>
      refine ⟨⟨Nat.le_refl _, ?_, Nat.le_refl _, Nat.le_refl _, ?_, ?_⟩, rfl⟩
      · simp [scroll]
      · intro index less
        simp only [scroll] at less
        omega
      · intro index none
        omega
  | succ sz ih =>
      rw [scroll]
      split_ifs with same
      · obtain ⟨spans, ends⟩ := ih (dst + 1) (src + 1)
        have above := spans.above
        have together := spans.together
        have aboveSource := spans.aboveSource
        have below := spans.below
        refine ⟨⟨by omega, by omega, by omega, by omega, ?_, ?_⟩, by omega⟩
        · intro index less
          cases index with
          | zero => exact same
          | succ index =>
              have next := spans.before index (by omega)
              rwa [Nat.add_assoc, Nat.add_assoc, Nat.add_comm 1 index] at next
        · intro index small later
          have past : index = sz + 1 := by omega
          omega
      · refine ⟨⟨Nat.le_refl _, ?_, Nat.le_refl _, Nat.le_refl _, ?_, ?_⟩,
          rfl⟩
        · simp
        · intro index less
          simp only at less
          omega
        · intro index small later
          simp only at later
          omega

theorem trim_spans
    {memory source : Buffer} {maddr src length : Nat} {first : Change}
    (spans : Spans memory source maddr src length first) :
    Spans memory source maddr src length
      (trim memory source first.dst first.src first.sz) := by
  obtain ⟨dst, place, sz⟩ := first
  induction sz with
  | zero => exact spans
  | succ sz ih =>
      simp only [trim]
      split_ifs with same
      · apply ih
        have above := spans.above
        have together := spans.together
        have aboveSource := spans.aboveSource
        have below := spans.below
        simp only at above together aboveSource below
        refine ⟨above, together, aboveSource, by simp only; omega,
          spans.before, ?_⟩
        intro index small later
        simp only at later
        by_cases last : maddr + index = dst + sz
        · rw [last, same]
          congr 1
          omega
        · exact spans.after index small (by simp only; omega)
      · exact spans

def replaced (memory source : Buffer) (maddr src length : Nat) : Buffer :=
  memory.splice (source.shift src) maddr length

theorem Spans.replaced_eq
    {memory source : Buffer} {maddr src length : Nat} {change : Change}
    (spans : Spans memory source maddr src length change) :
    replaced memory source change.dst change.src change.sz =
      replaced memory source maddr src length := by
  have above := spans.above
  have together := spans.together
  have aboveSource := spans.aboveSource
  have below := spans.below
  funext address
  unfold replaced
  by_cases inside : maddr ≤ address ∧ address < maddr + length
  · rw [Buffer.splice_inside inside.1 inside.2]
    obtain ⟨index, rfl⟩ := Nat.exists_eq_add_of_le inside.1
    rw [Nat.add_sub_cancel_left]
    by_cases changed : change.dst ≤ maddr + index ∧
        maddr + index < change.dst + change.sz
    · rw [Buffer.splice_inside changed.1 changed.2]
      simp only [Buffer.shift_apply]
      congr 1
      omega
    · rw [Buffer.splice_outside (by omega)]
      rcases Nat.lt_or_ge (maddr + index) change.dst with early | late
      · exact spans.before index early
      · exact spans.after index (by omega) (by omega)
  · rw [Buffer.splice_outside (by omega), Buffer.splice_outside (by omega)]

/-! ## Trusted writes -/

theorem getD_map_range
    {count index : Nat} (small : index < count) (f : Nat → UInt8) :
    ((List.range count).map f).getD index 0 = f index := by
  simp [List.getD, small]

theorem isTrustedWrite_spec
    {dst size writesize offset : Nat} (width : writesize = 4 ∨ writesize = 8)
    (trusted : isTrustedWrite dst size writesize = some offset) :
    offset ≤ dst ∧ offset + size ≤ writesize := by
  unfold isTrustedWrite at trusted
  split_ifs at trusted with large fetch aligned unaligned
  · have place : offset = dst % writesize := by
      rw [← Option.some.inj trusted]
      rcases width with rfl | rfl
      · exact Nat.and_two_pow_sub_one_eq_mod dst 2
      · exact Nat.and_two_pow_sub_one_eq_mod dst 3
    have block : dst / writesize * writesize =
        (dst + size - 1) / writesize * writesize :=
      of_decide_eq_true aligned.2
    rcases width with rfl | rfl <;> omega
  · simp only [kTrustUnaligned] at unaligned
    omega

theorem oneStore_apply
    (memory source : Buffer) (change : Change) {writesize offset : Nat}
    (inside : offset ≤ change.dst) (room : offset + change.sz ≤ writesize) :
    (oneStore memory source change writesize offset).apply memory =
      replaced memory source change.dst change.src change.sz := by
  have length :
      (oneStore memory source change writesize offset).bytes.length =
        writesize := by
    simp [oneStore]
  have start : (oneStore memory source change writesize offset).address =
      change.dst - offset := rfl
  funext address
  by_cases covered :
    (oneStore memory source change writesize offset).Covers address
  · rw [Store.apply_inside covered]
    unfold Store.Covers at covered
    rw [length, start] at covered
    rw [start]
    simp only [oneStore]
    rw [getD_map_range (by omega)]
    unfold replaced
    split_ifs with changed
    · rw [Buffer.splice_inside (by omega) (by omega), Buffer.shift_apply]
      congr 1
      omega
    · rw [Buffer.splice_outside (by omega)]
      congr 1
      omega
  · rw [Store.apply_outside covered]
    unfold Store.Covers at covered
    rw [length, start] at covered
    unfold replaced
    rw [Buffer.splice_outside (by omega)]

theorem byteStore_apply
    (memory : Buffer) (dst : Nat) (value : UInt8) (address : Nat) :
    (⟨dst, [value]⟩ : Store).apply memory address =
      if address = dst then value else memory address := by
  have covers : (⟨dst, [value]⟩ : Store).Covers address ↔ address = dst := by
    simp only [Store.Covers, List.length_singleton]
    omega
  split_ifs with here
  · rw [Store.apply_inside (covers.mpr here), here]
    simp
  · exact Store.apply_outside (mt covers.mp here)

/-! ## Every moment is safe -/

/-- What another thread may find in the slot, and that it finds everything else
as it was. -/
structure SafeMoment (memory source : Buffer) (maddr src length : Nat)
    (now : Buffer) : Prop where
  slot : (∀ index < length, now (maddr + index) = memory (maddr + index)) ∨
    (∀ index < length, now (maddr + index) = source (src + index)) ∨
    now maddr = kNaClFullStop
  frame : ∀ address, address < maddr ∨ maddr + length ≤ address →
    now address = memory address

section Moments

variable {memory source : Buffer} {maddr src length : Nat}

theorem safeMoment_before : SafeMoment memory source maddr src length memory :=
  ⟨.inl fun _ _ => rfl, fun _ _ => rfl⟩

theorem safeMoment_after :
    SafeMoment memory source maddr src length
      (replaced memory source maddr src length) := by
  refine ⟨.inr (.inl ?_), ?_⟩
  · intro index small
    unfold replaced
    rw [Buffer.splice_inside (by omega) (by omega), Nat.add_sub_cancel_left]
    rfl
  · intro address outside
    exact Buffer.splice_outside outside

theorem single_safe {store : Store}
    (whole : store.apply memory = replaced memory source maddr src length) :
    Through (SafeMoment memory source maddr src length) [store] memory ∧
      applyStores [store] memory =
        replaced memory source maddr src length := by
  refine ⟨⟨safeMoment_before, ?_⟩, whole⟩
  change SafeMoment memory source maddr src length (store.apply memory)
  rw [whole]
  exact safeMoment_after

structure Halted (memory : Buffer) (maddr length : Nat) (now : Buffer) :
    Prop where
  first : now maddr = kNaClFullStop
  frame : ∀ address, address < maddr ∨ maddr + length ≤ address →
    now address = memory address

theorem Halted.safeMoment {now : Buffer}
    (halted : Halted memory maddr length now) :
    SafeMoment memory source maddr src length now :=
  ⟨.inr (.inr halted.first), halted.frame⟩

theorem through_halted
    {tail : List Store} {value : UInt8} (nonempty : 0 < length)
    (inside : ∀ store ∈ tail, maddr < store.address ∧
      store.address + store.bytes.length ≤ maddr + length)
    (final : (⟨maddr, [value]⟩ : Store).apply (applyStores tail
        ((⟨maddr, [kNaClFullStop]⟩ : Store).apply memory)) =
      replaced memory source maddr src length) :
    Through (SafeMoment memory source maddr src length)
      ([⟨maddr, [kNaClFullStop]⟩] ++ tail ++ [⟨maddr, [value]⟩]) memory := by
  let halt : Store := ⟨maddr, [kNaClFullStop]⟩
  have start : Halted memory maddr length (halt.apply memory) := by
    constructor
    · rw [byteStore_apply, if_pos rfl]
    · intro address outside
      rw [byteStore_apply, if_neg (by omega)]
  have keeps : ∀ store ∈ tail, ∀ now, Halted memory maddr length now →
      Halted memory maddr length (store.apply now) := by
    intro store member now halted
    have within := inside store member
    constructor
    · rw [Store.apply_outside (by unfold Store.Covers; omega)]
      exact halted.first
    · intro address outside
      rw [Store.apply_outside (by unfold Store.Covers; omega)]
      exact halted.frame address outside
  have middle : Through (SafeMoment memory source maddr src length) tail
      (halt.apply memory) :=
    (through_of_invariant keeps start).mono fun _ halted => halted.safeMoment
  have ended : SafeMoment memory source maddr src length
      (applyStores tail (halt.apply memory)) :=
    through_iff_forall.mp middle tail (List.prefix_refl tail)
  have begun : Through (SafeMoment memory source maddr src length)
      ([halt] ++ tail) memory := ⟨safeMoment_before, middle⟩
  refine through_append begun ⟨ended, ?_⟩
  change SafeMoment memory source maddr src length
    ((⟨maddr, [value]⟩ : Store).apply (applyStores tail (halt.apply memory)))
  rw [final]
  exact safeMoment_after

@[simp] theorem readBytes_length (source : Buffer) (src count : Nat) :
    (readBytes source src count).length = count := by
  simp [readBytes]

theorem slow_final
    (memcpy : Memcpy) {change : Change} (dst place count : Nat) (value : UInt8)
    (spans : Spans memory source maddr src length change)
    (first : value = replaced memory source maddr src length maddr)
    (distance : dst + change.src = place + change.dst)
    (tail : ∀ address, address ≠ maddr →
      (dst ≤ address ∧ address < dst + count ↔
        change.dst ≤ address ∧ address < change.dst + change.sz)) :
    (⟨maddr, [value]⟩ : Store).apply (applyStores
        (memcpy.stores dst (readBytes source place count))
        ((⟨maddr, [kNaClFullStop]⟩ : Store).apply memory)) =
      replaced memory source maddr src length := by
  funext address
  rw [byteStore_apply]
  split_ifs with here
  · rw [here]
    exact first
  · rw [memcpy.applied, readBytes_length, byteStore_apply, if_neg here,
      ← spans.replaced_eq]
    unfold replaced
    split_ifs with inside
    · obtain ⟨above, below⟩ := (tail address here).mp inside
      rw [Buffer.splice_inside above below, Buffer.shift_apply]
      unfold readBytes
      rw [getD_map_range (by omega)]
      congr 1
      omega
    · rw [Buffer.splice_outside]
      have outside := mt (tail address here).mpr inside
      omega

theorem slowStores_safe
    (memcpy : Memcpy) {change : Change}
    (spans : Spans memory source maddr src length change)
    (nonempty : 0 < length) (changed : 0 < change.sz) :
    Through (SafeMoment memory source maddr src length)
        (slowStores memcpy memory source maddr change) memory ∧
      applyStores (slowStores memcpy memory source maddr change) memory =
        replaced memory source maddr src length := by
  have above := spans.above
  have together := spans.together
  have aboveSource := spans.aboveSource
  have below := spans.below
  have head : replaced memory source maddr src length maddr = source src := by
    unfold replaced
    rw [Buffer.splice_inside (Nat.le_refl _) (by omega), Nat.sub_self,
      Buffer.shift_apply, Nat.add_zero]
  unfold slowStores
  simp only
  split_ifs with atFirst
  · have sameSource : change.src = src := by omega
    have final := slow_final memcpy (change.dst + 1) (change.src + 1)
      (change.sz - 1) (source change.src) spans (by rw [head, sameSource])
      (by omega) (by
        intro address other
        omega)
    refine ⟨through_halted nonempty ?_ final, ?_⟩
    · intro store member
      have within := memcpy.within _ _ store member
      rw [readBytes_length] at within
      omega
    · rw [applyStores_append, applyStores_append]
      exact final
  · have kept : memory maddr = source src := spans.before 0 (by omega)
    have final := slow_final memcpy change.dst change.src change.sz
      (memory maddr) spans (by rw [head, kept]) (Nat.add_comm _ _)
      (fun _ _ => Iff.rfl)
    refine ⟨through_halted nonempty ?_ final, ?_⟩
    · intro store member
      have within := memcpy.within _ _ store member
      rw [readBytes_length] at within
      omega
    · rw [applyStores_append, applyStores_append]
      exact final

end Moments

theorem trim_sz_pos
    {memory source : Buffer} {dst src sz : Nat}
    (different : memory dst ≠ source src) (nonempty : 0 < sz) :
    0 < (trim memory source dst src sz).sz := by
  induction sz with
  | zero => omega
  | succ sz ih =>
      rw [trim]
      split_ifs with same
      · rcases Nat.eq_zero_or_pos sz with rfl | positive
        · exact (different same).elim
        · exact ih positive
      · exact Nat.succ_pos sz

theorem scroll_different
    {memory source : Buffer} {dst src sz : Nat}
    (nonempty : (scroll memory source dst src sz).sz ≠ 0) :
    memory (scroll memory source dst src sz).dst ≠
      source (scroll memory source dst src sz).src := by
  induction sz generalizing dst src with
  | zero => exact (nonempty rfl).elim
  | succ sz ih =>
      rw [scroll] at nonempty ⊢
      split_ifs at nonempty ⊢ with same
      · exact ih nonempty
      · exact same

theorem copyInstruction_through
    (memcpy : Memcpy) (memory source : Buffer) (maddr src length : Nat) :
    Through (SafeMoment memory source maddr src length)
        (copyInstruction memcpy memory source maddr src length) memory ∧
      applyStores (copyInstruction memcpy memory source maddr src length)
        memory = replaced memory source maddr src length := by
  obtain ⟨scrolled, ends⟩ := scroll_spans memory source maddr src length
  have spans := trim_spans scrolled
  unfold copyInstruction
  simp only
  split_ifs with identical single
  · refine ⟨safeMoment_before, ?_⟩
    rw [← scrolled.replaced_eq, identical]
    funext address
    exact (Buffer.splice_outside (by omega)).symm
  · apply single_safe
    rw [← spans.replaced_eq, single]
    funext address
    rw [byteStore_apply]
    unfold replaced
    split_ifs with here
    · rw [here, Buffer.splice_inside (Nat.le_refl _) (by omega), Nat.sub_self]
      rfl
    · exact (Buffer.splice_outside (by omega)).symm
  · split
    next offset trusted =>
      obtain ⟨inside, room⟩ := isTrustedWrite_spec (.inl rfl) trusted
      apply single_safe
      rw [oneStore_apply memory source _ inside room, spans.replaced_eq]
    next =>
      split
      next offset trusted =>
        obtain ⟨inside, room⟩ := isTrustedWrite_spec (.inr rfl) trusted
        apply single_safe
        rw [oneStore_apply memory source _ inside room, spans.replaced_eq]
      next =>
        have above := scrolled.above
        exact slowStores_safe memcpy spans (by omega)
          (trim_sz_pos (scroll_different identical) (by omega))

/-- After every store of `CopyInstruction` the slot holds the old instruction,
the new one, or begins with `HLT`, and nothing else has changed; after the last
one the slot holds the new instruction. -/
theorem copyInstruction_safe
    (memcpy : Memcpy) (memory source : Buffer) (maddr src length : Nat) :
    (∀ done, done <+: copyInstruction memcpy memory source maddr src length →
      SafeMoment memory source maddr src length (applyStores done memory)) ∧
    ∀ index < length,
      applyStores (copyInstruction memcpy memory source maddr src length)
        memory (maddr + index) = source (src + index) := by
  obtain ⟨through, final⟩ :=
    copyInstruction_through memcpy memory source maddr src length
  refine ⟨through_iff_forall.mp through, ?_⟩
  intro index small
  rw [final]
  unfold replaced
  rw [Buffer.splice_inside (by omega) (by omega), Nat.add_sub_cancel_left]
  rfl

end NativeClient.CodeCopy
