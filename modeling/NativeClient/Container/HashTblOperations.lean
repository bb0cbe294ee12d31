import NativeClient.Container.HashTbl
import Mathlib.Data.List.Perm.Basic

/-!
# The operations of the hash table

An entry is found because no bucket on the way to it was ever unused since it
was put there.  Every operation that returns keeps this, and does to the live
entries what it does to a multiset.
-/

namespace NativeClient.Container

open NativeClient.Library

variable {α : Type}

def place (functor : HashFunctor α) (numBuckets : Nat) (key : α) (steps : Nat) :
    Nat :=
  (functor.hash key + stride * steps) % numBuckets

structure Valid (machine : Machine) (functor : HashFunctor α)
    (table : HashTbl α) : Prop where
  length : table.bucket.length = table.numBuckets
  large : minBuckets ≤ table.numBuckets
  coprime : Nat.Coprime table.numBuckets stride
  fits : 8 * table.numBuckets < 2 ^ machine.sizeBits
  counted : table.numEntries = table.live.length
  reached : ∀ idx datum, table.slot idx = .used datum →
    ∃ steps, idx = place functor table.numBuckets datum steps ∧
      ∀ earlier < steps,
        (table.slot (place functor table.numBuckets datum earlier)).isUnused =
          false

section Probing

variable {machine : Machine} {functor : HashFunctor α} {table : HashTbl α}

variable (valid : Valid machine functor table)

include valid

theorem Valid.positive :
    1 < table.numBuckets := by
  have large := valid.large
  unfold minBuckets at large
  omega

theorem Valid.place_lt
    (key : α) (steps : Nat) :
    place functor table.numBuckets key steps < table.numBuckets :=
  Nat.mod_lt _ (Nat.lt_of_succ_lt valid.positive)

theorem Valid.probe_eq (key : α)
    (stop : Slot α → Bool) :
    table.probe functor key stop =
      runLoop
        (searchTurn (fun idx => stop (table.slot idx))
          (hashNext table.numBuckets))
        table.numBuckets (functor.hash key % table.numBuckets) := by
  have positive := valid.positive
  unfold HashTbl.probe HashTbl.home
  rw [if_neg (by omega)]
  rfl

theorem Valid.iterate_hashNext
    (key : α) (steps : Nat) :
    (hashNext table.numBuckets)^[steps]
        (functor.hash key % table.numBuckets) =
      place functor table.numBuckets key steps := by
  have positive := valid.positive
  have stepped := @iterate_stride table.numBuckets stride
    (functor.hash key % table.numBuckets) (Nat.mod_lt _ (by omega)) steps
  rw [Nat.mod_add_mod] at stepped
  exact stepped

theorem Valid.probe_some
    (key : α) {stop : Slot α → Bool}
    {idx : Nat} (inside : idx < table.numBuckets)
    (stops : stop (table.slot idx) = true) :
    ∃ steps,
      table.probe functor key stop =
          some (place functor table.numBuckets key steps) ∧
        stop (table.slot (place functor table.numBuckets key steps)) = true ∧
        ∀ earlier < steps,
          stop (table.slot (place functor table.numBuckets key earlier)) =
            false := by
  obtain ⟨steps, within, there⟩ := stride_reaches valid.coprime.symm
    valid.positive (functor.hash key) inside
  have found : stop (table.slot ((hashNext table.numBuckets)^[steps]
      (functor.hash key % table.numBuckets))) = true := by
    rw [valid.iterate_hashNext, place, there]
    exact stops
  obtain ⟨first, -, ended, stopped, before⟩ := @runLoop_searchTurn _
    (fun idx => stop (table.slot idx)) (hashNext table.numBuckets) _ _ _ found
    within
  rw [valid.iterate_hashNext] at ended stopped
  refine ⟨first, (valid.probe_eq key stop).trans ended, stopped, ?_⟩
  intro earlier less
  have passed := before earlier less
  rw [valid.iterate_hashNext] at passed
  exact passed

theorem Valid.probe_none
    (key : α) {stop : Slot α → Bool}
    (never : ∀ idx < table.numBuckets, stop (table.slot idx) = false) :
    table.probe functor key stop = none ∧
      ∀ result, ¬ Returns
        (searchTurn (fun idx => stop (table.slot idx))
          (hashNext table.numBuckets))
        (functor.hash key % table.numBuckets) result := by
  have endless (result : Nat) : ¬ Returns
      (searchTurn (fun idx => stop (table.slot idx))
        (hashNext table.numBuckets))
      (functor.hash key % table.numBuckets) result := by
    apply not_returns_searchTurn
    intro steps
    rw [valid.iterate_hashNext]
    exact never _ (valid.place_lt key steps)
  refine ⟨?_, endless⟩
  rw [valid.probe_eq]
  cases ended : runLoop (searchTurn (fun idx => stop (table.slot idx))
      (hashNext table.numBuckets)) table.numBuckets
      (functor.hash key % table.numBuckets) with
  | none => rfl
  | some result => exact absurd ⟨_, ended⟩ (endless result)

end Probing

section Slots

theorem slot_eq_getElem {table : HashTbl α} {idx : Nat}
    (inside : idx < table.bucket.length) :
    table.slot idx = table.bucket[idx] := by
  unfold HashTbl.slot
  rw [List.getD_eq_getElem?_getD, List.getElem?_eq_getElem inside]
  rfl

theorem lt_of_slot_used {table : HashTbl α} {idx : Nat} {datum : α}
    (used : table.slot idx = .used datum) : idx < table.bucket.length := by
  by_contra outside
  unfold HashTbl.slot at used
  rw [List.getD_eq_getElem?_getD, List.getElem?_eq_none (by omega)] at used
  cases used

theorem mem_live_iff {table : HashTbl α} {datum : α} :
    datum ∈ table.live ↔ ∃ idx, table.slot idx = .used datum := by
  unfold HashTbl.live
  rw [List.mem_filterMap]
  constructor
  · rintro ⟨slot, member, some'⟩
    obtain ⟨idx, inside, same⟩ := List.getElem_of_mem member
    refine ⟨idx, ?_⟩
    rw [slot_eq_getElem inside, same]
    cases slot with
    | used other =>
        cases some'
        rfl
    | unused => cases some'
    | deleted => cases some'
  · rintro ⟨idx, used⟩
    have inside := lt_of_slot_used used
    rw [slot_eq_getElem inside] at used
    exact ⟨_, List.getElem_mem inside, by rw [used]; rfl⟩

theorem isUnused_of_isUsed {slot : Slot α} (used : slot.isUsed = true) :
    slot.isUnused = false := by
  cases slot with
  | unused => cases used
  | used datum => rfl
  | deleted => rfl

theorem live_set
    {bucket : List (Slot α)} {idx : Nat} (inside : idx < bucket.length)
    (slot : Slot α) :
    ∃ rest : List α,
      (bucket.filterMap Slot.datum).Perm (bucket[idx].datum.toList ++ rest) ∧
        ((bucket.set idx slot).filterMap Slot.datum).Perm
          (slot.datum.toList ++ rest) := by
  have split (first : Slot α) (slots : List (Slot α)) :
      (first :: slots).filterMap Slot.datum =
        first.datum.toList ++ slots.filterMap Slot.datum := by
    rw [List.filterMap_cons]
    cases first.datum with
    | none => rfl
    | some datum => rfl
  refine ⟨(bucket.eraseIdx idx).filterMap Slot.datum, ?_, ?_⟩
  · rw [← split]
    exact (List.getElem_cons_eraseIdx_perm inside).symm.filterMap _
  · rw [← split]
    exact (List.set_perm_cons_eraseIdx inside slot).filterMap _

theorem live_lt_iff {table : HashTbl α} :
    table.live.length < table.bucket.length ↔
      ∃ idx < table.bucket.length, (table.slot idx).isUsed = false := by
  have most : table.live.length ≤ table.bucket.length :=
    List.length_filterMap_le _ _
  have full : table.live.length = table.bucket.length ↔
      ∀ slot ∈ table.bucket, slot.datum.isSome :=
    List.filterMap_length_eq_length
  constructor
  · intro less
    by_contra all
    apply Nat.ne_of_lt less
    rw [full]
    intro slot member
    obtain ⟨idx, inside, rfl⟩ := List.getElem_of_mem member
    by_contra free
    apply all
    refine ⟨idx, inside, ?_⟩
    rw [slot_eq_getElem inside, Slot.isUsed]
    simpa using free
  · rintro ⟨idx, inside, free⟩
    apply Nat.lt_of_le_of_ne most
    intro same
    have used := full.mp same _ (List.getElem_mem inside)
    rw [slot_eq_getElem inside, Slot.isUsed, used] at free
    cases free

end Slots

section Changes

variable {machine : Machine} {functor : HashFunctor α} {table : HashTbl α}

theorem slot_set
    {bucket : List (Slot α)} {idx : Nat} (inside : idx < bucket.length)
    (numBuckets numEntries : Nat) (slot : Slot α) (other : Nat) :
    HashTbl.slot ⟨numBuckets, numEntries, bucket.set idx slot⟩ other =
      if other = idx then slot
      else HashTbl.slot ⟨numBuckets, numEntries, bucket⟩ other := by
  unfold HashTbl.slot
  dsimp only
  rw [List.getD_eq_getElem?_getD, List.getD_eq_getElem?_getD]
  by_cases same : other = idx
  · subst same
    rw [if_pos rfl, List.getElem?_set_self inside]
    rfl
  · rw [if_neg same, List.getElem?_set_ne (Ne.symm same)]

theorem slot_put
    {idx : Nat} (inside : idx < table.bucket.length) (obj : α) (other : Nat) :
    (table.put idx obj).slot other =
      if other = idx then .used obj else table.slot other :=
  slot_set inside _ _ _ other

theorem slot_remove
    {idx : Nat} (inside : idx < table.bucket.length) (other : Nat) :
    (table.remove idx).slot other =
      if other = idx then .deleted else table.slot other :=
  slot_set inside _ _ _ other

theorem live_put
    {idx : Nat} (inside : idx < table.bucket.length)
    (free : (table.slot idx).isUsed = false) (obj : α) :
    (table.put idx obj).live.Perm (obj :: table.live) := by
  obtain ⟨rest, before, after⟩ := live_set inside (.used obj)
  rw [slot_eq_getElem inside, Slot.isUsed] at free
  have none' : table.bucket[idx].datum = none := by simpa using free
  rw [none'] at before
  exact after.trans (before.symm.cons obj)

theorem live_remove
    {idx : Nat} (inside : idx < table.bucket.length) :
    table.live.Perm
      ((table.slot idx).datum.toList ++ (table.remove idx).live) := by
  obtain ⟨rest, before, after⟩ := live_set inside .deleted
  rw [slot_eq_getElem inside]
  exact before.trans (after.symm.append_left _)

theorem reached_of_slots
    {next : HashTbl α} {numBuckets idx : Nat}
    (same : ∀ other ≠ idx, next.slot other = table.slot other)
    (marked : (next.slot idx).isUnused = false) {datum : α} {steps : Nat}
    (passed : ∀ earlier < steps,
      (table.slot (place functor numBuckets datum earlier)).isUnused = false) :
    ∀ earlier < steps,
      (next.slot (place functor numBuckets datum earlier)).isUnused = false := by
  intro earlier less
  by_cases here : place functor numBuckets datum earlier = idx
  · rw [here]
    exact marked
  · rw [same _ here]
    exact passed earlier less

theorem Valid.put
    (valid : Valid machine functor table) {obj : α} {steps : Nat}
    (free : (table.slot (place functor table.numBuckets obj steps)).isUsed =
      false)
    (passed : ∀ earlier < steps,
      (table.slot (place functor table.numBuckets obj earlier)).isUsed = true) :
    Valid machine functor
      (table.put (place functor table.numBuckets obj steps) obj) := by
  have inside : place functor table.numBuckets obj steps <
      table.bucket.length := by
    rw [valid.length]
    exact valid.place_lt obj steps
  constructor
  · exact (List.length_set).trans valid.length
  · exact valid.large
  · exact valid.coprime
  · exact valid.fits
  · rw [(live_put inside free obj).length_eq, List.length_cons, ← valid.counted]
    rfl
  · intro idx datum used
    have kept : ∀ other ≠ place functor table.numBuckets obj steps,
        (table.put (place functor table.numBuckets obj steps) obj).slot other =
          table.slot other := by
      intro other distinct
      rw [slot_put inside, if_neg distinct]
    have marked : ((table.put (place functor table.numBuckets obj steps)
        obj).slot (place functor table.numBuckets obj steps)).isUnused =
          false := by
      rw [slot_put inside, if_pos rfl]
      rfl
    rw [slot_put inside] at used
    split at used
    next here =>
      cases used
      exact ⟨steps, here, reached_of_slots kept marked fun earlier less =>
        isUnused_of_isUsed (passed earlier less)⟩
    next other =>
      obtain ⟨steps, there, passed⟩ := valid.reached idx datum used
      exact ⟨steps, there, reached_of_slots kept marked passed⟩

theorem Valid.remove
    (valid : Valid machine functor table) {idx : Nat}
    (below : idx < table.numBuckets) :
    Valid machine functor (table.remove idx) := by
  have inside : idx < table.bucket.length := by rwa [valid.length]
  constructor
  · exact (List.length_set).trans valid.length
  · exact valid.large
  · exact valid.coprime
  · exact valid.fits
  · have lengths := (live_remove inside).length_eq
    have counted := valid.counted
    rw [List.length_append] at lengths
    show (if (table.slot idx).isUsed then table.numEntries - 1
      else table.numEntries) = _
    unfold Slot.isUsed
    cases present : (table.slot idx).datum with
    | none =>
        rw [present] at lengths
        simp only [Option.toList_none, List.length_nil] at lengths
        simp only [Option.isSome_none, Bool.false_eq_true, if_false]
        omega
    | some datum =>
        rw [present] at lengths
        simp only [Option.toList_some, List.length_singleton] at lengths
        simp only [Option.isSome_some, if_true]
        omega
  · intro other datum used
    rw [slot_remove inside] at used
    split at used
    next => cases used
    next distinct =>
      obtain ⟨steps, there, passed⟩ := valid.reached other datum used
      refine ⟨steps, there, @reached_of_slots _ functor table _ _ idx
        (fun another elsewhere => ?_) ?_ _ _ passed⟩
      · rw [slot_remove inside, if_neg elsewhere]
      · rw [slot_remove inside, if_pos rfl]
        rfl

end Changes

section Insertion

variable {machine : Machine} {functor : HashFunctor α}
  {allocates : Nat → Bool}

theorem makeBucket_some
    {size : Nat} {bucket : List (Slot α)}
    (made : makeBucket machine allocates size = some bucket) :
    bucket = List.replicate size .unused ∧
      8 * size < 2 ^ machine.sizeBits := by
  unfold makeBucket at made
  split at made
  next => cases made
  next fits =>
    split at made
    next =>
      cases made
      refine ⟨rfl, ?_⟩
      unfold Machine.sizeMax Machine.entrySize at fits
      rcases machine.widths with eq | eq
      · rw [eq] at fits ⊢
        omega
      · rw [eq] at fits ⊢
        omega
    next => cases made

theorem live_replicate (numBuckets numEntries size : Nat) :
    HashTbl.live (α := α)
      ⟨numBuckets, numEntries, List.replicate size .unused⟩ = [] := by
  unfold HashTbl.live
  simp [Slot.datum]

theorem valid_replicate
    {size : Nat} (large : minBuckets ≤ size) (coprime : Nat.Coprime size stride)
    (fits : 8 * size < 2 ^ machine.sizeBits) :
    Valid machine functor ⟨size, 0, List.replicate size .unused⟩ := by
  refine ⟨List.length_replicate, large, coprime, fits, ?_, ?_⟩
  · rw [live_replicate]
    rfl
  · intro idx datum used
    have empty := live_replicate (α := α) size 0 size
    have member := mem_live_iff.mpr ⟨idx, used⟩
    rw [empty] at member
    cases member

def Inserts
    (machine : Machine) (functor : HashFunctor α)
    (insert : HashTbl α → α → Option (Bool × HashTbl α))
    (room : HashTbl α → Prop) : Prop :=
  ∀ table obj, Valid machine functor table → room table →
    ∃ grown next, insert table obj = some (grown, next) ∧
      Valid machine functor next ∧ next.live.Perm (obj :: table.live) ∧
      table.numBuckets ≤ next.numBuckets

variable {insert : HashTbl α → α → Option (Bool × HashTbl α)}
  {room : HashTbl α → Prop}

theorem rehash_spec
    (inserts : Inserts machine functor insert room)
    {slots : List (Slot α)} {table : HashTbl α}
    (valid : Valid machine functor table)
    (enough : ∀ other, Valid machine functor other →
      table.numBuckets ≤ other.numBuckets →
      other.numEntries <
        table.numEntries + (slots.filterMap Slot.datum).length →
      room other) :
    ∃ next, rehash insert slots table = some next ∧
      Valid machine functor next ∧
      next.live.Perm (slots.filterMap Slot.datum ++ table.live) ∧
      table.numBuckets ≤ next.numBuckets := by
  induction slots generalizing table with
  | nil => exact ⟨table, rfl, valid, List.Perm.refl _, Nat.le_refl _⟩
  | cons slot slots ih =>
      cases slot with
      | unused => exact ih valid enough
      | deleted => exact ih valid enough
      | used datum =>
          have counted : (List.filterMap Slot.datum (.used datum :: slots)) =
              datum :: slots.filterMap Slot.datum := rfl
          rw [counted, List.length_cons] at enough
          obtain ⟨grown, between, inserted, betweenValid, perm, larger⟩ :=
            inserts table datum valid
              (enough table valid (Nat.le_refl _) (by omega))
          have entries : between.numEntries = table.numEntries + 1 := by
            rw [betweenValid.counted, perm.length_eq, List.length_cons,
              ← valid.counted]
          obtain ⟨next, rehashed, nextValid, nextPerm, nextLarger⟩ :=
            ih betweenValid (fun other otherValid more less =>
              enough other otherValid (Nat.le_trans larger more) (by omega))
          refine ⟨next, ?_, nextValid, ?_, Nat.le_trans larger nextLarger⟩
          · rw [rehash, inserted]
            exact rehashed
          · rw [counted]
            exact (nextPerm.trans (perm.append_left _)).trans List.perm_middle

theorem Valid.entries_le
    {table : HashTbl α} (valid : Valid machine functor table) :
    table.numEntries ≤ table.numBuckets := by
  rw [valid.counted, ← valid.length]
  exact List.length_filterMap_le _ _

theorem checkLoad_spec
    (inserts : Inserts machine functor insert room)
    {table : HashTbl α} (valid : Valid machine functor table)
    (enough : table.numBuckets ≤ 2 * table.numEntries →
      ∀ other, Valid machine functor other →
        2 * table.numBuckets ≤ other.numBuckets →
        other.numEntries < table.numEntries → room other) :
    ∃ grown next,
      checkLoad machine allocates insert table = some (grown, next) ∧
        Valid machine functor next ∧ next.live.Perm table.live ∧
        table.numBuckets ≤ next.numBuckets := by
  have same : Valid machine functor table ∧ table.live.Perm table.live ∧
      table.numBuckets ≤ table.numBuckets :=
    ⟨valid, List.Perm.refl _, Nat.le_refl _⟩
  have fits := valid.fits
  have entries := valid.entries_le
  unfold checkLoad loadFactor
  rw [Nat.mod_eq_of_lt (show 2 * table.numEntries < 2 ^ machine.sizeBits by
    omega)]
  split
  next => exact ⟨_, _, rfl, same⟩
  next loaded =>
    dsimp only
    rw [Nat.mod_eq_of_lt (show 2 * table.numBuckets < 2 ^ machine.sizeBits by
      omega), if_neg (by omega)]
    cases made : makeBucket (α := α) machine allocates
        (2 * table.numBuckets) with
    | none => exact ⟨_, _, rfl, same⟩
    | some bucket =>
        obtain ⟨rfl, newFits⟩ := makeBucket_some made
        have coprime : Nat.Coprime (2 * table.numBuckets) stride :=
          Nat.Coprime.mul_left (by decide) valid.coprime
        have large := valid.large
        have live := live_replicate (α := α) (2 * table.numBuckets) 0
          (2 * table.numBuckets)
        obtain ⟨next, rehashed, nextValid, perm, larger⟩ :=
          @rehash_spec _ machine functor insert room inserts table.bucket _
            (valid_replicate (by omega) coprime newFits)
            (fun other otherValid more less => enough (by omega) other
              otherValid more (by
                rw [valid.counted]
                have count : 0 + (table.bucket.filterMap Slot.datum).length =
                  table.live.length := Nat.zero_add _
                exact count ▸ less))
        rw [live, List.append_nil] at perm
        dsimp only at larger ⊢
        rw [rehashed]
        exact ⟨_, _, rfl, nextValid, perm, by omega⟩

theorem Valid.probe_free
    {table : HashTbl α} (valid : Valid machine functor table)
    (free : table.numEntries < table.numBuckets) (obj : α) :
    ∃ idx, (table.probe functor obj fun slot => !slot.isUsed) = some idx ∧
      Valid machine functor (table.put idx obj) ∧
      (table.put idx obj).live.Perm (obj :: table.live) := by
  rw [valid.counted, ← valid.length] at free
  obtain ⟨idx, inside, notUsed⟩ := live_lt_iff.mp free
  rw [valid.length] at inside
  obtain ⟨steps, ended, stops, passed⟩ := @Valid.probe_some _ machine functor
    table valid obj (fun slot => !slot.isUsed) idx inside (by rw [notUsed]; rfl)
  have there : (table.slot (place functor table.numBuckets obj steps)).isUsed =
      false := by
    simpa using stops
  refine ⟨_, ended, valid.put there ?_, live_put ?_ there obj⟩
  · intro earlier less
    simpa using passed earlier less
  · rw [valid.length]
    exact valid.place_lt obj steps

theorem insertWithin_spec
    {depth : Nat} {inner : HashTbl α → Prop}
    (inserts : Inserts machine functor
      (insertWithin machine functor allocates depth) inner)
    (free : ∀ table, room table → table.numEntries < table.numBuckets)
    (enough : ∀ table other, room table →
      table.numBuckets ≤ 2 * (table.numEntries + 1) →
      2 * table.numBuckets ≤ other.numBuckets →
      other.numEntries < table.numEntries + 1 → inner other) :
    Inserts machine functor
      (insertWithin machine functor allocates (depth + 1)) room := by
  intro table obj valid roomy
  obtain ⟨idx, ended, putValid, perm⟩ :=
    valid.probe_free (free table roomy) obj
  obtain ⟨grown, next, checked, nextValid, nextPerm, larger⟩ :=
    @checkLoad_spec _ machine functor allocates _ _ inserts _ putValid
      (fun loaded other _ more less => enough table other roomy loaded more less)
  refine ⟨grown, next, ?_, nextValid, nextPerm.trans perm, larger⟩
  rw [insertWithin, ended]
  exact checked

/-- The rehash of a full table fills the new one to the half, and only the last
insertion into it makes that grow. -/
theorem insert_spec :
    Inserts (α := α) machine functor (HashTbl.insert machine functor allocates)
      (fun table => table.numEntries < table.numBuckets) := by
  have never : Inserts machine functor
      (insertWithin machine functor allocates 0) (fun _ => False) :=
    fun _ _ _ impossible => impossible.elim
  have light : Inserts machine functor
      (insertWithin machine functor allocates 1)
      (fun table => 2 * (table.numEntries + 1) < table.numBuckets) := by
    refine insertWithin_spec never ?_ ?_
    · intro table roomy
      omega
    · intro table other roomy loaded
      omega
  have once : Inserts machine functor
      (insertWithin machine functor allocates 2)
      (fun table => table.numEntries + 1 < table.numBuckets) := by
    refine insertWithin_spec light ?_ ?_
    · intro table roomy
      omega
    · intro table other roomy loaded more less
      omega
  refine insertWithin_spec once ?_ ?_
  · intro table roomy
    exact roomy
  · intro table other roomy loaded more less
    omega

theorem insert_none
    {table : HashTbl α} (valid : Valid machine functor table)
    (full : ¬ table.numEntries < table.numBuckets) (obj : α) :
    table.insert machine functor allocates obj = none := by
  have all : ∀ idx < table.numBuckets,
      (!(table.slot idx).isUsed) = false := by
    intro idx inside
    rw [valid.counted, ← valid.length, live_lt_iff] at full
    by_contra free
    apply full
    exact ⟨idx, by rwa [valid.length], by simpa using free⟩
  obtain ⟨endless, -⟩ := @Valid.probe_none _ machine functor table valid obj
    (fun slot => !slot.isUsed) all
  unfold HashTbl.insert insertWithin
  rw [endless]
  rfl

theorem insert_returned
    {table : HashTbl α} (valid : Valid machine functor table) {obj : α}
    {grown : Bool} {next : HashTbl α}
    (inserted : table.insert machine functor allocates obj =
      some (grown, next)) :
    Valid machine functor next ∧ next.live.Perm (obj :: table.live) := by
  by_cases free : table.numEntries < table.numBuckets
  · obtain ⟨other, after, same, afterValid, perm, -⟩ :=
      @insert_spec _ machine functor allocates table obj valid free
    rw [inserted] at same
    cases same
    exact ⟨afterValid, perm⟩
  · rw [insert_none valid free] at inserted
    cases inserted

end Insertion

section Search

variable {machine : Machine} {functor : HashFunctor α} {table : HashTbl α}

def Findable (functor : HashFunctor α) (table : HashTbl α) (key : α) : Prop :=
  (∃ idx < table.numBuckets, (table.slot idx).isUnused = true) ∨
    ∃ datum ∈ table.live, functor.orderCmp datum key = 0

variable (valid : Valid machine functor table)

include valid

theorem find_ends
    {key : α}
    (findable : Findable functor table key) :
    ∃ steps,
      table.probe functor key (endsFind functor key) =
          some (place functor table.numBuckets key steps) ∧
        endsFind functor key
          (table.slot (place functor table.numBuckets key steps)) = true ∧
        ∀ earlier < steps, endsFind functor key
          (table.slot (place functor table.numBuckets key earlier)) = false := by
  rcases findable with ⟨idx, inside, unused⟩ | ⟨datum, member, equal⟩
  · apply valid.probe_some key inside
    cases here : table.slot idx with
    | unused => rfl
    | used datum =>
        rw [here] at unused
        cases unused
    | deleted =>
        rw [here] at unused
        cases unused
  · obtain ⟨idx, used⟩ := mem_live_iff.mp member
    have inside := lt_of_slot_used used
    rw [valid.length] at inside
    apply valid.probe_some key inside
    rw [used]
    exact beq_iff_eq.mpr equal

theorem not_live_of_unused
    {key : α} {steps : Nat}
    (unused : table.slot (place functor table.numBuckets key steps) = .unused)
    (passed : ∀ earlier < steps, endsFind functor key
      (table.slot (place functor table.numBuckets key earlier)) = false) :
    ¬ ∃ datum ∈ table.live, functor.orderCmp datum key = 0 := by
  rintro ⟨datum, member, equal⟩
  obtain ⟨idx, used⟩ := mem_live_iff.mp member
  obtain ⟨others, there, before⟩ := valid.reached idx datum used
  -- The two ways are the same, because the hashes are.
  have ways (count : Nat) : place functor table.numBuckets datum count =
      place functor table.numBuckets key count := by
    unfold place
    rw [functor.consistent datum key equal]
  rw [ways] at there
  rw [there] at used
  rcases Nat.lt_trichotomy others steps with less | same | more
  · have gone := passed others less
    rw [used] at gone
    exact absurd (beq_iff_eq.mpr equal) (by simpa [endsFind] using gone)
  · rw [same, unused] at used
    cases used
  · have occupied := before steps more
    rw [ways, unused] at occupied
    cases occupied

theorem find_does
    {key : α}
    (findable : Findable functor table key) :
    ∃ idx, table.find functor key = some idx ∧
      Does functor table (.find key) (.found idx) table := by
  obtain ⟨steps, ended, stops, passed⟩ := find_ends valid findable
  have inside := valid.place_lt key steps
  unfold HashTbl.find
  rw [ended, Option.map_some]
  cases here : table.slot (place functor table.numBuckets key steps) with
  | unused =>
      have absent := not_live_of_unused valid here passed
      rw [if_pos (show (Slot.unused (α := α)).isUnused = true from rfl)]
      exact ⟨_, rfl, rfl, iff_of_false absent (Nat.lt_irrefl _),
        fun less => absurd less (Nat.lt_irrefl _)⟩
  | used datum =>
      rw [here] at stops
      have equal : functor.orderCmp datum key = 0 := beq_iff_eq.mp stops
      rw [if_neg (show ¬ (Slot.used datum).isUnused = true from nofun)]
      exact ⟨_, rfl, rfl,
        iff_of_true ⟨datum, mem_live_iff.mpr ⟨_, here⟩, equal⟩ inside,
        fun _ => ⟨datum, here, equal⟩⟩
  | deleted =>
      rw [here] at stops
      cases stops

theorem find_none
    {key : α}
    (endless : ¬ Findable functor table key) :
    table.find functor key = none := by
  have never : ∀ idx < table.numBuckets,
      endsFind functor key (table.slot idx) = false := by
    intro idx inside
    cases here : table.slot idx with
    | unused =>
        exact absurd (Or.inl ⟨idx, inside, by rw [here]; rfl⟩) endless
    | deleted => rfl
    | used datum =>
        by_contra equal
        apply endless
        refine Or.inr ⟨datum, mem_live_iff.mpr ⟨idx, here⟩, ?_⟩
        simpa [endsFind] using equal
  obtain ⟨none', -⟩ := valid.probe_none key never
  rw [HashTbl.find, none']
  rfl

theorem find_returned
    {key : α} {idx : Nat}
    (found : table.find functor key = some idx) :
    ((∃ datum ∈ table.live, functor.orderCmp datum key = 0) ↔
        idx < table.numBuckets) ∧
      (idx < table.numBuckets → ∃ datum, table.slot idx = .used datum ∧
        functor.orderCmp datum key = 0) := by
  by_cases findable : Findable functor table key
  · obtain ⟨other, same, -, does⟩ := find_does valid findable
    rw [found] at same
    cases same
    exact does
  · rw [find_none valid findable] at found
    cases found

end Search

section Iteration

variable {machine : Machine} {functor : HashFunctor α} {table : HashTbl α}

theorem iterate_succ (start steps : Nat) :
    (· + 1)^[steps] start = start + steps := by
  induction steps with
  | zero => rfl
  | succ steps ih =>
      rw [Function.iterate_succ_apply', ih]
      rfl

theorem iterIncr_spec (table : HashTbl α) {idx : Nat}
    (inside : idx < table.numBuckets) :
    ∃ next, table.iterIncr idx = some next ∧ idx < next ∧
      next ≤ table.numBuckets ∧
      (next < table.numBuckets → (table.slot next).isUsed = true) ∧
      ∀ between, idx < between → between < next →
        (table.slot between).isUsed = false := by
  obtain ⟨first, within, ended, stops, passed⟩ := @runLoop_searchTurn Nat
    (fun idx => decide (table.numBuckets ≤ idx) || (table.slot idx).isUsed)
    (· + 1) (table.numBuckets - (idx + 1)) (table.numBuckets + 1) (idx + 1)
    (by
      rw [iterate_succ]
      simp only [Bool.or_eq_true, decide_eq_true_eq]
      left
      omega)
    (by omega)
  rw [iterate_succ] at ended stops
  refine ⟨_, ended, by omega, by omega, ?_, ?_⟩
  · intro less
    simp only [Bool.or_eq_true, decide_eq_true_eq] at stops
    rcases stops with beyond | used
    · omega
    · exact used
  · intro between above below
    have gone := passed (between - (idx + 1)) (by omega)
    rw [iterate_succ, Nat.add_sub_cancel' above] at gone
    simp only [Bool.or_eq_false_iff] at gone
    exact gone.2

theorem live_take_succ (table : HashTbl α) {idx : Nat}
    (inside : idx < table.bucket.length) :
    (table.bucket.take (idx + 1)).filterMap Slot.datum =
      (table.bucket.take idx).filterMap Slot.datum ++
        (table.slot idx).datum.toList := by
  rw [List.take_add_one, List.filterMap_append, List.getElem?_eq_getElem inside,
    slot_eq_getElem inside]
  cases table.bucket[idx] with
  | unused => rfl
  | used datum => rfl
  | deleted => rfl

theorem live_take_skip (table : HashTbl α) {first last : Nat}
    (order : first ≤ last) (inside : last ≤ table.bucket.length)
    (free : ∀ between, first ≤ between → between < last →
      (table.slot between).isUsed = false) :
    (table.bucket.take last).filterMap Slot.datum =
      (table.bucket.take first).filterMap Slot.datum := by
  induction last, order using Nat.le_induction with
  | base => rfl
  | succ last above ih =>
      have none' : (table.slot last).datum = none := by
        have notUsed := free last above (Nat.lt_succ_self last)
        rw [Slot.isUsed] at notUsed
        simpa using notUsed
      rw [live_take_succ table (by omega), none']
      simp only [Option.toList_none, List.append_nil]
      exact ih (by omega) fun between from' below => free between from' (by omega)

theorem live_take_next (table : HashTbl α) {idx next : Nat}
    (order : idx < next) (inside : next ≤ table.bucket.length)
    (free : ∀ between, idx < between → between < next →
      (table.slot between).isUsed = false) :
    (table.bucket.take next).filterMap Slot.datum =
      (table.bucket.take idx).filterMap Slot.datum ++
        (table.slot idx).datum.toList := by
  rw [live_take_skip table order inside free, live_take_succ table (by omega)]

structure Walked
    (machine : Machine) (functor : HashFunctor α) (choose : Option α → Visit)
    (table : HashTbl α) (walk : Walk α) : Prop where
  valid : Valid machine functor walk.table
  buckets : walk.table.numBuckets = table.numBuckets
  within : walk.idx ≤ table.numBuckets
  here : walk.idx < table.numBuckets → (table.slot walk.idx).isUsed = true
  visited : walk.visited =
    ((table.bucket.take walk.idx).filterMap Slot.datum).map some
  ahead : ∀ other, walk.idx ≤ other → walk.table.slot other = table.slot other
  behind : (walk.table.bucket.take walk.idx).filterMap Slot.datum =
    ((table.bucket.take walk.idx).filterMap Slot.datum).filter fun datum =>
      choose (some datum) == .incr

theorem visit_spec
    {choose : Option α → Visit} {walk : Walk α} {datum : α}
    (valid : Valid machine functor walk.table)
    (used : walk.table.slot walk.idx = .used datum) :
    ∃ next,
      (if choose (some datum) = .incr then walk.table
        else walk.table.remove walk.idx) = next ∧
      Valid machine functor next ∧
      next.numBuckets = walk.table.numBuckets ∧
      (∀ other, walk.idx < other → next.slot other = walk.table.slot other) ∧
      next.bucket.take walk.idx = walk.table.bucket.take walk.idx ∧
      (next.slot walk.idx).datum.toList =
        [datum].filter fun datum => choose (some datum) == .incr := by
  refine ⟨_, rfl, ?_⟩
  by_cases keep : choose (some datum) = .incr
  · rw [if_pos keep, used]
    refine ⟨valid, rfl, fun _ _ => rfl, rfl, ?_⟩
    simp [Slot.datum, keep]
  · have inside := lt_of_slot_used used
    rw [if_neg keep]
    refine ⟨valid.remove (valid.length ▸ inside), rfl, ?_, ?_, ?_⟩
    · intro other above
      rw [slot_remove inside, if_neg (by omega)]
    · show (walk.table.bucket.set walk.idx .deleted).take walk.idx = _
      rw [List.take_set_of_le (Nat.le_refl _)]
    · rw [slot_remove inside, if_pos rfl]
      simp [Slot.datum, keep]

theorem walkTurn_again
    {choose : Option α → Visit} {walk : Walk α}
    (length : table.bucket.length = table.numBuckets)
    (walked : Walked machine functor choose table walk)
    (inside : walk.idx < table.numBuckets) :
    ∃ next, walkTurn choose walk = .again next ∧ walk.idx < next.idx ∧
      Walked machine functor choose table next := by
  have buckets := walked.buckets
  have here : ∃ datum, table.slot walk.idx = .used datum := by
    have used := walked.here inside
    cases slot : table.slot walk.idx with
    | used datum => exact ⟨datum, rfl⟩
    | unused =>
        rw [slot] at used
        cases used
    | deleted =>
        rw [slot] at used
        cases used
  obtain ⟨datum, used⟩ := here
  have same := walked.ahead walk.idx (Nat.le_refl _)
  obtain ⟨after, eq, afterValid, afterBuckets, later, before, own⟩ :=
    @visit_spec _ machine functor choose walk datum walked.valid
      (same.trans used)
  obtain ⟨idx, incr, above, most, stops, free⟩ :=
    iterIncr_spec after (show walk.idx < after.numBuckets by omega)
  refine ⟨{ table := after, idx := idx, visited := walk.visited ++ [some datum] },
    ?_, above, ?_⟩
  · unfold walkTurn
    rw [if_neg (by omega), same, used]
    dsimp only [Slot.datum]
    rw [eq, incr]
  · have afterLength := afterValid.length
    -- Between the two buckets there is nothing in either of the tables.
    have gap : ∀ between, walk.idx < between → between < idx →
        (table.slot between).isUsed = false := by
      intro between from' below
      rw [← walked.ahead between (by omega), ← later between from']
      exact free between from' below
    have original := live_take_next table above (by omega) gap
    have changed := live_take_next after above (by omega) free
    rw [used] at original
    constructor
    · exact afterValid
    · exact afterBuckets.trans buckets
    · show idx ≤ table.numBuckets
      omega
    · intro less
      rw [← walked.ahead idx (by omega), ← later idx above]
      exact stops (by dsimp only at less; omega)
    · show walk.visited ++ [some datum] = _
      rw [original, walked.visited, List.map_append]
      rfl
    · intro other from'
      dsimp only at from' ⊢
      rw [later other (by omega), walked.ahead other (by omega)]
    · dsimp only
      rw [changed, original, before, own, walked.behind, List.filter_append]
      rfl

theorem iterCtor_spec (table : HashTbl α) (some' : 0 < table.numBuckets) :
    ∃ idx, table.iterCtor = some idx ∧ idx ≤ table.numBuckets ∧
      (idx < table.numBuckets → (table.slot idx).isUsed = true) ∧
      ∀ between < idx, (table.slot between).isUsed = false := by
  unfold HashTbl.iterCtor
  by_cases first : (table.slot 0).isUsed = true
  · rw [if_pos first]
    exact ⟨0, rfl, Nat.zero_le _, fun _ => first, fun _ => nofun⟩
  · rw [if_neg first]
    obtain ⟨idx, incr, -, most, stops, free⟩ := iterIncr_spec table some'
    refine ⟨idx, incr, most, stops, ?_⟩
    intro between below
    cases between with
    | zero => simpa using first
    | succ between => exact free (between + 1) (Nat.succ_pos _) below

/-- An iteration comes to every live entry once, in the order of the buckets,
and leaves those that were not erased or extracted. -/
theorem iterate_does
    (valid : Valid machine functor table) (choose : Option α → Visit) :
    ∃ next, table.iterate choose = some (table.live.map some, next) ∧
      Valid machine functor next ∧
      next.live = table.live.filter fun datum =>
        choose (some datum) == .incr := by
  have length := valid.length
  have positive := valid.positive
  obtain ⟨idx, constructed, most, stops, free⟩ :=
    iterCtor_spec table (by omega)
  have nothing : (table.bucket.take idx).filterMap Slot.datum = [] :=
    live_take_skip table (Nat.zero_le idx) (by omega)
      fun between _ below => free between below
  obtain ⟨result, finished, next, rfl, nextValid, live⟩ :=
    @runLoop_total _ _ (walkTurn choose)
      (Walked machine functor choose table)
      (fun result => ∃ next, result = some (table.live.map some, next) ∧
        Valid machine functor next ∧
        next.live = table.live.filter fun datum => choose (some datum) == .incr)
      (fun walk => table.numBuckets - walk.idx)
      (by
        intro walk next walked action
        have inside : walk.idx < table.numBuckets := by
          by_contra ended
          rw [walkTurn, if_pos (by rw [walked.buckets]; omega)] at action
          cases action
        obtain ⟨other, again, above, later⟩ :=
          walkTurn_again length walked inside
        rw [again] at action
        cases action
        exact ⟨later, by omega⟩)
      (by
        intro walk result walked action
        by_cases ended : table.numBuckets ≤ walk.idx
        · rw [walkTurn, if_pos (by rw [walked.buckets]; omega)] at action
          cases action
          have visited := walked.visited
          have behind := walked.behind
          have within := walked.within
          have walkLength := walked.valid.length
          have buckets := walked.buckets
          rw [List.take_of_length_le (by omega)] at visited
          rw [List.take_of_length_le (by omega),
            List.take_of_length_le (by omega)] at behind
          rw [visited]
          exact ⟨_, rfl, walked.valid, behind⟩
        · obtain ⟨other, again, -⟩ := walkTurn_again length walked (by omega)
          rw [again] at action
          cases action)
      { table := table, idx := idx, visited := [] }
      (by
        refine ⟨valid, rfl, most, stops, ?_, fun _ _ => rfl, ?_⟩
        · dsimp only
          rw [nothing]
          rfl
        · dsimp only
          rw [nothing]
          rfl)
      (table.numBuckets + 1) (by dsimp only; omega)
  refine ⟨next, ?_, nextValid, live⟩
  rw [HashTbl.iterate, constructed, Option.bind_some, finished]
  rfl

end Iteration

end NativeClient.Container
