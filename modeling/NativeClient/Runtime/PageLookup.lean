import NativeClient.Library.BinarySearch
import NativeClient.Runtime.MapSpace

/-!
# The entry of a page

The lookup sorts the map when it has to, and searches the entries for one that
contains the page.  The entries that are not empty stand in a row, so the
search finds the only one there is; with page numbers that the comparison of
the sort gets wrong it can miss it.
-/

namespace NativeClient.Runtime

open NativeClient.Library

/-- `entryIx` is an index of the array of the map. -/
structure VmmapIter where
  vmmap : Vmmap
  entryIx : Nat
  deriving DecidableEq

def naClVmmapIterAtEnd (nvip : VmmapIter) : Bool :=
  decide (nvalid nvip.vmmap ≤ nvip.entryIx)

def naClVmmapIterStar (nvip : VmmapIter) : Option VmmapEntry :=
  deref nvip.vmmap.vmentry nvip.entryIx

section Calls

variable (size : WordSize)

def naClVmmapContainCmpEntries (key : Nat) (ent : VmmapEntry) : Int :=
  if key < ent.pageNum then -1
  else if key < size.wrap (ent.pageNum + ent.npages) then 0
  else 1

def containCmp (pnum : Nat) (items : List VmmapEntry) (index : Nat) : Int :=
  (items[index]?).elim 1 (naClVmmapContainCmpEntries size pnum)

variable (qsort : QSort VmmapEntry)

def naClVmmapFindPage (self : Vmmap) (pnum : Nat) :
    Option (Option VmmapEntry × Vmmap) := do
  let self ← naClVmmapMakeSorted size qsort self
  let items ← self.vmentry.mapM id
  match bsearch (containCmp size pnum items) 0 (nvalid self) with
  | none => some (none, self)
  | some index => some (items[index]?, self)

def naClVmmapFindPageIter (self : Vmmap) (pnum : Nat) : Option VmmapIter := do
  let self ← naClVmmapMakeSorted size qsort self
  let items ← self.vmentry.mapM id
  match bsearch (containCmp size pnum items) 0 (nvalid self) with
  | none => some ⟨self, nvalid self⟩
  | some index => some ⟨self, index⟩

end Calls

def ExactEntry (map : Vmmap) (pnum : Nat) (found : Option VmmapEntry) : Prop :=
  ∀ entry, found = some entry ↔
    entry ∈ entries map ∧ entry.removed = false ∧ entry.Covers pnum

def iterEntry (iter : VmmapIter) : Option VmmapEntry :=
  if naClVmmapIterAtEnd iter then none else naClVmmapIterStar iter

def LooksUp (size : WordSize) (qsort : QSort VmmapEntry) (self : Vmmap)
    (pnum : Nat) : Prop :=
  (∃ found next, naClVmmapFindPage size qsort self pnum = some (found, next) ∧
      ExactEntry self pnum found) ∧
    ∃ iter, naClVmmapFindPageIter size qsort self pnum = some iter ∧
      ExactEntry self pnum (iterEntry iter)

section Search

variable {size : WordSize} {items : List VmmapEntry} {pnum index : Nat}

theorem naClVmmapContainCmpEntries_eq_zero
    {ent : VmmapEntry} (space : InSpace size ent.pageNum ent.npages) :
    naClVmmapContainCmpEntries size pnum ent = 0 ↔ ent.Covers pnum := by
  rw [naClVmmapContainCmpEntries, space.wrap_end, VmmapEntry.Covers]
  split
  · next below => exact iff_of_false (by decide) (by omega)
  next above =>
  split
  · next inside => exact iff_of_true rfl (by omega)
  · next behind => exact iff_of_false (by decide) (by omega)

theorem containCmp_of_entry
    {ent : VmmapEntry} (here : items[index]? = some ent) :
    containCmp size pnum items index =
      naClVmmapContainCmpEntries size pnum ent := by
  rw [containCmp, here]
  rfl

theorem containCmp_falls
    (inSpace : ∀ entry ∈ items, InSpace size entry.pageNum entry.npages)
    (row : InRow items) :
    Falls (containCmp size pnum items) items.length := by
  intro first second less inside notBehind
  have firstInside : first < items.length := Nat.lt_trans less inside
  have here := List.getElem?_eq_getElem firstInside
  have there := List.getElem?_eq_getElem inside
  have ordered := List.pairwise_iff_getElem.mp row first second firstInside
    inside less
  have space := inSpace items[first] (List.getElem_mem firstInside)
  rw [containCmp_of_entry here, naClVmmapContainCmpEntries,
    space.wrap_end] at notBehind
  rw [containCmp_of_entry there, naClVmmapContainCmpEntries]
  have below : pnum < items[first].pageNum + items[first].npages := by
    split at notBehind
    · omega
    · split at notBehind
      · assumption
      · exact absurd notBehind (by decide)
  rw [if_pos (Nat.lt_of_lt_of_le below ordered)]
  decide

theorem bsearch_exact
    (inSpace : ∀ entry ∈ items, InSpace size entry.pageNum entry.npages)
    (row : InRow items) {entry : VmmapEntry} :
    ((bsearch (containCmp size pnum items) 0 items.length).bind
        fun index => items[index]?) = some entry ↔
      entry ∈ items ∧ entry.Covers pnum := by
  have falls := @containCmp_falls size items pnum inSpace row
  have zero {index : Nat} (inside : index < items.length) :
      containCmp size pnum items index = 0 ↔ items[index].Covers pnum := by
    rw [containCmp_of_entry (List.getElem?_eq_getElem inside)]
    exact naClVmmapContainCmpEntries_eq_zero
      (inSpace _ (List.getElem_mem inside))
  cases result : bsearch (containCmp size pnum items) 0 items.length with
  | none =>
      refine iff_of_false nofun ?_
      rintro ⟨member, covers⟩
      obtain ⟨index, inside, rfl⟩ := List.mem_iff_getElem.mp member
      exact bsearch_none falls (Nat.le_refl _) result index (Nat.zero_le _)
        inside ((zero inside).mpr covers)
  | some found =>
      obtain ⟨-, inside, hit⟩ := bsearch_some result
      rw [Option.bind_some, List.getElem?_eq_getElem inside]
      constructor
      · intro same
        cases same
        exact ⟨List.getElem_mem inside, (zero inside).mp hit⟩
      · rintro ⟨member, covers⟩
        obtain ⟨index, bound, rfl⟩ := List.mem_iff_getElem.mp member
        have alsoHit := (zero bound).mpr covers
        -- Two hits would make the comparison fall from zero to zero.
        rcases Nat.lt_trichotomy found index with before | rfl | behind
        · have negative := falls found index before bound (by omega)
          omega
        · rfl
        · have negative := falls index found behind inside (by omega)
          omega

end Search

section Lookup

variable {size : WordSize} {qsort : QSort VmmapEntry} {self : Vmmap}

structure LookupMap (size : WordSize) (map : Vmmap) : Prop where
  app : AppMap size (2 ^ (size.bits - naclPageshift)) map
  nonnull : none ∉ map.vmentry

theorem LookupMap.looksUp
    (map : LookupMap size self) (comparable : Comparable self) (pnum : Nat) :
    LooksUp size qsort self pnum := by
  obtain ⟨next, sortRun⟩ :=
    @naClVmmapMakeSorted_returns size qsort self map.app.invariant map.nonnull
  obtain ⟨sortedMap, sorted⟩ := naClVmmapMakeSorted_placed map.app sortRun
  have searchable := sortedMap.searchable_of_comparable
    (comparable.of_perm sorted.perm) (Nat.le_refl _) sorted.flag
  have read := mapM_id_of_nonnull (sortedMap.invariant.nonnull sorted.flag)
  have count : nvalid next = (entries next).length := by
    rw [nvalid, searchable.slots, List.length_map]
  have exact' (entry : VmmapEntry) :
      ((bsearch (containCmp size pnum (entries next)) 0 (nvalid next)).bind
          fun index => (entries next)[index]?) = some entry ↔
        entry ∈ entries self ∧ entry.removed = false ∧ entry.Covers pnum := by
    rw [count, bsearch_exact sortedMap.invariant.inSpace searchable.row,
      sorted.perm.mem_iff]
    constructor
    · rintro ⟨member, covers⟩
      exact ⟨member, map.app.invariant.live entry member, covers⟩
    · rintro ⟨member, -, covers⟩
      exact ⟨member, covers⟩
  rw [LooksUp, naClVmmapFindPage, naClVmmapFindPageIter, sortRun]
  simp only [Option.bind_eq_bind, Option.bind_some, read]
  cases result : bsearch (containCmp size pnum (entries next)) 0
      (nvalid next) with
  | none =>
      rw [result] at exact'
      refine ⟨⟨none, next, rfl, exact'⟩, ⟨next, nvalid next⟩, rfl, ?_⟩
      have atEnd : naClVmmapIterAtEnd ⟨next, nvalid next⟩ = true :=
        decide_eq_true (Nat.le_refl _)
      rw [iterEntry, if_pos atEnd]
      exact exact'
  | some index =>
      rw [result] at exact'
      refine ⟨⟨_, next, rfl, exact'⟩, ⟨next, index⟩, rfl, ?_⟩
      obtain ⟨-, inside, -⟩ := bsearch_some result
      have notAtEnd : ¬ naClVmmapIterAtEnd ⟨next, index⟩ = true := by
        intro atEnd
        exact Nat.not_le.mpr inside (of_decide_eq_true atEnd)
      rw [iterEntry, if_neg notAtEnd, naClVmmapIterStar, searchable.slots]
      have slot : deref ((entries next).map some) index =
          (entries next)[index]? := by
        rw [deref, List.getElem?_map]
        cases (entries next)[index]? <;> rfl
      rw [slot]
      exact exact'

def EntryCall (size : WordSize) (self : Vmmap) (call : VmmapCall) : Prop :=
  ProperCall size self call ∧
    match call with
    | .add allocations _ npages _ _ => 0 < npages ∧ allocations.entry = true
    | _ => True

def LookupCall (size : WordSize) (self : Vmmap) (call : VmmapCall) : Prop :=
  EntryCall size self call ∧ ComparesRight self call

theorem LookupMap.add
    (map : LookupMap size self) (allocations : AddAllocations)
    {pageNum npages : Nat} {prot : Int} {nmop : Option MemObj}
    (permitted : EntryCall size self
      (.add allocations pageNum npages prot nmop)) :
    LookupMap size
      (naClVmmapAdd allocations self pageNum npages prot nmop).1 := by
  obtain ⟨proper, positive, allocated⟩ := permitted
  refine ⟨⟨(naClVmmapAdd_spec allocations map.app.invariant proper).1,
    map.app.placed.add allocations prot nmop positive proper.1⟩, ?_⟩
  rcases naClVmmapAdd_cases allocations self pageNum npages prot nmop with
    ⟨failed, -⟩ | ⟨grown, added⟩
  · rw [failed]
    exact map.nonnull
  · rw [added]
    intro null
    rcases List.mem_append.mp null with old | fresh
    · exact map.nonnull old
    · rw [naClVmmapEntryMake, if_pos allocated] at fresh
      cases List.mem_singleton.mp fresh

theorem naClVmmapUpdate_nonnull
    {allocations : UpdateAllocations} {pageNum npages : Nat} {prot : Int}
    {nmop : Option MemObj} {remove : Bool} {next : Vmmap}
    (run : naClVmmapUpdate size qsort allocations self pageNum npages prot nmop
      remove = some next) : none ∉ next.vmentry := by
  rw [naClVmmapUpdate, Option.bind_eq_bind, Option.bind_eq_some_iff] at run
  obtain ⟨sorted, -, run⟩ := run
  split at run
  · cases run
  obtain ⟨mid, -, run⟩ := Option.bind_eq_some_iff.mp run
  split at run
  · exact (naClVmmapRemoveMarked_kept run).2.1
  · dsimp only at run
    split at run
    · exact (naClVmmapRemoveMarked_kept run).2.1
    · cases run

theorem LookupMap.call
    (map : LookupMap size self) {call : VmmapCall} {next : Vmmap}
    (permitted : LookupCall size self call)
    (run : performVmmap size qsort self call = some next) :
    LookupMap size next := by
  obtain ⟨invariant, -⟩ :=
    performVmmap_spec map.app.invariant permitted.1.1 permitted.2 run
  cases call with
  | add allocations pageNum npages prot nmop =>
      cases run
      exact map.add allocations permitted.1
  | update allocations pageNum npages prot nmop remove =>
      exact ⟨⟨invariant, map.app.updated permitted.2 (Nat.le_refl _)
        permitted.1.1 run⟩, naClVmmapUpdate_nonnull run⟩
  | makeSorted =>
      obtain ⟨sortedMap, sorted⟩ := naClVmmapMakeSorted_placed map.app run
      exact ⟨sortedMap, sortedMap.invariant.nonnull sorted.flag⟩

theorem VmmapReached.lookupMap
    (reached : VmmapReached size qsort (LookupCall size) self) :
    LookupMap size self := by
  induction reached with
  | ctor allocated run =>
      cases allocated with
      | false => cases run
      | true =>
          refine ⟨⟨naClVmmapCtor_invariant run, ?_⟩, ?_⟩ <;> cases run
          · intro entry member
            cases member
          · exact List.not_mem_nil
  | call call _ permitted run ih => exact ih.call permitted run

/-- In every run whose calls meet the condition, the lookups are exact as long
as the entries can be compared. -/
theorem pageLookup_exact
    (reached : VmmapReached size qsort (LookupCall size) self)
    (comparable : Comparable self) (pnum : Nat) :
    LooksUp size qsort self pnum :=
  reached.lookupMap.looksUp comparable pnum

end Lookup

/-! ## Entries that are far apart -/

private def lookupWords : WordSize := ⟨64, bits64⟩

private def enough : AddAllocations := ⟨true, true⟩

private def distantEntry : VmmapEntry := ⟨0x80000001, 10, 1, none, false⟩

private def distantMap : Vmmap :=
  ⟨[some distantEntry, some ⟨0, 2, 1, none, false⟩], 5, false⟩

/-- The higher of two entries is added first. -/
private theorem twoEntries_reached
    {permitted : Vmmap → VmmapCall → Prop} {high npages : Nat}
    (above : 2 ≤ high) (space : InSpace lookupWords high npages)
    (some' : 0 < npages)
    (allowed : ∀ self pageNum npages,
      EntryCall lookupWords self (.add enough pageNum npages 1 none) →
        permitted self (.add enough pageNum npages 1 none)) :
    VmmapReached lookupWords (insertionQSort VmmapEntry) permitted
      ⟨[some ⟨high, npages, 1, none, false⟩, some ⟨0, 2, 1, none, false⟩], 5,
        false⟩ := by
  have first : EntryCall lookupWords ⟨[], startEntries, true⟩
      (.add enough high npages 1 none) :=
    ⟨⟨space, nofun⟩, some', rfl⟩
  refine VmmapReached.call (.add enough 0 2 1 none)
    (VmmapReached.call (.add enough high npages 1 none)
      (VmmapReached.ctor true rfl) (allowed _ _ _ first) rfl)
    (allowed _ _ _ ⟨⟨by decide, ?_⟩, by decide, rfl⟩) rfl
  intro entry member page inside covered
  have isHigh : entry = ⟨high, npages, 1, none, false⟩ :=
    List.mem_singleton.mp member
  subst isHigh
  have low : page < 2 := inside.2
  have start : high ≤ page := covered.1
  omega

/-- Pages 256 to 271 and pages 0 and 1, added in this order; page 259 is
looked up. -/
theorem pageLookup_exact_two :
    LooksUp lookupWords (insertionQSort VmmapEntry)
      ⟨[some ⟨256, 16, 1, none, false⟩, some ⟨0, 2, 1, none, false⟩], 5, false⟩
      259 := by
  refine pageLookup_exact (twoEntries_reached (by decide) (by decide)
    (by decide) fun _ _ _ entry => ⟨entry, trivial⟩) ?_ 259
  unfold Comparable
  decide

private theorem distantMap_missed :
    naClVmmapFindPage lookupWords (insertionQSort VmmapEntry) distantMap
      0x80000003 = some (none, { distantMap with isSorted := true }) := by
  decide +kernel

theorem not_looksUp_distant :
    ¬ ∀ self, VmmapReached ⟨64, bits64⟩ (insertionQSort VmmapEntry)
      (EntryCall ⟨64, bits64⟩) self → ∀ pnum < 2 ^ 64,
        LooksUp ⟨64, bits64⟩ (insertionQSort VmmapEntry) self pnum := by
  intro looksUp
  obtain ⟨⟨found, next, run, exact'⟩, -⟩ :=
    looksUp distantMap (twoEntries_reached (by decide) (by decide) (by decide)
      fun _ _ _ entry => entry) 0x80000003 (by decide)
  have missed := run.symm.trans distantMap_missed
  cases missed
  have there := (exact' distantEntry).mpr
    ⟨List.mem_cons_self, rfl, by decide⟩
  cases there

end NativeClient.Runtime
