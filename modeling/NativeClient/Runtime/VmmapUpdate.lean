import NativeClient.Runtime.PageMap

/-!
# Updates of the memory map

An update changes the function from pages to mappings on the range it is given
and nowhere else, in every run of the calls, as long as the page numbers of the
entries are close enough for the comparison of the sort.  With page numbers
that are not, the loop can end before it has seen all of the range.
-/

namespace NativeClient.Runtime

open NativeClient.Library

/-- The comparison of the sort is right for the entries: their page numbers
are less than `2 ^ 31` apart. -/
def Comparable (self : Vmmap) : Prop :=
  ∀ left ∈ entries self, ∀ right ∈ entries self,
    left.pageNum < right.pageNum + 2 ^ 31

structure MapInvariant (size : WordSize) (map : Vmmap) : Prop where
  live : ∀ entry ∈ entries map, entry.removed = false
  apart : (entries map).Pairwise (Apart VmmapEntry.page)
  inSpace : ∀ entry ∈ entries map, InSpace size entry.pageNum entry.npages
  nonnull : map.isSorted = true → none ∉ map.vmentry
  sorted : map.isSorted = true → Comparable map →
    (entries map).Pairwise (fun left right => left.pageNum ≤ right.pageNum)

theorem entries_of_map
    {self : Vmmap} {items : List VmmapEntry}
    (slots : self.vmentry = items.map some) : entries self = items := by
  rw [entries, slots, List.filterMap_map]
  exact List.filterMap_some

theorem vmentry_of_nonnull
    {self : Vmmap} (nonnull : none ∉ self.vmentry) :
    self.vmentry = (entries self).map some := by
  rw [entries]
  generalize self.vmentry = slots at nonnull
  induction slots with
  | nil => rfl
  | cons slot slots ih =>
      rw [List.mem_cons, not_or] at nonnull
      cases slot with
      | none => exact absurd rfl nonnull.1
      | some entry =>
          rw [List.filterMap_cons_some (by rfl), List.map_cons, ← ih nonnull.2]

theorem null_not_mem_map (items : List VmmapEntry) :
    none ∉ items.map some := by
  simp

structure Cleaned (map next : Vmmap) : Prop where
  after : none ∉ next.vmentry
  perm : (entries next).Perm ((entries map).filter (fun entry => !entry.removed))
  apart : (entries next).Pairwise (Apart VmmapEntry.page)
  pages : ∀ page, pageMap next page = pageMap map page
  unsorted : next.isSorted = true → entries next = []

namespace Cleaned

variable {map next : Vmmap}

theorem mem_iff (cleaned : Cleaned map next) {entry : VmmapEntry} :
    entry ∈ entries next ↔ entry ∈ entries map ∧ entry.removed = false := by
  rw [cleaned.perm.mem_iff, List.mem_filter, Bool.not_eq_true']

theorem perm_of_live
    (cleaned : Cleaned map next)
    (live : ∀ entry ∈ entries map, entry.removed = false) :
    (entries next).Perm (entries map) := by
  have kept := cleaned.perm
  rw [List.filter_eq_self.mpr] at kept
  · exact kept
  · intro entry member
    rw [live entry member]
    rfl

theorem invariant
    {size : WordSize} (cleaned : Cleaned map next)
    (inSpace : ∀ entry ∈ entries map,
      InSpace size entry.pageNum entry.npages) : MapInvariant size next where
  live entry member := (cleaned.mem_iff.mp member).2
  apart := cleaned.apart
  inSpace entry member := inSpace entry (cleaned.mem_iff.mp member).1
  nonnull _ := cleaned.after
  sorted flag _ := by
    rw [cleaned.unsorted flag]
    exact List.Pairwise.nil

end Cleaned

variable {self mid : Vmmap} {lower upper pageNum npages : Nat}
  {allocations : UpdateAllocations} {prot : Int} {nmop : Option MemObj}
  {remove : Bool}

theorem naClVmmapRemoveMarked_kept
    {next : Vmmap} (run : naClVmmapRemoveMarked self = some next) :
    none ∉ self.vmentry ∧ none ∉ next.vmentry ∧
      (entries next).Perm
        ((entries self).filter (fun entry => !entry.removed)) ∧
      (next.isSorted = true → entries next = []) := by
  rw [naClVmmapRemoveMarked] at run
  by_cases none_valid : nvalid self = 0
  · rw [if_pos none_valid] at run
    cases run
    have empty : self.vmentry = [] := List.eq_nil_of_length_eq_zero none_valid
    have noEntries : entries self = [] := by
      rw [entries, empty]
      rfl
    simp [empty, noEntries]
  · rw [if_neg none_valid] at run
    have nonempty : self.vmentry ≠ [] := by
      intro empty
      exact none_valid (by rw [nvalid, empty, List.length_nil])
    rcases compact_cases VmmapEntry.removed nonempty with
      ⟨stopped, _⟩ | ⟨kept, _, keeps, done⟩
    · rw [stopped] at run
      cases run
    · rw [done] at run
      cases run
      obtain ⟨items, slots, perm⟩ := keeps.items
      refine ⟨slots ▸ null_not_mem_map items, null_not_mem_map kept, ?_, nofun⟩
      rw [entries_of_map rfl, entries_of_map slots]
      exact perm

theorem naClVmmapRemoveMarked_cleaned
    {next : Vmmap} (apart : (entries self).Pairwise (Apart VmmapEntry.page))
    (run : naClVmmapRemoveMarked self = some next) : Cleaned self next := by
  obtain ⟨-, after, perm, unsorted⟩ := naClVmmapRemoveMarked_kept run
  have keptApart := perm.symm.pairwise (apart.filter _) Apart.symm
  refine ⟨after, perm, keptApart, ?_, unsorted⟩
  intro page
  rw [pageMap, pageMap, union_perm keptApart perm]
  apply union_filter
  intro entry _ isRemoved
  exact VmmapEntry.page_of_removed (by simpa using isRemoved)

theorem naClVmmapRemoveMarked_returns
    (nonnull : none ∉ self.vmentry)
    (survives : entries self = [] ∨
      ∃ entry ∈ entries self, entry.removed = false) :
    ∃ next, naClVmmapRemoveMarked self = some next := by
  have slots := vmentry_of_nonnull nonnull
  rw [naClVmmapRemoveMarked]
  by_cases none_valid : nvalid self = 0
  · rw [if_pos none_valid]
    exact ⟨self, rfl⟩
  · rw [if_neg none_valid]
    have nonempty : self.vmentry ≠ [] := by
      intro empty
      exact none_valid (by rw [nvalid, empty, List.length_nil])
    rcases compact_cases VmmapEntry.removed nonempty with
      ⟨_, null | all⟩ | ⟨kept, _, _, done⟩
    · exact absurd null nonnull
    · rcases survives with empty | ⟨entry, member, live⟩
      · rw [empty] at slots
        exact absurd slots nonempty
      · have removed := all entry (by
          rw [slots]
          exact List.mem_map_of_mem member)
        rw [live] at removed
        cases removed
    · rw [done]
      exact ⟨_, rfl⟩

variable {size : WordSize} {qsort : QSort VmmapEntry} {self next : Vmmap}

private theorem bmod_difference
    {bits left right : Nat} (word : bits = 32 ∨ bits = 64)
    (leftSmall : left < 2 ^ bits) (rightSmall : right < 2 ^ bits)
    (close : left < right + 2 ^ 31) (closeBack : right < left + 2 ^ 31) :
    Int.bmod ((left + 2 ^ bits - right) % 2 ^ bits : Nat) (2 ^ 32) =
      (left : Int) - right := by
  rw [Int.bmod_def]
  rcases word with rfl | rfl
  · simp only [Nat.reducePow] at *
    split <;> omega
  · simp only [Nat.reducePow] at *
    split <;> omega

theorem naClVmmapCmpEntries_eq
    {left right : VmmapEntry}
    (leftSpace : InSpace size left.pageNum left.npages)
    (rightSpace : InSpace size right.pageNum right.npages)
    (close : left.pageNum < right.pageNum + 2 ^ 31)
    (closeBack : right.pageNum < left.pageNum + 2 ^ 31) :
    naClVmmapCmpEntries size left right =
      (left.pageNum : Int) - right.pageNum := by
  have small : ∀ entry : VmmapEntry,
      InSpace size entry.pageNum entry.npages →
        entry.pageNum < 2 ^ size.bits := by
    intro entry space
    exact Nat.lt_of_le_of_lt
      (Nat.le_trans (Nat.le_add_right _ entry.npages) space)
      (InSpace.pages_lt size)
  exact bmod_difference size.word (small left leftSpace)
    (small right rightSpace) close closeBack

theorem Comparable.of_perm
    (comparable : Comparable self)
    (perm : (entries next).Perm (entries self)) : Comparable next := by
  intro left leftMember right rightMember
  exact comparable left (perm.mem_iff.mp leftMember) right
    (perm.mem_iff.mp rightMember)

theorem mapM_id_of_nonnull (nonnull : none ∉ self.vmentry) :
    self.vmentry.mapM id = some (entries self) := by
  have slots := vmentry_of_nonnull nonnull
  rw [slots]
  generalize entries self = items
  induction items with
  | nil => rfl
  | cons item items ih => simp [ih]

structure Sorted (map next : Vmmap) : Prop where
  flag : next.isSorted = true
  perm : (entries next).Perm (entries map)
  pages : ∀ page, pageMap next page = pageMap map page

theorem naClVmmapMakeSorted_spec
    (invariant : MapInvariant size self)
    (run : naClVmmapMakeSorted size qsort self = some next) :
    MapInvariant size next ∧ Sorted self next := by
  rw [naClVmmapMakeSorted] at run
  by_cases sorted : self.isSorted = true
  · rw [if_pos sorted] at run
    cases run
    exact ⟨invariant, sorted, List.Perm.refl _, fun _ => rfl⟩
  · rw [if_neg sorted] at run
    simp only [Option.bind_eq_bind, Option.bind_eq_some_iff] at run
    obtain ⟨mid, removed, read, ordered, result⟩ := run
    have cleaned := naClVmmapRemoveMarked_cleaned invariant.apart removed
    have midInvariant : MapInvariant size mid :=
      cleaned.invariant invariant.inSpace
    rw [mapM_id_of_nonnull cleaned.after] at ordered
    cases ordered
    cases result
    have sortedPerm := qsort.perm (naClVmmapCmpEntries size) (entries mid)
    have sortedApart : (qsort.sort (naClVmmapCmpEntries size)
        (entries mid)).Pairwise (Apart VmmapEntry.page) :=
      sortedPerm.symm.pairwise cleaned.apart Apart.symm
    have ordered : entries { mid with
        vmentry := (qsort.sort (naClVmmapCmpEntries size) (entries mid)).map some
        isSorted := true } =
          qsort.sort (naClVmmapCmpEntries size) (entries mid) :=
      entries_of_map rfl
    refine ⟨⟨?_, ?_, ?_, ?_, ?_⟩, ⟨rfl, ?_, ?_⟩⟩
    · rw [ordered]
      intro entry member
      exact midInvariant.live entry (sortedPerm.mem_iff.mp member)
    · rw [ordered]
      exact sortedApart
    · rw [ordered]
      intro entry member
      exact midInvariant.inSpace entry (sortedPerm.mem_iff.mp member)
    · intro _
      exact null_not_mem_map _
    · intro _ comparable
      rw [ordered]
      have midComparable : Comparable mid := by
        apply comparable.of_perm
        rw [ordered]
        exact sortedPerm.symm
      apply qsort.sorted_by_key
      intro left leftMember right rightMember
      exact naClVmmapCmpEntries_eq (midInvariant.inSpace left leftMember)
        (midInvariant.inSpace right rightMember)
        (midComparable left leftMember right rightMember)
        (midComparable right rightMember left leftMember)
    · rw [ordered]
      exact sortedPerm.trans (cleaned.perm_of_live invariant.live)
    · intro page
      rw [← cleaned.pages, pageMap, pageMap, ordered]
      exact union_perm sortedApart sortedPerm page

theorem naClVmmapMakeSorted_returns
    (invariant : MapInvariant size self) (nonnull : none ∉ self.vmentry) :
    ∃ next, naClVmmapMakeSorted size qsort self = some next := by
  rw [naClVmmapMakeSorted]
  by_cases sorted : self.isSorted = true
  · rw [if_pos sorted]
    exact ⟨self, rfl⟩
  · rw [if_neg sorted]
    have survives : entries self = [] ∨
        ∃ entry ∈ entries self, entry.removed = false := by
      cases found : entries self with
      | nil => exact Or.inl rfl
      | cons entry rest =>
          have member : entry ∈ entries self := by
            rw [found]
            exact List.mem_cons_self
          exact Or.inr ⟨entry, List.mem_cons_self, invariant.live entry member⟩
    obtain ⟨mid, removed⟩ := naClVmmapRemoveMarked_returns nonnull survives
    have cleaned := naClVmmapRemoveMarked_cleaned invariant.apart removed
    rw [removed, Option.bind_eq_bind, Option.bind_some,
      mapM_id_of_nonnull cleaned.after]
    exact ⟨_, rfl⟩

def mappedPage (pageNum : Nat) (prot : Int) (nmop : Option MemObj) (page : Nat) :
    Int × Option MemObj :=
  (prot, naClMemObjIncOffset nmop
    (BitVec.ofNat 64 ((page - pageNum) * 2 ^ naclPageshift)))

/-- The map between the loop of an update and the removal of the marked
entries: the pages of the range are gone. -/
structure Carved (size : WordSize) (lower upper : Nat) (map next : Vmmap) :
    Prop where
  apart : (entries next).Pairwise (Apart VmmapEntry.page)
  inSpace : ∀ entry ∈ entries next, InSpace size entry.pageNum entry.npages
  inside : ∀ page, InRange lower upper page → pageMap next page = none
  outside : ∀ page, ¬ InRange lower upper page →
    pageMap next page = pageMap map page

theorem EntryCut.cuts
    {items : List VmmapEntry}
    {parts : List (List VmmapEntry)}
    (cuts : List.Forall₂ (EntryCut lower upper) items parts) :
    List.Forall₂ (CutTo VmmapEntry.page (InRange lower upper)) items parts :=
  cuts.imp (fun _ _ cut => cut.cut)

theorem LoopLeft.entries_perm
    (left : LoopLeft lower upper allocations (entries self) [] next)
    (nonnull : none ∉ next.vmentry) :
    ∃ parts, List.Forall₂ (EntryCut lower upper) (entries self) parts ∧
      (entries next).Perm parts.flatten := by
  obtain ⟨shrunk, extra, parts, slots, cuts, perm⟩ := left.left
  have filled : extra.map (remainderSlot allocations) = extra.map some := by
    apply List.map_congr_left
    intro entry member
    rw [remainderSlot]
    by_cases allocated : allocations.remainder.entry = true
    · rw [if_pos allocated]
    · have null : none ∈ next.vmentry := by
        rw [slots]
        apply List.mem_append_right
        refine List.mem_map.mpr ⟨entry, member, ?_⟩
        rw [remainderSlot, if_neg allocated]
      exact absurd null nonnull
  refine ⟨parts, cuts, ?_⟩
  rw [@entries_of_map next (shrunk ++ extra)]
  · exact perm
  · rw [slots, filled, List.nil_append, List.map_append]

theorem LoopLeft.carved
    (invariant : MapInvariant size self)
    (left : LoopLeft lower upper allocations (entries self) [] next)
    (nonnull : none ∉ next.vmentry) : Carved size lower upper self next := by
  obtain ⟨parts, cuts, perm⟩ := left.entries_perm nonnull
  have partsApart := CutTo.apart_flatten (EntryCut.cuts cuts) invariant.apart
  have nextApart : (entries next).Pairwise (Apart VmmapEntry.page) :=
    perm.symm.pairwise partsApart Apart.symm
  have pages : ∀ page,
      pageMap next page = union VmmapEntry.page parts.flatten page :=
    fun page => union_perm nextApart perm page
  refine ⟨nextApart, ?_, ?_, ?_⟩
  · intro entry member
    obtain ⟨own, ownMember, inOwn⟩ :=
      List.mem_flatten.mp (perm.mem_iff.mp member)
    obtain ⟨item, itemMember, cut⟩ := exists_of_mem_right cuts ownMember
    exact Nat.le_trans (cut.bound entry inOwn).2
      (invariant.inSpace item itemMember)
  · intro page inside
    rw [pages]
    exact CutTo.union_inside (EntryCut.cuts cuts) inside
  · intro page outside
    rw [pages]
    exact CutTo.union_outside (EntryCut.cuts cuts) outside

section Append

variable {pageNum npages : Nat} {prot : Int} {nmop : Option MemObj}

theorem mapping_page (page : Nat) :
    VmmapEntry.page ⟨pageNum, npages, prot, nmop, false⟩ page =
      if InRange pageNum (pageNum + npages) page then
        some (mappedPage pageNum prot nmop page)
      else
        none := by
  by_cases inside : InRange pageNum (pageNum + npages) page
  · rw [if_pos inside]
    exact VmmapEntry.page_of_covers rfl inside
  · rw [if_neg inside]
    exact VmmapEntry.page_of_not_covers inside

theorem appended_apart
    (appended : entries next =
      entries self ++ [⟨pageNum, npages, prot, nmop, false⟩])
    (apart : (entries self).Pairwise (Apart VmmapEntry.page))
    (free : ∀ page, InRange pageNum (pageNum + npages) page →
      pageMap self page = none) :
    (entries next).Pairwise (Apart VmmapEntry.page) := by
  rw [appended, List.pairwise_append]
  refine ⟨apart, List.pairwise_singleton _ _, ?_⟩
  intro entry member mapping mappingMember page
  rw [List.mem_singleton.mp mappingMember, mapping_page]
  by_cases inside : InRange pageNum (pageNum + npages) page
  · exact Or.inl (union_eq_none_iff.mp (free page inside) entry member)
  · exact Or.inr (if_neg inside)

theorem appended_pages
    (appended : entries next =
      entries self ++ [⟨pageNum, npages, prot, nmop, false⟩])
    (free : ∀ page, InRange pageNum (pageNum + npages) page →
      pageMap self page = none) (page : Nat) :
    pageMap next page =
      if InRange pageNum (pageNum + npages) page then
        some (mappedPage pageNum prot nmop page)
      else
        pageMap self page := by
  rw [pageMap, appended, union_append, union_cons, union_nil, Option.or_none,
    mapping_page]
  by_cases inside : InRange pageNum (pageNum + npages) page
  · rw [if_pos inside, if_pos inside]
    have absent := free page inside
    rw [pageMap] at absent
    rw [absent, Option.none_or]
  · rw [if_neg inside, if_neg inside, Option.or_none]
    rfl

theorem appended_inSpace
    (appended : entries next =
      entries self ++ [⟨pageNum, npages, prot, nmop, false⟩])
    (inSpace : ∀ entry ∈ entries self,
      InSpace size entry.pageNum entry.npages)
    (space : InSpace size pageNum npages) :
    ∀ entry ∈ entries next, InSpace size entry.pageNum entry.npages := by
  rw [appended]
  intro entry member
  rcases List.mem_append.mp member with member | member
  · exact inSpace entry member
  · rw [List.mem_singleton.mp member]
    exact space

theorem entries_append (slots : List (Option VmmapEntry)) (slot : Option VmmapEntry)
    (capacity : Nat) (isSorted : Bool) :
    entries ⟨slots ++ [slot], capacity, isSorted⟩ =
      slots.filterMap id ++ slot.toList := by
  rw [entries, List.filterMap_append]
  cases slot <;> rfl

end Append

def updatedPages (pages : Nat → Option (Int × Option MemObj))
    (pageNum npages : Nat) (prot : Int) (nmop : Option MemObj)
    (remove : Bool) (page : Nat) : Option (Int × Option MemObj) :=
  if InRange pageNum (pageNum + npages) page then
    if remove then none else some (mappedPage pageNum prot nmop page)
  else
    pages page

theorem Carved.removed_spec
    (carved : Carved size pageNum (pageNum + npages) self mid)
    (cleaned : Cleaned mid next) :
    MapInvariant size next ∧ ∀ page, pageMap next page =
      updatedPages (pageMap self) pageNum npages prot nmop true page := by
  refine ⟨cleaned.invariant carved.inSpace, ?_⟩
  intro page
  rw [cleaned.pages, updatedPages]
  by_cases inside : InRange pageNum (pageNum + npages) page
  · rw [if_pos inside, if_pos rfl, carved.inside page inside]
  · rw [if_neg inside, carved.outside page inside]

theorem Carved.mapped_spec
    {added : Vmmap}
    (carved : Carved size pageNum (pageNum + npages) self mid)
    (space : InSpace size pageNum npages)
    (appended : entries added =
      entries mid ++ [⟨pageNum, npages, prot, nmop, false⟩])
    (cleaned : Cleaned added next) :
    MapInvariant size next ∧ ∀ page, pageMap next page =
      updatedPages (pageMap self) pageNum npages prot nmop false page := by
  refine ⟨cleaned.invariant
    (appended_inSpace appended carved.inSpace space), ?_⟩
  intro page
  rw [cleaned.pages, appended_pages appended carved.inside, updatedPages]
  by_cases inside : InRange pageNum (pageNum + npages) page
  · rw [if_pos inside, if_pos inside, if_neg Bool.false_ne_true]
  · rw [if_neg inside, if_neg inside, carved.outside page inside]

theorem Carved.of_entries
    (carved : Carved size lower upper self mid)
    (same : entries next = entries mid) : Carved size lower upper self next := by
  obtain ⟨apart, inSpace, inside, outside⟩ := carved
  unfold pageMap at inside outside
  rw [← same] at apart inSpace inside outside
  exact ⟨apart, inSpace, inside, outside⟩

theorem Carved.of_pages
    (carved : Carved size lower upper mid next)
    (pages : ∀ page, pageMap mid page = pageMap self page) :
    Carved size lower upper self next := by
  refine ⟨carved.apart, carved.inSpace, carved.inside, ?_⟩
  intro page outside
  rw [carved.outside page outside, pages]

private theorem naClVmmapUpdate_loop
    (allocations : UpdateAllocations)
    (positive : 0 < npages) (space : InSpace size pageNum npages)
    (invariant : MapInvariant size self) (sorted : self.isSorted = true)
    (comparable : Comparable self) :
    updateLoop size allocations pageNum npages (nvalid self) 0 self = none ∧
        ¬ allocations.Succeed ∨
      ∃ next, updateLoop size allocations pageNum npages (nvalid self) 0 self =
          some next ∧
        LoopLeft pageNum (pageNum + npages) allocations (entries self) []
          next := by
  have slots := vmentry_of_nonnull (invariant.nonnull sorted)
  have count : nvalid self = (entries self).length := by
    rw [nvalid, slots, List.length_map]
  rw [count]
  exact @updateLoop_cases size allocations pageNum npages positive space
    (entries self) [] self slots invariant.live invariant.inSpace
    (invariant.sorted sorted comparable) invariant.apart

/-- What an update leaves before the marked entries are removed. -/
theorem naClVmmapUpdate_left
    (invariant : MapInvariant size self) (comparable : Comparable self)
    (space : InSpace size pageNum npages)
    (run : naClVmmapUpdate size qsort allocations self pageNum npages prot nmop
      remove = some next) :
    0 < npages ∧ ∃ sorted mid grown,
      naClVmmapMakeSorted size qsort self = some sorted ∧
      none ∉ mid.vmentry ∧
      LoopLeft pageNum (pageNum + npages) allocations (entries sorted) [] mid ∧
      entries grown = entries mid ++
        (if remove then [] else [⟨pageNum, npages, prot, nmop, false⟩]) ∧
      naClVmmapRemoveMarked grown = some next := by
  rw [naClVmmapUpdate, Option.bind_eq_bind, Option.bind_eq_some_iff] at run
  obtain ⟨sorted, sortRun, run⟩ := run
  obtain ⟨sortedInvariant, isSorted⟩ :=
    naClVmmapMakeSorted_spec invariant sortRun
  by_cases zero : npages = 0
  · rw [if_pos zero] at run
    cases run
  rw [if_neg zero, Option.bind_eq_some_iff] at run
  obtain ⟨mid, loopRun, run⟩ := run
  have left : LoopLeft pageNum (pageNum + npages) allocations (entries sorted)
      [] mid := by
    have loop := naClVmmapUpdate_loop allocations (Nat.pos_of_ne_zero zero) space
      sortedInvariant isSorted.flag (comparable.of_perm isSorted.perm)
    rcases loop with ⟨stopped, _⟩ | ⟨next, loop, left⟩
    · rw [stopped] at loopRun
      cases loopRun
    · rw [loop] at loopRun
      cases loopRun
      exact left
  refine ⟨Nat.pos_of_ne_zero zero, sorted, mid, ?_⟩
  cases remove with
  | true =>
      exact ⟨mid, sortRun, (naClVmmapRemoveMarked_kept run).1, left,
        (List.append_nil _).symm, run⟩
  | false =>
      rw [if_neg Bool.false_ne_true] at run
      rcases naClVmmapAdd_cases allocations.mapping mid pageNum npages prot nmop
        with ⟨failed, _⟩ | ⟨grown, added⟩
      · rw [failed] at run
        cases run
      · rw [added] at run
        have nonnull := (naClVmmapRemoveMarked_kept run).1
        have allocated : allocations.mapping.entry = true := by
          apply eq_true_of_ne_false
          intro failed
          apply nonnull
          simp [naClVmmapEntryMake, failed]
        rw [naClVmmapEntryMake, if_pos allocated] at run nonnull
        exact ⟨_, sortRun, fun null =>
          nonnull (List.mem_append_left _ null), left,
          entries_append _ _ _ _, run⟩

theorem naClVmmapUpdate_spec
    (invariant : MapInvariant size self) (comparable : Comparable self)
    (space : InSpace size pageNum npages)
    (run : naClVmmapUpdate size qsort allocations self pageNum npages prot nmop
      remove = some next) :
    MapInvariant size next ∧ ∀ page, pageMap next page =
      updatedPages (pageMap self) pageNum npages prot nmop remove page := by
  obtain ⟨-, sorted, mid, grown, sortRun, nonnull, left, appended, removed⟩ :=
    naClVmmapUpdate_left invariant comparable space run
  obtain ⟨sortedInvariant, isSorted⟩ :=
    naClVmmapMakeSorted_spec invariant sortRun
  have carved := (left.carved sortedInvariant nonnull).of_pages isSorted.pages
  cases remove with
  | true =>
      have carved := carved.of_entries (appended.trans (List.append_nil _))
      exact carved.removed_spec
        (naClVmmapRemoveMarked_cleaned carved.apart removed)
  | false =>
      exact carved.mapped_spec space appended
        (naClVmmapRemoveMarked_cleaned
          (appended_apart appended carved.apart carved.inside) removed)

theorem naClVmmapUpdate_returns
    (invariant : MapInvariant size self) (comparable : Comparable self)
    (space : InSpace size pageNum npages) (positive : 0 < npages)
    (nonnull : none ∉ self.vmentry) (succeed : allocations.Succeed)
    (survives : remove = true → entries self = [] ∨
      ∃ entry ∈ entries self, ¬ entry.Within pageNum (pageNum + npages)) :
    ∃ next, naClVmmapUpdate size qsort allocations self pageNum npages prot nmop
      remove = some next := by
  obtain ⟨sorted, sortRun⟩ :=
    @naClVmmapMakeSorted_returns size qsort self invariant nonnull
  obtain ⟨sortedInvariant, isSorted⟩ :=
    naClVmmapMakeSorted_spec invariant sortRun
  rcases naClVmmapUpdate_loop allocations positive space sortedInvariant
      isSorted.flag (comparable.of_perm isSorted.perm) with
    ⟨_, failed⟩ | ⟨mid, loopRun, left⟩
  · exact absurd succeed failed
  have midNonnull : none ∉ mid.vmentry := by
    obtain ⟨shrunk, extra, parts, slots, _, _⟩ := left.left
    rw [slots]
    simp [remainderSlot, succeed.2.1.2]
  obtain ⟨parts, cuts, perm⟩ := left.entries_perm midNonnull
  rw [naClVmmapUpdate, sortRun, Option.bind_eq_bind, Option.bind_some,
    if_neg (Nat.pos_iff_ne_zero.mp positive), loopRun, Option.bind_some]
  cases remove with
  | true =>
      rw [if_pos rfl]
      apply naClVmmapRemoveMarked_returns midNonnull
      rcases survives rfl with empty | ⟨entry, member, outside⟩
      · have noneSorted : entries sorted = [] := by
          apply List.Perm.eq_nil
          rw [← empty]
          exact isSorted.perm
        rw [noneSorted] at cuts
        cases cuts
        exact Or.inl perm.eq_nil
      · obtain ⟨own, ownMember, cut⟩ := exists_of_mem_right cuts.flip
          (isSorted.perm.mem_iff.mpr member)
        obtain ⟨part, partMember, live⟩ := cut.survives outside
        exact Or.inr ⟨part, perm.mem_iff.mpr
          (List.mem_flatten.mpr ⟨own, ownMember, partMember⟩), live⟩
  | false =>
      rw [if_neg Bool.false_ne_true]
      rcases naClVmmapAdd_cases allocations.mapping mid pageNum npages prot nmop
        with ⟨_, failed⟩ | ⟨grown, added⟩
      · rw [succeed.2.2.1] at failed
        cases failed
      · have appended := entries_append mid.vmentry
          (naClVmmapEntryMake allocations.mapping.entry pageNum npages prot nmop)
          grown false
        rw [added]
        rw [naClVmmapEntryMake, if_pos succeed.2.2.2] at appended ⊢
        apply naClVmmapRemoveMarked_returns
        · simp [midNonnull]
        · rw [appended]
          exact Or.inr ⟨_, List.mem_append_right _ (List.mem_singleton.mpr rfl),
            rfl⟩

/-! ## Runs of the calls -/

inductive VmmapCall where
  | add (allocations : AddAllocations) (pageNum npages : Nat) (prot : Int)
      (nmop : Option MemObj)
  | update (allocations : UpdateAllocations) (pageNum npages : Nat)
      (prot : Int) (nmop : Option MemObj) (remove : Bool)
  | makeSorted

def performVmmap (size : WordSize) (qsort : QSort VmmapEntry) (self : Vmmap) :
    VmmapCall → Option Vmmap
  | .add allocations pageNum npages prot nmop =>
      some (naClVmmapAdd allocations self pageNum npages prot nmop).1
  | .update allocations pageNum npages prot nmop remove =>
      naClVmmapUpdate size qsort allocations self pageNum npages prot nmop remove
  | .makeSorted => naClVmmapMakeSorted size qsort self

def ProperCall (size : WordSize) (self : Vmmap) : VmmapCall → Prop
  | .add _ pageNum npages _ _ => InSpace size pageNum npages ∧
      ∀ entry ∈ entries self, ∀ page,
        InRange pageNum (pageNum + npages) page → ¬ entry.Covers page
  | .update _ pageNum npages _ _ _ => InSpace size pageNum npages
  | .makeSorted => True

def ComparesRight (self : Vmmap) : VmmapCall → Prop
  | .update .. => Comparable self
  | _ => True

/-- The process outlives the call: there is memory, no earlier allocation of an
entry has failed, and an update is of some pages and does not empty the map. -/
def Survives (self : Vmmap) : VmmapCall → Prop
  | .add .. => True
  | .update allocations pageNum npages _ _ remove =>
      0 < npages ∧ none ∉ self.vmentry ∧ allocations.Succeed ∧
        (remove = true → entries self = [] ∨
          ∃ entry ∈ entries self, ¬ entry.Within pageNum (pageNum + npages))
  | .makeSorted => none ∉ self.vmentry

def EntriesDisjoint (self : Vmmap) : Prop :=
  (entries self).Pairwise
    (fun left right => ∀ page, ¬ (left.Covers page ∧ right.Covers page))

def ChangesPages (self : Vmmap) (call : VmmapCall) (next : Vmmap) : Prop :=
  match call with
  | .add allocations pageNum npages prot nmop =>
      (∀ page, ¬ InRange pageNum (pageNum + npages) page →
        pageMap next page = pageMap self page) ∧
      (allocations.Succeed → ∀ page, InRange pageNum (pageNum + npages) page →
        pageMap next page = some (mappedPage pageNum prot nmop page))
  | .update _ pageNum npages prot nmop remove => ∀ page, pageMap next page =
      updatedPages (pageMap self) pageNum npages prot nmop remove page
  | .makeSorted => ∀ page, pageMap next page = pageMap self page

inductive VmmapReached (size : WordSize) (qsort : QSort VmmapEntry)
    (permitted : Vmmap → VmmapCall → Prop) : Vmmap → Prop
  | ctor {self : Vmmap} (allocated : Bool) :
      naClVmmapCtor allocated = some self →
      VmmapReached size qsort permitted self
  | call {self next : Vmmap} (call : VmmapCall) :
      VmmapReached size qsort permitted self → permitted self call →
      performVmmap size qsort self call = some next →
      VmmapReached size qsort permitted next

def VmmapSound (size : WordSize) (qsort : QSort VmmapEntry)
    (permitted : Vmmap → VmmapCall → Prop) : Prop :=
  ∀ self, VmmapReached size qsort permitted self →
    EntriesDisjoint self ∧ ∀ call next, permitted self call →
      performVmmap size qsort self call = some next →
        EntriesDisjoint next ∧ ChangesPages self call next

theorem MapInvariant.disjoint (invariant : MapInvariant size self) :
    EntriesDisjoint self := by
  refine invariant.apart.imp_of_mem ?_
  intro left right leftMember rightMember apart page covered
  rcases apart page with absent | absent
  · rw [VmmapEntry.page_of_covers (invariant.live left leftMember)
      covered.1] at absent
    cases absent
  · rw [VmmapEntry.page_of_covers (invariant.live right rightMember)
      covered.2] at absent
    cases absent

theorem naClVmmapCtor_invariant
    {allocated : Bool} (run : naClVmmapCtor allocated = some self) :
    MapInvariant size self := by
  cases allocated with
  | false => cases run
  | true =>
      cases run
      constructor <;> simp [entries]

theorem naClVmmapAdd_spec
    (allocations : AddAllocations)
    (invariant : MapInvariant size self)
    (proper : ProperCall size self (.add allocations pageNum npages prot nmop)) :
    MapInvariant size
        (naClVmmapAdd allocations self pageNum npages prot nmop).1 ∧
      ChangesPages self (.add allocations pageNum npages prot nmop)
        (naClVmmapAdd allocations self pageNum npages prot nmop).1 := by
  have free : ∀ page, InRange pageNum (pageNum + npages) page →
      pageMap self page = none := by
    intro page inside
    refine union_eq_none_iff.mpr ?_
    intro entry member
    exact VmmapEntry.page_of_not_covers (proper.2 entry member page inside)
  rcases naClVmmapAdd_cases allocations self pageNum npages prot nmop with
    ⟨failed, noMemory⟩ | ⟨grown, added⟩
  · rw [failed]
    refine ⟨invariant, fun _ _ => rfl, ?_⟩
    intro succeed
    rw [succeed.1] at noMemory
    cases noMemory
  · rw [added]
    have appended := entries_append self.vmentry
      (naClVmmapEntryMake allocations.entry pageNum npages prot nmop) grown false
    cases allocated : allocations.entry with
    | false =>
        rw [allocated] at appended
        have same : entries ⟨self.vmentry ++ [naClVmmapEntryMake false pageNum
            npages prot nmop], grown, false⟩ = entries self := by
          rw [appended]
          exact List.append_nil _
        refine ⟨⟨?_, ?_, ?_, ?_, ?_⟩, ?_, ?_⟩
        · rw [same]
          exact invariant.live
        · rw [same]
          exact invariant.apart
        · rw [same]
          exact invariant.inSpace
        · intro sorted
          cases sorted
        · intro sorted
          cases sorted
        · intro page _
          rw [pageMap, same]
          rfl
        · intro succeed
          rw [succeed.2] at allocated
          cases allocated
    | true =>
        rw [allocated] at appended
        have pages := appended_pages appended free
        refine ⟨⟨?_, appended_apart appended invariant.apart free,
          appended_inSpace appended invariant.inSpace proper.1, ?_, ?_⟩, ?_, ?_⟩
        · rw [appended]
          intro entry member
          rcases List.mem_append.mp member with member | member
          · exact invariant.live entry member
          · rw [List.mem_singleton.mp member]
        · intro sorted
          cases sorted
        · intro sorted
          cases sorted
        · intro page outside
          rw [pages, if_neg outside]
        · intro _ page inside
          rw [pages, if_pos inside]

theorem performVmmap_spec
    {call : VmmapCall} (invariant : MapInvariant size self)
    (proper : ProperCall size self call) (compares : ComparesRight self call)
    (run : performVmmap size qsort self call = some next) :
    MapInvariant size next ∧ ChangesPages self call next := by
  cases call with
  | add allocations pageNum npages prot nmop =>
      cases run
      exact naClVmmapAdd_spec allocations invariant proper
  | update allocations pageNum npages prot nmop remove =>
      exact naClVmmapUpdate_spec invariant compares proper run
  | makeSorted =>
      obtain ⟨nextInvariant, sorted⟩ := naClVmmapMakeSorted_spec invariant run
      exact ⟨nextInvariant, sorted.pages⟩

def RightCall (size : WordSize) (self : Vmmap) (call : VmmapCall) : Prop :=
  ProperCall size self call ∧ ComparesRight self call

theorem VmmapReached.invariant
    (reached : VmmapReached size qsort (RightCall size) self) :
    MapInvariant size self := by
  induction reached with
  | ctor allocated run => exact naClVmmapCtor_invariant run
  | call call _ permitted run ih =>
      exact (performVmmap_spec ih permitted.1 permitted.2 run).1

theorem performVmmap_returns
    {call : VmmapCall} (invariant : MapInvariant size self)
    (proper : ProperCall size self call) (compares : ComparesRight self call)
    (survives : Survives self call) :
    ∃ next, performVmmap size qsort self call = some next := by
  cases call with
  | add allocations pageNum npages prot nmop => exact ⟨_, rfl⟩
  | update allocations pageNum npages prot nmop remove =>
      obtain ⟨positive, nonnull, succeed, outside⟩ := survives
      exact naClVmmapUpdate_returns invariant compares proper positive nonnull
        succeed outside
  | makeSorted => exact naClVmmapMakeSorted_returns invariant survives

theorem vmmapRun_refines (size : WordSize) (qsort : QSort VmmapEntry) :
    VmmapSound size qsort (RightCall size) ∧
      ∀ self call, VmmapReached size qsort (RightCall size) self →
        RightCall size self call → Survives self call →
          ∃ next, performVmmap size qsort self call = some next := by
  constructor
  · intro self reached
    have invariant := reached.invariant
    refine ⟨invariant.disjoint, ?_⟩
    intro call next right run
    obtain ⟨nextInvariant, changes⟩ :=
      performVmmap_spec invariant right.1 right.2 run
    exact ⟨nextInvariant.disjoint, changes⟩
  · intro self call reached right survives
    exact performVmmap_returns reached.invariant right.1 right.2 survives

private def memory : AddAllocations := ⟨true, true⟩

private def wordSize64 : WordSize := ⟨64, bits64⟩

private def smallMap : Vmmap :=
  ⟨[some ⟨32, 12, 5, none, false⟩], 5, false⟩

private theorem smallMap_reached :
    VmmapReached wordSize64 (insertionQSort VmmapEntry) (RightCall wordSize64)
      smallMap := by
  refine VmmapReached.call (.add memory 32 12 5 none)
    (VmmapReached.ctor true rfl) ⟨⟨by decide, ?_⟩, trivial⟩ rfl
  intro entry member
  cases member

/-- Two pages in the middle of the only entry are mapped anew. -/
theorem vmmapRun_refines_split :
    ∃ next, performVmmap wordSize64 (insertionQSort VmmapEntry) smallMap
        (.update ⟨true, memory, memory⟩ 36 2 1 none false) = some next ∧
      EntriesDisjoint next ∧ pageMap next 38 = pageMap smallMap 38 := by
  have refines := vmmapRun_refines wordSize64 (insertionQSort VmmapEntry)
  have right : RightCall wordSize64 smallMap
      (.update ⟨true, memory, memory⟩ 36 2 1 none false) := by
    refine ⟨?_, ?_⟩
    · show InSpace _ _ _
      decide
    · intro left leftMember other otherMember
      rw [List.mem_singleton.mp leftMember, List.mem_singleton.mp otherMember]
      decide
  obtain ⟨next, run⟩ := refines.2 smallMap _ smallMap_reached right (by
    refine ⟨by decide, by decide, ⟨rfl, ⟨rfl, rfl⟩, rfl, rfl⟩, ?_⟩
    intro removes
    cases removes)
  have sound := (refines.1 smallMap smallMap_reached).2 _ next right run
  refine ⟨next, run, sound.1, ?_⟩
  exact (sound.2 38).trans (if_neg (by decide))

/-! ## Page numbers that are too far apart -/

private def farUpdate : VmmapCall :=
  .update ⟨true, memory, memory⟩ 1 0x80000003 3 none false

private def highMap : Vmmap :=
  ⟨[some ⟨0x80000001, 10, 1, none, false⟩], 5, false⟩

private def farMap : Vmmap :=
  ⟨[some ⟨0x80000001, 10, 1, none, false⟩, some ⟨0, 2, 1, none, false⟩], 5,
    false⟩

private def farUpdated : Vmmap :=
  ⟨[some ⟨0x80000004, 7, 1, none, false⟩, some ⟨0, 2, 1, none, false⟩,
    some ⟨1, 0x80000003, 3, none, false⟩], 5, false⟩

private theorem farUpdate_run :
    performVmmap wordSize64 (insertionQSort VmmapEntry) farMap farUpdate =
      some farUpdated := by
  decide +kernel

private theorem farMap_reached :
    VmmapReached wordSize64 (insertionQSort VmmapEntry) (ProperCall wordSize64)
      farMap := by
  have high : VmmapReached wordSize64 (insertionQSort VmmapEntry)
      (ProperCall wordSize64) highMap := by
    refine VmmapReached.call (.add memory 0x80000001 10 1 none)
      (VmmapReached.ctor true rfl) ⟨by decide, ?_⟩ rfl
    intro entry member
    cases member
  refine VmmapReached.call (.add memory 0 2 1 none) high ⟨by decide, ?_⟩ rfl
  intro entry member page inside covered
  have isHigh : entry = ⟨0x80000001, 10, 1, none, false⟩ :=
    List.mem_singleton.mp member
  subst isHigh
  have low : page < 2 := inside.2
  have above : 0x80000001 ≤ page := covered.1
  omega

theorem not_vmmapSound_farPages :
    ¬ VmmapSound ⟨64, Or.inr rfl⟩ (insertionQSort VmmapEntry)
      (ProperCall ⟨64, Or.inr rfl⟩) := by
  intro sound
  have proper : ProperCall wordSize64 farMap farUpdate := by
    show InSpace _ _ _
    decide
  have disjoint := ((sound farMap farMap_reached).2 farUpdate farUpdated proper
    farUpdate_run).1
  have low := (List.pairwise_cons.mp (List.pairwise_cons.mp disjoint).2).1
    ⟨1, 0x80000003, 3, none, false⟩ List.mem_cons_self 1
  exact low (by decide)

end NativeClient.Runtime
