import NativeClient.Runtime.VmmapUpdate

/-!
# Space for a mapping

Two searches go through the sorted entries of the memory map for a gap that is
large enough and aligned for a mapping, from high addresses down or from a hint
up.  The entries of a map whose ranges are never empty stand in a row, so the
pages between two neighbours are pages of no entry at all.
-/

namespace NativeClient.Runtime

open NativeClient.Library

section Calls

variable (size : WordSize)

def naClRoundPageNumUpToMapMultiple (npages : Nat) : Nat :=
  size.wrap (npages + pagesPerMap - 1) / pagesPerMap * pagesPerMap

def naClTruncPageNumDownToMapMultiple (npages : Nat) : Nat :=
  npages / pagesPerMap * pagesPerMap

/-- The gap between two neighbours, as pages from the first number up to the
second one, where a mapping may start. -/
def alignedGap (before behind : VmmapEntry) : Nat × Nat :=
  (naClRoundPageNumUpToMapMultiple size
      (size.wrap (before.pageNum + before.npages)),
    naClTruncPageNumDownToMapMultiple behind.pageNum)

/-- The loop of `NaClVmmapFindMapSpace`; the first argument is the index of the
upper neighbour. -/
def findMapSpaceLoop (vmentry : List (Option VmmapEntry)) (numPages : Nat) :
    Nat → Option Nat
  | 0 => some 0
  | index + 1 => do
      let vmep ← deref vmentry index
      let current ← deref vmentry (index + 1)
      let (endPage, startPage) := alignedGap size vmep current
      if startPage ≤ endPage then
        findMapSpaceLoop vmentry numPages index
      else if numPages ≤ startPage - endPage then
        some (startPage - numPages)
      else
        findMapSpaceLoop vmentry numPages index

/-- The loop of `NaClVmmapFindMapSpaceAboveHint`; the first argument is how many
indices of upper neighbours are left. -/
def findMapSpaceAboveHintLoop (vmentry : List (Option VmmapEntry))
    (usrPage numPages : Nat) : Nat → Nat → Option Nat
  | 0, _ => some 0
  | left + 1, index => do
      let vmep ← deref vmentry (index - 1)
      let current ← deref vmentry index
      let (endPage, startPage) := alignedGap size vmep current
      if startPage ≤ endPage then
        findMapSpaceAboveHintLoop vmentry usrPage numPages left (index + 1)
      else
        let endPage :=
          if endPage ≤ usrPage ∧ usrPage < startPage then usrPage else endPage
        if usrPage ≤ endPage ∧ numPages ≤ startPage - endPage then
          some endPage
        else
          findMapSpaceAboveHintLoop vmentry usrPage numPages left (index + 1)

variable (qsort : QSort VmmapEntry)

def naClVmmapFindMapSpace (self : Vmmap) (numPages : Nat) :
    Option (Nat × Vmmap) :=
  if nvalid self = 0 then
    some (0, self)
  else do
    let self ← naClVmmapMakeSorted size qsort self
    let numPages := naClRoundPageNumUpToMapMultiple size numPages
    let page ← findMapSpaceLoop size self.vmentry numPages (nvalid self - 1)
    some (page, self)

def naClVmmapFindMapSpaceAboveHint (self : Vmmap) (uaddr numPages : Nat) :
    Option (Nat × Vmmap) := do
  let self ← naClVmmapMakeSorted size qsort self
  let usrPage := uaddr / 2 ^ naclPageshift
  let numPages := naClRoundPageNumUpToMapMultiple size numPages
  let page ← findMapSpaceAboveHintLoop size self.vmentry usrPage numPages
    (nvalid self - 1) 1
  some (page, self)

end Calls

def Placed (limit : Nat) (self : Vmmap) : Prop :=
  ∀ entry ∈ entries self, 0 < entry.npages ∧ entry.pageNum + entry.npages ≤ limit

section Rows

variable {size : WordSize} {limit : Nat} {self : Vmmap}

def InRow (items : List VmmapEntry) : Prop :=
  items.Pairwise (fun left right => left.pageNum + left.npages ≤ right.pageNum)

theorem MapInvariant.inRow
    (invariant : MapInvariant size self) (placed : Placed limit self)
    (sorted : self.isSorted = true) (comparable : Comparable self) :
    InRow (entries self) := by
  have ordered := invariant.sorted sorted comparable
  have disjoint := invariant.disjoint
  refine (List.Pairwise.and ordered disjoint).imp_of_mem ?_
  intro left right _ rightMember both
  have positive := (placed right rightMember).1
  by_contra overlaps
  refine both.2 right.pageNum ⟨⟨both.1, by omega⟩, ?_⟩
  exact ⟨Nat.le_refl _, by omega⟩

theorem gap_free
    (row : InRow (entries self)) {front back : List VmmapEntry}
    {before behind : VmmapEntry}
    (split : entries self = front ++ before :: behind :: back)
    {page : Nat} (above : before.pageNum + before.npages ≤ page)
    (below : page < behind.pageNum) : pageMap self page = none := by
  rw [InRow, split, List.pairwise_append] at row
  obtain ⟨-, rest, lower⟩ := row
  obtain ⟨upper, rest⟩ := List.pairwise_cons.mp rest
  obtain ⟨higher, -⟩ := List.pairwise_cons.mp rest
  refine union_eq_none_iff.mpr ?_
  intro entry member
  apply VmmapEntry.page_of_not_covers
  rw [split] at member
  simp only [List.mem_append, List.mem_cons] at member
  rintro ⟨starts, ends⟩
  rcases member with inFront | rfl | rfl | inBack
  · have ended := lower entry inFront before List.mem_cons_self
    omega
  · omega
  · omega
  · have started := higher entry inBack
    have length : behind.pageNum ≤ behind.pageNum + behind.npages :=
      Nat.le_add_right _ _
    omega

end Rows

section Searches

variable {size : WordSize} {limit numPages : Nat} {self next : Vmmap}

theorem deref_map_some
    {items : List VmmapEntry} {index : Nat} {entry : VmmapEntry}
    (read : deref (items.map some) index = some entry) :
    items[index]? = some entry := by
  rw [deref, List.getElem?_map] at read
  cases found : items[index]? with
  | none =>
      rw [found] at read
      cases read
  | some item =>
      rw [found] at read
      exact read

theorem split_at_neighbours
    {items : List VmmapEntry} {index : Nat} {before behind : VmmapEntry}
    (first : items[index]? = some before)
    (second : items[index + 1]? = some behind) :
    ∃ front back, items = front ++ before :: behind :: back := by
  obtain ⟨firstBound, rfl⟩ := List.getElem?_eq_some_iff.mp first
  obtain ⟨secondBound, rfl⟩ := List.getElem?_eq_some_iff.mp second
  refine ⟨items.take index, items.drop (index + 2), ?_⟩
  rw [List.getElem_cons_drop, List.getElem_cons_drop, List.take_append_drop]

theorem roundUp_ge
    {pages : Nat} (small : pages + pagesPerMap ≤ 2 ^ size.bits) :
    pages ≤ naClRoundPageNumUpToMapMultiple size pages := by
  rw [naClRoundPageNumUpToMapMultiple, size.wrap_of_lt (by
    unfold pagesPerMap at small ⊢
    omega)]
  unfold pagesPerMap
  omega

theorem roundUp_of_dvd
    {pages : Nat} (small : pages + pagesPerMap ≤ 2 ^ size.bits)
    (aligned : pagesPerMap ∣ pages) :
    naClRoundPageNumUpToMapMultiple size pages = pages := by
  rw [naClRoundPageNumUpToMapMultiple, size.wrap_of_lt (by
    unfold pagesPerMap at small ⊢
    omega)]
  unfold pagesPerMap at aligned ⊢
  omega

theorem dvd_roundUp (pages : Nat) :
    pagesPerMap ∣ naClRoundPageNumUpToMapMultiple size pages :=
  Nat.dvd_mul_left _ _

structure Found (limit : Nat) (map : Vmmap) (page numPages : Nat) : Prop where
  aligned : pagesPerMap ∣ page
  below : page + numPages ≤ limit
  free : ∀ number, InRange page (page + numPages) number →
    pageMap map number = none

structure Searchable (size : WordSize) (limit : Nat) (map : Vmmap) : Prop where
  slots : map.vmentry = (entries map).map some
  row : InRow (entries map)
  placed : Placed limit map
  small : limit + pagesPerMap ≤ 2 ^ size.bits

theorem Searchable.found
    (searchable : Searchable size limit self) {index page : Nat}
    {before behind : VmmapEntry}
    (first : deref self.vmentry index = some before)
    (second : deref self.vmentry (index + 1) = some behind)
    (aligned : pagesPerMap ∣ page)
    (above : (alignedGap size before behind).1 ≤ page)
    (below : page + numPages ≤ (alignedGap size before behind).2) :
    Found limit self page numPages := by
  rw [searchable.slots] at first second
  have firstAt := deref_map_some first
  have secondAt := deref_map_some second
  obtain ⟨front, back, split⟩ := split_at_neighbours firstAt secondAt
  have bound := (searchable.placed before (List.mem_of_getElem? firstAt)).2
  have nextBound := (searchable.placed behind (List.mem_of_getElem? secondAt)).2
  have small := searchable.small
  have ended : before.pageNum + before.npages ≤ page := by
    have wrapped : size.wrap (before.pageNum + before.npages) =
        before.pageNum + before.npages := by
      refine size.wrap_of_lt ?_
      unfold pagesPerMap at small
      omega
    have rounded := @roundUp_ge size (before.pageNum + before.npages) (by omega)
    rw [alignedGap, wrapped] at above
    exact Nat.le_trans rounded above
  have starts : (alignedGap size before behind).2 ≤ behind.pageNum :=
    Nat.div_mul_le_self _ _
  refine ⟨aligned, by omega, ?_⟩
  intro number inside
  have bounds : page ≤ number ∧ number < page + numPages := inside
  exact gap_free searchable.row split (by omega) (by omega)

theorem findMapSpaceLoop_spec
    (searchable : Searchable size limit self) (whole : pagesPerMap ∣ numPages)
    {index page : Nat}
    (run : findMapSpaceLoop size self.vmentry numPages index = some page) :
    page = 0 ∨ Found limit self page numPages := by
  induction index with
  | zero =>
      cases run
      exact .inl rfl
  | succ index ih =>
      rw [findMapSpaceLoop] at run
      obtain ⟨before, first, run⟩ := Option.bind_eq_some_iff.mp run
      obtain ⟨behind, second, run⟩ := Option.bind_eq_some_iff.mp run
      have aligned : pagesPerMap ∣ (alignedGap size before behind).2 :=
        Nat.dvd_mul_left _ _
      dsimp only at run
      split at run
      · exact ih run
      split at run
      · next gap fits =>
          cases run
          refine .inr (searchable.found first second
            (Nat.dvd_sub aligned whole) ?_ ?_) <;> omega
      · exact ih run

theorem findMapSpaceAboveHintLoop_spec
    (searchable : Searchable size limit self) {usrPage : Nat}
    (hint : pagesPerMap ∣ usrPage) {left index page : Nat}
    (run : findMapSpaceAboveHintLoop size self.vmentry usrPage numPages left
      (index + 1) = some page) :
    page = 0 ∨ Found limit self page numPages := by
  induction left generalizing index with
  | zero =>
      cases run
      exact .inl rfl
  | succ left ih =>
      rw [findMapSpaceAboveHintLoop] at run
      obtain ⟨before, first, run⟩ := Option.bind_eq_some_iff.mp run
      obtain ⟨behind, second, run⟩ := Option.bind_eq_some_iff.mp run
      rw [Nat.add_sub_cancel] at first
      have aligned : pagesPerMap ∣ (alignedGap size before behind).1 :=
        dvd_roundUp _
      dsimp only at run
      split at run
      · exact ih run
      split at run
      · next gap inside =>
          split at run
          · next fits =>
              cases run
              refine .inr (searchable.found first second hint ?_ ?_) <;> omega
          · exact ih run
      · split at run
        · next gap outside fits =>
            cases run
            refine .inr (searchable.found first second aligned ?_ ?_) <;> omega
        · exact ih run

end Searches

section Placing

variable {size : WordSize} {qsort : QSort VmmapEntry} {limit : Nat}
  {self next : Vmmap}

theorem mem_entries_iff {entry : VmmapEntry} :
    entry ∈ entries self ↔ some entry ∈ self.vmentry := by
  rw [entries, List.mem_filterMap]
  simp

theorem Placed.add
    (placed : Placed limit self) (allocations : AddAllocations)
    {pageNum npages : Nat} (prot : Int) (nmop : Option MemObj)
    (positive : 0 < npages) (bound : pageNum + npages ≤ limit) :
    Placed limit (naClVmmapAdd allocations self pageNum npages prot nmop).1 := by
  rcases naClVmmapAdd_cases allocations self pageNum npages prot nmop with
    ⟨failed, -⟩ | ⟨grown, added⟩
  · rw [failed]
    exact placed
  · rw [added]
    intro found member
    rcases List.mem_append.mp (mem_entries_iff.mp member) with old | new
    · exact placed found (mem_entries_iff.mpr old)
    · have made := List.mem_singleton.mp new
      rw [naClVmmapEntryMake] at made
      split at made
      · cases made
        exact ⟨positive, bound⟩
      · cases made

theorem Placed.perm
    (placed : Placed limit self) (perm : (entries next).Perm (entries self)) :
    Placed limit next :=
  fun entry member => placed entry (perm.mem_iff.mp member)

structure AppMap (size : WordSize) (limit : Nat) (map : Vmmap) : Prop where
  invariant : MapInvariant size map
  placed : Placed limit map

theorem Placed.comparable
    (placed : Placed limit self) (small : limit ≤ 2 ^ 31) : Comparable self := by
  intro left leftMember right _
  obtain ⟨positive, bound⟩ := placed left leftMember
  omega

variable (map : AppMap size limit self)

include map

theorem naClVmmapMakeSorted_placed
    (run : naClVmmapMakeSorted size qsort self = some next) :
    AppMap size limit next ∧ Sorted self next := by
  obtain ⟨invariant, sorted⟩ := naClVmmapMakeSorted_spec map.invariant run
  exact ⟨⟨invariant, map.placed.perm sorted.perm⟩, sorted⟩

theorem AppMap.updated
    {allocations : UpdateAllocations} {pageNum npages : Nat} {prot : Int}
    {nmop : Option MemObj} {remove : Bool}
    (comparable : Comparable self)
    (space : limit ≤ 2 ^ (size.bits - naclPageshift))
    (bound : pageNum + npages ≤ limit)
    (run : naClVmmapUpdate size qsort allocations self pageNum npages prot nmop
      remove = some next) : Placed limit next := by
  obtain ⟨positive, sorted, mid, grown, sortRun, nonnull, left, appended,
    removed⟩ := naClVmmapUpdate_left map.invariant comparable
      (Nat.le_trans bound space) run
  obtain ⟨sortedMap, -⟩ := naClVmmapMakeSorted_placed map sortRun
  obtain ⟨parts, cuts, perm⟩ := left.entries_perm nonnull
  obtain ⟨-, -, kept, -⟩ := naClVmmapRemoveMarked_kept removed
  intro entry member
  have inGrown := (List.mem_filter.mp (kept.mem_iff.mp member)).1
  rw [appended] at inGrown
  rcases List.mem_append.mp inGrown with inMid | mapping
  · obtain ⟨own, ownMember, inOwn⟩ :=
      List.mem_flatten.mp (perm.mem_iff.mp inMid)
    obtain ⟨item, itemMember, cut⟩ := exists_of_mem_right cuts ownMember
    have placed := sortedMap.placed item itemMember
    have bound := cut.bound entry inOwn
    exact ⟨bound.1 placed.1, Nat.le_trans bound.2 placed.2⟩
  · split at mapping
    · cases mapping
    · cases List.mem_singleton.mp mapping
      exact ⟨positive, bound⟩

theorem naClVmmapUpdate_placed
    {allocations : UpdateAllocations} {pageNum npages : Nat} {prot : Int}
    {nmop : Option MemObj} {remove : Bool}
    (small : limit ≤ 2 ^ 31) (space : limit ≤ 2 ^ (size.bits - naclPageshift))
    (bound : pageNum + npages ≤ limit)
    (run : naClVmmapUpdate size qsort allocations self pageNum npages prot nmop
      remove = some next) :
    AppMap size limit next ∧ ∀ page, pageMap next page =
      updatedPages (pageMap self) pageNum npages prot nmop remove page := by
  have comparable := map.placed.comparable small
  obtain ⟨invariant, pages⟩ := naClVmmapUpdate_spec map.invariant comparable
    (Nat.le_trans bound space) run
  exact ⟨⟨invariant, map.updated comparable space bound run⟩, pages⟩

theorem AppMap.searchable_of_comparable
    (comparable : Comparable self)
    (space : limit ≤ 2 ^ (size.bits - naclPageshift))
    (sorted : self.isSorted = true) : Searchable size limit self := by
  refine ⟨vmentry_of_nonnull (map.invariant.nonnull sorted),
    map.invariant.inRow map.placed sorted comparable, map.placed, ?_⟩
  have word : 2 ^ size.bits = 2 ^ (size.bits - naclPageshift) * 2 ^ 12 := by
    rcases size.word with word | word <;> rw [word] <;> decide
  have positive : 0 < 2 ^ (size.bits - naclPageshift) := Nat.two_pow_pos _
  unfold pagesPerMap
  omega

theorem AppMap.searchable
    (small : limit ≤ 2 ^ 31)
    (space : limit ≤ 2 ^ (size.bits - naclPageshift))
    (sorted : self.isSorted = true) : Searchable size limit self :=
  map.searchable_of_comparable (map.placed.comparable small) space sorted

private theorem AppMap.found_of_sorted
    {numPages page : Nat}
    (small : limit ≤ 2 ^ 31) (space : limit ≤ 2 ^ (size.bits - naclPageshift))
    (sortRun : naClVmmapMakeSorted size qsort self = some next)
    (searched : Searchable size limit next →
      page = 0 ∨ Found limit next page numPages) :
    AppMap size limit next ∧ (∀ number, pageMap next number = pageMap self number) ∧
      (page = 0 ∨ Found limit self page numPages) := by
  obtain ⟨sortedMap, isSorted⟩ := naClVmmapMakeSorted_placed map sortRun
  refine ⟨sortedMap, isSorted.pages, ?_⟩
  rcases searched (sortedMap.searchable small space isSorted.flag) with
    zero | found
  · exact .inl zero
  · refine .inr ⟨found.aligned, found.below, ?_⟩
    intro number inside
    rw [← isSorted.pages]
    exact found.free number inside

theorem naClVmmapFindMapSpace_spec
    {numPages page : Nat}
    (small : limit ≤ 2 ^ 31) (space : limit ≤ 2 ^ (size.bits - naclPageshift))
    (whole : pagesPerMap ∣ numPages)
    (pages : numPages + pagesPerMap ≤ 2 ^ size.bits)
    (run : naClVmmapFindMapSpace size qsort self numPages = some (page, next)) :
    AppMap size limit next ∧ (∀ number, pageMap next number = pageMap self number) ∧
      (page = 0 ∨ Found limit self page numPages) := by
  unfold naClVmmapFindMapSpace at run
  split at run
  · cases run
    exact ⟨map, fun _ => rfl, .inl rfl⟩
  obtain ⟨sorted, sortRun, run⟩ := Option.bind_eq_some_iff.mp run
  obtain ⟨found, loopRun, result⟩ := Option.bind_eq_some_iff.mp run
  cases result
  rw [roundUp_of_dvd pages whole] at loopRun
  exact map.found_of_sorted small space sortRun
    fun searchable => findMapSpaceLoop_spec searchable whole loopRun

theorem naClVmmapFindMapSpaceAboveHint_spec
    {uaddr numPages page : Nat}
    (small : limit ≤ 2 ^ 31) (space : limit ≤ 2 ^ (size.bits - naclPageshift))
    (whole : pagesPerMap ∣ numPages)
    (pages : numPages + pagesPerMap ≤ 2 ^ size.bits)
    (hint : pagesPerMap ∣ uaddr / 2 ^ naclPageshift)
    (run : naClVmmapFindMapSpaceAboveHint size qsort self uaddr numPages =
      some (page, next)) :
    AppMap size limit next ∧ (∀ number, pageMap next number = pageMap self number) ∧
      (page = 0 ∨ Found limit self page numPages) := by
  obtain ⟨sorted, sortRun, run⟩ := Option.bind_eq_some_iff.mp run
  obtain ⟨found, loopRun, result⟩ := Option.bind_eq_some_iff.mp run
  cases result
  rw [roundUp_of_dvd pages whole] at loopRun
  exact map.found_of_sorted small space sortRun
    fun searchable => findMapSpaceAboveHintLoop_spec searchable hint loopRun

end Placing

section Reached

variable {size : WordSize} {qsort : QSort VmmapEntry} {limit : Nat}
  {self next : Vmmap}

def AppCall (size : WordSize) (limit : Nat) (self : Vmmap) (call : VmmapCall) :
    Prop :=
  ProperCall size self call ∧
    match call with
    | .add _ pageNum npages _ _ => 0 < npages ∧ pageNum + npages ≤ limit
    | .update _ pageNum npages _ _ _ => pageNum + npages ≤ limit
    | .makeSorted => True

theorem VmmapReached.appMap
    (reached : VmmapReached size qsort (AppCall size limit) self)
    (small : limit ≤ 2 ^ 31) (space : limit ≤ 2 ^ (size.bits - naclPageshift)) :
    AppMap size limit self := by
  induction reached with
  | ctor allocated run =>
      refine ⟨naClVmmapCtor_invariant run, ?_⟩
      cases allocated with
      | false => cases run
      | true =>
          cases run
          exact nofun
  | call call _ permitted run ih =>
      cases call with
      | add allocations pageNum npages prot nmop =>
          cases run
          exact ⟨(naClVmmapAdd_spec allocations ih.invariant permitted.1).1,
            ih.placed.add allocations prot nmop permitted.2.1 permitted.2.2⟩
      | update allocations pageNum npages prot nmop remove =>
          exact (naClVmmapUpdate_placed ih small space permitted.2 run).1
      | makeSorted => exact (naClVmmapMakeSorted_placed ih run).1

end Reached

end NativeClient.Runtime
