import Mathlib.Data.List.Pairwise
import NativeClient.Runtime.MmapReports
import NativeClient.Runtime.PageLookup

/-!
# The break

`NaClSetBreak` moves the end of the heap.  When it moves up, the entry of the
last byte below the break is made longer, unless another entry is in the way,
and the pages that it gains are made readable and writable whatever the
protection of the entry.  `none` means that the process has stopped.
-/

namespace NativeClient.Runtime

open NativeClient.Library

/-- `break_addr` and `data_end` are user addresses. -/
structure BreakApp (platform : Platform) extends MmapApp platform where
  breakAddr : Nat
  dataEnd : Nat

structure BreakWorld where
  locked : Bool
  mprotect : Bool

structure BreakOutcome (platform : Platform) where
  result : Nat
  app : BreakApp platform
  mprotected : Option (Nat × Nat)

section Break

variable {platform : Platform}

def naClVmmapIterIncr (nvip : VmmapIter) : VmmapIter :=
  { nvip with entryIx := nvip.entryIx + 1 }

def runsIntoNext (nvip : VmmapIter) (lastInternalPage : Nat) : Option Bool :=
  if naClVmmapIterAtEnd nvip then some false
  else do
    let nextEnt ← naClVmmapIterStar nvip
    some (nextEnt.pageNum ≤ lastInternalPage)

variable (qsort : QSort VmmapEntry)

/-- The part of `NaClSetBreak` for a break above the old one. -/
def raiseBreak (world : BreakWorld) (app : BreakApp platform)
    (newBreak : Nat) : Option (BreakOutcome platform) := do
  let size := platform.size
  let _ ← app.space.naClUserToSys app.breakAddr
  let usrLastDataPage := size.sub app.breakAddr 1 / 2 ^ naclPageshift
  let usrNewLastDataPage := size.sub newBreak 1 / 2 ^ naclPageshift
  let lastInternalPage :=
    size.sub (naClRoundAllocPage platform.size newBreak) 1 / 2 ^ naclPageshift
  let iter ← naClVmmapFindPageIter size qsort app.memMap usrLastDataPage
  if naClVmmapIterAtEnd iter then
    none
  else
    let ent ← naClVmmapIterStar iter
    let app := { app with memMap := iter.vmmap }
    if usrNewLastDataPage < size.wrap (ent.pageNum + ent.npages) then
      some ⟨newBreak, { app with breakAddr := newBreak }, none⟩
    else
      let blocked ← runsIntoNext (naClVmmapIterIncr iter) lastInternalPage
      if blocked then
        some ⟨app.breakAddr, app, none⟩
      else
        let startNewRegion :=
          size.wrap (size.wrap (ent.pageNum + ent.npages) * 2 ^ naclPageshift)
        let extended := { ent with
          npages := size.wrap (size.sub lastInternalPage ent.pageNum + 1) }
        let regionSize := size.sub
          (size.wrap (size.wrap (lastInternalPage + 1) * 2 ^ naclPageshift))
          startNewRegion
        let sysStart ← app.space.naClUserToSys startNewRegion
        if world.mprotect = false then
          none
        else
          some ⟨newBreak, { app with
            memMap := setEntry app.memMap iter.entryIx extended
            breakAddr := newBreak }, some (sysStart, regionSize)⟩

def naClSetBreak (world : BreakWorld) (app : BreakApp platform)
    (newBreak : Nat) : Option (BreakOutcome platform) :=
  if app.space.naClUserToSysAddr newBreak = app.space.kNaClBadAddress then
    some ⟨app.breakAddr, app, none⟩
  else if world.locked = false then
    some ⟨app.breakAddr, app, none⟩
  else if newBreak < app.dataEnd then
    some ⟨app.breakAddr, app, none⟩
  else if newBreak ≤ app.breakAddr then
    some ⟨newBreak, { app with breakAddr := newBreak }, none⟩
  else
    raiseBreak qsort world app newBreak

end Break

/-! ## The entry of a page, among its neighbours -/

section Neighbours

variable {size : WordSize} {qsort : QSort VmmapEntry} {limit pnum : Nat}
  {self : Vmmap}

structure EntryAt (size : WordSize) (limit : Nat) (before sorted : Vmmap)
    (front : List VmmapEntry) (ent : VmmapEntry) (back : List VmmapEntry) :
    Prop where
  map : AppMap size limit sorted
  isSorted : Sorted before sorted
  slots : sorted.vmentry = (front ++ ent :: back).map some
  row : InRow (front ++ ent :: back)

theorem Placed.mono
    {higher : Nat} (placed : Placed limit self) (le : limit ≤ higher) :
    Placed higher self := by
  intro entry member
  obtain ⟨positive, bound⟩ := placed entry member
  exact ⟨positive, Nat.le_trans bound le⟩

theorem naClVmmapFindPageIter_sorted
    {iter : VmmapIter}
    (run : naClVmmapFindPageIter size qsort self pnum = some iter) :
    naClVmmapMakeSorted size qsort self = some iter.vmmap := by
  obtain ⟨sorted, sortRun, run⟩ := Option.bind_eq_some_iff.mp run
  obtain ⟨items, -, run⟩ := Option.bind_eq_some_iff.mp run
  rw [sortRun]
  split at run
  · cases run
    rfl
  · cases run
    rfl

theorem naClVmmapFindPageIter_cases
    (map : AppMap size limit self) (small : limit ≤ 2 ^ 31)
    (space : limit ≤ 2 ^ (size.bits - naclPageshift))
    (nonnull : none ∉ self.vmentry) (pnum : Nat) :
    ∃ iter, naClVmmapFindPageIter size qsort self pnum = some iter ∧
      (naClVmmapIterAtEnd iter = true ∧
          (∀ entry ∈ entries self, ¬ entry.Covers pnum) ∨
        naClVmmapIterAtEnd iter = false ∧ ∃ front ent back,
          EntryAt size limit self iter.vmmap front ent back ∧
            iter.entryIx = front.length ∧ ent.Covers pnum) := by
  have lookup : LookupMap size self :=
    ⟨⟨map.invariant, map.placed.mono space⟩, nonnull⟩
  obtain ⟨-, iter, run, exact'⟩ := @LookupMap.looksUp size qsort _ lookup
    (map.placed.comparable small) pnum
  obtain ⟨sortedMap, sorted⟩ :=
    naClVmmapMakeSorted_placed map (naClVmmapFindPageIter_sorted run)
  have searchable := sortedMap.searchable small space sorted.flag
  refine ⟨iter, run, ?_⟩
  cases atEnd : naClVmmapIterAtEnd iter with
  | true =>
      refine .inl ⟨rfl, ?_⟩
      intro entry member covers
      have found := (exact' entry).mpr
        ⟨member, map.invariant.live entry member, covers⟩
      rw [iterEntry, if_pos atEnd] at found
      cases found
  | false =>
      refine .inr ⟨rfl, ?_⟩
      have inside : iter.entryIx < (entries iter.vmmap).length := by
        have notEnd := of_decide_eq_false atEnd
        rw [nvalid, searchable.slots, List.length_map] at notEnd
        exact Nat.lt_of_not_le notEnd
      have found : iterEntry iter = some (entries iter.vmmap)[iter.entryIx] := by
        rw [iterEntry, if_neg (by simp [atEnd]), naClVmmapIterStar,
          searchable.slots, deref, List.getElem?_map,
          List.getElem?_eq_getElem inside]
        rfl
      have split : entries iter.vmmap =
          (entries iter.vmmap).take iter.entryIx ++
            (entries iter.vmmap)[iter.entryIx] ::
              (entries iter.vmmap).drop (iter.entryIx + 1) := by
        rw [List.getElem_cons_drop, List.take_append_drop]
      refine ⟨(entries iter.vmmap).take iter.entryIx,
        (entries iter.vmmap)[iter.entryIx],
        (entries iter.vmmap).drop (iter.entryIx + 1), ?_, ?_,
        ((exact' _).mp found).2.2⟩
      · refine ⟨sortedMap, sorted, ?_, ?_⟩
        · rw [← split]
          exact searchable.slots
        · rw [← split]
          exact searchable.row
      · rw [List.length_take, Nat.min_eq_left (Nat.le_of_lt inside)]

theorem EntriesDisjoint.unique
    {first second : VmmapEntry} (disjoint : EntriesDisjoint self)
    (member : first ∈ entries self) (alsoMember : second ∈ entries self)
    (covers : first.Covers pnum) (alsoCovers : second.Covers pnum) :
    first = second := by
  by_contra differ
  have symmetric : Std.Symm (fun left right : VmmapEntry =>
      ∀ page, ¬ (left.Covers page ∧ right.Covers page)) :=
    ⟨fun _ _ apart page both => apart page ⟨both.2, both.1⟩⟩
  exact disjoint.forall member alsoMember differ pnum ⟨covers, alsoCovers⟩

theorem MapInvariant.of_row
    {items : List VmmapEntry} (slots : self.vmentry = items.map some)
    (row : InRow items)
    (live : ∀ entry ∈ items, entry.removed = false)
    (inSpace : ∀ entry ∈ items, InSpace size entry.pageNum entry.npages) :
    MapInvariant size self := by
  have same : entries self = items := entries_of_map slots
  refine ⟨?_, ?_, ?_, ?_, ?_⟩
  · rw [same]
    exact live
  · rw [same]
    refine row.imp ?_
    intro left right ordered page
    by_cases covers : left.Covers page
    · right
      apply VmmapEntry.page_of_not_covers
      intro also
      have ended := covers.2
      have starts := also.1
      omega
    · exact .inl (VmmapEntry.page_of_not_covers covers)
  · rw [same]
    exact inSpace
  · intro _
    rw [slots]
    exact null_not_mem_map items
  · intro _ _
    rw [same]
    exact row.imp (fun ordered => Nat.le_trans (Nat.le_add_right _ _) ordered)

variable {front back : List VmmapEntry} {ent : VmmapEntry}
  {sorted : Vmmap}

def VmmapEntry.upTo (entry : VmmapEntry) (stop : Nat) : VmmapEntry :=
  { entry with npages := stop - entry.pageNum }

def extendEntry (sorted : Vmmap) (front : List VmmapEntry) (ent : VmmapEntry)
    (back : List VmmapEntry) (stop : Nat) : Vmmap :=
  { sorted with vmentry := (front ++ ent.upTo stop :: back).map some }

structure Extensible (limit : Nat) (ent : VmmapEntry) (back : List VmmapEntry)
    (stop : Nat) : Prop where
  longer : ent.pageNum + ent.npages ≤ stop
  before : ∀ next ∈ back, stop ≤ next.pageNum
  below : stop ≤ limit

namespace EntryAt

variable (entryAt : EntryAt size limit self sorted front ent back) {stop : Nat}

include entryAt

theorem entries_eq : entries sorted = front ++ ent :: back :=
  entries_of_map entryAt.slots

theorem mem : ent ∈ entries sorted := by
  rw [entryAt.entries_eq]
  exact List.mem_append_right _ List.mem_cons_self

theorem extend_row (extensible : Extensible limit ent back stop) :
    InRow (front ++ ent.upTo stop :: back) := by
  have positive := (entryAt.map.placed ent entryAt.mem).1
  have longer := extensible.longer
  have row := entryAt.row
  rw [InRow, List.pairwise_append] at row ⊢
  obtain ⟨frontRow, rest, lower⟩ := row
  obtain ⟨-, backRow⟩ := List.pairwise_cons.mp rest
  refine ⟨frontRow, List.pairwise_cons.mpr ⟨?_, backRow⟩, ?_⟩
  · intro next member
    have starts := extensible.before next member
    change ent.pageNum + (stop - ent.pageNum) ≤ next.pageNum
    omega
  · intro left leftMember right rightMember
    rcases List.mem_cons.mp rightMember with rfl | inBack
    · exact lower left leftMember ent List.mem_cons_self
    · exact lower left leftMember right (List.mem_cons_of_mem _ inBack)

theorem extend_map
    (space : limit ≤ 2 ^ (size.bits - naclPageshift))
    (extensible : Extensible limit ent back stop) :
    AppMap size limit (extendEntry sorted front ent back stop) := by
  have row := entryAt.extend_row extensible
  have positive := (entryAt.map.placed ent entryAt.mem).1
  have longer := extensible.longer
  have below := extensible.below
  have old : ∀ entry, entry ∈ front ∨ entry ∈ back → entry ∈ entries sorted := by
    intro entry member
    rw [entryAt.entries_eq]
    rcases member with member | member
    · exact List.mem_append_left _ member
    · exact List.mem_append_right _ (List.mem_cons_of_mem _ member)
  have facts : ∀ entry ∈ front ++ ent.upTo stop :: back,
      entry.removed = false ∧ 0 < entry.npages ∧
        entry.pageNum + entry.npages ≤ limit := by
    intro entry member
    have cases' : entry = ent.upTo stop ∨ entry ∈ front ∨ entry ∈ back := by
      rcases List.mem_append.mp member with inFront | rest
      · exact .inr (.inl inFront)
      · rcases List.mem_cons.mp rest with same | inBack
        · exact .inl same
        · exact .inr (.inr inBack)
    rcases cases' with rfl | member
    · refine ⟨entryAt.map.invariant.live ent entryAt.mem, ?_, ?_⟩
      · change 0 < stop - ent.pageNum
        omega
      · change ent.pageNum + (stop - ent.pageNum) ≤ limit
        omega
    · exact ⟨entryAt.map.invariant.live entry (old entry member),
        entryAt.map.placed entry (old entry member)⟩
  have same : entries (extendEntry sorted front ent back stop) =
      front ++ ent.upTo stop :: back := entries_of_map rfl
  refine ⟨MapInvariant.of_row rfl row (fun entry member => (facts entry member).1)
    (fun entry member => ?_), ?_⟩
  · exact Nat.le_trans (facts entry member).2.2 space
  · intro entry member
    rw [same] at member
    exact (facts entry member).2

theorem extend_pages
    (extensible : Extensible limit ent back stop) (page : Nat) :
    pageMap (extendEntry sorted front ent back stop) page =
      if InRange (ent.pageNum + ent.npages) stop page then
        (ent.upTo stop).page page
      else
        pageMap self page := by
  have longer := extensible.longer
  have row := entryAt.row
  have live := entryAt.map.invariant.live ent entryAt.mem
  rw [InRow, List.pairwise_append] at row
  obtain ⟨-, rest, lower⟩ := row
  obtain ⟨upper, -⟩ := List.pairwise_cons.mp rest
  have same : entries (extendEntry sorted front ent back stop) =
      front ++ ent.upTo stop :: back := entries_of_map rfl
  rw [← entryAt.isSorted.pages, pageMap, pageMap, same, entryAt.entries_eq,
    union_append, union_append, union_cons, union_cons]
  split
  · next gained =>
      have frontNone : union VmmapEntry.page front page = none := by
        refine union_eq_none_iff.mpr ?_
        intro entry member
        apply VmmapEntry.page_of_not_covers
        rintro ⟨-, ends⟩
        have ended := lower entry member ent List.mem_cons_self
        have above := gained.1
        omega
      have covers : (ent.upTo stop).Covers page := by
        have above := gained.1
        have below := gained.2
        refine ⟨?_, ?_⟩
        · change ent.pageNum ≤ page
          omega
        · change page < ent.pageNum + (stop - ent.pageNum)
          omega
      rw [frontNone, Option.none_or,
        VmmapEntry.page_of_covers (show (ent.upTo stop).removed = false from live)
          covers]
      rfl
  · next other =>
      congr 2
      by_cases covers : ent.Covers page
      · have stillCovers : (ent.upTo stop).Covers page := by
          have ended := covers.2
          refine ⟨covers.1, ?_⟩
          change page < ent.pageNum + (stop - ent.pageNum)
          omega
        rw [VmmapEntry.page_of_covers live covers, VmmapEntry.page_of_covers
          (show (ent.upTo stop).removed = false from live) stillCovers]
        rfl
      · have outside : ¬ (ent.upTo stop).Covers page := by
          rintro ⟨above, below⟩
          change ent.pageNum ≤ page at above
          change page < ent.pageNum + (stop - ent.pageNum) at below
          rw [VmmapEntry.Covers] at covers
          rw [InRange] at other
          omega
        rw [VmmapEntry.page_of_not_covers covers,
          VmmapEntry.page_of_not_covers outside]

theorem gained_free
    (extensible : Extensible limit ent back stop) {page : Nat}
    (gained : InRange (ent.pageNum + ent.npages) stop page) :
    pageMap self page = none := by
  have row := entryAt.row
  rw [InRow, List.pairwise_append] at row
  obtain ⟨-, rest, lower⟩ := row
  rw [← entryAt.isSorted.pages, pageMap, entryAt.entries_eq,
    union_eq_none_iff]
  intro entry member
  apply VmmapEntry.page_of_not_covers
  rintro ⟨starts, ends⟩
  have above := gained.1
  have below := gained.2
  rcases List.mem_append.mp member with inFront | inRest
  · have ended := lower entry inFront ent List.mem_cons_self
    omega
  · rcases List.mem_cons.mp inRest with rfl | inBack
    · omega
    · have starting := extensible.before entry inBack
      omega

theorem next_blocks
    {iter : VmmapIter} (at_ : iter.vmmap = sorted)
    (index : iter.entryIx = front.length) (last : Nat) :
    runsIntoNext (naClVmmapIterIncr iter) last =
      some (back.head?.any (fun next => next.pageNum ≤ last)) := by
  have count : nvalid iter.vmmap = front.length + 1 + back.length := by
    rw [at_, nvalid, entryAt.slots]
    simp
    omega
  rw [runsIntoNext, naClVmmapIterAtEnd, naClVmmapIterIncr]
  dsimp only
  rw [count, index]
  cases back with
  | nil =>
      rw [if_pos (decide_eq_true (by simp))]
      rfl
  | cons next back =>
      have inside : ¬ decide (front.length + 1 + (next :: back).length ≤
          front.length + 1) = true := by
        rw [decide_eq_true_iff, List.length_cons]
        omega
      rw [if_neg inside, naClVmmapIterStar]
      dsimp only
      have slot : deref ((front ++ ent :: next :: back).map some)
          (front.length + 1) = some next := by
        rw [deref, List.getElem?_map,
          List.getElem?_append_right (Nat.le_add_right _ _),
          Nat.add_sub_cancel_left]
        rfl
      rw [at_, entryAt.slots, slot]
      rfl

theorem set_eq (stop : Nat) :
    setEntry sorted front.length { ent with npages := stop - ent.pageNum } =
      extendEntry sorted front ent back stop := by
  rw [setEntry, extendEntry, entryAt.slots, VmmapEntry.upTo]
  simp

end EntryAt

end Neighbours

/-! ## What raising the break can do -/

section Raise

variable {platform : Platform} {qsort : QSort VmmapEntry}
  {world : BreakWorld} {app : BreakApp platform} {newBreak : Nat}

structure MapReady (app : MmapApp platform) : Prop where
  map : AppMap platform.size (appPages app) app.memMap
  nonnull : none ∉ app.memMap.vmentry

structure BreakInvariant (app : BreakApp platform) : Prop
    extends MapReady app.toMmapApp where
  aligned : naclMapPagesize ∣ 2 ^ app.addrBits
  dataPos : 0 < app.dataEnd
  dataLe : app.dataEnd ≤ app.breakAddr
  breakHigh : app.breakAddr < 2 ^ app.addrBits

def lastPageBelow (address : Nat) : Nat := (address - 1) / naclPagesize

def roundedPage (newBreak : Nat) : Nat :=
  roundUp naclMapPagesize newBreak / naclPagesize

inductive Raised (world : BreakWorld) (app : BreakApp platform)
    (newBreak : Nat) : Option (BreakOutcome platform) → Prop
  | missing
      (absent : ∀ entry ∈ entries app.memMap,
        ¬ entry.Covers (lastPageBelow app.breakAddr)) :
      Raised world app newBreak none
  | within {sorted : Vmmap} {front back : List VmmapEntry} {ent : VmmapEntry}
      (entryAt : EntryAt platform.size (appPages app.toMmapApp) app.memMap
        sorted front ent back)
      (covers : ent.Covers (lastPageBelow app.breakAddr))
      (inside : lastPageBelow newBreak < ent.pageNum + ent.npages) :
      Raised world app newBreak (some ⟨newBreak,
        { app with memMap := sorted, breakAddr := newBreak }, none⟩)
  | blocked {sorted : Vmmap} {front back : List VmmapEntry} {ent : VmmapEntry}
      (entryAt : EntryAt platform.size (appPages app.toMmapApp) app.memMap
        sorted front ent back)
      (covers : ent.Covers (lastPageBelow app.breakAddr))
      (outside : ent.pageNum + ent.npages ≤ lastPageBelow newBreak)
      (behind : ∃ next ∈ back, next.pageNum < roundedPage newBreak) :
      Raised world app newBreak
        (some ⟨app.breakAddr, { app with memMap := sorted }, none⟩)
  | refused {ent : VmmapEntry} (member : ent ∈ entries app.memMap)
      (covers : ent.Covers (lastPageBelow app.breakAddr))
      (denied : world.mprotect = false) :
      Raised world app newBreak none
  | extended {sorted : Vmmap} {front back : List VmmapEntry} {ent : VmmapEntry}
      (entryAt : EntryAt platform.size (appPages app.toMmapApp) app.memMap
        sorted front ent back)
      (covers : ent.Covers (lastPageBelow app.breakAddr))
      (outside : ent.pageNum + ent.npages ≤ lastPageBelow newBreak)
      (extensible : Extensible (appPages app.toMmapApp) ent back
        (roundedPage newBreak)) :
      Raised world app newBreak (some ⟨newBreak,
        { app with
          memMap := extendEntry sorted front ent back (roundedPage newBreak)
          breakAddr := newBreak },
        some (app.memStart + (ent.pageNum + ent.npages) * naclPagesize,
          (roundedPage newBreak - (ent.pageNum + ent.npages)) * naclPagesize)⟩)

theorem roundedPage_bounds
    (invariant : BreakInvariant app) (small : newBreak < 2 ^ app.addrBits)
    (positive : 0 < newBreak) :
    naClRoundAllocPage platform.size newBreak = roundUp naclMapPagesize newBreak ∧
      roundUp naclMapPagesize newBreak = roundedPage newBreak * naclPagesize ∧
      roundUp naclMapPagesize newBreak ≤ 2 ^ app.addrBits ∧
      lastPageBelow newBreak < roundedPage newBreak := by
  have sizes := app.toMmapApp.small
  have least : naclMapPagesize ≤ 2 ^ app.addrBits :=
    Nat.le_of_dvd (Nat.two_pow_pos _) invariant.aligned
  obtain ⟨pages, whole⟩ := invariant.aligned
  have rounded : naClRoundAllocPage platform.size newBreak =
      roundUp naclMapPagesize newBreak := by
    apply naClRoundAllocPage_eq
    unfold naclMapPagesize at least
    omega
  refine ⟨rounded, ?_⟩
  rw [whole] at small ⊢
  unfold roundedPage lastPageBelow roundUp naclMapPagesize naclPagesize at *
  omega

theorem entry_bounds
    {self : Vmmap} {ent : VmmapEntry} (placed : Placed (appPages app.toMmapApp) self)
    (member : ent ∈ entries self) :
    0 < ent.npages ∧ ent.pageNum + ent.npages ≤ 2 ^ app.addrBits / naclPagesize ∧
      platform.size.wrap (ent.pageNum + ent.npages) =
        ent.pageNum + ent.npages ∧
      platform.size.wrap ((ent.pageNum + ent.npages) * 2 ^ naclPageshift) =
        (ent.pageNum + ent.npages) * naclPagesize := by
  obtain ⟨positive, below⟩ := placed ent member
  have sizes := app.toMmapApp.small
  have bytes := Nat.div_mul_le_self (2 ^ app.addrBits) naclPagesize
  unfold appPages at below
  refine ⟨positive, below, ?_, ?_⟩
  · apply WordSize.wrap_of_lt
    unfold naclPagesize at below bytes
    omega
  · apply WordSize.wrap_of_lt
    unfold naclPagesize at below bytes
    unfold naclPageshift
    omega

theorem raiseBreak_raised
    (invariant : BreakInvariant app) (above : app.breakAddr < newBreak)
    (small : newBreak < 2 ^ app.addrBits) :
    Raised world app newBreak (raiseBreak qsort world app newBreak) := by
  obtain ⟨mapSmall, space⟩ := appPages_le app.toMmapApp
  have sizes := app.toMmapApp.small
  have dataPos := invariant.dataPos
  have dataLe := invariant.dataLe
  obtain ⟨rounded, pages, roundedLe, lastBelow⟩ :=
    roundedPage_bounds invariant small (by omega)
  have roundedPos : 0 < roundedPage newBreak := by omega
  have oldLast : platform.size.sub app.breakAddr 1 / 2 ^ naclPageshift =
      lastPageBelow app.breakAddr := by
    rw [WordSize.sub_of_le _ (by omega) (by omega)]
    rfl
  have newLast : platform.size.sub newBreak 1 / 2 ^ naclPageshift =
      lastPageBelow newBreak := by
    rw [WordSize.sub_of_le _ (by omega) (by omega)]
    rfl
  have lastInternal : platform.size.sub
      (naClRoundAllocPage platform.size newBreak) 1 / 2 ^ naclPageshift =
        roundedPage newBreak - 1 := by
    rw [rounded, pages, WordSize.sub_of_le _ (by
      unfold naclPagesize
      omega) (by omega)]
    unfold naclPagesize naclPageshift
    omega
  obtain ⟨iter, found, position⟩ := @naClVmmapFindPageIter_cases platform.size
    qsort _ _ invariant.map mapSmall space invariant.nonnull
    (lastPageBelow app.breakAddr)
  have breakToSys := @AddressSpace.naClUserToSys_eq app.space _ app.allocated
    (show 0 < app.breakAddr by omega) invariant.breakHigh
  rw [raiseBreak, breakToSys]
  simp only [Option.bind_eq_bind, Option.bind_some, oldLast, newLast,
    lastInternal, found]
  rcases position with ⟨atEnd, absent⟩ |
    ⟨notEnd, front, ent, back, entryAt, index, covers⟩
  · rw [if_pos atEnd]
    exact Raised.missing absent
  have slot : naClVmmapIterStar iter = some ent := by
    rw [naClVmmapIterStar, entryAt.slots, index, deref, List.getElem?_map,
      List.getElem?_append_right (Nat.le_refl _), Nat.sub_self]
    rfl
  obtain ⟨positive, below, endWrap, startWrap⟩ :=
    @entry_bounds platform app _ ent entryAt.map.placed entryAt.mem
  rw [if_neg (by rw [notEnd]; exact Bool.false_ne_true), slot, Option.bind_some,
    endWrap]
  split
  · next inside => exact Raised.within entryAt covers inside
  next outside =>
  rw [entryAt.next_blocks rfl index, Option.bind_some]
  split
  · next blocks =>
      refine Raised.blocked entryAt covers (Nat.le_of_not_lt outside) ?_
      cases back with
      | nil => cases blocks
      | cons first rest =>
          have starts : first.pageNum ≤ roundedPage newBreak - 1 :=
            of_decide_eq_true blocks
          exact ⟨first, List.mem_cons_self, by omega⟩
  next free =>
  have starts : (ent.pageNum + ent.npages) * naclPagesize < 2 ^ app.addrBits := by
    unfold lastPageBelow naclPagesize at *
    omega
  have stopWrap : platform.size.wrap
      (platform.size.wrap (roundedPage newBreak - 1 + 1) * 2 ^ naclPageshift) =
        roundedPage newBreak * naclPagesize := by
    have inner : platform.size.wrap (roundedPage newBreak) =
        roundedPage newBreak := by
      apply WordSize.wrap_of_lt
      unfold naclPagesize at pages
      omega
    rw [Nat.sub_add_cancel roundedPos, inner]
    apply WordSize.wrap_of_lt
    unfold naclPageshift
    unfold naclPagesize at pages
    omega
  have extensible : Extensible (appPages app.toMmapApp) ent back
      (roundedPage newBreak) := by
    refine ⟨by omega, ?_, ?_⟩
    · intro next member
      cases back with
      | nil => cases member
      | cons first rest =>
          have behind : ¬ first.pageNum ≤ roundedPage newBreak - 1 := by
            simpa using free
          have row := entryAt.row
          rw [InRow, List.pairwise_append] at row
          obtain ⟨-, others, -⟩ := row
          obtain ⟨-, others⟩ := List.pairwise_cons.mp others
          obtain ⟨later, -⟩ := List.pairwise_cons.mp others
          rcases List.mem_cons.mp member with rfl | inRest
          · omega
          · have ordered := later next inRest
            omega
    · unfold appPages
      rw [Nat.le_div_iff_mul_le (by decide), ← pages]
      exact roundedLe
  have toSys := @AddressSpace.naClUserToSys_eq
    { app with memMap := iter.vmmap }.space _ app.allocated
    (show 0 < (ent.pageNum + ent.npages) * naclPagesize by
      unfold naclPagesize
      omega) starts
  rw [startWrap, stopWrap, toSys, Option.bind_some]
  have longer := extensible.longer
  have count : platform.size.wrap
      (platform.size.sub (roundedPage newBreak - 1) ent.pageNum + 1) =
        roundedPage newBreak - ent.pageNum := by
    unfold naclPagesize at pages
    rw [WordSize.sub_of_le _ (by omega) (by omega),
      WordSize.wrap_of_lt (by omega)]
    omega
  have regionSize : platform.size.sub (roundedPage newBreak * naclPagesize)
      ((ent.pageNum + ent.npages) * naclPagesize) =
        (roundedPage newBreak - (ent.pageNum + ent.npages)) * naclPagesize := by
    rw [WordSize.sub_of_le _ (Nat.mul_le_mul_right _ longer) (by omega),
      Nat.sub_mul]
  split
  · next denied =>
      have member : ent ∈ entries app.memMap :=
        entryAt.isSorted.perm.mem_iff.mp entryAt.mem
      exact Raised.refused member covers denied
  · rw [count, index, entryAt.set_eq (roundedPage newBreak), regionSize]
    exact Raised.extended entryAt covers (Nat.le_of_not_lt outside) extensible

end Raise

/-! ## When the heap stays readable and writable -/

section Heap

variable {platform : Platform} {qsort : QSort VmmapEntry}
  {world : BreakWorld} {app : BreakApp platform} {newBreak : Nat}

def HeapProt (prot : Int) : Prop :=
  prot % 2 = 1 ∧ prot / 2 % 2 = 1 ∧ prot / 4 % 2 = 0

/-- The pages from `lower` up to `upper` were in no entry before, are made
readable and writable, and are the only ones that change. -/
structure ChangesOnly (app : BreakApp platform) (outcome : BreakOutcome platform)
    (lower upper : Nat) : Prop where
  outside : ∀ page, ¬ InRange lower upper page →
    pageMap outcome.app.memMap page = pageMap app.memMap page
  free : ∀ page, InRange lower upper page → pageMap app.memMap page = none
  mprotected : outcome.mprotected =
    if lower < upper then
      some (app.memStart + lower * naclPagesize, (upper - lower) * naclPagesize)
    else
      none

structure BreakKeeps (app : BreakApp platform)
    (outcome : BreakOutcome platform) : Prop where
  disjoint : EntriesDisjoint outcome.app.memMap
  heap : ∀ address, app.breakAddr ≤ address →
    address < outcome.app.breakAddr →
      ∃ entry ∈ entries outcome.app.memMap,
        entry.Covers (address / naclPagesize) ∧ HeapProt entry.prot
  unchanged : ∃ lower upper, ChangesOnly app outcome lower upper

def BreakSound (qsort : QSort VmmapEntry) (world : BreakWorld)
    (app : BreakApp platform) (newBreak : Nat) : Prop :=
  ∃ outcome, naClSetBreak qsort world app newBreak = some outcome ∧
    BreakKeeps app outcome

def RaisesBreak (world : BreakWorld) (app : BreakApp platform)
    (newBreak : Nat) : Prop :=
  app.space.naClUserToSysAddr newBreak ≠ app.space.kNaClBadAddress ∧
  world.locked = true ∧
    app.breakAddr < newBreak

def BlockedBehind (app : BreakApp platform) (newBreak : Nat)
    (entry : VmmapEntry) : Prop :=
  entry.pageNum + entry.npages ≤ lastPageBelow newBreak ∧
    ∃ next ∈ entries app.memMap,
      entry.pageNum + entry.npages ≤ next.pageNum ∧
        next.pageNum < roundedPage newBreak

def HeapReady (app : BreakApp platform) (newBreak : Nat) : Prop :=
  ∃ entry ∈ entries app.memMap,
    entry.Covers (lastPageBelow app.breakAddr) ∧
      (HeapProt entry.prot ∨ BlockedBehind app newBreak entry)

theorem BreakKeeps.of_same
    (invariant : BreakInvariant app) {result breakAddr : Nat}
    (le : breakAddr ≤ app.breakAddr) :
    BreakKeeps app ⟨result, { app with breakAddr := breakAddr }, none⟩ := by
  refine ⟨invariant.map.invariant.disjoint, ?_, 0, 0, fun _ _ => rfl, ?_, rfl⟩
  · intro address above below
    change address < breakAddr at below
    omega
  · rintro page ⟨-, below⟩
    omega

section Entry

variable {sorted : Vmmap} {front back : List VmmapEntry} {ent : VmmapEntry}
  (entryAt : EntryAt platform.size (appPages app.toMmapApp) app.memMap sorted
    front ent back)

include entryAt

theorem blockedBehind_iff
    (outside : ent.pageNum + ent.npages ≤ lastPageBelow newBreak) :
    BlockedBehind app newBreak ent ↔
      ∃ next ∈ back, next.pageNum < roundedPage newBreak := by
  have row := entryAt.row
  rw [InRow, List.pairwise_append] at row
  obtain ⟨-, rest, lower⟩ := row
  obtain ⟨upper, -⟩ := List.pairwise_cons.mp rest
  constructor
  · rintro ⟨-, next, member, behind, starts⟩
    have inSorted := entryAt.isSorted.perm.mem_iff.mpr member
    rw [entryAt.entries_eq] at inSorted
    have positive := (entryAt.map.placed ent entryAt.mem).1
    rcases List.mem_append.mp inSorted with inFront | inRest
    · have ended := lower next inFront ent List.mem_cons_self
      omega
    · rcases List.mem_cons.mp inRest with rfl | inBack
      · omega
      · exact ⟨next, inBack, starts⟩
  · rintro ⟨next, inBack, starts⟩
    refine ⟨outside, next, entryAt.isSorted.perm.mem_iff.mp ?_,
      upper next inBack, starts⟩
    rw [entryAt.entries_eq]
    exact List.mem_append_right _ (List.mem_cons_of_mem _ inBack)

theorem heapReady_iff
    (covers : ent.Covers (lastPageBelow app.breakAddr)) :
    HeapReady app newBreak ↔
      HeapProt ent.prot ∨ BlockedBehind app newBreak ent := by
  constructor
  · rintro ⟨entry, member, alsoCovers, ready⟩
    have inSorted := entryAt.isSorted.perm.mem_iff.mpr member
    rwa [entryAt.map.invariant.disjoint.unique inSorted entryAt.mem alsoCovers
      covers] at ready
  · intro ready
    exact ⟨ent, entryAt.isSorted.perm.mem_iff.mp entryAt.mem, covers, ready⟩

theorem within_iff
    (above : app.breakAddr < newBreak)
    (covers : ent.Covers (lastPageBelow app.breakAddr))
    (inside : lastPageBelow newBreak < ent.pageNum + ent.npages) :
    BreakKeeps app
        ⟨newBreak, { app with memMap := sorted, breakAddr := newBreak }, none⟩ ↔
      HeapReady app newBreak := by
  have disjoint := entryAt.map.invariant.disjoint
  have starts := covers.1
  rw [heapReady_iff entryAt covers]
  constructor
  · intro keeps
    obtain ⟨entry, member, alsoCovers, ready⟩ :=
      keeps.heap (newBreak - 1) (Nat.le_sub_one_of_lt above)
        (show newBreak - 1 < newBreak by omega)
    have last : ent.Covers ((newBreak - 1) / naclPagesize) := by
      refine ⟨Nat.le_trans starts ?_, inside⟩
      exact Nat.div_le_div_right (by omega)
    rw [disjoint.unique member entryAt.mem alsoCovers last] at ready
    exact .inl ready
  · rintro (ready | ⟨outside, -⟩)
    · refine ⟨disjoint, ?_, 0, 0, fun page _ => entryAt.isSorted.pages page, ?_,
        rfl⟩
      · intro address atLeast below
        change address < newBreak at below
        refine ⟨ent, entryAt.mem, ⟨Nat.le_trans starts ?_, ?_⟩, ready⟩
        · exact Nat.div_le_div_right (by omega)
        · refine Nat.lt_of_le_of_lt ?_ inside
          exact Nat.div_le_div_right (by omega)
      · rintro page ⟨-, below⟩
        omega
    · omega

theorem blocked_keeps :
    BreakKeeps app ⟨app.breakAddr, { app with memMap := sorted }, none⟩ := by
  refine ⟨entryAt.map.invariant.disjoint, ?_, 0, 0,
    fun page _ => entryAt.isSorted.pages page, ?_, rfl⟩
  · intro address atLeast below
    change address < app.breakAddr at below
    omega
  · rintro page ⟨-, below⟩
    omega

theorem extended_iff
    (invariant : BreakInvariant app) (above : app.breakAddr < newBreak)
    (small : newBreak < 2 ^ app.addrBits)
    (covers : ent.Covers (lastPageBelow app.breakAddr))
    (outside : ent.pageNum + ent.npages ≤ lastPageBelow newBreak)
    (extensible : Extensible (appPages app.toMmapApp) ent back
      (roundedPage newBreak)) :
    BreakKeeps app ⟨newBreak,
        { app with
          memMap := extendEntry sorted front ent back (roundedPage newBreak)
          breakAddr := newBreak },
        some (app.memStart + (ent.pageNum + ent.npages) * naclPagesize,
          (roundedPage newBreak - (ent.pageNum + ent.npages)) * naclPagesize)⟩ ↔
      HeapReady app newBreak := by
  obtain ⟨-, -, -, lastBelow⟩ := roundedPage_bounds invariant small (by omega)
  obtain ⟨-, space⟩ := appPages_le app.toMmapApp
  have map := entryAt.extend_map space extensible
  have disjoint := map.invariant.disjoint
  have member : ent.upTo (roundedPage newBreak) ∈
      entries (extendEntry sorted front ent back (roundedPage newBreak)) := by
    rw [entries_of_map rfl]
    exact List.mem_append_right _ List.mem_cons_self
  have coversUpTo : ∀ address, app.breakAddr ≤ address → address < newBreak →
      (ent.upTo (roundedPage newBreak)).Covers (address / naclPagesize) := by
    intro address atLeast below
    have first : lastPageBelow app.breakAddr ≤ address / naclPagesize :=
      Nat.div_le_div_right (by omega)
    have last : address / naclPagesize ≤ lastPageBelow newBreak :=
      Nat.div_le_div_right (by omega)
    have starts := covers.1
    have longer := extensible.longer
    refine ⟨Nat.le_trans starts first, ?_⟩
    change address / naclPagesize < ent.pageNum + (roundedPage newBreak - ent.pageNum)
    omega
  rw [heapReady_iff entryAt covers]
  constructor
  · intro keeps
    obtain ⟨entry, inMap, alsoCovers, ready⟩ :=
      keeps.heap (newBreak - 1) (Nat.le_sub_one_of_lt above)
        (show newBreak - 1 < newBreak by omega)
    have last := coversUpTo (newBreak - 1) (by omega) (by omega)
    rw [disjoint.unique inMap member alsoCovers last] at ready
    exact .inl ready
  · rintro (ready | blocked)
    · refine ⟨disjoint, ?_, ent.pageNum + ent.npages, roundedPage newBreak,
        ?_, ?_, ?_⟩
      · intro address atLeast below
        exact ⟨_, member, coversUpTo address atLeast below, ready⟩
      · intro page notGained
        exact (entryAt.extend_pages extensible page).trans (if_neg notGained)
      · intro page gained
        exact entryAt.gained_free extensible gained
      · rw [if_pos (by omega)]
    · -- Nothing stands in the pages that were gained.
      obtain ⟨next, inBack, starts⟩ :=
        (blockedBehind_iff entryAt outside).mp blocked
      have before := extensible.before next inBack
      omega

end Entry

theorem Raised.sound_iff
    {result : Option (BreakOutcome platform)} (invariant : BreakInvariant app)
    (above : app.breakAddr < newBreak) (small : newBreak < 2 ^ app.addrBits)
    (willing : world.mprotect = true)
    (raised : Raised world app newBreak result) :
    (∃ outcome, result = some outcome ∧ BreakKeeps app outcome) ↔
      HeapReady app newBreak := by
  have single : ∀ outcome, (∃ other, some outcome = some other ∧
      BreakKeeps app other) ↔ BreakKeeps app outcome := by
    intro outcome
    constructor
    · rintro ⟨other, same, keeps⟩
      cases same
      exact keeps
    · intro keeps
      exact ⟨outcome, rfl, keeps⟩
  cases raised with
  | missing absent =>
      constructor
      · rintro ⟨outcome, stopped, -⟩
        cases stopped
      · rintro ⟨entry, member, covers, -⟩
        exact absurd covers (absent entry member)
  | within entryAt covers inside =>
      exact (single _).trans (within_iff entryAt above covers inside)
  | blocked entryAt covers outside behind =>
      rw [single, heapReady_iff entryAt covers,
        blockedBehind_iff entryAt outside]
      exact iff_of_true (blocked_keeps entryAt) (.inr behind)
  | refused member covers denied =>
      rw [willing] at denied
      cases denied
  | extended entryAt covers outside extensible =>
      exact (single _).trans (extended_iff entryAt invariant above small covers
        outside extensible)

/-! ## One call -/

theorem naClSetBreak_raises
    (invariant : BreakInvariant app) (raises : RaisesBreak world app newBreak) :
    naClSetBreak qsort world app newBreak =
      raiseBreak qsort world app newBreak := by
  obtain ⟨known, locked, above⟩ := raises
  have dataLe := invariant.dataLe
  rw [naClSetBreak, if_neg known, locked, if_neg Bool.false_ne_true.symm,
    if_neg (by omega), if_neg (by omega)]

theorem naClSetBreak_not_raises
    (invariant : BreakInvariant app)
    (keeps : ¬ RaisesBreak world app newBreak) :
    ∃ breakAddr, app.dataEnd ≤ breakAddr ∧ breakAddr ≤ app.breakAddr ∧
      naClSetBreak qsort world app newBreak =
        some ⟨breakAddr, { app with breakAddr := breakAddr }, none⟩ := by
  have dataLe := invariant.dataLe
  unfold naClSetBreak
  split
  · exact ⟨app.breakAddr, dataLe, Nat.le_refl _, rfl⟩
  next known =>
  split
  · exact ⟨app.breakAddr, dataLe, Nat.le_refl _, rfl⟩
  next locked =>
  split
  · exact ⟨app.breakAddr, dataLe, Nat.le_refl _, rfl⟩
  next atLeast =>
  split
  · next atMost => exact ⟨newBreak, Nat.le_of_not_lt atLeast, atMost, rfl⟩
  next above =>
    refine absurd ⟨known, ?_, Nat.lt_of_not_le above⟩ keeps
    exact Bool.eq_true_of_not_eq_false locked

theorem breakSound_iff
    (invariant : BreakInvariant app) (willing : world.mprotect = true) :
    BreakSound qsort world app newBreak ↔
      (RaisesBreak world app newBreak → HeapReady app newBreak) := by
  by_cases raises : RaisesBreak world app newBreak
  · have small := AddressSpace.naClUserToSysAddr_good raises.1
    have raised := @raiseBreak_raised platform qsort world app newBreak invariant
      raises.2.2 small
    rw [BreakSound, naClSetBreak_raises invariant raises,
      raised.sound_iff invariant raises.2.2 small willing]
    exact ⟨fun ready _ => ready, fun ready => ready raises⟩
  · obtain ⟨breakAddr, -, le, run⟩ :=
      @naClSetBreak_not_raises platform qsort world app newBreak invariant raises
    refine iff_of_true ⟨_, run, BreakKeeps.of_same invariant le⟩ ?_
    intro raisesBreak
    exact absurd raisesBreak raises

end Heap

end NativeClient.Runtime
