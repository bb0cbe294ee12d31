import NativeClient.Library.Gaps
import NativeClient.Runtime.PageLookup

/-!
# The search for free space

Three searches look for a gap between neighbouring entries.  Two of them round
the ends of a gap to whole map units, and one of these starts from a hint.  A
hint that is not the address of a map unit, and lies in a gap with enough room,
is itself the result.
-/

namespace NativeClient.Runtime

open NativeClient.Library

section Calls

variable (size : WordSize)

/-- The loop of `NaClVmmapFindSpace`; the first argument is the index of the
upper neighbour. -/
def findSpaceLoop (vmentry : List (Option VmmapEntry)) (numPages : Nat) :
    Nat → Option Nat
  | 0 => some 0
  | index + 1 => do
      let vmep ← deref vmentry index
      let endPage := size.wrap (vmep.pageNum + vmep.npages)
      let current ← deref vmentry (index + 1)
      let startPage := current.pageNum
      if numPages ≤ size.sub startPage endPage then
        some (size.sub startPage numPages)
      else
        findSpaceLoop vmentry numPages index

variable (qsort : QSort VmmapEntry)

def naClVmmapFindSpace (self : Vmmap) (numPages : Nat) : Option (Nat × Vmmap) :=
  if nvalid self = 0 then
    some (0, self)
  else do
    let self ← naClVmmapMakeSorted size qsort self
    let page ← findSpaceLoop size self.vmentry numPages (nvalid self - 1)
    some (page, self)

end Calls

/-! ## What a search is to find -/

def endPage (entry : VmmapEntry) : Nat := entry.pageNum + entry.npages

def unitStart (entry : VmmapEntry) : Nat :=
  naClTruncPageNumDownToMapMultiple entry.pageNum

def unitEnd (size : WordSize) (entry : VmmapEntry) : Nat :=
  naClRoundPageNumUpToMapMultiple size (size.wrap (endPage entry))

def unitPages (numPages : Nat) : Nat :=
  (numPages + (pagesPerMap - 1)) / pagesPerMap * pagesPerMap

def FreeBetween (map : Vmmap) (page numPages : Nat) : Prop :=
  Between VmmapEntry.pageNum endPage (entries map) page numPages

def FreeUnits (map : Vmmap) (numPages page : Nat) : Prop :=
  pagesPerMap ∣ page ∧ FreeBetween map page (unitPages numPages)

def SearchExact (wanted : Nat → Prop) (result : Option (Nat × Vmmap)) : Prop :=
  ∃ page next, result = some (page, next) ∧ (page ≠ 0 → wanted page) ∧
    (page = 0 → ∀ other, ¬ wanted other)

def HintHasRoom (size : WordSize) (map : Vmmap) (uaddr numPages : Nat) : Prop :=
  Between unitStart (unitEnd size) (entries map) (uaddr / 2 ^ naclPageshift)
    (unitPages numPages)

section Loops

variable {size : WordSize} {items : List VmmapEntry} {numPages : Nat}

private theorem deref_items
    {items : List VmmapEntry} {index : Nat} (inside : index < items.length) :
    deref (items.map some) index = some items[index] := by
  rw [deref, List.getElem?_map, List.getElem?_eq_getElem inside]
  rfl

theorem alignedGap_eq (before behind : VmmapEntry) :
    alignedGap size before behind = (unitEnd size before, unitStart behind) :=
  rfl

structure RowInSpace (size : WordSize) (items : List VmmapEntry) : Prop where
  row : InRow items
  positive : ∀ entry ∈ items, 0 < entry.npages
  inSpace : ∀ entry ∈ items, InSpace size entry.pageNum entry.npages

theorem RowInSpace.inOrder (row : RowInSpace size items) :
    InOrder VmmapEntry.pageNum endPage items := by
  constructor
  · intro entry member
    have positive := row.positive entry member
    rw [endPage]
    omega
  · refine row.row.imp_of_mem ?_
    intro left right _ _ before
    rw [endPage, endPage]
    omega

private theorem units_small
    {entry : VmmapEntry} (space : InSpace size entry.pageNum entry.npages) :
    endPage entry + pagesPerMap ≤ 2 ^ size.bits := by
  have word : 2 ^ size.bits = 2 ^ (size.bits - naclPageshift) * 2 ^ 12 := by
    rcases size.word with word | word <;> rw [word] <;> decide
  have positive : 0 < 2 ^ (size.bits - naclPageshift) := Nat.two_pow_pos _
  rw [InSpace] at space
  rw [endPage]
  unfold pagesPerMap
  omega

theorem unitEnd_eq
    {entry : VmmapEntry} (space : InSpace size entry.pageNum entry.npages) :
    unitEnd size entry = unitPages (endPage entry) := by
  have small := units_small space
  rw [unitEnd, endPage, space.wrap_end, naClRoundPageNumUpToMapMultiple,
    size.wrap_of_lt]
  · rfl
  · rw [endPage] at small
    unfold pagesPerMap at small ⊢
    omega

theorem unitPages_le_iff
    {pages bound : Nat} (aligned : pagesPerMap ∣ bound) :
    unitPages pages ≤ bound ↔ pages ≤ bound := by
  unfold unitPages pagesPerMap at *
  omega

theorem le_trunc_iff
    {pages bound : Nat} (aligned : pagesPerMap ∣ bound) :
    bound ≤ naClTruncPageNumDownToMapMultiple pages ↔ bound ≤ pages := by
  unfold naClTruncPageNumDownToMapMultiple pagesPerMap at *
  omega

theorem dvd_unitPages (pages : Nat) : pagesPerMap ∣ unitPages pages :=
  Nat.dvd_mul_left _ _

theorem unitPages_pos {pages : Nat} (positive : 0 < pages) :
    0 < unitPages pages := by
  unfold unitPages pagesPerMap
  omega

theorem RowInSpace.unitsInOrder (row : RowInSpace size items) :
    InOrder unitStart (unitEnd size) items := by
  constructor
  · intro entry member
    have positive := row.positive entry member
    rw [unitEnd_eq (row.inSpace entry member), unitStart]
    unfold naClTruncPageNumDownToMapMultiple unitPages pagesPerMap endPage
    omega
  · refine row.row.imp_of_mem ?_
    intro left right leftMember rightMember before
    rw [unitEnd_eq (row.inSpace left leftMember),
      unitEnd_eq (row.inSpace right rightMember), unitStart, unitStart]
    unfold naClTruncPageNumDownToMapMultiple unitPages pagesPerMap endPage
    omega

theorem RowInSpace.fitsAt_units_iff
    (row : RowInSpace size items) {index page : Nat}
    (aligned : pagesPerMap ∣ page) (whole : pagesPerMap ∣ numPages) :
    FitsAt unitStart (unitEnd size) items index page numPages ↔
      FitsAt VmmapEntry.pageNum endPage items index page numPages := by
  have bounds (left right : VmmapEntry) (leftAt : items[index]? = some left) :
      unitEnd size left ≤ page ∧ page + numPages ≤ unitStart right ↔
        endPage left ≤ page ∧ page + numPages ≤ right.pageNum := by
    rw [unitEnd_eq (row.inSpace left (List.mem_of_getElem? leftAt)),
      unitPages_le_iff aligned, unitStart,
      le_trunc_iff (Nat.dvd_add aligned whole)]
  constructor
  · rintro ⟨left, right, leftAt, rightAt, fits⟩
    exact ⟨left, right, leftAt, rightAt, (bounds left right leftAt).mp fits⟩
  · rintro ⟨left, right, leftAt, rightAt, fits⟩
    exact ⟨left, right, leftAt, rightAt, (bounds left right leftAt).mpr fits⟩

private theorem fitsAt_getElem
    {starts ends : VmmapEntry → Nat} {index page : Nat}
    (inside : index + 1 < items.length)
    (above : ends items[index] ≤ page)
    (below : page + numPages ≤ starts items[index + 1]) :
    FitsAt starts ends items index page numPages :=
  ⟨_, _, List.getElem?_eq_getElem _, List.getElem?_eq_getElem inside, above,
    below⟩

private theorem not_fitsAt_getElem
    {starts ends : VmmapEntry → Nat} {index : Nat}
    (inside : index + 1 < items.length)
    (full : starts items[index + 1] < ends items[index] + numPages)
    (page : Nat) : ¬ FitsAt starts ends items index page numPages := by
  rintro ⟨left, right, leftAt, rightAt, above, below⟩
  rw [List.getElem?_eq_getElem (by omega)] at leftAt
  rw [List.getElem?_eq_getElem inside] at rightAt
  rw [← Option.some.inj leftAt] at above
  rw [← Option.some.inj rightAt] at below
  omega

/-- What a search has found when the upper neighbours from `index` on have been
looked at. -/
def Searched (start finish : VmmapEntry → Nat) (items : List VmmapEntry)
    (numPages : Nat) (good : Nat → Prop) (index page : Nat) : Prop :=
  page = 0 ∧ (∀ place < index, ∀ other,
      ¬ FitsAt start finish items place other numPages) ∨
    good page ∧ ∃ place < index, FitsAt start finish items place page numPages

section Searched

variable {start finish : VmmapEntry → Nat} {good : Nat → Prop}
  {index page : Nat}

theorem Searched.zero : Searched start finish items numPages good 0 0 := by
  refine .inl ⟨rfl, ?_⟩
  intro place below
  exact absurd below (Nat.not_lt_zero _)

theorem Searched.further
    (searched : Searched start finish items numPages good index page)
    (inside : index + 1 < items.length)
    (full : start items[index + 1] < finish items[index] + numPages) :
    Searched start finish items numPages good (index + 1) page := by
  rcases searched with ⟨zero, noGap⟩ | ⟨fine, place, below, fits⟩
  · refine .inl ⟨zero, ?_⟩
    intro place below
    rcases Nat.lt_succ_iff_lt_or_eq.mp below with earlier | rfl
    · exact noGap place earlier
    · exact not_fitsAt_getElem inside full
  · exact .inr ⟨fine, place, Nat.lt_succ_of_lt below, fits⟩

end Searched

theorem findSpaceLoop_exact
    (row : RowInSpace size items) {index : Nat} (inside : index < items.length) :
    ∃ page, findSpaceLoop size (items.map some) numPages index = some page ∧
      Searched VmmapEntry.pageNum endPage items numPages (fun _ => True) index
        page := by
  induction index with
  | zero => exact ⟨0, rfl, .zero⟩
  | succ index ih =>
      have before : index < items.length := by omega
      have leftSpace := row.inSpace items[index] (List.getElem_mem before)
      have rightSpace := row.inSpace items[index + 1] (List.getElem_mem inside)
      have inRow := List.pairwise_iff_getElem.mp row.row index (index + 1)
        before inside (Nat.lt_succ_self _)
      have word := InSpace.pages_lt size
      rw [InSpace] at rightSpace
      have gap : size.sub items[index + 1].pageNum
          (items[index].pageNum + items[index].npages) =
          items[index + 1].pageNum - endPage items[index] :=
        size.sub_of_le inRow (by omega)
      rw [findSpaceLoop, deref_items before, Option.bind_eq_bind,
        Option.bind_some, deref_items inside, Option.bind_some,
        leftSpace.wrap_end]
      dsimp only
      rw [gap]
      split
      · next fits =>
          have result : size.sub items[index + 1].pageNum numPages =
              items[index + 1].pageNum - numPages :=
            size.sub_of_le (by omega) (by omega)
          rw [result]
          refine ⟨_, rfl, .inr ⟨trivial, index, Nat.lt_succ_self _, ?_⟩⟩
          rw [endPage] at fits
          refine fitsAt_getElem inside ?_ ?_
          · rw [endPage]
            omega
          · omega
      · next full =>
          obtain ⟨page, run, searched⟩ := ih before
          exact ⟨page, run, searched.further inside (by omega)⟩

theorem findMapSpaceLoop_exact
    (positive : 0 < numPages) (whole : pagesPerMap ∣ numPages) {index : Nat}
    (inside : index < items.length) :
    ∃ page, findMapSpaceLoop size (items.map some) numPages index = some page ∧
      Searched unitStart (unitEnd size) items numPages (pagesPerMap ∣ ·) index
        page := by
  induction index with
  | zero => exact ⟨0, rfl, .zero⟩
  | succ index ih =>
      have before : index < items.length := by omega
      obtain ⟨below, run, searched⟩ := ih before
      rw [findMapSpaceLoop, deref_items before, Option.bind_eq_bind,
        Option.bind_some, deref_items inside, Option.bind_some, alignedGap_eq]
      dsimp only
      split
      · exact ⟨below, run, searched.further inside (by omega)⟩
      split
      · next gap fits =>
          have aligned : pagesPerMap ∣ unitStart items[index + 1] :=
            Nat.dvd_mul_left _ _
          refine ⟨_, rfl, .inr ⟨Nat.dvd_sub aligned whole, index,
            Nat.lt_succ_self _, fitsAt_getElem inside ?_ ?_⟩⟩ <;> omega
      · exact ⟨below, run, searched.further inside (by omega)⟩

theorem findMapSpaceAboveHintLoop_exact
    (inOrder : InOrder unitStart (unitEnd size) items)
    (positive : 0 < numPages) {usrPage left index : Nat}
    (rest : left + (index + 1) = items.length) :
    ∃ page, findMapSpaceAboveHintLoop size (items.map some) usrPage numPages
        left (index + 1) = some page ∧
      (page = 0 ∧ (∀ place, index ≤ place → ∀ other, usrPage ≤ other →
          ¬ FitsAt unitStart (unitEnd size) items place other numPages) ∨
        (∃ place, FitsAt unitStart (unitEnd size) items place page numPages) ∧
          (page = usrPage ∨ usrPage < page ∧ pagesPerMap ∣ page ∧
            ∀ place, index ≤ place →
              ¬ FitsAt unitStart (unitEnd size) items place usrPage
                numPages)) := by
  induction left generalizing index with
  | zero =>
      refine ⟨0, rfl, .inl ⟨rfl, ?_⟩⟩
      rintro place above other - ⟨left, right, leftAt, rightAt, -⟩
      rw [List.getElem?_eq_none (by omega)] at rightAt
      cases rightAt
  | succ left ih =>
      have before : index < items.length := by omega
      have inside : index + 1 < items.length := by omega
      have further (full : ∀ other, usrPage ≤ other →
          ¬ FitsAt unitStart (unitEnd size) items index other numPages) :
          ∃ page, findMapSpaceAboveHintLoop size (items.map some) usrPage
              numPages left (index + 1 + 1) = some page ∧
            (page = 0 ∧ (∀ place, index ≤ place → ∀ other, usrPage ≤ other →
                ¬ FitsAt unitStart (unitEnd size) items place other
                  numPages) ∨
              (∃ place, FitsAt unitStart (unitEnd size) items place page
                  numPages) ∧
                (page = usrPage ∨ usrPage < page ∧ pagesPerMap ∣ page ∧
                  ∀ place, index ≤ place →
                    ¬ FitsAt unitStart (unitEnd size) items place usrPage
                      numPages)) := by
        obtain ⟨page, run, found⟩ := @ih (index + 1) (by omega)
        refine ⟨page, run, ?_⟩
        rcases found with ⟨zero, noGap⟩ | ⟨fits, rfl | ⟨above, aligned, noGap⟩⟩
        · refine .inl ⟨zero, ?_⟩
          intro place least
          rcases Nat.eq_or_lt_of_le least with rfl | later
          · exact full
          · exact noGap place later
        · exact .inr ⟨fits, .inl rfl⟩
        · refine .inr ⟨fits, .inr ⟨above, aligned, ?_⟩⟩
          intro place least
          rcases Nat.eq_or_lt_of_le least with rfl | later
          · exact full usrPage (Nat.le_refl _)
          · exact noGap place later
      rw [findMapSpaceAboveHintLoop, Nat.add_sub_cancel, deref_items before,
        Option.bind_eq_bind, Option.bind_some, deref_items inside,
        Option.bind_some, alignedGap_eq]
      dsimp only
      split
      · refine further ?_
        intro other _
        exact not_fitsAt_getElem inside (by omega) other
      next gap =>
      have below (other : Nat) (above : usrPage ≤ other)
          (full : unitStart items[index + 1] < other + numPages) :
          ¬ FitsAt unitStart (unitEnd size) items index other numPages := by
        rintro ⟨left, right, leftAt, rightAt, -, ends⟩
        rw [List.getElem?_eq_getElem inside] at rightAt
        rw [← Option.some.inj rightAt] at ends
        omega
      split
      · next hint =>
          split
          · next fits =>
              exact ⟨usrPage, rfl, .inr ⟨⟨index, fitsAt_getElem inside hint.1
                (by omega)⟩, .inl rfl⟩⟩
          · next noRoom =>
              refine further ?_
              intro other above
              exact below other above (by omega)
      · next apart =>
          split
          · next fits =>
              have aligned : pagesPerMap ∣ unitEnd size items[index] :=
                dvd_roundUp _
              refine ⟨_, rfl, .inr ⟨⟨index, fitsAt_getElem inside
                (Nat.le_refl _) (by omega)⟩, .inr ⟨by omega, aligned, ?_⟩⟩⟩
              rintro place least ⟨left, right, leftAt, -, above, -⟩
              obtain ⟨placeInside, same⟩ := List.getElem?_eq_some_iff.mp leftAt
              rw [← same] at above
              rcases Nat.eq_or_lt_of_le least with rfl | later
              · omega
              · have up := (List.pairwise_iff_getElem.mp inOrder.ordered index
                  place before placeInside later).2
                omega
          · next noRoom =>
              refine further ?_
              intro other above fits
              by_cases behind : unitStart items[index + 1] ≤ usrPage
              · exact below other above (by omega) fits
              · exact not_fitsAt_getElem inside (by omega) other fits

end Loops

section Searches

variable {size : WordSize} {qsort : QSort VmmapEntry} {self next : Vmmap}
  {numPages : Nat}

structure SortedRow (size : WordSize) (map next : Vmmap) : Prop where
  slots : next.vmentry = (entries next).map some
  row : RowInSpace size (entries next)
  same : ∀ entry, entry ∈ entries next ↔ entry ∈ entries map

theorem LookupMap.sorted
    (map : LookupMap size self) (comparable : Comparable self) :
    ∃ next, naClVmmapMakeSorted size qsort self = some next ∧
      SortedRow size self next := by
  obtain ⟨next, sortRun⟩ :=
    @naClVmmapMakeSorted_returns size qsort self map.app.invariant map.nonnull
  obtain ⟨sortedMap, sorted⟩ := naClVmmapMakeSorted_placed map.app sortRun
  have searchable := sortedMap.searchable_of_comparable
    (comparable.of_perm sorted.perm) (Nat.le_refl _) sorted.flag
  refine ⟨next, sortRun, searchable.slots, ⟨searchable.row, ?_,
    sortedMap.invariant.inSpace⟩, fun entry => sorted.perm.mem_iff⟩
  intro entry member
  exact (sortedMap.placed entry member).1

namespace SortedRow

variable (sorted : SortedRow size self next)

include sorted

theorem nvalid_eq :
    nvalid next = (entries next).length := by
  rw [nvalid, sorted.slots, List.length_map]

theorem nonempty
    (some' : nvalid self ≠ 0)
    (nonnull : none ∉ self.vmentry) : 0 < (entries next).length := by
  have slots := vmentry_of_nonnull nonnull
  rw [nvalid, slots, List.length_map] at some'
  obtain ⟨entry, member⟩ :=
    List.exists_mem_of_length_pos (Nat.pos_of_ne_zero some')
  exact List.length_pos_of_mem ((sorted.same entry).mpr member)

theorem freeBetween_iff
    {page : Nat} :
    FreeBetween self page numPages ↔ ∃ index,
      FitsAt VmmapEntry.pageNum endPage (entries next) index page numPages := by
  rw [← between_iff_fitsAt sorted.row.inOrder]
  constructor
  · intro free
    exact free.of_mem_iff fun entry => (sorted.same entry).symm
  · intro free
    exact free.of_mem_iff sorted.same

theorem freeUnits_iff
    {page : Nat} :
    FreeUnits self numPages page ↔ pagesPerMap ∣ page ∧ ∃ index,
      FitsAt unitStart (unitEnd size) (entries next) index page
        (unitPages numPages) := by
  rw [FreeUnits, sorted.freeBetween_iff]
  refine and_congr_right fun aligned => exists_congr fun index => ?_
  exact (sorted.row.fitsAt_units_iff aligned (dvd_unitPages _)).symm

theorem hintHasRoom_iff
    {uaddr : Nat} :
    HintHasRoom size self uaddr numPages ↔ ∃ index,
      FitsAt unitStart (unitEnd size) (entries next) index
        (uaddr / 2 ^ naclPageshift) (unitPages numPages) := by
  rw [← between_iff_fitsAt sorted.row.unitsInOrder]
  constructor
  · intro room
    exact room.of_mem_iff fun entry => (sorted.same entry).symm
  · intro room
    exact room.of_mem_iff sorted.same

theorem searchExact
    {start finish : VmmapEntry → Nat}
    {good free : Nat → Prop} {page : Nat}
    (searched : Searched start finish (entries next) numPages good
      (nvalid next - 1) page)
    (free_iff : ∀ {other}, free other ↔ good other ∧ ∃ index,
      FitsAt start finish (entries next) index other numPages)
    (nonzero : ∀ {other}, free other → other ≠ 0) :
    (page ≠ 0 → free page) ∧ (page = 0 → ∀ other, ¬ free other) := by
  rcases searched with ⟨zero, noGap⟩ | ⟨fine, place, -, fits⟩
  · refine ⟨fun other => absurd zero other, ?_⟩
    intro _ other free
    obtain ⟨-, index, fits⟩ := free_iff.mp free
    refine noGap index ?_ other fits
    obtain ⟨left, right, -, rightAt, -⟩ := fits
    obtain ⟨inside, -⟩ := List.getElem?_eq_some_iff.mp rightAt
    rw [sorted.nvalid_eq]
    omega
  · have free := free_iff.mpr ⟨fine, place, fits⟩
    exact ⟨fun _ => free, fun zero => absurd zero (nonzero free)⟩

end SortedRow

theorem FreeBetween.page_ne_zero
    (map : LookupMap size self) {page : Nat}
    (free : FreeBetween self page numPages) : page ≠ 0 := by
  obtain ⟨entry, member, ended⟩ := free.behind
  have positive := (map.app.placed entry member).1
  rw [endPage] at ended
  omega

theorem not_freeBetween_of_empty
    (empty : nvalid self = 0) (page : Nat) :
    ¬ FreeBetween self page numPages := by
  rintro ⟨⟨entry, member, -⟩, -, -⟩
  rw [entries, List.eq_nil_of_length_eq_zero empty] at member
  cases member

theorem LookupMap.findSpace
    (map : LookupMap size self) (comparable : Comparable self) :
    SearchExact (fun page => FreeBetween self page numPages)
      (naClVmmapFindSpace size qsort self numPages) := by
  rw [naClVmmapFindSpace]
  split
  · next empty =>
      exact ⟨0, self, rfl, fun nonzero => absurd rfl nonzero,
        fun _ page => not_freeBetween_of_empty empty page⟩
  next some' =>
  obtain ⟨next, sortRun, sorted⟩ := @LookupMap.sorted size qsort self map
    comparable
  have nonempty := sorted.nonempty some' map.nonnull
  obtain ⟨page, run, searched⟩ := @findSpaceLoop_exact size (entries next)
    numPages sorted.row (nvalid next - 1) (by rw [sorted.nvalid_eq]; omega)
  rw [← sorted.slots] at run
  refine ⟨page, next, ?_, sorted.searchExact searched ?_
    (FreeBetween.page_ne_zero map)⟩
  · rw [sortRun, Option.bind_eq_bind, Option.bind_some, run]
    rfl
  · intro other
    rw [true_and]
    exact sorted.freeBetween_iff

def MapCount (size : WordSize) (numPages : Nat) : Prop :=
  0 < numPages ∧ numPages + pagesPerMap ≤ 2 ^ size.bits

theorem MapCount.roundUp_eq (count : MapCount size numPages) :
    naClRoundPageNumUpToMapMultiple size numPages = unitPages numPages := by
  have fits := count.2
  rw [naClRoundPageNumUpToMapMultiple, size.wrap_of_lt]
  · rfl
  · unfold pagesPerMap at fits ⊢
    omega

theorem LookupMap.findMapSpace
    (map : LookupMap size self) (comparable : Comparable self)
    (count : MapCount size numPages) :
    SearchExact (FreeUnits self numPages)
      (naClVmmapFindMapSpace size qsort self numPages) := by
  rw [naClVmmapFindMapSpace]
  split
  · next empty =>
      exact ⟨0, self, rfl, fun nonzero => absurd rfl nonzero,
        fun _ page free => not_freeBetween_of_empty empty page free.2⟩
  next some' =>
  obtain ⟨next, sortRun, sorted⟩ := @LookupMap.sorted size qsort self map
    comparable
  have nonempty := sorted.nonempty some' map.nonnull
  obtain ⟨page, run, searched⟩ := @findMapSpaceLoop_exact size (entries next)
    (unitPages numPages) (unitPages_pos count.1) (dvd_unitPages _)
    (nvalid next - 1) (by rw [sorted.nvalid_eq]; omega)
  rw [← sorted.slots] at run
  refine ⟨page, next, ?_, sorted.searchExact searched sorted.freeUnits_iff
    (·.2.page_ne_zero map)⟩
  rw [sortRun, Option.bind_eq_bind, Option.bind_some, count.roundUp_eq]
  dsimp only
  rw [run]
  rfl

def FreeUnitsAbove (map : Vmmap) (uaddr numPages page : Nat) : Prop :=
  FreeUnits map numPages page ∧ uaddr ≤ page * 2 ^ naclPageshift

private theorem hinted_exact
    (sorted : SortedRow size self next) (count : MapCount size numPages)
    (uaddr : Nat) :
    ∃ page, findMapSpaceAboveHintLoop size next.vmentry
        (uaddr / 2 ^ naclPageshift) (unitPages numPages) (nvalid next - 1) 1 =
          some page ∧
      (page = 0 ∧ (∀ index other, uaddr / 2 ^ naclPageshift ≤ other →
          ¬ FitsAt unitStart (unitEnd size) (entries next) index other
            (unitPages numPages)) ∨
        (page ≠ 0 ∧ ∃ index, FitsAt unitStart (unitEnd size) (entries next)
            index page (unitPages numPages)) ∧
          (page = uaddr / 2 ^ naclPageshift ∨
            uaddr / 2 ^ naclPageshift < page ∧ pagesPerMap ∣ page ∧
              ∀ index, ¬ FitsAt unitStart (unitEnd size) (entries next) index
                (uaddr / 2 ^ naclPageshift) (unitPages numPages))) := by
  rw [sorted.slots, sorted.nvalid_eq]
  by_cases empty : (entries next).length = 0
  · rw [empty]
    refine ⟨0, rfl, .inl ⟨rfl, ?_⟩⟩
    rintro index other - ⟨left, right, leftAt, -⟩
    rw [List.eq_nil_of_length_eq_zero empty] at leftAt
    cases leftAt
  obtain ⟨page, run, found⟩ := @findMapSpaceAboveHintLoop_exact size
    (entries next) (unitPages numPages) sorted.row.unitsInOrder
    (unitPages_pos count.1) (uaddr / 2 ^ naclPageshift)
    ((entries next).length - 1) 0 (by omega)
  refine ⟨page, run, ?_⟩
  rcases found with ⟨zero, noGap⟩ | ⟨⟨place, fits⟩, whichOne⟩
  · exact .inl ⟨zero, fun index => noGap index (Nat.zero_le _)⟩
  · refine .inr ⟨⟨?_, place, fits⟩, ?_⟩
    · obtain ⟨left, right, leftAt, -, above, -⟩ := fits
      have proper := sorted.row.unitsInOrder.proper left
        (List.mem_of_getElem? leftAt)
      omega
    · rcases whichOne with same | ⟨above, aligned, noGap⟩
      · exact .inl same
      · exact .inr ⟨above, aligned, fun index => noGap index (Nat.zero_le _)⟩

private theorem page_of_hint_le_iff {uaddr page : Nat} :
    uaddr ≤ page * 2 ^ naclPageshift ↔
      uaddr / 2 ^ naclPageshift < page ∨
        uaddr / 2 ^ naclPageshift = page ∧ 2 ^ naclPageshift ∣ uaddr := by
  unfold naclPageshift
  omega

private theorem unit_of_hint_iff {uaddr : Nat} :
    2 ^ naclMapPageshift ∣ uaddr ↔
      pagesPerMap ∣ uaddr / 2 ^ naclPageshift ∧ 2 ^ naclPageshift ∣ uaddr := by
  unfold naclMapPageshift naclPageshift pagesPerMap
  omega

theorem LookupMap.findMapSpaceAboveHint
    (map : LookupMap size self) (comparable : Comparable self)
    (count : MapCount size numPages) (uaddr : Nat) :
    SearchExact (FreeUnitsAbove self uaddr numPages)
        (naClVmmapFindMapSpaceAboveHint size qsort self uaddr numPages) ↔
      2 ^ naclMapPageshift ∣ uaddr ∨ ¬ HintHasRoom size self uaddr numPages := by
  obtain ⟨next, sortRun, sorted⟩ := @LookupMap.sorted size qsort self map
    comparable
  obtain ⟨page, run, found⟩ := hinted_exact sorted count uaddr
  have result : naClVmmapFindMapSpaceAboveHint size qsort self uaddr numPages =
      some (page, next) := by
    rw [naClVmmapFindMapSpaceAboveHint, sortRun, Option.bind_eq_bind,
      Option.bind_some, count.roundUp_eq]
    dsimp only
    rw [run]
    rfl
  rw [result, sorted.hintHasRoom_iff]
  rcases found with ⟨zero, noGap⟩ | ⟨⟨nonzero, place, fits⟩, rfl |
    ⟨above, aligned, noGap⟩⟩
  · refine iff_of_true ⟨page, next, rfl, fun nonzero => absurd zero nonzero, ?_⟩
      (.inr ?_)
    · rintro - other ⟨free, notBelow⟩
      obtain ⟨-, index, fits⟩ := sorted.freeUnits_iff.mp free
      have least : uaddr / 2 ^ naclPageshift ≤ other := by
        rcases page_of_hint_le_iff.mp notBelow with less | ⟨same, -⟩
        · exact Nat.le_of_lt less
        · exact Nat.le_of_eq same
      exact noGap index other least fits
    · rintro ⟨index, fits⟩
      exact noGap index _ (Nat.le_refl _) fits
  · -- The result is the page of the hint.
    constructor
    · rintro ⟨_, _, same, wanted, -⟩
      cases same
      obtain ⟨⟨aligned, -⟩, notBelow⟩ := wanted nonzero
      rcases page_of_hint_le_iff.mp notBelow with less | ⟨-, whole⟩
      · exact absurd less (Nat.lt_irrefl _)
      · exact .inl (unit_of_hint_iff.mpr ⟨aligned, whole⟩)
    · rintro (whole | noRoom)
      · obtain ⟨aligned, pages⟩ := unit_of_hint_iff.mp whole
        exact ⟨_, next, rfl, fun _ => ⟨sorted.freeUnits_iff.mpr
          ⟨aligned, place, fits⟩, page_of_hint_le_iff.mpr (.inr ⟨rfl, pages⟩)⟩,
          fun zero => absurd zero nonzero⟩
      · exact absurd ⟨place, fits⟩ noRoom
  · refine iff_of_true ⟨page, next, rfl, fun _ => ⟨sorted.freeUnits_iff.mpr
      ⟨aligned, place, fits⟩, page_of_hint_le_iff.mpr (.inl above)⟩,
      fun zero => absurd zero nonzero⟩ (.inr ?_)
    rintro ⟨index, fits⟩
    exact noGap index fits

/-- In every run whose calls meet the condition, the searches are exact as long
as the entries can be compared: the hinted one unless it returns a hint that is
not the address of a map unit. -/
theorem freeSpace_exact
    (reached : VmmapReached size qsort (LookupCall size) self)
    (comparable : Comparable self) (numPages uaddr : Nat) :
    SearchExact (fun page => FreeBetween self page numPages)
        (naClVmmapFindSpace size qsort self numPages) ∧
      (MapCount size numPages →
        SearchExact (FreeUnits self numPages)
            (naClVmmapFindMapSpace size qsort self numPages) ∧
          (SearchExact (FreeUnitsAbove self uaddr numPages)
              (naClVmmapFindMapSpaceAboveHint size qsort self uaddr numPages) ↔
            2 ^ naclMapPageshift ∣ uaddr ∨
              ¬ HintHasRoom size self uaddr numPages)) := by
  have map := reached.lookupMap
  refine ⟨map.findSpace comparable, ?_⟩
  intro count
  exact ⟨map.findMapSpace comparable count,
    map.findMapSpaceAboveHint comparable count uaddr⟩

end Searches

/-! ## A gap between two entries -/

private def gapWords : WordSize := ⟨64, bits64⟩

private def gapMemory : AddAllocations := ⟨true, true⟩

private def gapMap : Vmmap :=
  ⟨[some ⟨16, 16, 1, none, false⟩, some ⟨64, 16, 1, none, false⟩], 5, false⟩

private theorem gapMap_reached :
    VmmapReached gapWords (insertionQSort VmmapEntry) (LookupCall gapWords)
      gapMap := by
  have first : VmmapReached gapWords (insertionQSort VmmapEntry)
      (LookupCall gapWords) ⟨[some ⟨16, 16, 1, none, false⟩], 5, false⟩ := by
    refine VmmapReached.call (.add gapMemory 16 16 1 none)
      (VmmapReached.ctor true rfl)
      ⟨⟨⟨by decide, ?_⟩, by decide, rfl⟩, trivial⟩ rfl
    intro entry member
    cases member
  refine VmmapReached.call (.add gapMemory 64 16 1 none) first
    ⟨⟨⟨by decide, ?_⟩, by decide, rfl⟩, trivial⟩ rfl
  intro entry member page inside covered
  have isFirst : entry = ⟨16, 16, 1, none, false⟩ := List.mem_singleton.mp member
  subst isFirst
  have above : 64 ≤ page := inside.1
  have below : page < 16 + 16 := covered.2
  omega

private theorem gapMap_comparable : Comparable gapMap := by
  intro left leftMember right rightMember
  have places : ∀ entry ∈ entries gapMap, entry.pageNum ≤ 64 := by decide
  have leftPlace := places left leftMember
  omega

theorem freeSpace_exact_gap :
    SearchExact (FreeUnitsAbove gapMap 0x30000 16)
      (naClVmmapFindMapSpaceAboveHint gapWords (insertionQSort VmmapEntry)
        gapMap 0x30000 16) :=
  ((freeSpace_exact gapMap_reached gapMap_comparable 16 0x30000).2
    ⟨by decide, by decide⟩).2.mpr (.inl (by decide))

private theorem gapMap_hint :
    naClVmmapFindMapSpaceAboveHint gapWords (insertionQSort VmmapEntry) gapMap
      0x21000 16 = some (33, { gapMap with isSorted := true }) := by
  decide +kernel

theorem not_searchExact_hint :
    ¬ ∀ self, VmmapReached ⟨64, bits64⟩ (insertionQSort VmmapEntry)
      (LookupCall ⟨64, bits64⟩) self → ∀ uaddr numPages,
        SearchExact (FreeUnitsAbove self uaddr numPages)
          (naClVmmapFindMapSpaceAboveHint ⟨64, bits64⟩
            (insertionQSort VmmapEntry) self uaddr numPages) := by
  intro exact'
  obtain ⟨page, next, run, wanted, -⟩ :=
    exact' gapMap gapMap_reached 0x21000 16
  have found := run.symm.trans gapMap_hint
  cases found
  have aligned := (wanted (by decide)).1.1
  revert aligned
  decide

end NativeClient.Runtime
