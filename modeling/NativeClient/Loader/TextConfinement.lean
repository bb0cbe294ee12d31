import Mathlib.Logic.Relation
import NativeClient.Loader.HeapRuns

/-!
# The text of a loaded module

No run of `brk`, `mmap` and `munmap` changes a page below the end of the dynamic
text, or makes a page executable, provided that the module has data of some
kind.  The break of a module that has only text is in the entry of the text,
which `brk` makes longer.
-/

namespace NativeClient.Loader

open NativeClient.Library NativeClient.Runtime

section Calls

variable {platform : Platform} {qsort : QSort VmmapEntry}
  {app next last : BreakApp platform}

/-- The text is left as it was, and so is the layout of the address space. -/
structure LeavesLayout (app next : BreakApp platform) : Prop
    extends LeavesText app.toMmapApp next.toMmapApp where
  addrBits : next.addrBits = app.addrBits
  dataEnd : next.dataEnd = app.dataEnd

theorem LeavesLayout.refl (app : BreakApp platform) : LeavesLayout app app :=
  ⟨.of_same rfl fun _ => rfl, rfl, rfl⟩

theorem LeavesLayout.trans
    (first : LeavesLayout app next) (second : LeavesLayout next last) :
    LeavesLayout app last :=
  ⟨first.toLeavesText.trans second.toLeavesText,
    second.addrBits.trans first.addrBits, second.dataEnd.trans first.dataEnd⟩

/-- The heap is behind the text, and its last page is not executable. -/
structure HeapBehind (app : BreakApp platform) : Prop where
  above : app.dynamicTextEnd ≤ app.dataEnd
  heap : ¬ PageExecutable (pageMap app.memMap (lastPageBelow app.breakAddr))

theorem page_prot_iff
    {map : Vmmap} {size : WordSize} (invariant : MapInvariant size map)
    {page : Nat} {prot : Int} :
    (∃ nmop, pageMap map page = some (prot, nmop)) ↔
      ∃ entry ∈ entries map, entry.Covers page ∧ entry.prot = prot := by
  constructor
  · rintro ⟨nmop, found⟩
    obtain ⟨entry, member, valued⟩ :=
      (union_eq_some_iff invariant.apart).mp found
    rw [VmmapEntry.page] at valued
    split at valued
    next covers =>
      cases valued
      exact ⟨entry, member, covers.2, rfl⟩
    · cases valued
  · rintro ⟨entry, member, covers, rfl⟩
    exact ⟨_, (union_eq_some_iff invariant.apart).mpr ⟨entry, member,
      VmmapEntry.page_of_covers (invariant.live entry member) covers⟩⟩

theorem naClSetBreak_leavesLayout
    {world : BreakWorld} {newBreak : Nat} {outcome : BreakOutcome platform}
    (invariant : BreakInvariant app) (behind : HeapBehind app)
    (run : naClSetBreak qsort world app newBreak = some outcome) :
    LeavesLayout app outcome.app := by
  by_cases raises : RaisesBreak world app newBreak
  · have raised := @raiseBreak_raised platform qsort world app newBreak invariant
      raises.2.2 (AddressSpace.naClUserToSysAddr_good raises.1)
    rw [naClSetBreak_raises invariant raises] at run
    rw [run] at raised
    cases raised with
    | within entryAt covers inside =>
        exact ⟨.of_same rfl entryAt.isSorted.pages, rfl, rfl⟩
    | blocked entryAt covers outside behind =>
        exact ⟨.of_same rfl entryAt.isSorted.pages, rfl, rfl⟩
    | @extended sorted front back ent entryAt covers outside extensible =>
        -- The pages that are gained get the protection of the heap's last page.
        have harmless : ¬ ExecutableProt ent.prot := by
          intro executable
          obtain ⟨nmop, found⟩ := (page_prot_iff entryAt.map.invariant).mpr
            ⟨ent, entryAt.mem, covers, rfl⟩
          rw [entryAt.isSorted.pages] at found
          exact behind.heap ⟨_, _, found, executable⟩
        refine ⟨.of_changed (ent.pageNum + ent.npages) (roundedPage newBreak) rfl
          ?_ ?_ ?_, rfl, rfl⟩
        · have above := behind.above
          have dataLe := invariant.dataLe
          have ended := covers.2
          unfold lastPageBelow naclPagesize at *
          omega
        · intro page gained prot nmop found
          rw [(entryAt.extend_pages extensible page).trans (if_pos gained),
            VmmapEntry.page] at found
          split at found
          · cases found
            exact harmless
          · cases found
        · intro page kept
          exact (entryAt.extend_pages extensible page).trans (if_neg kept)
  · obtain ⟨breakAddr, -, -, stays⟩ :=
      @naClSetBreak_not_raises platform qsort world app newBreak invariant raises
    rw [stays] at run
    cases run
    exact ⟨.of_same rfl fun _ => rfl, rfl, rfl⟩

theorem perform_leavesLayout
    {call : HeapCall} (invariant : BreakInvariant app) (behind : HeapBehind app)
    (run : call.perform qsort app = some next) : LeavesLayout app next := by
  cases call with
  | brk world newBreak =>
      obtain ⟨outcome, ran, run⟩ := Option.bind_eq_some_iff.mp run
      cases run
      exact naClSetBreak_leavesLayout invariant behind ran
  | mmap world start length prot flags d offset =>
      obtain ⟨⟨result, mapped⟩, ran, run⟩ := Option.bind_eq_some_iff.mp run
      cases run
      have leaves := naClCommonSysMmap_ready invariant.toMapReady ran
      exact ⟨leaves.toLeavesText, leaves.addrBits, rfl⟩
  | munmap world start length =>
      obtain ⟨⟨result, unmapped⟩, ran, run⟩ := Option.bind_eq_some_iff.mp run
      cases run
      have leaves := naClSysMunmap_ready invariant.toMapReady ran
      exact ⟨leaves.toLeavesText, leaves.addrBits, rfl⟩

/-- A process that survives the call. -/
def Performs (qsort : QSort VmmapEntry) (app next : BreakApp platform) : Prop :=
  ∃ call : HeapCall, call.perform qsort app = some next

end Calls

/-! ## The first map -/

section First

variable {arch : ElfArch} {world : ProtectWorld} {nap : LoadedApp arch}
  {state : ProtectState}

/-- The module has read-only data or data. -/
def Furnished (nap : LoadedApp arch) : Prop :=
  nap.rodataStart ≠ 0 ∨ nap.dataStart ≠ 0

theorem loadedApp_dynamicTextEnd_le
    {scan : PhdrScan arch} (arranged : Arranged scan) (useShm : Bool)
    (memStart : Nat) (furnished : Furnished (loadedApp useShm memStart scan)) :
    (loadedApp useShm memStart scan).dynamicTextEnd ≤
      textBound (loadedApp useShm memStart scan) := by
  have textRodata := arranged.textRodata
  have textData := arranged.textData
  change scan.rodataStart ≠ 0 ∨ scan.dataStart ≠ 0 at furnished
  change (if useShm = false
    then naClRoundAllocPage arch.wordSize scan.staticTextEnd
    else if scan.rodataStart ≠ 0 then scan.rodataStart
    else if scan.dataStart ≠ 0 then scan.dataStart
    else naClRoundAllocPage arch.wordSize scan.staticTextEnd) ≤
      if scan.rodataStart ≠ 0 then scan.rodataStart
      else if scan.dataStart ≠ 0 then scan.dataStart else breakAddr scan
  by_cases hasRodata : scan.rodataStart ≠ 0
  · have fits := textRodata hasRodata
    rw [if_pos hasRodata, if_pos hasRodata]
    split <;> omega
  · have hasData := furnished.resolve_left hasRodata
    have fits := textData (not_not.mp hasRodata) hasData
    rw [if_neg hasRodata, if_pos hasData, if_neg hasRodata, if_pos hasData]
    split <;> omega

theorem Loaded.dynamicTextEnd_le
    (loaded : Loaded world nap state) (furnished : Furnished nap) :
    nap.dynamicTextEnd ≤ textBound nap := by
  obtain ⟨checked, reserved, filled, -, -⟩ := loaded
  have only := (naClFillEndOfTextRegion_padded checked reserved.toSandboxAt
    filled).only
  rw [only] at furnished ⊢
  exact loadedApp_dynamicTextEnd_le (naClAppLoadFileChecks_arranged checked) _ _
    furnished

theorem Spread.textBound_lt
    (spread : Spread nap) (furnished : Furnished nap) :
    naclPagesize ∣ textBound nap ∧ textBound nap < nap.dataEnd := by
  have last := spread.rodataBound_le
  have dataEnd := spread.dataEnd
  by_cases hasRodata : nap.rodataStart ≠ 0
  · have before := spread.rodata hasRodata
    rw [textBound, if_pos hasRodata]
    exact ⟨page_dvd (spread.rodataAligned hasRodata), by omega⟩
  · have hasData := furnished.resolve_left hasRodata
    have aligned := page_dvd spread.boundAligned
    rw [rodataBound, if_pos hasData] at aligned
    rw [textBound, if_neg hasRodata, if_pos hasData]
    exact ⟨aligned, spread.data hasData⟩

/-- No page behind the text is executable at first. -/
theorem LoadedFacts.not_executable
    (facts : LoadedFacts world nap state) {page : Nat}
    (above : textBound nap ≤ page * naclPagesize) :
    ¬ PageExecutable (pageMap state.memMap page) := by
  rintro ⟨prot, nmop, found, executable⟩
  obtain ⟨entry, member, covers, rfl⟩ :=
    (page_prot_iff facts.appMap.invariant).mp ⟨nmop, found⟩
  rw [entries_of_map facts.slots] at member
  obtain ⟨region, inRegions, rfl⟩ := List.mem_map.mp member
  change ExecutableProt region.prot at executable
  have inText : region ∈ [textRegion nap] ++ dynamicRegions world nap := by
    have noAccess : ¬ ExecutableProt protNoAccess := by
      unfold ExecutableProt
      decide
    have readOnly : ¬ ExecutableProt protReadOnly := by
      unfold ExecutableProt
      decide
    have readWrite : ¬ ExecutableProt protReadWrite := by
      unfold ExecutableProt
      decide
    rcases List.mem_cons.mp inRegions with rfl | inRegions
    · exact absurd executable noAccess
    simp only [memoryRegions, rodataRegions, dataRegions, List.mem_append]
      at inRegions ⊢
    rcases inRegions with ((inText | member) | member) | member
    · exact inText
    · split at member
      · cases member
      · cases List.mem_singleton.mp member
        exact absurd executable readOnly
    · split at member
      · cases member
      · cases List.mem_singleton.mp member
        exact absurd executable readWrite
    · cases List.mem_singleton.mp member
      exact absurd executable readWrite
  obtain ⟨fits, -, below⟩ := (facts.spread.text_band world).fits region inText
  have pages : page = page * 2 ^ naclPageshift / 2 ^ naclPageshift :=
    (Nat.mul_div_cancel _ (Nat.two_pow_pos _)).symm
  rw [pages] at covers
  have ends := ((fits.entry_covers _).mp covers).2
  change page * naclPagesize < region.stop at ends
  omega

theorem LoadedFacts.exclusive
    (facts : LoadedFacts world nap state) :
    ∀ entry ∈ entries state.memMap,
      ¬ (Writable entry.prot ∧ Executable entry.prot) := by
  intro entry member
  rw [entries_of_map facts.slots] at member
  obtain ⟨region, inRegions, rfl⟩ := List.mem_map.mp member
  exact initialRegions_exclusive region inRegions

/-- What a run leaves as it was loaded. -/
structure TextStays (nap : LoadedApp arch) (loaded now : Vmmap) : Prop where
  text : ∀ page, page * naclPagesize < nap.dynamicTextEnd →
    pageMap now page = pageMap loaded page
  executable : ∀ page, PageExecutable (pageMap now page) →
    pageMap now page = pageMap loaded page
  exclusive : ∀ entry ∈ entries now,
    ¬ (Writable entry.prot ∧ Executable entry.prot)
  inside : ∀ entry ∈ entries now,
    (entry.pageNum + entry.npages) * naclPagesize ≤ 2 ^ arch.addrBits

/-- What holds between the calls of a run. -/
structure RunInvariant
    (first app : BreakApp ⟨arch.wordSize, world.windows⟩) : Prop
    extends BreakInvariant app, LeavesLayout first app

variable {qsort : QSort VmmapEntry}
  {app : BreakApp ⟨arch.wordSize, world.windows⟩}

theorem RunInvariant.heapBehind
    (loaded : Loaded world nap state) (furnished : Furnished nap)
    (invariant : RunInvariant loaded.breakApp app) : HeapBehind app := by
  have facts := loaded.facts
  have textEnd : app.dynamicTextEnd = nap.dynamicTextEnd := invariant.textEnd
  have below := loaded.dynamicTextEnd_le furnished
  obtain ⟨aligned, bound⟩ := facts.spread.textBound_lt furnished
  have dataLe := invariant.dataLe
  have dataEnd : app.dataEnd = nap.dataEnd := invariant.dataEnd
  refine ⟨by omega, ?_⟩
  rcases invariant.pages (lastPageBelow app.breakAddr) with kept | ⟨-, harmless⟩
  · rw [kept]
    apply facts.not_executable
    unfold lastPageBelow naclPagesize at *
    omega
  · exact harmless

theorem runInvariant_of_run
    (loaded : Loaded world nap state) (furnished : Furnished nap)
    (run : Relation.ReflTransGen (Performs qsort) loaded.breakApp app) :
    RunInvariant loaded.breakApp app := by
  induction run with
  | refl => exact ⟨loaded.invariant, LeavesLayout.refl _⟩
  | tail run performs ih =>
      obtain ⟨call, performs⟩ := performs
      have leaves := perform_leavesLayout ih.toBreakInvariant
        (ih.heapBehind loaded furnished) performs
      exact ⟨call.perform_invariant ih.toBreakInvariant performs,
        ih.toLeavesLayout.trans leaves⟩

/-- In every state of a run the text is where it was loaded, nothing else has
become executable, and no memory can be both written and executed. -/
theorem textStays_of_run
    (loaded : Loaded world nap state) (furnished : Furnished nap)
    (run : Relation.ReflTransGen (Performs qsort) loaded.breakApp app) :
    TextStays nap state.memMap app.memMap := by
  have invariant := runInvariant_of_run loaded furnished run
  have facts := loaded.facts
  have kept : ∀ page, PageExecutable (pageMap app.memMap page) →
      pageMap app.memMap page = pageMap state.memMap page := by
    intro page executable
    exact (invariant.pages page).resolve_right fun behind => behind.2 executable
  refine ⟨?_, kept, ?_, ?_⟩
  · intro page below
    refine (invariant.pages page).resolve_right fun behind => ?_
    exact absurd behind.1 (Nat.not_le_of_lt below)
  · rintro entry member ⟨writable, executable⟩
    obtain ⟨positive, -⟩ := invariant.map.placed entry member
    have covers : entry.Covers entry.pageNum := ⟨Nat.le_refl _, by omega⟩
    obtain ⟨nmop, found⟩ := (page_prot_iff invariant.map.invariant).mpr
      ⟨entry, member, covers, rfl⟩
    have same := kept entry.pageNum ⟨_, _, found, executable⟩
    rw [found] at same
    obtain ⟨first, initial, -, prot⟩ :=
      (page_prot_iff facts.appMap.invariant).mp ⟨nmop, same.symm⟩
    rw [← prot] at writable executable
    exact facts.exclusive first initial ⟨writable, executable⟩
  · intro entry member
    have below := (invariant.map.placed entry member).2
    have same : app.addrBits = arch.addrBits := invariant.addrBits
    rw [appPages, same] at below
    exact (Nat.le_div_iff_mul_le (by decide)).mp below

/-- The heap gets a second allocation page. -/
theorem textStays_of_run_armData :
    TextStays armDataApp armDataState.memMap
      ⟨[some ⟨0, 16, 0, none, false⟩, some ⟨16, 32, 5, none, false⟩,
        some ⟨48, 32, 3, none, false⟩, some ⟨0x3f000, 0x1000, 3, none, false⟩],
        5, true⟩ := by
  have grown : ((HeapCall.brk ⟨true, true⟩ 0x41000).perform
      (insertionQSort VmmapEntry) armData_loaded.breakApp).map
        (fun app => app.memMap) = some
      ⟨[some ⟨0, 16, 0, none, false⟩, some ⟨16, 32, 5, none, false⟩,
        some ⟨48, 32, 3, none, false⟩, some ⟨0x3f000, 0x1000, 3, none, false⟩],
        5, true⟩ := by
    decide +kernel
  obtain ⟨next, performs, same⟩ := Option.map_eq_some_iff.mp grown
  rw [← same]
  exact textStays_of_run armData_loaded (.inr (by decide))
    (.single ⟨_, performs⟩)

end First

end NativeClient.Loader
