import NativeClient.Runtime.SetBreak

/-!
# The calls that change the map

`brk`, `mmap` and `munmap` leave a memory map on which the next change of the
break can rely, and leave the text alone, whatever they return.
-/

namespace NativeClient.Runtime

open NativeClient.Library

section Unmap

variable {platform : Platform}

/-- What the host answers: to the one mapping that replaces the range, and on
Windows to the release of an allocation page. -/
structure MunmapWorld where
  remap : Except Int Unit
  release : Nat → Bool
  allocations : Nat → UpdateAllocations

def containsExecutablePages (app : MmapApp platform) (usraddr : Nat) : Bool :=
  usraddr / naclMapPagesize * naclMapPagesize < app.dynamicTextEnd

variable (qsort : QSort VmmapEntry)

def deletePages (app : MmapApp platform) (allocations : UpdateAllocations)
    (sysaddr npages : Nat) : Option (MmapApp platform) := do
  let usraddr ← app.space.naClSysToUser sysaddr
  let memMap ← naClVmmapUpdate platform.size qsort allocations app.memMap
    (usraddr / 2 ^ naclPageshift) npages 0 none true
  some { app with memMap := memMap }

def munmapLoop (world : MunmapWorld) :
    Nat → Nat → MmapApp platform → Option (MmapApp platform)
  | 0, _, app => some app
  | left + 1, addr, app => do
      let usraddr ← app.space.naClSysToUser addr
      let (found, memMap) ← naClVmmapFindPage platform.size qsort app.memMap
        (usraddr / 2 ^ naclPageshift)
      let app := { app with memMap := memMap }
      if found.isNone ∨ world.release addr = false then
        none
      else
        let app ← deletePages qsort app (world.allocations addr) addr pagesPerMap
        munmapLoop world left (platform.size.wrap (addr + naclMapPagesize)) app

def naClSysMunmap (world : MunmapWorld) (app : MmapApp platform)
    (start length : Nat) : Option (Int × MmapApp platform) :=
  if start % naclMapPagesize ≠ 0 then
    some (-einval, app)
  else if length = 0 then
    some (-einval, app)
  else
    let length := naClRoundAllocPage platform.size length
    let sysaddr := app.space.naClUserToSysAddrRange start length
    if sysaddr = app.space.kNaClBadAddress then
      some (-efault, app)
    else if containsExecutablePages app start then
      some (-einval, app)
    else if platform.windows then do
      let app ← munmapLoop qsort world (length / naclMapPagesize) sysaddr app
      some (0, app)
    else
      match world.remap with
      | .error errno => some (-errno, app)
      | .ok _ => do
          let app ← deletePages qsort app (world.allocations sysaddr)
            sysaddr (length / 2 ^ naclPageshift)
          some (0, app)

end Unmap

inductive HeapCall where
  | brk (world : BreakWorld) (newBreak : Nat)
  | mmap (world : MmapWorld) (start length : Nat) (prot flags : BitVec 32)
      (d : Int) (offset : BitVec 32)
  | munmap (world : MunmapWorld) (start length : Nat)

def HeapCall.perform {platform : Platform} (qsort : QSort VmmapEntry)
    (app : BreakApp platform) : HeapCall → Option (BreakApp platform)
  | .brk world newBreak => do
      let outcome ← naClSetBreak qsort world app newBreak
      some outcome.app
  | .mmap world start length prot flags d offset => do
      let (_, next) ← naClCommonSysMmap qsort world app.toMmapApp start length
        prot flags d offset
      some { app with toMmapApp := next }
  | .munmap world start length => do
      let (_, next) ← naClSysMunmap qsort world app.toMmapApp start length
      some { app with toMmapApp := next }

/-! ## Maps that stay ready -/

section Ready

variable {platform : Platform} {qsort : QSort VmmapEntry}
  {app next last : MmapApp platform}

def ExecutableProt (prot : Int) : Prop := prot / 4 % 2 = 1

def PageExecutable (found : Option (Int × Option MemObj)) : Prop :=
  ∃ prot nmop, found = some (prot, nmop) ∧ ExecutableProt prot

structure LeavesText (app next : MmapApp platform) : Prop where
  textEnd : next.dynamicTextEnd = app.dynamicTextEnd
  pages : ∀ page, pageMap next.memMap page = pageMap app.memMap page ∨
    app.dynamicTextEnd ≤ page * naclPagesize ∧
      ¬ PageExecutable (pageMap next.memMap page)

theorem LeavesText.of_same
    (textEnd : next.dynamicTextEnd = app.dynamicTextEnd)
    (pages : ∀ page, pageMap next.memMap page = pageMap app.memMap page) :
    LeavesText app next :=
  ⟨textEnd, fun page => .inl (pages page)⟩

theorem LeavesText.trans
    (first : LeavesText app next) (second : LeavesText next last) :
    LeavesText app last := by
  refine ⟨second.textEnd.trans first.textEnd, ?_⟩
  intro page
  rcases second.pages page with same | behind
  · rw [same]
    exact first.pages page
  · rw [first.textEnd] at behind
    exact .inr behind

theorem LeavesText.of_changed
    (lower upper : Nat) (textEnd : next.dynamicTextEnd = app.dynamicTextEnd)
    (above : app.dynamicTextEnd ≤ lower * naclPagesize)
    (inside : ∀ page, InRange lower upper page → ∀ prot nmop,
      pageMap next.memMap page = some (prot, nmop) → ¬ ExecutableProt prot)
    (outside : ∀ page, ¬ InRange lower upper page →
      pageMap next.memMap page = pageMap app.memMap page) :
    LeavesText app next := by
  refine ⟨textEnd, ?_⟩
  intro page
  by_cases changed : InRange lower upper page
  · refine .inr ⟨Nat.le_trans above (Nat.mul_le_mul_right _ changed.1), ?_⟩
    rintro ⟨prot, nmop, found, executable⟩
    exact inside page changed prot nmop found executable
  · exact .inl (outside page changed)

structure LeavesReady (app next : MmapApp platform) : Prop
    extends MapReady next, LeavesText app next where
  addrBits : next.addrBits = app.addrBits
  memStart : next.memStart = app.memStart

theorem MapReady.leaves (ready : MapReady app) : LeavesReady app app :=
  ⟨ready, .of_same rfl fun _ => rfl, rfl, rfl⟩

theorem LeavesReady.trans
    (first : LeavesReady app next) (second : LeavesReady next last) :
    LeavesReady app last :=
  ⟨second.toMapReady, first.toLeavesText.trans second.toLeavesText,
    second.addrBits.trans first.addrBits, second.memStart.trans first.memStart⟩

structure UpdateFrame (app next : MmapApp platform) : Prop where
  nonnull : none ∉ next.memMap.vmentry
  textEnd : next.dynamicTextEnd = app.dynamicTextEnd

theorem Recorded.leaves
    {lower upper : Nat} {prot : Int} {nmop : Option MemObj}
    (recorded : Recorded app next lower upper prot nmop)
    (frame : UpdateFrame app next) (aligned : naclPagesize ∣ lower)
    (above : app.dynamicTextEnd ≤ lower) (harmless : ¬ ExecutableProt prot) :
    LeavesReady app next := by
  refine ⟨⟨recorded.map, frame.nonnull⟩, .of_changed (lower / naclPagesize)
    (upper / naclPagesize) frame.textEnd ?_ ?_ ?_, recorded.addrBits,
    recorded.memStart⟩
  · rw [Nat.div_mul_cancel aligned]
    exact above
  · intro page inside found nmop same
    rw [(recorded.pages page).trans (if_pos inside)] at same
    cases same
    exact harmless
  · intro page outside
    exact (recorded.pages page).trans (if_neg outside)

theorem naClVmmapMakeSorted_ready
    {memMap : Vmmap} (ready : MapReady app)
    (run : naClVmmapMakeSorted platform.size qsort app.memMap = some memMap) :
    LeavesReady app { app with memMap := memMap } := by
  obtain ⟨map, sorted⟩ := naClVmmapMakeSorted_placed ready.map run
  exact ⟨⟨map, map.invariant.nonnull sorted.flag⟩, .of_same rfl sorted.pages,
    rfl, rfl⟩

theorem naClVmmapFindMapSpace_ready
    {numPages page : Nat} {memMap : Vmmap} (ready : MapReady app)
    (run : naClVmmapFindMapSpace platform.size qsort app.memMap numPages =
      some (page, memMap)) :
    LeavesReady app { app with memMap := memMap } := by
  unfold naClVmmapFindMapSpace at run
  split at run
  · cases run
    exact ready.leaves
  obtain ⟨sorted, sortRun, run⟩ := Option.bind_eq_some_iff.mp run
  obtain ⟨found, -, run⟩ := Option.bind_eq_some_iff.mp run
  cases run
  exact naClVmmapMakeSorted_ready ready sortRun

theorem naClVmmapFindMapSpaceAboveHint_ready
    {uaddr numPages page : Nat} {memMap : Vmmap} (ready : MapReady app)
    (run : naClVmmapFindMapSpaceAboveHint platform.size qsort app.memMap uaddr
      numPages = some (page, memMap)) :
    LeavesReady app { app with memMap := memMap } := by
  obtain ⟨sorted, sortRun, run⟩ := Option.bind_eq_some_iff.mp run
  obtain ⟨found, -, run⟩ := Option.bind_eq_some_iff.mp run
  cases run
  exact naClVmmapMakeSorted_ready ready sortRun

theorem naClVmmapFindPage_ready
    {pnum : Nat} {found : Option VmmapEntry} {memMap : Vmmap}
    (ready : MapReady app)
    (run : naClVmmapFindPage platform.size qsort app.memMap pnum =
      some (found, memMap)) :
    LeavesReady app { app with memMap := memMap } := by
  obtain ⟨sorted, sortRun, run⟩ := Option.bind_eq_some_iff.mp run
  obtain ⟨items, -, run⟩ := Option.bind_eq_some_iff.mp run
  split at run
  · cases run
    exact naClVmmapMakeSorted_ready ready sortRun
  · cases run
    exact naClVmmapMakeSorted_ready ready sortRun

end Ready

/-! ## `mmap` -/

section Mmap

variable {platform : Platform} {qsort : QSort VmmapEntry} {world : MmapWorld}
  {app next : MmapApp platform} {start length : Nat}
  {prot flags offset : BitVec 32} {d : Int}

theorem mmapChooseAddress_ready
    {fixed : Bool} {whole : Nat} {chosen : Except Int Nat} {memMap : Vmmap}
    (ready : MapReady app)
    (run : mmapChooseAddress qsort app start fixed whole =
      some (chosen, memMap)) :
    LeavesReady app { app with memMap := memMap } := by
  unfold mmapChooseAddress at run
  dsimp only at run
  split at run
  · cases run
    exact ready.leaves
  split at run
  · obtain ⟨⟨usrpage, sorted⟩, search, run⟩ := Option.bind_eq_some_iff.mp run
    have leaves := naClVmmapFindMapSpace_ready ready search
    dsimp only at run
    split at run
    · cases run
      exact leaves
    · cases run
      exact leaves
  obtain ⟨⟨hinted, first⟩, aboveHint, run⟩ := Option.bind_eq_some_iff.mp run
  have leaves := naClVmmapFindMapSpaceAboveHint_ready ready aboveHint
  dsimp only at run
  split at run
  · obtain ⟨⟨usrpage, sorted⟩, search, run⟩ := Option.bind_eq_some_iff.mp run
    have more := naClVmmapFindMapSpace_ready leaves.toMapReady search
    dsimp only at run
    split at run
    · cases run
      exact leaves.trans more
    · cases run
      exact leaves.trans more
  · obtain ⟨⟨usrpage, sorted⟩, same, run⟩ := Option.bind_eq_some_iff.mp run
    cases same
    dsimp only at run
    split at run
    · cases run
      exact leaves
    · cases run
      exact leaves

theorem naClCommonUtilUpdateAddrMap_frame
    {allocations : UpdateAllocations} {sysaddr nbytes : Nat} {sysprot : Int}
    {nmop : Option MemObj}
    (run : naClCommonUtilUpdateAddrMap qsort app allocations sysaddr nbytes
      sysprot nmop = some next) : UpdateFrame app next := by
  obtain ⟨usraddr, -, run⟩ := Option.bind_eq_some_iff.mp run
  obtain ⟨memMap, update, run⟩ := Option.bind_eq_some_iff.mp run
  cases run
  exact ⟨naClVmmapUpdate_nonnull update, rfl⟩

theorem mmapFilePages_frame
    {sysaddr : Nat} {nmop : Option MemObj}
    (nonnull : none ∉ app.memMap.vmentry)
    (run : mmapFilePages qsort world app sysaddr length prot nmop =
      some next) : UpdateFrame app next := by
  unfold mmapFilePages at run
  split at run
  · cases run
    exact ⟨nonnull, rfl⟩
  split at run
  · cases run
  split at run
  · exact naClCommonUtilUpdateAddrMap_frame run
  · exact naClCommonUtilUpdateAddrMap_frame run

theorem mmapPagesBehind_frame
    {allocations : UpdateAllocations} {sysaddr lower upper : Nat} {sysprot : Int}
    (nonnull : none ∉ app.memMap.vmentry)
    (run : mmapPagesBehind qsort app allocations sysaddr lower upper sysprot =
      some next) : UpdateFrame app next := by
  unfold mmapPagesBehind at run
  split at run
  · exact naClCommonUtilUpdateAddrMap_frame run
  · cases run
    exact ⟨nonnull, rfl⟩

theorem naClProtMap_harmless (prot : BitVec 32) :
    ¬ ExecutableProt (naClProtMap (prot &&& ~~~protExec)) := by
  have masked : prot &&& ~~~protExec &&& protExec = 0 := by
    rw [BitVec.and_assoc]
    simp
  unfold naClProtMap ExecutableProt
  rw [if_neg (not_not.mpr masked)]
  split <;> split <;> decide

theorem naClRoundAllocPage_bounds (platform : Platform) (nbytes : Nat) :
    naclMapPagesize ∣ naClRoundAllocPage platform.size nbytes ∧
      naClRoundAllocPage platform.size nbytes < 2 ^ platform.size.bits := by
  refine ⟨Nat.dvd_mul_left _ _, ?_⟩
  exact Nat.lt_of_le_of_lt (Nat.div_mul_le_self _ _)
    (Nat.mod_lt _ (Nat.two_pow_pos _))

theorem mmapUpdates_ready
    {usraddr whole : Nat} {extent : FileExtent} {mapped : MmapApp platform}
    {nmop : Option MemObj} (ready : MapReady app)
    (aligned : naclMapPagesize ∣ usraddr) (dvd : naclMapPagesize ∣ whole)
    (inside : usraddr + whole ≤ 2 ^ app.addrBits)
    (startInside : usraddr < 2 ^ app.addrBits)
    (above : app.dynamicTextEnd ≤ usraddr) (positive : 0 ≤ offset.toInt)
    {ndp : Option Nat}
    (extended : mmapFileExtent platform world ndp offset = some (.ok extent))
    (filePages : mmapFilePages qsort world app
      (platform.size.wrap (usraddr + app.memStart))
      (min whole extent.hostRoundedFileBytes) (prot &&& ~~~protExec) nmop =
        some mapped) :
    LeavesReady app mapped ∧
      ∀ {filled : MmapApp platform} {allocations : UpdateAllocations},
        mmapPagesBehind qsort mapped allocations
          (platform.size.wrap (usraddr + app.memStart))
          (min whole extent.hostRoundedFileBytes)
          (min whole extent.allocRoundedFileBytes)
          (naClProtMap (prot &&& ~~~protExec)) = some filled →
        LeavesReady app filled ∧
          ∀ {last : MmapApp platform} {allocations : UpdateAllocations},
            mmapPagesBehind qsort filled allocations
              (platform.size.wrap (usraddr + app.memStart))
              (min whole extent.allocRoundedFileBytes) whole 0 = some last →
            LeavesReady app last := by
  have small := app.small
  have allocated := app.allocated
  have usable : whole ≤ kMaxUsableFileSize platform := by
    unfold kMaxUsableFileSize
    omega
  obtain ⟨atCovered, atFilled, -⟩ := mmapFileExtent_spec usable positive extended
  have pageDvd : naclPagesize ∣ whole := Nat.dvd_trans (by decide) dvd
  have start : naclPagesize ∣ usraddr := Nat.dvd_trans (by decide) aligned
  obtain ⟨ordered, below, coveredDvd, filledDvd⟩ :=
    coveredBytes_bounds platform world ndp offset pageDvd
  have harmless := naClProtMap_harmless prot
  rw [platform.size.wrap_of_lt (by omega), atCovered] at filePages
  have atFile := mmapFilePages_spec ready.map start coveredDvd (by omega) filePages
  have leaves := atFile.leaves (mmapFilePages_frame ready.nonnull filePages)
    start above harmless
  refine ⟨leaves, ?_⟩
  intro filled _ zeroFilled
  rw [platform.size.wrap_of_lt (by omega), atCovered, atFilled,
    ← leaves.memStart] at zeroFilled
  have atFill := mmapPagesBehind_spec leaves.map (Nat.dvd_add start coveredDvd)
    (Nat.dvd_add start filledDvd) ordered (by rw [leaves.addrBits]; omega)
    zeroFilled
  have more := leaves.trans (atFill.leaves
    (mmapPagesBehind_frame leaves.nonnull zeroFilled)
    (Nat.dvd_add start coveredDvd) (by rw [leaves.textEnd]; omega) harmless)
  refine ⟨more, ?_⟩
  intro last _ inaccessible
  rw [platform.size.wrap_of_lt (by omega), atFilled, ← more.memStart]
    at inaccessible
  have atEnd := mmapPagesBehind_spec more.map (Nat.dvd_add start filledDvd)
    (Nat.dvd_add start pageDvd) below (by rw [more.addrBits]; omega)
    inaccessible
  exact more.trans (atEnd.leaves
    (mmapPagesBehind_frame more.nonnull inaccessible)
    (Nat.dvd_add start filledDvd) (by rw [more.textEnd]; omega)
    (by unfold ExecutableProt; decide))

theorem naClCommonSysMmap_ready
    {result : MmapResult} (ready : MapReady app)
    (run : naClCommonSysMmap qsort world app start length prot flags d offset =
      some (result, next)) : LeavesReady app next := by
  obtain ⟨dvd, bound⟩ := naClRoundAllocPage_bounds platform length
  unfold naClCommonSysMmap at run
  dsimp only at run
  generalize (if decide (flags &&& (mapFixed ||| mapShared ||| mapPrivate |||
    mapAnonymous) &&& mapAnonymous ≠ 0) = true then none
      else world.getDesc d) = ndp at run
  split at run
  · cases run
    exact ready.leaves
  split at run
  · cases run
    exact ready.leaves
  next startAligned =>
  split at run
  · cases run
    exact ready.leaves
  next positive =>
  split at run
  · cases run
    exact ready.leaves
  split at run
  · cases run
    exact ready.leaves
  split at run
  · cases run
  · cases run
    exact ready.leaves
  next extent extended =>
  obtain ⟨⟨chosen, memMap⟩, choice, run⟩ := Option.bind_eq_some_iff.mp run
  have leaves := mmapChooseAddress_ready ready choice
  dsimp only at run
  split at run
  · cases run
    exact leaves
  next usraddr =>
  split at run
  · cases run
    exact leaves
  next okay =>
  split at run
  · cases run
    exact leaves
  obtain ⟨sysaddr, toSys, run⟩ := Option.bind_eq_some_iff.mp run
  obtain ⟨mapped, filePages, run⟩ := Option.bind_eq_some_iff.mp run
  unfold AddressSpace.naClUserToSys at toSys
  split at toSys
  · cases toSys
  cases toSys
  have hint : naclMapPagesize ∣ start := by
    unfold naclMapPagesize at startAligned ⊢
    omega
  have chosen := mmapChooseAddress_spec ready.map hint dvd bound choice
  rw [Bool.not_eq_true', Bool.not_eq_false] at okay
  obtain ⟨inside, startInside⟩ := mmapRangeIsOkay_inside bound okay
  have above : app.dynamicTextEnd ≤ usraddr := by
    have behind := (of_decide_eq_true okay).2.2.2
    rw [Nat.div_mul_cancel chosen.aligned] at behind
    exact Nat.le_of_not_lt behind
  obtain ⟨mappedReady, behind⟩ := mmapUpdates_ready leaves.toMapReady
    chosen.aligned dvd inside startInside above (by omega) extended filePages
  split at run
  · cases run
    exact leaves.trans mappedReady
  obtain ⟨filled, zeroFilled, run⟩ := Option.bind_eq_some_iff.mp run
  obtain ⟨last, inaccessible, run⟩ := Option.bind_eq_some_iff.mp run
  obtain ⟨-, atEnd⟩ := behind zeroFilled
  split at run
  · cases run
  cases run
  exact leaves.trans (atEnd inaccessible)

end Mmap

/-! ## `munmap` -/

section Munmap

variable {platform : Platform} {qsort : QSort VmmapEntry}
  {world : MunmapWorld} {app next : MmapApp platform}

theorem deletePages_ready
    {allocations : UpdateAllocations} {uaddr npages : Nat}
    (ready : MapReady app) (aligned : naclPagesize ∣ uaddr)
    (bound : uaddr + npages * naclPagesize ≤ 2 ^ app.addrBits)
    (above : app.dynamicTextEnd ≤ uaddr)
    (run : deletePages qsort app allocations (uaddr + app.memStart) npages =
      some next) : LeavesReady app next := by
  obtain ⟨small, space⟩ := appPages_le app
  obtain ⟨found, toUser, run⟩ := Option.bind_eq_some_iff.mp run
  obtain ⟨memMap, update, run⟩ := Option.bind_eq_some_iff.mp run
  cases run
  rw [naClSysToUser_eq toUser] at update
  have pages : uaddr / naclPagesize + npages ≤ appPages app := by
    unfold appPages
    rw [Nat.le_div_iff_mul_le (by decide)]
    unfold naclPagesize at *
    omega
  obtain ⟨map, updated⟩ :=
    naClVmmapUpdate_placed ready.map small space pages update
  refine ⟨⟨map, naClVmmapUpdate_nonnull update⟩, .of_changed (uaddr / naclPagesize)
    (uaddr / naclPagesize + npages) rfl ?_ ?_ ?_, rfl, rfl⟩
  · rw [Nat.div_mul_cancel aligned]
    exact above
  · intro page deleted prot nmop found
    rw [(updated page).trans (if_pos deleted)] at found
    cases found
  · intro page kept
    exact (updated page).trans (if_neg kept)

theorem munmapLoop_ready
    (left : Nat) {uaddr : Nat} (ready : MapReady app)
    (aligned : naclMapPagesize ∣ uaddr)
    (bound : uaddr + left * naclMapPagesize < 2 ^ app.addrBits)
    (above : app.dynamicTextEnd ≤ uaddr)
    (run : munmapLoop qsort world left (uaddr + app.memStart) app = some next) :
    LeavesReady app next := by
  induction left generalizing app uaddr with
  | zero =>
      cases run
      exact ready.leaves
  | succ left ih =>
      have small := app.small
      have allocated := app.allocated
      have whole : (left + 1) * naclMapPagesize =
          left * naclMapPagesize + naclMapPagesize := Nat.succ_mul _ _
      have positive : 0 < naclMapPagesize := by decide
      obtain ⟨usraddr, toUser, run⟩ := Option.bind_eq_some_iff.mp run
      obtain ⟨⟨found, memMap⟩, search, run⟩ := Option.bind_eq_some_iff.mp run
      have sorted := naClVmmapFindPage_ready ready search
      dsimp only at run
      split at run
      · cases run
      obtain ⟨deleted, deleting, run⟩ := Option.bind_eq_some_iff.mp run
      have pages : pagesPerMap * naclPagesize = naclMapPagesize := rfl
      have deletedReady := deletePages_ready sorted.toMapReady
        (Nat.dvd_trans (by decide) aligned)
        (by rw [pages]; change _ ≤ 2 ^ app.addrBits; omega) above deleting
      have through := sorted.trans deletedReady
      have onward : platform.size.wrap
          (uaddr + app.memStart + naclMapPagesize) =
            uaddr + naclMapPagesize + deleted.memStart := by
        rw [through.memStart, platform.size.wrap_of_lt (by omega)]
        omega
      rw [onward] at run
      exact through.trans (ih through.toMapReady
        (Nat.dvd_add aligned (Nat.dvd_refl _))
        (by rw [through.addrBits]; omega) (by rw [through.textEnd]; omega) run)

theorem naClSysMunmap_ready
    {start length : Nat} {result : Int} (ready : MapReady app)
    (run : naClSysMunmap qsort world app start length =
      some (result, next)) : LeavesReady app next := by
  obtain ⟨dvd, counted⟩ := naClRoundAllocPage_bounds platform length
  unfold naClSysMunmap at run
  split at run
  · cases run
    exact ready.leaves
  next startAligned =>
  have aligned : naclMapPagesize ∣ start := by
    unfold naclMapPagesize at startAligned ⊢
    omega
  split at run
  · cases run
    exact ready.leaves
  dsimp only at run
  split at run
  · cases run
    exact ready.leaves
  next good =>
  obtain ⟨address, -, inside⟩ := @AddressSpace.naClUserToSysAddrRange_good
    app.space _ _ app.allocated counted good
  rw [address, Nat.add_comm] at run
  split at run
  · cases run
    exact ready.leaves
  next notText =>
  have above : app.dynamicTextEnd ≤ start := by
    rw [containsExecutablePages, Nat.div_mul_cancel aligned] at notText
    simpa using notText
  split at run
  · obtain ⟨last, loop, run⟩ := Option.bind_eq_some_iff.mp run
    cases run
    refine munmapLoop_ready _ ready aligned ?_ above loop
    rw [Nat.div_mul_cancel dvd]
    exact inside
  · split at run
    · cases run
      exact ready.leaves
    · obtain ⟨last, deleting, run⟩ := Option.bind_eq_some_iff.mp run
      cases run
      refine deletePages_ready ready (Nat.dvd_trans (by decide) aligned) ?_
        above deleting
      have pages : naclPagesize ∣ naClRoundAllocPage platform.size length :=
        Nat.dvd_trans (by decide) dvd
      change _ + _ / naclPagesize * naclPagesize ≤ _
      rw [Nat.div_mul_cancel pages]
      exact Nat.le_of_lt inside

end Munmap

/-! ## `brk` -/

section Brk

variable {platform : Platform} {qsort : QSort VmmapEntry}
  {app : BreakApp platform}

theorem BreakInvariant.of_leaves
    {next : MmapApp platform} (invariant : BreakInvariant app)
    (leaves : LeavesReady app.toMmapApp next) :
    BreakInvariant { app with toMmapApp := next } := by
  refine ⟨leaves.toMapReady, ?_, invariant.dataPos, invariant.dataLe, ?_⟩
  · change naclMapPagesize ∣ 2 ^ next.addrBits
    rw [leaves.addrBits]
    exact invariant.aligned
  · change app.breakAddr < 2 ^ next.addrBits
    rw [leaves.addrBits]
    exact invariant.breakHigh

theorem naClSetBreak_invariant
    {world : BreakWorld} {newBreak : Nat} {outcome : BreakOutcome platform}
    (invariant : BreakInvariant app)
    (run : naClSetBreak qsort world app newBreak = some outcome) :
    BreakInvariant outcome.app := by
  obtain ⟨ready, aligned, dataPos, dataLe, breakHigh⟩ := invariant
  have invariant : BreakInvariant app :=
    ⟨ready, aligned, dataPos, dataLe, breakHigh⟩
  by_cases raises : RaisesBreak world app newBreak
  · have small := AddressSpace.naClUserToSysAddr_good raises.1
    have above := raises.2.2
    have raised := @raiseBreak_raised platform qsort world app newBreak invariant
      above small
    rw [naClSetBreak_raises invariant raises] at run
    rw [run] at raised
    cases raised with
    | within entryAt covers inside =>
        exact ⟨⟨entryAt.map, entryAt.map.invariant.nonnull entryAt.isSorted.flag⟩,
          aligned, dataPos, by dsimp only; omega, small⟩
    | blocked entryAt covers outside behind =>
        exact ⟨⟨entryAt.map, entryAt.map.invariant.nonnull entryAt.isSorted.flag⟩,
          aligned, dataPos, dataLe, breakHigh⟩
    | extended entryAt covers outside extensible =>
        obtain ⟨-, space⟩ := appPages_le app.toMmapApp
        exact ⟨⟨entryAt.extend_map space extensible, null_not_mem_map _⟩,
          aligned, dataPos, by dsimp only; omega, small⟩
  · obtain ⟨breakAddr, atLeast, le, stays⟩ :=
      @naClSetBreak_not_raises platform qsort world app newBreak invariant raises
    rw [stays] at run
    cases run
    exact ⟨ready, aligned, dataPos, atLeast, Nat.lt_of_le_of_lt le breakHigh⟩

theorem HeapCall.perform_invariant
    {call : HeapCall} {next : BreakApp platform} (invariant : BreakInvariant app)
    (run : call.perform qsort app = some next) : BreakInvariant next := by
  cases call with
  | brk world newBreak =>
      obtain ⟨outcome, setBreak, same⟩ := Option.bind_eq_some_iff.mp run
      cases same
      exact naClSetBreak_invariant invariant setBreak
  | mmap world start length prot flags d offset =>
      obtain ⟨⟨result, after⟩, mmap, same⟩ := Option.bind_eq_some_iff.mp run
      cases same
      exact invariant.of_leaves
        (naClCommonSysMmap_ready invariant.toMapReady mmap)
  | munmap world start length =>
      obtain ⟨⟨result, after⟩, munmap, same⟩ := Option.bind_eq_some_iff.mp run
      cases same
      exact invariant.of_leaves (naClSysMunmap_ready invariant.toMapReady munmap)

end Brk

end NativeClient.Runtime
