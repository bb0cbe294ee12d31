import NativeClient.Loader.InitialMap
import NativeClient.Runtime.HeapCalls

/-!
# The heap of a loaded module

The runs start with the map of the loader and go on with any calls of `brk`,
`mmap` and `munmap`.  The entry of the last byte below the break need not be
memory that can be written: a module without data has its break behind the text
or the read-only data, and the user can map and unmap what is there.
-/

namespace NativeClient.Loader

open NativeClient.Library NativeClient.Runtime

section Runs

variable {arch : ElfArch}

inductive Loaded (world : ProtectWorld) (nap : LoadedApp arch)
    (state : ProtectState) : Prop
  | intro {scan : PhdrScan arch} {useShm : Bool} {memStart capacity : Nat}
      {loadWorld : LoadWorld} {image : ElfImage arch} {before after : Buffer}
      (checked : naClAppLoadFileChecks loadWorld image = .ok scan)
      (reserved : Reserved arch memStart)
      (filled : naClFillEndOfTextRegion (loadedApp useShm memStart scan) before =
        .ok (nap, after))
      (run : naClMemoryProtection world nap ⟨⟨[], capacity, true⟩, []⟩ =
        .ok state)
      (allocated : ∀ slots, (world.allocations slots).entry = true)

variable {world : ProtectWorld} {nap : LoadedApp arch} {state : ProtectState}

theorem addrBits_le_max (arch : ElfArch) :
    arch.addrBits ≤ naclMaxAddrBits arch.wordSize := by
  cases arch <;> decide

theorem allocPagesize_dvd_addrSpace (arch : ElfArch) :
    naclMapPagesize ∣ 2 ^ arch.addrBits := by
  cases arch <;> decide

theorem loadedApp_dynamicTextEnd_pos
    {scan : PhdrScan arch} {useShm : Bool} {memStart : Nat}
    (arranged : Arranged scan) :
    0 < (loadedApp useShm memStart scan).dynamicTextEnd := by
  have small := arranged.textSmall
  have room := addrSpace_room arch
  obtain ⟨behind, -⟩ :=
    @naClRoundAllocPage_bounds arch scan.staticTextEnd (by omega)
  have low := arranged.ordered.text
  have positive : 0 < naClRoundAllocPage arch.wordSize scan.staticTextEnd := by
    unfold naclTrampolineEnd at low
    omega
  change 0 < if useShm = false
    then naClRoundAllocPage arch.wordSize scan.staticTextEnd
    else if scan.rodataStart ≠ 0 then scan.rodataStart
    else if scan.dataStart ≠ 0 then scan.dataStart
    else naClRoundAllocPage arch.wordSize scan.staticTextEnd
  split
  · exact positive
  split
  · next hasRodata => exact Nat.pos_of_ne_zero hasRodata
  split
  · next hasData => exact Nat.pos_of_ne_zero hasData
  · exact positive

structure LoadedFacts (world : ProtectWorld) (nap : LoadedApp arch)
    (state : ProtectState) : Prop where
  spread : Spread nap
  place : SandboxAt arch nap.memStart
  text : 0 < nap.dynamicTextEnd
  slots : state.memMap.vmentry =
    ((initialRegions world nap).map Region.entry).map some

theorem Loaded.facts (loaded : Loaded world nap state) :
    LoadedFacts world nap state := by
  obtain ⟨checked, reserved, filled, run, allocated⟩ := loaded
  have padded :=
    naClFillEndOfTextRegion_padded checked reserved.toSandboxAt filled
  have spread := spread_of_padded checked padded
  have sameStart := congrArg LoadedApp.memStart padded.only
  have sameEnd := congrArg LoadedApp.dynamicTextEnd padded.only
  dsimp only at sameStart sameEnd
  have here : Reserved arch nap.memStart := by
    rw [sameStart]
    exact reserved
  obtain ⟨guards, tracks, -⟩ := naClMemoryProtection_tracks here spread run
  refine ⟨spread, here.toSandboxAt, ?_, tracks.complete allocated⟩
  rw [sameEnd]
  exact loadedApp_dynamicTextEnd_pos (naClAppLoadFileChecks_arranged checked)

theorem Loaded.text (loaded : Loaded world nap state) :
    0 < nap.dynamicTextEnd :=
  loaded.facts.text

theorem Loaded.inside (loaded : Loaded world nap state) :
    nap.memStart + 2 ^ arch.addrBits ≤ 2 ^ arch.wordSize.bits :=
  loaded.facts.place.inside

def Loaded.breakApp (loaded : Loaded world nap state) :
    BreakApp ⟨arch.wordSize, world.windows⟩ where
  addrBits := arch.addrBits
  memStart := nap.memStart
  dynamicTextEnd := nap.dynamicTextEnd
  memMap := state.memMap
  addrBits_le := addrBits_le_max arch
  allocated := loaded.inside
  text := loaded.text
  breakAddr := nap.breakAddr
  dataEnd := nap.dataEnd

end Runs

inductive HeapReached (qsort : QSort VmmapEntry) (arch : ElfArch)
    (world : ProtectWorld) : BreakApp ⟨arch.wordSize, world.windows⟩ → Prop
  | load {nap : LoadedApp arch} {state : ProtectState}
      (loaded : Loaded world nap state) :
      HeapReached qsort arch world loaded.breakApp
  | call {app next : BreakApp ⟨arch.wordSize, world.windows⟩}
      (call : HeapCall) (reached : HeapReached qsort arch world app)
      (run : call.perform qsort app = some next) :
      HeapReached qsort arch world next

/-! ## The first map is ready -/

section First

variable {arch : ElfArch} {world : ProtectWorld} {nap : LoadedApp arch}
  {state : ProtectState}

theorem InBand.entries_row
    {limit low high : Nat} {regions : List Region}
    (band : InBand limit low high regions) :
    InRow (regions.map Region.entry) := by
  rw [InRow, List.pairwise_map]
  refine band.ordered.imp_of_mem ?_
  intro left right leftMember rightMember ordered
  obtain ⟨leftStart, leftStop, leftProper, -⟩ := (band.fits left leftMember).1
  obtain ⟨rightStart, -, -, -⟩ := (band.fits right rightMember).1
  change left.start / 2 ^ naclPageshift +
    (left.stop - left.start) / 2 ^ naclPageshift ≤
      right.start / 2 ^ naclPageshift
  unfold naclPageshift at *
  omega

theorem Region.Fits.entry_placed
    {region : Region} {limit : Nat} (fits : region.Fits limit) :
    0 < region.entry.npages ∧
      region.entry.pageNum + region.entry.npages ≤ limit / naclPagesize := by
  obtain ⟨startAligned, stopAligned, proper, below⟩ := fits
  have most : region.stop / naclPagesize ≤ limit / naclPagesize :=
    Nat.div_le_div_right below
  change 0 < (region.stop - region.start) / 2 ^ naclPageshift ∧
    region.start / 2 ^ naclPageshift +
      (region.stop - region.start) / 2 ^ naclPageshift ≤ _
  unfold naclPageshift at *
  unfold naclPagesize at *
  omega

theorem LoadedFacts.appMap
    (facts : LoadedFacts world nap state) :
    AppMap arch.wordSize (2 ^ arch.addrBits / naclPagesize) state.memMap := by
  have band := facts.spread.initial_band world
  have placed : ∀ entry ∈ (initialRegions world nap).map Region.entry,
      0 < entry.npages ∧
        entry.pageNum + entry.npages ≤ 2 ^ arch.addrBits / naclPagesize := by
    intro entry member
    obtain ⟨region, inRegions, rfl⟩ := List.mem_map.mp member
    exact (band.fits region inRegions).1.entry_placed
  have space : 2 ^ arch.addrBits / naclPagesize ≤
      2 ^ (arch.wordSize.bits - naclPageshift) := by
    cases arch <;> decide
  refine ⟨MapInvariant.of_row facts.slots band.entries_row ?_ ?_, ?_⟩
  · intro entry member
    obtain ⟨region, -, rfl⟩ := List.mem_map.mp member
    rfl
  · intro entry member
    exact Nat.le_trans (placed entry member).2 space
  · intro entry member
    rw [entries_of_map facts.slots] at member
    exact placed entry member

theorem Loaded.invariant (loaded : Loaded world nap state) :
    BreakInvariant loaded.breakApp := by
  have facts := loaded.facts
  have spread := facts.spread
  have text := spread.text
  have bound := spread.bound
  have textLow := spread.textLow
  have dataEnd := spread.dataEnd
  have nonnull : none ∉ state.memMap.vmentry := by
    rw [facts.slots]
    exact null_not_mem_map _
  refine ⟨⟨facts.appMap, nonnull⟩, allocPagesize_dvd_addrSpace arch, ?_,
    Nat.le_of_eq dataEnd, spread.breakHigh⟩
  change 0 < nap.dataEnd
  by_cases hasData : nap.dataStart ≠ 0
  · exact Nat.lt_of_le_of_lt (Nat.zero_le _) (spread.data hasData)
  · rw [rodataBound, if_neg hasData] at bound
    unfold naclTrampolineEnd at textLow
    omega

variable {qsort : QSort VmmapEntry}
  {app : BreakApp ⟨arch.wordSize, world.windows⟩}

theorem HeapReached.invariant
    (reached : HeapReached qsort arch world app) : BreakInvariant app := by
  induction reached with
  | load loaded => exact loaded.invariant
  | call call reached run ih => exact call.perform_invariant ih run

/-- In every state a change of the break keeps the heap readable and writable
if and only if it finds the heap ready, unless it does not raise the break. -/
theorem naClSetBreak_exact
    (reached : HeapReached qsort arch world app) {host : BreakWorld}
    (willing : host.mprotect = true) (newBreak : Nat) :
    BreakSound qsort host app newBreak ↔
      (RaisesBreak host app newBreak → HeapReady app newBreak) :=
  breakSound_iff reached.invariant willing

end First

/-! ## With data and without -/

section Samples

private theorem armPage_lt : 0x1000 < 2 ^ ElfArch.arm.wordSize.bits := by
  decide

private def armDataSegment : Phdr .arm where
  type := ptLoad
  flags := pfR ||| pfW
  vaddr := 0x30000
  filesz := 0x1000
  memsz := 0x1000
  vaddr_lt := by decide
  filesz_lt := armPage_lt
  memsz_lt := armPage_lt

private def armDataScan : PhdrScan .arm where
  seen := Function.update (Function.update (fun _ => false) 1 true) 3 true
  loadable := [armText, armDataSegment]
  maxVaddr := 0x31000
  staticTextEnd := 0x21000
  rodataStart := 0
  rodataEnd := 0
  dataStart := 0x30000
  dataEnd := 0x31000

private theorem armData_checks :
    naClAppLoadFileChecks willingWorld
      ⟨validEhdr .arm, [armText, armDataSegment]⟩ = .ok armDataScan := by
  rfl

def armDataApp : LoadedApp .arm where
  memStart := 0
  stackSize := 0x1000000
  staticTextEnd := 0x30000
  dynamicTextStart := 0x30000
  dynamicTextEnd := 0x30000
  textShm := false
  rodataStart := 0
  dataStart := 0x30000
  dataEnd := 0x31000
  breakAddr := 0x31000

private theorem armData_filled :
    ∃ after, naClFillEndOfTextRegion (loadedApp false 0 armDataScan)
      (fun _ => 0) = .ok (armDataApp, after) := by
  have fits : SledFits (loadedApp false 0 armDataScan) :=
    ⟨fun hasRodata => absurd rfl hasRodata, fun _ => by decide⟩
  have counted : pagePad (loadedApp false 0 armDataScan) = .ok 0xf000 := by
    decide +kernel
  have grown : { loadedApp false 0 armDataScan with
      staticTextEnd := ElfArch.arm.wordSize.wrap
        (armDataScan.staticTextEnd + 0xf000) } = armDataApp := by
    decide +kernel
  exact armFilled armData_checks fits counted rfl grown

def armDataState : ProtectState where
  memMap :=
    ⟨[some ⟨0, 16, 0, none, false⟩, some ⟨16, 32, 5, none, false⟩,
      some ⟨48, 16, 3, none, false⟩, some ⟨0x3f000, 0x1000, 3, none, false⟩],
      5, false⟩
  protections :=
    [⟨0x40000000, 0x2000, 0⟩, ⟨0x10000, 0x20000, 5⟩, ⟨0x30000, 0x10000, 3⟩,
      ⟨0x3f000000, 0x1000000, 3⟩]

private theorem armData_protected :
    naClMemoryProtection plentyWorld armDataApp
      ⟨⟨[], startEntries, true⟩, []⟩ = .ok armDataState := by
  decide +kernel

theorem armData_loaded :
    Loaded plentyWorld armDataApp armDataState := by
  obtain ⟨after, filled⟩ := armData_filled
  exact ⟨armData_checks, arm_reserved, filled, armData_protected, fun _ => rfl⟩

private theorem armText_loaded : Loaded plentyWorld armApp armState := by
  obtain ⟨after, filled⟩ := armText_filled
  exact ⟨armText_checks, arm_reserved, filled, armText_protected, fun _ => rfl⟩

/-- A module with data: the entry of the data gets a second allocation
page. -/
theorem naClSetBreak_exact_data :
    BreakSound (insertionQSort VmmapEntry) ⟨true, true⟩
      armData_loaded.breakApp 0x41000 := by
  refine (naClSetBreak_exact (HeapReached.load armData_loaded) rfl 0x41000).mpr
    ?_
  intro _
  exact ⟨⟨48, 16, 3, none, false⟩, by decide, by decide,
    .inl ⟨by decide, by decide, by decide⟩⟩

/-- A module that has only text: the entry of the text gets longer. -/
theorem not_breakSound_textOnly :
    ¬ ∀ (qsort : QSort VmmapEntry) (arch : ElfArch) (world : ProtectWorld)
        (app : BreakApp ⟨arch.wordSize, world.windows⟩),
      HeapReached qsort arch world app → ∀ (host : BreakWorld),
        host.mprotect = true → ∀ newBreak,
          BreakSound qsort host app newBreak := by
  intro always
  have reached : HeapReached (insertionQSort VmmapEntry) .arm plentyWorld
      armText_loaded.breakApp := .load armText_loaded
  have sound := always _ _ _ _ reached ⟨true, true⟩ rfl 0x31000
  have ready := (breakSound_iff reached.invariant rfl).mp sound
    ⟨by decide, rfl, by decide⟩
  obtain ⟨entry, member, covers, ready⟩ := ready
  have isText : entry = ⟨16, 32, 5, none, false⟩ := by
    have listed : entry ∈ [(⟨0, 16, 0, none, false⟩ : VmmapEntry),
        ⟨16, 32, 5, none, false⟩, ⟨0x3f000, 0x1000, 3, none, false⟩] := member
    simp only [List.mem_cons, List.not_mem_nil, or_false] at listed
    rcases listed with rfl | rfl | rfl
    · exact absurd covers (by decide)
    · rfl
    · exact absurd covers (by decide)
  subst isText
  rcases ready with ⟨-, writable, -⟩ | ⟨-, next, member, behind, starts⟩
  · exact absurd writable (by decide)
  · have listed : next ∈ [(⟨0, 16, 0, none, false⟩ : VmmapEntry),
        ⟨16, 32, 5, none, false⟩, ⟨0x3f000, 0x1000, 3, none, false⟩] := member
    simp only [List.mem_cons, List.not_mem_nil, or_false] at listed
    rcases listed with rfl | rfl | rfl
    · exact absurd behind (by decide)
    · exact absurd behind (by decide)
    · exact absurd starts (by decide)

end Samples

end NativeClient.Loader
