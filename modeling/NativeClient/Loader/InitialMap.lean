import NativeClient.Loader.TextPadding
import NativeClient.Runtime.VmmapUpdate

/-!
# The first memory map

After the load the pages of each segment get their protection, and the memory
map an entry for them.  The guards outside of the sandbox have no entries.  On
ARM the lowest pages have an entry, but no memory that could be protected.
-/

namespace NativeClient.Loader

open NativeClient.Runtime

structure HostRegion where
  start : Nat
  size : Nat
  prot : Int
  deriving DecidableEq

/-- What the operating system answers: whether memory can be protected,
allocated for the entry behind a number of slots, and for the object of the
dynamic text, whose descriptor is `textShmDesc`. -/
structure ProtectWorld where
  windows : Bool
  mprotect : HostRegion → Bool
  allocations : Nat → AddAllocations
  memObj : Bool
  textShmDesc : Nat

structure ProtectState where
  memMap : Vmmap
  protections : List HostRegion
  deriving DecidableEq

/-- `NACL_SYSCALL_START_ADDR`, where the trampolines start. -/
def naclSyscallStartAddr : Nat := 0x10000

def naclGuardSize : Nat := 10 * 2 ^ 32

def naclPostAddrSpaceGuardSize : Nat := 2 * 2 ^ naclPageshift

def protNoAccess : Int := 0
def protReadOnly : Int := 1
def protReadWrite : Int := 3
def protReadExec : Int := 5

section Code

variable {arch : ElfArch}

def LoadedApp.space (nap : LoadedApp arch) : AddressSpace where
  wordBits := arch.wordSize.bits
  addrBits := arch.addrBits
  memStart := nap.memStart

def orFatal : Option Nat → Except LoadError Nat
  | none => .error .fatal
  | some address => .ok address

variable (world : ProtectWorld)

def naClMprotect (host : HostRegion) (state : ProtectState) :
    Except LoadError ProtectState :=
  if world.mprotect host then
    .ok { state with protections := state.protections ++ [host] }
  else
    .error .mprotectFail

/-- `NaClVmmapAdd`, with the check of its result. -/
def addEntry (usraddr size : Nat) (prot : Int) (nmop : Option MemObj)
    (state : ProtectState) : Except LoadError ProtectState :=
  let (memMap, added) := naClVmmapAdd (world.allocations (nvalid state.memMap))
    state.memMap (usraddr / 2 ^ naclPageshift) (size / 2 ^ naclPageshift) prot
    nmop
  if added then .ok { state with memMap := memMap } else .error .mprotectFail

def naClMprotectGuards (nap : LoadedApp arch) (state : ProtectState) :
    Except LoadError ProtectState :=
  let nullRegion : HostRegion := ⟨nap.memStart, naclSyscallStartAddr, protNoAccess⟩
  match arch with
  | .x86_32 => do
      let state ← naClMprotect world nullRegion state
      addEntry world 0 naclSyscallStartAddr protNoAccess none state
  | .x86_64 => do
      let state ← naClMprotect world nullRegion state
      let state ← addEntry world 0 naclSyscallStartAddr protNoAccess none state
      if world.windows then
        .ok state
      else
        let state ← naClMprotect world
          ⟨ElfArch.x86_64.wordSize.sub nap.memStart naclGuardSize, naclGuardSize,
            protNoAccess⟩ state
        naClMprotect world
          ⟨ElfArch.x86_64.wordSize.wrap (nap.memStart + 2 ^ 32), naclGuardSize,
            protNoAccess⟩ state
  | .arm => do
      let state ← addEntry world nap.memStart naclSyscallStartAddr protNoAccess
        none state
      naClMprotect world
        ⟨2 ^ ElfArch.arm.addrBits, naclPostAddrSpaceGuardSize, protNoAccess⟩ state

def protectAndAdd (nap : LoadedApp arch) (host : HostRegion)
    (nmop : Option MemObj) (state : ProtectState) :
    Except LoadError ProtectState := do
  let state ← naClMprotect world host state
  let usraddr ← orFatal (nap.space.naClSysToUser host.start)
  addEntry world usraddr host.size host.prot nmop state

def protectText (nap : LoadedApp arch) (state : ProtectState) :
    Except LoadError ProtectState :=
  let startAddr := arch.wordSize.wrap (nap.memStart + naclSyscallStartAddr)
  let regionSize := naClRoundPage arch.wordSize
    (arch.wordSize.sub nap.staticTextEnd naclSyscallStartAddr)
  protectAndAdd world nap ⟨startAddr, regionSize, protReadExec⟩ none state

def textMemObj (nap : LoadedApp arch) (regionSize : Nat) :
    Except LoadError (Option MemObj) :=
  if nap.textShm = false then .ok none
  else if world.memObj then
    .ok (some ⟨world.textShmDesc, BitVec.ofNat 64 regionSize, 0⟩)
  else
    .error .fatal

def protectDynamicText (nap : LoadedApp arch) (state : ProtectState) :
    Except LoadError ProtectState := do
  let startAddr ← orFatal (nap.space.naClUserToSys nap.dynamicTextStart)
  let regionSize := arch.wordSize.sub nap.dynamicTextEnd nap.dynamicTextStart
  if regionSize = 0 then
    .ok state
  else
    let state ← naClMprotect world ⟨startAddr, regionSize, protReadExec⟩ state
    let usraddr ← orFatal (nap.space.naClSysToUser startAddr)
    let nmop ← textMemObj world nap regionSize
    addEntry world usraddr regionSize protReadExec nmop state

def protectSegment (nap : LoadedApp arch) (start stop : Nat) (prot : Int)
    (state : ProtectState) : Except LoadError ProtectState := do
  let startAddr ← orFatal (nap.space.naClUserToSys start)
  let usraddr ← orFatal (nap.space.naClSysToUser startAddr)
  let regionSize := naClRoundPage arch.wordSize
    (arch.wordSize.sub (naClRoundAllocPage arch.wordSize stop) usraddr)
  protectAndAdd world nap ⟨startAddr, regionSize, prot⟩ none state

def protectRodata (nap : LoadedApp arch) (state : ProtectState) :
    Except LoadError ProtectState :=
  if nap.rodataStart = 0 then
    .ok state
  else
    let rodataEnd := if nap.dataStart ≠ 0 then nap.dataStart else nap.breakAddr
    protectSegment world nap nap.rodataStart rodataEnd protReadOnly state

def protectData (nap : LoadedApp arch) (state : ProtectState) :
    Except LoadError ProtectState :=
  if nap.dataStart = 0 then
    .ok state
  else
    protectSegment world nap nap.dataStart nap.dataEnd protReadWrite state

def protectStack (nap : LoadedApp arch) (state : ProtectState) :
    Except LoadError ProtectState := do
  let startAddr ← orFatal (nap.space.naClUserToSys
    (naClTruncAllocPage (arch.wordSize.sub (2 ^ arch.addrBits) nap.stackSize)))
  let state ← naClMprotect world
    ⟨startAddr, naClRoundAllocPage arch.wordSize nap.stackSize, protReadWrite⟩ state
  let usraddr ← orFatal (nap.space.naClSysToUser startAddr)
  addEntry world usraddr nap.stackSize protReadWrite none state

def naClMemoryProtection (nap : LoadedApp arch) (state : ProtectState) :
    Except LoadError ProtectState := do
  let state ← naClMprotectGuards world nap state
  let state ← protectText world nap state
  let state ← protectDynamicText world nap state
  let state ← protectRodata world nap state
  let state ← protectData world nap state
  protectStack world nap state

end Code

section Statements

variable {arch : ElfArch}

def Writable (prot : Int) : Prop := prot / 2 % 2 = 1

def Executable (prot : Int) : Prop := prot / 4 % 2 = 1

namespace HostRegion

def Has (host : HostRegion) (sysaddr : Nat) : Prop :=
  host.start ≤ sysaddr ∧ sysaddr < host.start + host.size

def Inside (host : HostRegion) (start stop : Nat) : Prop :=
  start ≤ host.start ∧ host.start + host.size ≤ stop

def Outside (host : HostRegion) (start stop : Nat) : Prop :=
  host.start + host.size ≤ start ∨ stop ≤ host.start

end HostRegion

def UnmappedNull (arch : ElfArch) (usraddr : Nat) (prot : Int) : Prop :=
  arch = .arm ∧ usraddr < naclSyscallStartAddr ∧ prot = protNoAccess

structure RecordsProtection (nap : LoadedApp arch) (world : ProtectWorld)
    (state : ProtectState) : Prop where
  disjoint : EntriesDisjoint state.memMap
  exclusive : ∀ entry ∈ entries state.memMap,
    ¬ (Writable entry.prot ∧ Executable entry.prot)
  recorded : (∀ slots, (world.allocations slots).entry = true) →
    ∀ usraddr < 2 ^ arch.addrBits, ∀ prot,
      (∃ entry ∈ entries state.memMap, entry.prot = prot ∧
          entry.Covers (usraddr / 2 ^ naclPageshift)) ↔
        (∃ host ∈ state.protections, host.prot = prot ∧
            host.Has (nap.memStart + usraddr)) ∨
          UnmappedNull arch usraddr prot
  guards : ∀ host ∈ state.protections,
    host.Inside nap.memStart (nap.memStart + 2 ^ arch.addrBits) ∨
      host.Outside nap.memStart (nap.memStart + 2 ^ arch.addrBits) ∧
        host.prot = protNoAccess

structure Reserved (arch : ElfArch) (memStart : Nat) : Prop
    extends SandboxAt arch memStart where
  guards : arch = .x86_64 → naclGuardSize ≤ memStart ∧
    memStart + 2 ^ 32 + naclGuardSize ≤ 2 ^ 64

end Statements

/-! ## The regions of the address space -/

structure Region where
  start : Nat
  stop : Nat
  prot : Int
  nmop : Option MemObj

namespace Region

def entry (region : Region) : VmmapEntry :=
  ⟨region.start / 2 ^ naclPageshift,
    (region.stop - region.start) / 2 ^ naclPageshift, region.prot, region.nmop,
    false⟩

def host (memStart : Nat) (region : Region) : HostRegion :=
  ⟨memStart + region.start, region.stop - region.start, region.prot⟩

structure Fits (limit : Nat) (region : Region) : Prop where
  startAligned : 2 ^ naclPageshift ∣ region.start
  stopAligned : 2 ^ naclPageshift ∣ region.stop
  proper : region.start < region.stop
  below : region.stop ≤ limit

variable {region other : Region} {limit memStart : Nat}

theorem Fits.entry_covers
    (fits : region.Fits limit) (usraddr : Nat) :
    region.entry.Covers (usraddr / 2 ^ naclPageshift) ↔
      region.start ≤ usraddr ∧ usraddr < region.stop := by
  obtain ⟨startAligned, stopAligned, proper, -⟩ := fits
  change region.start / 2 ^ naclPageshift ≤ usraddr / 2 ^ naclPageshift ∧
    usraddr / 2 ^ naclPageshift < region.start / 2 ^ naclPageshift +
      (region.stop - region.start) / 2 ^ naclPageshift ↔ _
  unfold naclPageshift at *
  omega

theorem host_has (proper : region.start < region.stop) (usraddr : Nat) :
    (region.host memStart).Has (memStart + usraddr) ↔
      region.start ≤ usraddr ∧ usraddr < region.stop := by
  change memStart + region.start ≤ memStart + usraddr ∧
    memStart + usraddr < memStart + region.start +
      (region.stop - region.start) ↔ _
  omega

theorem Fits.entries_disjoint
    (fits : region.Fits limit) (otherFits : other.Fits limit)
    (ordered : region.stop ≤ other.start) (page : Nat) :
    ¬ (region.entry.Covers page ∧ other.entry.Covers page) := by
  have pages : page = page * 2 ^ naclPageshift / 2 ^ naclPageshift :=
    (Nat.mul_div_cancel _ (Nat.two_pow_pos _)).symm
  rintro ⟨covers, otherCovers⟩
  rw [pages] at covers otherCovers
  have inRegion := (fits.entry_covers _).mp covers
  have inOther := (otherFits.entry_covers _).mp otherCovers
  omega

end Region

section Regions

variable {arch : ElfArch}

def textRegion (nap : LoadedApp arch) : Region :=
  ⟨naclSyscallStartAddr, nap.staticTextEnd, protReadExec, none⟩

def dynamicRegions (world : ProtectWorld) (nap : LoadedApp arch) :
    List Region :=
  if nap.dynamicTextStart < nap.dynamicTextEnd then
    [⟨nap.dynamicTextStart, nap.dynamicTextEnd, protReadExec,
      some ⟨world.textShmDesc, BitVec.ofNat 64
        (nap.dynamicTextEnd - nap.dynamicTextStart), 0⟩⟩]
  else
    []

def rodataRegions (nap : LoadedApp arch) : List Region :=
  if nap.rodataStart = 0 then []
  else
    [⟨nap.rodataStart, naClRoundAllocPage arch.wordSize
      (if nap.dataStart ≠ 0 then nap.dataStart else nap.breakAddr),
      protReadOnly, none⟩]

def dataRegions (nap : LoadedApp arch) : List Region :=
  if nap.dataStart = 0 then []
  else
    [⟨nap.dataStart, naClRoundAllocPage arch.wordSize nap.dataEnd, protReadWrite, none⟩]

def stackRegion (nap : LoadedApp arch) : Region :=
  ⟨naClTruncAllocPage (2 ^ arch.addrBits - nap.stackSize), 2 ^ arch.addrBits,
    protReadWrite, none⟩

def nullRegion : Region := ⟨0, naclSyscallStartAddr, protNoAccess, none⟩

def memoryRegions (world : ProtectWorld) (nap : LoadedApp arch) : List Region :=
  [textRegion nap] ++ dynamicRegions world nap ++ rodataRegions nap ++
    dataRegions nap ++ [stackRegion nap]

structure InBand (limit low high : Nat) (regions : List Region) : Prop where
  proper : low ≤ high
  fits : ∀ region ∈ regions,
    region.Fits limit ∧ low ≤ region.start ∧ region.stop ≤ high
  ordered : regions.Pairwise (fun left right => left.stop ≤ right.start)

namespace InBand

variable {limit low middle high : Nat} {first second : List Region}
  {region : Region}

theorem nil (proper : low ≤ high) : InBand limit low high [] :=
  ⟨proper, nofun, List.Pairwise.nil⟩

theorem singleton
    (fits : region.Fits limit) (above : low ≤ region.start)
    (below : region.stop ≤ high) : InBand limit low high [region] := by
  refine ⟨?_, ?_, List.pairwise_singleton _ _⟩
  · have proper := fits.proper
    omega
  · intro other member
    rw [List.mem_singleton.mp member]
    exact ⟨fits, above, below⟩

theorem append
    (lower : InBand limit low middle first)
    (upper : InBand limit middle high second) :
    InBand limit low high (first ++ second) := by
  refine ⟨Nat.le_trans lower.proper upper.proper, ?_, ?_⟩
  · intro region member
    rcases List.mem_append.mp member with member | member
    · obtain ⟨fits, above, below⟩ := lower.fits region member
      exact ⟨fits, above, Nat.le_trans below upper.proper⟩
    · obtain ⟨fits, above, below⟩ := upper.fits region member
      exact ⟨fits, Nat.le_trans lower.proper above, below⟩
  · rw [List.pairwise_append]
    refine ⟨lower.ordered, upper.ordered, ?_⟩
    intro left leftMember right rightMember
    have below := (lower.fits left leftMember).2.2
    have above := (upper.fits right rightMember).2.1
    exact Nat.le_trans below above

end InBand

end Regions

/-! ## The layout behind the padding -/

section Spread

variable {arch : ElfArch} {scan : PhdrScan arch} {useShm : Bool}
  {memStart : Nat}

def textBound (nap : LoadedApp arch) : Nat :=
  if nap.rodataStart ≠ 0 then nap.rodataStart
  else if nap.dataStart ≠ 0 then nap.dataStart
  else nap.breakAddr

def rodataBound (nap : LoadedApp arch) : Nat :=
  if nap.dataStart ≠ 0 then nap.dataStart else nap.breakAddr

structure Spread (nap : LoadedApp arch) : Prop where
  textLow : naclTrampolineEnd ≤ nap.staticTextEnd
  textAligned : naclMapPagesize ∣ nap.staticTextEnd
  text : nap.staticTextEnd ≤ textBound nap
  dynamicStart : naclMapPagesize ∣ nap.dynamicTextStart
  dynamicEnd : nap.dynamicTextStart < nap.dynamicTextEnd →
    nap.staticTextEnd ≤ nap.dynamicTextStart ∧
      nap.dynamicTextEnd = textBound nap ∧
      naclMapPagesize ∣ nap.dynamicTextEnd
  dynamicLe : nap.dynamicTextStart ≤ nap.dynamicTextEnd
  dynamicHigh : nap.dynamicTextEnd < 2 ^ arch.addrBits
  shared : nap.textShm = true ↔ nap.dynamicTextStart < nap.dynamicTextEnd
  rodataAligned : nap.rodataStart ≠ 0 → naclMapPagesize ∣ nap.rodataStart
  rodata : nap.rodataStart ≠ 0 → nap.rodataStart < rodataBound nap
  bound : textBound nap ≤ rodataBound nap
  boundAligned : naclMapPagesize ∣ rodataBound nap
  data : nap.dataStart ≠ 0 → nap.dataStart < nap.dataEnd
  dataEnd : nap.dataEnd = nap.breakAddr
  breakHigh : nap.breakAddr < 2 ^ arch.addrBits
  stackSize : nap.stackSize = naClRoundAllocPage arch.wordSize naclDefaultStackMax
  stack : naClRoundAllocPage arch.wordSize nap.breakAddr ≤ naClTruncAllocPage
    (2 ^ arch.addrBits - naClRoundAllocPage arch.wordSize naclDefaultStackMax)

theorem breakAddr_dvd (noData : scan.dataStart = 0) :
    naclMapPagesize ∣ breakAddr scan := by
  rw [breakAddr, if_pos noData]
  exact naClRoundAllocPage_dvd arch _

theorem segments_nonempty
    {world : LoadWorld} {image : ElfImage arch}
    (run : naClAppLoadFileChecks world image = .ok scan) :
    (scan.rodataStart ≠ 0 → scan.rodataStart < scan.rodataEnd) ∧
      (scan.dataStart ≠ 0 → scan.dataStart < scan.dataEnd) := by
  have invariant := (naClAppLoadFileChecks_spec run).invariant
  constructor
  · intro hasRodata
    obtain ⟨php, member, takes⟩ := invariant.noRodata hasRodata
    obtain ⟨start, stop⟩ := invariant.rodata php member takes
    have nonempty := (invariant.placed php member).nonempty
    omega
  · intro hasData
    obtain ⟨php, member, takes⟩ := invariant.noData hasData
    obtain ⟨start, stop⟩ := invariant.data php member takes
    have nonempty := (invariant.placed php member).nonempty
    omega

theorem loadedApp_shared
    (arranged : Arranged scan) :
    let nap := loadedApp useShm memStart scan
    nap.dynamicTextStart ≤ nap.dynamicTextEnd ∧
      nap.dynamicTextEnd < 2 ^ arch.addrBits ∧
      (nap.textShm = true ↔ nap.dynamicTextStart < nap.dynamicTextEnd) := by
  have pageEnd := @Arranged.pageEnd arch scan useShm memStart arranged
  have room := addrSpace_room arch
  have breakHigh := arranged.ordered.breakHigh
  have below : naClRoundAllocPage arch.wordSize scan.staticTextEnd ≤ breakAddr scan :=
    pageEnd.breakAddr
  have ordered : (loadedApp useShm memStart scan).dynamicTextStart ≤
      (loadedApp useShm memStart scan).dynamicTextEnd := by
    change naClRoundAllocPage arch.wordSize scan.staticTextEnd ≤ (if useShm = false
      then naClRoundAllocPage arch.wordSize scan.staticTextEnd
      else if scan.rodataStart ≠ 0 then scan.rodataStart
      else if scan.dataStart ≠ 0 then scan.dataStart
      else naClRoundAllocPage arch.wordSize scan.staticTextEnd)
    split
    · exact Nat.le_refl _
    split
    · next hasRodata => exact pageEnd.rodata hasRodata
    split
    · next hasData => exact pageEnd.data hasData
    · exact Nat.le_refl _
  have high : (loadedApp useShm memStart scan).dynamicTextEnd <
      2 ^ arch.addrBits := by
    change (if useShm = false
      then naClRoundAllocPage arch.wordSize scan.staticTextEnd
      else if scan.rodataStart ≠ 0 then scan.rodataStart
      else if scan.dataStart ≠ 0 then scan.dataStart
      else naClRoundAllocPage arch.wordSize scan.staticTextEnd) < _
    split
    · omega
    split
    · next hasRodata =>
        have inside := arranged.ordered.rodata hasRodata
        omega
    split
    · next hasData =>
        have inside := arranged.ordered.data hasData
        omega
    · omega
  refine ⟨ordered, high, ?_⟩
  have difference : arch.wordSize.sub
      (loadedApp useShm memStart scan).dynamicTextEnd
      (loadedApp useShm memStart scan).dynamicTextStart =
        (loadedApp useShm memStart scan).dynamicTextEnd -
          (loadedApp useShm memStart scan).dynamicTextStart :=
    WordSize.sub_of_le _ ordered (by omega)
  have shared : (loadedApp useShm memStart scan).textShm =
      decide (arch.wordSize.sub
        (loadedApp useShm memStart scan).dynamicTextEnd
        (loadedApp useShm memStart scan).dynamicTextStart ≠ 0) := rfl
  rw [shared, difference, decide_eq_true_iff]
  omega

theorem loadedApp_dynamicEnd
    (arranged : Arranged scan)
    (present : (loadedApp useShm memStart scan).dynamicTextStart <
      (loadedApp useShm memStart scan).dynamicTextEnd) :
    (loadedApp useShm memStart scan).dynamicTextEnd =
        textBound (loadedApp useShm memStart scan) ∧
      naclMapPagesize ∣ (loadedApp useShm memStart scan).dynamicTextEnd := by
  change naClRoundAllocPage arch.wordSize scan.staticTextEnd < (if useShm = false
    then naClRoundAllocPage arch.wordSize scan.staticTextEnd
    else if scan.rodataStart ≠ 0 then scan.rodataStart
    else if scan.dataStart ≠ 0 then scan.dataStart
    else naClRoundAllocPage arch.wordSize scan.staticTextEnd) at present
  change (if useShm = false
    then naClRoundAllocPage arch.wordSize scan.staticTextEnd
    else if scan.rodataStart ≠ 0 then scan.rodataStart
    else if scan.dataStart ≠ 0 then scan.dataStart
    else naClRoundAllocPage arch.wordSize scan.staticTextEnd) =
      (if scan.rodataStart ≠ 0 then scan.rodataStart
        else if scan.dataStart ≠ 0 then scan.dataStart
        else breakAddr scan) ∧ naclMapPagesize ∣ (if useShm = false
    then naClRoundAllocPage arch.wordSize scan.staticTextEnd
    else if scan.rodataStart ≠ 0 then scan.rodataStart
    else if scan.dataStart ≠ 0 then scan.dataStart
    else naClRoundAllocPage arch.wordSize scan.staticTextEnd)
  split at present
  · exact absurd present (Nat.lt_irrefl _)
  next isShared =>
  rw [if_neg isShared]
  by_cases hasRodata : scan.rodataStart ≠ 0
  · rw [if_pos hasRodata, if_pos hasRodata]
    exact ⟨rfl, arranged.rodataAligned hasRodata⟩
  · rw [if_neg hasRodata] at present ⊢
    by_cases hasData : scan.dataStart ≠ 0
    · rw [if_neg hasRodata, if_pos hasData, if_pos hasData]
      exact ⟨rfl, arranged.dataAligned hasData⟩
    · rw [if_neg hasData] at present
      exact absurd present (Nat.lt_irrefl _)

theorem spread_of_padded
    {world : LoadWorld} {image : ElfImage arch}
    {next : LoadedApp arch} {before after : NativeClient.Library.Buffer}
    (run : naClAppLoadFileChecks world image = .ok scan)
    (padded : Padded (loadedApp useShm memStart scan) next before after) :
    Spread next := by
  have arranged := naClAppLoadFileChecks_arranged run
  obtain ⟨rodataNonempty, dataNonempty⟩ := segments_nonempty run
  obtain ⟨dynamicLe, dynamicHigh, shared⟩ :=
    @loadedApp_shared arch scan useShm memStart arranged
  have dynamicEnd := @loadedApp_dynamicEnd arch scan useShm memStart arranged
  have ordered := arranged.ordered
  obtain ⟨only, aligned, forward, -, -, rodata, data, dynamicText, breakLe⟩ :=
    padded
  generalize next.staticTextEnd = textEnd at *
  subst only
  change scan.rodataStart ≠ 0 → textEnd ≤ scan.rodataStart at rodata
  change scan.dataStart ≠ 0 → textEnd ≤ scan.dataStart at data
  change textEnd ≤ breakAddr scan at breakLe
  change scan.staticTextEnd ≤ textEnd at forward
  constructor
  case textLow => exact Nat.le_trans ordered.text forward
  case textAligned => exact aligned
  case text =>
    change textEnd ≤ if scan.rodataStart ≠ 0 then scan.rodataStart
      else if scan.dataStart ≠ 0 then scan.dataStart else breakAddr scan
    split
    · next hasRodata => exact rodata hasRodata
    split
    · next hasData => exact data hasData
    · exact breakLe
  case dynamicStart => exact naClRoundAllocPage_dvd arch _
  case dynamicEnd =>
    intro present
    exact ⟨dynamicText (shared.mpr present), dynamicEnd present⟩
  case dynamicLe => exact dynamicLe
  case dynamicHigh => exact dynamicHigh
  case shared => exact shared
  case rodataAligned => exact arranged.rodataAligned
  case rodata =>
    intro hasRodata
    change scan.rodataStart <
      if scan.dataStart ≠ 0 then scan.dataStart else breakAddr scan
    have nonempty := rodataNonempty hasRodata
    split
    · next hasData =>
        exact Nat.lt_of_lt_of_le nonempty (ordered.both hasRodata hasData)
    · exact Nat.lt_of_lt_of_le nonempty (ordered.rodata hasRodata).2.2
  case bound =>
    change (if scan.rodataStart ≠ 0 then scan.rodataStart
      else if scan.dataStart ≠ 0 then scan.dataStart else breakAddr scan) ≤
        if scan.dataStart ≠ 0 then scan.dataStart else breakAddr scan
    split
    · next hasRodata =>
        have nonempty := rodataNonempty hasRodata
        split
        · next hasData =>
            have both := ordered.both hasRodata hasData
            omega
        · have inside := ordered.rodata hasRodata
          omega
    · exact Nat.le_refl _
  case boundAligned =>
    change naclMapPagesize ∣
      if scan.dataStart ≠ 0 then scan.dataStart else breakAddr scan
    split
    · next hasData => exact arranged.dataAligned hasData
    · next noData => exact breakAddr_dvd (not_not.mp noData)
  case data =>
    intro hasData
    have nonempty := dataNonempty hasData
    have last := (ordered.data hasData).2.2
    change scan.dataStart < breakAddr scan
    omega
  case dataEnd => rfl
  case breakHigh => exact ordered.breakHigh
  case stackSize => rfl
  case stack => exact arranged.stack

theorem page_dvd {address : Nat} (aligned : naclMapPagesize ∣ address) :
    2 ^ naclPageshift ∣ address :=
  Nat.dvd_trans (by decide) aligned

theorem naClRoundAllocPage_of_dvd
    {nbytes : Nat} (aligned : naclMapPagesize ∣ nbytes)
    (small : nbytes < 2 ^ arch.addrBits) :
    naClRoundAllocPage arch.wordSize nbytes = nbytes := by
  have room := addrSpace_room arch
  have fits : nbytes + naclMapPagesize ≤ 2 ^ arch.wordSize.bits := by
    omega
  exact Nat.le_antisymm (naClRoundAllocPage_le aligned (Nat.le_refl _) fits)
    (naClRoundAllocPage_bounds fits).1

theorem addrSpace_dvd (arch : ElfArch) : naclMapPagesize ∣ 2 ^ arch.addrBits := by
  cases arch <;> decide

theorem stack_nonempty (arch : ElfArch) : naClTruncAllocPage (2 ^ arch.addrBits -
    naClRoundAllocPage arch.wordSize naclDefaultStackMax) < 2 ^ arch.addrBits := by
  cases arch <;> decide

namespace Spread

variable {nap : LoadedApp arch} (spread : Spread nap)

include spread

theorem rodataBound_le : rodataBound nap ≤ nap.breakAddr := by
  rw [rodataBound]
  split
  · next hasData =>
      have nonempty := spread.data hasData
      have dataEnd := spread.dataEnd
      omega
  · exact Nat.le_refl _

theorem textRegion_fits :
    Region.Fits (2 ^ arch.addrBits) (textRegion nap) := by
  have startAligned : 2 ^ naclPageshift ∣ naclSyscallStartAddr := by decide
  have bound := spread.bound
  have last := spread.rodataBound_le
  have breakHigh := spread.breakHigh
  have text := spread.text
  refine ⟨startAligned, page_dvd spread.textAligned, ?_, ?_⟩
  · have lower : naclSyscallStartAddr < naclTrampolineEnd := by decide
    exact Nat.lt_of_lt_of_le lower spread.textLow
  · change nap.staticTextEnd ≤ _
    omega

theorem text_band (world : ProtectWorld) :
    InBand (2 ^ arch.addrBits) naclSyscallStartAddr (textBound nap)
      ([textRegion nap] ++ dynamicRegions world nap) := by
  have textFits := spread.textRegion_fits
  rw [dynamicRegions]
  split
  · next present =>
      obtain ⟨behind, ends, aligned⟩ := spread.dynamicEnd present
      refine (InBand.singleton textFits (Nat.le_refl _) (Nat.le_refl _)).append
        (InBand.singleton ⟨page_dvd spread.dynamicStart, page_dvd aligned,
          present, ?_⟩ behind (Nat.le_of_eq ends))
      exact Nat.le_of_lt spread.dynamicHigh
  · rw [List.append_nil]
    exact InBand.singleton textFits (Nat.le_refl _) spread.text

theorem rodata_band :
    InBand (2 ^ arch.addrBits) (textBound nap) (rodataBound nap)
      (rodataRegions nap) := by
  have bound := spread.bound
  have last := spread.rodataBound_le
  have breakHigh := spread.breakHigh
  rw [rodataRegions]
  split
  · exact InBand.nil bound
  · next hasRodata =>
      have stop : naClRoundAllocPage arch.wordSize (rodataBound nap) = rodataBound nap :=
        naClRoundAllocPage_of_dvd spread.boundAligned (by omega)
      have start : textBound nap = nap.rodataStart := if_pos hasRodata
      change InBand _ _ _ [⟨nap.rodataStart,
        naClRoundAllocPage arch.wordSize (rodataBound nap), protReadOnly, none⟩]
      rw [stop]
      refine InBand.singleton ⟨page_dvd (spread.rodataAligned hasRodata),
        page_dvd spread.boundAligned, spread.rodata hasRodata, ?_⟩
        (Nat.le_of_eq start) (Nat.le_refl _)
      change rodataBound nap ≤ _
      omega

theorem dataEnd_bounds :
    nap.dataEnd ≤ naClRoundAllocPage arch.wordSize nap.dataEnd ∧
      naClRoundAllocPage arch.wordSize nap.dataEnd ≤ 2 ^ arch.addrBits := by
  have room := addrSpace_room arch
  have breakHigh := spread.breakHigh
  have dataEnd := spread.dataEnd
  have bounds := @naClRoundAllocPage_bounds arch nap.dataEnd (by omega)
  have stack := spread.stack
  have below := stack_nonempty arch
  rw [← dataEnd] at stack
  omega

theorem data_band :
    InBand (2 ^ arch.addrBits) (rodataBound nap)
      (naClRoundAllocPage arch.wordSize nap.dataEnd) (dataRegions nap) := by
  obtain ⟨above, below⟩ := spread.dataEnd_bounds
  have last := spread.rodataBound_le
  have dataEnd := spread.dataEnd
  rw [dataRegions]
  split
  · exact InBand.nil (by omega)
  · next hasData =>
      have nonempty := spread.data hasData
      have start : rodataBound nap = nap.dataStart := if_pos hasData
      have aligned := spread.boundAligned
      rw [start] at aligned
      refine InBand.singleton ⟨page_dvd aligned,
        page_dvd (naClRoundAllocPage_dvd arch _), ?_, below⟩
        (Nat.le_of_eq start) (Nat.le_refl _)
      change nap.dataStart < naClRoundAllocPage arch.wordSize nap.dataEnd
      omega

theorem stack_band :
    InBand (2 ^ arch.addrBits) (naClRoundAllocPage arch.wordSize nap.dataEnd)
      (2 ^ arch.addrBits) [stackRegion nap] := by
  have stack := spread.stack
  have nonempty := stack_nonempty arch
  rw [← spread.dataEnd] at stack
  rw [← spread.stackSize] at stack nonempty
  refine InBand.singleton ⟨page_dvd (Nat.dvd_mul_left _ _),
    page_dvd (addrSpace_dvd arch), nonempty, Nat.le_refl _⟩ stack
    (Nat.le_refl _)

theorem memory_band (world : ProtectWorld) :
    InBand (2 ^ arch.addrBits) naclSyscallStartAddr (2 ^ arch.addrBits)
      (memoryRegions world nap) :=
  (((spread.text_band world).append spread.rodata_band).append
    spread.data_band).append spread.stack_band

end Spread

end Spread

/-! ## The steps of the protection -/

section Steps

variable {arch : ElfArch} {nap : LoadedApp arch} {world : ProtectWorld}
  {guards : List HostRegion} {hosted regions : List Region}
  {region : Region} {state next : ProtectState}

/-- What has been protected, and what has been recorded.  An entry for which
there is no memory is missing. -/
structure Tracks (memStart : Nat) (world : ProtectWorld)
    (guards : List HostRegion) (hosted regions : List Region)
    (state : ProtectState) : Prop where
  stored : (entries state.memMap).Sublist (regions.map Region.entry)
  complete : (∀ slots, (world.allocations slots).entry = true) →
    state.memMap.vmentry = (regions.map Region.entry).map some
  hosts : ∀ host, host ∈ state.protections ↔
    host ∈ guards ∨ host ∈ hosted.map (Region.host memStart)

variable {memStart : Nat}

theorem Tracks.start (size : Nat) (isSorted : Bool) :
    Tracks memStart world [] [] [] ⟨⟨[], size, isSorted⟩, []⟩ := by
  refine ⟨List.Sublist.refl _, fun _ => rfl, ?_⟩
  simp

theorem Tracks.protect
    (tracks : Tracks memStart world guards hosted regions state)
    {host : HostRegion} (same : host = region.host memStart)
    (run : naClMprotect world host state = .ok next) :
    Tracks memStart world guards (hosted ++ [region]) regions next := by
  rw [naClMprotect] at run
  split at run
  · cases run
    refine ⟨tracks.stored, tracks.complete, ?_⟩
    intro other
    rw [List.mem_append, tracks.hosts, List.map_append, List.mem_append,
      or_assoc, same]
    exact Iff.rfl
  · cases run

theorem Tracks.guard
    (tracks : Tracks memStart world guards hosted regions state)
    {host : HostRegion} (run : naClMprotect world host state = .ok next) :
    Tracks memStart world (guards ++ [host]) hosted regions next := by
  rw [naClMprotect] at run
  split at run
  · cases run
    refine ⟨tracks.stored, tracks.complete, ?_⟩
    intro other
    rw [List.mem_append, tracks.hosts, List.mem_append, or_right_comm]
  · cases run

theorem Tracks.add
    (tracks : Tracks memStart world guards hosted regions state)
    {usraddr size : Nat} {prot : Int} {nmop : Option MemObj}
    (same : region = ⟨usraddr, usraddr + size, prot, nmop⟩)
    (run : addEntry world usraddr size prot nmop state = .ok next) :
    Tracks memStart world guards hosted (regions ++ [region]) next := by
  have entry : region.entry = ⟨usraddr / 2 ^ naclPageshift,
      size / 2 ^ naclPageshift, prot, nmop, false⟩ := by
    rw [same, Region.entry]
    dsimp only
    rw [Nat.add_sub_cancel_left]
  rw [addEntry] at run
  rcases naClVmmapAdd_cases (world.allocations (nvalid state.memMap))
    state.memMap (usraddr / 2 ^ naclPageshift) (size / 2 ^ naclPageshift) prot
    nmop with ⟨failed, -⟩ | ⟨capacity, added⟩
  · rw [failed] at run
    cases run
  · rw [added] at run
    cases run
    refine ⟨?_, ?_, tracks.hosts⟩
    · change (entries ⟨_, _, _⟩).Sublist _
      rw [entries_append, List.map_append]
      refine tracks.stored.append ?_
      rw [naClVmmapEntryMake]
      split
      · rw [← entry]
        exact List.Sublist.refl _
      · exact List.nil_sublist _
    · intro allocated
      change state.memMap.vmentry ++ [_] = _
      rw [tracks.complete allocated, naClVmmapEntryMake,
        if_pos (allocated _), ← entry, List.map_append, List.map_append]
      rfl

theorem orFatal_ok
    {found : Option Nat} {address : Nat}
    (run : (orFatal found : Except LoadError Nat) = .ok address) :
    found = some address := by
  cases found with
  | none => cases run
  | some found =>
      cases run
      rfl

theorem naClUserToSys_ok
    {uaddr sysaddr : Nat} (place : SandboxAt arch nap.memStart)
    (run : orFatal (nap.space.naClUserToSys uaddr) = .ok sysaddr) :
    sysaddr = nap.memStart + uaddr ∧ uaddr < 2 ^ arch.addrBits :=
  (AddressSpace.naClUserToSys_some place.inside (orFatal_ok run)).imp_right
    And.right

theorem naClSysToUser_ok
    {uaddr found : Nat}
    (run : orFatal (nap.space.naClSysToUser (nap.memStart + uaddr)) =
      .ok found) :
    found = uaddr :=
  (AddressSpace.naClSysToUser_some (orFatal_ok run)).trans
    (Nat.add_sub_cancel_left ..)

theorem Tracks.protectAndAdd
    (tracks : Tracks nap.memStart world guards hosted regions state)
    (fits : region.Fits (2 ^ arch.addrBits)) {host : HostRegion}
    (same : host = region.host nap.memStart)
    (run : protectAndAdd world nap host region.nmop state = .ok next) :
    Tracks nap.memStart world guards (hosted ++ [region]) (regions ++ [region])
      next := by
  have proper := fits.proper
  have below := fits.below
  rw [Loader.protectAndAdd, except_bind_ok_iff] at run
  obtain ⟨guarded, protectRun, run⟩ := run
  obtain ⟨usraddr, toUser, run⟩ := except_bind_ok_iff.mp run
  subst same
  have atStart := naClSysToUser_ok toUser
  subst atStart
  refine (tracks.protect rfl protectRun).add ?_ run
  change region = ⟨region.start, region.start + (region.stop - region.start),
    region.prot, region.nmop⟩
  rw [Nat.add_sub_cancel' (Nat.le_of_lt proper)]

theorem naClRoundPage_of_dvd
    {nbytes : Nat} (aligned : 2 ^ naclPageshift ∣ nbytes)
    (small : nbytes ≤ 2 ^ arch.addrBits) :
    naClRoundPage arch.wordSize nbytes = nbytes := by
  have room := addrSpace_room arch
  have word : arch.wordSize.wrap (nbytes + naclPagesize - 1) =
      nbytes + naclPagesize - 1 := by
    apply WordSize.wrap_of_lt
    unfold naclPagesize
    simp only [naclMapPagesize] at room
    omega
  rw [naClRoundPage, word]
  unfold naclPageshift at aligned
  unfold naclPagesize
  omega

theorem Region.Fits.size_dvd
    {limit : Nat} (fits : region.Fits limit) :
    2 ^ naclPageshift ∣ region.stop - region.start :=
  Nat.dvd_sub fits.stopAligned fits.startAligned

section

variable (tracks : Tracks nap.memStart world guards hosted regions state)

include tracks

theorem Tracks.text
    (place : SandboxAt arch nap.memStart) (spread : Spread nap)
    (run : protectText world nap state = .ok next) :
    Tracks nap.memStart world guards (hosted ++ [textRegion nap])
      (regions ++ [textRegion nap]) next := by
  have fits := spread.textRegion_fits
  have inside := place.inside
  have room := addrSpace_room arch
  have start : arch.wordSize.wrap (nap.memStart + naclSyscallStartAddr) =
      nap.memStart + naclSyscallStartAddr := by
    have proper := fits.proper
    have below := fits.below
    change naclSyscallStartAddr < nap.staticTextEnd at proper
    change nap.staticTextEnd ≤ _ at below
    exact WordSize.wrap_of_lt (by omega)
  have size : naClRoundPage arch.wordSize
      (arch.wordSize.sub nap.staticTextEnd naclSyscallStartAddr) =
        nap.staticTextEnd - naclSyscallStartAddr := by
    have below := fits.below
    change nap.staticTextEnd ≤ _ at below
    have difference : arch.wordSize.sub nap.staticTextEnd naclSyscallStartAddr =
        nap.staticTextEnd - naclSyscallStartAddr :=
      WordSize.sub_of_le _ (Nat.le_of_lt fits.proper) (by
        simp only [naclMapPagesize] at room
        omega)
    rw [difference]
    exact naClRoundPage_of_dvd fits.size_dvd (by omega)
  rw [protectText, start, size] at run
  exact tracks.protectAndAdd fits rfl run

theorem Tracks.dynamicText
    (place : SandboxAt arch nap.memStart) (spread : Spread nap)
    (run : protectDynamicText world nap state = .ok next) :
    Tracks nap.memStart world guards (hosted ++ dynamicRegions world nap)
      (regions ++ dynamicRegions world nap) next := by
  have room := addrSpace_room arch
  have high := spread.dynamicHigh
  have difference : arch.wordSize.sub nap.dynamicTextEnd nap.dynamicTextStart =
      nap.dynamicTextEnd - nap.dynamicTextStart :=
    WordSize.sub_of_le _ spread.dynamicLe (by omega)
  rw [protectDynamicText, difference] at run
  obtain ⟨startAddr, toSys, run⟩ := except_bind_ok_iff.mp run
  obtain ⟨atStart, small⟩ := naClUserToSys_ok place toSys
  rw [dynamicRegions]
  dsimp only at run
  split at run
  · next empty =>
      cases run
      rw [if_neg (by omega), List.append_nil, List.append_nil]
      exact tracks
  · next nonempty =>
      have present : nap.dynamicTextStart < nap.dynamicTextEnd := by omega
      rw [if_pos present]
      obtain ⟨guarded, protectRun, run⟩ := except_bind_ok_iff.mp run
      obtain ⟨usraddr, toUser, run⟩ := except_bind_ok_iff.mp run
      obtain ⟨nmop, made, run⟩ := except_bind_ok_iff.mp run
      rw [atStart] at toUser
      have found := naClSysToUser_ok toUser
      subst found
      have shared : ¬ nap.textShm = false := by
        rw [spread.shared.mpr present]
        exact Bool.noConfusion
      rw [textMemObj, if_neg shared] at made
      split at made
      · cases made
        refine (tracks.protect (by rw [atStart]; rfl) protectRun).add ?_ run
        rw [Nat.add_sub_cancel' spread.dynamicLe]
      · cases made

theorem Tracks.segment
    {start stop : Nat} {prot : Int}
    (place : SandboxAt arch nap.memStart)
    (fits : Region.Fits (2 ^ arch.addrBits)
      ⟨start, naClRoundAllocPage arch.wordSize stop, prot, none⟩)
    (run : protectSegment world nap start stop prot state = .ok next) :
    Tracks nap.memStart world guards
      (hosted ++ [⟨start, naClRoundAllocPage arch.wordSize stop, prot, none⟩])
      (regions ++ [⟨start, naClRoundAllocPage arch.wordSize stop, prot, none⟩])
      next := by
  have room := addrSpace_room arch
  have proper : start < naClRoundAllocPage arch.wordSize stop := fits.proper
  have below : naClRoundAllocPage arch.wordSize stop ≤ _ := fits.below
  obtain ⟨startAddr, toSys, run⟩ := except_bind_ok_iff.mp run
  obtain ⟨usraddr, toUser, run⟩ := except_bind_ok_iff.mp run
  obtain ⟨atStart, small⟩ := naClUserToSys_ok place toSys
  rw [atStart] at toUser run
  have found := naClSysToUser_ok toUser
  subst found
  have difference : arch.wordSize.sub (naClRoundAllocPage arch.wordSize stop) usraddr =
      naClRoundAllocPage arch.wordSize stop - usraddr :=
    WordSize.sub_of_le _ (Nat.le_of_lt proper) (by
      simp only [naclMapPagesize] at room
      omega)
  have size : naClRoundPage arch.wordSize (naClRoundAllocPage arch.wordSize stop - usraddr) =
      naClRoundAllocPage arch.wordSize stop - usraddr :=
    naClRoundPage_of_dvd fits.size_dvd (by omega)
  dsimp only at run
  rw [difference, size] at run
  exact tracks.protectAndAdd fits rfl run

theorem Tracks.rodata
    (place : SandboxAt arch nap.memStart) (spread : Spread nap)
    (run : protectRodata world nap state = .ok next) :
    Tracks nap.memStart world guards (hosted ++ rodataRegions nap)
      (regions ++ rodataRegions nap) next := by
  have band := spread.rodata_band
  rw [rodataRegions] at band ⊢
  rw [protectRodata] at run
  split at run
  · next none =>
      cases run
      rw [if_pos none, List.append_nil, List.append_nil]
      exact tracks
  · next hasRodata =>
      rw [if_neg hasRodata] at band ⊢
      exact tracks.segment place (band.fits _ (List.mem_singleton.mpr rfl)).1 run

theorem Tracks.data
    (place : SandboxAt arch nap.memStart) (spread : Spread nap)
    (run : protectData world nap state = .ok next) :
    Tracks nap.memStart world guards (hosted ++ dataRegions nap)
      (regions ++ dataRegions nap) next := by
  have band := spread.data_band
  rw [dataRegions] at band ⊢
  rw [protectData] at run
  split at run
  · next none =>
      cases run
      rw [if_pos none, List.append_nil, List.append_nil]
      exact tracks
  · next hasData =>
      rw [if_neg hasData] at band ⊢
      exact tracks.segment place (band.fits _ (List.mem_singleton.mpr rfl)).1 run

end

theorem stackSize_round (arch : ElfArch) :
    naClRoundAllocPage arch.wordSize (naClRoundAllocPage arch.wordSize naclDefaultStackMax) =
        naClRoundAllocPage arch.wordSize naclDefaultStackMax ∧
      arch.wordSize.sub (2 ^ arch.addrBits)
          (naClRoundAllocPage arch.wordSize naclDefaultStackMax) =
        2 ^ arch.addrBits - naClRoundAllocPage arch.wordSize naclDefaultStackMax ∧
      naClTruncAllocPage (2 ^ arch.addrBits -
          naClRoundAllocPage arch.wordSize naclDefaultStackMax) +
        naClRoundAllocPage arch.wordSize naclDefaultStackMax = 2 ^ arch.addrBits := by
  cases arch <;> decide

theorem Tracks.stack
    (tracks : Tracks nap.memStart world guards hosted regions state)
    (place : SandboxAt arch nap.memStart) (spread : Spread nap)
    (run : protectStack world nap state = .ok next) :
    Tracks nap.memStart world guards (hosted ++ [stackRegion nap])
      (regions ++ [stackRegion nap]) next := by
  obtain ⟨rounded, difference, whole⟩ := stackSize_round arch
  rw [← spread.stackSize] at rounded difference whole
  rw [protectStack, difference, rounded] at run
  obtain ⟨startAddr, toSys, run⟩ := except_bind_ok_iff.mp run
  obtain ⟨guarded, protectRun, run⟩ := except_bind_ok_iff.mp run
  obtain ⟨usraddr, toUser, run⟩ := except_bind_ok_iff.mp run
  obtain ⟨atStart, small⟩ := naClUserToSys_ok place toSys
  rw [atStart] at toUser protectRun
  have found := naClSysToUser_ok toUser
  subst found
  refine (tracks.protect ?_ protectRun).add ?_ run
  · rw [Region.host, stackRegion]
    dsimp only
    congr 1
    omega
  · rw [stackRegion, whole]

theorem naClMprotectGuards_tracks
    {capacity : Nat} {isSorted : Bool} (reserved : Reserved arch nap.memStart)
    (run : naClMprotectGuards world nap ⟨⟨[], capacity, isSorted⟩, []⟩ =
      .ok next) :
    ∃ guards, Tracks nap.memStart world guards
        (if arch = .arm then [] else [nullRegion]) [nullRegion] next ∧
      ∀ host ∈ guards,
        host.Outside nap.memStart (nap.memStart + 2 ^ arch.addrBits) ∧
          host.prot = protNoAccess := by
  have fresh := @Tracks.start world nap.memStart capacity isSorted
  have sameHost : (⟨nap.memStart, naclSyscallStartAddr, protNoAccess⟩ :
      HostRegion) = nullRegion.host nap.memStart := rfl
  cases arch with
  | x86_32 =>
      obtain ⟨guarded, protectRun, run⟩ := except_bind_ok_iff.mp run
      refine ⟨[], ?_, nofun⟩
      exact (fresh.protect sameHost protectRun).add rfl run
  | x86_64 =>
      obtain ⟨guarded, protectRun, run⟩ := except_bind_ok_iff.mp run
      obtain ⟨added, addRun, run⟩ := except_bind_ok_iff.mp run
      have nullTracks : Tracks nap.memStart world [] [nullRegion] [nullRegion]
          added :=
        (fresh.protect sameHost protectRun).add rfl addRun
      split at run
      · cases run
        exact ⟨[], nullTracks, nofun⟩
      · obtain ⟨below, lowRun, run⟩ := except_bind_ok_iff.mp run
        obtain ⟨room, behind⟩ := reserved.guards rfl
        have low : ElfArch.x86_64.wordSize.sub nap.memStart naclGuardSize =
            nap.memStart - naclGuardSize :=
          WordSize.sub_of_le _ room (by
            change nap.memStart < 2 ^ 64
            omega)
        have high : ElfArch.x86_64.wordSize.wrap (nap.memStart + 2 ^ 32) =
            nap.memStart + 2 ^ 32 :=
          WordSize.wrap_of_lt (by
            change nap.memStart + 2 ^ 32 < 2 ^ 64
            unfold naclGuardSize at behind
            omega)
        rw [low] at lowRun
        rw [high] at run
        refine ⟨_, (nullTracks.guard lowRun).guard run, ?_⟩
        intro host member
        rw [List.nil_append, List.mem_append, List.mem_singleton,
          List.mem_singleton] at member
        rcases member with rfl | rfl
        · refine ⟨.inl ?_, rfl⟩
          change nap.memStart - naclGuardSize + naclGuardSize ≤ nap.memStart
          omega
        · exact ⟨.inr (Nat.le_refl _), rfl⟩
  | arm =>
      obtain ⟨added, addRun, run⟩ := except_bind_ok_iff.mp run
      have zero := reserved.zeroBased rfl
      rw [zero] at addRun fresh ⊢
      refine ⟨_, (fresh.add rfl addRun).guard run, ?_⟩
      intro host member
      rw [List.nil_append, List.mem_singleton] at member
      subst member
      refine ⟨.inr ?_, rfl⟩
      exact Nat.le_of_eq (Nat.zero_add _)

def initialRegions (world : ProtectWorld) (nap : LoadedApp arch) :
    List Region :=
  nullRegion :: memoryRegions world nap

theorem naClMemoryProtection_tracks
    {capacity : Nat} {isSorted : Bool} (reserved : Reserved arch nap.memStart)
    (spread : Spread nap)
    (run : naClMemoryProtection world nap ⟨⟨[], capacity, isSorted⟩, []⟩ =
      .ok next) :
    ∃ guards, Tracks nap.memStart world guards
        ((if arch = .arm then [] else [nullRegion]) ++ memoryRegions world nap)
        (initialRegions world nap) next ∧
      ∀ host ∈ guards,
        host.Outside nap.memStart (nap.memStart + 2 ^ arch.addrBits) ∧
          host.prot = protNoAccess := by
  have place := reserved.toSandboxAt
  obtain ⟨guarded, guardRun, run⟩ := except_bind_ok_iff.mp run
  obtain ⟨withText, textRun, run⟩ := except_bind_ok_iff.mp run
  obtain ⟨withDynamic, dynamicRun, run⟩ := except_bind_ok_iff.mp run
  obtain ⟨withRodata, rodataRun, run⟩ := except_bind_ok_iff.mp run
  obtain ⟨withData, dataRun, run⟩ := except_bind_ok_iff.mp run
  obtain ⟨guards, tracks, outside⟩ := naClMprotectGuards_tracks reserved guardRun
  refine ⟨guards, ?_, outside⟩
  have all := (((((tracks.text place spread textRun).dynamicText place spread
    dynamicRun).rodata place spread rodataRun).data place spread
    dataRun).stack place spread run)
  simp only [List.append_assoc] at all
  simp only [initialRegions, memoryRegions, List.append_assoc]
  exact all

end Steps

/-! ## The map -/

section Map

variable {arch : ElfArch} {nap : LoadedApp arch} {world : ProtectWorld}
  {state : ProtectState}

theorem nullRegion_fits (arch : ElfArch) :
    nullRegion.Fits (2 ^ arch.addrBits) := by
  cases arch <;> exact ⟨by decide, by decide, by decide, by decide⟩

theorem Spread.initial_band (spread : Spread nap) (world : ProtectWorld) :
    InBand (2 ^ arch.addrBits) 0 (2 ^ arch.addrBits)
      (initialRegions world nap) :=
  (InBand.singleton (nullRegion_fits arch) (Nat.le_refl _)
    (Nat.le_refl _)).append (spread.memory_band world)

theorem InBand.entries_apart
    {limit low high : Nat} {regions : List Region}
    (band : InBand limit low high regions) :
    (regions.map Region.entry).Pairwise
      (fun left right => ∀ page, ¬ (left.Covers page ∧ right.Covers page)) := by
  rw [List.pairwise_map]
  refine band.ordered.imp_of_mem ?_
  intro left right leftMember rightMember ordered
  exact (band.fits left leftMember).1.entries_disjoint
    (band.fits right rightMember).1 ordered

theorem initialRegions_exclusive :
    ∀ region ∈ initialRegions world nap,
      ¬ (Writable region.prot ∧ Executable region.prot) := by
  have noAccess : ¬ (Writable protNoAccess ∧ Executable protNoAccess) := by
    unfold Writable Executable
    decide
  have readOnly : ¬ (Writable protReadOnly ∧ Executable protReadOnly) := by
    unfold Writable Executable
    decide
  have readWrite : ¬ (Writable protReadWrite ∧ Executable protReadWrite) := by
    unfold Writable Executable
    decide
  have readExec : ¬ (Writable protReadExec ∧ Executable protReadExec) := by
    unfold Writable Executable
    decide
  intro region member
  simp only [initialRegions, memoryRegions, dynamicRegions, rodataRegions,
    dataRegions, List.mem_cons, List.mem_append, List.not_mem_nil, or_false] at member
  rcases member with rfl | (((rfl | member) | member) | member) | rfl
  · exact noAccess
  · exact readExec
  · split at member
    · rw [List.mem_singleton.mp member]
      exact readExec
    · cases member
  · split at member
    · cases member
    · rw [List.mem_singleton.mp member]
      exact readOnly
  · split at member
    · cases member
    · rw [List.mem_singleton.mp member]
      exact readWrite
  · exact readWrite

theorem Tracks.recorded
    {guards : List HostRegion}
    (tracks : Tracks nap.memStart world guards
      ((if arch = .arm then [] else [nullRegion]) ++ memoryRegions world nap)
      (initialRegions world nap) state)
    (outside : ∀ host ∈ guards,
      host.Outside nap.memStart (nap.memStart + 2 ^ arch.addrBits) ∧
        host.prot = protNoAccess)
    (spread : Spread nap)
    (allocated : ∀ slots, (world.allocations slots).entry = true)
    {usraddr : Nat} (small : usraddr < 2 ^ arch.addrBits) (prot : Int) :
    (∃ entry ∈ entries state.memMap, entry.prot = prot ∧
        entry.Covers (usraddr / 2 ^ naclPageshift)) ↔
      (∃ host ∈ state.protections, host.prot = prot ∧
          host.Has (nap.memStart + usraddr)) ∨
        UnmappedNull arch usraddr prot := by
  have band := spread.initial_band world
  have stored := entries_of_map (tracks.complete allocated)
  have regionOf : ∀ {region}, region ∈ initialRegions world nap →
      (region.entry.Covers (usraddr / 2 ^ naclPageshift) ↔
        (region.host nap.memStart).Has (nap.memStart + usraddr)) := by
    intro region member
    have fits := (band.fits region member).1
    rw [fits.entry_covers, Region.host_has fits.proper]
  constructor
  · rintro ⟨entry, member, same, covers⟩
    rw [stored] at member
    obtain ⟨region, inRegions, rfl⟩ := List.mem_map.mp member
    by_cases hosted : region ∈ (if arch = .arm then [] else [nullRegion]) ++
        memoryRegions world nap
    · refine .inl ⟨region.host nap.memStart,
        (tracks.hosts _).mpr (.inr (List.mem_map_of_mem hosted)), same, ?_⟩
      exact (regionOf inRegions).mp covers
    · right
      rw [List.mem_append, not_or] at hosted
      have isNull : region = nullRegion :=
        (List.mem_cons.mp inRegions).resolve_right hosted.2
      subst isNull
      have isArm : arch = .arm := by
        by_contra notArm
        rw [if_neg notArm] at hosted
        exact hosted.1 (List.mem_singleton.mpr rfl)
      have inNull := ((nullRegion_fits arch).entry_covers usraddr).mp covers
      exact ⟨isArm, inNull.2, same.symm⟩
  · rintro (⟨host, member, same, has⟩ | ⟨isArm, low, isNone⟩)
    · rcases (tracks.hosts host).mp member with guard | hosted
      · -- A guard has no byte of the sandbox.
        obtain ⟨apart, -⟩ := outside host guard
        obtain ⟨above, below⟩ := has
        rcases apart with before | behind
        · omega
        · omega
      · obtain ⟨region, inHosted, rfl⟩ := List.mem_map.mp hosted
        have inRegions : region ∈ initialRegions world nap := by
          rcases List.mem_append.mp inHosted with isNull | inMemory
          · split at isNull
            · cases isNull
            · rw [List.mem_singleton.mp isNull]
              exact List.mem_cons_self
          · exact List.mem_cons_of_mem _ inMemory
        refine ⟨region.entry, ?_, same, (regionOf inRegions).mpr has⟩
        rw [stored]
        exact List.mem_map_of_mem inRegions
    · refine ⟨nullRegion.entry, ?_, isNone.symm, ?_⟩
      · rw [stored]
        exact List.mem_map_of_mem List.mem_cons_self
      · exact ((nullRegion_fits arch).entry_covers usraddr).mpr
          ⟨Nat.zero_le _, low⟩

theorem Tracks.guarded
    {guards : List HostRegion}
    (tracks : Tracks nap.memStart world guards
      ((if arch = .arm then [] else [nullRegion]) ++ memoryRegions world nap)
      (initialRegions world nap) state)
    (outside : ∀ host ∈ guards,
      host.Outside nap.memStart (nap.memStart + 2 ^ arch.addrBits) ∧
        host.prot = protNoAccess)
    (spread : Spread nap) :
    ∀ host ∈ state.protections,
      host.Inside nap.memStart (nap.memStart + 2 ^ arch.addrBits) ∨
        host.Outside nap.memStart (nap.memStart + 2 ^ arch.addrBits) ∧
          host.prot = protNoAccess := by
  have band := spread.initial_band world
  intro host member
  rcases (tracks.hosts host).mp member with guard | hosted
  · exact .inr (outside host guard)
  · obtain ⟨region, inHosted, rfl⟩ := List.mem_map.mp hosted
    have fits : region.Fits (2 ^ arch.addrBits) := by
      rcases List.mem_append.mp inHosted with isNull | inMemory
      · split at isNull
        · cases isNull
        · rw [List.mem_singleton.mp isNull]
          exact nullRegion_fits arch
      · exact (band.fits region (List.mem_cons_of_mem _ inMemory)).1
    have proper := fits.proper
    have below := fits.below
    refine .inl ⟨Nat.le_add_right _ _, ?_⟩
    change nap.memStart + region.start + (region.stop - region.start) ≤ _
    omega

theorem naClFillEndOfTextRegion_padded
    {scan : PhdrScan arch} {useShm : Bool} {memStart : Nat}
    {loadWorld : LoadWorld} {image : ElfImage arch}
    (run : naClAppLoadFileChecks loadWorld image = .ok scan)
    (place : SandboxAt arch memStart)
    {next : LoadedApp arch} {before after : NativeClient.Library.Buffer}
    (filled : naClFillEndOfTextRegion (loadedApp useShm memStart scan) before =
      .ok (next, after)) :
    Padded (loadedApp useShm memStart scan) next before after := by
  have arranged := naClAppLoadFileChecks_arranged run
  by_cases fits : SledFits (loadedApp useShm memStart scan)
  · by_cases whole : HaltAligned (loadedApp useShm memStart scan)
    · obtain ⟨other, otherAfter, same, padded⟩ :=
        naClFillEndOfTextRegion_pads arranged place fits whole before
      rw [filled] at same
      cases same
      exact padded
    · rw [naClFillEndOfTextRegion_ragged arranged fits whole] at filled
      cases filled
  · rcases naClFillEndOfTextRegion_gap arranged fits before with stopped | stopped
    · rw [stopped] at filled
      cases filled
    · rw [stopped] at filled
      cases filled

/-- For every layout that the loader accepts. -/
theorem naClMemoryProtection_exact
    {scan : PhdrScan arch} {useShm : Bool} {memStart capacity : Nat}
    {loadWorld : LoadWorld} {image : ElfImage arch} {isSorted : Bool}
    {before after : NativeClient.Library.Buffer}
    (checked : naClAppLoadFileChecks loadWorld image = .ok scan)
    (reserved : Reserved arch memStart)
    (filled : naClFillEndOfTextRegion (loadedApp useShm memStart scan) before =
      .ok (nap, after))
    (run : naClMemoryProtection world nap ⟨⟨[], capacity, isSorted⟩, []⟩ =
      .ok state) :
    RecordsProtection nap world state := by
  have padded :=
    naClFillEndOfTextRegion_padded checked reserved.toSandboxAt filled
  have spread := spread_of_padded checked padded
  have sameStart : nap.memStart = memStart := congrArg LoadedApp.memStart
    padded.only
  rw [← sameStart] at reserved
  obtain ⟨guards, tracks, outside⟩ :=
    naClMemoryProtection_tracks reserved spread run
  constructor
  case disjoint =>
    exact (spread.initial_band world).entries_apart.sublist tracks.stored
  case exclusive =>
    intro entry member
    obtain ⟨region, inRegions, rfl⟩ :=
      List.mem_map.mp (tracks.stored.subset member)
    exact initialRegions_exclusive region inRegions
  case recorded =>
    intro allocated usraddr small prot
    exact tracks.recorded outside spread allocated small prot
  case guards => exact tracks.guarded outside spread

end Map

/-! ## The lowest pages on ARM -/

section Samples

def armText : Phdr .arm where
  type := ptLoad
  flags := pfR ||| pfX
  vaddr := 0x20000
  filesz := 0x1000
  memsz := 0x1000
  vaddr_lt := by decide
  filesz_lt := by decide
  memsz_lt := by decide

def armScan : PhdrScan .arm where
  seen := Function.update (fun _ => false) 1 true
  loadable := [armText]
  maxVaddr := 0x21000
  staticTextEnd := 0x21000
  rodataStart := 0
  rodataEnd := 0
  dataStart := 0
  dataEnd := 0

theorem armText_checks :
    naClAppLoadFileChecks willingWorld ⟨validEhdr .arm, [armText]⟩ =
      .ok armScan := by
  rfl

def armApp : LoadedApp .arm where
  memStart := 0
  stackSize := 0x1000000
  staticTextEnd := 0x30000
  dynamicTextStart := 0x30000
  dynamicTextEnd := 0x30000
  textShm := false
  rodataStart := 0
  dataStart := 0
  dataEnd := 0x30000
  breakAddr := 0x30000

theorem armFilled
    {scan : PhdrScan .arm} {nap : LoadedApp .arm} {image : ElfImage .arm}
    (checked : naClAppLoadFileChecks willingWorld image = .ok scan)
    (fits : SledFits (loadedApp false 0 scan))
    (counted : pagePad (loadedApp false 0 scan) = .ok 0xf000)
    (textEnd : scan.staticTextEnd = 0x21000)
    (grown : { loadedApp false 0 scan with
      staticTextEnd := ElfArch.arm.wordSize.wrap
        (scan.staticTextEnd + 0xf000) } = nap) :
    ∃ after, naClFillEndOfTextRegion (loadedApp false 0 scan)
      (fun _ => 0) = .ok (nap, after) := by
  have arranged := naClAppLoadFileChecks_arranged checked
  obtain ⟨after, filled, -⟩ := @naClFillMemoryRegionWithHalt_fills .arm 0x21000
    0xf000 (by decide) (by decide) (by decide) (fun _ => 0)
  refine ⟨after, ?_⟩
  rw [naClFillEndOfTextRegion_of_fits arranged fits, counted, Except.bind,
    grown]
  rw [textEnd]
  change Except.bind (naClFillMemoryRegionWithHalt .arm 0x21000 0xf000 _) _ = _
  rw [filled]
  rfl

theorem armText_filled :
    ∃ after, naClFillEndOfTextRegion (loadedApp false 0 armScan)
      (fun _ => 0) = .ok (armApp, after) := by
  have fits : SledFits (loadedApp false 0 armScan) :=
    ⟨fun hasRodata => absurd rfl hasRodata, fun hasData => absurd rfl hasData⟩
  have counted : pagePad (loadedApp false 0 armScan) = .ok 0xf000 := by
    decide +kernel
  have grown : { loadedApp false 0 armScan with
      staticTextEnd := ElfArch.arm.wordSize.wrap
        (armScan.staticTextEnd + 0xf000) } = armApp := by
    decide +kernel
  exact armFilled armText_checks fits counted rfl grown

def plentyWorld : ProtectWorld where
  windows := false
  mprotect := fun _ => true
  allocations := fun _ => ⟨true, true⟩
  memObj := true
  textShmDesc := 7

def armState : ProtectState where
  memMap :=
    ⟨[some ⟨0, 16, 0, none, false⟩, some ⟨16, 32, 5, none, false⟩,
      some ⟨0x3f000, 0x1000, 3, none, false⟩], 5, false⟩
  protections :=
    [⟨0x40000000, 0x2000, 0⟩, ⟨0x10000, 0x20000, 5⟩,
      ⟨0x3f000000, 0x1000000, 3⟩]

theorem armText_protected :
    naClMemoryProtection plentyWorld armApp ⟨⟨[], startEntries, true⟩, []⟩ =
      .ok armState := by
  decide +kernel

theorem arm_reserved : Reserved .arm 0 :=
  ⟨⟨by decide, fun _ => rfl⟩, nofun⟩

/-- A module that has only text. -/
theorem naClMemoryProtection_exact_text :
    RecordsProtection armApp plentyWorld armState := by
  obtain ⟨after, filled⟩ := armText_filled
  exact naClMemoryProtection_exact armText_checks arm_reserved filled
    armText_protected

/-- The lowest pages have an entry, and are not protected. -/
theorem not_recorded_armNull :
    ¬ ∀ (loadWorld : LoadWorld) (image : ElfImage .arm) (scan : PhdrScan .arm),
      naClAppLoadFileChecks loadWorld image = .ok scan →
        ∀ (useShm : Bool) (before after : NativeClient.Library.Buffer)
          (nap : LoadedApp .arm), naClFillEndOfTextRegion
            (loadedApp useShm 0 scan) before = .ok (nap, after) →
          ∀ (world : ProtectWorld) (state : ProtectState),
            naClMemoryProtection world nap ⟨⟨[], startEntries, true⟩, []⟩ =
              .ok state →
            ∀ sysaddr, (∃ entry ∈ entries state.memMap,
                entry.Covers (sysaddr / 2 ^ naclPageshift)) ↔
              ∃ host ∈ state.protections, host.Has sysaddr := by
  intro records
  obtain ⟨after, filled⟩ := armText_filled
  have covered := (records _ _ _ armText_checks _ _ _ _ filled _ _
    armText_protected 0).mp
    ⟨⟨0, 16, 0, none, false⟩, List.mem_cons_self, by decide⟩
  obtain ⟨host, member, above, below⟩ := covered
  simp only [armState, List.mem_cons, List.not_mem_nil, or_false] at member
  rcases member with rfl | rfl | rfl
  · exact absurd above (by decide)
  · exact absurd above (by decide)
  · exact absurd above (by decide)

end Samples

end NativeClient.Loader
