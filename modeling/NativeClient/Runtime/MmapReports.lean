import NativeClient.Runtime.Mmap

/-!
# What `mmap` reports

A call of `mmap` that returns an address has recorded the three parts of the
range in the memory map, and nothing else, provided that rounding up its length
does not wrap around.  A length that wraps around to 0 maps nothing, and the
call returns an address all the same.
-/

namespace NativeClient.Runtime

open NativeClient.Library

section Promise

variable {platform : Platform}

def roundUp (unit nbytes : Nat) : Nat := (nbytes + unit - 1) / unit * unit

def hostPagesize (platform : Platform) : Nat :=
  if platform.windows then naclMapPagesize else naclPagesize

def PageIn (lower upper page : Nat) : Prop :=
  InRange (lower / naclPagesize) (upper / naclPagesize) page

instance (lower upper page : Nat) : Decidable (PageIn lower upper page) :=
  inferInstanceAs (Decidable (InRange _ _ _))

def fileBytes (world : MmapWorld) (ndp : Nat) (offset : BitVec 32) : Nat :=
  match world.fstat ndp with
  | .error _ => 0
  | .ok size => (size.toInt - offset.toInt).toNat

/-- How much of a range of `whole` bytes is covered by the file, by pages of the
given size. -/
def coveredBytes (world : MmapWorld) (ndp : Option Nat) (offset : BitVec 32)
    (unit whole : Nat) : Nat :=
  match ndp with
  | none => whole
  | some ndp => min whole (roundUp unit (fileBytes world ndp offset))

def backingObject (world : MmapWorld) (ndp : Option Nat) (prot offset : BitVec 32) :
    Option MemObj :=
  if prot = protNone then none
  else
    match ndp with
    | none => none
    | some ndp =>
        match world.fstat ndp with
        | .error _ => none
        | .ok size => some ⟨ndp, size.signExtend 64, offset.signExtend 64⟩

def mmapDesc (world : MmapWorld) (flags : BitVec 32) (d : Int) : Option Nat :=
  if flags &&& mapAnonymous ≠ 0 then none else world.getDesc d

def reportedPages (world : MmapWorld) (app : MmapApp platform)
    (usraddr whole : Nat) (prot : BitVec 32) (ndp : Option Nat)
    (offset : BitVec 32) (page : Nat) : Option (Int × Option MemObj) :=
  let covered := coveredBytes world ndp offset (hostPagesize platform) whole
  let filled := coveredBytes world ndp offset naclMapPagesize whole
  if PageIn usraddr (usraddr + covered) page then
    some (mappedPage (usraddr / naclPagesize) (naClProtMap prot)
      (backingObject world ndp prot offset) page)
  else if PageIn (usraddr + covered) (usraddr + filled) page then
    some (naClProtMap prot, none)
  else if PageIn (usraddr + filled) (usraddr + whole) page then
    some (naClProtMap protNone, none)
  else
    pageMap app.memMap page

structure DoesAsReported (world : MmapWorld) (app after : MmapApp platform)
    (usraddr length : Nat) (prot flags : BitVec 32) (d : Int)
    (offset : BitVec 32) : Prop where
  nonzero : length ≠ 0
  inside : usraddr + roundUp naclMapPagesize length ≤ 2 ^ app.addrBits
  pages : ∀ page, pageMap after.memMap page =
    reportedPages world app usraddr (roundUp naclMapPagesize length)
      (prot &&& ~~~protExec) (mmapDesc world flags d) offset page
  unmapped : flags &&& mapFixed = 0 → ∀ page,
    PageIn usraddr (usraddr + roundUp naclMapPagesize length) page →
      pageMap app.memMap page = none

def appPages (app : MmapApp platform) : Nat := 2 ^ app.addrBits / naclPagesize

end Promise

section Sizes

variable {platform : Platform}

theorem MmapApp.small (app : MmapApp platform) :
    4 * 2 ^ app.addrBits ≤ 2 ^ platform.size.bits ∧ 2 ^ app.addrBits ≤ 2 ^ 32 := by
  have bound := app.addrBits_le
  unfold naclMaxAddrBits at bound
  rcases platform.size.word with narrow | wide
  · rw [if_pos narrow] at bound
    have power : 2 ^ app.addrBits ≤ 2 ^ 30 :=
      Nat.pow_le_pow_right (by decide) bound
    rw [narrow]
    omega
  · rw [if_neg (by omega)] at bound
    have power : 2 ^ app.addrBits ≤ 2 ^ 32 :=
      Nat.pow_le_pow_right (by decide) bound
    rw [wide]
    omega

theorem word_le (platform : Platform) : 2 ^ 32 ≤ 2 ^ platform.size.bits := by
  rcases platform.size.word with narrow | wide
  · rw [narrow]
  · rw [wide]
    decide

theorem appPages_le (app : MmapApp platform) :
    appPages app ≤ 2 ^ 31 ∧
      appPages app ≤ 2 ^ (platform.size.bits - naclPageshift) := by
  have small := app.small
  have pages : 2 ^ platform.size.bits =
      2 ^ (platform.size.bits - naclPageshift) * naclPagesize := by
    rcases platform.size.word with word | word <;> rw [word] <;> decide
  unfold appPages
  unfold naclPagesize at pages ⊢
  omega

theorem naClRoundAllocPage_eq
    {nbytes : Nat} (small : nbytes + 65535 < 2 ^ platform.size.bits) :
    naClRoundAllocPage platform.size nbytes = roundUp naclMapPagesize nbytes := by
  rw [naClRoundAllocPage, platform.size.wrap_of_lt (by
    unfold naclMapPagesize
    omega)]
  rfl

theorem naClRoundHostAllocPage_eq
    {nbytes : Nat} (small : nbytes + 65535 < 2 ^ platform.size.bits) :
    naClRoundHostAllocPage platform nbytes =
      roundUp (hostPagesize platform) nbytes := by
  unfold naClRoundHostAllocPage hostPagesize
  split
  · exact naClRoundAllocPage_eq small
  · rw [naClRoundPage, platform.size.wrap_of_lt (by
      unfold naclPagesize
      omega)]
    rfl

theorem roundUp_roundUp (platform : Platform) (nbytes : Nat) :
    roundUp naclMapPagesize (roundUp (hostPagesize platform) nbytes) =
      roundUp naclMapPagesize nbytes := by
  unfold hostPagesize roundUp naclMapPagesize naclPagesize
  split <;> omega

theorem roundUp_bounds (nbytes : Nat) :
    nbytes ≤ roundUp naclMapPagesize nbytes ∧
      roundUp naclMapPagesize nbytes ≤ nbytes + 65535 ∧
      naclMapPagesize ∣ roundUp naclMapPagesize nbytes := by
  unfold roundUp naclMapPagesize
  omega

theorem hostRoundUp_bounds (platform : Platform) (nbytes : Nat) :
    roundUp (hostPagesize platform) nbytes ≤ nbytes + 65535 ∧
      naclPagesize ∣ roundUp (hostPagesize platform) nbytes ∧
      roundUp (hostPagesize platform) nbytes ≤ roundUp naclMapPagesize nbytes := by
  unfold roundUp hostPagesize naclMapPagesize naclPagesize
  split <;> omega

theorem mmapFileExtent_spec
    {world : MmapWorld} {ndp : Option Nat} {offset : BitVec 32}
    {extent : FileExtent} {whole : Nat}
    (usable : whole ≤ kMaxUsableFileSize platform) (positive : 0 ≤ offset.toInt)
    (ran : mmapFileExtent platform world ndp offset = some (.ok extent)) :
    min whole extent.hostRoundedFileBytes =
        coveredBytes world ndp offset (hostPagesize platform) whole ∧
      min whole extent.allocRoundedFileBytes =
        coveredBytes world ndp offset naclMapPagesize whole ∧
      ∀ prot, backingObject world ndp prot offset =
        if prot = protNone then none
        else ndp.map fun ndp =>
          ⟨ndp, BitVec.ofInt 64 extent.fileSize, offset.signExtend 64⟩ := by
  have word := word_le platform
  unfold mmapFileExtent at ran
  dsimp only at ran
  split at ran
  · cases ran
    exact ⟨Nat.min_eq_left usable, Nat.min_eq_left usable, fun _ => rfl⟩
  next ndp =>
  split at ran
  · cases ran
  next size stat =>
  have most : 2 ^ 31 - 1 ≤ kMaxUsableFileSize platform := by
    unfold kMaxUsableFileSize
    omega
  have large : size.toInt < 2 ^ 31 := by
    have bound := @BitVec.two_mul_toInt_lt 32 size
    omega
  have bytes : fileBytes world ndp offset = (size.toInt - offset.toInt).toNat := by
    rw [fileBytes, stat]
  rw [← bytes] at ran
  have inside : fileBytes world ndp offset < 2 ^ 31 := by
    omega
  have hostBounds := hostRoundUp_bounds platform (fileBytes world ndp offset)
  split at ran
  · cases ran
  have below : ¬ kMaxUsableFileSize platform < fileBytes world ndp offset := by
    omega
  simp only [if_neg below] at ran
  rw [naClRoundHostAllocPage_eq (by omega)] at ran
  split at ran
  · cases ran
  rw [naClRoundAllocPage_eq (by omega), roundUp_roundUp] at ran
  split at ran
  · cases ran
  cases ran
  refine ⟨rfl, rfl, ?_⟩
  intro prot
  rw [backingObject, stat]
  rfl

end Sizes

section Steps

variable {platform : Platform} {qsort : QSort VmmapEntry} {world : MmapWorld}
  {app after : MmapApp platform} {start length usraddr : Nat}
  {prot flags offset : BitVec 32} {d : Int}

structure MmapSteps (qsort : QSort VmmapEntry) (world : MmapWorld)
    (app after : MmapApp platform) (start length usraddr : Nat)
    (prot flags : BitVec 32) (d : Int) (offset : BitVec 32)
    (extent : FileExtent) (memMap : Vmmap) (mapped filled : MmapApp platform) :
    Prop where
  aligned : naclMapPagesize ∣ start
  positive : 0 ≤ offset.toInt
  nonzero : length ≠ 0
  extended : mmapFileExtent platform world (mmapDesc world flags d) offset =
    some (.ok extent)
  chosen : mmapChooseAddress qsort app start (flags &&& mapFixed ≠ 0)
    (naClRoundAllocPage platform.size length) = some (.ok usraddr, memMap)
  okay : mmapRangeIsOkay { app with memMap := memMap } usraddr
    (naClRoundAllocPage platform.size length) = true
  filePages : mmapFilePages qsort world { app with memMap := memMap }
    (platform.size.wrap (usraddr + app.memStart))
    (min (naClRoundAllocPage platform.size length) extent.hostRoundedFileBytes)
    (prot &&& ~~~protExec)
    ((mmapDesc world flags d).map fun ndp =>
      ⟨ndp, BitVec.ofInt 64 extent.fileSize, offset.signExtend 64⟩) = some mapped
  zeroFilled : mmapPagesBehind qsort mapped world.zeroFillAllocations
    (platform.size.wrap (usraddr + app.memStart))
    (min (naClRoundAllocPage platform.size length) extent.hostRoundedFileBytes)
    (min (naClRoundAllocPage platform.size length) extent.allocRoundedFileBytes)
    (naClProtMap (prot &&& ~~~protExec)) = some filled
  inaccessible : mmapPagesBehind qsort filled world.inaccessibleAllocations
    (platform.size.wrap (usraddr + app.memStart))
    (min (naClRoundAllocPage platform.size length) extent.allocRoundedFileBytes)
    (naClRoundAllocPage platform.size length) 0 = some after

theorem allowed_and (flags bit : BitVec 32)
    (allowed : (mapFixed ||| mapShared ||| mapPrivate ||| mapAnonymous) &&& bit =
      bit) :
    flags &&& (mapFixed ||| mapShared ||| mapPrivate ||| mapAnonymous) &&& bit =
      flags &&& bit := by
  rw [BitVec.and_assoc, allowed]

theorem naClCommonSysMmap_steps
    (ran : naClCommonSysMmap qsort world app start length prot flags d offset =
      some (.address usraddr, after)) :
    ∃ extent memMap mapped filled, MmapSteps qsort world app after start length
      usraddr prot flags d offset extent memMap mapped filled := by
  unfold naClCommonSysMmap at ran
  dsimp only at ran
  rw [allowed_and flags mapAnonymous (by decide),
    allowed_and flags mapFixed (by decide)] at ran
  have desc : (if decide (flags &&& mapAnonymous ≠ 0) = true then none
      else world.getDesc d) = mmapDesc world flags d := by
    simp [mmapDesc]
  rw [desc] at ran
  split at ran
  · cases ran
  split at ran
  · cases ran
  next aligned =>
  split at ran
  · cases ran
  next positive =>
  split at ran
  · cases ran
  split at ran
  · cases ran
  next nonzero =>
  split at ran
  · cases ran
  · cases ran
  next extent extended =>
  obtain ⟨⟨chosen, memMap⟩, choice, ran⟩ := Option.bind_eq_some_iff.mp ran
  dsimp only at ran
  split at ran
  · cases ran
  next found =>
  split at ran
  · cases ran
  next okay =>
  split at ran
  · cases ran
  obtain ⟨sysaddr, toSys, ran⟩ := Option.bind_eq_some_iff.mp ran
  obtain ⟨mapped, filePages, ran⟩ := Option.bind_eq_some_iff.mp ran
  split at ran
  · cases ran
  obtain ⟨filled, zeroFilled, ran⟩ := Option.bind_eq_some_iff.mp ran
  obtain ⟨last, inaccessible, ran⟩ := Option.bind_eq_some_iff.mp ran
  split at ran
  · cases ran
  cases ran
  unfold AddressSpace.naClUserToSys at toSys
  split at toSys
  · cases toSys
  cases toSys
  refine ⟨extent, memMap, mapped, filled, ?_⟩
  exact {
    aligned := by omega
    positive := by omega
    nonzero := nonzero
    extended := extended
    chosen := choice
    okay := by simpa using okay
    filePages := filePages
    zeroFilled := zeroFilled
    inaccessible := inaccessible }

end Steps

section Records

variable {platform : Platform} {qsort : QSort VmmapEntry}
  {app next : MmapApp platform}

/-- The map behind an update has the pages of an interval of user addresses, and
everything else as before. -/
structure Recorded (app next : MmapApp platform) (lower upper : Nat) (prot : Int)
    (nmop : Option MemObj) : Prop where
  addrBits : next.addrBits = app.addrBits
  memStart : next.memStart = app.memStart
  map : AppMap platform.size (appPages next) next.memMap
  pages : ∀ page, pageMap next.memMap page =
    if PageIn lower upper page then
      some (mappedPage (lower / naclPagesize) prot nmop page)
    else
      pageMap app.memMap page

theorem Recorded.empty
    (map : AppMap platform.size (appPages app) app.memMap) (lower : Nat)
    (prot : Int) (nmop : Option MemObj) :
    Recorded app app lower lower prot nmop := by
  refine ⟨rfl, rfl, map, ?_⟩
  intro page
  rw [if_neg]
  rintro ⟨above, below⟩
  omega

theorem naClSysToUser_eq
    {uaddr found : Nat}
    (run : app.space.naClSysToUser (uaddr + app.memStart) = some found) :
    found = uaddr :=
  (AddressSpace.naClSysToUser_some run).trans (Nat.add_sub_cancel ..)

theorem naClCommonUtilUpdateAddrMap_spec
    {allocations : UpdateAllocations} {uaddr nbytes : Nat} {prot : Int}
    {nmop : Option MemObj}
    (map : AppMap platform.size (appPages app) app.memMap)
    (aligned : naclPagesize ∣ uaddr) (whole : naclPagesize ∣ nbytes)
    (bound : uaddr + nbytes ≤ 2 ^ app.addrBits)
    (run : naClCommonUtilUpdateAddrMap qsort app allocations
      (uaddr + app.memStart) nbytes prot nmop = some next) :
    Recorded app next uaddr (uaddr + nbytes) prot nmop := by
  obtain ⟨small, space⟩ := appPages_le app
  obtain ⟨found, toUser, run⟩ := Option.bind_eq_some_iff.mp run
  obtain ⟨memMap, update, run⟩ := Option.bind_eq_some_iff.mp run
  cases run
  rw [naClSysToUser_eq toUser] at update
  have last : (uaddr + nbytes) / naclPagesize =
      uaddr / 2 ^ naclPageshift + nbytes / 2 ^ naclPageshift := by
    unfold naclPagesize naclPageshift at *
    omega
  have inside : uaddr / 2 ^ naclPageshift + nbytes / 2 ^ naclPageshift ≤
      appPages app := by
    rw [← last]
    exact Nat.div_le_div_right bound
  obtain ⟨mapped, pages⟩ := naClVmmapUpdate_placed map small space inside update
  refine ⟨rfl, rfl, mapped, ?_⟩
  intro page
  have same : PageIn uaddr (uaddr + nbytes) page ↔
      InRange (uaddr / 2 ^ naclPageshift)
        (uaddr / 2 ^ naclPageshift + nbytes / 2 ^ naclPageshift) page := by
    rw [← last]
    rfl
  simp only [pages, updatedPages, same]
  rfl

theorem mmapFilePages_spec
    {world : MmapWorld} {uaddr length : Nat} {prot : BitVec 32}
    {nmop : Option MemObj}
    (map : AppMap platform.size (appPages app) app.memMap)
    (aligned : naclPagesize ∣ uaddr) (whole : naclPagesize ∣ length)
    (bound : uaddr + length ≤ 2 ^ app.addrBits)
    (run : mmapFilePages qsort world app (uaddr + app.memStart) length prot nmop =
      some next) :
    Recorded app next uaddr (uaddr + length) (naClProtMap prot)
      (if prot = protNone then none else nmop) := by
  unfold mmapFilePages at run
  split at run
  · next empty =>
      cases run
      rw [empty]
      exact Recorded.empty map _ _ _
  next nonempty =>
  split at run
  · cases run
  split at run
  · next inaccessible =>
      rw [if_pos inaccessible, inaccessible]
      exact naClCommonUtilUpdateAddrMap_spec map aligned whole bound run
  · next accessible =>
      rw [if_neg accessible]
      exact naClCommonUtilUpdateAddrMap_spec map aligned whole bound run

theorem mmapPagesBehind_spec
    {allocations : UpdateAllocations} {uaddr lower upper : Nat} {prot : Int}
    (map : AppMap platform.size (appPages app) app.memMap)
    (aligned : naclPagesize ∣ uaddr + lower) (whole : naclPagesize ∣ uaddr + upper)
    (ordered : lower ≤ upper) (bound : uaddr + upper ≤ 2 ^ app.addrBits)
    (run : mmapPagesBehind qsort app allocations (uaddr + app.memStart) lower upper
      prot = some next) :
    Recorded app next (uaddr + lower) (uaddr + upper) prot none := by
  have allocated := app.allocated
  unfold mmapPagesBehind at run
  split at run
  · next above =>
      have upTo : uaddr + upper = uaddr + lower + (upper - lower) := by
        omega
      rw [platform.size.wrap_of_lt (by omega), Nat.add_right_comm] at run
      rw [upTo] at whole bound ⊢
      exact naClCommonUtilUpdateAddrMap_spec map aligned
        ((Nat.dvd_add_right aligned).mp whole) bound run
  · next empty =>
      cases run
      rw [Nat.le_antisymm ordered (Nat.le_of_not_lt empty)]
      exact Recorded.empty map _ _ _

end Records

section Choices

variable {platform : Platform} {qsort : QSort VmmapEntry}
  {app : MmapApp platform} {start usraddr whole : Nat} {fixed : Bool}
  {memMap : Vmmap}

structure Chosen (app : MmapApp platform) (memMap : Vmmap) (fixed : Bool)
    (usraddr whole : Nat) : Prop where
  map : AppMap platform.size (appPages app) memMap
  pages : ∀ page, pageMap memMap page = pageMap app.memMap page
  aligned : naclMapPagesize ∣ usraddr
  free : fixed = false → ∀ page, PageIn usraddr (usraddr + whole) page →
    pageMap app.memMap page = none

theorem Chosen.of_found
    {usrpage : Nat} (map : AppMap platform.size (appPages app) memMap)
    (pages : ∀ page, pageMap memMap page = pageMap app.memMap page)
    (found : Found (appPages app) app.memMap usrpage (whole / 2 ^ naclPageshift))
    (dvd : naclMapPagesize ∣ whole) :
    Chosen app memMap fixed (platform.size.wrap (usrpage * 2 ^ naclPageshift))
      whole := by
  have small := app.small
  have below : usrpage * 2 ^ naclPageshift ≤ 2 ^ app.addrBits := by
    have bound := found.below
    have size := Nat.div_mul_le_self (2 ^ app.addrBits) (2 ^ naclPageshift)
    have part : usrpage * 2 ^ naclPageshift ≤ appPages app * 2 ^ naclPageshift :=
      Nat.mul_le_mul_right _ (Nat.le_trans (Nat.le_add_right _ _) bound)
    exact Nat.le_trans part size
  have positive : 0 < 2 ^ app.addrBits := Nat.two_pow_pos _
  rw [platform.size.wrap_of_lt (by omega)]
  have aligned := found.aligned
  refine ⟨map, pages, ?_, ?_⟩
  · unfold pagesPerMap at aligned
    unfold naclMapPagesize naclPageshift
    omega
  · intro _ page inside
    apply found.free
    unfold PageIn naclPagesize InRange at inside
    unfold naclMapPagesize at dvd
    unfold InRange naclPageshift at *
    omega

theorem Chosen.of_search
    {usrpage : Nat} {sorted : Vmmap}
    (map : AppMap platform.size (appPages app) sorted)
    (pages : ∀ page, pageMap sorted page = pageMap app.memMap page)
    (search : usrpage = 0 ∨
      Found (appPages app) app.memMap usrpage (whole / 2 ^ naclPageshift))
    (dvd : naclMapPagesize ∣ whole)
    (run : (if usrpage = 0 then some (.error enomem, sorted)
      else some (Except.ok (platform.size.wrap (usrpage * 2 ^ naclPageshift)),
        sorted)) = some (.ok usraddr, memMap)) :
    Chosen app memMap fixed usraddr whole := by
  split at run
  · cases run
  next nonzero =>
  cases run
  exact Chosen.of_found map pages (search.resolve_left nonzero) dvd

theorem mmapChooseAddress_spec
    (map : AppMap platform.size (appPages app) app.memMap)
    (hint : naclMapPagesize ∣ start) (dvd : naclMapPagesize ∣ whole)
    (bound : whole < 2 ^ platform.size.bits)
    (run : mmapChooseAddress qsort app start fixed whole =
      some (.ok usraddr, memMap)) : Chosen app memMap fixed usraddr whole := by
  obtain ⟨small, space⟩ := appPages_le app
  have word := word_le platform
  have parts : pagesPerMap ∣ whole / 2 ^ naclPageshift := by
    unfold naclMapPagesize at dvd
    unfold pagesPerMap naclPageshift
    omega
  have number : whole / 2 ^ naclPageshift + pagesPerMap ≤
      2 ^ platform.size.bits := by
    unfold pagesPerMap naclPageshift
    omega
  have above : pagesPerMap ∣ start / 2 ^ naclPageshift := by
    unfold naclMapPagesize at hint
    unfold pagesPerMap naclPageshift
    omega
  unfold mmapChooseAddress at run
  dsimp only at run
  split at run
  · next isFixed =>
      cases run
      refine ⟨map, fun _ => rfl, hint, ?_⟩
      intro notFixed
      rw [isFixed] at notFixed
      cases notFixed
  split at run
  · obtain ⟨⟨usrpage, sorted⟩, search, run⟩ := Option.bind_eq_some_iff.mp run
    obtain ⟨next, pages, found⟩ := naClVmmapFindMapSpace_spec map small space parts
      number search
    exact Chosen.of_search next pages found dvd run
  obtain ⟨⟨hinted, first⟩, aboveHint, run⟩ := Option.bind_eq_some_iff.mp run
  obtain ⟨next, pages, found⟩ := naClVmmapFindMapSpaceAboveHint_spec map small space
    parts number above aboveHint
  dsimp only at run
  split at run
  · obtain ⟨⟨usrpage, sorted⟩, search, run⟩ := Option.bind_eq_some_iff.mp run
    obtain ⟨last, samePages, anywhere⟩ := naClVmmapFindMapSpace_spec next small space
      parts number search
    refine Chosen.of_search last (fun page => (samePages page).trans (pages page))
      (anywhere.imp_right ?_) dvd run
    intro free
    refine ⟨free.aligned, free.below, ?_⟩
    intro page inside
    rw [← pages]
    exact free.free page inside
  · exact Chosen.of_search next pages found dvd run

end Choices

section Reports

variable {platform : Platform} {qsort : QSort VmmapEntry} {world : MmapWorld}
  {app after : MmapApp platform} {start length usraddr : Nat}
  {prot flags offset : BitVec 32} {d : Int}

theorem PageIn.not_behind
    {lower middle upper last page : Nat} (inside : PageIn lower middle page)
    (ordered : middle ≤ upper) : ¬ PageIn upper last page := by
  rintro ⟨above, -⟩
  have behind : middle / naclPagesize ≤ upper / naclPagesize :=
    Nat.div_le_div_right ordered
  exact absurd inside.2 (by omega)

theorem Recorded.three_parts
    {mapped filled : MmapApp platform} {lower first second upper : Nat}
    {prot last : Int} {nmop : Option MemObj}
    (ordered : first ≤ second)
    (atFile : Recorded app mapped lower first prot nmop)
    (atFill : Recorded mapped filled first second prot none)
    (atEnd : Recorded filled after second upper last none) (page : Nat) :
    pageMap after.memMap page =
      if PageIn lower first page then
        some (mappedPage (lower / naclPagesize) prot nmop page)
      else if PageIn first second page then
        some (prot, none)
      else if PageIn second upper page then
        some (last, none)
      else
        pageMap app.memMap page := by
  rw [atEnd.pages, atFill.pages, atFile.pages]
  by_cases inFile : PageIn lower first page
  · rw [if_neg (inFile.not_behind ordered),
      if_neg (inFile.not_behind (Nat.le_refl _)), if_pos inFile, if_pos inFile]
  by_cases inFill : PageIn first second page
  · rw [if_neg (inFill.not_behind (Nat.le_refl _)), if_pos inFill, if_neg inFile,
      if_pos inFill]
    rfl
  rw [if_neg inFile, if_neg inFill, if_neg inFile, if_neg inFill]
  rfl

theorem coveredBytes_bounds
    (platform : Platform) (world : MmapWorld) (ndp : Option Nat)
    (offset : BitVec 32) {whole : Nat} (dvd : naclPagesize ∣ whole) :
    let covered := coveredBytes world ndp offset (hostPagesize platform) whole
    let filled := coveredBytes world ndp offset naclMapPagesize whole
    covered ≤ filled ∧ filled ≤ whole ∧ naclPagesize ∣ covered ∧ naclPagesize ∣ filled := by
  cases ndp with
  | none => exact ⟨Nat.le_refl _, Nat.le_refl _, dvd, dvd⟩
  | some ndp =>
      obtain ⟨-, hostDvd, ordered⟩ :=
        hostRoundUp_bounds platform (fileBytes world ndp offset)
      obtain ⟨-, -, allocDvd⟩ := roundUp_bounds (fileBytes world ndp offset)
      dsimp only [coveredBytes]
      unfold naclPagesize at *
      unfold naclMapPagesize at allocDvd ordered ⊢
      omega

theorem mmapRangeIsOkay_inside
    {whole : Nat} (bound : whole < 2 ^ platform.size.bits)
    (okay : mmapRangeIsOkay app usraddr whole = true) :
    usraddr + whole ≤ 2 ^ app.addrBits ∧ usraddr < 2 ^ app.addrBits := by
  have small := app.small
  obtain ⟨startInside, ordered, endInside, -⟩ := of_decide_eq_true okay
  unfold WordSize.wrap at ordered endInside
  refine ⟨?_, startInside⟩
  by_cases wraps : usraddr + whole < 2 ^ platform.size.bits
  · rwa [Nat.mod_eq_of_lt wraps] at endInside
  · rw [Nat.mod_eq_sub_mod (by omega), Nat.mod_eq_of_lt (by omega)] at ordered
    omega

theorem MmapSteps.does
    {extent : FileExtent} {memMap : Vmmap} {mapped filled : MmapApp platform}
    (map : AppMap platform.size (appPages app) app.memMap)
    (steps : MmapSteps qsort world app after start length usraddr prot flags d
      offset extent memMap mapped filled)
    (noWrap : length + 65535 < 2 ^ platform.size.bits) :
    DoesAsReported world app after usraddr length prot flags d offset := by
  obtain ⟨aligned, positive, nonzero, extended, choice, okay, filePages, zeroFilled,
    inaccessible⟩ := steps
  rw [naClRoundAllocPage_eq noWrap] at choice okay filePages zeroFilled inaccessible
  obtain ⟨-, most, allocDvd⟩ := roundUp_bounds length
  have chosen := mmapChooseAddress_spec map aligned allocDvd (by omega) choice
  obtain ⟨inside, startInside⟩ := mmapRangeIsOkay_inside (by omega) okay
  dsimp only at inside startInside
  have small := app.small
  have usable : roundUp naclMapPagesize length ≤ kMaxUsableFileSize platform := by
    unfold kMaxUsableFileSize
    omega
  obtain ⟨atCovered, atFilled, object⟩ := mmapFileExtent_spec usable positive extended
  have pageDvd : naclPagesize ∣ roundUp naclMapPagesize length :=
    Nat.dvd_trans (by decide) allocDvd
  have start : naclPagesize ∣ usraddr := Nat.dvd_trans (by decide) chosen.aligned
  obtain ⟨ordered, below, coveredDvd, filledDvd⟩ :=
    coveredBytes_bounds platform world (mmapDesc world flags d) offset pageDvd
  have allocated := app.allocated
  rw [platform.size.wrap_of_lt (by omega), atCovered] at filePages
  rw [platform.size.wrap_of_lt (by omega), atCovered, atFilled] at zeroFilled
  rw [platform.size.wrap_of_lt (by omega), atFilled] at inaccessible
  have atFile := mmapFilePages_spec chosen.map start coveredDvd
    (by dsimp only; omega) filePages
  have firstBits : mapped.addrBits = app.addrBits := atFile.addrBits
  have firstStart : mapped.memStart = app.memStart := atFile.memStart
  rw [← firstStart] at zeroFilled
  have atFill := mmapPagesBehind_spec atFile.map (Nat.dvd_add start coveredDvd)
    (Nat.dvd_add start filledDvd) ordered (by rw [firstBits]; omega)
    zeroFilled
  have secondBits : filled.addrBits = app.addrBits :=
    atFill.addrBits.trans firstBits
  have secondStart : filled.memStart = app.memStart :=
    atFill.memStart.trans firstStart
  rw [← secondStart] at inaccessible
  have atEnd := mmapPagesBehind_spec atFill.map (Nat.dvd_add start filledDvd)
    (Nat.dvd_add start pageDvd) below (by rw [secondBits]; omega)
    inaccessible
  refine ⟨nonzero, inside, ?_, ?_⟩
  · intro page
    rw [Recorded.three_parts (Nat.add_le_add_left ordered _) atFile atFill atEnd,
      ← object]
    dsimp only
    rw [chosen.pages]
    rfl
  · intro notFixed
    exact chosen.free (by simpa using notFixed)

/-- `mmap` does what it reports, unless its length is so large that rounding it
up wraps around. -/
theorem mmap_does_as_reported
    (reached : VmmapReached platform.size qsort
      (AppCall platform.size (appPages app)) app.memMap)
    (ran : naClCommonSysMmap qsort world app start length prot flags d offset =
      some (.address usraddr, after)) :
    DoesAsReported world app after usraddr length prot flags d offset ↔
      length + 65535 < 2 ^ platform.size.bits := by
  obtain ⟨small, space⟩ := appPages_le app
  obtain ⟨extent, memMap, mapped, filled, steps⟩ := naClCommonSysMmap_steps ran
  constructor
  · intro does
    have inside := does.inside
    have bounds := (roundUp_bounds length).1
    have space := app.small
    have wide := word_le platform
    omega
  · exact steps.does (reached.appMap small space)

private def linux32 : Platform := ⟨⟨32, bits32⟩, false⟩

private def emptyApp : MmapApp linux32 where
  addrBits := 30
  memStart := 0x10000000
  dynamicTextEnd := 0x20000
  memMap := ⟨[], startEntries, true⟩
  addrBits_le := by decide
  allocated := by decide
  text := by decide

private def allMemory : UpdateAllocations := ⟨true, ⟨true, true⟩, ⟨true, true⟩⟩

private def smallFile : MmapWorld where
  getDesc d := if d = 3 then some 0 else none
  fstat _ := .ok 5000
  map := true
  zeroFill := .ok ()
  mapAllocations := allMemory
  zeroFillAllocations := allMemory
  inaccessibleAllocations := allMemory

private theorem emptyApp_reached :
    VmmapReached linux32.size (insertionQSort VmmapEntry)
      (AppCall linux32.size (appPages emptyApp)) emptyApp.memMap :=
  VmmapReached.ctor true rfl

/-- Two pages of the file, fourteen zero-filled pages and sixteen inaccessible
ones. -/
theorem mmap_does_as_reported_file :
    ∃ after, naClCommonSysMmap (insertionQSort VmmapEntry) smallFile emptyApp
        0x20000 0x20000 protRead (mapFixed ||| mapPrivate) 3 0 =
          some (.address 0x20000, after) ∧
      DoesAsReported smallFile emptyApp after 0x20000 0x20000 protRead
        (mapFixed ||| mapPrivate) 3 0 := by
  have returns : (naClCommonSysMmap (insertionQSort VmmapEntry) smallFile emptyApp
      0x20000 0x20000 protRead (mapFixed ||| mapPrivate) 3 0).map Prod.fst =
        some (.address 0x20000) := by
    decide +kernel
  obtain ⟨⟨result, after⟩, ran, rfl⟩ := Option.map_eq_some_iff.mp returns
  exact ⟨after, ran, (mmap_does_as_reported emptyApp_reached ran).mpr (by decide)⟩

/-- All bytes that a word can say are rounded up to 0 bytes: the call returns the
address and maps nothing. -/
theorem mmap_reports_wrapped_length :
    ∃ after, naClCommonSysMmap (insertionQSort VmmapEntry) smallFile emptyApp
        0x20000 0xffffffff protRead (mapFixed ||| mapAnonymous ||| mapPrivate)
          (-1) 0 = some (.address 0x20000, after) ∧
      after.memMap = emptyApp.memMap ∧
      ¬ DoesAsReported smallFile emptyApp after 0x20000 0xffffffff protRead
        (mapFixed ||| mapAnonymous ||| mapPrivate) (-1) 0 := by
  have returns : (naClCommonSysMmap (insertionQSort VmmapEntry) smallFile emptyApp
      0x20000 0xffffffff protRead (mapFixed ||| mapAnonymous ||| mapPrivate)
        (-1) 0).map (fun result => (result.1, result.2.memMap)) =
          some (.address 0x20000, emptyApp.memMap) := by
    decide +kernel
  obtain ⟨⟨result, after⟩, ran, same⟩ := Option.map_eq_some_iff.mp returns
  obtain ⟨rfl, unchanged⟩ := Prod.mk.inj same
  refine ⟨after, ran, unchanged, ?_⟩
  intro does
  exact absurd does.inside (by decide)

end Reports

end NativeClient.Runtime
