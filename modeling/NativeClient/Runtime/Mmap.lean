import NativeClient.Runtime.DynamicCode
import NativeClient.Runtime.MapSpace

/-!
# The system call `mmap`

`NaClCommonSysMmap` chooses a range of the address space and maps it in three
parts: pages of the file, zero-filled pages up to the end of the last
allocation page of the file, and inaccessible pages.  Each part is recorded in
the memory map.  `none` means that the process has stopped.
-/

namespace NativeClient.Runtime

open NativeClient.Library

structure Platform where
  size : WordSize
  windows : Bool

def naclMaxAddrBits (size : WordSize) : Nat :=
  if size.bits = 32 then 30 else 32

/-- What `mmap` uses of `struct NaClApp`.  The loader does not start an
application with a larger address space, and has allocated the space with the
text at its beginning. -/
structure MmapApp (platform : Platform) where
  addrBits : Nat
  memStart : Nat
  dynamicTextEnd : Nat
  memMap : Vmmap
  addrBits_le : addrBits ≤ naclMaxAddrBits platform.size
  allocated : memStart + 2 ^ addrBits ≤ 2 ^ platform.size.bits
  text : 0 < dynamicTextEnd

/-- The answers of the rest of the runtime and of the host: the descriptors,
the sizes of their files or the errors, and whether the pages of the file and
the zero-filled pages are mapped. -/
structure MmapWorld where
  getDesc : Int → Option Nat
  fstat : Nat → Except Int (BitVec 32)
  map : Bool
  zeroFill : Except Int Unit
  mapAllocations : UpdateAllocations
  zeroFillAllocations : UpdateAllocations
  inaccessibleAllocations : UpdateAllocations

inductive MmapResult where
  | address (usraddr : Nat)
  | error (errno : Int)
deriving DecidableEq

section Constants

def mapShared : BitVec 32 := 0x01
def mapPrivate : BitVec 32 := 0x02
def mapFixed : BitVec 32 := 0x10
def mapAnonymous : BitVec 32 := 0x20

def protRead : BitVec 32 := 0x1
def protWrite : BitVec 32 := 0x2
def protExec : BitVec 32 := 0x4
def protNone : BitVec 32 := 0x0

end Constants

def naClProtMap (abiProt : BitVec 32) : Int :=
  (if abiProt &&& protRead ≠ 0 then 1 else 0) +
    (if abiProt &&& protWrite ≠ 0 then 2 else 0) +
    (if abiProt &&& protExec ≠ 0 then 4 else 0)

section Arithmetic

variable (platform : Platform)

def naClRoundHostAllocPage (nbytes : Nat) : Nat :=
  if platform.windows then naClRoundAllocPage platform.size nbytes
  else naClRoundPage platform.size nbytes

def kMaxUsableFileSize : Nat := (2 ^ platform.size.bits - 1) / 2

end Arithmetic

variable {platform : Platform}

def MmapApp.space (app : MmapApp platform) : AddressSpace where
  wordBits := platform.size.bits
  addrBits := app.addrBits
  memStart := app.memStart

structure FileExtent where
  fileSize : Int
  hostRoundedFileBytes : Nat
  allocRoundedFileBytes : Nat

/-- The part of `NaClCommonSysMmap` that looks at the size of the file. -/
def mmapFileExtent (platform : Platform) (world : MmapWorld) (ndp : Option Nat)
    (offset : BitVec 32) : Option (Except Int FileExtent) :=
  let most := kMaxUsableFileSize platform
  match ndp with
  | none => some (.ok ⟨most, most, most⟩)
  | some ndp =>
      match world.fstat ndp with
      | .error errno => some (.error errno)
      | .ok size =>
          let fileSize := size.toInt
          if fileSize < offset.toInt then
            some (.error einval)
          else
            let fileBytes := (fileSize - offset.toInt).toNat
            let hostRounded :=
              if most < fileBytes then most
              else naClRoundHostAllocPage platform fileBytes
            -- The assertion ends the process.
            if most < hostRounded then
              none
            else
              let allocRounded := naClRoundAllocPage platform.size hostRounded
              if allocRounded = 0 ∧ hostRounded ≠ 0 then
                some (.error enomem)
              else
                some (.ok ⟨fileSize, hostRounded, allocRounded⟩)

section Mapping

variable (qsort : QSort VmmapEntry)

/-- The part of `NaClCommonSysMmap` that chooses the address, unless it is
fixed. -/
def mmapChooseAddress (app : MmapApp platform) (usraddr : Nat) (fixed : Bool)
    (allocRoundedLength : Nat) : Option (Except Int Nat × Vmmap) :=
  let pages := allocRoundedLength / 2 ^ naclPageshift
  if fixed then
    some (.ok usraddr, app.memMap)
  else do
    let (usrpage, memMap) ←
      if usraddr = 0 then
        naClVmmapFindMapSpace platform.size qsort app.memMap pages
      else do
        let (usrpage, memMap) ← naClVmmapFindMapSpaceAboveHint platform.size qsort
          app.memMap usraddr pages
        if usrpage = 0 then
          naClVmmapFindMapSpace platform.size qsort memMap pages
        else
          some (usrpage, memMap)
    if usrpage = 0 then
      some (.error enomem, memMap)
    else
      some (.ok (platform.size.wrap (usrpage * 2 ^ naclPageshift)), memMap)

def mmapRangeIsOkay (app : MmapApp platform) (usraddr allocRoundedLength : Nat) :
    Bool :=
  let endaddr := platform.size.wrap (usraddr + allocRoundedLength)
  usraddr < 2 ^ app.addrBits ∧ usraddr ≤ endaddr ∧ endaddr ≤ 2 ^ app.addrBits ∧
    ¬ usraddr / naclMapPagesize * naclMapPagesize < app.dynamicTextEnd

/-- `NaClCommonUtilUpdateAddrMap` for a mapping that is not deleted. -/
def naClCommonUtilUpdateAddrMap (app : MmapApp platform)
    (allocations : UpdateAllocations) (sysaddr nbytes : Nat) (sysprot : Int)
    (nmop : Option MemObj) : Option (MmapApp platform) := do
  let usraddr ← app.space.naClSysToUser sysaddr
  let memMap ← naClVmmapUpdate platform.size qsort allocations app.memMap
    (usraddr / 2 ^ naclPageshift) (nbytes / 2 ^ naclPageshift) sysprot nmop false
  some { app with memMap := memMap }

/-- The pages of the file, at `[0, length)`. -/
def mmapFilePages (world : MmapWorld) (app : MmapApp platform)
    (sysaddr length : Nat) (prot : BitVec 32) (nmop : Option MemObj) :
    Option (MmapApp platform) :=
  if length = 0 then
    some app
  else if !world.map then
    none
  else if prot = protNone then
    naClCommonUtilUpdateAddrMap qsort app world.mapAllocations sysaddr length 0
      none
  else
    naClCommonUtilUpdateAddrMap qsort app world.mapAllocations sysaddr length
      (naClProtMap prot) nmop

/-- The pages behind the file, from `lower` up to `upper`. -/
def mmapPagesBehind (app : MmapApp platform) (allocations : UpdateAllocations)
    (sysaddr lower upper : Nat) (sysprot : Int) : Option (MmapApp platform) :=
  if lower < upper then
    naClCommonUtilUpdateAddrMap qsort app allocations
      (platform.size.wrap (sysaddr + lower)) (upper - lower) sysprot none
  else
    some app

def naClCommonSysMmap (world : MmapWorld) (app : MmapApp platform)
    (start length : Nat) (prot flags : BitVec 32) (d : Int)
    (offset : BitVec 32) : Option (MmapResult × MmapApp platform) :=
  let flags :=
    flags &&& (mapFixed ||| mapShared ||| mapPrivate ||| mapAnonymous)
  let anonymous : Bool := flags &&& mapAnonymous ≠ 0
  let ndp := if anonymous then none else world.getDesc d
  if !anonymous && ndp.isNone then
    some (.error ebadf, app)
  else if start % naclMapPagesize ≠ 0 then
    some (.error einval, app)
  else if offset.toInt < 0 then
    some (.error einval, app)
  else if offset.toNat % naclMapPagesize ≠ 0 then
    some (.error einval, app)
  else if length = 0 then
    some (.error einval, app)
  else
    let allocRoundedLength := naClRoundAllocPage platform.size length
    match mmapFileExtent platform world ndp offset with
    | none => none
    | some (.error errno) => some (.error errno, app)
    | some (.ok extent) => do
        let length := min allocRoundedLength extent.hostRoundedFileBytes
        let startOfInaccessible :=
          min allocRoundedLength extent.allocRoundedFileBytes
        let (chosen, memMap) ← mmapChooseAddress qsort app start
          (flags &&& mapFixed ≠ 0) allocRoundedLength
        let app : MmapApp platform := { app with memMap := memMap }
        match chosen with
        | .error errno => some (.error errno, app)
        | .ok usraddr =>
            if !mmapRangeIsOkay app usraddr allocRoundedLength then
              some (.error einval, app)
            else
              let prot := prot &&& ~~~protExec
              if (flags &&& mapShared = 0) = (flags &&& mapPrivate = 0) then
                some (.error einval, app)
              else do
                let sysaddr ← app.space.naClUserToSys usraddr
                let nmop := ndp.map fun ndp =>
                  ⟨ndp, BitVec.ofInt 64 extent.fileSize, offset.signExtend 64⟩
                let app ← mmapFilePages qsort world app sysaddr length prot nmop
                match world.zeroFill, decide (length < startOfInaccessible) with
                | .error errno, true => some (.error errno, app)
                | _, _ => do
                    let app ← mmapPagesBehind qsort app world.zeroFillAllocations
                      sysaddr length startOfInaccessible (naClProtMap prot)
                    let app ← mmapPagesBehind qsort app
                      world.inaccessibleAllocations sysaddr startOfInaccessible
                      allocRoundedLength 0
                    if 2 ^ 32 ≤ usraddr then none
                    else some (.address usraddr, app)

end Mapping

end NativeClient.Runtime
