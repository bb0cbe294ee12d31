import NativeClient.Runtime.DynArray

/-!
# Loading an ELF image

The checks of the headers of an executable, the layout of the address space
that is computed from them, and the writes of its segments.  The constants are
those of a fresh `NaClApp`: the largest address space of the machine and the
default stack.
-/

namespace NativeClient.Loader

open NativeClient.Library (bits32 bits64)
open NativeClient.Runtime

inductive ElfArch where
  | x86_32
  | x86_64
  | arm
  deriving DecidableEq

namespace ElfArch

/-- The size of `Elf_Addr`, of `Elf_Xword` and of `uintptr_t`. -/
def wordSize : ElfArch → WordSize
  | x86_32 => ⟨32, bits32⟩
  | x86_64 => ⟨64, bits64⟩
  | arm => ⟨32, bits32⟩

/-- `NACL_MAX_ADDR_BITS`, and `addr_bits` of a fresh `NaClApp`. -/
def addrBits : ElfArch → Nat
  | x86_32 => 30
  | x86_64 => 32
  | arm => 30

def elfClass : ElfArch → Nat
  | x86_32 => 1
  | x86_64 => 2
  | arm => 1

/-- `EM_EXPECTED_BY_NACL`. -/
def machine : ElfArch → Nat
  | x86_32 => 3
  | x86_64 => 62
  | arm => 40

def phdrSize : ElfArch → Nat
  | x86_32 => 32
  | x86_64 => 56
  | arm => 32

end ElfArch

def naclTrampolineEnd : Nat := 0x20000

def naclMaxProgramHeaders : Nat := 128

def naclDefaultStackMax : Nat := 0x1000000

structure Ehdr where
  magic : List Nat
  elfClass : Nat
  osAbi : Nat
  abiVersion : Nat
  type : Nat
  machine : Nat
  version : Nat
  entry : Nat
  flags : Nat
  phentsize : Nat

structure Phdr (arch : ElfArch) where
  type : Nat
  flags : Nat
  vaddr : Nat
  filesz : Nat
  memsz : Nat
  vaddr_lt : vaddr < 2 ^ arch.wordSize.bits
  filesz_lt : filesz < 2 ^ arch.wordSize.bits
  memsz_lt : memsz < 2 ^ arch.wordSize.bits
  deriving DecidableEq

structure ElfImage (arch : ElfArch) where
  ehdr : Ehdr
  phdrs : List (Phdr arch)

inductive PhdrCheckAction where
  | none
  | textCheck
  | rodata
  | data
  | ignore
  deriving DecidableEq

structure PhdrChecks where
  type : Nat
  flags : Nat
  action : PhdrCheckAction
  required : Bool
  vaddr : Nat
  deriving DecidableEq

def ptNull : Nat := 0
def ptLoad : Nat := 1
def ptDynamic : Nat := 2
def ptInterp : Nat := 3
def ptNote : Nat := 4
def ptPhdr : Nat := 6
def ptTls : Nat := 7
def ptArmExidx : Nat := 0x70000001
def ptGnuStack : Nat := 0x6474e551
def ptGnuEhFrame : Nat := 0x6474e550
def ptGnuRelro : Nat := 0x6474e552

def pfX : Nat := 1
def pfW : Nat := 2
def pfR : Nat := 4

def naclPhdrCheckData (arch : ElfArch) : List PhdrChecks :=
  [⟨ptPhdr, pfR, .ignore, false, 0⟩,
    ⟨ptLoad, pfR ||| pfX, .textCheck, true, naclTrampolineEnd⟩,
    ⟨ptLoad, pfR, .rodata, false, 0⟩,
    ⟨ptLoad, pfR ||| pfW, .data, false, 0⟩,
    ⟨ptTls, pfR, .ignore, false, 0⟩] ++
  (if arch = .arm then [⟨ptArmExidx, pfR, .ignore, false, 0⟩] else []) ++
  [⟨ptGnuStack, pfR ||| pfW, .none, false, 0⟩,
    ⟨ptDynamic, pfR, .ignore, false, 0⟩,
    ⟨ptInterp, pfR, .ignore, false, 0⟩,
    ⟨ptNote, pfR, .ignore, false, 0⟩,
    ⟨ptGnuEhFrame, pfR, .ignore, false, 0⟩,
    ⟨ptGnuRelro, pfR, .ignore, false, 0⟩,
    ⟨ptNull, pfR, .ignore, false, 0⟩]

/-- The error codes of the checks; `fatal` stops the process. -/
inductive LoadError where
  | readError
  | tooManyProgHdrs
  | progHdrSizeTooSmall
  | badElfMagic
  | not32Bit
  | not64Bit
  | badAbi
  | notExec
  | badMachine
  | badElfVers
  | badSegment
  | dupSegment
  | segmentBadLoc
  | segmentOutsideAddrspace
  | segmentBadParam
  | badElfText
  | requiredSegMissing
  | badEntry
  | dataNotLastSegment
  | noDataButRodataNotLastSegment
  | rodataOverlapsData
  | textOverlapsRodata
  | textOverlapsData
  | badRodataAlignment
  | badDataAlignment
  | dataOverlapsStackSection
  | madviseFail
  | mprotectFail
  | noMemory
  | internal
  | fatal
  deriving DecidableEq

def require (holds : Prop) [Decidable holds] (error : LoadError) :
    Except LoadError Unit :=
  if holds then .ok () else .error error

section Headers

variable {arch : ElfArch}

def naClElfImageValidateAbi (image : ElfImage arch) : Except LoadError Unit := do
  require (image.ehdr.osAbi = 123) .badAbi
  require (image.ehdr.abiVersion = 7 ∨
    arch = .x86_64 ∧ image.ehdr.abiVersion = 0) .badAbi

def naClElfImageValidateElfHeader (image : ElfImage arch) :
    Except LoadError Unit := do
  require (image.ehdr.magic = [0x7f, 0x45, 0x4c, 0x46]) .badElfMagic
  require (image.ehdr.elfClass = arch.elfClass)
    (if arch = .x86_64 then .not64Bit else .not32Bit)
  require (image.ehdr.type = 2) .notExec
  require (image.ehdr.machine = arch.machine) .badMachine
  require (image.ehdr.version = 1) .badElfVers

/-- What the scan of the program headers has found: which rows of the checks
were seen, the headers that are marked loadable, and the results. -/
structure PhdrScan (arch : ElfArch) where
  seen : Nat → Bool
  loadable : List (Phdr arch)
  maxVaddr : Nat
  staticTextEnd : Nat
  rodataStart : Nat
  rodataEnd : Nat
  dataStart : Nat
  dataEnd : Nat

def matchedCheck (php : Phdr arch) : Option (PhdrChecks × Nat) :=
  (naclPhdrCheckData arch).zipIdx.find? (fun row =>
    php.type = row.1.type ∧ php.flags = row.1.flags)

def Phdr.memEnd (php : Phdr arch) : Nat :=
  arch.wordSize.wrap (php.vaddr + php.memsz)

/-- The `switch` on the action. -/
def recordSegment (php : Phdr arch) (scan : PhdrScan arch) :
    PhdrCheckAction → Except LoadError (PhdrScan arch)
  | .none => .ok scan
  | .textCheck =>
      if php.memsz = 0 then
        .error .badElfText
      else
        .ok { scan with
          staticTextEnd := arch.wordSize.wrap (naclTrampolineEnd + php.filesz) }
  | .rodata => .ok { scan with rodataStart := php.vaddr, rodataEnd := php.memEnd }
  | .data => .ok { scan with dataStart := php.vaddr, dataEnd := php.memEnd }
  | .ignore => .ok scan

def scanPhdr (scan : PhdrScan arch) (php : Phdr arch) :
    Except LoadError (PhdrScan arch) :=
  if php.memsz = 0 then
    .ok scan
  else
    match matchedCheck php with
    | none => .error .badSegment
    | some (check, row) => do
        require (scan.seen row = false) .dupSegment
        let scan := { scan with seen := Function.update scan.seen row true }
        if check.action = .ignore then
          .ok scan
        else
          require (check.vaddr = 0 ∨ check.vaddr = php.vaddr) .segmentBadLoc
          require (naclTrampolineEnd ≤ php.vaddr) .segmentOutsideAddrspace
          require (php.vaddr ≤ php.memEnd) .segmentOutsideAddrspace
          require (php.memEnd < 2 ^ arch.addrBits) .segmentOutsideAddrspace
          require (php.filesz ≤ php.memsz) .segmentBadParam
          recordSegment php { scan with
            loadable := scan.loadable ++ [php]
            maxVaddr := max scan.maxVaddr php.memEnd } check.action

def startScan (arch : ElfArch) : PhdrScan arch where
  seen := fun _ => false
  loadable := []
  maxVaddr := naclTrampolineEnd
  staticTextEnd := 0
  rodataStart := 0
  rodataEnd := 0
  dataStart := 0
  dataEnd := 0

def naClElfImageValidateProgramHeaders (image : ElfImage arch) :
    Except LoadError (PhdrScan arch) := do
  let scan ← image.phdrs.foldlM scanPhdr (startScan arch)
  require (∀ row ∈ (naclPhdrCheckData arch).zipIdx,
    row.1.required = true → scan.seen row.2 = true) .requiredSegMissing
  .ok scan

end Headers

section Layout

variable {arch : ElfArch}

/-- What the operating system answers to the calls of the loader; `none` is
success. -/
structure LoadWorld where
  readHeaders : Bool
  allocateSpace : Option LoadError
  madvise : Bool
  mprotect : Bool
  makeDynamicTextShared : Option LoadError

def answer : Option LoadError → Except LoadError Unit
  | none => .ok ()
  | some error => .error error

def naClElfImageNew (world : LoadWorld) (image : ElfImage arch) :
    Except LoadError Unit := do
  require (image.phdrs.length ≤ naclMaxProgramHeaders) .tooManyProgHdrs
  require (arch.phdrSize ≤ image.ehdr.phentsize) .progHdrSizeTooSmall
  require (world.readHeaders = true) .readError

/-- `none` if the process stops. -/
def naClElfImageGetBundleSize (image : ElfImage arch) : Option Nat :=
  if image.ehdr.flags &&& 0x300000 = 0x100000 then some 16
  else if image.ehdr.flags &&& 0x300000 = 0x200000 then some 32
  else none

def breakAddr (scan : PhdrScan arch) : Nat :=
  if scan.dataStart = 0 then
    let maxVaddr :=
      if scan.rodataStart = 0 ∧
          naClRoundAllocPage arch.wordSize scan.maxVaddr - scan.maxVaddr <
            naclHaltSledSize then
        arch.wordSize.wrap (scan.maxVaddr + naclMapPagesize)
      else
        scan.maxVaddr
    naClRoundAllocPage arch.wordSize maxVaddr
  else
    scan.maxVaddr

def checkOrder (scan : PhdrScan arch) : Except LoadError Unit := do
  require (scan.dataStart ≠ 0 → scan.dataEnd = breakAddr scan)
    .dataNotLastSegment
  require (scan.dataStart = 0 → scan.rodataStart ≠ 0 →
    naClRoundAllocPage arch.wordSize scan.rodataEnd = breakAddr scan)
    .noDataButRodataNotLastSegment
  require (scan.rodataStart ≠ 0 → scan.dataStart ≠ 0 →
    scan.rodataEnd ≤ scan.dataStart) .rodataOverlapsData
  require (scan.rodataStart ≠ 0 →
    naClRoundAllocPage arch.wordSize scan.staticTextEnd ≤ scan.rodataStart)
    .textOverlapsRodata
  require (scan.rodataStart = 0 → scan.dataStart ≠ 0 →
    naClRoundAllocPage arch.wordSize scan.staticTextEnd ≤ scan.dataStart)
    .textOverlapsData
  require (scan.rodataStart ≠ 0 →
    naClRoundAllocPage arch.wordSize scan.rodataStart = scan.rodataStart)
    .badRodataAlignment
  require (scan.dataStart ≠ 0 →
    naClRoundAllocPage arch.wordSize scan.dataStart = scan.dataStart)
    .badDataAlignment

def naClAllocAddrSpace (world : LoadWorld) (arch : ElfArch) (dataEnd : Nat) :
    Except LoadError Unit := do
  let stackSize := naClRoundAllocPage arch.wordSize naclDefaultStackMax
  let holeStart := naClRoundAllocPage arch.wordSize dataEnd
  let stackStart := naClTruncAllocPage (2 ^ arch.addrBits - stackSize)
  answer world.allocateSpace
  require (stackSize < 2 ^ arch.addrBits) .fatal
  require (holeStart ≤ stackStart) .dataOverlapsStackSection
  if naClTruncAllocPage (stackStart - holeStart) = 0 then
    .ok ()
  else
    require (world.madvise = true) .madviseFail
    require (world.mprotect = true) .mprotectFail

/-- `NaClAppLoadFile` up to the writes of the segments. -/
def naClAppLoadFileChecks (world : LoadWorld) (image : ElfImage arch) :
    Except LoadError (PhdrScan arch) := do
  naClElfImageNew world image
  naClElfImageValidateAbi image
  naClElfImageValidateElfHeader image
  let scan ← naClElfImageValidateProgramHeaders image
  match naClElfImageGetBundleSize image with
  | none => .error .fatal
  | some bundleSize => do
      require (image.ehdr.entry % bundleSize = 0 ∧
        image.ehdr.entry < scan.staticTextEnd) .badEntry
      checkOrder scan
      naClAllocAddrSpace world arch (breakAddr scan)
      answer world.makeDynamicTextShared
      .ok scan

end Layout

section Load

variable {arch : ElfArch}

structure MemRange where
  start : Nat
  stop : Nat
  deriving DecidableEq

structure Gio (arch : ElfArch) where
  seek : Phdr arch → Bool
  read : Phdr arch → Bool

structure LoadResult where
  writes : List MemRange
  status : Except LoadError Unit

def naClElfImageLoad (gio : Gio arch) : List (Phdr arch) → LoadResult
  | [] => ⟨[], .ok ()⟩
  | php :: rest =>
      let endVaddr := arch.wordSize.wrap (php.vaddr + php.filesz)
      if endVaddr < php.vaddr ∨ 2 ^ arch.addrBits ≤ endVaddr then
        ⟨[], .error .fatal⟩
      else if gio.seek php = false then
        ⟨[], .error .segmentBadParam⟩
      else
        let write : MemRange := ⟨php.vaddr, php.vaddr + php.filesz⟩
        if gio.read php = false then
          ⟨[write], .error .segmentBadParam⟩
        else
          let result := naClElfImageLoad gio rest
          ⟨write :: result.writes, result.status⟩

end Load

end NativeClient.Loader
