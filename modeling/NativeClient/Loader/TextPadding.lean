import NativeClient.Library.Stores
import NativeClient.Loader.RodataLast
import NativeClient.Runtime.PageMap

/-!
# The end of the text

The text is padded with halts up to the end of its last allocation page, or up
to the end of the page behind it where the halts would be too few.  The segment
behind the text has to leave room for the halts, and the text has to be a whole
number of halts long; the process stops where it is not.
-/

namespace NativeClient.Loader

open NativeClient.Library
open NativeClient.Runtime

/-- What the loader uses of `struct NaClApp` once the headers have been
checked.  Of the descriptor of the shared memory of the dynamic text it is
known whether there is one. -/
structure LoadedApp (arch : ElfArch) where
  memStart : Nat
  stackSize : Nat
  staticTextEnd : Nat
  dynamicTextStart : Nat
  dynamicTextEnd : Nat
  textShm : Bool
  rodataStart : Nat
  dataStart : Nat
  dataEnd : Nat
  breakAddr : Nat
  deriving DecidableEq

inductive FillFailure where
  | textDataGap
  | textRodataGap
  | pagePadShort
  | pagePadLong
  | haltSize
  | haltStart
  deriving DecidableEq

section Code

variable {arch : ElfArch}

/-- `NaClMakeDynamicTextShared`, when there is memory to share.  Without shared
memory the dynamic text is empty. -/
def naClMakeDynamicTextShared (useShmForDynamicText : Bool)
    (nap : LoadedApp arch) : LoadedApp arch :=
  let shmVaddrBase := naClRoundAllocPage arch.wordSize nap.staticTextEnd
  let shmUpperBound :=
    if useShmForDynamicText = false then shmVaddrBase
    else if nap.rodataStart ≠ 0 then nap.rodataStart
    else if nap.dataStart ≠ 0 then nap.dataStart
    else shmVaddrBase
  let dynamicTextSize := arch.wordSize.sub shmUpperBound shmVaddrBase
  { nap with
    dynamicTextStart := shmVaddrBase
    dynamicTextEnd := shmUpperBound
    textShm := dynamicTextSize ≠ 0 }

/-- The application after the checks of `NaClAppLoadFile`. -/
def loadedApp (useShmForDynamicText : Bool) (memStart : Nat)
    (scan : PhdrScan arch) : LoadedApp arch :=
  naClMakeDynamicTextShared useShmForDynamicText
    { memStart := memStart
      stackSize := naClRoundAllocPage arch.wordSize naclDefaultStackMax
      staticTextEnd := scan.staticTextEnd
      dynamicTextStart := 0
      dynamicTextEnd := 0
      textShm := false
      rodataStart := scan.rodataStart
      dataStart := scan.dataStart
      dataEnd := breakAddr scan
      breakAddr := breakAddr scan }

def naclHaltLen : ElfArch → Nat
  | .arm => 4
  | _ => 1

def naclHaltOpcode : ElfArch → List UInt8
  | .arm => [0x76, 0x66, 0x26, 0xe1]
  | _ => [0xf4]

def haltWords (start size : Nat) : List Store :=
  (List.range (size / naclHaltLen .arm)).map
    (fun i => ⟨start + 4 * i, naclHaltOpcode .arm⟩)

def naClFillMemoryRegionWithHalt (arch : ElfArch) (start size : Nat)
    (memory : Buffer) : Except FillFailure Buffer :=
  if size % naclHaltLen arch ≠ 0 then
    .error .haltSize
  else
    match arch with
    | .arm =>
        if start % 2 ^ 32 % naclHaltLen .arm ≠ 0 then .error .haltStart
        else .ok (applyStores (haltWords start size) memory)
    | _ => .ok (memory.fill start size 0xf4)

def pagePad (nap : LoadedApp arch) : Except FillFailure Nat :=
  let size := arch.wordSize
  if nap.textShm = false then
    let pad := size.sub
      (naClRoundAllocPage arch.wordSize (size.wrap (nap.staticTextEnd + naclHaltSledSize)))
      nap.staticTextEnd
    if pad < naclHaltSledSize then .error .pagePadShort
    else if naclMapPagesize + naclHaltSledSize ≤ pad then .error .pagePadLong
    else .ok pad
  else
    .ok (size.sub (naClRoundAllocPage arch.wordSize nap.staticTextEnd) nap.staticTextEnd)

def naClFillEndOfTextRegion (nap : LoadedApp arch) (memory : Buffer) :
    Except FillFailure (LoadedApp arch × Buffer) :=
  let size := arch.wordSize
  let sledEnd := size.wrap (nap.staticTextEnd + naclHaltSledSize)
  if nap.dataStart ≠ 0 ∧ nap.dataStart < sledEnd then
    .error .textDataGap
  else if nap.rodataStart ≠ 0 ∧ nap.rodataStart < sledEnd then
    .error .textRodataGap
  else do
    let pad ← pagePad nap
    let memory ← naClFillMemoryRegionWithHalt arch
      (size.wrap (nap.memStart + nap.staticTextEnd)) pad memory
    .ok ({ nap with staticTextEnd := size.wrap (nap.staticTextEnd + pad) },
      memory)

end Code

section Statements

variable {arch : ElfArch}

def haltByte (arch : ElfArch) (address : Nat) : UInt8 :=
  (naclHaltOpcode arch).getD (address % naclHaltLen arch) 0

structure Padded (nap next : LoadedApp arch) (before after : Buffer) :
    Prop where
  only : next = { nap with staticTextEnd := next.staticTextEnd }
  aligned : naclMapPagesize ∣ next.staticTextEnd
  forward : nap.staticTextEnd ≤ next.staticTextEnd
  halts : ∀ address, nap.staticTextEnd ≤ address →
    address < next.staticTextEnd →
      after (nap.memStart + address) = haltByte arch address
  frame : ∀ address, address < nap.memStart + nap.staticTextEnd ∨
    nap.memStart + next.staticTextEnd ≤ address → after address = before address
  rodata : nap.rodataStart ≠ 0 → next.staticTextEnd ≤ nap.rodataStart
  data : nap.dataStart ≠ 0 → next.staticTextEnd ≤ nap.dataStart
  dynamicText : nap.textShm = true → next.staticTextEnd ≤ nap.dynamicTextStart
  breakAddr : next.staticTextEnd ≤ nap.breakAddr

def SledFits (nap : LoadedApp arch) : Prop :=
  (nap.rodataStart ≠ 0 →
      nap.staticTextEnd + naclHaltSledSize ≤ nap.rodataStart) ∧
    (nap.dataStart ≠ 0 → nap.staticTextEnd + naclHaltSledSize ≤ nap.dataStart)

def HaltAligned (nap : LoadedApp arch) : Prop :=
  naclHaltLen arch ∣ nap.staticTextEnd

structure SandboxAt (arch : ElfArch) (memStart : Nat) : Prop where
  inside : memStart + 2 ^ arch.addrBits ≤ 2 ^ arch.wordSize.bits
  zeroBased : arch = .arm → memStart = 0

structure PadsText (nap : LoadedApp arch) (memory : Buffer) : Prop where
  pads : SledFits nap → HaltAligned nap → ∃ next after,
    naClFillEndOfTextRegion nap memory = .ok (next, after) ∧
      Padded nap next memory after
  gap : ¬ SledFits nap →
    naClFillEndOfTextRegion nap memory = .error .textDataGap ∨
      naClFillEndOfTextRegion nap memory = .error .textRodataGap
  ragged : SledFits nap → ¬ HaltAligned nap →
    naClFillEndOfTextRegion nap memory = .error .haltSize

end Statements

/-! ## The layout that the checks establish -/

section Arranged

variable {arch : ElfArch} {scan : PhdrScan arch}

structure Arranged (scan : PhdrScan arch) : Prop where
  ordered : Ordered scan
  textSmall : scan.staticTextEnd < 2 ^ arch.addrBits
  rodataAligned : scan.rodataStart ≠ 0 → naclMapPagesize ∣ scan.rodataStart
  dataAligned : scan.dataStart ≠ 0 → naclMapPagesize ∣ scan.dataStart
  textRodata : scan.rodataStart ≠ 0 →
    naClRoundAllocPage arch.wordSize scan.staticTextEnd ≤ scan.rodataStart
  textData : scan.rodataStart = 0 → scan.dataStart ≠ 0 →
    naClRoundAllocPage arch.wordSize scan.staticTextEnd ≤ scan.dataStart
  sled : scan.rodataStart = 0 → scan.dataStart = 0 →
    naClRoundAllocPage arch.wordSize (scan.staticTextEnd + naclHaltSledSize) ≤
      breakAddr scan
  stack : naClRoundAllocPage arch.wordSize (breakAddr scan) ≤ naClTruncAllocPage
    (2 ^ arch.addrBits - naClRoundAllocPage arch.wordSize naclDefaultStackMax)

theorem naClRoundAllocPage_dvd (arch : ElfArch) (nbytes : Nat) :
    naclMapPagesize ∣ naClRoundAllocPage arch.wordSize nbytes :=
  Nat.dvd_mul_left _ _

theorem naClRoundAllocPage_le
    {nbytes multiple : Nat} (dvd : naclMapPagesize ∣ multiple)
    (le : nbytes ≤ multiple)
    (small : nbytes + naclMapPagesize ≤ 2 ^ arch.wordSize.bits) :
    naClRoundAllocPage arch.wordSize nbytes ≤ multiple := by
  have near := (naClRoundAllocPage_bounds small).2
  have roundDvd := naClRoundAllocPage_dvd arch nbytes
  obtain ⟨pages, rfl⟩ := dvd
  obtain ⟨roundPages, same⟩ := roundDvd
  simp only [naclMapPagesize] at *
  omega

theorem sled_of_text
    (maxHigh : scan.maxVaddr < 2 ^ arch.addrBits)
    (textMax : scan.staticTextEnd ≤ scan.maxVaddr)
    (noRodata : scan.rodataStart = 0) (noData : scan.dataStart = 0) :
    naClRoundAllocPage arch.wordSize (scan.staticTextEnd + naclHaltSledSize) ≤
      breakAddr scan := by
  have room := addrSpace_room arch
  have rounded := @naClRoundAllocPage_bounds arch scan.maxVaddr (by
    simp only [naclMapPagesize] at room ⊢
    omega)
  have fits : arch.wordSize.wrap (scan.maxVaddr + naclMapPagesize) =
      scan.maxVaddr + naclMapPagesize := by
    apply Nat.mod_eq_of_lt
    simp only [naclMapPagesize] at room ⊢
    omega
  have small : scan.staticTextEnd + naclHaltSledSize + naclMapPagesize ≤
      2 ^ arch.wordSize.bits := by
    simp only [naclMapPagesize, naclHaltSledSize] at room ⊢
    omega
  rw [breakAddr, if_pos noData]
  dsimp only
  apply naClRoundAllocPage_le (naClRoundAllocPage_dvd arch _) _ small
  split
  · have second := @naClRoundAllocPage_bounds arch
      (scan.maxVaddr + naclMapPagesize) (by
        simp only [naclMapPagesize] at room ⊢
        omega)
    rw [fits]
    simp only [naclMapPagesize, naclHaltSledSize] at *
    omega
  · next tight =>
      have above : naclHaltSledSize ≤
          naClRoundAllocPage arch.wordSize scan.maxVaddr - scan.maxVaddr := by
        by_contra short
        exact tight ⟨noRodata, Nat.lt_of_not_le short⟩
      omega

theorem naClAllocAddrSpace_stack
    {world : LoadWorld} {dataEnd : Nat}
    (run : naClAllocAddrSpace world arch dataEnd = .ok ()) :
    naClRoundAllocPage arch.wordSize dataEnd ≤ naClTruncAllocPage
      (2 ^ arch.addrBits - naClRoundAllocPage arch.wordSize naclDefaultStackMax) := by
  simp only [naClAllocAddrSpace, except_bind_ok_iff, require_ok_iff] at run
  obtain ⟨_, _, _, _, _, below, _⟩ := run
  exact below

theorem naClAppLoadFileChecks_arranged
    {world : LoadWorld} {image : ElfImage arch}
    (run : naClAppLoadFileChecks world image = .ok scan) : Arranged scan := by
  have checked := naClAppLoadFileChecks_spec run
  simp only [naClAppLoadFileChecks, except_bind_ok_iff] at run
  obtain ⟨_, _, _, _, _, _, found, validated, run⟩ := run
  cases bundle : naClElfImageGetBundleSize image with
  | none =>
      rw [bundle] at run
      cases run
  | some bundleSize =>
      rw [bundle] at run
      simp only [except_bind_ok_iff, require_ok_iff] at run
      obtain ⟨_, _, _, order, _, allocated, _, _, done⟩ := run
      cases done
      simp only [checkOrder, require_bind_ok_iff, require_ok_iff] at order
      obtain ⟨_, _, _, textRodata, textData, rodataAligned, dataAligned⟩ := order
      obtain ⟨text, member, takes⟩ := checked.text
      have textEnd := checked.invariant.text text member takes
      have placed := checked.invariant.placed text member
      have textMax := checked.invariant.segmentEnd text member
      have textStart := placed.text takes
      have file := placed.file
      have high := placed.high
      refine ⟨checked.ordered, by omega, ?_, ?_, textRodata, textData, ?_,
        naClAllocAddrSpace_stack allocated⟩
      · intro hasRodata
        rw [← rodataAligned hasRodata]
        exact naClRoundAllocPage_dvd arch _
      · intro hasData
        rw [← dataAligned hasData]
        exact naClRoundAllocPage_dvd arch _
      · exact sled_of_text checked.invariant.maxHigh (by omega)

end Arranged

/-! ## The fill -/

section Fill

variable {arch : ElfArch} {start size : Nat}

theorem haltWords_inside
    (startAligned : naclHaltLen .arm ∣ start)
    (sizeAligned : naclHaltLen .arm ∣ size) {address : Nat}
    (above : start ≤ address) (below : address < start + size)
    (memory : Buffer) :
    applyStores (haltWords start size) memory address =
      haltByte .arm address := by
  change 4 ∣ start at startAligned
  change 4 ∣ size at sizeAligned
  apply applyStores_inside
  · intro store member covers
    obtain ⟨index, -, rfl⟩ := List.mem_map.mp member
    have covered : start + 4 * index ≤ address ∧
        address < start + 4 * index + 4 := covers
    have place : address - (start + 4 * index) = address % 4 := by
      omega
    change (naclHaltOpcode .arm).getD (address - (start + 4 * index)) 0 = _
    rw [place]
    rfl
  · refine .inl ⟨_, List.mem_map.mpr
      ⟨(address - start) / 4, List.mem_range.mpr ?_, rfl⟩, ?_⟩
    · change (address - start) / 4 < size / 4
      omega
    · change start + 4 * ((address - start) / 4) ≤ address ∧
        address < start + 4 * ((address - start) / 4) + 4
      omega

theorem haltWords_outside
    {address : Nat} (outside : address < start ∨ start + size ≤ address)
    (memory : Buffer) :
    applyStores (haltWords start size) memory address = memory address := by
  apply applyStores_outside
  intro store member covers
  obtain ⟨index, inRange, rfl⟩ := List.mem_map.mp member
  have covered : start + 4 * index ≤ address ∧
      address < start + 4 * index + 4 := covers
  have bound : index < size / 4 := List.mem_range.mp inRange
  omega

theorem haltByte_x86
    (notArm : arch ≠ .arm) (address : Nat) : haltByte arch address = 0xf4 := by
  cases arch with
  | x86_32 =>
      change [0xf4].getD (address % 1) 0 = (0xf4 : UInt8)
      rw [Nat.mod_one]
      rfl
  | x86_64 =>
      change [0xf4].getD (address % 1) 0 = (0xf4 : UInt8)
      rw [Nat.mod_one]
      rfl
  | arm => exact absurd rfl notArm

theorem naclHaltLen_x86 (notArm : arch ≠ .arm) : naclHaltLen arch = 1 := by
  cases arch with
  | x86_32 => rfl
  | x86_64 => rfl
  | arm => exact absurd rfl notArm

theorem haltByte_shift
    {memStart : Nat} (place : SandboxAt arch memStart) (address : Nat) :
    haltByte arch (memStart + address) = haltByte arch address := by
  by_cases isArm : arch = .arm
  · rw [place.zeroBased isArm, Nat.zero_add]
  · rw [haltByte_x86 isArm, haltByte_x86 isArm]

theorem naClFillMemoryRegionWithHalt_fills
    (startAligned : naclHaltLen arch ∣ start)
    (sizeAligned : naclHaltLen arch ∣ size)
    (small : start < 2 ^ arch.wordSize.bits) (memory : Buffer) :
    ∃ after, naClFillMemoryRegionWithHalt arch start size memory = .ok after ∧
      (∀ address, start ≤ address → address < start + size →
        after address = haltByte arch address) ∧
      ∀ address, address < start ∨ start + size ≤ address →
        after address = memory address := by
  have whole : ¬ size % naclHaltLen arch ≠ 0 :=
    not_not.mpr (Nat.mod_eq_zero_of_dvd sizeAligned)
  unfold naClFillMemoryRegionWithHalt
  rw [if_neg whole]
  by_cases isArm : arch = .arm
  · subst isArm
    have word : start % 2 ^ 32 = start := Nat.mod_eq_of_lt small
    have placed : ¬ start % 2 ^ 32 % naclHaltLen .arm ≠ 0 := by
      rw [word]
      exact not_not.mpr (Nat.mod_eq_zero_of_dvd startAligned)
    refine ⟨applyStores (haltWords start size) memory, if_neg placed, ?_, ?_⟩
    · intro address above below
      exact haltWords_inside startAligned sizeAligned above below memory
    · intro address outside
      exact haltWords_outside outside memory
  · refine ⟨memory.fill start size 0xf4, ?_, ?_, ?_⟩
    · cases arch with
      | x86_32 => rfl
      | x86_64 => rfl
      | arm => exact absurd rfl isArm
    · intro address above below
      rw [Buffer.fill_inside above below, haltByte_x86 isArm]
    · intro address outside
      exact Buffer.fill_outside outside

end Fill

/-! ## The padding -/

section Padding

variable {arch : ElfArch} {scan : PhdrScan arch} {useShm : Bool}
  {memStart : Nat}

theorem naclHaltLen_dvd (arch : ElfArch) : naclHaltLen arch ∣ naclMapPagesize := by
  cases arch <;> decide

structure PadEnd (nap : LoadedApp arch) (textEnd : Nat) : Prop where
  aligned : naclMapPagesize ∣ textEnd
  forward : nap.staticTextEnd ≤ textEnd
  rodata : nap.rodataStart ≠ 0 → textEnd ≤ nap.rodataStart
  data : nap.dataStart ≠ 0 → textEnd ≤ nap.dataStart
  dynamicText : nap.textShm = true → textEnd ≤ nap.dynamicTextStart
  breakAddr : textEnd ≤ nap.breakAddr

theorem Arranged.sledEnd
    (arranged : Arranged scan)
    (fits : SledFits (loadedApp useShm memStart scan))
    (alone : (loadedApp useShm memStart scan).textShm = false) :
    PadEnd (loadedApp useShm memStart scan)
      (naClRoundAllocPage arch.wordSize (scan.staticTextEnd + naclHaltSledSize)) := by
  have room := addrSpace_room arch
  have textSmall := arranged.textSmall
  have small : scan.staticTextEnd + naclHaltSledSize + naclMapPagesize ≤
      2 ^ arch.wordSize.bits := by
    simp only [naclMapPagesize, naclHaltSledSize] at room ⊢
    omega
  have above := (naClRoundAllocPage_bounds small).1
  have rodata : scan.rodataStart ≠ 0 → naClRoundAllocPage arch.wordSize
      (scan.staticTextEnd + naclHaltSledSize) ≤ scan.rodataStart :=
    fun hasRodata => naClRoundAllocPage_le (arranged.rodataAligned hasRodata)
      (fits.1 hasRodata) small
  have data : scan.dataStart ≠ 0 → naClRoundAllocPage arch.wordSize
      (scan.staticTextEnd + naclHaltSledSize) ≤ scan.dataStart :=
    fun hasData => naClRoundAllocPage_le (arranged.dataAligned hasData)
      (fits.2 hasData) small
  refine ⟨naClRoundAllocPage_dvd arch _, ?_, rodata, data, ?_, ?_⟩
  · exact Nat.le_trans (Nat.le_add_right _ _) above
  · intro shared
    rw [alone] at shared
    cases shared
  · change _ ≤ Loader.breakAddr scan
    by_cases hasRodata : scan.rodataStart = 0
    · by_cases hasData : scan.dataStart = 0
      · exact arranged.sled hasRodata hasData
      · have below := data hasData
        have ordered := arranged.ordered.data hasData
        omega
    · have below := rodata hasRodata
      have ordered := arranged.ordered.rodata hasRodata
      omega

theorem Arranged.pageEnd
    (arranged : Arranged scan) :
    PadEnd (loadedApp useShm memStart scan)
      (naClRoundAllocPage arch.wordSize scan.staticTextEnd) := by
  have room := addrSpace_room arch
  have textSmall := arranged.textSmall
  have small : scan.staticTextEnd + naclHaltSledSize + naclMapPagesize ≤
      2 ^ arch.wordSize.bits := by
    simp only [naclMapPagesize, naclHaltSledSize] at room ⊢
    omega
  have above := (@naClRoundAllocPage_bounds arch scan.staticTextEnd
    (by omega)).1
  have data : scan.dataStart ≠ 0 →
      naClRoundAllocPage arch.wordSize scan.staticTextEnd ≤ scan.dataStart := by
    intro hasData
    by_cases hasRodata : scan.rodataStart = 0
    · exact arranged.textData hasRodata hasData
    · have below := arranged.textRodata hasRodata
      have ordered := arranged.ordered.rodata hasRodata
      have both := arranged.ordered.both hasRodata hasData
      omega
  refine ⟨naClRoundAllocPage_dvd arch _, above, arranged.textRodata, data,
    fun _ => Nat.le_refl _, ?_⟩
  change _ ≤ Loader.breakAddr scan
  by_cases hasRodata : scan.rodataStart = 0
  · by_cases hasData : scan.dataStart = 0
    · have sledEnd := arranged.sled hasRodata hasData
      have sledAbove := (naClRoundAllocPage_bounds small).1
      have below := @naClRoundAllocPage_le arch scan.staticTextEnd
        (naClRoundAllocPage arch.wordSize (scan.staticTextEnd + naclHaltSledSize))
        (naClRoundAllocPage_dvd arch _) (by omega) (by omega)
      omega
    · have below := data hasData
      have ordered := arranged.ordered.data hasData
      omega
  · have below := arranged.textRodata hasRodata
    have ordered := arranged.ordered.rodata hasRodata
    omega

theorem Arranged.sledSmall (arranged : Arranged scan) :
    arch.wordSize.wrap (scan.staticTextEnd + naclHaltSledSize) =
      scan.staticTextEnd + naclHaltSledSize := by
  have room := addrSpace_room arch
  have textSmall := arranged.textSmall
  apply WordSize.wrap_of_lt
  simp only [naclMapPagesize, naclHaltSledSize] at room ⊢
  omega

theorem pagePad_good
    (arranged : Arranged scan)
    (fits : SledFits (loadedApp useShm memStart scan)) :
    ∃ pad, pagePad (loadedApp useShm memStart scan) = .ok pad ∧
      PadEnd (loadedApp useShm memStart scan) (scan.staticTextEnd + pad) := by
  have room := addrSpace_room arch
  have textSmall := arranged.textSmall
  have breakHigh := arranged.ordered.breakHigh
  rw [pagePad]
  by_cases shared : (loadedApp useShm memStart scan).textShm = false
  · have sledEnd := arranged.sledEnd fits shared
    have small : scan.staticTextEnd + naclHaltSledSize + naclMapPagesize ≤
        2 ^ arch.wordSize.bits := by
      simp only [naclMapPagesize, naclHaltSledSize] at room ⊢
      omega
    have bounds := naClRoundAllocPage_bounds small
    have word : arch.wordSize.wrap
        ((loadedApp useShm memStart scan).staticTextEnd + naclHaltSledSize) =
          scan.staticTextEnd + naclHaltSledSize := arranged.sledSmall
    have below : naClRoundAllocPage arch.wordSize
        (scan.staticTextEnd + naclHaltSledSize) ≤ breakAddr scan :=
      sledEnd.breakAddr
    have difference : arch.wordSize.sub
        (naClRoundAllocPage arch.wordSize (scan.staticTextEnd + naclHaltSledSize))
        (loadedApp useShm memStart scan).staticTextEnd =
          naClRoundAllocPage arch.wordSize (scan.staticTextEnd + naclHaltSledSize) -
            scan.staticTextEnd :=
      WordSize.sub_of_le _ sledEnd.forward (by omega)
    dsimp only
    rw [if_pos shared, word, difference, if_neg (by omega), if_neg (by omega)]
    refine ⟨_, rfl, ?_⟩
    have forward : scan.staticTextEnd ≤ _ := sledEnd.forward
    rw [Nat.add_sub_cancel' forward]
    exact sledEnd
  · have pageEnd := @Arranged.pageEnd arch scan useShm memStart arranged
    have below : naClRoundAllocPage arch.wordSize scan.staticTextEnd ≤ breakAddr scan :=
      pageEnd.breakAddr
    have difference : arch.wordSize.sub
        (naClRoundAllocPage arch.wordSize (loadedApp useShm memStart scan).staticTextEnd)
        (loadedApp useShm memStart scan).staticTextEnd =
          naClRoundAllocPage arch.wordSize scan.staticTextEnd - scan.staticTextEnd :=
      WordSize.sub_of_le _ pageEnd.forward (by
        change naClRoundAllocPage arch.wordSize scan.staticTextEnd < _
        omega)
    dsimp only
    rw [if_neg shared, difference]
    refine ⟨_, rfl, ?_⟩
    have forward : scan.staticTextEnd ≤ _ := pageEnd.forward
    rw [Nat.add_sub_cancel' forward]
    exact pageEnd

theorem naClFillEndOfTextRegion_of_fits
    (arranged : Arranged scan)
    (fits : SledFits (loadedApp useShm memStart scan)) (memory : Buffer) :
    naClFillEndOfTextRegion (loadedApp useShm memStart scan) memory =
      (pagePad (loadedApp useShm memStart scan)).bind fun pad =>
        (naClFillMemoryRegionWithHalt arch
          (arch.wordSize.wrap (memStart + scan.staticTextEnd)) pad memory).bind
          fun memory => .ok ({ loadedApp useShm memStart scan with
            staticTextEnd := arch.wordSize.wrap (scan.staticTextEnd + pad) },
            memory) := by
  have sledEnd := arranged.sledSmall
  have data : ¬ (scan.dataStart ≠ 0 ∧ scan.dataStart <
      scan.staticTextEnd + naclHaltSledSize) :=
    fun gap => absurd (fits.2 gap.1) (Nat.not_le.mpr gap.2)
  have rodata : ¬ (scan.rodataStart ≠ 0 ∧ scan.rodataStart <
      scan.staticTextEnd + naclHaltSledSize) :=
    fun gap => absurd (fits.1 gap.1) (Nat.not_le.mpr gap.2)
  rw [← sledEnd] at data rodata
  rw [naClFillEndOfTextRegion]
  exact (if_neg data).trans (if_neg rodata)

theorem naClFillEndOfTextRegion_gap
    (arranged : Arranged scan)
    (short : ¬ SledFits (loadedApp useShm memStart scan)) (memory : Buffer) :
    naClFillEndOfTextRegion (loadedApp useShm memStart scan) memory =
        .error .textDataGap ∨
      naClFillEndOfTextRegion (loadedApp useShm memStart scan) memory =
        .error .textRodataGap := by
  have sledEnd := arranged.sledSmall
  rw [naClFillEndOfTextRegion]
  by_cases data : scan.dataStart ≠ 0 ∧ scan.dataStart <
      arch.wordSize.wrap (scan.staticTextEnd + naclHaltSledSize)
  · exact .inl (if_pos data)
  · refine .inr ((if_neg data).trans (if_pos ?_))
    change scan.rodataStart ≠ 0 ∧ scan.rodataStart <
      arch.wordSize.wrap (scan.staticTextEnd + naclHaltSledSize)
    by_contra rodata
    rw [sledEnd] at data rodata
    refine short ⟨fun hasRodata => ?_, fun hasData => ?_⟩
    · exact Nat.le_of_not_lt (fun below => rodata ⟨hasRodata, below⟩)
    · exact Nat.le_of_not_lt (fun below => data ⟨hasData, below⟩)

theorem naclHaltLen_dvd_pad
    {textEnd pad : Nat} (aligned : naclMapPagesize ∣ textEnd + pad) :
    naclHaltLen arch ∣ pad ↔ naclHaltLen arch ∣ textEnd := by
  have dvd := (naclHaltLen_dvd arch).trans aligned
  constructor
  · exact fun padDvd => (Nat.dvd_add_iff_left padDvd).mpr dvd
  · exact fun textDvd => (Nat.dvd_add_iff_right textDvd).mpr dvd

theorem naClFillEndOfTextRegion_pads
    (arranged : Arranged scan) (place : SandboxAt arch memStart)
    (fits : SledFits (loadedApp useShm memStart scan))
    (whole : HaltAligned (loadedApp useShm memStart scan)) (memory : Buffer) :
    ∃ next after,
      naClFillEndOfTextRegion (loadedApp useShm memStart scan) memory =
        .ok (next, after) ∧
      Padded (loadedApp useShm memStart scan) next memory after := by
  have textSmall := arranged.textSmall
  have inside := place.inside
  have start : arch.wordSize.wrap (memStart + scan.staticTextEnd) =
      memStart + scan.staticTextEnd := WordSize.wrap_of_lt (by omega)
  obtain ⟨pad, counted, good⟩ := pagePad_good arranged fits
  have breakHigh := arranged.ordered.breakHigh
  have below : scan.staticTextEnd + pad ≤ breakAddr scan := good.breakAddr
  have next : arch.wordSize.wrap (scan.staticTextEnd + pad) =
      scan.staticTextEnd + pad := WordSize.wrap_of_lt (by omega)
  have startDvd : naclHaltLen arch ∣ memStart + scan.staticTextEnd := by
    by_cases isArm : arch = .arm
    · rw [place.zeroBased isArm, Nat.zero_add]
      exact whole
    · rw [naclHaltLen_x86 isArm]
      exact Nat.one_dvd _
  obtain ⟨after, filled, halts, frame⟩ := naClFillMemoryRegionWithHalt_fills
    startDvd ((naclHaltLen_dvd_pad good.aligned).mpr whole) (by omega) memory
  rw [naClFillEndOfTextRegion_of_fits arranged fits, counted, Except.bind,
    start, filled, Except.bind, next]
  refine ⟨_, _, rfl, rfl, good.aligned, good.forward, ?_, ?_, good.rodata,
    good.data, good.dynamicText, good.breakAddr⟩
  · intro address above ended
    have byte := halts (memStart + address) (by
      exact Nat.add_le_add_left above _) (by
      change address < scan.staticTextEnd + pad at ended
      omega)
    rw [← haltByte_shift place]
    exact byte
  · intro address outside
    apply frame
    change address < memStart + scan.staticTextEnd ∨
      memStart + (scan.staticTextEnd + pad) ≤ address at outside
    omega

theorem naClFillEndOfTextRegion_ragged
    (arranged : Arranged scan)
    (fits : SledFits (loadedApp useShm memStart scan))
    (ragged : ¬ HaltAligned (loadedApp useShm memStart scan))
    (memory : Buffer) :
    naClFillEndOfTextRegion (loadedApp useShm memStart scan) memory =
      .error .haltSize := by
  obtain ⟨pad, counted, good⟩ := pagePad_good arranged fits
  have remains : pad % naclHaltLen arch ≠ 0 := fun whole =>
    ragged ((naclHaltLen_dvd_pad good.aligned).mp (Nat.dvd_of_mod_eq_zero whole))
  rw [naClFillEndOfTextRegion_of_fits arranged fits, counted, Except.bind]
  unfold naClFillMemoryRegionWithHalt
  rw [if_pos remains]
  rfl

/-- For every layout that the checks accept, the text is padded where there is
room for the halts and they can be put behind the text. -/
theorem naClFillEndOfTextRegion_exact
    {world : LoadWorld} {image : ElfImage arch}
    (run : naClAppLoadFileChecks world image = .ok scan) (useShm : Bool)
    {memStart : Nat} (place : SandboxAt arch memStart) (memory : Buffer) :
    PadsText (loadedApp useShm memStart scan) memory := by
  have arranged := naClAppLoadFileChecks_arranged run
  constructor
  case pads =>
    intro fits whole
    exact naClFillEndOfTextRegion_pads arranged place fits whole memory
  case gap =>
    intro short
    exact naClFillEndOfTextRegion_gap arranged short memory
  case ragged =>
    intro fits ragged
    exact naClFillEndOfTextRegion_ragged arranged fits ragged memory

end Padding

/-! ## A text that ends with its page -/

section Samples

private theorem textStart_lt : 0x20000 < 2 ^ ElfArch.x86_32.wordSize.bits := by
  decide

private def textOf (filesz : Nat) (inside : filesz < 2 ^ 30) : Phdr .x86_32 where
  type := ptLoad
  flags := pfR ||| pfX
  vaddr := 0x20000
  filesz := filesz
  memsz := filesz
  vaddr_lt := textStart_lt
  filesz_lt := Nat.lt_trans inside (by decide)
  memsz_lt := Nat.lt_trans inside (by decide)

private def rodataBehind : Phdr .x86_32 where
  type := ptLoad
  flags := pfR
  vaddr := 0x30000
  filesz := 0x1000
  memsz := 0x1000
  vaddr_lt := by decide
  filesz_lt := page_lt
  memsz_lt := page_lt

private theorem roomy_lt : 0x1000 < 2 ^ 30 := by decide
private theorem tight_lt : 0xfff0 < 2 ^ 30 := by decide

private def scanOfTexts (textEnd : Nat) (text : Phdr .x86_32) :
    PhdrScan .x86_32 where
  seen := Function.update (Function.update (fun _ => false) 1 true) 2 true
  loadable := [text, rodataBehind]
  maxVaddr := 0x31000
  staticTextEnd := textEnd
  rodataStart := 0x30000
  rodataEnd := 0x31000
  dataStart := 0
  dataEnd := 0

private theorem roomyText_checks :
    naClAppLoadFileChecks willingWorld
        ⟨validEhdr .x86_32, [textOf 0x1000 roomy_lt, rodataBehind]⟩ =
      .ok (scanOfTexts 0x21000 (textOf 0x1000 roomy_lt)) := by
  rfl

private theorem tightText_checks :
    naClAppLoadFileChecks willingWorld
        ⟨validEhdr .x86_32, [textOf 0xfff0 tight_lt, rodataBehind]⟩ =
      .ok (scanOfTexts 0x2fff0 (textOf 0xfff0 tight_lt)) := by
  rfl

private theorem sandbox_high : SandboxAt .x86_32 0x10000000 :=
  ⟨by decide, nofun⟩

/-- The text ends far below the read-only data. -/
theorem naClFillEndOfTextRegion_exact_roomy :
    PadsText (loadedApp true 0x10000000
      (scanOfTexts 0x21000 (textOf 0x1000 roomy_lt))) (fun _ => 0) :=
  naClFillEndOfTextRegion_exact roomyText_checks true sandbox_high _

/-- The read-only data starts less than the length of the halts behind the
text. -/
theorem not_padded_tightText :
    ¬ ∀ (world : LoadWorld) (image : ElfImage .x86_32)
      (scan : PhdrScan .x86_32),
        naClAppLoadFileChecks world image = .ok scan →
          ∀ (useShm : Bool) (memStart : Nat), SandboxAt .x86_32 memStart →
            ∀ memory, ∃ next after,
              naClFillEndOfTextRegion (loadedApp useShm memStart scan) memory =
                .ok (next, after) := by
  intro pads
  obtain ⟨next, after, padded⟩ := pads _ _ _ tightText_checks true 0x10000000
    sandbox_high (fun _ => 0)
  have short : ¬ SledFits (loadedApp true 0x10000000
      (scanOfTexts 0x2fff0 (textOf 0xfff0 tight_lt))) := by
    intro fits
    exact absurd (fits.1 (by decide)) (by decide)
  have gap := naClFillEndOfTextRegion_gap
    (naClAppLoadFileChecks_arranged tightText_checks) short (fun _ => 0)
  rw [padded] at gap
  rcases gap with stopped | stopped
  · cases stopped
  · cases stopped

end Samples

end NativeClient.Loader
