import NativeClient.Loader.ElfScan
import Mathlib.Data.List.Pairwise

/-!
# The layout of a loaded image

When the checks of the loader pass, the segments that it writes are disjoint
and inside the regions of the text, the read-only data and the data, which
stand in this order in the address space.  The exception is a header that
marks the stack: it is loaded like a segment, wherever it says.
-/

namespace NativeClient.Loader

open NativeClient.Runtime

/-! ## The layout -/

section Layout

variable {arch : ElfArch} {scan : PhdrScan arch}

def regions (scan : PhdrScan arch) : List MemRange :=
  [⟨naclTrampolineEnd, scan.staticTextEnd⟩] ++
    (if scan.rodataStart ≠ 0 then [⟨scan.rodataStart, scan.rodataEnd⟩] else []) ++
    (if scan.dataStart ≠ 0 then [⟨scan.dataStart, scan.dataEnd⟩] else [])

def boundaries (scan : PhdrScan arch) : List Nat :=
  (regions scan).flatMap (fun region => [region.start, region.stop]) ++
    [breakAddr scan]

def MemRange.Has (range : MemRange) (address : Nat) : Prop :=
  range.start ≤ address ∧ address < range.stop

def MemRange.Inside (range region : MemRange) : Prop :=
  region.start ≤ range.start ∧ range.stop ≤ region.stop

structure LayoutSafe (scan : PhdrScan arch) (writes : List MemRange) :
    Prop where
  disjoint : writes.Pairwise
    (fun left right => ∀ address, ¬ (left.Has address ∧ right.Has address))
  region : ∀ write ∈ writes, write.start < write.stop →
    ∃! region, region ∈ regions scan ∧ write.Inside region
  bounds : ∀ write ∈ writes, ∀ address, write.Has address →
    naclTrampolineEnd ≤ address ∧ address < 2 ^ arch.addrBits
  order : (boundaries scan).Pairwise (· ≤ ·)
  breakHigh : breakAddr scan < 2 ^ arch.addrBits

structure Ordered (scan : PhdrScan arch) : Prop where
  text : naclTrampolineEnd ≤ scan.staticTextEnd
  rodata : scan.rodataStart ≠ 0 → scan.staticTextEnd ≤ scan.rodataStart ∧
    scan.rodataStart ≤ scan.rodataEnd ∧ scan.rodataEnd ≤ breakAddr scan
  data : scan.dataStart ≠ 0 → scan.staticTextEnd ≤ scan.dataStart ∧
    scan.dataStart ≤ scan.dataEnd ∧ scan.dataEnd = breakAddr scan
  both : scan.rodataStart ≠ 0 → scan.dataStart ≠ 0 →
    scan.rodataEnd ≤ scan.dataStart
  textBreak : scan.staticTextEnd ≤ breakAddr scan
  breakHigh : breakAddr scan < 2 ^ arch.addrBits

theorem addrSpace_room (arch : ElfArch) :
    2 ^ arch.addrBits + 4 * naclMapPagesize ≤ 2 ^ arch.wordSize.bits := by
  cases arch <;> decide

theorem naClRoundAllocPage_bounds
    {nbytes : Nat}
    (small : nbytes + naclMapPagesize ≤ 2 ^ arch.wordSize.bits) :
    nbytes ≤ naClRoundAllocPage arch.wordSize nbytes ∧
      naClRoundAllocPage arch.wordSize nbytes < nbytes + naclMapPagesize := by
  have fits : arch.wordSize.wrap (nbytes + naclMapPagesize - 1) =
      nbytes + naclMapPagesize - 1 := by
    apply Nat.mod_eq_of_lt
    simp only [naclMapPagesize] at small ⊢
    omega
  rw [naClRoundAllocPage, fits]
  simp only [naclMapPagesize]
  omega

theorem breakAddr_bounds (maxHigh : scan.maxVaddr < 2 ^ arch.addrBits) :
    scan.maxVaddr ≤ breakAddr scan ∧
      breakAddr scan < scan.maxVaddr + 2 * naclMapPagesize := by
  have room := addrSpace_room arch
  have fits : arch.wordSize.wrap (scan.maxVaddr + naclMapPagesize) =
      scan.maxVaddr + naclMapPagesize := by
    apply Nat.mod_eq_of_lt
    simp only [naclMapPagesize] at room ⊢
    omega
  rw [breakAddr]
  by_cases noData : scan.dataStart = 0
  · rw [if_pos noData, fits]
    dsimp only
    split
    · have rounded := @naClRoundAllocPage_bounds arch
        (scan.maxVaddr + naclMapPagesize) (by omega)
      omega
    · have rounded := @naClRoundAllocPage_bounds arch scan.maxVaddr (by omega)
      omega
  · rw [if_neg noData]
    simp only [naclMapPagesize]
    omega

theorem naClAllocAddrSpace_break
    {world : LoadWorld} {dataEnd : Nat}
    (small : dataEnd + naclMapPagesize ≤ 2 ^ arch.wordSize.bits)
    (run : naClAllocAddrSpace world arch dataEnd = .ok ()) :
    dataEnd < 2 ^ arch.addrBits := by
  simp only [naClAllocAddrSpace, except_bind_ok_iff, require_ok_iff] at run
  obtain ⟨_, _, _, _, _, below, _⟩ := run
  have rounded := (naClRoundAllocPage_bounds small).1
  have stack : naClTruncAllocPage (2 ^ arch.addrBits -
      naClRoundAllocPage arch.wordSize naclDefaultStackMax) < 2 ^ arch.addrBits := by
    cases arch <;> decide
  omega

/-- What the checks of `NaClAppLoadFile` establish. -/
structure Checked (image : ElfImage arch) (scan : PhdrScan arch) : Prop where
  invariant : ScanInvariant image.phdrs scan
  text : ∃ php ∈ scan.loadable, php.Takes .textCheck
  ordered : Ordered scan

theorem naClElfImageValidateProgramHeaders_spec
    {image : ElfImage arch}
    (run : naClElfImageValidateProgramHeaders image = .ok scan) :
    ScanInvariant image.phdrs scan ∧
      ∃ php ∈ scan.loadable, php.Takes .textCheck := by
  simp only [naClElfImageValidateProgramHeaders, except_bind_ok_iff,
    require_ok_iff] at run
  obtain ⟨found, scanned, _, required, done⟩ := run
  cases done
  have invariant := (ScanInvariant.start arch).run scanned
  rw [List.nil_append] at invariant
  obtain ⟨row, member, isRequired, isText⟩ := row_required arch
  exact ⟨invariant, invariant.seenText row member isText
    (required row member isRequired)⟩

theorem ScanInvariant.ordered
    {headers : List (Phdr arch)} (invariant : ScanInvariant headers scan)
    (text : ∃ php ∈ scan.loadable, php.Takes .textCheck)
    (order : checkOrder scan = .ok ())
    (breakHigh : breakAddr scan < 2 ^ arch.addrBits) : Ordered scan := by
  have room := addrSpace_room arch
  have breakLow := (breakAddr_bounds invariant.maxHigh).1
  obtain ⟨text, textMember, takesText⟩ := text
  have textPlaced := invariant.placed text textMember
  have textEnd := invariant.text text textMember takesText
  have textStart := textPlaced.text takesText
  have textFile := textPlaced.file
  have textMax := invariant.segmentEnd text textMember
  have textHigh := textPlaced.high
  have rounded := (@naClRoundAllocPage_bounds arch scan.staticTextEnd
    (by omega)).1
  simp only [checkOrder, require_bind_ok_iff, require_ok_iff] at order
  obtain ⟨dataLast, _, rodataData, textRodata, textData, _, _⟩ := order
  constructor
  case text => omega
  case rodata =>
    intro hasRodata
    obtain ⟨php, member, takes⟩ := invariant.noRodata hasRodata
    obtain ⟨start, stop⟩ := invariant.rodata php member takes
    have segmentEnd := invariant.segmentEnd php member
    have above := textRodata hasRodata
    omega
  case data =>
    intro hasData
    obtain ⟨php, member, takes⟩ := invariant.noData hasData
    obtain ⟨start, stop⟩ := invariant.data php member takes
    have last := dataLast hasData
    by_cases hasRodata : scan.rodataStart = 0
    · have above := textData hasRodata hasData
      omega
    · obtain ⟨rodata, rodataMember, rodataTakes⟩ :=
        invariant.noRodata hasRodata
      obtain ⟨rodataStart, rodataStop⟩ :=
        invariant.rodata rodata rodataMember rodataTakes
      have above := textRodata hasRodata
      have between := rodataData hasRodata hasData
      omega
  case both => exact rodataData
  case textBreak => omega
  case breakHigh => exact breakHigh

theorem naClAppLoadFileChecks_spec
    {world : LoadWorld} {image : ElfImage arch}
    (run : naClAppLoadFileChecks world image = .ok scan) :
    Checked image scan := by
  simp only [naClAppLoadFileChecks, except_bind_ok_iff] at run
  obtain ⟨_, _, _, _, _, _, found, validated, run⟩ := run
  cases bundle : naClElfImageGetBundleSize image with
  | none =>
      rw [bundle] at run
      cases run
  | some bundleSize =>
      rw [bundle] at run
      simp only [except_bind_ok_iff, require_ok_iff] at run
      obtain ⟨_, _, _, order, _, allocated, _, _, done⟩ := run
      cases done
      obtain ⟨invariant, text⟩ :=
        naClElfImageValidateProgramHeaders_spec validated
      have room := addrSpace_room arch
      have maxHigh := invariant.maxHigh
      have breakNear := (breakAddr_bounds maxHigh).2
      have breakHigh := naClAllocAddrSpace_break (by omega) allocated
      exact ⟨invariant, text, invariant.ordered text order breakHigh⟩

theorem Ordered.boundaries
    (ordered : Ordered scan) : (boundaries scan).Pairwise (· ≤ ·) := by
  have text := ordered.text
  have textBreak := ordered.textBreak
  simp only [Loader.boundaries, regions]
  by_cases hasRodata : scan.rodataStart = 0
  · by_cases hasData : scan.dataStart = 0
    · simp [hasRodata, hasData]
      omega
    · have data := ordered.data hasData
      simp [hasRodata, hasData]
      omega
  · have rodata := ordered.rodata hasRodata
    by_cases hasData : scan.dataStart = 0
    · simp [hasRodata, hasData]
      omega
    · have data := ordered.data hasData
      have both := ordered.both hasRodata hasData
      simp [hasRodata, hasData]
      omega

end Layout

/-! ## The writes of the segments -/

section Writes

variable {arch : ElfArch} {scan : PhdrScan arch} {image : ElfImage arch}
  {php left right : Phdr arch}

def Phdr.fileRange (php : Phdr arch) : MemRange :=
  ⟨php.vaddr, php.vaddr + php.filesz⟩

theorem naClElfImageLoad_initial (gio : Gio arch) (headers : List (Phdr arch)) :
    (naClElfImageLoad gio headers).writes <+: headers.map Phdr.fileRange := by
  induction headers with
  | nil => exact List.nil_prefix
  | cons php rest ih =>
      rw [naClElfImageLoad, List.map_cons]
      split
      · exact List.nil_prefix
      · split
        · exact List.nil_prefix
        · split
          · exact ⟨rest.map Phdr.fileRange, rfl⟩
          · exact List.prefix_cons_inj _ |>.mpr ih

theorem Placed.load_checks
    (placed : Placed php) :
    ¬ (arch.wordSize.wrap (php.vaddr + php.filesz) < php.vaddr ∨
      2 ^ arch.addrBits ≤ arch.wordSize.wrap (php.vaddr + php.filesz)) := by
  have small := addrSpace_lt arch
  have high := placed.high
  have file := placed.file
  have fits : arch.wordSize.wrap (php.vaddr + php.filesz) =
      php.vaddr + php.filesz := Nat.mod_eq_of_lt (by omega)
  rw [fits]
  omega

theorem naClElfImageLoad_all
    {gio : Gio arch} (seeks : ∀ php, gio.seek php = true)
    (reads : ∀ php, gio.read php = true) {headers : List (Phdr arch)}
    (placed : ∀ php ∈ headers, Placed php) :
    (naClElfImageLoad gio headers).writes = headers.map Phdr.fileRange := by
  induction headers with
  | nil => rfl
  | cons php rest ih =>
      have first := (placed php List.mem_cons_self).load_checks
      have later := ih (fun php member =>
        placed php (List.mem_cons_of_mem _ member))
      rw [naClElfImageLoad]
      dsimp only
      rw [if_neg first, if_neg (by simp [seeks]), if_neg (by simp [reads]),
        List.map_cons, later]
      rfl

/-- A header that marks the stack writes nothing, or writes into the part of
the read-only data or of the data that is not in the file. -/
def StackHarmless (headers : List (Phdr arch)) : Prop :=
  ∀ php ∈ headers, php.type = ptGnuStack → php.flags = pfR ||| pfW →
    php.memsz ≠ 0 → php.filesz ≠ 0 →
      ∃ other ∈ headers, other.type = ptLoad ∧
        (other.flags = pfR ∨ other.flags = pfR ||| pfW) ∧ other.memsz ≠ 0 ∧
        other.vaddr + other.filesz ≤ php.vaddr ∧
        php.vaddr + php.filesz ≤ other.vaddr + other.memsz

theorem takes_iff
    {action : PhdrCheckAction} {type flags : Nat}
    (rows : ∀ row ∈ (naclPhdrCheckData arch).zipIdx,
      row.1.action = action ↔ row.1.type = type ∧ row.1.flags = flags)
    (hasRow : ∃ row ∈ (naclPhdrCheckData arch).zipIdx, row.1.action = action) :
    php.Takes action ↔ php.type = type ∧ php.flags = flags := by
  constructor
  · rintro ⟨row, matched, isAction⟩
    obtain ⟨member, sameType, sameFlags⟩ := matchedCheck_spec matched
    rw [sameType, sameFlags]
    exact (rows row member).mp isAction
  · rintro ⟨isType, isFlags⟩
    obtain ⟨row, member, isAction⟩ := hasRow
    obtain ⟨rowType, rowFlags⟩ := (rows row member).mp isAction
    have found : (matchedCheck php).isSome := by
      rw [matchedCheck, List.find?_isSome]
      refine ⟨row, member, ?_⟩
      simp [isType, isFlags, rowType, rowFlags]
    obtain ⟨foundRow, matched⟩ := Option.isSome_iff_exists.mp found
    obtain ⟨foundMember, sameType, sameFlags⟩ := matchedCheck_spec matched
    refine ⟨foundRow, matched, (rows foundRow foundMember).mpr ?_⟩
    rw [← sameType, ← sameFlags]
    exact ⟨isType, isFlags⟩

theorem takes_none_iff :
    php.Takes .none ↔ php.type = ptGnuStack ∧ php.flags = pfR ||| pfW := by
  apply takes_iff
  · cases arch <;> decide
  · cases arch <;> decide

theorem takes_rodata_iff :
    php.Takes .rodata ↔ php.type = ptLoad ∧ php.flags = pfR := by
  apply takes_iff
  · cases arch <;> decide
  · cases arch <;> decide

theorem takes_data_iff :
    php.Takes .data ↔ php.type = ptLoad ∧ php.flags = pfR ||| pfW := by
  apply takes_iff
  · cases arch <;> decide
  · cases arch <;> decide

def Separate (left right : Phdr arch) : Prop :=
  ∀ address, ¬ (left.fileRange.Has address ∧ right.fileRange.Has address)

theorem Separate.symm (separate : Separate left right) :
    Separate right left :=
  fun address both => separate address ⟨both.2, both.1⟩

theorem Separate.of_le
    (below : left.vaddr + left.filesz ≤ right.vaddr) :
    Separate left right := by
  rintro address ⟨⟨_, inLeft⟩, ⟨inRight, _⟩⟩
  exact Nat.lt_irrefl address
    (Nat.lt_of_lt_of_le inLeft (Nat.le_trans below inRight))

theorem Separate.of_empty
    (empty : left.filesz = 0) :
    Separate left right := by
  rintro address ⟨⟨above, below⟩, _⟩
  simp only [Phdr.fileRange] at above below
  omega

namespace ScanInvariant

variable {headers : List (Phdr arch)} (invariant : ScanInvariant headers scan)

include invariant

theorem unique
    {left right : Phdr arch} {action : PhdrCheckAction}
    (leftMember : left ∈ scan.loadable) (rightMember : right ∈ scan.loadable)
    (leftTakes : left.Takes action) (rightTakes : right.Takes action) :
    left = right := by
  by_contra differ
  have symmetric : Std.Symm (fun left right : Phdr arch =>
      ∀ action, left.Takes action → ¬ right.Takes action) :=
    ⟨fun _ _ apart action takesRight takesLeft =>
      apart action takesLeft takesRight⟩
  exact invariant.apart.forall leftMember rightMember differ action leftTakes
    rightTakes

theorem takes_cases
    {php : Phdr arch} (member : php ∈ scan.loadable) :
    php.Takes .textCheck ∨ php.Takes .rodata ∨ php.Takes .data ∨
      php.Takes .none := by
  obtain ⟨_, _, action, loads, takes⟩ := (invariant.loaded php).mp member
  cases action with
  | none => exact Or.inr (Or.inr (Or.inr takes))
  | textCheck => exact Or.inl takes
  | rodata => exact Or.inr (Or.inl takes)
  | data => exact Or.inr (Or.inr (Or.inl takes))
  | ignore => exact absurd rfl loads

theorem start_ne_zero
    {php : Phdr arch} (member : php ∈ scan.loadable) : php.vaddr ≠ 0 := by
  have low := (invariant.placed php member).low
  simp only [naclTrampolineEnd] at low
  omega

theorem has_rodata
    {php : Phdr arch} (member : php ∈ scan.loadable)
    (takes : php.Takes .rodata) : scan.rodataStart ≠ 0 := by
  rw [(invariant.rodata php member takes).1]
  exact invariant.start_ne_zero member

theorem has_data
    {php : Phdr arch} (member : php ∈ scan.loadable)
    (takes : php.Takes .data) : scan.dataStart ≠ 0 := by
  rw [(invariant.data php member takes).1]
  exact invariant.start_ne_zero member

theorem text_range
    {php : Phdr arch} (member : php ∈ scan.loadable)
    (takes : php.Takes .textCheck) :
    php.vaddr = naclTrampolineEnd ∧
      php.vaddr + php.filesz = scan.staticTextEnd := by
  have start := (invariant.placed php member).text takes
  rw [invariant.text php member takes, start]
  exact ⟨rfl, rfl⟩

end ScanInvariant

namespace Checked

variable (checked : Checked image scan)

include checked

theorem text_below
    {text php : Phdr arch} (textMember : text ∈ scan.loadable)
    (textTakes : text.Takes .textCheck) (member : php ∈ scan.loadable)
    (takes : php.Takes .rodata ∨ php.Takes .data) :
    text.vaddr + text.filesz ≤ php.vaddr := by
  have invariant := checked.invariant
  rw [(invariant.text_range textMember textTakes).2]
  rcases takes with takes | takes
  · rw [← (invariant.rodata php member takes).1]
    exact (checked.ordered.rodata (invariant.has_rodata member takes)).1
  · rw [← (invariant.data php member takes).1]
    exact (checked.ordered.data (invariant.has_data member takes)).1

theorem rodata_below
    {rodata data : Phdr arch} (rodataMember : rodata ∈ scan.loadable)
    (rodataTakes : rodata.Takes .rodata) (dataMember : data ∈ scan.loadable)
    (dataTakes : data.Takes .data) :
    rodata.vaddr + rodata.memsz ≤ data.vaddr := by
  have invariant := checked.invariant
  rw [← (invariant.rodata rodata rodataMember rodataTakes).2,
    ← (invariant.data data dataMember dataTakes).1]
  exact checked.ordered.both (invariant.has_rodata rodataMember rodataTakes)
    (invariant.has_data dataMember dataTakes)

theorem stack_home
    (harmless : StackHarmless image.phdrs) {stack : Phdr arch}
    (member : stack ∈ scan.loadable) (takes : stack.Takes .none)
    (nonempty : stack.filesz ≠ 0) :
    ∃ home ∈ scan.loadable, (home.Takes .rodata ∨ home.Takes .data) ∧
      home.vaddr + home.filesz ≤ stack.vaddr ∧
      stack.vaddr + stack.filesz ≤ home.vaddr + home.memsz := by
  have invariant := checked.invariant
  obtain ⟨inHeaders, memsz, _⟩ := (invariant.loaded stack).mp member
  obtain ⟨isType, isFlags⟩ := takes_none_iff.mp takes
  obtain ⟨home, homeMember, homeType, homeFlags, homeMemsz, place⟩ :=
    harmless stack inHeaders isType isFlags memsz nonempty
  rcases homeFlags with homeFlags | homeFlags
  · have homeTakes := takes_rodata_iff.mpr ⟨homeType, homeFlags⟩
    exact ⟨home, (invariant.loaded home).mpr
      ⟨homeMember, homeMemsz, .rodata, by decide, homeTakes⟩,
      Or.inl homeTakes, place⟩
  · have homeTakes := takes_data_iff.mpr ⟨homeType, homeFlags⟩
    exact ⟨home, (invariant.loaded home).mpr
      ⟨homeMember, homeMemsz, .data, by decide, homeTakes⟩,
      Or.inr homeTakes, place⟩

theorem stack_separate
    (harmless : StackHarmless image.phdrs) {stack php : Phdr arch}
    (stackMember : stack ∈ scan.loadable) (stackTakes : stack.Takes .none)
    (member : php ∈ scan.loadable)
    (takes : php.Takes .textCheck ∨ php.Takes .rodata ∨ php.Takes .data) :
    Separate php stack := by
  have invariant := checked.invariant
  by_cases empty : stack.filesz = 0
  · exact (Separate.of_empty empty).symm
  obtain ⟨home, homeMember, homeTakes, above, below⟩ :=
    checked.stack_home harmless stackMember stackTakes empty
  rcases takes with takes | takes | takes
  · have textBelow := checked.text_below member takes homeMember homeTakes
    exact Separate.of_le (by omega)
  · rcases homeTakes with homeTakes | homeTakes
    · have same := invariant.unique member homeMember takes homeTakes
      rw [same]
      exact Separate.of_le above
    · have below := checked.rodata_below member takes homeMember homeTakes
      have file := (invariant.placed php member).file
      exact Separate.of_le (by omega)
  · rcases homeTakes with homeTakes | homeTakes
    · have before := checked.rodata_below homeMember homeTakes member takes
      exact (Separate.of_le (by omega)).symm
    · have same := invariant.unique member homeMember takes homeTakes
      rw [same]
      exact Separate.of_le above

theorem separate
    (harmless : StackHarmless image.phdrs) {left right : Phdr arch}
    (leftMember : left ∈ scan.loadable) (rightMember : right ∈ scan.loadable)
    (apart : ∀ action, left.Takes action → ¬ right.Takes action) :
    Separate left right := by
  have invariant := checked.invariant
  have rodataData : ∀ {rodata data : Phdr arch}, rodata ∈ scan.loadable →
      data ∈ scan.loadable → rodata.Takes .rodata → data.Takes .data →
        Separate rodata data := by
    intro rodata data rodataMember dataMember rodataTakes dataTakes
    have below := checked.rodata_below rodataMember rodataTakes dataMember
      dataTakes
    have file := (invariant.placed rodata rodataMember).file
    exact Separate.of_le (by omega)
  rcases invariant.takes_cases leftMember with text | rodata | data | stack
  · rcases invariant.takes_cases rightMember with
      text' | rodata' | data' | stack'
    · exact absurd text' (apart _ text)
    · exact Separate.of_le
        (checked.text_below leftMember text rightMember (Or.inl rodata'))
    · exact Separate.of_le
        (checked.text_below leftMember text rightMember (Or.inr data'))
    · exact checked.stack_separate harmless rightMember stack' leftMember
        (Or.inl text)
  · rcases invariant.takes_cases rightMember with
      text' | rodata' | data' | stack'
    · exact (Separate.of_le
        (checked.text_below rightMember text' leftMember (Or.inl rodata))).symm
    · exact absurd rodata' (apart _ rodata)
    · exact rodataData leftMember rightMember rodata data'
    · exact checked.stack_separate harmless rightMember stack' leftMember
        (Or.inr (Or.inl rodata))
  · rcases invariant.takes_cases rightMember with
      text' | rodata' | data' | stack'
    · exact (Separate.of_le
        (checked.text_below rightMember text' leftMember (Or.inr data))).symm
    · exact (rodataData rightMember leftMember rodata' data).symm
    · exact absurd data' (apart _ data)
    · exact checked.stack_separate harmless rightMember stack' leftMember
        (Or.inr (Or.inr data))
  · rcases invariant.takes_cases rightMember with
      text' | rodata' | data' | stack'
    · exact (checked.stack_separate harmless leftMember stack rightMember
        (Or.inl text')).symm
    · exact (checked.stack_separate harmless leftMember stack rightMember
        (Or.inr (Or.inl rodata'))).symm
    · exact (checked.stack_separate harmless leftMember stack rightMember
        (Or.inr (Or.inr data'))).symm
    · exact absurd stack' (apart _ stack)

end Checked

theorem mem_regions {region : MemRange} :
    region ∈ regions scan ↔
      region = ⟨naclTrampolineEnd, scan.staticTextEnd⟩ ∨
      scan.rodataStart ≠ 0 ∧ region = ⟨scan.rodataStart, scan.rodataEnd⟩ ∨
      scan.dataStart ≠ 0 ∧ region = ⟨scan.dataStart, scan.dataEnd⟩ := by
  rw [regions, List.mem_append, List.mem_append, List.mem_singleton, or_assoc]
  split <;> split <;> simp [*]

theorem Ordered.region_unique
    (ordered : Ordered scan) {write left right : MemRange}
    (nonempty : write.start < write.stop) (leftMember : left ∈ regions scan)
    (rightMember : right ∈ regions scan) (inLeft : write.Inside left)
    (inRight : write.Inside right) : left = right := by
  have rodata := ordered.rodata
  have data := ordered.data
  have both := ordered.both
  rw [mem_regions] at leftMember rightMember
  simp only [MemRange.Inside] at inLeft inRight
  rcases leftMember with rfl | ⟨hasLeft, rfl⟩ | ⟨hasLeft, rfl⟩ <;>
    rcases rightMember with rfl | ⟨hasRight, rfl⟩ | ⟨hasRight, rfl⟩
  all_goals first | rfl | (exfalso; simp only at inLeft inRight; omega)

namespace Checked

variable (checked : Checked image scan)

include checked

theorem region_of
    (harmless : StackHarmless image.phdrs) {php : Phdr arch}
    (member : php ∈ scan.loadable) (nonempty : php.filesz ≠ 0) :
    ∃ region ∈ regions scan, php.fileRange.Inside region := by
  have invariant := checked.invariant
  have dataRegion : ∀ {home : Phdr arch}, home ∈ scan.loadable →
      home.Takes .rodata ∨ home.Takes .data →
        ∃ region ∈ regions scan,
          region = ⟨home.vaddr, home.vaddr + home.memsz⟩ := by
    intro home homeMember takes
    rcases takes with takes | takes
    · obtain ⟨start, stop⟩ := invariant.rodata home homeMember takes
      refine ⟨_, mem_regions.mpr (Or.inr (Or.inl
        ⟨invariant.has_rodata homeMember takes, rfl⟩)), ?_⟩
      rw [start, stop]
    · obtain ⟨start, stop⟩ := invariant.data home homeMember takes
      refine ⟨_, mem_regions.mpr (Or.inr (Or.inr
        ⟨invariant.has_data homeMember takes, rfl⟩)), ?_⟩
      rw [start, stop]
  rcases invariant.takes_cases member with text | rodata | data | stack
  · obtain ⟨start, stop⟩ := invariant.text_range member text
    refine ⟨_, mem_regions.mpr (Or.inl rfl), ?_, ?_⟩
    · exact Nat.le_of_eq start.symm
    · exact Nat.le_of_eq stop
  · obtain ⟨region, regionMember, rfl⟩ := dataRegion member (Or.inl rodata)
    refine ⟨_, regionMember, Nat.le_refl _, ?_⟩
    exact Nat.add_le_add_left (invariant.placed php member).file _
  · obtain ⟨region, regionMember, rfl⟩ := dataRegion member (Or.inr data)
    refine ⟨_, regionMember, Nat.le_refl _, ?_⟩
    exact Nat.add_le_add_left (invariant.placed php member).file _
  · obtain ⟨home, homeMember, takes, above, below⟩ :=
      checked.stack_home harmless member stack nonempty
    obtain ⟨region, regionMember, rfl⟩ := dataRegion homeMember takes
    refine ⟨_, regionMember, ?_, below⟩
    exact Nat.le_trans (Nat.le_add_right _ _) above

theorem safe_all (harmless : StackHarmless image.phdrs) :
    LayoutSafe scan (scan.loadable.map Phdr.fileRange) := by
  have invariant := checked.invariant
  constructor
  case disjoint =>
    rw [List.pairwise_map]
    refine invariant.apart.imp_of_mem ?_
    intro left right leftMember rightMember apart
    exact checked.separate harmless leftMember rightMember apart
  case region =>
    intro write member nonempty
    obtain ⟨php, phpMember, rfl⟩ := List.mem_map.mp member
    have written : php.filesz ≠ 0 := by
      simp only [Phdr.fileRange] at nonempty
      omega
    obtain ⟨region, regionMember, inside⟩ :=
      checked.region_of harmless phpMember written
    refine ⟨region, ⟨regionMember, inside⟩, ?_⟩
    rintro other ⟨otherMember, otherInside⟩
    exact checked.ordered.region_unique nonempty otherMember regionMember
      otherInside inside
  case bounds =>
    intro write member address has
    obtain ⟨php, phpMember, rfl⟩ := List.mem_map.mp member
    have placed := invariant.placed php phpMember
    have low := placed.low
    have high := placed.high
    have file := placed.file
    simp only [MemRange.Has, Phdr.fileRange] at has
    omega
  case order => exact checked.ordered.boundaries
  case breakHigh => exact checked.ordered.breakHigh

end Checked

theorem LayoutSafe.of_initial
    {writes all : List MemRange} (safe : LayoutSafe scan all)
    (initial : writes <+: all) : LayoutSafe scan writes where
  disjoint := safe.disjoint.sublist initial.sublist
  region write member := safe.region write (initial.subset member)
  bounds write member := safe.bounds write (initial.subset member)
  order := safe.order
  breakHigh := safe.breakHigh

theorem Checked.harmless
    (checked : Checked image scan)
    (safe : LayoutSafe scan (scan.loadable.map Phdr.fileRange)) :
    StackHarmless image.phdrs := by
  intro stack inHeaders isType isFlags memsz filesz
  have invariant := checked.invariant
  have takes := takes_none_iff.mpr ⟨isType, isFlags⟩
  have member : stack ∈ scan.loadable :=
    (invariant.loaded stack).mpr ⟨inHeaders, memsz, .none, by decide, takes⟩
  have symmetric : Std.Symm (@Separate arch) := ⟨fun _ _ => Separate.symm⟩
  have disjoint : scan.loadable.Pairwise Separate := by
    have mapped := safe.disjoint
    rw [List.pairwise_map] at mapped
    exact mapped
  -- Another segment whose memory has the first byte of the stack ends its file
  -- part before it.
  have fileEnds : ∀ php ∈ scan.loadable, ¬ php.Takes .none →
      php.vaddr ≤ stack.vaddr → php.vaddr + php.filesz ≤ stack.vaddr := by
    intro php phpMember different starts
    by_contra reaches
    have differs : php ≠ stack := by
      intro same
      rw [same] at different
      exact different takes
    refine disjoint.forall phpMember member differs stack.vaddr ⟨⟨starts, ?_⟩,
      ⟨Nat.le_refl _, ?_⟩⟩
    · simp only [Phdr.fileRange]
      omega
    · simp only [Phdr.fileRange]
      omega
  have nonempty : stack.fileRange.start < stack.fileRange.stop := by
    simp only [Phdr.fileRange]
    omega
  obtain ⟨region, ⟨regionMember, starts, stops⟩, _⟩ :=
    safe.region stack.fileRange (List.mem_map_of_mem member) nonempty
  rw [mem_regions] at regionMember
  rcases regionMember with rfl | ⟨hasRodata, rfl⟩ | ⟨hasData, rfl⟩
  · obtain ⟨text, textMember, textTakes⟩ := checked.text
    obtain ⟨start, stop⟩ := invariant.text_range textMember textTakes
    simp only [Phdr.fileRange] at starts stops
    have ends := fileEnds text textMember
      (fun none => nomatch textTakes.unique none) (by omega)
    omega
  · obtain ⟨php, phpMember, phpTakes⟩ := invariant.noRodata hasRodata
    obtain ⟨start, stop⟩ := invariant.rodata php phpMember phpTakes
    obtain ⟨phpIn, phpMemsz, _⟩ := (invariant.loaded php).mp phpMember
    obtain ⟨phpType, phpFlags⟩ := takes_rodata_iff.mp phpTakes
    simp only [Phdr.fileRange] at starts stops
    have ends := fileEnds php phpMember
      (fun none => nomatch phpTakes.unique none) (by omega)
    exact ⟨php, phpIn, phpType, Or.inl phpFlags, phpMemsz, ends, by omega⟩
  · obtain ⟨php, phpMember, phpTakes⟩ := invariant.noData hasData
    obtain ⟨start, stop⟩ := invariant.data php phpMember phpTakes
    obtain ⟨phpIn, phpMemsz, _⟩ := (invariant.loaded php).mp phpMember
    obtain ⟨phpType, phpFlags⟩ := takes_data_iff.mp phpTakes
    simp only [Phdr.fileRange] at starts stops
    have ends := fileEnds php phpMember
      (fun none => nomatch phpTakes.unique none) (by omega)
    exact ⟨php, phpIn, phpType, Or.inr phpFlags, phpMemsz, ends, by omega⟩

theorem naClAppLoadFile_layoutSafe_iff
    {world : LoadWorld} (run : naClAppLoadFileChecks world image = .ok scan) :
    (∀ gio, LayoutSafe scan (naClElfImageLoad gio scan.loadable).writes) ↔
      StackHarmless image.phdrs := by
  have checked := naClAppLoadFileChecks_spec run
  constructor
  · intro safe
    apply checked.harmless
    have all := @naClElfImageLoad_all arch ⟨fun _ => true, fun _ => true⟩
      (fun _ => rfl) (fun _ => rfl) scan.loadable checked.invariant.placed
    rw [← all]
    exact safe _
  · intro harmless gio
    exact (checked.safe_all harmless).of_initial
      (naClElfImageLoad_initial gio scan.loadable)

/-! ## A stack header over the text -/

private def quietWorld : LoadWorld := ⟨true, none, true, true, none⟩

private def textHeader : Phdr .x86_32 where
  type := ptLoad
  flags := pfR ||| pfX
  vaddr := 0x20000
  filesz := 0x1000
  memsz := 0x1000
  vaddr_lt := by decide
  filesz_lt := by decide
  memsz_lt := by decide

private def stackHeader : Phdr .x86_32 :=
  { textHeader with type := ptGnuStack, flags := pfR ||| pfW }

private theorem higherAddresses :
    0x40000 < 2 ^ ElfArch.x86_32.wordSize.bits ∧
      0x60000 < 2 ^ ElfArch.x86_32.wordSize.bits ∧
      0x2000 < 2 ^ ElfArch.x86_32.wordSize.bits := by
  decide

private def rodataHeader : Phdr .x86_32 :=
  { textHeader with
    flags := pfR, vaddr := 0x40000, vaddr_lt := higherAddresses.1 }

private def dataHeader : Phdr .x86_32 :=
  { textHeader with
    flags := pfR ||| pfW
    vaddr := 0x60000
    memsz := 0x2000
    vaddr_lt := higherAddresses.2.1
    memsz_lt := higherAddresses.2.2 }

private def headerOf (phdrs : List (Phdr .x86_32)) : ElfImage .x86_32 where
  ehdr :=
    { magic := [0x7f, 0x45, 0x4c, 0x46]
      elfClass := 1
      osAbi := 123
      abiVersion := 7
      type := 2
      machine := 3
      version := 1
      entry := 0x20000
      flags := 0x200000
      phentsize := 32 }
  phdrs := phdrs

private def textScan (phdrs : List (Phdr .x86_32)) (seen : Nat → Bool) :
    PhdrScan .x86_32 where
  seen := seen
  loadable := phdrs
  maxVaddr := 0x21000
  staticTextEnd := 0x21000
  rodataStart := 0
  rodataEnd := 0
  dataStart := 0
  dataEnd := 0

private def threeSegments : List (Phdr .x86_32) :=
  [textHeader, rodataHeader, dataHeader]

private def threeScan : PhdrScan .x86_32 where
  seen := Function.update (Function.update (Function.update (fun _ => false) 1
    true) 2 true) 3 true
  loadable := threeSegments
  maxVaddr := 0x62000
  staticTextEnd := 0x21000
  rodataStart := 0x40000
  rodataEnd := 0x41000
  dataStart := 0x60000
  dataEnd := 0x62000

private theorem threeImage_checks :
    naClAppLoadFileChecks quietWorld (headerOf threeSegments) =
      .ok threeScan := by
  rfl

private theorem stackImage_checks :
    naClAppLoadFileChecks quietWorld (headerOf [textHeader, stackHeader]) =
      .ok (textScan [textHeader, stackHeader]
        (Function.update (Function.update (fun _ => false) 1 true) 5 true)) := by
  rfl

/-- An image with text, read-only data, and data that ends in zeros. -/
theorem layoutSafe_threeSegments :
    LayoutSafe threeScan
      (naClElfImageLoad ⟨fun _ => true, fun _ => true⟩ threeSegments).writes := by
  have harmless : StackHarmless threeScan.loadable := by
    intro php member isType
    simp only [threeScan, threeSegments, List.mem_cons, List.not_mem_nil,
      or_false] at member
    rcases member with rfl | rfl | rfl
    · cases isType
    · cases isType
    · cases isType
  exact (naClAppLoadFile_layoutSafe_iff threeImage_checks).mpr harmless _

/-- The header of the stack is loaded over the text. -/
theorem not_layoutSafe_stackImage :
    ¬ ∀ (world : LoadWorld) (image : ElfImage .x86_32)
      (scan : PhdrScan .x86_32) (gio : Gio .x86_32),
        naClAppLoadFileChecks world image = .ok scan →
          LayoutSafe scan (naClElfImageLoad gio scan.loadable).writes := by
  intro safe
  have disjoint := (safe quietWorld (headerOf [textHeader, stackHeader]) _
    ⟨fun _ => true, fun _ => true⟩ stackImage_checks).disjoint
  exact (List.pairwise_cons.mp disjoint).1 _ List.mem_cons_self 0x20000
    ⟨⟨by decide, by decide⟩, ⟨by decide, by decide⟩⟩

end Writes

end NativeClient.Loader
