import NativeClient.Loader.ElfLayout

/-!
# Read-only data at the end

Without a data segment the read-only data is to be the last segment, which the
loader checks although it is said to follow from the checks of the headers.
It does not: the break is behind everything that is loaded, and a header of the
stack or a text with more memory than file may lie behind the read-only data.
-/

namespace NativeClient.Loader

open NativeClient.Runtime

variable {arch : ElfArch}

def LoadedAs (headers : List (Phdr arch)) (action : PhdrCheckAction)
    (php : Phdr arch) : Prop :=
  php ∈ headers ∧ php.memsz ≠ 0 ∧ php.Takes action

def Phdr.roundedEnd (php : Phdr arch) : Nat :=
  naClRoundAllocPage arch.wordSize (php.vaddr + php.memsz)

/-- Without data, no segment ends behind the read-only data, in whole
allocation pages. -/
def RodataLast (headers : List (Phdr arch)) : Prop :=
  ∀ rodata, LoadedAs headers .rodata rodata →
    (∃ data, LoadedAs headers .data data) ∨
      ∀ action php, action ≠ .ignore → LoadedAs headers action php →
        php.roundedEnd ≤ rodata.roundedEnd

def LoadWorld.NotMisordered (world : LoadWorld) : Prop :=
  world.allocateSpace ≠ some .noDataButRodataNotLastSegment ∧
    world.makeDynamicTextShared ≠ some .noDataButRodataNotLastSegment

def NeverMisordered (headers : List (Phdr arch)) : Prop :=
  ∀ (world : LoadWorld) (ehdr : Ehdr), world.NotMisordered →
    naClAppLoadFileChecks world ⟨ehdr, headers⟩ ≠
      .error .noDataButRodataNotLastSegment

section Errors

theorem require_ne_error
    {holds : Prop} [Decidable holds] {error failure : LoadError}
    (other : error ≠ failure) : require holds error ≠ .error failure := by
  rw [require]
  split
  · intro stopped
    cases stopped
  · exact fun stopped => other (Except.error.inj stopped)

theorem answer_ne_error
    {result : Option LoadError} {failure : LoadError}
    (other : result ≠ some failure) : answer result ≠ .error failure := by
  cases result with
  | none => exact fun stopped => nomatch stopped
  | some error =>
      intro stopped
      exact other (congrArg some (Except.error.inj stopped))

theorem bind_ne_error
    {α β : Type} {first : Except LoadError α}
    {next : α → Except LoadError β} {failure : LoadError}
    (firstOther : first ≠ .error failure)
    (nextOther : ∀ value, first = .ok value → next value ≠ .error failure) :
    (first >>= next) ≠ .error failure := by
  cases first with
  | error error =>
      intro stopped
      cases stopped
      exact firstOther rfl
  | ok value => exact nextOther value rfl

end Errors

section Scan

variable {headers : List (Phdr arch)} {scan next : PhdrScan arch}

def Attained (scan : PhdrScan arch) : Prop :=
  scan.maxVaddr = naclTrampolineEnd ∨
    ∃ php ∈ scan.loadable, scan.maxVaddr = php.vaddr + php.memsz

theorem attained_scanPhdr
    {php : Phdr arch} (attained : Attained scan)
    (run : scanPhdr scan php = .ok next) : Attained next := by
  rcases scanPhdr_cases run with ⟨-, rfl⟩ | ⟨row, -, -, ⟨-, rfl⟩ |
    ⟨-, -, rfl⟩⟩
  · exact attained
  · exact attained
  · rw [Attained, recorded]
    rcases Nat.le_total scan.maxVaddr (php.vaddr + php.memsz) with more | less
    · exact .inr ⟨php, List.mem_append_right _ (List.mem_singleton.mpr rfl),
        Nat.max_eq_right more⟩
    · dsimp only
      rw [Nat.max_eq_left less]
      rcases attained with start | ⟨other, member, same⟩
      · exact .inl start
      · exact .inr ⟨other, List.mem_append_left _ member, same⟩

theorem attained_run
    (attained : Attained scan) (run : headers.foldlM scanPhdr scan = .ok next) :
    Attained next := by
  induction headers generalizing scan with
  | nil =>
      cases run
      exact attained
  | cons php headers ih =>
      rw [List.foldlM_cons] at run
      obtain ⟨stepped, step, rest⟩ := except_bind_ok_iff.mp run
      exact ih (attained_scanPhdr attained step) rest

structure Accepted (headers : List (Phdr arch)) (scan : PhdrScan arch) :
    Prop where
  invariant : ScanInvariant headers scan
  attained : Attained scan
  text : ∃ php ∈ scan.loadable, php.Takes .textCheck

theorem accepted_of_validate
    {ehdr : Ehdr} (run : naClElfImageValidateProgramHeaders ⟨ehdr, headers⟩ =
      .ok scan) : Accepted headers scan := by
  obtain ⟨invariant, text⟩ := naClElfImageValidateProgramHeaders_spec run
  refine ⟨invariant, ?_, text⟩
  rw [naClElfImageValidateProgramHeaders] at run
  obtain ⟨found, scanned, rest⟩ := except_bind_ok_iff.mp run
  obtain ⟨-, done⟩ := require_bind_ok_iff.mp rest
  cases done
  exact attained_run (.inl rfl) scanned

theorem Accepted.loaded_iff
    (accepted : Accepted headers scan) {action : PhdrCheckAction}
    (loads : action ≠ .ignore) {php : Phdr arch} :
    LoadedAs headers action php ↔ php ∈ scan.loadable ∧ php.Takes action := by
  rw [accepted.invariant.loaded]
  constructor
  · rintro ⟨member, memsz, takes⟩
    exact ⟨⟨member, memsz, action, loads, takes⟩, takes⟩
  · rintro ⟨⟨member, memsz, -⟩, takes⟩
    exact ⟨member, memsz, takes⟩

theorem Accepted.dataStart_iff (accepted : Accepted headers scan) :
    scan.dataStart ≠ 0 ↔ ∃ data, LoadedAs headers .data data := by
  constructor
  · intro hasData
    obtain ⟨php, member, takes⟩ := accepted.invariant.noData hasData
    exact ⟨php, (accepted.loaded_iff (by decide)).mpr ⟨member, takes⟩⟩
  · rintro ⟨php, loaded⟩
    obtain ⟨member, takes⟩ := (accepted.loaded_iff (by decide)).mp loaded
    rw [(accepted.invariant.data php member takes).1]
    have low := (accepted.invariant.placed php member).low
    unfold naclTrampolineEnd at low
    omega

theorem Accepted.rodataStart_iff (accepted : Accepted headers scan) :
    scan.rodataStart ≠ 0 ↔ ∃ rodata, LoadedAs headers .rodata rodata := by
  constructor
  · intro hasRodata
    obtain ⟨php, member, takes⟩ := accepted.invariant.noRodata hasRodata
    exact ⟨php, (accepted.loaded_iff (by decide)).mpr ⟨member, takes⟩⟩
  · rintro ⟨php, loaded⟩
    obtain ⟨member, takes⟩ := (accepted.loaded_iff (by decide)).mp loaded
    rw [(accepted.invariant.rodata php member takes).1]
    have low := (accepted.invariant.placed php member).low
    unfold naclTrampolineEnd at low
    omega

end Scan

/-! ## The break -/

def RodataEndsAtBreak (scan : PhdrScan arch) : Prop :=
  scan.dataStart = 0 → scan.rodataStart ≠ 0 →
    naClRoundAllocPage arch.wordSize scan.rodataEnd = breakAddr scan

theorem naClRoundAllocPage_mono
    {low high : Nat} (le : low ≤ high) (small : high < 2 ^ arch.addrBits) :
    naClRoundAllocPage arch.wordSize low ≤ naClRoundAllocPage arch.wordSize high := by
  have room := addrSpace_room arch
  have fits : ∀ {nbytes}, nbytes ≤ high →
      arch.wordSize.wrap (nbytes + naclMapPagesize - 1) =
        nbytes + naclMapPagesize - 1 := by
    intro nbytes below
    apply Nat.mod_eq_of_lt
    simp only [naclMapPagesize] at room ⊢
    omega
  rw [naClRoundAllocPage, naClRoundAllocPage, fits le, fits (Nat.le_refl high)]
  apply Nat.mul_le_mul_right
  apply Nat.div_le_div_right
  omega

theorem breakAddr_of_rodata
    {scan : PhdrScan arch} (noData : scan.dataStart = 0)
    (hasRodata : scan.rodataStart ≠ 0) :
    breakAddr scan = naClRoundAllocPage arch.wordSize scan.maxVaddr := by
  rw [breakAddr, if_pos noData]
  dsimp only
  rw [if_neg (fun both => hasRodata both.1)]

namespace Accepted

variable {headers : List (Phdr arch)} {scan : PhdrScan arch}
  (accepted : Accepted headers scan)

include accepted

theorem loadable_cases
    {php : Phdr arch} (member : php ∈ scan.loadable) :
    ∃ action, action ≠ .ignore ∧ LoadedAs headers action php := by
  obtain ⟨inHeaders, memsz, action, loads, takes⟩ :=
    (accepted.invariant.loaded php).mp member
  exact ⟨action, loads, inHeaders, memsz, takes⟩

theorem rodataEndsAtBreak_iff : RodataEndsAtBreak scan ↔ RodataLast headers := by
  have invariant := accepted.invariant
  have rodataEnd : ∀ {rodata}, LoadedAs headers .rodata rodata →
      naClRoundAllocPage arch.wordSize scan.rodataEnd = rodata.roundedEnd := by
    intro rodata loaded
    obtain ⟨member, takes⟩ := (accepted.loaded_iff (by decide)).mp loaded
    rw [(invariant.rodata rodata member takes).2, Phdr.roundedEnd]
  constructor
  · intro ends rodata isRodata
    by_cases hasData : ∃ data, LoadedAs headers .data data
    · exact .inl hasData
    have noData : scan.dataStart = 0 := by
      by_contra isData
      exact hasData (accepted.dataStart_iff.mp isData)
    have hasRodata := accepted.rodataStart_iff.mpr ⟨rodata, isRodata⟩
    refine .inr ?_
    intro action php loads loaded
    have member := ((accepted.loaded_iff loads).mp loaded).1
    have below := invariant.segmentEnd php member
    calc php.roundedEnd
        ≤ naClRoundAllocPage arch.wordSize scan.maxVaddr :=
          naClRoundAllocPage_mono below invariant.maxHigh
      _ = breakAddr scan := (breakAddr_of_rodata noData hasRodata).symm
      _ = naClRoundAllocPage arch.wordSize scan.rodataEnd := (ends noData hasRodata).symm
      _ = rodata.roundedEnd := rodataEnd isRodata
  · intro last noData hasRodata
    obtain ⟨rodata, isRodata⟩ := accepted.rodataStart_iff.mp hasRodata
    have noDataHeader : ¬ ∃ data, LoadedAs headers .data data :=
      fun hasData => accepted.dataStart_iff.mpr hasData noData
    have isLast := (last rodata isRodata).resolve_left noDataHeader
    rw [breakAddr_of_rodata noData hasRodata, rodataEnd isRodata]
    obtain ⟨member, takes⟩ := (accepted.loaded_iff (by decide)).mp isRodata
    apply Nat.le_antisymm
    · exact naClRoundAllocPage_mono (invariant.segmentEnd rodata member)
        invariant.maxHigh
    · -- The largest address is the end of a segment, since a text is there.
      rcases accepted.attained with start | ⟨php, phpMember, same⟩
      · have placed := invariant.placed rodata member
        have low := placed.low
        have nonempty := placed.nonempty
        have below := invariant.segmentEnd rodata member
        omega
      · obtain ⟨action, loads, loaded⟩ := accepted.loadable_cases phpMember
        rw [same]
        exact isLast action php loads loaded

end Accepted

/-! ## The whole load -/

section Load

variable {headers : List (Phdr arch)} {scan : PhdrScan arch}

theorem naClElfImageNew_not_misordered
    (world : LoadWorld) (image : ElfImage arch) :
    naClElfImageNew world image ≠
      .error .noDataButRodataNotLastSegment := by
  refine bind_ne_error (require_ne_error (by decide)) (fun _ _ => ?_)
  refine bind_ne_error (require_ne_error (by decide)) (fun _ _ => ?_)
  exact require_ne_error (by decide)

theorem naClElfImageValidateAbi_not_misordered (image : ElfImage arch) :
    naClElfImageValidateAbi image ≠
      .error .noDataButRodataNotLastSegment := by
  refine bind_ne_error (require_ne_error (by decide)) (fun _ _ => ?_)
  exact require_ne_error (by decide)

theorem naClElfImageValidateElfHeader_not_misordered (image : ElfImage arch) :
    naClElfImageValidateElfHeader image ≠
      .error .noDataButRodataNotLastSegment := by
  refine bind_ne_error (require_ne_error (by decide)) (fun _ _ => ?_)
  refine bind_ne_error (require_ne_error ?_) (fun _ _ => ?_)
  · split
    · decide
    · decide
  refine bind_ne_error (require_ne_error (by decide)) (fun _ _ => ?_)
  refine bind_ne_error (require_ne_error (by decide)) (fun _ _ => ?_)
  exact require_ne_error (by decide)

theorem checkOrder_not_misordered
    (ends : RodataEndsAtBreak scan) :
    checkOrder scan ≠ .error .noDataButRodataNotLastSegment := by
  refine bind_ne_error (require_ne_error (by decide)) (fun _ _ => ?_)
  refine bind_ne_error ?_ (fun _ _ => ?_)
  · have holds : scan.dataStart = 0 → scan.rodataStart ≠ 0 →
        naClRoundAllocPage arch.wordSize scan.rodataEnd = breakAddr scan := ends
    rw [require, if_pos holds]
    intro stopped
    cases stopped
  refine bind_ne_error (require_ne_error (by decide)) (fun _ _ => ?_)
  refine bind_ne_error (require_ne_error (by decide)) (fun _ _ => ?_)
  refine bind_ne_error (require_ne_error (by decide)) (fun _ _ => ?_)
  refine bind_ne_error (require_ne_error (by decide)) (fun _ _ => ?_)
  exact require_ne_error (by decide)

theorem naClAllocAddrSpace_not_misordered
    {world : LoadWorld} (dataEnd : Nat)
    (honest : world.allocateSpace ≠ some .noDataButRodataNotLastSegment) :
    naClAllocAddrSpace world arch dataEnd ≠
      .error .noDataButRodataNotLastSegment := by
  refine bind_ne_error (answer_ne_error honest) (fun _ _ => ?_)
  refine bind_ne_error (require_ne_error (by decide)) (fun _ _ => ?_)
  refine bind_ne_error (require_ne_error (by decide)) (fun _ _ => ?_)
  split
  · intro stopped
    cases stopped
  · refine bind_ne_error (require_ne_error (by decide)) (fun _ _ => ?_)
    exact require_ne_error (by decide)

theorem naClAppLoadFileChecks_not_misordered
    {world : LoadWorld} {ehdr : Ehdr} (honest : world.NotMisordered)
    (run : naClElfImageValidateProgramHeaders ⟨ehdr, headers⟩ = .ok scan)
    (ends : RodataEndsAtBreak scan) :
    naClAppLoadFileChecks world ⟨ehdr, headers⟩ ≠
      .error .noDataButRodataNotLastSegment := by
  refine bind_ne_error (naClElfImageNew_not_misordered _ _) (fun _ _ => ?_)
  refine bind_ne_error (naClElfImageValidateAbi_not_misordered _)
    (fun _ _ => ?_)
  refine bind_ne_error (naClElfImageValidateElfHeader_not_misordered _)
    (fun _ _ => ?_)
  rw [run]
  refine bind_ne_error (fun stopped => nomatch stopped) (fun found same => ?_)
  cases same
  split
  · exact fun stopped => nomatch stopped
  · refine bind_ne_error (require_ne_error (by decide)) (fun _ _ => ?_)
    refine bind_ne_error (checkOrder_not_misordered ends) (fun _ _ => ?_)
    refine bind_ne_error (naClAllocAddrSpace_not_misordered _ honest.1)
      (fun _ _ => ?_)
    refine bind_ne_error (answer_ne_error honest.2) (fun _ _ => ?_)
    exact fun stopped => nomatch stopped

def validEhdr (arch : ElfArch) : Ehdr where
  magic := [0x7f, 0x45, 0x4c, 0x46]
  elfClass := arch.elfClass
  osAbi := 123
  abiVersion := 7
  type := 2
  machine := arch.machine
  version := 1
  entry := 0
  flags := 0x200000
  phentsize := arch.phdrSize

def willingWorld : LoadWorld := ⟨true, none, true, true, none⟩

theorem willingWorld_notMisordered : willingWorld.NotMisordered := by
  constructor
  · exact fun stopped => nomatch stopped
  · exact fun stopped => nomatch stopped

theorem checkOrder_misordered
    {scan : PhdrScan arch} (misplaced : ¬ RodataEndsAtBreak scan) :
    checkOrder scan = .error .noDataButRodataNotLastSegment := by
  have noData : scan.dataStart = 0 := by
    by_contra hasData
    exact misplaced (fun isZero => absurd isZero hasData)
  have vacuous : scan.dataStart ≠ 0 → scan.dataEnd = breakAddr scan :=
    fun hasData => absurd noData hasData
  have fails : ¬ (scan.dataStart = 0 → scan.rodataStart ≠ 0 →
      naClRoundAllocPage arch.wordSize scan.rodataEnd = breakAddr scan) := misplaced
  rw [checkOrder, require, if_pos vacuous, require, if_neg fails]
  rfl

theorem naClAppLoadFileChecks_misordered
    (few : headers.length ≤ naclMaxProgramHeaders)
    (run : naClElfImageValidateProgramHeaders ⟨validEhdr arch, headers⟩ =
      .ok scan) (textEnd : 0 < scan.staticTextEnd)
    (misplaced : ¬ RodataEndsAtBreak scan) :
    naClAppLoadFileChecks willingWorld ⟨validEhdr arch, headers⟩ =
      .error .noDataButRodataNotLastSegment := by
  have image : naClElfImageNew willingWorld ⟨validEhdr arch, headers⟩ =
      .ok () := by
    have size : arch.phdrSize ≤ (validEhdr arch).phentsize := Nat.le_refl _
    rw [naClElfImageNew, require, if_pos few, require, if_pos size]
    rfl
  have abi : naClElfImageValidateAbi
      (⟨validEhdr arch, headers⟩ : ElfImage arch) = .ok () := rfl
  have header : naClElfImageValidateElfHeader
      (⟨validEhdr arch, headers⟩ : ElfImage arch) = .ok () := by
    cases arch <;> rfl
  have entry : (validEhdr arch).entry % 32 = 0 ∧
      (validEhdr arch).entry < scan.staticTextEnd := ⟨rfl, textEnd⟩
  rw [naClAppLoadFileChecks, image, abi, header, run]
  have bundle : naClElfImageGetBundleSize
      (⟨validEhdr arch, headers⟩ : ElfImage arch) = some 32 := by
    have notSmall : ¬ (0x200000 : Nat) &&& 0x300000 = 0x100000 := by decide
    have large : (0x200000 : Nat) &&& 0x300000 = 0x200000 := by decide
    change (if (0x200000 : Nat) &&& 0x300000 = 0x100000 then _ else _) = _
    rw [if_neg notSmall]
    change (if (0x200000 : Nat) &&& 0x300000 = 0x200000 then _ else _) = _
    rw [if_pos large]
  simp only [bind, Except.bind, bundle, require, if_pos entry,
    checkOrder_misordered misplaced]

theorem Accepted.textEnd (accepted : Accepted headers scan) :
    0 < scan.staticTextEnd := by
  obtain ⟨text, member, takes⟩ := accepted.text
  rw [accepted.invariant.text text member takes]
  simp only [naclTrampolineEnd]
  omega

/-- The check that is to fail never fails exactly when nothing that is loaded
ends behind the read-only data. -/
theorem neverMisordered_exact
    {ehdr : Ehdr} (few : headers.length ≤ naclMaxProgramHeaders)
    (run : naClElfImageValidateProgramHeaders ⟨ehdr, headers⟩ = .ok scan) :
    (NeverMisordered headers ↔ RodataLast headers) ∧
      (RodataEndsAtBreak scan ↔ RodataLast headers) := by
  have accepted := accepted_of_validate run
  have exact := accepted.rodataEndsAtBreak_iff
  refine ⟨?_, exact⟩
  rw [← exact]
  constructor
  · intro never
    by_contra misplaced
    exact never willingWorld (validEhdr arch) willingWorld_notMisordered
      (naClAppLoadFileChecks_misordered few run accepted.textEnd misplaced)
  · intro ends world other honest
    exact naClAppLoadFileChecks_not_misordered honest run ends

end Load

/-! ## A stack header behind the read-only data -/

section Samples

theorem page_lt : 0x1000 < 2 ^ ElfArch.x86_32.wordSize.bits := by decide

private theorem pageStart_lt {page : Nat} (low : page < 16) :
    page * 0x10000 < 2 ^ ElfArch.x86_32.wordSize.bits := by
  change page * 0x10000 < 4294967296
  omega

private def segmentAt (type flags page : Nat) (low : page < 16) :
    Phdr .x86_32 where
  type := type
  flags := flags
  vaddr := page * 0x10000
  filesz := 0x1000
  memsz := 0x1000
  vaddr_lt := pageStart_lt low
  filesz_lt := page_lt
  memsz_lt := page_lt

private theorem two_lt : 2 < 16 := by decide
private theorem four_lt : 4 < 16 := by decide
private theorem six_lt : 6 < 16 := by decide

private def textSegment : Phdr .x86_32 :=
  segmentAt ptLoad (pfR ||| pfX) 2 two_lt

private def rodataSegment : Phdr .x86_32 := segmentAt ptLoad pfR 4 four_lt

private def stackSegment : Phdr .x86_32 :=
  segmentAt ptGnuStack (pfR ||| pfW) 6 six_lt

private def scanOf (seen : Nat → Bool) (loadable : List (Phdr .x86_32))
    (maxVaddr : Nat) : PhdrScan .x86_32 where
  seen := seen
  loadable := loadable
  maxVaddr := maxVaddr
  staticTextEnd := 0x21000
  rodataStart := 0x40000
  rodataEnd := 0x41000
  dataStart := 0
  dataEnd := 0

private def rodataSeen : Nat → Bool :=
  Function.update (Function.update (fun _ => false) 1 true) 2 true

private theorem validate_rodataImage :
    naClElfImageValidateProgramHeaders
        ⟨validEhdr .x86_32, [textSegment, rodataSegment]⟩ =
      .ok (scanOf rodataSeen [textSegment, rodataSegment] 0x41000) := by
  rfl

private theorem validate_stackBehind :
    naClElfImageValidateProgramHeaders
        ⟨validEhdr .x86_32, [textSegment, rodataSegment, stackSegment]⟩ =
      .ok (scanOf (Function.update rodataSeen 5 true)
        [textSegment, rodataSegment, stackSegment] 0x61000) := by
  rfl

/-- A text with read-only data behind it. -/
theorem neverMisordered_exact_rodata :
    NeverMisordered [textSegment, rodataSegment] := by
  have exact := neverMisordered_exact (by decide) validate_rodataImage
  refine exact.1.mpr (exact.2.mp ?_)
  intro _ _
  decide

/-- The header of the stack is behind the read-only data, and moves the
break. -/
theorem not_neverMisordered_stackBehind :
    ¬ ∀ (ehdr : Ehdr) (headers : List (Phdr .x86_32))
      (scan : PhdrScan .x86_32),
        naClElfImageValidateProgramHeaders ⟨ehdr, headers⟩ = .ok scan →
          NeverMisordered headers := by
  intro never
  have misplaced : ¬ RodataEndsAtBreak (scanOf
      (Function.update rodataSeen 5 true)
      [textSegment, rodataSegment, stackSegment] 0x61000) := by
    intro ends
    exact absurd (ends rfl (by decide)) (by decide)
  exact never _ _ _ validate_stackBehind willingWorld (validEhdr .x86_32)
    willingWorld_notMisordered
    (naClAppLoadFileChecks_misordered (by decide) validate_stackBehind
      (by decide) misplaced)

end Samples

end NativeClient.Loader
