import NativeClient.Loader.ElfImage

/-!
# The scan of the program headers

What a scan that passes has found.  At most one header is loaded for each row
of the checks that is not ignored, each is placed in the address space, and
the results of the scan are those of the header of their kind.
-/

namespace NativeClient.Loader

open NativeClient.Runtime

section Checks

theorem require_ok_iff
    {holds : Prop} [Decidable holds] {error : LoadError} {result : Unit} :
    require holds error = .ok result ↔ holds := by
  rw [require]
  by_cases isTrue : holds
  · simp [isTrue]
  · simp [isTrue]

theorem except_bind_ok_iff
    {α β : Type} {first : Except LoadError α}
    {next : α → Except LoadError β} {result : β} :
    (first >>= next) = .ok result ↔
      ∃ value, first = .ok value ∧ next value = .ok result := by
  cases first with
  | error error => simp [bind, Except.bind]
  | ok value => simp [bind, Except.bind]

theorem require_bind_ok_iff
    {β : Type} {holds : Prop} [Decidable holds] {error : LoadError}
    {next : Unit → Except LoadError β} {result : β} :
    (require holds error >>= next) = .ok result ↔
      holds ∧ next () = .ok result := by
  rw [except_bind_ok_iff]
  constructor
  · rintro ⟨value, passed, rest⟩
    exact ⟨require_ok_iff.mp passed, rest⟩
  · rintro ⟨passed, rest⟩
    exact ⟨(), require_ok_iff.mpr passed, rest⟩

end Checks

/-! ## The rows of the checks -/

section Rows

variable {arch : ElfArch}

theorem row_unique (arch : ElfArch) :
    ∀ left ∈ (naclPhdrCheckData arch).zipIdx,
      ∀ right ∈ (naclPhdrCheckData arch).zipIdx,
        left.1.action = right.1.action → left.1.action ≠ .ignore →
          left.2 = right.2 := by
  cases arch <;> decide

theorem row_text (arch : ElfArch) :
    ∀ row ∈ (naclPhdrCheckData arch).zipIdx, row.1.action = .textCheck →
      row.1.vaddr = naclTrampolineEnd := by
  cases arch <;> decide

theorem row_required (arch : ElfArch) :
    ∃ row ∈ (naclPhdrCheckData arch).zipIdx, row.1.required = true ∧
      row.1.action = .textCheck := by
  cases arch <;> decide

theorem matchedCheck_spec
    {php : Phdr arch} {row : PhdrChecks × Nat}
    (matched : matchedCheck php = some row) :
    row ∈ (naclPhdrCheckData arch).zipIdx ∧ php.type = row.1.type ∧
      php.flags = row.1.flags := by
  have member := List.mem_of_find?_eq_some matched
  have holds := List.find?_some matched
  simp only [decide_eq_true_eq] at holds
  exact ⟨member, holds⟩

def Phdr.Takes (php : Phdr arch) (action : PhdrCheckAction) : Prop :=
  ∃ row, matchedCheck php = some row ∧ row.1.action = action

theorem Phdr.Takes.unique
    {php : Phdr arch} {action other : PhdrCheckAction}
    (takes : php.Takes action) (takesOther : php.Takes other) :
    action = other := by
  obtain ⟨row, matched, rfl⟩ := takes
  obtain ⟨otherRow, otherMatched, rfl⟩ := takesOther
  rw [matched] at otherMatched
  cases otherMatched
  rfl

theorem Phdr.Takes.same_row
    {php other : Phdr arch} {action : PhdrCheckAction}
    {row otherRow : PhdrChecks × Nat} (matched : matchedCheck php = some row)
    (otherMatched : matchedCheck other = some otherRow)
    (takes : row.1.action = action) (takesOther : otherRow.1.action = action)
    (loaded : action ≠ .ignore) : row.2 = otherRow.2 := by
  apply row_unique arch row (matchedCheck_spec matched).1 otherRow
    (matchedCheck_spec otherMatched).1
  · rw [takes, takesOther]
  · rw [takes]
    exact loaded

theorem row_of_index (arch : ElfArch) :
    ∀ left ∈ (naclPhdrCheckData arch).zipIdx,
      ∀ right ∈ (naclPhdrCheckData arch).zipIdx,
        left.2 = right.2 → left = right := by
  cases arch <;> decide

end Rows

/-! ## The scan of the program headers -/

section Scan

variable {arch : ElfArch}

structure Placed (php : Phdr arch) : Prop where
  nonempty : php.memsz ≠ 0
  low : naclTrampolineEnd ≤ php.vaddr
  high : php.vaddr + php.memsz < 2 ^ arch.addrBits
  file : php.filesz ≤ php.memsz
  text : php.Takes .textCheck → php.vaddr = naclTrampolineEnd

theorem addrSpace_lt (arch : ElfArch) :
    2 ^ arch.addrBits < 2 ^ arch.wordSize.bits := by
  cases arch <;> decide

theorem memEnd_eq
    {php : Phdr arch} (noWrap : php.vaddr ≤ php.memEnd) :
    php.memEnd = php.vaddr + php.memsz := by
  have vaddr := php.vaddr_lt
  have memsz := php.memsz_lt
  rw [Phdr.memEnd, WordSize.wrap] at *
  generalize 2 ^ arch.wordSize.bits = modulus at *
  by_cases wraps : php.vaddr + php.memsz < modulus
  · exact Nat.mod_eq_of_lt wraps
  · rw [Nat.mod_eq_sub_mod (Nat.not_lt.mp wraps),
      Nat.mod_eq_of_lt (by omega)] at noWrap
    omega

def recorded (php : Phdr arch) (scan : PhdrScan arch) (row : Nat)
    (action : PhdrCheckAction) : PhdrScan arch where
  seen := Function.update scan.seen row true
  loadable := scan.loadable ++ [php]
  maxVaddr := max scan.maxVaddr (php.vaddr + php.memsz)
  staticTextEnd :=
    if action = .textCheck then naclTrampolineEnd + php.filesz
    else scan.staticTextEnd
  rodataStart := if action = .rodata then php.vaddr else scan.rodataStart
  rodataEnd :=
    if action = .rodata then php.vaddr + php.memsz else scan.rodataEnd
  dataStart := if action = .data then php.vaddr else scan.dataStart
  dataEnd := if action = .data then php.vaddr + php.memsz else scan.dataEnd

theorem scanPhdr_cases
    {scan next : PhdrScan arch} {php : Phdr arch}
    (run : scanPhdr scan php = .ok next) :
    php.memsz = 0 ∧ next = scan ∨
      ∃ row, matchedCheck php = some row ∧ scan.seen row.2 = false ∧
        (row.1.action = .ignore ∧
            next = { scan with seen := Function.update scan.seen row.2 true } ∨
          row.1.action ≠ .ignore ∧ Placed php ∧
            next = recorded php scan row.2 row.1.action) := by
  rw [scanPhdr] at run
  by_cases empty : php.memsz = 0
  · rw [if_pos empty] at run
    cases run
    exact Or.inl ⟨empty, rfl⟩
  rw [if_neg empty] at run
  cases matched : matchedCheck php with
  | none =>
      rw [matched] at run
      cases run
  | some row =>
      obtain ⟨check, index⟩ := row
      rw [matched] at run
      simp only [require_bind_ok_iff] at run
      obtain ⟨unseen, run⟩ := run
      refine Or.inr ⟨(check, index), rfl, unseen, ?_⟩
      by_cases ignored : check.action = .ignore
      · rw [if_pos ignored] at run
        cases run
        exact Or.inl ⟨ignored, rfl⟩
      · rw [if_neg ignored] at run
        simp only [require_bind_ok_iff] at run
        obtain ⟨location, low, noWrap, high, file, run⟩ := run
        have noWrapEnd := memEnd_eq noWrap
        rw [noWrapEnd] at high run
        have placed : Placed php := by
          refine ⟨empty, low, high, file, ?_⟩
          rintro ⟨row, found, isText⟩
          rw [matched] at found
          cases found
          have place := row_text arch (check, index)
            (matchedCheck_spec matched).1 isText
          rcases location with zero | same
          · rw [zero] at place
            cases place
          · rw [← same]
            exact place
        refine Or.inr ⟨ignored, placed, ?_⟩
        have fits : arch.wordSize.wrap (naclTrampolineEnd + php.filesz) =
            naclTrampolineEnd + php.filesz := by
          have small := addrSpace_lt arch
          exact Nat.mod_eq_of_lt (by omega)
        cases action : check.action with
        | ignore => exact absurd action ignored
        | none =>
            rw [action] at run
            cases run
            simp [recorded]
        | textCheck =>
            rw [action, recordSegment, if_neg empty, fits] at run
            cases run
            simp [recorded]
        | rodata =>
            rw [action, recordSegment, noWrapEnd] at run
            cases run
            simp [recorded]
        | data =>
            rw [action, recordSegment, noWrapEnd] at run
            cases run
            simp [recorded]

/-- What the scan knows after it has looked at `headers`. -/
structure ScanInvariant (headers : List (Phdr arch)) (scan : PhdrScan arch) :
    Prop where
  loaded : ∀ php, php ∈ scan.loadable ↔ php ∈ headers ∧ php.memsz ≠ 0 ∧
    ∃ action, action ≠ .ignore ∧ php.Takes action
  apart : scan.loadable.Pairwise (fun left right =>
    ∀ action, left.Takes action → ¬ right.Takes action)
  seen : ∀ php ∈ scan.loadable, ∀ row, matchedCheck php = some row →
    scan.seen row.2 = true
  placed : ∀ php ∈ scan.loadable, Placed php
  text : ∀ php ∈ scan.loadable, php.Takes .textCheck →
    scan.staticTextEnd = naclTrampolineEnd + php.filesz
  rodata : ∀ php ∈ scan.loadable, php.Takes .rodata →
    scan.rodataStart = php.vaddr ∧ scan.rodataEnd = php.vaddr + php.memsz
  data : ∀ php ∈ scan.loadable, php.Takes .data →
    scan.dataStart = php.vaddr ∧ scan.dataEnd = php.vaddr + php.memsz
  noRodata : scan.rodataStart ≠ 0 → ∃ php ∈ scan.loadable, php.Takes .rodata
  noData : scan.dataStart ≠ 0 → ∃ php ∈ scan.loadable, php.Takes .data
  segmentEnd : ∀ php ∈ scan.loadable, php.vaddr + php.memsz ≤ scan.maxVaddr
  maxLow : naclTrampolineEnd ≤ scan.maxVaddr
  maxHigh : scan.maxVaddr < 2 ^ arch.addrBits
  seenText : ∀ row ∈ (naclPhdrCheckData arch).zipIdx,
    row.1.action = .textCheck → scan.seen row.2 = true →
      ∃ php ∈ scan.loadable, php.Takes .textCheck

namespace ScanInvariant

variable {headers : List (Phdr arch)} {scan : PhdrScan arch} {php : Phdr arch}

theorem start (arch : ElfArch) : ScanInvariant [] (startScan arch) := by
  constructor <;> simp [startScan]
  cases arch <;> decide

private theorem loaded_skip
    (invariant : ScanInvariant headers scan)
    (skipped : ¬ (php.memsz ≠ 0 ∧
      ∃ action, action ≠ .ignore ∧ php.Takes action)) (other : Phdr arch) :
    other ∈ scan.loadable ↔ other ∈ headers ++ [php] ∧ other.memsz ≠ 0 ∧
      ∃ action, action ≠ .ignore ∧ other.Takes action := by
  rw [invariant.loaded, List.mem_append, List.mem_singleton]
  constructor
  · rintro ⟨member, rest⟩
    exact ⟨Or.inl member, rest⟩
  · rintro ⟨member | rfl, rest⟩
    · exact ⟨member, rest⟩
    · exact absurd rest skipped

theorem skipEmpty
    (invariant : ScanInvariant headers scan) (empty : php.memsz = 0) :
    ScanInvariant (headers ++ [php]) scan :=
  { invariant with
    loaded := invariant.loaded_skip (fun loads => loads.1 empty) }

theorem skipIgnored
    (invariant : ScanInvariant headers scan) {row : PhdrChecks × Nat}
    (matched : matchedCheck php = some row)
    (ignored : row.1.action = .ignore) :
    ScanInvariant (headers ++ [php])
      { scan with seen := Function.update scan.seen row.2 true } := by
  have takes : php.Takes .ignore := ⟨row, matched, ignored⟩
  refine { invariant with loaded := ?_, seen := ?_, seenText := ?_ }
  · apply invariant.loaded_skip
    rintro ⟨_, action, loads, takesAction⟩
    exact loads (takesAction.unique takes)
  · intro other member otherRow otherMatched
    dsimp only
    rw [Function.update_apply]
    split
    · rfl
    · exact invariant.seen other member otherRow otherMatched
  · intro textRow member isText isSeen
    dsimp only at isSeen
    rw [Function.update_apply] at isSeen
    by_cases same : textRow.2 = row.2
    · have equal := row_of_index arch textRow member row
        (matchedCheck_spec matched).1 same
      rw [equal, ignored] at isText
      cases isText
    · rw [if_neg same] at isSeen
      exact invariant.seenText textRow member isText isSeen

section Slots

variable {current action : PhdrCheckAction}

private theorem slot_eq
    {β : Type} {value : Phdr arch → β} {old : β}
    (takes : php.Takes current)
    (fresh : ∀ other ∈ scan.loadable, ¬ other.Takes current)
    (prior : ∀ other ∈ scan.loadable, other.Takes action → old = value other) :
    ∀ other ∈ scan.loadable ++ [php], other.Takes action →
      (if current = action then value php else old) = value other := by
  intro other member takesAction
  rcases List.mem_append.mp member with member | member
  · have differs : current ≠ action := by
      intro same
      rw [same] at fresh
      exact fresh other member takesAction
    rw [if_neg differs]
    exact prior other member takesAction
  · rw [List.mem_singleton.mp member] at takesAction ⊢
    rw [if_pos (takes.unique takesAction)]

private theorem slot_ne_zero
    {old : Nat} (takes : php.Takes current)
    (prior : old ≠ 0 → ∃ other ∈ scan.loadable, other.Takes action)
    (nonzero : (if current = action then php.vaddr else old) ≠ 0) :
    ∃ other ∈ scan.loadable ++ [php], other.Takes action := by
  by_cases same : current = action
  · refine ⟨php, List.mem_append_right _ (List.mem_singleton.mpr rfl), ?_⟩
    rw [← same]
    exact takes
  · rw [if_neg same] at nonzero
    obtain ⟨other, member, takesAction⟩ := prior nonzero
    exact ⟨other, List.mem_append_left _ member, takesAction⟩

end Slots

theorem record
    (invariant : ScanInvariant headers scan) {row : PhdrChecks × Nat}
    (matched : matchedCheck php = some row)
    (unseen : scan.seen row.2 = false) (loads : row.1.action ≠ .ignore)
    (placed : Placed php) :
    ScanInvariant (headers ++ [php]) (recorded php scan row.2 row.1.action) := by
  have takes : php.Takes row.1.action := ⟨row, matched, rfl⟩
  -- No header with the same action has been loaded before.
  have fresh : ∀ other ∈ scan.loadable, ¬ other.Takes row.1.action := by
    rintro other member ⟨otherRow, otherMatched, same⟩
    have seen := invariant.seen other member otherRow otherMatched
    rw [Phdr.Takes.same_row otherMatched matched same rfl loads, unseen] at seen
    cases seen
  have inLoadable : ∀ {other}, other ∈ (recorded php scan row.2
      row.1.action).loadable → other ∈ scan.loadable ∨ other = php := by
    intro other member
    rcases List.mem_append.mp member with member | member
    · exact Or.inl member
    · exact Or.inr (List.mem_singleton.mp member)
  constructor
  case loaded =>
    intro other
    rw [recorded, List.mem_append, invariant.loaded, List.mem_append,
      List.mem_singleton]
    constructor
    · rintro (⟨member, rest⟩ | rfl)
      · exact ⟨Or.inl member, rest⟩
      · exact ⟨Or.inr rfl, placed.nonempty, row.1.action, loads, takes⟩
    · rintro ⟨member | rfl, rest⟩
      · exact Or.inl ⟨member, rest⟩
      · exact Or.inr rfl
  case apart =>
    rw [recorded, List.pairwise_append]
    refine ⟨invariant.apart, List.pairwise_singleton _ _, ?_⟩
    intro other member last isLast action takesOther takesLast
    rw [List.mem_singleton.mp isLast] at takesLast
    rw [← takes.unique takesLast] at takesOther
    exact fresh other member takesOther
  case seen =>
    intro other member otherRow otherMatched
    rw [recorded]
    dsimp only
    rw [Function.update_apply]
    rcases inLoadable member with member | rfl
    · rw [invariant.seen other member otherRow otherMatched]
      split <;> rfl
    · rw [matched] at otherMatched
      cases otherMatched
      rw [if_pos rfl]
  case placed =>
    intro other member
    rcases inLoadable member with member | rfl
    · exact invariant.placed other member
    · exact placed
  case text => exact slot_eq takes fresh invariant.text
  case rodata =>
    intro other member takesRodata
    exact ⟨slot_eq takes fresh
        (fun other member takes => (invariant.rodata other member takes).1)
        other member takesRodata,
      slot_eq takes fresh
        (fun other member takes => (invariant.rodata other member takes).2)
        other member takesRodata⟩
  case data =>
    intro other member takesData
    exact ⟨slot_eq takes fresh
        (fun other member takes => (invariant.data other member takes).1)
        other member takesData,
      slot_eq takes fresh
        (fun other member takes => (invariant.data other member takes).2)
        other member takesData⟩
  case noRodata => exact slot_ne_zero takes invariant.noRodata
  case noData => exact slot_ne_zero takes invariant.noData
  case segmentEnd =>
    intro other member
    rcases inLoadable member with member | rfl
    · exact Nat.le_trans (invariant.segmentEnd other member)
        (Nat.le_max_left _ _)
    · exact Nat.le_max_right _ _
  case maxLow => exact Nat.le_trans invariant.maxLow (Nat.le_max_left _ _)
  case maxHigh => exact Nat.max_lt.mpr ⟨invariant.maxHigh, placed.high⟩
  case seenText =>
    intro textRow member isText isSeen
    rw [recorded] at isSeen
    dsimp only at isSeen
    rw [Function.update_apply] at isSeen
    by_cases same : textRow.2 = row.2
    · have equal := row_of_index arch textRow member row
        (matchedCheck_spec matched).1 same
      refine ⟨php, List.mem_append_right _ (List.mem_singleton.mpr rfl), ?_⟩
      exact ⟨row, matched, by rw [← equal, isText]⟩
    · rw [if_neg same] at isSeen
      obtain ⟨other, otherMember, takesText⟩ :=
        invariant.seenText textRow member isText isSeen
      exact ⟨other, List.mem_append_left _ otherMember, takesText⟩

theorem step
    {next : PhdrScan arch} (invariant : ScanInvariant headers scan)
    (run : scanPhdr scan php = .ok next) :
    ScanInvariant (headers ++ [php]) next := by
  rcases scanPhdr_cases run with ⟨empty, rfl⟩ | ⟨row, matched, unseen, outcome⟩
  · exact invariant.skipEmpty empty
  · rcases outcome with ⟨ignored, rfl⟩ | ⟨loads, placed, rfl⟩
    · exact invariant.skipIgnored matched ignored
    · exact invariant.record matched unseen loads placed

theorem run
    {next : PhdrScan arch} {rest : List (Phdr arch)}
    (invariant : ScanInvariant headers scan)
    (run : rest.foldlM scanPhdr scan = .ok next) :
    ScanInvariant (headers ++ rest) next := by
  induction rest generalizing headers scan with
  | nil =>
      cases run
      rw [List.append_nil]
      exact invariant
  | cons php rest ih =>
      rw [List.foldlM_cons, except_bind_ok_iff] at run
      obtain ⟨mid, first, run⟩ := run
      have later := ih (invariant.step first) run
      rw [List.append_assoc, List.singleton_append] at later
      exact later

end ScanInvariant

end Scan

end NativeClient.Loader
