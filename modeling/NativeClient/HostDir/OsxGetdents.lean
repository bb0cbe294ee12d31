import NativeClient.HostDir.Listing

/-!
# Listing a directory on OS X

The loop asks whether the record of the host fits in the rest of the buffer,
and then stores a record of another length.
-/

namespace NativeClient.HostDir

open NativeClient.Library

/-- A `struct dirent` of the host; what lies before the name, and so
`d_reclen`, depends on how the host is built. -/
structure Entry where
  name : Name
  reclen : Nat

/-- What `readdir` gives; `dp` is the first of them. -/
structure OsxDir where
  entries : List Entry
  off : Int

def OsxDir.names (dir : OsxDir) : List (Option Name) :=
  dir.entries.map fun entry => some entry.name

/-- `NaClHostDirOpen`. -/
def osxOpen (entries : List Entry) : OsxDir := ⟨entries, 0⟩

def osxRecord (start : Nat) (record : Record) : List Store :=
  [inodeStore start, offStore start record.off, nameStore start record.name,
    reclenStore start (recordLength record.name)]

def osxLoop (length : Nat) : List Entry → Nat → Int → Reply OsxDir
  | [], offset, off => ⟨offset, [], ⟨[], off⟩⟩
  | entry :: entries, offset, off =>
      if offset < length ∧ offset + entry.reclen ≤ length then
        (osxLoop length entries (offset + recordLength entry.name)
          (increment off)).after
            (osxRecord offset ⟨entry.name, increment off⟩)
      else
        ⟨offset, [], ⟨entry :: entries, off⟩⟩

/-- `NaClHostDirGetdents`. -/
def osxGetdents (dir : OsxDir) (request : Request) : Reply OsxDir :=
  osxLoop request.length dir.entries 0 dir.off

def osxPassing (length : Nat) : List Entry → Nat → List Entry
  | [], _ => []
  | entry :: entries, offset =>
      if offset < length ∧ offset + entry.reclen ≤ length then
        entry :: osxPassing length entries (offset + recordLength entry.name)
      else
        []

def OsxFits (length : Nat) : List Entry → Nat → Prop
  | [], _ => True
  | entry :: entries, offset =>
      offset < length ∧ offset + entry.reclen ≤ length →
        offset + recordLength entry.name ≤ length ∧
          OsxFits length entries (offset + recordLength entry.name)

/-- The calls that deliver what they should: the records fit where those of
the host do, their numbers are numbers of an `int`, and the first record fits
only if that of the host does. -/
structure OsxCall (dir : OsxDir) (length : Nat) : Prop where
  fits : OsxFits length dir.entries 0
  counted : dir.off + (osxPassing length dir.entries 0).length < 2 ^ 31
  tried : ∀ entry ∈ dir.entries.head?,
    recordLength entry.name ≤ length → entry.reclen ≤ length

def OsxCalls : OsxDir → List Request → Prop
  | _, [] => True
  | dir, request :: requests =>
      OsxCall dir request.length ∧
        OsxCalls (osxGetdents dir request).dir requests

theorem written_osxRecord (start : Nat) (record : Record) (memory : Buffer) :
    Written (applyStores (osxRecord start record) memory) start record := by
  have apart : (osxRecord start record).Pairwise fun first second =>
      second.Beside first.address first.bytes.length := by
    simp [osxRecord, inodeStore, offStore, nameStore, reclenStore,
      Store.Beside, offOffset, reclenOffset, nameOffset]
  refine written_of_mem apart ?_ ?_ ?_ memory
  · simp [osxRecord]
  · simp [osxRecord]
  · simp [osxRecord]

theorem osxRecord_inside
    (start : Nat) (record : Record) {store : Store}
    (member : store ∈ osxRecord start record) :
    start ≤ store.address ∧
      store.address + store.bytes.length ≤ start + recordLength record.name := by
  have bounds := (recordLength_bounds record.name).1
  unfold nameOffset at bounds
  simp only [osxRecord, List.mem_cons, List.not_mem_nil, or_false] at member
  rcases member with rfl | rfl | rfl | rfl <;>
    simp only [inodeStore, offStore, nameStore, reclenStore,
      length_littleEndian, List.length_append, List.length_singleton, offOffset,
      reclenOffset, nameOffset] <;>
    omega

section Loop

variable (length : Nat) (entries : List Entry) (offset : Nat) (off : Int)

theorem osxLoop_entries :
    entries = osxPassing length entries offset ++
      (osxLoop length entries offset off).dir.entries := by
  induction entries generalizing offset off with
  | nil => rfl
  | cons entry entries ih =>
      unfold osxLoop osxPassing
      split
      · rw [List.cons_append]
        exact congrArg _ (ih _ _)
      · rfl

theorem osxLoop_stores
    {store : Store} (member : store ∈ (osxLoop length entries offset off).stores) :
    offset ≤ store.address := by
  induction entries generalizing offset off with
  | nil => cases member
  | cons entry entries ih =>
      unfold osxLoop at member
      split at member
      · rcases List.mem_append.mp member with first | later
        · exact (osxRecord_inside _ _ first).1
        · exact (Nat.le_add_right _ _).trans (ih _ _ later)
      · cases member

theorem osxLoop_off
    {done : Nat}
    (small : done + (osxPassing length entries offset).length < 2 ^ 31) :
    (osxLoop length entries offset done).dir.off =
      ((done + (osxPassing length entries offset).length : Nat) : Int) := by
  induction entries generalizing offset done with
  | nil => rfl
  | cons entry entries ih =>
      unfold osxPassing at small ⊢
      unfold osxLoop
      split at small
      next passes =>
        rw [List.length_cons] at small
        have rest := @ih (offset + recordLength entry.name) (done + 1) (by omega)
        rw [Nat.add_right_comm, Nat.add_assoc] at rest
        rw [if_pos passes, if_pos passes, List.length_cons,
          increment_small (by omega)]
        exact rest
      next stops =>
        rw [if_neg stops, if_neg stops]
        rfl

theorem osxLoop_le :
    (offset : Int) ≤ (osxLoop length entries offset off).result := by
  induction entries generalizing offset off with
  | nil => exact le_refl _
  | cons entry entries ih =>
      unfold osxLoop
      split
      · have rest := ih (offset + recordLength entry.name) (increment off)
        exact (Int.ofNat_le.mpr (Nat.le_add_right _ _)).trans rest
      · exact le_refl _

theorem osxLoop_chain
    (memory : Buffer) (aligned : offset % 4 = 0) :
    Chain (applyStores (osxLoop length entries offset off).stores memory) offset
      (osxLoop length entries offset off).result
      (numbered ((osxPassing length entries offset).map Entry.name) off) := by
  induction entries generalizing offset off memory with
  | nil => rfl
  | cons entry entries ih =>
      unfold osxLoop osxPassing
      split
      · have written := (written_osxRecord offset ⟨entry.name, increment off⟩
          memory).later fun store member =>
            osxLoop_stores length entries _ (increment off) member
        have rest := ih (offset + recordLength entry.name) (increment off)
          (applyStores (osxRecord offset ⟨entry.name, increment off⟩) memory)
          (recordLength_aligned _ aligned)
        rw [← applyStores_append] at written rest
        exact ⟨_, direntAt_of_written aligned (increment_range off) written, rfl,
          rfl, rest⟩
      · rfl

theorem osxLoop_inside_iff (within : offset ≤ length) :
    (osxLoop length entries offset off).Inside length ↔
      OsxFits length entries offset := by
  induction entries generalizing offset off with
  | nil =>
      refine ⟨fun _ => trivial, fun _ => ⟨fun store member => ?_, ?_⟩⟩
      · cases member
      · exact Int.ofNat_le.mpr within
  | cons entry entries ih =>
      unfold osxLoop OsxFits
      split
      next passes =>
        constructor
        · rintro ⟨stores, result⟩ _
          have fits : offset + recordLength entry.name ≤ length :=
            Int.ofNat_le.mp ((osxLoop_le length entries _ (increment off)).trans
              result)
          refine ⟨fits, (ih _ (increment off) fits).mp ⟨?_, result⟩⟩
          intro store member
          exact stores store (List.mem_append_right _ member)
        · intro fits
          obtain ⟨fits, rest⟩ := fits passes
          obtain ⟨stores, result⟩ := (ih _ (increment off) fits).mpr rest
          refine ⟨fun store member => ?_, result⟩
          rcases List.mem_append.mp member with first | later
          · exact (osxRecord_inside _ _ first).2.trans fits
          · exact stores store later
      next stops =>
        refine ⟨fun _ passes => absurd passes stops, fun _ =>
          ⟨fun store member => ?_, ?_⟩⟩
        · cases member
        · exact Int.ofNat_le.mpr within

end Loop

theorem osxPassing_eq_nil
    {length : Nat} {entries : List Entry}
    (none : osxPassing length entries 0 = []) :
    ∀ entry ∈ entries.head?, length < entry.reclen ∨ length = 0 := by
  intro entry first
  cases entries with
  | nil => cases first
  | cons head entries =>
      cases first
      unfold osxPassing at none
      split at none
      · cases none
      · omega

theorem nextTooLong_iff
    {length : Nat} {entries : List Entry}
    (none : osxPassing length entries 0 = []) :
    NextTooLong length (entries.map fun entry => some entry.name) ↔
      ∀ entry ∈ entries.head?,
        recordLength entry.name ≤ length → entry.reclen ≤ length := by
  have stops := osxPassing_eq_nil none
  cases entries with
  | nil => exact ⟨fun _ entry first => (nomatch first), fun _ => trivial⟩
  | cons head entries =>
      have positive := recordLength_positive head.name
      have headStops := stops head rfl
      constructor
      · intro tooLong entry first fits
        cases first
        exact absurd tooLong (Nat.not_lt.mpr fits)
      · intro tried
        have headTried := tried head rfl
        change length < recordLength head.name
        omega

theorem osxPassing_tried
    {length : Nat} {entries : List Entry}
    (some : osxPassing length entries 0 ≠ []) :
    ∀ entry ∈ entries.head?, entry.reclen ≤ length := by
  intro entry first
  cases entries with
  | nil => cases first
  | cons head entries =>
      cases first
      unfold osxPassing at some
      split at some
      · omega
      · exact absurd rfl some

theorem osxLists_iff
    (dir : OsxDir) (requests : List Request) {done : Nat}
    (off : dir.off = done) (small : done < 2 ^ 31) :
    Lists osxGetdents dir.names (counted done) dir requests ↔
      OsxCalls dir requests := by
  induction requests generalizing dir done with
  | nil => exact Iff.rfl
  | cons request requests ih =>
      have entries := osxLoop_entries request.length dir.entries 0 dir.off
      have chain : Chain ((osxGetdents dir request).memory request) 0
          (osxGetdents dir request).result
          (numbered ((osxPassing request.length dir.entries 0).map Entry.name)
            dir.off) :=
        osxLoop_chain request.length dir.entries 0 dir.off request.memory rfl
      have inside : (osxGetdents dir request).Inside request.length ↔
          OsxFits request.length dir.entries 0 :=
        osxLoop_inside_iff request.length dir.entries 0 dir.off (Nat.zero_le _)
      have parts : dir.names =
          (numbered ((osxPassing request.length dir.entries 0).map Entry.name)
            dir.off).map
            (fun record => some record.name) ++
          (osxGetdents dir request).dir.names := by
        rw [numbered_name, List.map_map, OsxDir.names, OsxDir.names]
        refine (congrArg _ entries).trans ?_
        rw [List.map_append]
        rfl
      have increasing := increasing_iff small
        (osxPassing request.length dir.entries 0).length
      have zero : ((osxGetdents dir request).result = 0 →
          NextTooLong request.length (osxGetdents dir request).dir.names) ↔
          ∀ entry ∈ dir.entries.head?,
            recordLength entry.name ≤ request.length →
              entry.reclen ≤ request.length := by
        by_cases none : osxPassing request.length dir.entries 0 = []
        · rw [none] at chain entries
          have result : (osxGetdents dir request).result = 0 := chain
          have same : (osxGetdents dir request).dir.entries = dir.entries :=
            entries.symm
          rw [OsxDir.names, same, ← nextTooLong_iff none]
          exact ⟨fun tooLong => tooLong result, fun tooLong _ => tooLong⟩
        · refine ⟨fun _ entry first _ => osxPassing_tried none entry first,
            fun _ result => ?_⟩
          have nothing : Chain ((osxGetdents dir request).memory request) 0
              (osxGetdents dir request).result [] := result
          have same := nothing.unique chain
          cases passed : osxPassing request.length dir.entries 0 with
          | nil => exact absurd passed none
          | cons entry rest =>
              rw [passed, List.map_cons, numbered_cons] at same
              cases same
      have later : done + (osxPassing request.length dir.entries 0).length <
            2 ^ 31 →
          (Lists osxGetdents (osxGetdents dir request).dir.names
            (counted done ++
              numbers dir.off (osxPassing request.length dir.entries 0).length)
            (osxGetdents dir request).dir requests ↔
          OsxCalls (osxGetdents dir request).dir requests) := by
        intro below
        rw [off, counted_append_numbers below]
        refine ih _ ?_ below
        have next := osxLoop_off request.length dir.entries 0 below
        rw [← off] at next
        exact next
      rw [lists_cons_iff chain parts, numbered_off, List.length_map, inside, zero]
      constructor
      · rintro ⟨fits, below, tried, rest⟩
        rw [off, increasing] at below
        refine ⟨⟨fits, ?_, tried⟩, (later below).mp rest⟩
        rw [off]
        exact_mod_cast below
      · rintro ⟨⟨fits, below, tried⟩, rest⟩
        rw [off] at below
        have natBelow : done + (osxPassing request.length dir.entries 0).length <
            2 ^ 31 := by exact_mod_cast below
        refine ⟨fits, ?_, tried, (later natBelow).mpr rest⟩
        rw [off]
        exact increasing.mpr natBelow

end NativeClient.HostDir
