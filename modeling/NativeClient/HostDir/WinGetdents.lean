import NativeClient.HostDir.OsxGetdents

/-!
# Listing a directory on Windows

The name that was found last waits for the next call.  Every call converts it
first, numbers its records from one, and refuses the record that would just
fill the buffer.
-/

namespace NativeClient.HostDir

open NativeClient.Library

/-- `find_data` with its name converted, if that is possible, and what
`FindNextFile` finds after it. -/
structure WinDir where
  found : Option Name
  rest : List (Option Name)
  done : Bool
  off : Int

def WinDir.names (dir : WinDir) : List (Option Name) :=
  if dir.done then [] else dir.found :: dir.rest

def winOverflow : Int := -139

def winRecord (start : Nat) (record : Record) : List Store :=
  [inodeStore start, offStore start record.off,
    reclenStore start (recordLength record.name % 2 ^ 16),
    nameStore start record.name]

section Calls

variable (leftover : Option Name)

/-- `NaClHostDirOpen`; `leftover` is what stands in `find_data` when nothing
more is found. -/
def winOpen : List (Option Name) → WinDir
  | [] => ⟨leftover, [], true, 0⟩
  | found :: rest => ⟨found, rest, false, 0⟩

def winLoop (length : Nat) (done : Bool) :
    List (Option Name) → Option Name → Nat → Int → Buffer → Reply WinDir
  | rest, none, _, off, _ => ⟨winOverflow, [], ⟨none, rest, done, off⟩⟩
  | [], some name, offset, off, memory =>
      if recordLength name % 2 ^ 16 < recordLength name then
        ⟨winOverflow, [], ⟨some name, [], done, off⟩⟩
      else if done = true ∨ length ≤ offset + recordLength name then
        ⟨offset, [], ⟨some name, [], done, off⟩⟩
      else
        let stores := winRecord offset ⟨name, off⟩
        let stored := applyStores stores memory
        ⟨(offset + word16 stored (offset + reclenOffset) : Nat), stores,
          ⟨leftover, [], true, increment off⟩⟩
  | found :: rest, some name, offset, off, memory =>
      if recordLength name % 2 ^ 16 < recordLength name then
        ⟨winOverflow, [], ⟨some name, found :: rest, done, off⟩⟩
      else if done = true ∨ length ≤ offset + recordLength name then
        ⟨offset, [], ⟨some name, found :: rest, done, off⟩⟩
      else
        let stores := winRecord offset ⟨name, off⟩
        let stored := applyStores stores memory
        (winLoop length done rest found
          (offset + word16 stored (offset + reclenOffset)) (increment off)
          stored).after stores

/-- `NaClHostDirGetdents`. -/
def winGetdents (dir : WinDir) (request : Request) : Reply WinDir :=
  winLoop leftover request.length dir.done dir.rest dir.found 0 1 request.memory

end Calls

def winPassing (length : Nat) : List (Option Name) → Nat → List Name
  | some name :: names, offset =>
      if offset + recordLength name < length then
        name :: winPassing length names (offset + recordLength name)
      else
        []
  | _, _ => []

def WinConverts (length : Nat) : List (Option Name) → Nat → Prop
  | [], _ => True
  | none :: _, _ => False
  | some name :: names, offset =>
      offset + recordLength name < length →
        WinConverts length names (offset + recordLength name)

/-- The calls that deliver what they should: the names can be converted, the
first record does not just fill the buffer, and records are delivered only by
the first call that can deliver one. -/
structure WinCall
    (names : List (Option Name)) (dir : WinDir) (length : Nat) : Prop where
  found : dir.found ≠ none
  converts : WinConverts length dir.names 0
  strict : ∀ name, dir.names.head? = some (some name) →
    recordLength name ≠ length
  counted : (winPassing length dir.names 0).length < 2 ^ 31
  once : winPassing length dir.names 0 = [] ∨ dir.names = names

def WinCalls (leftover : Option Name) (names : List (Option Name)) :
    WinDir → List Request → Prop
  | _, [] => True
  | dir, request :: requests =>
      WinCall names dir request.length ∧
        WinCalls leftover names (winGetdents leftover dir request).dir requests

theorem winOverflow_negative : winOverflow < 0 := by
  decide

theorem recordLength_mod (name : Name) :
    recordLength name % 2 ^ 16 = recordLength name :=
  Nat.mod_eq_of_lt (recordLength_bounds name).2

theorem written_winRecord (start : Nat) (record : Record) (memory : Buffer) :
    Written (applyStores (winRecord start record) memory) start record := by
  have apart : (winRecord start record).Pairwise fun first second =>
      second.Beside first.address first.bytes.length := by
    simp [winRecord, inodeStore, offStore, nameStore, reclenStore,
      Store.Beside, offOffset, reclenOffset, nameOffset]
  refine written_of_mem apart ?_ ?_ ?_ memory
  · simp [winRecord]
  · rw [winRecord, recordLength_mod]
    simp
  · simp [winRecord]

theorem winRecord_inside
    (start : Nat) (record : Record) {store : Store}
    (member : store ∈ winRecord start record) :
    start ≤ store.address ∧
      store.address + store.bytes.length ≤ start + recordLength record.name := by
  have bounds := (recordLength_bounds record.name).1
  unfold nameOffset at bounds
  simp only [winRecord, List.mem_cons, List.not_mem_nil, or_false] at member
  rcases member with rfl | rfl | rfl | rfl <;>
    simp only [inodeStore, offStore, nameStore, reclenStore,
      length_littleEndian, List.length_append, List.length_singleton, offOffset,
      reclenOffset, nameOffset] <;>
    omega

theorem winRecord_length (start : Nat) (record : Record) (memory : Buffer) :
    word16 (applyStores (winRecord start record) memory) (start + reclenOffset) =
      recordLength record.name :=
  word16_of_holds (recordLength_bounds record.name).2
    (written_winRecord start record memory).reclen

section Loop

variable (leftover : Option Name) (length : Nat) (rest : List (Option Name))
variable (name : Name) (offset : Nat) (off : Int) (memory : Buffer)

theorem winLoop_stop
    (done : Bool)
    (stops : done = true ∨ length ≤ offset + recordLength name) :
    winLoop leftover length done rest (some name) offset off memory =
      ⟨offset, [], ⟨some name, rest, done, off⟩⟩ := by
  cases rest with
  | nil =>
      rw [winLoop, recordLength_mod, if_neg (Nat.lt_irrefl _), if_pos stops]
  | cons found rest =>
      rw [winLoop, recordLength_mod, if_neg (Nat.lt_irrefl _), if_pos stops]

theorem winLoop_last (fits : offset + recordLength name < length) :
    winLoop leftover length false [] (some name) offset off memory =
      ⟨(offset + recordLength name : Nat), winRecord offset ⟨name, off⟩,
        ⟨leftover, [], true, increment off⟩⟩ := by
  rw [winLoop, recordLength_mod, if_neg (Nat.lt_irrefl _), if_neg (by simp; omega)]
  dsimp only
  rw [winRecord_length]

theorem winLoop_next
    (found : Option Name) (fits : offset + recordLength name < length) :
    winLoop leftover length false (found :: rest) (some name) offset off memory =
      (winLoop leftover length false rest found (offset + recordLength name)
        (increment off) (applyStores (winRecord offset ⟨name, off⟩) memory)).after
          (winRecord offset ⟨name, off⟩) := by
  rw [winLoop, recordLength_mod, if_neg (Nat.lt_irrefl _), if_neg (by simp; omega)]
  dsimp only
  rw [winRecord_length]

structure WinDelivers
    (reply : Reply WinDir) (names : List (Option Name)) : Prop where
  parts : names = (winPassing length names offset).map some ++ reply.dir.names
  chain : Chain (applyStores reply.stores memory) offset reply.result
    (numbered (winPassing length names offset) off)
  inside : reply.Inside length
  behind : ∀ store ∈ reply.stores, offset ≤ store.address

variable {length name offset off memory}

theorem winDelivers_stop
    (within : offset ≤ length) (stops : length ≤ offset + recordLength name) :
    WinDelivers length offset off memory
      (winLoop leftover length false rest (some name) offset (increment off) memory)
      (some name :: rest) := by
  have none : winPassing length (some name :: rest) offset = [] := by
    rw [winPassing, if_neg (Nat.not_lt.mpr stops)]
  rw [winLoop_stop leftover length rest name offset _ memory false (.inr stops)]
  refine ⟨?_, ?_, ⟨fun store member => ?_, Int.ofNat_le.mpr within⟩,
    fun store member => ?_⟩
  · rw [none]
    rfl
  · rw [none]
    rfl
  · cases member
  · cases member

theorem WinDelivers.next
    {reply : Reply WinDir} {names : List (Option Name)}
    (aligned : offset % 4 = 0) (fits : offset + recordLength name < length)
    (delivers : WinDelivers length (offset + recordLength name) (increment off)
      (applyStores (winRecord offset ⟨name, increment off⟩) memory) reply names) :
    WinDelivers length offset off memory
      (reply.after (winRecord offset ⟨name, increment off⟩))
      (some name :: names) := by
  have written := @Written.later _ offset ⟨name, increment off⟩ _
    delivers.behind (written_winRecord offset _ memory)
  have passing : winPassing length (some name :: names) offset =
      name :: winPassing length names (offset + recordLength name) := by
    rw [winPassing, if_pos fits]
  have chain := delivers.chain
  refine ⟨?_, ?_, ⟨fun store member => ?_, delivers.inside.2⟩,
    fun store member => ?_⟩
  · rw [passing, List.map_cons, List.cons_append]
    exact congrArg _ delivers.parts
  · rw [← applyStores_append] at written chain
    rw [passing, numbered_cons]
    exact ⟨_, direntAt_of_written aligned (increment_range off) written, rfl, rfl,
      chain⟩
  · rcases List.mem_append.mp member with first | later
    · exact (winRecord_inside _ _ first).2.trans fits.le
    · exact delivers.inside.1 store later
  · rcases List.mem_append.mp member with first | later
    · exact (winRecord_inside _ _ first).1
    · exact (Nat.le_add_right _ _).trans (delivers.behind store later)

theorem winLoop_delivers
    (found : Option Name) (aligned : offset % 4 = 0) (within : offset ≤ length)
    (converts : WinConverts length (found :: rest) offset) :
    WinDelivers length offset off memory
      (winLoop leftover length false rest found offset (increment off) memory)
      (found :: rest) := by
  induction rest generalizing found offset off memory with
  | nil =>
      cases found with
      | none => exact converts.elim
      | some name =>
          by_cases fits : offset + recordLength name < length
          · have nothing : WinDelivers length (offset + recordLength name)
                (increment off)
                (applyStores (winRecord offset ⟨name, increment off⟩) memory)
                ⟨(offset + recordLength name : Nat), [],
                  ⟨leftover, [], true, increment (increment off)⟩⟩ [] := by
              refine ⟨rfl, rfl, ⟨fun store member => ?_,
                Int.ofNat_le.mpr fits.le⟩, fun store member => ?_⟩
              · cases member
              · cases member
            have delivers := nothing.next aligned fits
            rw [Reply.after, List.append_nil] at delivers
            rw [winLoop_last leftover length name offset _ memory fits]
            exact delivers
          · exact winDelivers_stop leftover [] within (Nat.not_lt.mp fits)
  | cons next rest ih =>
      cases found with
      | none => exact converts.elim
      | some name =>
          by_cases fits : offset + recordLength name < length
          · rw [winLoop_next leftover length rest name offset _ memory next fits]
            exact (ih next (recordLength_aligned name aligned) fits.le
              (converts fits)).next aligned fits
          · exact winDelivers_stop leftover _ within (Nat.not_lt.mp fits)

theorem winLoop_negative
    (found : Option Name)
    (fails : ¬ WinConverts length (found :: rest) offset) :
    (winLoop leftover length false rest found offset off memory).result < 0 := by
  induction rest generalizing found offset off memory with
  | nil =>
      cases found with
      | none =>
          rw [winLoop]
          exact winOverflow_negative
      | some name => exact absurd (fun _ => trivial) fails
  | cons next rest ih =>
      cases found with
      | none =>
          rw [winLoop]
          exact winOverflow_negative
      | some name =>
          by_cases fits : offset + recordLength name < length
          · rw [winLoop_next leftover length rest name offset _ memory next fits]
            exact ih next fun later => fails fun _ => later
          · exact absurd (fun more => absurd more fits) fails

end Loop

theorem winNextTooLong_iff
    {length : Nat} {names : List (Option Name)}
    (converts : WinConverts length names 0)
    (none : winPassing length names 0 = []) :
    NextTooLong length names ↔
      ∀ name, names.head? = some (some name) → recordLength name ≠ length := by
  cases names with
  | nil => exact ⟨fun _ name first => (nomatch first), fun _ => trivial⟩
  | cons found rest =>
      cases found with
      | none => exact converts.elim
      | some name =>
          have stops : ¬ 0 + recordLength name < length := by
            intro fits
            rw [winPassing, if_pos fits] at none
            cases none
          constructor
          · intro tooLong other first
            cases first
            exact Nat.ne_of_gt tooLong
          · intro strict
            have different := strict name rfl
            change length < recordLength name
            omega

theorem winPassing_strict
    {length : Nat} {names : List (Option Name)}
    (some : winPassing length names 0 ≠ []) (name : Name)
    (first : names.head? = .some (.some name)) :
    recordLength name ≠ length := by
  cases names with
  | nil => cases first
  | cons found rest =>
      cases first
      unfold winPassing at some
      split at some
      · omega
      · exact absurd rfl some

section Runs

variable (leftover : Option Name)

theorem winGetdents_delivers
    {dir : WinDir} {request : Request} (found : dir.found ≠ none)
    (converts : WinConverts request.length dir.names 0) :
    WinDelivers request.length 0 0 request.memory
      (winGetdents leftover dir request) dir.names := by
  obtain ⟨current, rest, done, off⟩ := dir
  unfold winGetdents
  cases done with
  | false =>
      exact winLoop_delivers leftover rest current rfl (Nat.zero_le _) converts
  | true =>
      cases current with
      | none => exact absurd rfl found
      | some name =>
          dsimp only
          rw [winLoop_stop leftover request.length rest name 0 1 request.memory true
            (.inl rfl)]
          refine ⟨rfl, rfl, ⟨fun store member => ?_, Int.natCast_nonneg _⟩,
            fun store member => ?_⟩
          · cases member
          · cases member

theorem winGetdents_negative
    {dir : WinDir} {request : Request}
    (fails : ¬ (dir.found ≠ none ∧ WinConverts request.length dir.names 0)) :
    (winGetdents leftover dir request).result < 0 := by
  obtain ⟨current, rest, done, off⟩ := dir
  unfold winGetdents
  cases current with
  | none =>
      rw [winLoop]
      exact winOverflow_negative
  | some name =>
      cases done with
      | false =>
          refine winLoop_negative leftover rest (some name) fun converts => ?_
          exact fails ⟨Option.some_ne_none _, converts⟩
      | true => exact absurd ⟨Option.some_ne_none _, trivial⟩ fails

theorem winLists_iff
    (dir : WinDir) (front : List (Option Name)) (requests : List Request) :
    Lists (winGetdents leftover) dir.names (counted front.length) dir requests ↔
      WinCalls leftover (front ++ dir.names) dir requests := by
  induction requests generalizing dir front with
  | nil => exact Iff.rfl
  | cons request requests ih =>
      by_cases converted :
          dir.found ≠ none ∧ WinConverts request.length dir.names 0
      · obtain ⟨found, converts⟩ := converted
        have delivers := winGetdents_delivers leftover found converts
        have chain : Chain ((winGetdents leftover dir request).memory request) 0
            (winGetdents leftover dir request).result
            (numbered (winPassing request.length dir.names 0) 0) :=
          delivers.chain
        have parts : dir.names =
            (numbered (winPassing request.length dir.names 0) 0).map
              (fun record => some record.name) ++
            (winGetdents leftover dir request).dir.names := by
          rw [numbered_name]
          exact delivers.parts
        have again := @increasing_again_iff front.length
          (winPassing request.length dir.names 0).length
        have zero : ((winGetdents leftover dir request).result = 0 →
            NextTooLong request.length
              (winGetdents leftover dir request).dir.names) ↔
            ∀ name, dir.names.head? = some (some name) →
              recordLength name ≠ request.length := by
          by_cases none : winPassing request.length dir.names 0 = []
          · rw [none] at chain parts
            rw [← winNextTooLong_iff converts none, parts]
            exact ⟨fun tooLong => tooLong chain, fun tooLong _ => tooLong⟩
          · refine ⟨fun _ => winPassing_strict none, fun _ result => ?_⟩
            have nothing : Chain ((winGetdents leftover dir request).memory request)
                0 (winGetdents leftover dir request).result [] := result
            have same := nothing.unique chain
            cases passed : winPassing request.length dir.names 0 with
            | nil => exact absurd passed none
            | cons name rest =>
                rw [passed, numbered_cons] at same
                cases same
        have later : ((winPassing request.length dir.names 0).length = 0 ∨
              front.length = 0 ∧
                (winPassing request.length dir.names 0).length < 2 ^ 31) →
            (Lists (winGetdents leftover)
              (winGetdents leftover dir request).dir.names
              (counted front.length ++
                numbers 0 (winPassing request.length dir.names 0).length)
              (winGetdents leftover dir request).dir requests ↔
            WinCalls leftover (front ++ dir.names)
              (winGetdents leftover dir request).dir requests) := by
          intro either
          have rest := ih (winGetdents leftover dir request).dir
            (front ++ (winPassing request.length dir.names 0).map some)
          rw [List.append_assoc, ← delivers.parts, List.length_append,
            List.length_map] at rest
          rw [← rest]
          rcases either with none | ⟨fresh, small⟩
          · rw [none, numbers, List.append_nil, Nat.add_zero]
          · have counts := @counted_append_numbers 0 _
              (show 0 + (winPassing request.length dir.names 0).length < 2 ^ 31 by
                omega)
            rw [fresh, ← counts]
            rfl
        have once : (winPassing request.length dir.names 0 = [] ∨
            dir.names = front ++ dir.names) ↔
            (winPassing request.length dir.names 0).length = 0 ∨
              front.length = 0 := by
          rw [List.self_eq_append_left, List.length_eq_zero_iff,
            List.length_eq_zero_iff]
        rw [lists_cons_iff chain parts, numbered_off, again, zero]
        constructor
        · rintro ⟨-, either, strict, rest⟩
          refine ⟨⟨found, converts, strict, by omega, once.mpr (by omega)⟩, ?_⟩
          exact (later either).mp rest
        · rintro ⟨call, rest⟩
          have counted := call.counted
          have either := once.mp call.once
          refine ⟨delivers.inside, by omega, call.strict, ?_⟩
          exact (later (by omega)).mpr rest
      · have negative := winGetdents_negative leftover converted
        constructor
        · rintro ⟨records, later, -, chain, -⟩
          have positive := chain.le
          omega
        · rintro ⟨call, -⟩
          exact absurd ⟨call.found, call.converts⟩ converted

end Runs

/-- The calls list a directory just as they should if each of them is one of
those described above. -/
theorem listing_iff
    (entries : List Entry) (leftover : Option Name) (names : List (Option Name))
    (requests : List Request) :
    (Lists osxGetdents (osxOpen entries).names [] (osxOpen entries) requests ↔
      OsxCalls (osxOpen entries) requests) ∧
    (Lists (winGetdents leftover) names [] (winOpen leftover names) requests ↔
      WinCalls leftover names (winOpen leftover names) requests) := by
  constructor
  · exact @osxLists_iff (osxOpen entries) requests 0 rfl (by decide)
  · have same : (winOpen leftover names).names = names := by
      cases names with
      | nil => rfl
      | cons found rest => rfl
    have lists := winLists_iff leftover (winOpen leftover names) [] requests
    rw [List.nil_append, same] at lists
    exact lists

/-- The name `abc`. -/
def threeLetters : Name where
  bytes := [97, 98, 99]
  plain := by decide
  bounded := by decide

/-- A record of the host has twelve bytes for three letters if the name begins
at the ninth; the record that is stored has sixteen.  On Windows a buffer of
sixteen bytes gets none. -/
theorem listing_threeLetters :
    ¬ Lists osxGetdents (osxOpen [⟨threeLetters, 12⟩]).names []
      (osxOpen [⟨threeLetters, 12⟩]) [⟨12, fun _ => 0⟩] ∧
    ¬ Lists (winGetdents none) [some threeLetters] []
      (winOpen none [some threeLetters]) [⟨16, fun _ => 0⟩] := by
  constructor
  · intro lists
    have calls := (@osxLists_iff (osxOpen [⟨threeLetters, 12⟩])
      [⟨12, fun _ => 0⟩] 0 rfl (by decide)).mp lists
    have fits : 0 + recordLength threeLetters ≤ 12 :=
      (calls.1.fits ⟨by decide, by decide⟩).1
    exact absurd fits (by decide)
  · intro lists
    have calls := (winLists_iff none (winOpen none [some threeLetters]) []
      [⟨16, fun _ => 0⟩]).mp lists
    exact calls.1.strict threeLetters rfl rfl

end NativeClient.HostDir
