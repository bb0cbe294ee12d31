import NativeClient.HostDir.Dirent
import NativeClient.Library.Loop
import Mathlib.Logic.Function.Iterate

/-!
# The inode numbers of the host

On Linux the records of the host are left in the buffer of the user, and only
their inode numbers are overwritten.  The loop finds the next record by a
length that it reads from that buffer, which untrusted code may change between
any two accesses.
-/

namespace NativeClient.HostDir

open NativeClient.Library

/-- The variable `i`, the number of turns before this one, the buffer, and
where the loop has written inode numbers and read lengths. -/
structure Scrub where
  offset : Nat
  turns : Nat
  memory : Buffer
  writes : List Nat
  reads : List Nat

section Loop

variable (retval : Nat) (interfere : Nat → Buffer → Buffer)

def Scrub.write (state : Scrub) : Scrub :=
  let entered := interfere (2 * state.turns) state.memory
  if state.offset + 4 ≤ retval then
    { state with
      memory := (inodeStore state.offset).apply entered
      writes := state.writes ++ [state.offset] }
  else
    { state with memory := entered }

/-- `i += p->nacl_abi_d_reclen`, before any conversion to an `int`. -/
def Scrub.advance (state : Scrub) : Scrub :=
  let seen := interfere (2 * state.turns + 1) state.memory
  { state with
    offset := state.offset + word16 seen (state.offset + reclenOffset)
    turns := state.turns + 1
    memory := seen
    reads := state.reads ++ [state.offset + reclenOffset] }

def Scrub.next (state : Scrub) : Scrub :=
  (state.write retval interfere).advance interfere

/-- One turn; `interfere` is what untrusted code does to the buffer before
each access.  To exceed an `int` has no result. -/
def scrubTurn (state : Scrub) : Turn Scrub (Option Scrub) :=
  if state.offset < retval then
    if (state.next retval interfere).offset < 2 ^ 31 then
      .again (state.next retval interfere)
    else
      .leave none
  else
    .leave (some state)

def scrubStart (memory : Buffer) : Scrub where
  offset := 0
  turns := 0
  memory := memory
  writes := []
  reads := []

/-- The loop ends, and all its accesses are inside of `retval` bytes. -/
def Survives (memory : Buffer) : Prop :=
  ∃ final, Returns (scrubTurn retval interfere) (scrubStart memory)
      (some final) ∧
    (∀ offset ∈ final.writes, offset + 4 ≤ retval) ∧
    ∀ offset ∈ final.reads, offset + 2 ≤ retval

def lengthsShown (memory : Buffer) (turns : Nat) : Nat :=
  ((Scrub.next retval interfere)^[turns] (scrubStart memory)).offset

/-- The lengths that the loop is shown reach the end of the records, and leave
a whole header before. -/
def Covered (memory : Buffer) : Prop :=
  ∃ turns, retval ≤ lengthsShown retval interfere memory turns ∧
    lengthsShown retval interfere memory turns < 2 ^ 31 ∧
    ∀ earlier < turns,
      lengthsShown retval interfere memory earlier + reclenOffset + 2 ≤ retval

end Loop

section Host

/-- The records that the host has left from `offset` to `stop`, by their
starts.  In front of a length are an inode number and an offset of the width
of an `unsigned long`, behind it is a name. -/
inductive HostRecords (width : Nat) (memory : Buffer) :
    Nat → Nat → List Nat → Prop where
  | none (stop : Nat) : HostRecords width memory stop stop []
  | record {offset stop length : Nat} {starts : List Nat}
      (shown : word16 memory (offset + 2 * width) = length)
      (named : 2 * width + 2 < length)
      (rest : HostRecords width memory (offset + length) stop starts) :
      HostRecords width memory offset stop (offset :: starts)

/-- In every result of the host, the loop replaces the inode numbers and
changes no other byte. -/
def ScrubsExactly (width : Nat) : Prop :=
  ∀ (retval : Nat) (memory : Buffer) (starts : List Nat),
    0 < retval → retval < 2 ^ 31 →
    HostRecords width memory 0 retval starts →
    ∃ final, Returns (scrubTurn retval fun _ seen => seen)
        (scrubStart memory) (some final) ∧
      (∀ start ∈ starts, ∀ index < width,
        final.memory (start + index) =
          (littleEndian width naclInode).getD index 0) ∧
      ∀ address, (∀ start ∈ starts,
          address < start ∨ start + width ≤ address) →
        final.memory address = memory address

end Host

section Runs

variable {retval : Nat} {interfere : Nat → Buffer → Buffer} {memory : Buffer}

theorem Scrub.next_reads (state : Scrub) :
    (state.next retval interfere).reads =
      state.reads ++ [state.offset + reclenOffset] := by
  unfold Scrub.next Scrub.advance Scrub.write
  dsimp only
  split
  next => rfl
  next => rfl

theorem Scrub.next_writes (state : Scrub) :
    ∀ offset ∈ (state.next retval interfere).writes,
      offset ∈ state.writes ∨ offset + 4 ≤ retval := by
  intro offset member
  unfold Scrub.next Scrub.advance Scrub.write at member
  dsimp only at member
  split at member
  next fits =>
    rcases List.mem_append.mp member with before | now
    · exact .inl before
    · cases List.mem_singleton.mp now
      exact .inr fits
  next => exact .inl member

theorem iterate_reads (state : Scrub) (turns : Nat) :
    ((Scrub.next retval interfere)^[turns] state).reads =
      state.reads ++ (List.range turns).map fun earlier =>
        ((Scrub.next retval interfere)^[earlier] state).offset +
          reclenOffset := by
  induction turns with
  | zero => simp
  | succ turns ih =>
      rw [Function.iterate_succ_apply', Scrub.next_reads, ih,
        List.range_succ, List.map_append, List.append_assoc]
      rfl

theorem iterate_writes
    {state : Scrub} (inside : ∀ offset ∈ state.writes, offset + 4 ≤ retval)
    (turns : Nat) :
    ∀ offset ∈ ((Scrub.next retval interfere)^[turns] state).writes,
      offset + 4 ≤ retval := by
  induction turns with
  | zero => exact inside
  | succ turns ih =>
      intro offset member
      rw [Function.iterate_succ_apply'] at member
      rcases Scrub.next_writes _ offset member with before | now
      · exact ih offset before
      · exact now

theorem turns_of_runLoop
    {fuel : Nat} {state final : Scrub} (small : state.offset < 2 ^ 31)
    (ran : runLoop (scrubTurn retval interfere) fuel state =
      some (some final)) :
    ∃ turns, final = (Scrub.next retval interfere)^[turns] state ∧
      retval ≤ final.offset ∧ final.offset < 2 ^ 31 := by
  induction fuel generalizing state with
  | zero => cases ran
  | succ fuel ih =>
      rw [runLoop, scrubTurn] at ran
      by_cases inside : state.offset < retval
      · rw [if_pos inside] at ran
        by_cases counted : (state.next retval interfere).offset < 2 ^ 31
        · rw [if_pos counted] at ran
          obtain ⟨turns, rfl, reached⟩ := ih counted ran
          exact ⟨turns + 1, rfl, reached⟩
        · rw [if_neg counted] at ran
          cases ran
      · rw [if_neg inside] at ran
        cases ran
        exact ⟨0, rfl, Nat.not_lt.mp inside, small⟩

theorem returns_of_turns
    {turns : Nat} {state : Scrub}
    (reached : retval ≤
      ((Scrub.next retval interfere)^[turns] state).offset)
    (small : ((Scrub.next retval interfere)^[turns] state).offset < 2 ^ 31)
    (inside : ∀ earlier < turns,
      ((Scrub.next retval interfere)^[earlier] state).offset < retval)
    (counted : retval < 2 ^ 31) :
    Returns (scrubTurn retval interfere) state
      (some ((Scrub.next retval interfere)^[turns] state)) := by
  induction turns generalizing state with
  | zero =>
      apply (returns_leave _).mpr rfl
      have past : ¬ state.offset < retval := Nat.not_lt.mpr reached
      rw [scrubTurn, if_neg past]
      rfl
  | succ turns ih =>
      have next : (state.next retval interfere).offset < 2 ^ 31 := by
        cases turns with
        | zero => exact small
        | succ turns =>
            have before := inside 1 (by omega)
            exact Nat.lt_trans before counted
      have here : state.offset < retval := inside 0 (by omega)
      have action : scrubTurn retval interfere state =
          .again (state.next retval interfere) := by
        rw [scrubTurn, if_pos here, if_pos next]
      rw [returns_again action]
      exact ih reached small fun earlier less =>
        inside (earlier + 1) (by omega)

theorem survives_iff
    (counted : retval < 2 ^ 31) (interfere : Nat → Buffer → Buffer)
    (memory : Buffer) :
    Survives retval interfere memory ↔ Covered retval interfere memory := by
  constructor
  · rintro ⟨final, ⟨fuel, ran⟩, -, reads⟩
    obtain ⟨turns, rfl, reached, small⟩ := turns_of_runLoop
      (show (scrubStart memory).offset < 2 ^ 31 from Nat.two_pow_pos 31) ran
    refine ⟨turns, reached, small, ?_⟩
    intro earlier less
    apply reads
    rw [iterate_reads]
    apply List.mem_append_right
    exact List.mem_map.mpr ⟨earlier, List.mem_range.mpr less, rfl⟩
  · rintro ⟨turns, reached, small, headers⟩
    refine ⟨_, returns_of_turns reached small ?_ counted, ?_, ?_⟩
    · intro earlier less
      have header := headers earlier less
      unfold lengthsShown at header
      omega
    · exact iterate_writes (fun offset none' => by cases none') turns
    · intro offset member
      rw [iterate_reads] at member
      rcases List.mem_append.mp member with none' | shown
      · cases none'
      · obtain ⟨earlier, ranged, rfl⟩ := List.mem_map.mp shown
        exact headers earlier (List.mem_range.mp ranged)

theorem not_survives_zeros (positive : 0 < retval) (memory : Buffer) :
    ¬ Survives retval (fun _ _ _ => 0) memory := by
  rintro ⟨final, returned, -⟩
  refine not_returns_of_invariant (fun state => state.offset = 0) ?_ rfl
    returned
  intro state here
  have stays : (state.next retval fun _ _ _ => 0).offset = 0 := by
    unfold Scrub.next Scrub.advance Scrub.write
    dsimp only
    split
    next => exact here
    next => exact here
  refine ⟨state.next retval fun _ _ _ => 0, ?_, stays⟩
  rw [scrubTurn, if_pos (by omega), if_pos (by omega)]

end Runs

section Undisturbed

variable {retval stop : Nat} {memory : Buffer} {starts : List Nat}

theorem HostRecords.starts_ge
    {width offset : Nat}
    (records : HostRecords width memory offset stop starts) :
    offset ≤ stop ∧ ∀ start ∈ starts, offset ≤ start := by
  induction records with
  | none stop => exact ⟨Nat.le_refl _, nofun⟩
  | @record offset stop length starts shown named rest ih =>
      refine ⟨by omega, ?_⟩
      intro start member
      rcases List.mem_cons.mp member with rfl | later
      · exact Nat.le_refl _
      · have above := ih.2 start later
        omega

structure Scrubbed (starts : List Nat) (memory final : Buffer) : Prop where
  inodes : ∀ start ∈ starts, ∀ index < 4,
    final (start + index) = (littleEndian 4 naclInode).getD index 0
  others : ∀ address,
    (∀ start ∈ starts, address < start ∨ start + 4 ≤ address) →
      final address = memory address

theorem next_record
    {state : Scrub} {length : Nat}
    (shown : word16 state.memory (state.offset + 2 * 4) = length)
    (fits : state.offset + 4 ≤ retval) :
    (state.next retval fun _ seen => seen).offset = state.offset + length ∧
      (state.next retval fun _ seen => seen).memory =
        (inodeStore state.offset).apply state.memory := by
  have outside : ∀ address, state.offset + 4 ≤ address →
      (inodeStore state.offset).apply state.memory address =
        state.memory address := by
    intro address above
    apply Store.apply_outside
    intro covered
    have below := (inodeStore_covers.mp covered).2
    omega
  have same : word16 ((inodeStore state.offset).apply state.memory)
      (state.offset + reclenOffset) = length := by
    rw [← shown]
    exact word16_congr (outside _ (by unfold reclenOffset; omega))
      (outside _ (by unfold reclenOffset; omega))
  unfold Scrub.next Scrub.advance Scrub.write
  dsimp only
  rw [if_pos fits]
  exact ⟨congrArg (state.offset + ·) same, rfl⟩

theorem scrubs_records
    (counted : retval < 2 ^ 31) {offset : Nat}
    (records : HostRecords 4 memory offset retval starts)
    {state : Scrub} (here : state.offset = offset)
    (ahead : ∀ address, offset ≤ address →
      state.memory address = memory address) :
    ∃ final, Returns (scrubTurn retval fun _ seen => seen) state
        (some final) ∧ Scrubbed starts state.memory final.memory := by
  generalize ends : retval = stop at records
  induction records generalizing state with
  | none =>
      subst ends here
      refine ⟨state, (returns_leave ?_).mpr rfl, nofun, fun _ _ => rfl⟩
      rw [scrubTurn, if_neg (Nat.lt_irrefl _)]
  | @record offset stop length starts shown named rest ih =>
      subst ends here
      have beyond := rest.starts_ge
      have length_eq : word16 state.memory (state.offset + 2 * 4) = length := by
        rw [← shown]
        exact word16_congr (ahead _ (by omega)) (ahead _ (by omega))
      obtain ⟨moved, stored⟩ := @next_record retval _ _ length_eq (by omega)
      have action : scrubTurn retval (fun _ seen => seen) state =
          .again (state.next retval fun _ seen => seen) := by
        rw [scrubTurn, if_pos (by omega), if_pos (by omega)]
      have kept : ∀ address, state.offset + 4 ≤ address →
          (inodeStore state.offset).apply state.memory address =
            state.memory address := by
        intro address above
        apply Store.apply_outside
        intro covered
        have below := (inodeStore_covers.mp covered).2
        omega
      obtain ⟨final, returned, inodes, others⟩ := ih moved (by
        intro address above
        rw [stored, kept address (by omega)]
        exact ahead address (by omega)) rfl
      rw [stored] at others
      refine ⟨final, (returns_again action).mpr returned, ?_, ?_⟩
      · intro start member index inside
        rcases List.mem_cons.mp member with rfl | later
        · -- The records behind this one leave its inode number alone.
          rw [others, Store.apply_inside]
          · have same : state.offset + index - (inodeStore state.offset).address =
                index := Nat.add_sub_cancel_left _ _
            rw [same]
            rfl
          · exact inodeStore_covers.mpr ⟨by omega, by omega⟩
          · intro start member
            have above := beyond.2 start member
            omega
        · exact inodes start later index inside
      · intro address outside
        rw [others address fun start member =>
          outside start (List.mem_cons_of_mem _ member)]
        apply Store.apply_outside
        intro covered
        obtain ⟨above, below⟩ := inodeStore_covers.mp covered
        rcases outside state.offset List.mem_cons_self with lower | upper
        · omega
        · omega

theorem scrubsExactly_four : ScrubsExactly 4 := by
  intro retval memory starts positive counted records
  obtain ⟨final, returned, inodes, others⟩ := scrubs_records counted records
    (show (scrubStart memory).offset = 0 from rfl) fun _ _ => rfl
  exact ⟨final, returned, inodes, others⟩

def wideRecord : Buffer := fun address => if address = 16 then 24 else 0

theorem hostRecords_wideRecord : HostRecords 8 wideRecord 0 24 [0] :=
  .record rfl (by decide) (.none 24)

theorem not_scrubsExactly_eight : ¬ ScrubsExactly 8 := by
  intro exactly
  obtain ⟨final, returned, -⟩ := exactly 24 wideRecord [0] (by decide)
    (by decide) hostRecords_wideRecord
  refine not_returns_of_invariant
    (fun state => state.offset = 0 ∧ word16 state.memory 8 = 0) ?_
    ⟨rfl, rfl⟩ returned
  rintro state ⟨here, zero⟩
  obtain ⟨moved, stored⟩ := @next_record 24 state 0
    (by rw [here]; exact zero) (by omega)
  refine ⟨state.next 24 fun _ seen => seen, ?_, ?_, ?_⟩
  · rw [scrubTurn, if_pos (by omega), if_pos (by omega)]
  · omega
  · have kept : word16 ((inodeStore 0).apply state.memory) 8 =
        word16 state.memory 8 := by
      apply word16_congr
      · exact Store.apply_outside fun covered =>
          absurd (inodeStore_covers.mp covered).2 (by decide)
      · exact Store.apply_outside fun covered =>
          absurd (inodeStore_covers.mp covered).2 (by decide)
    rw [stored, here, kept]
    exact zero

end Undisturbed

/-- For no result of the host does the loop survive every buffer; it survives
the one at hand if the lengths that it is shown cover the records.  What is
undisturbed is scrubbed exactly on hosts with an `unsigned long` of 32 bits. -/
theorem scrubbing_iff
    {retval : Nat} (positive : 0 < retval) (counted : retval < 2 ^ 31)
    {width : Nat} (widths : width = 4 ∨ width = 8) :
    (∀ memory, ¬ ∀ interfere, Survives retval interfere memory) ∧
      (∀ interfere memory, Survives retval interfere memory ↔
        Covered retval interfere memory) ∧
      (ScrubsExactly width ↔ width = 4) := by
  refine ⟨?_, survives_iff counted, ?_⟩
  · intro memory survives
    exact not_survives_zeros positive memory (survives _)
  · rcases widths with rfl | rfl
    · exact iff_of_true scrubsExactly_four rfl
    · exact iff_of_false not_scrubsExactly_eight (by decide)

theorem scrubbing_iff_oneRecord :
    0 < 24 ∧ Survives 24 (fun _ seen => seen) (fun address =>
      if address = 8 then 24 else 0) :=
  ⟨by decide, ((scrubbing_iff (by decide : 0 < 24) (by decide)
    (.inl rfl : (4 : Nat) = 4 ∨ 4 = 8)).2.1 _ _).mpr
      ⟨1, by decide, by decide, by decide⟩⟩

/-- A length of zero keeps the loop where it is. -/
theorem zeroLength_forever :
    ¬ Survives 24 (fun _ _ _ => 0) (fun address =>
      if address = 8 then 24 else 0) :=
  not_survives_zeros (by decide) _

end NativeClient.HostDir
