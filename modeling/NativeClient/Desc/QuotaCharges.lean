import NativeClient.Desc.QuotaDescriptor

/-!
# What a write is charged for

The mutex keeps other writes and all seeks away between the moment at which a
write takes the file offset and the one at which it writes.  Reads move the
offset in between, and a file that was opened for appending is written at its
end: exactly there is the quota charged for another place.
-/

namespace NativeClient.Desc.Quota

open NativeClient.Library

variable {θ : Type}

/-- The range starts where the quota was asked for, and is no longer than the
amount that was granted. -/
def Written.Charged (range : Written) : Prop :=
  ∃ fileOffset granted, range.request = some (fileOffset, granted) ∧
    range.start = fileOffset ∧ range.bytes.length ≤ granted

def Charged (state : QuotaState θ) : Prop :=
  ∀ range ∈ state.written, range.Charged

/-- A write of some bytes finds the offset as it was measured: nobody has read
since, or, for a file that is appended to, the offset was the end. -/
def Undisturbed (state : QuotaState θ) : Event θ → Prop
  | .writeData thread (.done count) =>
      match state.threads thread with
      | .writeAllowed _ (some (fileOffset, _)) _ =>
          0 < count →
            if state.file.append then fileOffset = state.file.content.length
            else state.readSince = 0
      | _ => True
  | _ => True

namespace Phase

def Inside : Phase → Prop
  | .idle _ => False
  | _ => True

def measured : Phase → Option Nat
  | .writeMeasured _ fileOffset => some fileOffset
  | .writeAllowed _ request _ => request.map Prod.fst
  | _ => none

def Granted : Phase → Prop
  | .writeAllowed buf request allowed =>
      allowed ≤ buf.length ∧
        match request with
        | none => allowed = 0
        | some (_, granted) => allowed ≤ granted
  | _ => True

end Phase

/-- Only the thread that holds the mutex is inside of a call that takes it, and
since it measured the offset only reads have moved it. -/
structure Guarded (state : QuotaState θ) : Prop where
  held : ∀ thread, (state.threads thread).Inside → state.mu = some thread
  offset : ∀ thread fileOffset,
    (state.threads thread).measured = some fileOffset →
    state.file.offset = fileOffset + state.readSince
  granted : ∀ thread, (state.threads thread).Granted

theorem guarded_opened (file : HostFile) : Guarded (opened θ file) where
  held _ inside := inside.elim
  offset _ _ known := Option.noConfusion rfl (heq_of_eq known)
  granted _ := trivial

section

variable {state next : QuotaState θ} {thread : θ}

def Alone (state : QuotaState θ) (thread : θ) : Prop :=
  ∀ other ≠ thread, ¬ (state.threads other).Inside

theorem Guarded.alone
    (guarded : Guarded state) (inside : (state.threads thread).Inside) :
    Alone state thread := by
  intro other distinct otherInside
  have mine := guarded.held thread inside
  rw [guarded.held other otherInside] at mine
  exact distinct (Option.some.inj mine)

theorem Guarded.alone_of_free
    (guarded : Guarded state) (free : state.mu = none) :
    Alone state thread := by
  intro other _ inside
  rw [guarded.held other inside] at free
  cases free

variable [DecidableEq θ]

theorem Alone.guarded
    {phase : Phase} (alone : Alone state thread)
    (moved : next.threads = Function.update state.threads thread phase)
    (held : phase.Inside → next.mu = some thread)
    (offset : ∀ fileOffset, phase.measured = some fileOffset →
      next.file.offset = fileOffset + next.readSince)
    (granted : phase.Granted) : Guarded next := by
  have idle : ∀ other ≠ thread, ∃ result,
      next.threads other = .idle result := by
    intro other distinct
    have outside := alone other distinct
    rw [moved, Function.update_of_ne distinct]
    cases there : state.threads other with
    | idle result => exact ⟨result, rfl⟩
    | _ =>
        rw [there] at outside
        exact absurd trivial outside
  have mine : next.threads thread = phase := by
    rw [moved, Function.update_self]
  refine ⟨?_, ?_, ?_⟩
  · intro other inside
    by_cases same : other = thread
    · subst same
      exact held (mine ▸ inside)
    · obtain ⟨result, there⟩ := idle other same
      rw [there] at inside
      exact inside.elim
  · intro other fileOffset known
    by_cases same : other = thread
    · subst same
      exact offset fileOffset (mine ▸ known)
    · obtain ⟨result, there⟩ := idle other same
      rw [there] at known
      cases known
  · intro other
    by_cases same : other = thread
    · subst same
      exact mine ▸ granted
    · obtain ⟨result, there⟩ := idle other same
      rw [there]
      trivial

section

variable (guarded : Guarded state)

include guarded

theorem Guarded.lock
    {phase : Phase}
    (unmeasured : phase.measured = none) (granted : phase.Granted)
    (locked : state.lock thread phase = some next) :
    Guarded next ∧ next.written = state.written := by
  unfold QuotaState.lock at locked
  split at locked
  next free =>
    cases locked
    refine ⟨(guarded.alone_of_free free).guarded rfl (fun _ => rfl) ?_ granted,
      rfl⟩
    intro fileOffset known
    rw [unmeasured] at known
    cases known
  next => cases locked

theorem Guarded.leaves
    {phase : Phase}
    (inside : (state.threads thread).Inside)
    (moved : next.threads = Function.update state.threads thread phase)
    (held : phase.Inside → next.mu = state.mu)
    (unmeasured : phase.measured = none) (granted : phase.Granted) :
    Guarded next := by
  refine (guarded.alone inside).guarded moved ?_ ?_ granted
  · intro stays
    rw [held stays]
    exact guarded.held thread inside
  · intro fileOffset known
    rw [unmeasured] at known
    cases known

theorem Guarded.reads
    {before after : Int} {count : Nat}
    (there : state.threads thread = .idle before)
    (moved : next.threads = Function.update state.threads thread (.idle after))
    (held : next.mu = state.mu)
    (offset : next.file.offset = state.file.offset + count)
    (readSince : next.readSince = state.readSince + count) :
    Guarded next := by
  have others : ∀ other, next.threads other = .idle after ∨
      next.threads other = state.threads other := by
    intro other
    rw [moved]
    by_cases same : other = thread
    · subst same
      exact .inl (Function.update_self _ _ _)
    · exact .inr (Function.update_of_ne same _ _)
  refine ⟨?_, ?_, ?_⟩
  · intro other inside
    rcases others other with idle | same
    · rw [idle] at inside
      exact inside.elim
    · rw [held]
      exact guarded.held other (same ▸ inside)
  · intro other fileOffset known
    rcases others other with idle | same
    · rw [idle] at known
      cases known
    · have before := guarded.offset other fileOffset (same ▸ known)
      rw [offset, readSince, before, Nat.add_assoc]
  · intro other
    rcases others other with idle | same
    · rw [idle]
      trivial
    · exact same ▸ guarded.granted other

theorem Guarded.read
    {len : Nat} {answer : Answer}
    (stepped : naclDescQuotaRead state thread len answer = some next) :
    Guarded next ∧ next.written = state.written := by
  unfold naclDescQuotaRead at stepped
  split at stepped
  next result errno there =>
    cases stepped
    exact ⟨guarded.reads there rfl rfl (Nat.add_zero _).symm
      (Nat.add_zero _).symm, rfl⟩
  next result count there =>
    split at stepped
    next =>
      cases stepped
      exact ⟨guarded.reads there rfl rfl rfl rfl, rfl⟩
    next => cases stepped
  next => cases stepped

theorem Guarded.writeSeek
    {failed : Option Nat}
    (stepped : writeSeek state thread failed = some next) :
    Guarded next ∧ next.written = state.written := by
  unfold Quota.writeSeek at stepped
  split at stepped
  next buf there =>
    have inside : (state.threads thread).Inside := there ▸ trivial
    split at stepped
    next =>
      cases stepped
      exact ⟨guarded.leaves inside rfl (fun _ => rfl) rfl ⟨Nat.zero_le _, rfl⟩,
        rfl⟩
    next =>
      split at stepped
      next =>
        cases stepped
        exact ⟨guarded.leaves inside rfl (fun _ => rfl) rfl trivial, rfl⟩
      next =>
        cases stepped
        refine ⟨(guarded.alone inside).guarded rfl ?_ ?_ trivial, rfl⟩
        · exact fun _ => guarded.held thread inside
        · intro fileOffset known
          cases known
          rfl
  next => cases stepped

theorem Guarded.writeRequest
    {allowed : Int}
    (stepped : writeRequest state thread allowed = some next) :
    Guarded next ∧ next.written = state.written := by
  unfold Quota.writeRequest at stepped
  split at stepped
  next buf fileOffset there =>
    have inside : (state.threads thread).Inside := there ▸ trivial
    simp only at stepped
    split at stepped
    next =>
      cases stepped
      exact ⟨guarded.leaves inside rfl (fun _ => rfl) rfl trivial, rfl⟩
    next =>
      cases stepped
      refine ⟨(guarded.alone inside).guarded rfl ?_ ?_ ?_, rfl⟩
      · exact fun _ => guarded.held thread inside
      · intro same known
        cases known
        apply guarded.offset thread
        rw [there]
        rfl
      · exact ⟨by omega, Nat.min_le_left _ _⟩
  next => cases stepped

theorem Guarded.seekMove
    {failed : Option Nat}
    (stepped : seekMove state thread failed = some next) :
    Guarded next ∧ next.written = state.written := by
  unfold Quota.seekMove at stepped
  split at stepped
  next offset whence errno there =>
    have inside : (state.threads thread).Inside := there ▸ trivial
    cases stepped
    exact ⟨guarded.leaves inside rfl (fun _ => rfl) rfl trivial, rfl⟩
  next offset whence there =>
    have inside : (state.threads thread).Inside := there ▸ trivial
    obtain ⟨place, -, moved⟩ := Option.map_eq_some_iff.mp stepped
    subst moved
    exact ⟨guarded.leaves inside rfl (fun _ => rfl) rfl trivial, rfl⟩
  next => cases stepped

theorem Guarded.unlock
    (stepped : unlock state thread = some next) :
    Guarded next ∧ next.written = state.written := by
  unfold Quota.unlock at stepped
  split at stepped
  next result there =>
    have inside : (state.threads thread).Inside := there ▸ trivial
    cases stepped
    exact ⟨guarded.leaves inside rfl (fun stays => stays.elim) rfl trivial, rfl⟩
  next => cases stepped

end

omit [DecidableEq θ] in
theorem Guarded.charged_iff
    {buf : List UInt8} {request : Option (Nat × Nat)} {allowed count : Nat}
    (guarded : Guarded state)
    (there : state.threads thread = .writeAllowed buf request allowed)
    (within : count ≤ allowed) (some : 0 < count) :
    Written.Charged ⟨state.file.writePlace, buf.take count, request⟩ ↔
      Undisturbed state (.writeData thread (.done count)) := by
  have granted := guarded.granted thread
  have measured := guarded.offset thread
  simp only [Undisturbed]
  rw [there] at granted measured ⊢
  obtain ⟨short, granted⟩ := granted
  cases request with
  | none =>
      simp only at granted
      omega
  | some asked =>
      obtain ⟨fileOffset, grant⟩ := asked
      have offset := measured fileOffset rfl
      have length : (buf.take count).length = count :=
        List.length_take_of_le (by omega)
      unfold Written.Charged HostFile.writePlace
      simp only [Option.some.injEq, Prod.mk.injEq, some, forall_const]
      constructor
      · rintro ⟨_, _, ⟨rfl, rfl⟩, starts, -⟩
        split at starts
        next append =>
          rw [if_pos append]
          exact starts.symm
        next append =>
          rw [if_neg append]
          omega
      · intro undisturbed
        refine ⟨fileOffset, grant, ⟨rfl, rfl⟩, ?_, ?_⟩
        · split
          next append =>
            rw [if_pos append] at undisturbed
            exact undisturbed.symm
          next append =>
            rw [if_neg append] at undisturbed
            omega
        · rw [length]
          exact Nat.le_trans within granted

theorem Guarded.writeData
    {answer : Answer} (guarded : Guarded state)
    (stepped : writeData state thread answer = some next) :
    Guarded next ∧ (Charged state →
      (Charged next ↔ Undisturbed state (.writeData thread answer))) := by
  unfold Quota.writeData at stepped
  split at stepped
  next buf request allowed errno there =>
    have inside : (state.threads thread).Inside := there ▸ trivial
    cases stepped
    exact ⟨guarded.leaves inside rfl (fun _ => rfl) rfl trivial,
      fun charged => iff_of_true charged trivial⟩
  next buf request allowed count there =>
    have inside : (state.threads thread).Inside := there ▸ trivial
    split at stepped
    next within =>
      cases stepped
      refine ⟨guarded.leaves inside rfl (fun _ => rfl) rfl trivial,
        fun charged => ?_⟩
      have short : allowed ≤ buf.length := by
        have granted := guarded.granted thread
        rw [there] at granted
        exact granted.1
      unfold Charged QuotaState.go
      simp only
      rcases Nat.eq_zero_or_pos count with rfl | some
      · rw [List.take_zero, if_pos rfl]
        refine iff_of_true charged ?_
        simp only [Undisturbed]
        split
        next => exact fun none => absurd none (Nat.lt_irrefl 0)
        next => trivial
      · have anything : buf.take count ≠ [] := by
          intro nothing
          have length := List.length_take_of_le (Nat.le_trans within short)
          rw [nothing] at length
          exact absurd length (Nat.ne_of_lt some)
        rw [if_neg anything, List.forall_mem_cons,
          guarded.charged_iff there within some]
        exact and_iff_left charged
    next => cases stepped
  next => cases stepped

theorem Guarded.step
    {event : Event θ} (guarded : Guarded state)
    (stepped : step state event = some next) :
    Guarded next ∧
      (Charged state → (Charged next ↔ Undisturbed state event)) := by
  -- All steps but one leave the list of written ranges as it is.
  have unchanged (kept : Guarded next ∧ next.written = state.written)
      (trivially : Undisturbed state event) :
      Guarded next ∧
        (Charged state → (Charged next ↔ Undisturbed state event)) := by
    refine ⟨kept.1, fun charged => iff_of_true ?_ trivially⟩
    unfold Charged
    rw [kept.2]
    exact charged
  cases event with
  | read thread len answer => exact unchanged (guarded.read stepped) trivial
  | write thread buf =>
      simp only [Quota.step] at stepped
      split at stepped
      next =>
        have kept := guarded.lock rfl (by trivial) stepped
        exact unchanged kept trivial
      next => cases stepped
  | writeSeek thread failed =>
      exact unchanged (guarded.writeSeek stepped) trivial
  | writeRequest thread allowed =>
      exact unchanged (guarded.writeRequest stepped) trivial
  | writeData thread answer => exact guarded.writeData stepped
  | seek thread offset whence =>
      simp only [Quota.step] at stepped
      split at stepped
      next =>
        have kept := guarded.lock rfl (by trivial) stepped
        exact unchanged kept trivial
      next => cases stepped
  | seekMove thread failed =>
      exact unchanged (guarded.seekMove stepped) trivial
  | unlock thread => exact unchanged (guarded.unlock stepped) trivial

end

/-- In every run of the threads, all that was written was charged for at its
place exactly if every write found the offset as it was measured. -/
theorem quota_charged_iff
    [DecidableEq θ] (file : HostFile) (events : List (Event θ)) :
    Throughout step Charged (opened θ file) events ↔
      AllSteps step Undisturbed (opened θ file) events := by
  refine throughout_iff_allSteps ?_ ?_ (guarded_opened file) ?_
  · intro state event next guarded stepped
    exact (guarded.step stepped).1
  · intro state event next guarded charged stepped
    exact (guarded.step stepped).2 charged
  · exact fun range member => absurd member List.not_mem_nil

def readBetween : List (Event Bool) :=
  [.write false [1, 2], .writeSeek false none, .writeRequest false 2,
    .read true 2 (.done 2), .writeData false (.done 2)]

theorem readBetween_charged_elsewhere :
    ¬ Throughout step Charged
      (opened Bool ⟨[0, 0, 0, 0], 0, false⟩) readBetween := by
  intro through
  obtain ⟨fileOffset, granted, request, starts, -⟩ :=
    through.last rfl ⟨2, [1, 2], some (0, 2)⟩ List.mem_cons_self
  cases request
  cases starts

end NativeClient.Desc.Quota
