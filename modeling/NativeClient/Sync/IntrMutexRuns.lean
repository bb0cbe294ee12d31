import NativeClient.Sync.IntrMutex

/-!
# Runs of the interruptible mutex

The mutex keeps its promises as long as nobody unlocks it, or comes back from a
signalled wait, while it is interrupted, and no interrupt hits it between an
unlock and the moment when the sleeper that was woken takes it.
-/

namespace NativeClient.Sync

open NativeClient.Library

variable {mutex : IntrMutex} {thread : Nat}

structure Invariant (mutex : IntrMutex) : Prop where
  sound : Sound mutex
  taken : ∀ thread, (mutex.threads thread).Believes → mutex.lockState ≠ .free
  agrees : mutex.intr = false → mutex.lockState ≠ .interrupted
  parked : ∀ sleeper ∈ mutex.sleepers, (mutex.threads sleeper).Parked
  nodup : mutex.sleepers.Nodup

section Threads

theorem threads_go (next : Local) :
    (mutex.go thread next).threads thread = next :=
  Function.update_self _ _ _

theorem threads_go_of_ne
    {other : Nat} (distinct : other ≠ thread) (next : Local) :
    (mutex.go thread next).threads other = mutex.threads other :=
  Function.update_of_ne distinct _ _

def Alone (mutex : IntrMutex) (thread : Nat) : Prop :=
  ∀ other ≠ thread, ¬ (mutex.threads other).Believes

theorem Invariant.alone
    (inv : Invariant mutex) (believes : (mutex.threads thread).Believes) :
    Alone mutex thread := by
  intro other distinct otherBelieves
  exact distinct (inv.sound.one other thread otherBelieves believes)

theorem Invariant.alone_of_free
    (inv : Invariant mutex) (free : mutex.lockState = .free) :
    Alone mutex thread := by
  intro other _ believes
  exact inv.taken other believes free

theorem Alone.one
    (alone : Alone mutex thread) (next : Local) :
    ∀ first second, ((mutex.go thread next).threads first).Believes →
      ((mutex.go thread next).threads second).Believes → first = second := by
  have only (other : Nat)
      (believes : ((mutex.go thread next).threads other).Believes) :
      other = thread := by
    by_contra distinct
    rw [threads_go_of_ne distinct] at believes
    exact alone other distinct believes
  intro first second firstBelieves secondBelieves
  rw [only first firstBelieves, only second secondBelieves]

theorem one_go
    (one : ∀ first second, (mutex.threads first).Believes →
      (mutex.threads second).Believes → first = second)
    {next : Local} (less : next.Believes → (mutex.threads thread).Believes) :
    ∀ first second, ((mutex.go thread next).threads first).Believes →
      ((mutex.go thread next).threads second).Believes → first = second := by
  have before (other : Nat)
      (believes : ((mutex.go thread next).threads other).Believes) :
      (mutex.threads other).Believes := by
    by_cases same : other = thread
    · subst same
      rw [threads_go] at believes
      exact less believes
    · rwa [threads_go_of_ne same] at believes
  intro first second firstBelieves secondBelieves
  exact one first second (before first firstBelieves)
    (before second secondBelieves)

end Threads

section Moves

theorem parked_go
    (inv : Invariant mutex) (awake : thread ∉ mutex.sleepers) (next : Local) :
    ∀ sleeper ∈ mutex.sleepers,
      ((mutex.go thread next).threads sleeper).Parked := by
  intro sleeper asleep
  have distinct : sleeper ≠ thread := by
    rintro rfl
    exact awake asleep
  rw [threads_go_of_ne distinct]
  exact inv.parked sleeper asleep

theorem Invariant.sleeps
    (inv : Invariant mutex) (held : mutex.lockState = .held)
    (awake : thread ∉ mutex.sleepers) {next : Local} (parked : next.Parked)
    (less : next.Believes → (mutex.threads thread).Believes) :
    Invariant (mutex.sleep thread next) := by
  have state : (mutex.sleep thread next).lockState = .held := held
  refine ⟨⟨one_go inv.sound.one less, inv.sound.stays, ?_, ?_⟩,
    fun _ _ => ?_, inv.agrees, ?_, ?_⟩
  · simp [state]
  · simp [state]
  · simp [state]
  · intro sleeper asleep
    rcases List.mem_append.mp asleep with old | new
    · exact parked_go inv awake next sleeper old
    · obtain rfl := List.mem_singleton.mp new
      exact (threads_go next).symm ▸ parked
  · exact List.nodup_append.mpr ⟨inv.nodup, List.nodup_singleton _,
      fun sleeper asleep other new same =>
        awake (List.mem_singleton.mp new ▸ same ▸ asleep)⟩

theorem Invariant.takes
    (inv : Invariant mutex) (free : mutex.lockState = .free)
    (awake : thread ∉ mutex.sleepers) (next : Local) :
    Invariant (IntrMutex.go { mutex with lockState := .held } thread next) := by
  have uninterrupted : mutex.intr ≠ true := by
    intro intr
    exact LockState.noConfusion ((inv.sound.stays intr).symm.trans free)
  refine ⟨⟨Alone.one (inv.alone_of_free free) next,
      fun intr => absurd intr uninterrupted, ?_, ?_⟩,
    fun _ _ => ?_, fun _ => ?_, parked_go inv awake next, inv.nodup⟩ <;>
    simp [IntrMutex.go]

theorem Invariant.moves
    (inv : Invariant mutex) (taken : mutex.lockState ≠ .free)
    (awake : thread ∉ mutex.sleepers) {next : Local}
    (less : next.Believes → (mutex.threads thread).Believes) :
    Invariant (mutex.go thread next) :=
  ⟨⟨one_go inv.sound.one less, inv.sound.stays, inv.sound.interrupted,
      fun free => absurd free taken⟩,
    fun _ _ => taken, inv.agrees, parked_go inv awake next, inv.nodup⟩

theorem Invariant.releases
    (inv : Invariant mutex) (held : mutex.lockState = .held)
    (alone : Alone mutex thread) (running : ¬ (mutex.threads thread).Parked)
    (choice : Nat) {next : Local} (gone : ¬ next.Believes) :
    Invariant ((mutex.release choice).go thread next) := by
  have awake : thread ∉ mutex.sleepers :=
    fun asleep => running (inv.parked thread asleep)
  have uninterrupted : mutex.intr ≠ true := by
    intro intr
    exact LockState.noConfusion ((inv.sound.stays intr).symm.trans held)
  refine ⟨⟨Alone.one alone next, fun intr => absurd intr uninterrupted, ?_, ?_⟩,
    ?_, fun _ => ?_, ?_, signal_nodup inv.nodup choice⟩
  · exact fun state => LockState.noConfusion state
  · intro _ left
    have anybody : mutex.sleepers ≠ [] := by
      rintro none
      exact left (by simp [IntrMutex.release, IntrMutex.go, signal, none])
    obtain ⟨woken, asleep, signalled⟩ :
        ∃ woken ∈ mutex.sleepers, woken ∉ signal mutex.sleepers choice :=
      exists_signalled inv.nodup anybody
    exact ⟨woken, parked_go inv awake next woken asleep, signalled⟩
  · intro other believes
    by_cases same : other = thread
    · subst same
      rw [threads_go] at believes
      exact absurd believes gone
    · rw [threads_go_of_ne same] at believes
      exact absurd believes (alone other same)
  · exact fun state => LockState.noConfusion state
  · intro sleeper asleep
    exact parked_go inv awake next sleeper (mem_of_mem_signal asleep)

end Moves

section Actions

theorem act_cases
    (parked : ∀ sleeper ∈ mutex.sleepers, (mutex.threads sleeper).Parked)
    {action : Action} {result : Response × IntrMutex}
    (acted : act mutex thread action = some result) :
    (∃ believes, (action = .lock ∨ action = .wake) ∧
      (believes = true → (mutex.threads thread).Believes) ∧
      thread ∉ mutex.sleepers ∧ result = takeLock mutex thread believes) ∨
    (action = .tryLock ∧ thread ∉ mutex.sleepers ∧
      result = tryLock mutex thread) ∨
    (∃ choice, action = .unlock choice ∧ result = unlock mutex thread choice) ∨
    (∃ choice, action = .wait choice ∧ ¬ (mutex.threads thread).Parked ∧
      result = beginWait mutex thread choice) ∨
    (∃ status, (action = .waitEnds status ∨
        action = .wake ∧ mutex.threads thread = .retaking status) ∧
      thread ∉ mutex.sleepers ∧ result = retakeLock mutex thread status) ∨
    (action = .spurious ∧
      result = (.pending,
        { mutex with sleepers := mutex.sleepers.erase thread })) ∨
    (action = .interrupt ∧ result = (.returned .ok, interrupt mutex)) ∨
    (action = .reset ∧ result = reset mutex) := by
  have awake (running : ¬ (mutex.threads thread).Parked) :
      thread ∉ mutex.sleepers :=
    fun asleep => running (parked thread asleep)
  unfold act at acted
  split at acted
  · next place =>
      rw [place] at awake
      exact .inl ⟨false, .inl rfl, nofun, awake id, (Option.some.inj acted).symm⟩
  · next place =>
      rw [place] at awake
      exact .inl ⟨true, .inl rfl, fun _ => place ▸ trivial, awake id,
        (Option.some.inj acted).symm⟩
  · next place =>
      rw [place] at awake
      exact .inr (.inl ⟨rfl, awake id, (Option.some.inj acted).symm⟩)
  · next place =>
      rw [place] at awake
      exact .inr (.inl ⟨rfl, awake id, (Option.some.inj acted).symm⟩)
  · exact .inr (.inr (.inl ⟨_, rfl, (Option.some.inj acted).symm⟩))
  · exact .inr (.inr (.inl ⟨_, rfl, (Option.some.inj acted).symm⟩))
  · next place =>
      exact .inr (.inr (.inr (.inl ⟨_, rfl, place ▸ id,
        (Option.some.inj acted).symm⟩)))
  · next place =>
      exact .inr (.inr (.inr (.inl ⟨_, rfl, place ▸ id,
        (Option.some.inj acted).symm⟩)))
  · next place =>
      rw [place] at awake
      exact .inr (.inr (.inr (.inr (.inl ⟨_, .inl rfl, awake id,
        (Option.some.inj acted).symm⟩))))
  · next believes place =>
      split at acted
      · exact absurd acted nofun
      · next woken =>
          exact .inl ⟨believes, .inr rfl, fun claims => place ▸ claims, woken,
            (Option.some.inj acted).symm⟩
  · next status place =>
      split at acted
      · exact absurd acted nofun
      · next woken =>
          exact .inr (.inr (.inr (.inr (.inl ⟨status, .inr ⟨rfl, place⟩, woken,
            (Option.some.inj acted).symm⟩))))
  · exact .inr (.inr (.inr (.inr (.inr (.inl
      ⟨rfl, (Option.some.inj acted).symm⟩)))))
  · exact .inr (.inr (.inr (.inr (.inr (.inr (.inl
      ⟨rfl, (Option.some.inj acted).symm⟩))))))
  · exact .inr (.inr (.inr (.inr (.inr (.inr (.inr
      ⟨rfl, (Option.some.inj acted).symm⟩))))))
  · exact absurd acted nofun

def Returns (mutex : IntrMutex) (response : Response) : Prop :=
  response ≠ .fatal ∧ (mutex.intr = true → response ≠ .returned .ok)

variable (inv : Invariant mutex)

include inv

theorem takeLock_keeps
    {believes : Bool}
    (claims : believes = true → (mutex.threads thread).Believes)
    (awake : thread ∉ mutex.sleepers) :
    Returns mutex (takeLock mutex thread believes).1 ∧
      Invariant (takeLock mutex thread believes).2 := by
  unfold takeLock
  split
  · next held =>
      exact ⟨⟨nofun, nofun⟩, inv.sleeps held awake trivial claims⟩
  · next free =>
      refine ⟨⟨nofun, fun intr => ?_⟩, inv.takes free awake .holding⟩
      exact LockState.noConfusion ((inv.sound.stays intr).symm.trans free)
  · next interrupted =>
      refine ⟨⟨nofun, nofun⟩, inv.moves (by simp [interrupted]) awake ?_⟩
      intro stays
      apply claims
      by_contra doubts
      simp [doubts, Local.Believes] at stays

theorem retakeLock_keeps
    {status : SyncStatus}
    (proper : mutex.lockState = .interrupted → status ≠ .ok)
    (awake : thread ∉ mutex.sleepers) :
    Returns mutex (retakeLock mutex thread status).1 ∧
      Invariant (retakeLock mutex thread status).2 := by
  unfold retakeLock
  split
  · next held =>
      exact ⟨⟨nofun, nofun⟩, inv.sleeps held awake trivial nofun⟩
  · next free =>
      refine ⟨⟨nofun, fun intr => ?_⟩, inv.takes free awake _⟩
      exact LockState.noConfusion ((inv.sound.stays intr).symm.trans free)
  · next interrupted =>
      have failed := proper interrupted
      refine ⟨⟨nofun, fun _ => by simpa using failed⟩,
        inv.moves (by simp [interrupted]) awake ?_⟩
      rw [if_neg failed]
      exact nofun

theorem tryLock_keeps
    (awake : thread ∉ mutex.sleepers) :
    Returns mutex (tryLock mutex thread).1 ∧
      Invariant (tryLock mutex thread).2 := by
  unfold tryLock
  split
  · next free =>
      refine ⟨⟨nofun, fun intr => ?_⟩, inv.takes free awake .holding⟩
      exact LockState.noConfusion ((inv.sound.stays intr).symm.trans free)
  · exact ⟨⟨nofun, nofun⟩, inv⟩
  · exact ⟨⟨nofun, nofun⟩, inv⟩

theorem beginWait_keeps
    (running : ¬ (mutex.threads thread).Parked)
    (alone : mutex.lockState = .held → Alone mutex thread) (choice : Nat) :
    Returns mutex (beginWait mutex thread choice).1 ∧
      Invariant (beginWait mutex thread choice).2 := by
  unfold beginWait
  split
  · exact ⟨⟨nofun, nofun⟩, inv⟩
  · exact ⟨⟨nofun, nofun⟩, inv⟩
  · next held =>
      exact ⟨⟨nofun, nofun⟩, inv.releases held (alone held) running choice id⟩

theorem unlock_keeps
    (holding : mutex.threads thread = .holding)
    (uninterrupted : mutex.lockState ≠ .interrupted) (choice : Nat) :
    Invariant (unlock mutex thread choice).2 := by
  have believes : (mutex.threads thread).Believes := holding ▸ trivial
  have held : mutex.lockState = .held := by
    cases state : mutex.lockState with
    | free => exact absurd state (inv.taken thread believes)
    | held => rfl
    | interrupted => exact absurd state uninterrupted
  exact inv.releases held (inv.alone believes) (holding ▸ id) choice id

theorem spurious_keeps :
    Invariant { mutex with sleepers := mutex.sleepers.erase thread } := by
  refine ⟨⟨inv.sound.one, inv.sound.stays, ?_, ?_⟩, inv.taken, inv.agrees,
    fun sleeper asleep => inv.parked sleeper (List.mem_of_mem_erase asleep),
    inv.nodup.erase thread⟩
  · intro interrupted
    simp [inv.sound.interrupted interrupted]
  · intro free left
    by_cases asleep : thread ∈ mutex.sleepers
    · exact ⟨thread, inv.parked thread asleep, inv.nodup.not_mem_erase⟩
    · have same : mutex.sleepers.erase thread = mutex.sleepers :=
        List.erase_of_not_mem asleep
      rw [same] at left ⊢
      exact inv.sound.free free left

theorem interrupt_keeps
    (proper : mutex.lockState = .free → mutex.sleepers = []) :
    Invariant (interrupt mutex) := by
  have woken : (interrupt mutex).sleepers = [] := by
    cases state : mutex.lockState with
    | free => simp [interrupt, state, proper state]
    | held => simp [interrupt, state]
    | interrupted => simp [interrupt, state, inv.sound.interrupted state]
  refine ⟨⟨inv.sound.one, fun _ => rfl, fun _ => woken, nofun⟩,
    fun _ _ => nofun, nofun, ?_, ?_⟩
  · rw [woken]
    exact nofun
  · rw [woken]
    exact List.nodup_nil

theorem reset_keeps
    (intr : mutex.intr = true)
    (quiescent : ∀ thread, mutex.threads thread = .outside) :
    (reset mutex).1 ≠ .fatal ∧ Invariant (reset mutex).2 := by
  have interrupted := inv.sound.stays intr
  have nobody := inv.sound.interrupted interrupted
  have believesNot (other : Nat) : ¬ (mutex.threads other).Believes := by
    rw [quiescent other]
    exact id
  rw [reset, if_neg (not_not.mpr interrupted)]
  refine ⟨nofun, ⟨inv.sound.one, nofun, nofun,
    fun _ left => absurd nobody left⟩,
    fun other believes => absurd believes (believesNot other), fun _ => nofun,
    inv.parked, inv.nodup⟩

end Actions

section Runs

variable {event : Nat × Action}

theorem act_keeps
    (inv : Invariant mutex) (allowed : Allowed mutex event)
    (proper : Proper mutex event) {response : Response} {next : IntrMutex}
    (acted : act mutex event.1 event.2 = some (response, next)) :
    Invariant next ∧ response ≠ .fatal ∧
      (mutex.intr = true →
        match event.2 with
        | .lock | .tryLock | .wait _ | .waitEnds _ | .wake =>
            response ≠ .returned .ok
        | _ => True) := by
  obtain ⟨thread, action⟩ := event
  rcases act_cases inv.parked acted with
    ⟨believes, called, claims, awake, result⟩ | ⟨rfl, awake, result⟩ |
    ⟨choice, rfl, result⟩ | ⟨choice, rfl, running, result⟩ |
    ⟨status, called, awake, result⟩ | ⟨rfl, result⟩ | ⟨rfl, result⟩ |
    ⟨rfl, result⟩
  · have kept := takeLock_keeps inv claims awake
    rw [← result] at kept
    rcases called with rfl | rfl <;> exact ⟨kept.2, kept.1⟩
  · have kept := tryLock_keeps inv awake
    rw [← result] at kept
    exact ⟨kept.2, kept.1⟩
  · have kept := unlock_keeps inv allowed proper choice
    rw [← result] at kept
    refine ⟨kept, ?_, fun _ => trivial⟩
    rintro rfl
    exact Response.noConfusion (congrArg Prod.fst result)
  · have kept := beginWait_keeps inv running proper choice
    rw [← result] at kept
    exact ⟨kept.2, kept.1⟩
  · have failed : mutex.lockState = .interrupted → status ≠ .ok := by
      intro interrupted
      rcases called with rfl | ⟨rfl, place⟩
      · exact proper interrupted
      · rintro rfl
        exact proper interrupted place
    have kept := retakeLock_keeps inv failed awake
    rw [← result] at kept
    rcases called with rfl | ⟨rfl, -⟩ <;> exact ⟨kept.2, kept.1⟩
  · cases result
    exact ⟨spurious_keeps inv, nofun, fun _ => trivial⟩
  · cases result
    exact ⟨interrupt_keeps inv proper, nofun, fun _ => trivial⟩
  · have kept := reset_keeps inv allowed.1 allowed.2
    rw [← result] at kept
    exact ⟨kept.2, kept.1, fun _ => trivial⟩

theorem step_keeps
    (inv : Invariant mutex)
    (good : Allowed mutex event ∧ Proper mutex event) {next : IntrMutex}
    (stepped : step mutex event = some next) : Invariant next := by
  obtain ⟨⟨response, after⟩, acted, rfl⟩ := Option.map_eq_some_iff.mp stepped
  exact (act_keeps inv good.1 good.2 acted).1

theorem behaves_of_proper
    (inv : Invariant mutex)
    (good : Allowed mutex event ∧ Proper mutex event) :
    Behaves mutex event :=
  fun _ _ acted => (act_keeps inv good.1 good.2 acted).2

theorem invariant_intrMutexCtor : Invariant intrMutexCtor := by
  refine ⟨⟨nofun, nofun, nofun, ?_⟩, nofun, fun _ => nofun, nofun,
    List.nodup_nil⟩
  exact fun _ left => absurd rfl left

/-- In every run that follows the rules and meets none of the defects, one
thread at most believes to hold the mutex, an interrupt stays, and no wake-up
is lost. -/
theorem interruptible_mutex
    {events : List (Nat × Action)}
    (allowed : AllSteps step Allowed intrMutexCtor events)
    (proper : AllSteps step Proper intrMutexCtor events) :
    Throughout step Sound intrMutexCtor events ∧
      AllSteps step Behaves intrMutexCtor events := by
  have both := allowed.and proper
  constructor
  · have through := throughout_of_allSteps
      (fun _ _ _ inv good stepped => step_keeps inv good stepped)
      invariant_intrMutexCtor both
    exact through.imp fun _ inv => inv.sound
  · exact AllSteps.imp
      (fun _ _ _ inv good stepped => step_keeps inv good stepped)
      (fun _ _ _ inv good _ => behaves_of_proper inv good)
      invariant_intrMutexCtor both

def handover : List (Nat × Action) :=
  [(0, .lock), (1, .lock), (0, .unlock 0), (1, .wake), (2, .interrupt)]

theorem interruptible_mutex_handover :
    Throughout step Sound intrMutexCtor handover ∧
      AllSteps step Behaves intrMutexCtor handover := by
  refine interruptible_mutex ?_ ?_
  · refine .first rfl trivial (.first rfl trivial (.first rfl ?_
      (.first rfl trivial (.first rfl trivial trivial))))
    rfl
  · refine .first rfl trivial (.first rfl trivial (.first rfl ?_
      (.first rfl ?_ (.first rfl ?_ trivial))))
    · exact nofun
    · exact nofun
    · exact nofun

def interruptedHolder : List (Nat × Action) :=
  [(0, .lock), (1, .interrupt), (0, .unlock 0)]

/-- The unlock makes an interrupted mutex free. -/
theorem interrupt_lost :
    ¬ ∀ events, AllSteps step Allowed intrMutexCtor events →
      Throughout step Sound intrMutexCtor events ∧
        AllSteps step Behaves intrMutexCtor events := by
  intro holds
  have allowed : AllSteps step Allowed intrMutexCtor interruptedHolder :=
    .first rfl trivial (.first rfl trivial (.first rfl rfl trivial))
  obtain ⟨through, -⟩ := holds interruptedHolder allowed
  obtain ⟨final, ran, intr, free⟩ :
      ∃ final, run step intrMutexCtor interruptedHolder = some final ∧
        final.intr = true ∧ final.lockState = .free :=
    ⟨_, rfl, rfl, rfl⟩
  have interrupted := (through.last ran).stays intr
  rw [free] at interrupted
  exact LockState.noConfusion interrupted

end Runs

end NativeClient.Sync
