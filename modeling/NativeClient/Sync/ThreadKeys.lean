import Mathlib.Logic.Function.Basic

/-!
# Thread-specific data

A key is allocated while its generation is odd.  The threads raise the
generations by compare-and-swap, and keep the generation of a key with each
value that they set for it.  One step makes one access to the shared
generations, so that the calls of the threads interleave.  The calls do not
check whether a key is negative, and with such a key there is no next step.
-/

namespace NativeClient.Sync

namespace ThreadKeys

def pthreadKeysMax : Nat := 512

def uintMax : Nat := 0xffffffff

/-- `tsd_t`. -/
structure Tsd where
  generation : Nat
  ptr : Nat

def KeyAllocated (generation : Nat) : Prop := generation % 2 = 1

instance (generation : Nat) : Decidable (KeyAllocated generation) :=
  inferInstanceAs (Decidable (_ = _))

/-- Where a thread is between two accesses. -/
inductive Place where
  | outside
  | scanning (i : Nat)
  | checking (i generation : Nat)
  | swapping (i generation : Nat)
  | deleting (key generation : Nat)

/-- The generations of `__nc_thread_specific_storage`, and what each thread has
of its own. -/
structure System (τ : Type) where
  generation : Nat → Nat
  threadSpecificData : τ → Option (Nat → Tsd)
  place : τ → Place

/-- What the calls do to the keys, and what they answer. -/
inductive Event (τ : Type) where
  | created (thread : τ) (key : Nat)
  | exhausted (thread : τ)
  | looked (thread : τ) (key : Nat)
  | deleted (thread : τ) (key : Nat)
  | outrun (thread : τ) (key : Nat)
  | refused (thread : τ) (key : Nat)
  | noMemory (thread : τ) (key : Nat)
  | set (thread : τ) (key ptr : Nat)
  | got (thread : τ) (key ptr : Nat)

/-- A `pthread_key_t` is an `int`. -/
inductive Call where
  | create
  | delete (key : Int)
  | setspecific (key : Int) (pointer : Nat) (calloc : Bool)
  | getspecific (key : Int)

/-- Where a key is in the tables; nothing is known of what is before them. -/
def slot (key : Int) : Option Nat :=
  if key < 0 then none else some key.toNat

section Steps

variable {τ : Type}

namespace System

def start : System τ := ⟨fun _ => 0, fun _ => none, fun _ => .outside⟩

def pthreadGetspecific (system : System τ) (thread : τ) (key : Nat) : Nat :=
  match system.threadSpecificData thread with
  | none => 0
  | some values =>
      if pthreadKeysMax - 1 < key ∨
          (values key).generation ≠ system.generation key then 0
      else (values key).ptr

/-- The table of the thread, which is cleared when it is allocated. -/
def ownValues (system : System τ) (thread : τ) : Nat → Tsd :=
  (system.threadSpecificData thread).getD fun _ => ⟨0, 0⟩

variable [DecidableEq τ]

def moveTo (system : System τ) (thread : τ) (place : Place) : System τ :=
  { system with place := Function.update system.place thread place }

/-- A `CompareAndSwap` that finds the old generation. -/
def raise (system : System τ) (key generation : Nat) : System τ :=
  { system with
    generation := Function.update system.generation key
      ((generation + 1) % (uintMax + 1)) }

def setOwn (system : System τ) (thread : τ) (key : Nat) (value : Tsd) :
    System τ :=
  { system with
    threadSpecificData := Function.update system.threadSpecificData thread
      (some (Function.update (system.ownValues thread) key value)) }

def Refuses (system : System τ) (key : Nat) : Prop :=
  pthreadKeysMax - 1 < key ∨ ¬ KeyAllocated (system.generation key)

instance (system : System τ) (key : Nat) : Decidable (system.Refuses key) :=
  inferInstanceAs (Decidable (_ ∨ _))

/-- A call up to and with its first access.  `calloc` tells whether there is
memory for the table of the thread. -/
def begin (system : System τ) (thread : τ) :
    Call → Option (Option (Event τ) × System τ)
  | .create => some (none, system.moveTo thread (.scanning 0))
  | .delete key => (slot key).map fun key =>
      if system.Refuses key then (some (.refused thread key), system)
      else
        (some (.looked thread key),
          system.moveTo thread (.deleting key (system.generation key)))
  | .setspecific key pointer calloc => (slot key).map fun key =>
      if system.Refuses key then (some (.refused thread key), system)
      else if (system.threadSpecificData thread).isNone ∧ calloc = false then
        (some (.noMemory thread key), system)
      else
        (some (.set thread key pointer),
          system.setOwn thread key ⟨system.generation key, pointer⟩)
  | .getspecific key => (slot key).map fun key =>
      (some (.got thread key (system.pthreadGetspecific thread key)), system)

/-- The next access of a call. -/
def resume (system : System τ) (thread : τ) :
    Option (Option (Event τ) × System τ) :=
  match system.place thread with
  | .outside => none
  | .scanning i =>
      if i < pthreadKeysMax then
        let generation := system.generation i
        if KeyAllocated generation then
          some (none, system.moveTo thread (.scanning (i + 1)))
        else
          some (none, system.moveTo thread (.checking i generation))
      else
        some (some (.exhausted thread), system.moveTo thread .outside)
  | .checking i generation =>
      -- The generation is read a second time.
      if system.generation i ≠ uintMax - 1 then
        some (none, system.moveTo thread (.swapping i generation))
      else
        some (none, system.moveTo thread (.scanning (i + 1)))
  | .swapping i generation =>
      if system.generation i = generation then
        some (some (.created thread i),
          (system.raise i generation).moveTo thread .outside)
      else
        some (none, system.moveTo thread (.scanning (i + 1)))
  | .deleting key generation =>
      if system.generation key = generation then
        some (some (.deleted thread key),
          (system.raise key generation).moveTo thread .outside)
      else
        some (some (.outrun thread key), system.moveTo thread .outside)

end System

variable [DecidableEq τ]

/-- The states of a run, with what has happened so far, the latest first. -/
inductive Reached : List (Event τ) → System τ → Prop
  | start : Reached [] .start
  | begin {history : List (Event τ)} {system next : System τ}
      {event : Option (Event τ)} (thread : τ) (call : Call)
      (reached : Reached history system)
      (outside : system.place thread = .outside)
      (step : system.begin thread call = some (event, next)) :
      Reached (event.toList ++ history) next
  | resume {history : List (Event τ)} {system next : System τ}
      {event : Option (Event τ)} (thread : τ) (reached : Reached history system)
      (step : system.resume thread = some (event, next)) :
      Reached (event.toList ++ history) next

end Steps

/-! ## What the history says -/

section History

variable {τ : Type}

def creations : List (Event τ) → Nat → Nat
  | [], _ => 0
  | .created _ created :: earlier, key =>
      if created = key then creations earlier key + 1 else creations earlier key
  | _ :: earlier, key => creations earlier key

def deletions : List (Event τ) → Nat → Nat
  | [], _ => 0
  | .deleted _ deleted :: earlier, key =>
      if deleted = key then deletions earlier key + 1 else deletions earlier key
  | _ :: earlier, key => deletions earlier key

/-- The key has been created once more than deleted. -/
def Allocated (history : List (Event τ)) (key : Nat) : Prop :=
  creations history key = deletions history key + 1

def Free (history : List (Event τ)) (key : Nat) : Prop :=
  creations history key = deletions history key

variable [DecidableEq τ]

/-- What the thread last set since the latest creation or deletion of the
key. -/
def stored : List (Event τ) → τ → Nat → Nat
  | [], _, _ => 0
  | .created _ raised :: earlier, thread, key
  | .deleted _ raised :: earlier, thread, key =>
      if raised = key then 0 else stored earlier thread key
  | .set setter changed ptr :: earlier, thread, key =>
      if setter = thread ∧ changed = key then ptr else stored earlier thread key
  | _ :: earlier, thread, key => stored earlier thread key

/-- The deletions of the key when the thread looked at it last. -/
def lookedAt : List (Event τ) → τ → Nat → Nat
  | [], _, _ => 0
  | .looked looker looked :: earlier, thread, key =>
      if looker = thread ∧ looked = key then deletions earlier key
      else lookedAt earlier thread key
  | _ :: earlier, thread, key => lookedAt earlier thread key

/-- What each event means, after the earlier ones. -/
def Justified (earlier : List (Event τ)) : Event τ → Prop
  | .created _ key => key < pthreadKeysMax ∧ Free earlier key ∧
      creations earlier key < uintMax / 2
  | .exhausted _ => True
  | .looked _ key | .deleted _ key | .noMemory _ key | .set _ key _ =>
      key < pthreadKeysMax ∧ Allocated earlier key
  | .outrun thread key => lookedAt earlier thread key < deletions earlier key
  | .refused _ key => pthreadKeysMax ≤ key ∨ Free earlier key
  | .got thread key ptr => ptr = stored earlier thread key

def Sound : List (Event τ) → Prop
  | [] => True
  | event :: earlier => Justified earlier event ∧ Sound earlier

end History

/-! ## What holds between the accesses -/

section Invariant

variable {τ : Type} [DecidableEq τ] {history later : List (Event τ)}
  {system next : System τ} {thread : τ} {place : Place}

/-- What the generation of a key says about its past. -/
structure KeyFits (history : List (Event τ)) (key generation : Nat) : Prop where
  creations : creations history key = (generation + 1) / 2
  deletions : deletions history key = generation / 2
  below : generation < uintMax

/-- What is known of the generation that a thread has read. -/
def PlaceFits (history : List (Event τ)) (system : System τ) (thread : τ) :
    Place → Prop
  | .outside | .scanning _ => True
  | .checking i generation =>
      i < pthreadKeysMax ∧ ¬ KeyAllocated generation ∧
        generation ≤ system.generation i
  | .swapping i generation =>
      i < pthreadKeysMax ∧ ¬ KeyAllocated generation ∧ generation < uintMax - 1
  | .deleting key generation =>
      key < pthreadKeysMax ∧
        generation = 2 * lookedAt history thread key + 1 ∧
        generation ≤ system.generation key

/-- A value was set no later than now, and an unset one is NULL. -/
def ValueFits (generation : Nat) (value : Tsd) : Prop :=
  value.generation ≤ generation ∧
    (¬ KeyAllocated value.generation → value.ptr = 0)

structure Invariant (history : List (Event τ)) (system : System τ) : Prop where
  keys : ∀ key, KeyFits history key (system.generation key)
  own : ∀ thread values, system.threadSpecificData thread = some values →
    ∀ key, ValueFits (system.generation key) (values key)
  values : ∀ thread key,
    stored history thread key = system.pthreadGetspecific thread key
  places : ∀ thread, PlaceFits history system thread (system.place thread)

theorem Invariant.start : Invariant ([] : List (Event τ)) .start :=
  ⟨fun _ => ⟨show 0 = (0 + 1) / 2 by decide, show 0 = 0 / 2 by decide,
    show 0 < uintMax by decide⟩, nofun, fun _ _ => rfl, fun _ => trivial⟩

/-- An event that changes no key and no value. -/
structure Quiet (history later : List (Event τ)) : Prop where
  creations : creations later = creations history
  deletions : deletions later = deletions history
  stored : stored later = stored history

theorem System.place_moveTo (reader : τ) :
    (system.moveTo thread place).place reader =
      if reader = thread then place else system.place reader :=
  Function.update_apply ..

omit [DecidableEq τ] in
theorem KeyFits.allocated_iff
    {key generation : Nat} (fits : KeyFits history key generation) :
    (Allocated history key ↔ KeyAllocated generation) ∧
      (Free history key ↔ ¬ KeyAllocated generation) := by
  obtain ⟨creations, deletions, -⟩ := fits
  unfold Allocated Free KeyAllocated
  omega

theorem PlaceFits.mono
    (fits : PlaceFits history system thread place)
    (grows : ∀ key, system.generation key ≤ next.generation key)
    (looked : ∀ key, lookedAt later thread key = lookedAt history thread key) :
    PlaceFits later next thread place := by
  cases place with
  | outside => trivial
  | scanning i => trivial
  | checking i generation =>
      exact ⟨fits.1, fits.2.1, Nat.le_trans fits.2.2 (grows i)⟩
  | swapping i generation => exact fits
  | deleting key generation =>
      refine ⟨fits.1, ?_, Nat.le_trans fits.2.2 (grows key)⟩
      rw [looked]
      exact fits.2.1

theorem Invariant.moved
    (invariant : Invariant history system) (quiet : Quiet history later)
    (looked : ∀ reader, reader ≠ thread → ∀ key,
      lookedAt later reader key = lookedAt history reader key)
    (fits : PlaceFits later system thread place) :
    Invariant later (system.moveTo thread place) := by
  refine ⟨?_, invariant.own, ?_, ?_⟩
  · intro key
    obtain ⟨creations, deletions, below⟩ := invariant.keys key
    exact ⟨by rw [quiet.creations, creations]; rfl,
      by rw [quiet.deletions, deletions]; rfl, below⟩
  · intro reader key
    rw [quiet.stored]
    exact invariant.values reader key
  · intro reader
    rw [System.place_moveTo]
    split
    · next same =>
        rw [same]
        exact fits.mono (fun _ => Nat.le_refl _) fun _ => rfl
    · next differ =>
        exact (invariant.places reader).mono (fun _ => Nat.le_refl _)
          (looked reader differ)

theorem Invariant.raised
    (invariant : Invariant history system) {event : Event τ}
    {key generation : Nat} (now : system.generation key = generation)
    (fits : KeyFits (event :: history) key (generation + 1))
    (others : ∀ other, key ≠ other →
      creations (event :: history) other = creations history other ∧
        deletions (event :: history) other = deletions history other)
    (values : ∀ thread other, stored (event :: history) thread other =
      if key = other then 0 else stored history thread other)
    (looked : lookedAt (event :: history) = lookedAt history) :
    Invariant (event :: history)
      ((system.raise key generation).moveTo thread .outside) := by
  have raised : ∀ other, ((system.raise key generation).moveTo thread
      .outside).generation other =
        if key = other then generation + 1 else system.generation other := by
    intro other
    have below := fits.below
    change Function.update system.generation key _ other = _
    rw [Function.update_apply, Nat.mod_eq_of_lt (by omega)]
    simp only [eq_comm]
  have grows : ∀ other, system.generation other ≤
      ((system.raise key generation).moveTo thread .outside).generation other := by
    intro other
    rw [raised]
    split
    · next same => rw [← same, now]; omega
    · exact Nat.le_refl _
  refine ⟨?_, ?_, ?_, ?_⟩
  · intro other
    rw [raised]
    split
    · next same => exact same ▸ fits
    · next differ =>
        obtain ⟨creations, deletions, below⟩ := invariant.keys other
        obtain ⟨sameCreations, sameDeletions⟩ := others other differ
        exact ⟨sameCreations.trans creations, sameDeletions.trans deletions,
          below⟩
  · intro reader data found other
    obtain ⟨earlier, unset⟩ := invariant.own reader data found other
    exact ⟨Nat.le_trans earlier (grows other), unset⟩
  · intro reader other
    rw [values, invariant.values]
    unfold System.pthreadGetspecific
    rw [raised]
    change _ = match system.threadSpecificData reader with
      | none => 0
      | some values => _
    split
    · next same =>
        subst same
        split
        · rfl
        · next data found =>
            -- No thread has the new generation yet.
            have earlier := (invariant.own reader data found key).1
            rw [if_pos (.inr (by omega))]
    · rfl
  · intro reader
    rw [System.place_moveTo]
    split
    · trivial
    · exact (invariant.places reader).mono grows fun _ => by rw [looked]

theorem Invariant.ownValues_fits
    (invariant : Invariant history system) (thread : τ) (key : Nat) :
    ValueFits (system.generation key) (system.ownValues thread key) := by
  unfold System.ownValues
  cases found : system.threadSpecificData thread with
  | none => exact ⟨Nat.zero_le _, fun _ => rfl⟩
  | some values => exact invariant.own thread values found key

omit [DecidableEq τ] in
theorem System.pthreadGetspecific_eq (key : Nat) :
    system.pthreadGetspecific thread key =
      if pthreadKeysMax - 1 < key ∨
          (system.ownValues thread key).generation ≠ system.generation key then 0
      else (system.ownValues thread key).ptr := by
  unfold System.pthreadGetspecific System.ownValues
  cases system.threadSpecificData thread with
  | none => exact (ite_self _).symm
  | some values => rfl

theorem System.ownValues_setOwn
    (key : Nat) (value : Tsd) (reader : τ) (other : Nat) :
    (system.setOwn thread key value).ownValues reader other =
      if thread = reader ∧ key = other then value
      else system.ownValues reader other := by
  change ((Function.update system.threadSpecificData thread _ reader).getD _)
    other = _
  rw [Function.update_apply]
  by_cases mine : thread = reader
  · rw [if_pos mine.symm, ← mine, Option.getD_some, Function.update_apply]
    simp only [true_and, eq_comm]
  · rw [if_neg (Ne.symm mine), if_neg fun both => mine both.1]
    rfl

theorem Invariant.setOwn
    (invariant : Invariant history system) {key : Nat} (ptr : Nat)
    (inside : key < pthreadKeysMax)
    (used : KeyAllocated (system.generation key)) :
    Invariant (.set thread key ptr :: history)
      (system.setOwn thread key ⟨system.generation key, ptr⟩) := by
  refine ⟨?_, ?_, ?_, ?_⟩
  · intro other
    obtain ⟨creations, deletions, below⟩ := invariant.keys other
    exact ⟨creations, deletions, below⟩
  · intro reader data found other
    change Function.update system.threadSpecificData thread _ reader = _ at found
    rw [Function.update_apply] at found
    split at found
    · cases found
      rw [Function.update_apply]
      split
      · next same =>
          rw [same]
          exact ⟨Nat.le_refl _, fun free => absurd used free⟩
      · exact invariant.ownValues_fits thread other
    · exact invariant.own reader data found other
  · intro reader other
    change (if thread = reader ∧ key = other then ptr
      else stored history reader other) = _
    rw [invariant.values, System.pthreadGetspecific_eq,
      System.pthreadGetspecific_eq, System.ownValues_setOwn]
    split
    · next same =>
        rw [← same.2, if_neg]
        rintro (beyond | changed)
        · omega
        · exact changed rfl
    · rfl
  · intro reader
    exact (invariant.places reader).mono (fun _ => Nat.le_refl _) fun _ => rfl

theorem Invariant.begin
    (invariant : Invariant history system) {call : Call}
    {event : Option (Event τ)}
    (step : system.begin thread call = some (event, next)) :
    Invariant (event.toList ++ history) next ∧
      ∀ happened, event = some happened → Justified history happened := by
  have same : system.moveTo thread (system.place thread) = system := by
    rw [System.moveTo, Function.update_eq_self]
  have still : ∀ {event : Event τ}, Quiet history (event :: history) →
      lookedAt (event :: history) = lookedAt history →
      Invariant (event :: history) system := by
    intro event quiet looked
    rw [← same]
    refine invariant.moved quiet (fun reader _ key => by rw [looked]) ?_
    exact (invariant.places thread).mono (fun _ => Nat.le_refl _)
      fun _ => by rw [looked]
  have refused : ∀ {key}, system.Refuses key →
      Justified history (.refused thread key) := by
    intro key failed
    exact failed.imp Nat.le_of_pred_lt (invariant.keys key).allocated_iff.2.mpr
  have passed : ∀ {key}, ¬ system.Refuses key → key < pthreadKeysMax ∧
      KeyAllocated (system.generation key) ∧ Allocated history key := by
    intro key passed
    obtain ⟨inside, used⟩ := not_or.mp passed
    rw [not_not] at used
    unfold pthreadKeysMax at *
    exact ⟨by omega, used, (invariant.keys key).allocated_iff.1.mpr used⟩
  cases call with
  | create =>
      cases step
      exact ⟨invariant.moved ⟨rfl, rfl, rfl⟩ (fun _ _ _ => rfl) trivial, nofun⟩
  | getspecific number =>
      obtain ⟨key, -, got⟩ := Option.map_eq_some_iff.mp step
      cases got
      refine ⟨still ⟨rfl, rfl, rfl⟩ rfl, ?_⟩
      rintro _ ⟨⟩
      exact (invariant.values thread key).symm
  | delete number =>
      obtain ⟨key, -, ran⟩ := Option.map_eq_some_iff.mp step
      split at ran
      · next failed =>
          cases ran
          refine ⟨still ⟨rfl, rfl, rfl⟩ rfl, ?_⟩
          rintro _ ⟨⟩
          exact refused failed
      · next taken =>
          cases ran
          obtain ⟨inside, odd, used⟩ := passed taken
          have now : lookedAt (.looked thread key :: history) thread key =
              deletions history key := if_pos ⟨rfl, rfl⟩
          refine ⟨invariant.moved ⟨rfl, rfl, rfl⟩ ?_ ⟨inside, ?_, Nat.le_refl _⟩,
            ?_⟩
          · intro reader differ other
            exact if_neg fun both => differ both.1.symm
          · unfold KeyAllocated at odd
            change _ = 2 * lookedAt (.looked thread key :: history) thread key + 1
            rw [now, (invariant.keys key).deletions]
            omega
          · rintro _ ⟨⟩
            exact ⟨inside, used⟩
  | setspecific number pointer calloc =>
      obtain ⟨key, -, ran⟩ := Option.map_eq_some_iff.mp step
      split at ran
      · next failed =>
          cases ran
          refine ⟨still ⟨rfl, rfl, rfl⟩ rfl, ?_⟩
          rintro _ ⟨⟩
          exact refused failed
      · next taken =>
          obtain ⟨inside, odd, used⟩ := passed taken
          split at ran
          · cases ran
            refine ⟨still ⟨rfl, rfl, rfl⟩ rfl, ?_⟩
            rintro _ ⟨⟩
            exact ⟨inside, used⟩
          · cases ran
            refine ⟨invariant.setOwn pointer inside odd, ?_⟩
            rintro _ ⟨⟩
            exact ⟨inside, used⟩

theorem Invariant.resume
    (invariant : Invariant history system) {event : Option (Event τ)}
    (step : system.resume thread = some (event, next)) :
    Invariant (event.toList ++ history) next ∧
      ∀ happened, event = some happened → Justified history happened := by
  have fits := invariant.places thread
  have onward : ∀ {place}, PlaceFits history system thread place →
      Invariant history (system.moveTo thread place) :=
    invariant.moved ⟨rfl, rfl, rfl⟩ fun _ _ _ => rfl
  unfold System.resume at step
  split at step
  · cases step
  · next i at' =>
    split at step
    · next inside =>
      dsimp only at step
      split at step
      · cases step
        exact ⟨onward trivial, nofun⟩
      · next free =>
        cases step
        exact ⟨onward ⟨inside, free, Nat.le_refl _⟩, nofun⟩
    · cases step
      refine ⟨invariant.moved ⟨rfl, rfl, rfl⟩ (fun _ _ _ => rfl) trivial, ?_⟩
      rintro _ ⟨⟩
      trivial
  · next i generation at' =>
    rw [at'] at fits
    obtain ⟨inside, free, earlier⟩ := fits
    split at step
    · next notLast =>
      cases step
      have below := (invariant.keys i).below
      exact ⟨onward ⟨inside, free, by omega⟩, nofun⟩
    · cases step
      exact ⟨onward trivial, nofun⟩
  · next i generation at' =>
    rw [at'] at fits
    obtain ⟨inside, free, room⟩ := fits
    split at step
    · next now =>
      cases step
      have past := invariant.keys i
      rw [now] at past
      have even : generation % 2 = 0 := by
        unfold KeyAllocated at free
        omega
      have one : creations (.created thread i :: history) i =
          creations history i + 1 := if_pos rfl
      refine ⟨invariant.raised now ⟨?_, ?_, by omega⟩ ?_ (fun _ _ => rfl) rfl, ?_⟩
      · rw [one, past.creations]
        omega
      · exact past.deletions.trans (by omega)
      · intro other differ
        exact ⟨if_neg differ, rfl⟩
      rintro _ ⟨⟩
      refine ⟨inside, past.allocated_iff.2.mpr free, ?_⟩
      rw [past.creations]
      unfold uintMax at *
      omega
    · cases step
      exact ⟨onward trivial, nofun⟩
  · next key generation at' =>
    rw [at'] at fits
    obtain ⟨inside, odd, earlier⟩ := fits
    split at step
    · next now =>
      cases step
      have past := invariant.keys key
      rw [now] at past
      have below := past.below
      have one : deletions (.deleted thread key :: history) key =
          deletions history key + 1 := if_pos rfl
      refine ⟨invariant.raised now ⟨?_, ?_, ?_⟩ ?_ (fun _ _ => rfl) rfl, ?_⟩
      · exact past.creations.trans (by omega)
      · rw [one, past.deletions]
        omega
      · unfold uintMax at *
        omega
      · intro other differ
        exact ⟨rfl, if_neg differ⟩
      rintro _ ⟨⟩
      refine ⟨inside, past.allocated_iff.1.mpr ?_⟩
      unfold KeyAllocated
      omega
    · next changed =>
      cases step
      refine ⟨invariant.moved ⟨rfl, rfl, rfl⟩ (fun _ _ _ => rfl) trivial, ?_⟩
      rintro _ ⟨⟩
      change _ < _
      rw [(invariant.keys key).deletions]
      omega

theorem Sound.append
    (sound : Sound history) {event : Option (Event τ)}
    (justified : ∀ happened, event = some happened →
      Justified history happened) : Sound (event.toList ++ history) := by
  cases event with
  | none => exact sound
  | some happened => exact ⟨justified happened rfl, sound⟩

theorem reached_invariant
    (reached : Reached history system) :
    Sound history ∧ Invariant history system := by
  induction reached with
  | start => exact ⟨trivial, .start⟩
  | begin thread call reached outside step ih =>
      obtain ⟨next, justified⟩ := ih.2.begin step
      exact ⟨ih.1.append justified, next⟩
  | resume thread reached step ih =>
      obtain ⟨next, justified⟩ := ih.2.resume step
      exact ⟨ih.1.append justified, next⟩

/-- In every interleaving of the calls, none of them with a negative key, each
event is right: a key is given out while it is free, and fewer than 2³¹ times;
a value is read as long as the key is allocated, and no longer; and a key is
refused if it is free, or was freed meanwhile. -/
theorem history_sound (reached : Reached history system) : Sound history :=
  (reached_invariant reached).1

/-- Two threads look at the first key, which only one of them can have. -/
theorem history_sound_race :
    Sound [.got true 1 7, .set true 1 7, .created true 1, .created false 0] := by
  have both := Reached.begin true .create
    (.begin false .create .start rfl rfl) rfl rfl
  have looked := ((((both.resume false rfl).resume true rfl).resume false
    rfl).resume true rfl).resume false rfl
  have second := (((looked.resume true rfl).resume true rfl).resume true
    rfl).resume true rfl
  exact history_sound ((second.begin true (.setspecific 1 7 true) rfl
    rfl).begin true (.getspecific 1) rfl rfl)

end Invariant

end ThreadKeys

end NativeClient.Sync
