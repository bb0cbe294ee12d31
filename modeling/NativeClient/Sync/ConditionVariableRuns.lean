import NativeClient.Sync.ConditionVariable
import Mathlib.Data.List.Perm.Subperm

/-!
# Runs of the condition variable of Windows

Every event is in the waiting list, in the recycling list, or only in the hands
of the thread that waits on it; so two threads never share one, and an event
that is set while a thread waits on it is there for this thread.  A `Signal` is
lost exactly if the last waiter has timed out, or been signalled, already.
-/

namespace NativeClient.Sync.Windows

open NativeClient.Library

variable {cv next : ConditionVariable} {thread : Nat} {action : Action}
  {waiting recycling : List Nat}

section Steps

inductive Does (cv : ConditionVariable) (thread : Nat) :
    Action → Option Nat → ConditionVariable → Prop where
  | wait (place : cv.threads thread = .outside) :
      Does cv thread .wait (beginWait cv thread).1 (beginWait cv thread).2
  | wakes {handle : Nat} (place : cv.threads thread = .waiting handle)
      (set : cv.signalled handle = true) :
      Does cv thread .wakes none
        ((cv.set handle false).go thread (.recycling handle .object0))
  | timesOut {handle : Nat} (place : cv.threads thread = .waiting handle)
      (unset : cv.signalled handle = false) :
      Does cv thread .timesOut none (cv.go thread (.recycling handle .timeout))
  | recycle {handle : Nat} {result : WaitResult}
      (place : cv.threads thread = .recycling handle result) :
      Does cv thread .recycle (some (if result = .object0 then 1 else 0))
        ((recycleEvent cv handle).go thread .outside)
  | signal (place : cv.threads thread = .outside) :
      Does cv thread .signal none (beginSignal cv thread)
  | broadcast (place : cv.threads thread = .outside) :
      Does cv thread .broadcast none (beginBroadcast cv thread)
  | setEvent {handle : Nat} (place : cv.threads thread = .signalling handle) :
      Does cv thread .setEvent none ((cv.set handle true).go thread .outside)
  | setNext {handle : Nat} {handles : List Nat}
      (place : cv.threads thread = .broadcasting (handle :: handles)) :
      Does cv thread .setEvent none ((cv.set handle true).go thread
        (if handles.isEmpty then .outside else .broadcasting handles))

theorem does_of_act
    {value : Option Nat} (acted : act cv thread action = some (value, next)) :
    Does cv thread action value next := by
  unfold act at acted
  split at acted
  · next place =>
      have result := Option.some.inj acted
      obtain ⟨rfl, rfl⟩ : (beginWait cv thread).1 = value ∧
          (beginWait cv thread).2 = next := by
        rw [result]
        exact ⟨rfl, rfl⟩
      exact .wait place
  · next handle place =>
      split at acted
      · next set =>
          cases acted
          exact .wakes place set
      · exact absurd acted nofun
  · next handle place =>
      split at acted
      · exact absurd acted nofun
      · next unset =>
          cases acted
          exact .timesOut place (Bool.not_eq_true _ ▸ unset)
  · next handle result place =>
      cases acted
      exact .recycle place
  · next place =>
      cases acted
      exact .signal place
  · next place =>
      cases acted
      exact .broadcast place
  · next handle place =>
      cases acted
      exact .setEvent place
  · next handle handles place =>
      cases acted
      exact .setNext place
  · exact absurd acted nofun

theorem does_of_step
    (stepped : step cv (thread, action) = some next) :
    ∃ value, Does cv thread action value next := by
  obtain ⟨⟨value, after⟩, acted, rfl⟩ := Option.map_eq_some_iff.mp stepped
  exact ⟨value, does_of_act acted⟩

theorem threads_go (place : Local) : (cv.go thread place).threads thread = place :=
  Function.update_self _ _ _

theorem threads_go_of_ne
    {other : Nat} (distinct : other ≠ thread) (place : Local) :
    (cv.go thread place).threads other = cv.threads other :=
  Function.update_of_ne distinct _ _

theorem threads_getEventForWaiting :
    (getEventForWaiting cv).2.threads = cv.threads := by
  unfold getEventForWaiting
  split <;> rfl

theorem threads_of_step
    (stepped : step cv (thread, action) = some next) {other : Nat}
    (distinct : other ≠ thread) : next.threads other = cv.threads other := by
  obtain ⟨value, does⟩ := does_of_step stepped
  cases does with
  | wait place =>
      unfold beginWait
      split
      · rfl
      · exact (threads_go_of_ne distinct _).trans
          (congrFun threads_getEventForWaiting other)
  | signal place =>
      unfold beginSignal
      split
      · rfl
      · exact threads_go_of_ne distinct _
  | broadcast place =>
      unfold beginBroadcast
      split
      · rfl
      · exact threads_go_of_ne distinct _
  | wakes place set => exact threads_go_of_ne distinct _
  | timesOut place unset => exact threads_go_of_ne distinct _
  | recycle place => exact threads_go_of_ne distinct _
  | setEvent place => exact threads_go_of_ne distinct _
  | setNext place => exact threads_go_of_ne distinct _

end Steps

section Events

def Local.used : Local → Option Nat
  | .waiting handle | .recycling handle _ => some handle
  | _ => none

structure Holds (cv : ConditionVariable) (waiting recycling : List Nat) : Prop where
  lists : Lists cv.links .waitingList .recyclingList waiting recycling
    cv.allocationCounter
  size : cv.recyclingListSize = recycling.length
  owned : ∀ handle ∈ waiting, ∃ thread, (cv.threads thread).used = some handle
  away : ∀ thread handle, (cv.threads thread).used = some handle →
    handle ∉ recycling ∧ handle ≤ cv.allocationCounter
  one : ∀ thread other handle, (cv.threads thread).used = some handle →
    (cv.threads other).used = some handle → thread = other

theorem holds_conditionVariable : Holds conditionVariable [] [] := by
  have single (node : ConditionVariableEvent) :
      Circle conditionVariable.links node [] :=
    ⟨⟨rfl, rfl⟩, List.nodup_singleton node⟩
  exact ⟨⟨single _, single _, trivial, trivial, nofun, nofun, nofun,
    fun _ _ _ _ => single _⟩, rfl, nofun, nofun, nofun⟩

theorem Holds.keeps
    (holds : Holds cv waiting recycling) {left : List Nat}
    (lists : Lists next.links .waitingList .recyclingList left recycling
      next.allocationCounter)
    (counter : next.allocationCounter = cv.allocationCounter)
    (size : next.recyclingListSize = cv.recyclingListSize)
    (fewer : ∀ handle ∈ left, handle ∈ waiting)
    (used : ∀ thread, (next.threads thread).used = (cv.threads thread).used) :
    Holds next left recycling := by
  refine ⟨lists, size.trans holds.size, ?_, ?_, ?_⟩
  · intro handle member
    obtain ⟨thread, uses⟩ := holds.owned handle (fewer handle member)
    exact ⟨thread, (used thread).trans uses⟩
  · intro thread handle uses
    rw [counter]
    exact holds.away thread handle ((used thread).symm.trans uses)
  · intro thread other handle uses otherUses
    exact holds.one thread other handle ((used thread).symm.trans uses)
      ((used other).symm.trans otherUses)

theorem used_go
    (cv : ConditionVariable) {place : Local}
    (same : place.used = (cv.threads thread).used) (other : Nat) :
    ((cv.go thread place).threads other).used = (cv.threads other).used := by
  by_cases own : other = thread
  · subst own
    rw [threads_go, same]
  · rw [threads_go_of_ne own]

section

variable (holds : Holds cv waiting recycling)

include holds

theorem Holds.moves
    (handle : Nat) (state : Bool)
    {place : Local} (same : place.used = (cv.threads thread).used) :
    Holds ((cv.set handle state).go thread place) waiting recycling :=
  holds.keeps holds.lists rfl rfl (fun _ => id)
    (used_go (cv.set handle state) same)

theorem Holds.acquires
    (idle : (cv.threads thread).used = none) {handle : Nat} {rest : List Nat}
    (lists : Lists next.links .waitingList .recyclingList (waiting ++ [handle])
      rest next.allocationCounter)
    (size : next.recyclingListSize = rest.length)
    (threads : next.threads = cv.threads)
    (unused : ∀ other, (cv.threads other).used ≠ some handle)
    (fewer : ∀ found ∈ rest, found ∈ recycling)
    (grows : cv.allocationCounter ≤ next.allocationCounter) :
    Holds (next.go thread (.waiting handle)) (waiting ++ [handle]) rest := by
  have own (place : Local) : (next.go thread place).threads thread = place :=
    threads_go place
  have others {other : Nat} (distinct : other ≠ thread) :
      (next.go thread (.waiting handle)).threads other = cv.threads other :=
    (threads_go_of_ne distinct _).trans (congrFun threads other)
  refine ⟨lists, size, ?_, ?_, ?_⟩
  · intro found member
    rcases List.mem_append.mp member with old | new
    · obtain ⟨other, uses⟩ := holds.owned found old
      have distinct : other ≠ thread := by
        rintro rfl
        rw [idle] at uses
        cases uses
      exact ⟨other, by rwa [others distinct]⟩
    · rw [List.mem_singleton.mp new]
      exact ⟨thread, by rw [own]; rfl⟩
  · intro other found uses
    by_cases same : other = thread
    · subst same
      rw [own] at uses
      cases uses
      have added : handle ∈ waiting ++ [handle] := by simp
      exact ⟨lists.apart handle added, lists.known handle (.inl added)⟩
    · rw [others same] at uses
      obtain ⟨outside, known⟩ := holds.away other found uses
      exact ⟨fun member => outside (fewer found member), Nat.le_trans known grows⟩
  · have fresh {other found : Nat} (distinct : other ≠ thread)
        (uses : ((next.go thread (.waiting handle)).threads other).used =
          some found) :
        found ≠ handle := by
      rintro rfl
      rw [others distinct] at uses
      exact unused other uses
    intro other another found uses otherUses
    by_cases same : other = thread
    · by_cases sameToo : another = thread
      · rw [same, sameToo]
      · rw [same, own] at uses
        cases uses
        exact absurd rfl (fresh sameToo otherUses)
    · by_cases sameToo : another = thread
      · rw [sameToo, own] at otherUses
        cases otherUses
        exact absurd rfl (fresh same uses)
      · rw [others same] at uses
        rw [others sameToo] at otherUses
        exact holds.one other another found uses otherUses

theorem Holds.recycles
    {handle : Nat}
    (uses : (cv.threads thread).used = some handle) :
    ∃ left, Holds ((recycleEvent cv handle).go thread .outside) left
      (recycling ++ [handle]) := by
  obtain ⟨outside, known⟩ := holds.away thread handle uses
  obtain ⟨left, taken, fewer, gone⟩ : ∃ left,
      Lists (cv.links.extract (.event handle)) .waitingList .recyclingList left
        recycling cv.allocationCounter ∧
      (∀ found ∈ left, found ∈ waiting) ∧ handle ∉ left := by
    by_cases member : handle ∈ waiting
    · obtain ⟨front, back, rfl⟩ := List.append_of_mem member
      have nodup := holds.lists.nodup
      refine ⟨front ++ back, holds.lists.extract, ?_, ?_⟩
      · intro found inside
        simp only [List.mem_append, List.mem_cons] at inside ⊢
        tauto
      · rw [List.nodup_middle] at nodup
        exact (List.nodup_cons.mp nodup).1
    · refine ⟨waiting, ?_, fun _ => id, member⟩
      rw [extract_of_lone (holds.lists.lone handle known member outside)]
      exact holds.lists
  have others {other found : Nat}
      (otherUses : (((recycleEvent cv handle).go thread .outside).threads
        other).used = some found) :
      other ≠ thread ∧ (cv.threads other).used = some found := by
    by_cases same : other = thread
    · rw [same, threads_go] at otherUses
      cases otherUses
    · rw [threads_go_of_ne same] at otherUses
      exact ⟨same, otherUses⟩
  refine ⟨left, (taken.swap.pushBack known outside gone).swap, ?_, ?_, ?_, ?_⟩
  · rw [List.length_append, ← holds.size]
    rfl
  · intro found member
    obtain ⟨other, otherUses⟩ := holds.owned found (fewer found member)
    have distinct : other ≠ thread := by
      rintro rfl
      rw [uses] at otherUses
      cases otherUses
      exact gone member
    exact ⟨other, by rwa [threads_go_of_ne distinct]⟩
  · intro other found otherUses
    obtain ⟨distinct, before⟩ := others otherUses
    obtain ⟨away, bound⟩ := holds.away other found before
    refine ⟨?_, bound⟩
    intro member
    rcases List.mem_append.mp member with old | new
    · exact away old
    · rw [List.mem_singleton.mp new] at before
      exact distinct (holds.one other thread handle before uses)
  · intro other another found otherUses anotherUses
    exact holds.one other another found (others otherUses).2
      (others anotherUses).2

theorem isSingleton_iff :
    cv.links.isSingleton .waitingList = true ↔ waiting = [] := by
  rw [EventLinks.isSingleton, decide_eq_true_iff,
    holds.lists.circle.next_eq_head_iff, List.map_eq_nil_iff]

theorem getEventForWaiting_holds
    (idle : (cv.threads thread).used = none) :
    ∃ rest, Holds
      ((getEventForWaiting cv).2.go thread (.waiting (getEventForWaiting cv).1))
      (waiting ++ [(getEventForWaiting cv).1]) rest := by
  unfold getEventForWaiting
  split
  · next none =>
      have empty : recycling = [] := by
        rw [← List.length_eq_zero_iff, ← holds.size, none]
      subst empty
      have new : cv.allocationCounter + 1 ∉ waiting := by
        intro member
        exact absurd (holds.lists.known _ (.inl member)) (by omega)
      refine ⟨[], holds.acquires idle
        (holds.lists.create.pushBack (Nat.le_refl _) new (by simp))
        none rfl ?_ (fun _ => id) (Nat.le_succ _)⟩
      intro other uses
      exact absurd (holds.away other _ uses).2 (by
        simp [ConditionVariableEvent.handle])
  · next some' =>
      cases recycling with
      | nil => exact absurd holds.size some'
      | cons handle rest =>
          have front : cv.links.next .recyclingList = .event handle :=
            holds.lists.other.next_head
          have outside : handle ∉ waiting := by
            intro member
            exact holds.lists.apart handle member List.mem_cons_self
          have once : handle ∉ rest :=
            (List.nodup_cons.mp holds.lists.swap.nodup).1
          have known := holds.lists.known handle (.inr List.mem_cons_self)
          have split : Lists cv.links .recyclingList .waitingList
              ([] ++ handle :: rest) waiting cv.allocationCounter :=
            holds.lists.swap
          have taken := split.extract.swap
          simp only [EventLinks.popFront, front]
          refine ⟨rest, holds.acquires idle (taken.pushBack known outside once)
            ?_ rfl ?_ (fun _ => List.mem_cons_of_mem handle) (Nat.le_refl _)⟩
          · rw [holds.size]
            rfl
          · intro other uses
            exact (holds.away other handle uses).1 List.mem_cons_self

end

theorem popAll_spec
    {links : EventLinks} {counter fuel : Nat} {handles : List Nat}
    (lists : Lists links .waitingList .recyclingList waiting recycling counter)
    (enough : waiting.length ≤ fuel) :
    ∃ after, popAll fuel links handles = (waiting ++ handles, after) ∧
      Lists after .waitingList .recyclingList [] recycling counter := by
  induction fuel generalizing waiting links handles with
  | zero =>
      have empty := List.length_eq_zero_iff.mp (Nat.le_zero.mp enough)
      subst empty
      exact ⟨links, rfl, lists⟩
  | succ fuel ih =>
      have empty := lists.circle.next_eq_head_iff
      rw [List.map_eq_nil_iff] at empty
      unfold popAll EventLinks.isSingleton
      split
      · next single =>
          rw [empty.mp (of_decide_eq_true single)] at lists ⊢
          exact ⟨links, rfl, lists⟩
      · next more =>
          have left : waiting ≠ [] :=
            fun none => more (decide_eq_true (empty.mpr none))
          obtain ⟨front, handle, rfl⟩ :=
            (List.eq_nil_or_concat' waiting).resolve_left left
          have circle := lists.circle
          rw [List.map_append] at circle
          have last : links.prev .waitingList = .event handle := circle.prev_head
          have taken := lists.extract
          rw [List.append_nil] at taken
          have shorter : front.length ≤ fuel := by
            simpa using enough
          simp only [EventLinks.popBack, last]
          obtain ⟨after, popped, emptied⟩ :=
            @ih front _ (handle :: handles) taken shorter
          refine ⟨after, ?_, emptied⟩
          rw [ConditionVariableEvent.handle, popped, List.append_assoc]
          rfl

theorem beginSignal_spec
    (holds : Holds cv waiting recycling)
    (place : cv.threads thread = .outside) :
    (waiting = [] ∧ beginSignal cv thread = cv) ∨
      ∃ front handle, waiting = front ++ [handle] ∧
        cv.links.prev .waitingList = .event handle ∧
        (beginSignal cv thread).threads =
          Function.update cv.threads thread (.signalling handle) ∧
        Holds (beginSignal cv thread) front recycling := by
  have single := isSingleton_iff holds
  unfold beginSignal
  split
  · next empty => exact .inl ⟨single.mp empty, rfl⟩
  · next more =>
      obtain ⟨front, handle, rfl⟩ := (List.eq_nil_or_concat' waiting).resolve_left
        fun none => more (single.mpr none)
      have circle := holds.lists.circle
      rw [List.map_append] at circle
      have last : cv.links.prev .waitingList = .event handle := circle.prev_head
      have taken := holds.lists.extract
      rw [List.append_nil] at taken
      simp only [EventLinks.popBack, last]
      refine .inr ⟨front, handle, rfl, rfl, rfl, ?_⟩
      refine holds.keeps taken rfl rfl ?_ (used_go _ ?_)
      · intro found member
        exact List.mem_append_left _ member
      · rw [place]
        rfl

theorem beginBroadcast_spec
    (holds : Holds cv waiting recycling)
    (place : cv.threads thread = .outside) :
    (waiting = [] ∧ beginBroadcast cv thread = cv) ∨
      waiting ≠ [] ∧
        (beginBroadcast cv thread).threads =
          Function.update cv.threads thread (.broadcasting waiting) ∧
        Holds (beginBroadcast cv thread) [] recycling := by
  have single := isSingleton_iff holds
  have enough : waiting.length ≤ cv.allocationCounter + 1 := by
    have within : waiting ⊆ List.range (cv.allocationCounter + 1) := by
      intro handle member
      have known := holds.lists.known handle (.inl member)
      exact List.mem_range.mpr (by omega)
    simpa using (holds.lists.nodup.subperm within).length_le
  unfold beginBroadcast
  split
  · next empty => exact .inl ⟨single.mp empty, rfl⟩
  · next more =>
      obtain ⟨after, popped, emptied⟩ :=
        @popAll_spec _ _ _ _ _ [] holds.lists enough
      rw [popped, List.append_nil]
      refine .inr ⟨fun none => more (single.mpr none), rfl, ?_⟩
      refine holds.keeps emptied rfl rfl (fun _ => nofun) (used_go _ ?_)
      rw [place]
      rfl

theorem step_holds
    (holds : Holds cv waiting recycling)
    (stepped : step cv (thread, action) = some next) :
    ∃ left rest, Holds next left rest := by
  obtain ⟨value, does⟩ := does_of_step stepped
  cases does with
  | wait place =>
      unfold beginWait
      split
      · exact ⟨waiting, recycling, holds⟩
      · exact ⟨_, getEventForWaiting_holds holds (by rw [place]; rfl)⟩
  | wakes place set =>
      exact ⟨_, _, holds.moves _ _ (by rw [place]; rfl)⟩
  | timesOut place unset =>
      refine ⟨_, _, holds.keeps holds.lists rfl rfl (fun _ => id)
        (used_go cv ?_)⟩
      rw [place]
      rfl
  | recycle place =>
      have uses := congrArg Local.used place
      obtain ⟨left, kept⟩ := holds.recycles uses
      exact ⟨left, _, kept⟩
  | signal place =>
      rcases beginSignal_spec holds place with ⟨-, same⟩ | ⟨front, _, -, -, -, kept⟩
      · rw [same]
        exact ⟨waiting, recycling, holds⟩
      · exact ⟨front, recycling, kept⟩
  | broadcast place =>
      rcases beginBroadcast_spec holds place with ⟨-, same⟩ | ⟨-, -, kept⟩
      · rw [same]
        exact ⟨waiting, recycling, holds⟩
      · exact ⟨[], recycling, kept⟩
  | setEvent place =>
      exact ⟨_, _, holds.moves _ _ (by rw [place]; rfl)⟩
  | setNext place =>
      refine ⟨_, _, holds.moves _ _ ?_⟩
      rw [place]
      split <;> rfl

def Invariant (cv : ConditionVariable) : Prop :=
  ∃ waiting recycling, Holds cv waiting recycling

theorem invariant_kept
    (inv : Invariant cv) {event : Nat × Action}
    (stepped : step cv event = some next) : Invariant next := by
  obtain ⟨waiting, recycling, holds⟩ := inv
  exact step_holds holds stepped

theorem invariant_of_run
    {events : List (Nat × Action)} (inv : Invariant cv)
    (ran : run step cv events = some next) : Invariant next :=
  (throughout_of_kept (fun _ _ _ inv stepped => invariant_kept inv stepped)
    events inv).last ran

theorem invariant_conditionVariable : Invariant conditionVariable :=
  ⟨[], [], holds_conditionVariable⟩

theorem sound_of_invariant (inv : Invariant cv) : Sound cv := by
  obtain ⟨waiting, recycling, holds⟩ := inv
  refine ⟨?_, _, holds.lists.other, ?_⟩
  · intro thread other handle place otherPlace
    exact holds.one thread other handle (by rw [place]; rfl)
      (by rw [otherPlace]; rfl)
  · rw [holds.size, List.length_map]

end Events

section Waits

variable {waiter : Nat} {event : Nat × Action} {events : List (Nat × Action)}

theorem signalled_getEventForWaiting
    {handle : Nat} (known : handle ≤ cv.allocationCounter)
    (set : cv.signalled handle = true) :
    (getEventForWaiting cv).2.signalled handle = true := by
  unfold getEventForWaiting
  split
  · refine (Function.update_of_ne ?_ _ _).trans set
    change handle ≠ cv.allocationCounter + 1
    omega
  · exact set

theorem signalled_of_step
    (inv : Invariant cv) {handle : Nat}
    (place : cv.threads waiter = .waiting handle)
    (set : cv.signalled handle = true) (distinct : thread ≠ waiter)
    (stepped : step cv (thread, action) = some next) :
    next.signalled handle = true := by
  obtain ⟨waiting, recycling, holds⟩ := inv
  have uses := congrArg Local.used place
  have keptSet (found : Nat) :
      Function.update cv.signalled found true handle = true := by
    rw [Function.update_apply, set, ite_self]
  obtain ⟨value, does⟩ := does_of_step stepped
  cases does with
  | wait otherPlace =>
      have known := (holds.away waiter handle uses).2
      unfold beginWait
      split
      · exact set
      · exact signalled_getEventForWaiting known set
  | wakes otherPlace otherSet =>
      refine (Function.update_of_ne ?_ _ _).trans set
      rintro rfl
      exact distinct (holds.one thread waiter handle
        (congrArg Local.used otherPlace) uses)
  | timesOut otherPlace unset => exact set
  | recycle otherPlace => exact set
  | signal otherPlace =>
      unfold beginSignal
      split <;> exact set
  | broadcast otherPlace =>
      unfold beginBroadcast
      split <;> exact set
  | setEvent otherPlace => exact keptSet _
  | setNext otherPlace => exact keptSet _

theorem does_of_waiting
    {value : Option Nat} {handle : Nat} (does : Does cv thread action value next)
    (place : cv.threads thread = .waiting handle) :
    (action = .wakes ∧ cv.signalled handle = true ∧
      next.threads thread = .recycling handle .object0) ∨
    (action = .timesOut ∧ cv.signalled handle = false ∧
      next.threads thread = .recycling handle .timeout) := by
  cases does with
  | wakes otherPlace set =>
      cases place.symm.trans otherPlace
      exact .inl ⟨rfl, set, threads_go _⟩
  | timesOut otherPlace unset =>
      cases place.symm.trans otherPlace
      exact .inr ⟨rfl, unset, threads_go _⟩
  | _ otherPlace => cases place.symm.trans otherPlace

theorem does_of_recycling
    {value : Option Nat} {handle : Nat} {result : WaitResult}
    (does : Does cv thread action value next)
    (place : cv.threads thread = .recycling handle result) :
    action = .recycle ∧ value = some (if result = .object0 then 1 else 0) := by
  cases does with
  | recycle otherPlace =>
      cases place.symm.trans otherPlace
      exact ⟨rfl, rfl⟩
  | _ otherPlace => cases place.symm.trans otherPlace

theorem due_of_step
    (inv : Invariant cv) (due : Due cv waiter)
    (returnsNot : event ≠ (waiter, .recycle))
    (stepped : step cv event = some next) : Due next waiter := by
  obtain ⟨thread, action⟩ := event
  by_cases own : thread = waiter
  · subst own
    obtain ⟨value, does⟩ := does_of_step stepped
    rcases due with ⟨handle, place, set⟩ | ⟨handle, place⟩
    · rcases does_of_waiting does place with ⟨-, -, after⟩ | ⟨-, unset, -⟩
      · exact .inr ⟨handle, after⟩
      · exact absurd (set.symm.trans unset) nofun
    · exact absurd (by rw [(does_of_recycling does place).1]) returnsNot
  · have same := threads_of_step stepped (Ne.symm own)
    rcases due with ⟨handle, place, set⟩ | ⟨handle, place⟩
    · exact .inl ⟨handle, same.trans place,
        signalled_of_step inv place set own stepped⟩
    · exact .inr ⟨handle, same.trans place⟩

theorem returnsSignalled_cons
    (returnsNot : event ≠ (waiter, .recycle))
    (stepped : step cv event = some next) :
    ReturnsSignalled waiter cv (event :: events) ↔
      ReturnsSignalled waiter next events := by
  rw [ReturnsSignalled, if_neg returnsNot, stepped]
  simp

theorem returnsSignalled_of_due
    (inv : Invariant cv) (due : Due cv waiter)
    (ran : run step cv events = some next) :
    ReturnsSignalled waiter cv events := by
  induction events generalizing cv with
  | nil => exact due
  | cons event events ih =>
      obtain ⟨middle, stepped, rest⟩ := Option.bind_eq_some_iff.mp ran
      unfold ReturnsSignalled
      split
      · next returns =>
          rw [returns] at stepped
          obtain ⟨⟨value, after⟩, acted, -⟩ := Option.map_eq_some_iff.mp stepped
          refine ⟨after, acted.trans ?_⟩
          have does := does_of_act acted
          rcases due with ⟨handle, place, -⟩ | ⟨handle, place⟩
          · rcases does_of_waiting does place with ⟨called, -⟩ | ⟨called, -⟩ <;>
              cases called
          · rw [(does_of_recycling does place).2]
            rfl
      · next returnsNot =>
          intro after otherStep
          cases stepped.symm.trans otherStep
          exact ih (invariant_kept inv stepped)
            (due_of_step inv due returnsNot stepped) rest

theorem not_returnsSignalled_of_timeout
    {handle : Nat} (place : cv.threads waiter = .recycling handle .timeout)
    (ran : run step cv events = some next) :
    ¬ ReturnsSignalled waiter cv events := by
  induction events generalizing cv with
  | nil =>
      rintro (⟨found, otherPlace, -⟩ | ⟨found, otherPlace⟩) <;>
        cases place.symm.trans otherPlace
  | cons event events ih =>
      obtain ⟨middle, stepped, rest⟩ := Option.bind_eq_some_iff.mp ran
      unfold ReturnsSignalled
      split
      · next returns =>
          rintro ⟨after, acted⟩
          cases (does_of_recycling (does_of_act acted) place).2
      · next returnsNot =>
          intro all
          have distinct : waiter ≠ event.1 := by
            intro own
            obtain ⟨value, does⟩ := does_of_step stepped
            rw [own] at place
            exact returnsNot (Prod.ext own.symm (does_of_recycling does place).1)
          exact ih ((threads_of_step stepped distinct).trans place) rest
            (all middle stepped)

theorem returnsSignalled_iff
    {handle : Nat} {middle later : List (Nat × Action)}
    (inv : Invariant cv) (place : cv.threads waiter = .waiting handle)
    (pending : cv.threads thread = .signalling handle)
    (others : ∀ event ∈ middle, event.1 ≠ thread)
    (ran : run step cv (middle ++ (thread, .setEvent) :: later) = some next) :
    ReturnsSignalled waiter cv (middle ++ (thread, .setEvent) :: later) ↔
      middle.find? (fun event => event.1 == waiter) ≠
        some (waiter, .timesOut) := by
  have distinct : waiter ≠ thread := by
    rintro rfl
    cases place.symm.trans pending
  induction middle generalizing cv with
  | nil =>
      obtain ⟨after, stepped, rest⟩ := Option.bind_eq_some_iff.mp ran
      refine iff_of_true ?_ nofun
      have returnsNot : (thread, Action.setEvent) ≠ (waiter, .recycle) := by simp
      rw [List.nil_append, returnsSignalled_cons returnsNot stepped]
      have set : after.signalled handle = true := by
        obtain ⟨value, does⟩ := does_of_step stepped
        generalize called : Action.setEvent = action at does
        cases does with
        | setEvent otherPlace =>
            cases pending.symm.trans otherPlace
            exact Function.update_self _ _ _
        | setNext otherPlace => cases pending.symm.trans otherPlace
        | _ => cases called
      refine returnsSignalled_of_due (invariant_kept inv stepped) ?_ rest
      exact .inl ⟨handle, (threads_of_step stepped distinct).trans place, set⟩
  | cons event middle ih =>
      obtain ⟨after, stepped, rest⟩ := Option.bind_eq_some_iff.mp ran
      obtain ⟨actor, action⟩ := event
      have kept := invariant_kept inv stepped
      by_cases own : actor = waiter
      · subst own
        obtain ⟨value, does⟩ := does_of_step stepped
        have returnsNot : (actor, action) ≠ (actor, .recycle) := by
          rcases does_of_waiting does place with ⟨rfl, -⟩ | ⟨rfl, -⟩ <;> simp
        rw [List.cons_append, returnsSignalled_cons returnsNot stepped,
          List.find?_cons_of_pos (by simp)]
        rcases does_of_waiting does place with
          ⟨rfl, -, woken⟩ | ⟨rfl, -, timedOut⟩
        · exact iff_of_true
            (returnsSignalled_of_due kept (.inr ⟨handle, woken⟩) rest) nofun
        · exact iff_of_false (not_returnsSignalled_of_timeout timedOut rest)
            (not_not.mpr rfl)
      · have foreign := others _ List.mem_cons_self
        have samePlace := threads_of_step stepped (Ne.symm own)
        have samePending := threads_of_step stepped (Ne.symm foreign)
        have returnsNot : (actor, action) ≠ (waiter, .recycle) :=
          fun same => own (congrArg Prod.fst same)
        rw [List.cons_append, returnsSignalled_cons returnsNot stepped,
          List.find?_cons_of_neg (by simpa using own)]
        exact ih kept (samePlace.trans place) (samePending.trans pending)
          (fun event member => others event (List.mem_cons_of_mem _ member)) rest

end Waits

section Broadcasts

variable {events : List (Nat × Action)} {event : Nat × Action} {handle : Nat}

theorem SetsIn.after
    (stepped : step cv event = some next)
    (sets : SetsIn next events thread handle) :
    SetsIn cv (event :: events) thread handle := by
  obtain ⟨front, back, before, after, rfl, ran, rest⟩ := sets
  refine ⟨event :: front, back, before, after, rfl, ?_, rest⟩
  rw [run, stepped]
  exact ran

theorem setsIn_of_broadcasting
    {handles : List Nat} {returned : ConditionVariable}
    (place : cv.threads thread = .broadcasting handles)
    (own : ∀ event ∈ events, event.1 = thread → event.2 = .setEvent)
    (ran : run step cv events = some returned)
    (outside : returned.threads thread = .outside) :
    ∀ handle ∈ handles, SetsIn cv events thread handle := by
  induction events generalizing cv handles with
  | nil =>
      cases ran
      cases place.symm.trans outside
  | cons event events ih =>
      obtain ⟨after, stepped, rest⟩ := Option.bind_eq_some_iff.mp ran
      obtain ⟨actor, action⟩ := event
      have ownLater : ∀ event ∈ events, event.1 = thread → event.2 = .setEvent :=
        fun event member => own event (List.mem_cons_of_mem _ member)
      intro handle member
      by_cases same : actor = thread
      · subst same
        obtain rfl : action = .setEvent := own _ List.mem_cons_self rfl
        obtain ⟨value, does⟩ := does_of_step stepped
        generalize called : Action.setEvent = action at does
        cases does with
        | @setNext first behind otherPlace =>
            cases place.symm.trans otherPlace
            rcases List.mem_cons.mp member with rfl | inRest
            · exact ⟨[], events, cv, _, rfl, rfl, stepped, ⟨behind, place⟩,
                Function.update_self _ _ _⟩
            · have more : behind.isEmpty = false := by
                cases behind with
                | nil => cases inRest
                | cons => rfl
              refine SetsIn.after stepped (ih ?_ ownLater rest handle inRest)
              rw [threads_go, more]
              rfl
        | setEvent otherPlace => cases place.symm.trans otherPlace
        | _ => cases called
      · have samePlace := threads_of_step stepped (Ne.symm same)
        exact SetsIn.after stepped
          (ih (samePlace.trans place) ownLater rest handle member)

theorem inList_iff (holds : Holds cv waiting recycling) :
    InList cv.links .waitingList handle ↔ handle ∈ waiting := by
  constructor
  · rintro ⟨nodes, circle, member⟩
    rw [circle.unique holds.lists.circle] at member
    obtain ⟨found, inside, same⟩ := List.mem_map.mp member
    cases same
    exact inside
  · intro member
    exact ⟨_, holds.lists.circle, List.mem_map_of_mem member⟩

theorem broadcastsSet : BroadcastsSet events := by
  rintro thread before issued middle ⟨⟨front, later, -, ranFront⟩, issues, own,
    returned, ran, outside⟩ handle inside
  obtain ⟨waiting, recycling, holds⟩ :=
    invariant_of_run invariant_conditionVariable ranFront
  have member := (inList_iff holds).mp inside
  obtain ⟨value, does⟩ := does_of_step issues
  generalize called : Action.broadcast = action at does
  cases does with
  | broadcast place =>
      rcases beginBroadcast_spec holds place with ⟨empty, -⟩ | ⟨-, threads, -⟩
      · rw [empty] at member
        cases member
      · refine setsIn_of_broadcasting ?_ own ran outside handle member
        rw [threads]
        exact Function.update_self _ _ _
  | _ => cases called

end Broadcasts

section Signals

variable {events : List (Nat × Action)}

theorem signalsWake_iff : SignalsWake events ↔ LastWaiterStays events := by
  refine forall_congr' fun thread => forall_congr' fun before =>
    forall_congr' fun issued => forall_congr' fun middle =>
    forall_congr' fun later => forall_congr' fun call => forall_congr' fun _ =>
    exists_congr fun waiter => and_congr_right fun _ =>
    and_congr_right fun chosen => ?_
  obtain ⟨⟨front, -, ranFront⟩, issues, others, final, ran⟩ := call
  obtain ⟨handle, place, last⟩ := chosen
  have inv := invariant_of_run invariant_conditionVariable ranFront
  have issuedInv := invariant_kept inv issues
  obtain ⟨waiting, recycling, holds⟩ := inv
  obtain ⟨value, does⟩ := does_of_step issues
  generalize called : Action.signal = action at does
  cases does with
  | signal outside =>
      have distinct : waiter ≠ thread := by
        rintro rfl
        cases place.symm.trans outside
      rcases beginSignal_spec holds outside with
        ⟨empty, -⟩ | ⟨_, found, -, foundLast, threads, -⟩
      · have circle := holds.lists.circle
        rw [empty] at circle
        cases circle.1.2.symm.trans last
      · cases foundLast.symm.trans last
        have stays : (beginSignal before thread).threads waiter =
            .waiting handle := by
          rw [threads, Function.update_of_ne distinct]
          exact place
        have pending : (beginSignal before thread).threads thread =
            .signalling handle := by
          rw [threads]
          exact Function.update_self _ _ _
        exact returnsSignalled_iff issuedInv stays pending others ran
  | _ => cases called

/-- In every run the threads wait on events of their own, the recycling list has
the size that is kept for it, and a `Broadcast` reaches all waiters; a `Signal`
reaches a waiter if and only if the last one is still there for it. -/
theorem wake_ups (events : List (Nat × Action)) :
    (Throughout step Sound conditionVariable events ∧ BroadcastsSet events ∧
      SignalsWake events) ↔ LastWaiterStays events := by
  have through : Throughout step Sound conditionVariable events :=
    (throughout_of_kept (fun _ _ _ inv stepped => invariant_kept inv stepped)
      events invariant_conditionVariable).imp fun _ => sound_of_invariant
  rw [signalsWake_iff]
  constructor
  · exact fun all => all.2.2
  · exact fun stays => ⟨through, broadcastsSet, stays⟩

def lostSignal : List (Nat × Action) :=
  [(0, .wait), (1, .wait), (1, .timesOut), (2, .signal), (2, .setEvent)]

/-- The signal goes to the event of the waiter that timed out. -/
theorem signal_lost :
    ¬ ∀ events, Throughout step Sound conditionVariable events ∧
      BroadcastsSet events ∧ SignalsWake events := by
  intro all
  obtain ⟨before, ran, links, first, second, unset⟩ : ∃ before,
      run step conditionVariable (lostSignal.take 3) = some before ∧
      (Circle before.links .waitingList [.event 1, .event 2] ∧
        before.links.prev .waitingList = .event 2) ∧
      before.threads 0 = .waiting 1 ∧
      before.threads 1 = .recycling 2 .timeout ∧ before.signalled 1 = false :=
    ⟨_, rfl, ⟨⟨⟨⟨rfl, rfl⟩, ⟨rfl, rfl⟩, rfl, rfl⟩, by decide⟩, rfl⟩, rfl, rfl, rfl⟩
  obtain ⟨issued, final, issues, finishes⟩ : ∃ issued final,
      step before (2, .signal) = some issued ∧
      run step issued [(2, .setEvent)] = some final := by
    cases ran
    exact ⟨_, _, rfl, rfl⟩
  have call : SignalCall lostSignal 2 before issued [] [] :=
    ⟨⟨_, rfl, ran⟩, issues, nofun, final, finishes⟩
  have fresh : Fresh before 0 :=
    ⟨1, first, ⟨_, links.1, by simp⟩, unset⟩
  obtain ⟨waiter, -, ⟨handle, place, last⟩, -⟩ :=
    (all lostSignal).2.2 2 before issued [] [] call ⟨0, fresh⟩
  cases links.2.symm.trans last
  obtain ⟨waiting, recycling, holds⟩ :=
    invariant_of_run invariant_conditionVariable ran
  have same : waiter = 1 :=
    holds.one waiter 1 2 (congrArg Local.used place) (congrArg Local.used second)
  rw [same] at place
  cases place.symm.trans second

end Signals

end NativeClient.Sync.Windows
