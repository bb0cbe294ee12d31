import NativeClient.Library.LinkedQueue
import NativeClient.Library.Runs
import NativeClient.Library.Sleepers

/-!
# The synchronized queue

Every section of `NaClSyncQueue` under its mutex is one step.  A thread that
waits in `NaClSyncQueueDequeue` is asleep until it is signalled or wakes up
spuriously, and awakened until it has the mutex again.  `none` is a step that
is not possible, a pointer to freed memory or a failed `CHECK`.
-/

namespace NativeClient.Sync

open NativeClient.Library

variable {α : Type}

/-- `struct NaClSyncQueue`; `cv` holds the threads that are asleep on it. -/
structure SyncQueue (α : Type) where
  list : LinkedList Nat α
  insertPt : Link Nat
  quit : Bool
  cv : List Nat

namespace SyncQueue

def ctor : SyncQueue α := ⟨⟨none, fun _ => none⟩, .head, false, []⟩

/-- `NaClXCondVarSignal(&nsqp->cv)`, with the threads that it wakes. -/
def condVarSignal (queue : SyncQueue α) (choice : Nat) :
    SyncQueue α × List Nat :=
  ({ queue with cv := signal queue.cv choice },
    queue.cv[choice % queue.cv.length]?.toList)

/-- `NaClSyncQueueInsert`, where `malloc` returns `node`. -/
def insert (queue : SyncQueue α) (item : α) (node choice : Nat) :
    Option (SyncQueue α × List Nat) :=
  match (queue.list.setCell node (some ⟨none, item⟩)).setLink queue.insertPt
      (some node) with
  | none => none
  | some list =>
      some (condVarSignal { queue with list := list, insertPt := .next node }
        choice)

/-- `NaClSyncQueueQuit`. -/
def setQuit (queue : SyncQueue α) (choice : Nat) : SyncQueue α × List Nat :=
  condVarSignal { queue with quit := true } choice

/-- How a section of `NaClSyncQueueDequeue` ends; NULL is returned once
`quit` is set. -/
inductive Dequeued (α : Type) where
  | waits
  | returned (item : Option α)

/-- `NaClSyncQueueDequeue` from the loop on. -/
def dequeue (queue : SyncQueue α) : Option (Dequeued α × SyncQueue α) :=
  if queue.list.head = none ∧ queue.quit = false then some (.waits, queue)
  else if queue.quit then some (.returned none, queue)
  else
    match queue.list.head with
    | none => none
    | some qitem =>
        match queue.list.cells qitem with
        | none => none
        | some cell =>
            let list := { queue.list with head := cell.next }
            some (.returned (some cell.item),
              { queue with
                list := list.setCell qitem none
                insertPt :=
                  if cell.next = none then .head else queue.insertPt })

end SyncQueue

structure QueueSystem (α : Type) where
  queue : SyncQueue α
  awakened : List Nat
  inserted : List α
  returned : List α

namespace QueueSystem

def start : QueueSystem α := ⟨SyncQueue.ctor, [], [], []⟩

inductive Action (α : Type) where
  | insert (item : α) (node choice : Nat)
  | quit (choice : Nat)
  | dequeue
  | wake
  | spurious

/-- The thread is in the wait of `NaClSyncQueueDequeue`. -/
def Waits (system : QueueSystem α) (thread : Nat) : Prop :=
  thread ∈ system.queue.cv ∨ thread ∈ system.awakened

instance (system : QueueSystem α) (thread : Nat) :
    Decidable (system.Waits thread) :=
  inferInstanceAs (Decidable (_ ∨ _))

def runDequeue (system : QueueSystem α) (thread : Nat) :
    Option (QueueSystem α) :=
  match system.queue.dequeue with
  | none => none
  | some (.waits, queue) =>
      some { system with queue := { queue with cv := queue.cv ++ [thread] } }
  | some (.returned item, queue) =>
      some { system with
        queue := queue
        returned := system.returned ++ item.toList }

def step (system : QueueSystem α) (event : Nat × Action α) :
    Option (QueueSystem α) :=
  match event with
  | (thread, .insert item node choice) =>
      if system.Waits thread ∨ (system.queue.list.cells node).isSome then none
      else
        match system.queue.insert item node choice with
        | none => none
        | some (queue, woken) =>
            some { system with
              queue := queue
              awakened := system.awakened ++ woken
              inserted := system.inserted ++ [item] }
  | (thread, .quit choice) =>
      if system.Waits thread then none
      else
        let (queue, woken) := system.queue.setQuit choice
        some { system with
          queue := queue
          awakened := system.awakened ++ woken }
  | (thread, .dequeue) =>
      if system.Waits thread then none else system.runDequeue thread
  | (thread, .wake) =>
      if thread ∈ system.awakened then
        { system with
          awakened := system.awakened.erase thread }.runDequeue thread
      else none
  | (thread, .spurious) =>
      if thread ∈ system.queue.cv then
        some { system with
          queue := { system.queue with cv := system.queue.cv.erase thread }
          awakened := system.awakened ++ [thread] }
      else none

/-- The items that were inserted and not returned are those of the list, and
`insert_pt` is its last link. -/
def Ordered (system : QueueSystem α) : Prop :=
  ∃ contents, Represents system.queue.list contents ∧
    system.queue.insertPt = lastLink contents ∧
    system.inserted = system.returned ++ contents.map Prod.snd

/-- No thread is asleep while `quit` is set, or while there are more items in
the queue than awakened threads. -/
def NotStranded (system : QueueSystem α) : Prop :=
  system.queue.cv ≠ [] →
    system.queue.quit = false ∧
      system.inserted.length ≤ system.returned.length + system.awakened.length

/-- No section follows a pointer to freed memory or fails a `CHECK`. -/
def Safe (system : QueueSystem α) : Prop :=
  (∀ item node choice, system.queue.list.cells node = none →
    system.queue.insert item node choice ≠ none) ∧
  system.queue.dequeue ≠ none

/-- `NaClSyncQueueQuit` is called while at most one thread is asleep. -/
def FewAsleep (system : QueueSystem α) : Nat × Action α → Prop
  | (_, .quit _) => system.queue.cv.length ≤ 1
  | _ => True

section Sections

theorem signal_length (cv : List Nat) (choice : Nat) :
    (signal cv choice).length = cv.length - 1 ∧
      cv[choice % cv.length]?.toList.length = min 1 cv.length := by
  unfold signal
  by_cases empty : cv = []
  · rw [empty]
    exact ⟨rfl, rfl⟩
  · have positive := List.length_pos_iff.mpr empty
    have inside := Nat.mod_lt choice positive
    rw [List.length_eraseIdx_of_lt inside, List.getElem?_eq_getElem inside]
    exact ⟨rfl, by rw [Option.toList_some, List.length_singleton]; omega⟩

theorem insert_eq
    {queue : SyncQueue α} {contents : List (Nat × α)}
    (represents : Represents queue.list contents)
    (last : queue.insertPt = lastLink contents)
    {node : Nat} (fresh : queue.list.cells node = none) (item : α)
    (choice : Nat) :
    ∃ list, queue.insert item node choice =
        some (SyncQueue.condVarSignal
          { queue with list := list, insertPt := .next node } choice) ∧
      Represents list (contents ++ [(node, item)]) := by
  obtain ⟨list, set, after⟩ := represents.append fresh item
  refine ⟨list, ?_, after⟩
  unfold SyncQueue.insert
  rw [last, set]

theorem lastLink_concat (contents : List (Nat × α)) (node : Nat) (item : α) :
    lastLink (contents ++ [(node, item)]) = .next node := by
  unfold lastLink
  rw [List.getLast?_concat]

theorem dequeue_cases
    {queue : SyncQueue α} {contents : List (Nat × α)}
    (represents : Represents queue.list contents)
    (last : queue.insertPt = lastLink contents) :
    (contents = [] ∧ queue.quit = false ∧
      queue.dequeue = some (.waits, queue)) ∨
    (queue.quit = true ∧ queue.dequeue = some (.returned none, queue)) ∨
    (queue.quit = false ∧ ∃ node item rest list,
      contents = (node, item) :: rest ∧
      queue.dequeue = some (.returned (some item),
        { queue with list := list, insertPt := lastLink rest }) ∧
      Represents list rest) := by
  unfold SyncQueue.dequeue
  cases quit : queue.quit with
  | true =>
      refine .inr (.inl ⟨rfl, ?_⟩)
      rw [if_neg (by simp), if_pos rfl]
  | false =>
      cases contents with
      | nil =>
          have empty : queue.list.head = none := represents.linked
          exact .inl ⟨rfl, rfl, if_pos ⟨empty, rfl⟩⟩
      | cons entry rest =>
          obtain ⟨node, item⟩ := entry
          obtain ⟨next, head, cell, end_, after⟩ := represents.tail
          refine .inr (.inr ⟨rfl, node, item, rest, _, rfl, ?_, after⟩)
          rw [head, if_neg (by simp), if_neg (by simp)]
          dsimp only
          rw [cell]
          dsimp only
          have link : (if next = none then Link.head else queue.insertPt) =
              lastLink rest := by
            by_cases empty : rest = []
            · rw [if_pos (end_.mpr empty), empty]
              rfl
            · rw [if_neg (mt end_.mp empty), last, lastLink_cons empty]
          rw [link]

end Sections

section Steps

variable {system next : QueueSystem α}

theorem runDequeue_cases
    (ordered : Ordered system) {thread : Nat}
    (ran : system.runDequeue thread = some next) :
    Ordered next ∧ next.queue.quit = system.queue.quit ∧
      next.inserted = system.inserted ∧ next.awakened = system.awakened ∧
      ((system.queue.quit = false ∧ next.inserted.length = next.returned.length)
        ∨ (next.queue.cv = system.queue.cv ∧
          (system.queue.quit = false →
            next.returned.length = system.returned.length + 1) ∧
          system.returned.length ≤ next.returned.length)) := by
  obtain ⟨contents, represents, last, inserted⟩ := ordered
  unfold runDequeue at ran
  rcases dequeue_cases represents last with
    ⟨rfl, quit, section_⟩ | ⟨quit, section_⟩ |
      ⟨quit, node, item, rest, list, rfl, section_, after⟩
  · rw [section_] at ran
    cases ran
    refine ⟨⟨[], represents, last, inserted⟩, rfl, rfl, rfl, .inl ⟨quit, ?_⟩⟩
    rw [inserted]
    simp
  · rw [section_] at ran
    cases ran
    dsimp only
    rw [Option.toList_none, List.append_nil]
    exact ⟨⟨contents, represents, last, inserted⟩, rfl, rfl, rfl,
      .inr ⟨rfl, fun running => absurd (running.symm.trans quit) nofun,
        Nat.le_refl _⟩⟩
  · rw [section_] at ran
    cases ran
    dsimp only
    refine ⟨⟨rest, after, rfl, ?_⟩, rfl, rfl, rfl, .inr ⟨rfl, fun _ => ?_, ?_⟩⟩
    · dsimp only
      rw [inserted, List.map_cons, Option.toList_some, List.append_assoc]
      rfl
    · rw [List.length_append]
      rfl
    · rw [List.length_append]
      omega

theorem Ordered.step
    (ordered : Ordered system) {event : Nat × Action α}
    (stepped : system.step event = some next) : Ordered next := by
  obtain ⟨thread, action⟩ := event
  cases action with
  | insert item node choice =>
      rw [QueueSystem.step] at stepped
      split at stepped
      next => cases stepped
      next enabled =>
        obtain ⟨contents, represents, last, inserted⟩ := ordered
        have fresh : system.queue.list.cells node = none := by
          rw [← Option.not_isSome_iff_eq_none]
          exact (not_or.mp enabled).2
        obtain ⟨list, run, after⟩ := insert_eq represents last fresh item choice
        rw [run] at stepped
        cases stepped
        refine ⟨_, after, (lastLink_concat contents node item).symm, ?_⟩
        dsimp only
        rw [inserted, List.map_append, List.append_assoc]
        rfl
  | quit choice =>
      rw [QueueSystem.step] at stepped
      split at stepped
      next => cases stepped
      next =>
        cases stepped
        exact ordered
  | dequeue =>
      rw [QueueSystem.step] at stepped
      split at stepped
      next => cases stepped
      next => exact (runDequeue_cases ordered stepped).1
  | wake =>
      rw [QueueSystem.step] at stepped
      split at stepped
      next =>
        exact (@runDequeue_cases α
          { system with awakened := system.awakened.erase thread } next ordered
          thread stepped).1
      next => cases stepped
  | spurious =>
      rw [QueueSystem.step] at stepped
      split at stepped
      next =>
        cases stepped
        exact ordered
      next => cases stepped

theorem Ordered.safe (ordered : Ordered system) : Safe system := by
  obtain ⟨contents, represents, last, -⟩ := ordered
  refine ⟨fun item node choice fresh => ?_, ?_⟩
  · obtain ⟨list, run, -⟩ := insert_eq represents last fresh item choice
    rw [run]
    nofun
  · rcases dequeue_cases represents last with
      ⟨-, -, section_⟩ | ⟨-, section_⟩ | ⟨-, _, _, _, _, -, section_, -⟩
    · rw [section_]
      nofun
    · rw [section_]
      nofun
    · rw [section_]
      nofun

theorem NotStranded.runDequeue
    (ordered : Ordered system) {thread fewer : Nat}
    (ran : system.runDequeue thread = some next)
    (one : fewer ≤ 1)
    (notStranded : system.queue.cv ≠ [] → system.queue.quit = false ∧
      system.inserted.length ≤
        system.returned.length + system.awakened.length + fewer) :
    NotStranded next := by
  obtain ⟨-, quit, inserted, awakened, cases_⟩ := runDequeue_cases ordered ran
  intro asleep
  rcases cases_ with ⟨running, none⟩ | ⟨cv, taken, more⟩
  · exact ⟨quit.trans running, by omega⟩
  · rw [cv] at asleep
    obtain ⟨running, few⟩ := notStranded asleep
    have oneMore := taken running
    rw [inserted, awakened]
    exact ⟨quit.trans running, by omega⟩

/-- Just the calls of `NaClSyncQueueQuit` while two threads are asleep strand
somebody. -/
theorem NotStranded.step_iff
    (ordered : Ordered system) (notStranded : NotStranded system)
    {event : Nat × Action α} (stepped : system.step event = some next) :
    NotStranded next ↔ FewAsleep system event := by
  obtain ⟨thread, action⟩ := event
  cases action with
  | insert item node choice =>
      rw [QueueSystem.step] at stepped
      split at stepped
      next => cases stepped
      next enabled =>
        obtain ⟨contents, represents, last, inserted⟩ := ordered
        have fresh : system.queue.list.cells node = none := by
          rw [← Option.not_isSome_iff_eq_none]
          exact (not_or.mp enabled).2
        obtain ⟨list, run, -⟩ := insert_eq represents last fresh item choice
        have lengths := signal_length system.queue.cv choice
        rw [run] at stepped
        cases stepped
        refine iff_of_true (fun asleep => ?_) trivial
        have some_ := List.length_pos_iff.mpr asleep
        dsimp only at some_ ⊢
        obtain ⟨running, few⟩ := notStranded
          (List.length_pos_iff.mp (by omega))
        rw [List.length_append, List.length_append, List.length_singleton]
        exact ⟨running, by omega⟩
  | quit choice =>
      rw [QueueSystem.step] at stepped
      split at stepped
      next => cases stepped
      next =>
        have lengths := signal_length system.queue.cv choice
        cases stepped
        unfold NotStranded FewAsleep
        dsimp only
        constructor
        · intro kept
          by_contra many
          have asleep : signal system.queue.cv choice ≠ [] :=
            List.length_pos_iff.mp (by omega)
          cases (kept asleep).1
        · intro few asleep
          have some_ := List.length_pos_iff.mpr asleep
          omega
  | dequeue =>
      rw [QueueSystem.step] at stepped
      split at stepped
      next => cases stepped
      next =>
        exact iff_of_true (NotStranded.runDequeue ordered stepped
          (Nat.zero_le _) notStranded) trivial
  | wake =>
      rw [QueueSystem.step] at stepped
      split at stepped
      next awake =>
        have length := List.length_erase_of_mem awake
        have positive := List.length_pos_of_mem awake
        refine iff_of_true (@NotStranded.runDequeue α
          { system with awakened := system.awakened.erase thread } next ordered
          thread 1 stepped (Nat.le_refl _) fun asleep => ?_) trivial
        obtain ⟨running, few⟩ := notStranded asleep
        dsimp only
        exact ⟨running, by omega⟩
      next => cases stepped
  | spurious =>
      rw [QueueSystem.step] at stepped
      split at stepped
      next asleep =>
        cases stepped
        refine iff_of_true (fun still => ?_) trivial
        obtain ⟨running, few⟩ := notStranded (List.ne_nil_of_mem asleep)
        dsimp only
        rw [List.length_append]
        exact ⟨running, by omega⟩
      next => cases stepped

end Steps

theorem start_ordered : Ordered (start : QueueSystem α) :=
  ⟨[], ⟨rfl, List.nodup_nil⟩, rfl, rfl⟩

/-- In every run the items come out in the order in which they went in, and
`insert_pt` is the last link.  Nobody is stranded just if
`NaClSyncQueueQuit` is only called while at most one thread is asleep. -/
theorem syncQueue_iff (events : List (Nat × Action α)) :
    Throughout step (fun system => Ordered system ∧ Safe system ∧
        system.returned <+: system.inserted) start events ∧
      (Throughout step NotStranded start events ↔
        AllSteps step FewAsleep start events) := by
  have ordered : Throughout step Ordered start events :=
    throughout_of_kept (fun _ _ _ before stepped => before.step stepped) events
      start_ordered
  refine ⟨ordered.imp ?_, ?_⟩
  · intro system holds
    obtain ⟨contents, -, -, inserted⟩ := id holds
    exact ⟨holds, holds.safe, _, inserted.symm⟩
  · exact @throughout_iff_allSteps _ _ step NotStranded FewAsleep Ordered
      (fun _ _ _ before stepped => before.step stepped)
      (fun _ _ _ before kept stepped => kept.step_iff before stepped)
      _ _ start_ordered (fun asleep => absurd rfl asleep)

/-- Two threads wait for work, and a third one quits. -/
theorem quit_strands :
    ¬ Throughout step NotStranded (start : QueueSystem Nat)
      [(1, .dequeue), (2, .dequeue), (3, .quit 0)] := by
  intro through
  obtain ⟨-, first⟩ := through
  obtain ⟨-, second⟩ := first _ rfl
  obtain ⟨-, third⟩ := second _ rfl
  have stranded := third _ rfl
  cases (stranded (List.cons_ne_nil _ _)).1

end QueueSystem

end NativeClient.Sync
