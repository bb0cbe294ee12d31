import NativeClient.Runtime.RegionInvariant

/-!
# Generations of threads

A region is removed once the generations of all threads have passed the one
that was recorded for it.  `NaClMinimumThreadGeneration` looks at the first
`num_threads` slots of the table of threads, where the slots of threads that
have exited may be empty.
-/

namespace NativeClient.Runtime

variable {layout : AppLayout} {world : World} {app next : NaClApp}

section Statements

def IsThread (app : NaClApp) (slot : Nat) (generation : Int) : Prop :=
  app.threads[slot]? = some (some generation)

def MinimumCovers (app : NaClApp) : Prop :=
  ∃ minimum, naClMinimumThreadGeneration app = some minimum ∧
    ∀ slot generation, IsThread app slot generation → minimum ≤ generation

def Compact (app : NaClApp) : Prop :=
  ∀ slot generation, IsThread app slot generation → slot < app.numThreads

def RemovesPassed (layout : AppLayout) (app : NaClApp) : Prop :=
  ∀ world thread dest size next,
    naClTextSysDyncodeDelete layout world app thread dest size =
      some (next, 0) → size ≠ 0 →
    ∃ index requested,
      requestDeletion layout world app index dest size =
        some (requested, none) ∧
      (requested.regions.dynamicRegions index).start =
        layout.naClUserToSysAddrRange dest.toNat size.toNat ∧
      0 ≤ (requested.regions.dynamicRegions index).deleteGeneration ∧
      ∀ slot generation, IsThread next slot generation →
        (requested.regions.dynamicRegions index).deleteGeneration ≤ generation

end Statements

/-! ## The loop -/

section Minimum

variable {threads : List (Option Int)}

private theorem join_eq_some
    {slot : Nat} {generation : Int} :
    (threads[slot]?).join = some generation ↔
      threads[slot]? = some (some generation) := by
  cases threads[slot]? with
  | none => simp
  | some entry => simp

private theorem minimumGenerationFrom_le
    {left index : Nat} {minimum result : Int}
    (ran : minimumGenerationFrom threads left index minimum = some result) :
    (index ≠ 0 → result ≤ minimum) ∧
      ∀ slot, index ≤ slot → slot < index + left →
        ∃ generation, threads[slot]? = some (some generation) ∧
          result ≤ generation := by
  induction left generalizing index minimum with
  | zero =>
      cases ran
      refine ⟨fun _ => Int.le_refl _, ?_⟩
      intro slot above below
      omega
  | succ left ih =>
      rw [minimumGenerationFrom] at ran
      cases entry : (threads[index]?).join with
      | none =>
          rw [entry] at ran
          cases ran
      | some generation =>
          rw [entry] at ran
          obtain ⟨smaller, rest⟩ := ih ran
          have bound := smaller (Nat.succ_ne_zero index)
          constructor
          · intro later
            split_ifs at bound with lower
            · rcases lower with first | less
              · exact absurd first later
              · omega
            · exact bound
          · intro slot above below
            rcases Nat.eq_or_lt_of_le above with here | after
            · refine ⟨generation, ?_, ?_⟩
              · rw [← here]
                exact join_eq_some.mp entry
              · split_ifs at bound with lower
                · exact bound
                · exact Int.le_trans bound
                    (Int.not_lt.mp (not_or.mp lower).2)
            · exact rest slot after (by omega)

private theorem minimumGenerationFrom_isSome
    (threads : List (Option Int)) (left index : Nat) (minimum : Int)
    (present : ∀ slot, index ≤ slot → slot < index + left →
      (threads[slot]?).join ≠ none) :
    ∃ result, minimumGenerationFrom threads left index minimum =
      some result := by
  induction left generalizing index minimum with
  | zero => exact ⟨minimum, rfl⟩
  | succ left ih =>
      obtain ⟨generation, entry⟩ := Option.ne_none_iff_exists'.mp
        (present index (le_refl _) (by omega))
      rw [minimumGenerationFrom, entry]
      apply ih
      intro slot above below
      exact present slot (by omega) (by omega)

end Minimum

/-! ## How many threads there are -/

section Count

def liveThreads (threads : List (Option Int)) : Nat :=
  threads.countP Option.isSome

private theorem countP_set
    {threads : List (Option Int)} {slot : Nat} {entry : Option Int}
    (before : threads[slot]? = some entry) (after : Option Int) :
    liveThreads (threads.set slot after) + (if entry.isSome then 1 else 0) =
      liveThreads threads + (if after.isSome then 1 else 0) := by
  induction threads generalizing slot with
  | nil => cases before
  | cons first rest ih =>
      cases slot with
      | zero =>
          cases before
          simp only [liveThreads, List.set_cons_zero, List.countP_cons]
          omega
      | succ slot =>
          have later := ih before
          simp only [liveThreads, List.set_cons_succ, List.countP_cons]
            at later ⊢
          omega

private theorem threadsFirstAvail_free
    {threads : List (Option Int)}
    (inside : threadsFirstAvail threads < threads.length) :
    threads[threadsFirstAvail threads]? = some none := by
  rw [List.getElem?_eq_getElem inside]
  have free := List.findIdx_getElem (w := inside)
  exact congrArg some (Option.isNone_iff_eq_none.mp free)

theorem naClAddThreadMu_live (app : NaClApp) :
    liveThreads (naClAddThreadMu app).threads =
      liveThreads app.threads + 1 := by
  simp only [naClAddThreadMu]
  split_ifs with inside
  · have counted := countP_set (threadsFirstAvail_free inside) (some 0)
    simpa using counted
  · simp [liveThreads, List.countP_append]

theorem naClRemoveThreadMu_live
    {thread : Nat} (ran : naClRemoveThreadMu app thread = some next) :
    liveThreads next.threads + 1 = liveThreads app.threads ∧
      next.numThreads + 1 = app.numThreads := by
  rw [naClRemoveThreadMu] at ran
  split_ifs at ran with absent none_
  cases ran
  obtain ⟨generation, entry⟩ := Option.ne_none_iff_exists'.mp absent
  have counted := countP_set (join_eq_some.mp entry) none
  constructor
  · simpa using counted
  · dsimp only
    omega

theorem naClSetThreadGeneration_live
    {thread : Nat} {generation : Int}
    (ran : naClSetThreadGeneration app thread generation = some next) :
    liveThreads next.threads = liveThreads app.threads := by
  rw [naClSetThreadGeneration] at ran
  cases slot : (app.threads[thread]?).join with
  | none =>
      rw [slot] at ran
      cases ran
  | some previous =>
      rw [slot] at ran
      dsimp only at ran
      split_ifs at ran
      · cases ran
        have counted := countP_set (join_eq_some.mp slot) (some generation)
        simpa using counted
      · cases ran
        rfl

end Count

/-! ## The invariant of the runs -/

section Invariant

/-- `num_threads` is the number of threads, and generations start at zero. -/
structure ThreadsCounted (app : NaClApp) : Prop where
  live : liveThreads app.threads = app.numThreads
  generation : 0 ≤ app.dynamicDeleteGeneration

theorem ThreadsCounted.same
    (counted : ThreadsCounted app) (same : SameButMapping app next) :
    ThreadsCounted next where
  live := by
    rw [same.threads, same.numThreads]
    exact counted.live
  generation := by
    rw [same.generation]
    exact counted.generation

variable {result : Int} {thread : Nat}

private theorem create_counted
    (counted : ThreadsCounted app) {dest src size : UInt32}
    (ran : naClTextSysDyncodeCreate layout world app dest src size =
      some (next, result)) :
    ThreadsCounted next := by
  simp only [naClTextSysDyncodeCreate] at ran
  split_ifs at ran
  case neg =>
    rw [createRegion] at ran
    obtain ⟨⟨regions, created⟩, claimed, rest⟩ :=
      Option.bind_eq_some_iff.mp ran
    have kept : ThreadsCounted { app with regions := regions } :=
      ⟨counted.live, counted.generation⟩
    dsimp only at rest
    split_ifs at rest
    · cases rest
      exact kept
    · cases rest
      exact kept
    · exact kept.same (installCode_maps rest).same
  all_goals
    cases ran
    exact counted

private theorem setThreadGeneration_counted
    (counted : ThreadsCounted app) {generation : Int}
    (ran : naClSetThreadGeneration app thread generation = some next) :
    ThreadsCounted next := by
  have live := naClSetThreadGeneration_live ran
  rw [naClSetThreadGeneration_same ran]
  exact ⟨live.trans counted.live, counted.generation⟩

structure RequestsDeletion (app next : NaClApp) (index : Nat)
    (error : Option Int) : Prop where
  counted : ThreadsCounted next
  pending : error = none →
    0 ≤ (next.regions.dynamicRegions index).deleteGeneration
  start : (next.regions.dynamicRegions index).start =
    (app.regions.dynamicRegions index).start
  failed : error ≠ some 0

theorem requestDeletion_requests
    (counted : ThreadsCounted app) {index : Nat} {dest size : UInt32}
    {error : Option Int}
    (ran : requestDeletion layout world app index dest size =
      some (next, error)) :
    RequestsDeletion app next index error := by
  rw [requestDeletion] at ran
  split_ifs at ran with pending exhausted
  · cases ran
    exact ⟨counted, fun _ => pending, rfl, (Option.some_ne_none _).symm⟩
  · cases ran
    exact ⟨counted, fun wrong => absurd wrong (Option.some_ne_none _), rfl,
      by decide⟩
  · obtain ⟨⟨mapped, address⟩, wrapped, rest⟩ :=
      Option.bind_eq_some_iff.mp ran
    have mapping := naclTextMapWrapper_same wrapped
    cases address with
    | none =>
        cases rest
        exact ⟨counted.same mapping,
          fun wrong => absurd wrong (Option.some_ne_none _),
          by rw [mapping.regions], by decide⟩
    | some address =>
        obtain ⟨cleared, clears, final⟩ := Option.bind_eq_some_iff.mp rest
        cases final
        have clearing := mapping.trans
          (naclTextMapClearCacheIfNeeded_same clears)
        have kept := counted.same clearing
        have generation := kept.generation
        refine ⟨⟨kept.live, ?_⟩, ?_, ?_, (Option.some_ne_none _).symm⟩
        · exact Int.add_nonneg generation (by decide)
        · intro _
          dsimp only [setDeleteGeneration]
          rw [Function.update_self]
          exact Int.add_nonneg generation (by decide)
        · dsimp only [setDeleteGeneration]
          rw [Function.update_self, clearing.regions]

private theorem finishDeletion_counted
    (counted : ThreadsCounted app) {index : Nat}
    (ran : finishDeletion world app thread index = some (next, result)) :
    ThreadsCounted next := by
  obtain ⟨passed, minimum, updated, -,
    ⟨-, regions, -, rfl⟩ | ⟨rfl, -⟩⟩ := finishDeletion_cases ran
  · have kept := setThreadGeneration_counted counted updated
    exact ⟨kept.live, kept.generation⟩
  · exact setThreadGeneration_counted counted updated

private theorem delete_counted
    (counted : ThreadsCounted app) {dest size : UInt32}
    (ran : naClTextSysDyncodeDelete layout world app thread dest size =
      some (next, result)) :
    ThreadsCounted next := by
  cases naClTextSysDyncodeDelete_cases ran with
  | refused => exact counted
  | passes empty updated => exact setThreadGeneration_counted counted updated
  | asked found start asks ends =>
      have kept := (requestDeletion_requests counted asks).counted
      rcases ends with ⟨-, rfl⟩ | ⟨-, finished⟩
      · exact kept
      · exact finishDeletion_counted kept finished

theorem perform_counted
    (counted : ThreadsCounted app) {call : Call}
    (ran : perform layout world app thread call = some (next, result)) :
    ThreadsCounted next := by
  cases call with
  | create dest src size => exact create_counted counted ran
  | modify dest src size =>
      exact counted.same (naClTextSysDyncodeModify_same ran)
  | delete dest size => exact delete_counted counted ran
  | addThread =>
      cases ran
      refine ⟨?_, counted.generation⟩
      rw [naClAddThreadMu_live, counted.live]
      rfl
  | exitThread =>
      obtain ⟨left, removed, same⟩ := Option.map_eq_some_iff.mp ran
      cases same
      obtain ⟨live, number⟩ := naClRemoveThreadMu_live removed
      have before := counted.live
      refine ⟨by omega, ?_⟩
      rw [naClRemoveThreadMu_same removed]
      exact counted.generation

theorem reachable_counted
    (reached : Reachable layout app) : ThreadsCounted app := by
  induction reached with
  | initial => exact ⟨rfl, Int.le_refl _⟩
  | step world thread call _ ran ih => exact perform_counted ih ran

end Invariant

/-! ## The first slots -/

section Slots

variable {threads : List (Option Int)} {count : Nat}

private theorem liveThreads_take
    (present : ∀ slot < count, (threads[slot]?).join ≠ none) :
    liveThreads (threads.take count) = count := by
  induction count generalizing threads with
  | zero => rfl
  | succ count ih =>
      cases threads with
      | nil => exact absurd rfl (present 0 (Nat.succ_pos _))
      | cons first rest =>
          have here := present 0 (Nat.succ_pos _)
          have later : liveThreads (rest.take count) = count :=
            ih (fun slot below =>
              present (slot + 1) (Nat.succ_lt_succ below))
          cases first with
          | none => exact absurd rfl here
          | some generation =>
              simp only [liveThreads, List.take_succ_cons, List.countP_cons]
                at later ⊢
              simp [later]

private theorem present_of_liveThreads_take
    (full : liveThreads (threads.take count) = count) :
    ∀ slot < count, (threads[slot]?).join ≠ none := by
  have length : (threads.take count).length ≤ count := by
    rw [List.length_take]
    exact Nat.min_le_left _ _
  have most : liveThreads (threads.take count) ≤
      (threads.take count).length := List.countP_le_length
  have all := (List.countP_eq_length (p := Option.isSome)).mp
    (show liveThreads (threads.take count) = (threads.take count).length by
      omega)
  intro slot below missing
  have inside : slot < (threads.take count).length := by omega
  have entry : (threads.take count)[slot]? = threads[slot]? :=
    List.getElem?_take_of_lt below
  have live := all _ (List.getElem_mem inside)
  rw [← entry, List.getElem?_eq_getElem inside] at missing
  rw [show (threads.take count)[slot] = none from missing] at live
  cases live

private theorem liveThreads_drop
    (none_ : ∀ slot generation, threads[slot]? = some (some generation) →
      slot < count) :
    liveThreads (threads.drop count) = 0 := by
  rw [liveThreads, List.countP_eq_zero]
  intro entry member
  obtain ⟨slot, here⟩ := List.mem_iff_getElem?.mp member
  rw [List.getElem?_drop] at here
  cases entry with
  | none => exact Bool.false_ne_true
  | some generation =>
      have below := none_ _ _ here
      omega

private theorem lt_of_liveThreads_drop
    (empty : liveThreads (threads.drop count) = 0)
    {slot : Nat} {generation : Int}
    (present : threads[slot]? = some (some generation)) : slot < count := by
  by_contra late
  have entry : (threads.drop count)[slot - count]? =
      some (some generation) := by
    rw [List.getElem?_drop, Nat.add_sub_of_le (not_lt.mp late)]
    exact present
  rw [liveThreads, List.countP_eq_zero] at empty
  exact empty _ (List.mem_of_getElem? entry) rfl

private theorem liveThreads_split (threads : List (Option Int)) (count : Nat) :
    liveThreads (threads.take count) + liveThreads (threads.drop count) =
      liveThreads threads := by
  rw [liveThreads, liveThreads, ← List.countP_append, List.take_append_drop]
  rfl

end Slots

section Results

theorem present_iff_compact
    (counted : ThreadsCounted app) :
    (∀ slot < app.numThreads, (app.threads[slot]?).join ≠ none) ↔
      Compact app := by
  have split := liveThreads_split app.threads app.numThreads
  have live := counted.live
  constructor
  · intro present slot generation thread
    have taken := liveThreads_take present
    exact lt_of_liveThreads_drop (by omega) thread
  · intro compact
    have dropped := liveThreads_drop compact
    exact present_of_liveThreads_take (by omega)

theorem covers_of_minimum
    (counted : ThreadsCounted app) {minimum : Int}
    (found : naClMinimumThreadGeneration app = some minimum) :
    Compact app ∧
      ∀ slot generation, IsThread app slot generation →
        minimum ≤ generation := by
  obtain ⟨-, below⟩ := minimumGenerationFrom_le found
  have compact : Compact app := by
    apply (present_iff_compact counted).mp
    intro slot inside missing
    obtain ⟨generation, entry, -⟩ := below slot (Nat.zero_le _) (by omega)
    rw [join_eq_some.mpr entry] at missing
    cases missing
  refine ⟨compact, ?_⟩
  intro slot generation thread
  have inside := compact slot generation thread
  obtain ⟨other, entry, smaller⟩ := below slot (Nat.zero_le _) (by omega)
  have same : some (some other) = some (some generation) :=
    entry.symm.trans thread
  cases same
  exact smaller

theorem minimumCovers_iff_compact
    (counted : ThreadsCounted app) :
    MinimumCovers app ↔ Compact app := by
  constructor
  · intro covers
    obtain ⟨minimum, found, -⟩ := covers
    exact (covers_of_minimum counted found).1
  · intro compact
    obtain ⟨minimum, found⟩ := minimumGenerationFrom_isSome app.threads
      app.numThreads 0 0
      (fun slot _ inside => (present_iff_compact counted).mpr compact slot
        (by omega))
    exact ⟨minimum, found, (covers_of_minimum counted found).2⟩

theorem finishDeletion_passed
    (counted : ThreadsCounted app) {thread index : Nat}
    (ran : finishDeletion world app thread index = some (next, 0)) :
    ∀ slot generation, IsThread next slot generation →
      (app.regions.dynamicRegions index).deleteGeneration ≤ generation := by
  obtain ⟨passed, minimum, updated, found,
    ⟨all, regions, removed, rfl⟩ | ⟨-, failed⟩⟩ := finishDeletion_cases ran
  · have kept := setThreadGeneration_counted counted updated
    intro slot generation present
    exact Int.le_trans all
      ((covers_of_minimum kept found).2 slot generation present)
  · cases failed

theorem removesPassed
    (counted : ThreadsCounted app) : RemovesPassed layout app := by
  intro world thread dest size next ran nonempty
  cases naClTextSysDyncodeDelete_cases ran with
  | refused failed => exact absurd rfl failed
  | passes empty => exact absurd empty nonempty
  | @asked index requested _ error _ found start asks ends =>
      have request := requestDeletion_requests counted asks
      rcases ends with ⟨same, -⟩ | ⟨same, finished⟩
      · exact absurd same request.failed
      · subst same
        exact ⟨index, requested, asks, request.start.trans start,
          request.pending rfl, finishDeletion_passed request.counted finished⟩

/-- In every state that calls of any threads lead to, the minimum is found and
covers all threads exactly if the threads have the first slots of the table.
In any case a region is removed only after every thread has passed. -/
theorem reachable_minimumCovers_iff
    (layout : AppLayout) {app : NaClApp} (reached : Reachable layout app) :
    (MinimumCovers app ↔ Compact app) ∧ RemovesPassed layout app :=
  ⟨minimumCovers_iff_compact (reachable_counted reached),
    removesPassed (reachable_counted reached)⟩

/-- Two threads, and one. -/
theorem reachable_minimumCovers_iff_pages :
    ∃ app, Reachable pagesLayout app ∧ app.numThreads = 2 ∧
      ((MinimumCovers app ↔ Compact app) ∧
        RemovesPassed pagesLayout app) := by
  have one : Reachable pagesLayout (naClAddThreadMu NaClApp.initial) :=
    .step obliging 0 .addThread .initial rfl
  have two : Reachable pagesLayout
      (naClAddThreadMu (naClAddThreadMu NaClApp.initial)) :=
    .step obliging 0 .addThread one rfl
  exact ⟨_, two, rfl, reachable_minimumCovers_iff pagesLayout two⟩

/-- The first of two threads exits, and its slot is looked at. -/
theorem not_minimumCovers_exited :
    ∃ app, Reachable pagesLayout app ∧ ¬ MinimumCovers app := by
  have one : Reachable pagesLayout (naClAddThreadMu NaClApp.initial) :=
    .step obliging 0 .addThread .initial rfl
  have two : Reachable pagesLayout
      (naClAddThreadMu (naClAddThreadMu NaClApp.initial)) :=
    .step obliging 0 .addThread one rfl
  have left : Reachable pagesLayout
      { NaClApp.initial with threads := [none, some 0], numThreads := 1 } :=
    .step obliging 0 .exitThread two rfl
  refine ⟨_, left, ?_⟩
  intro covers
  obtain ⟨minimum, found, -⟩ := covers
  cases found

end Results

end NativeClient.Runtime
