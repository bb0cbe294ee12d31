import NativeClient.Library.OneShot

/-!
# Tables of pending callbacks

Both tables number their callbacks with a counter that wraps.  The table of
closures erases what it gives back and looks for an identifier that is free.
The table of completion callbacks does neither.
-/

namespace NativeClient.Callbacks

open NativeClient.Library

section Completion

/-- A `PP_CompletionCallback`. -/
structure PPCompletionCallback (φ δ : Type) where
  func : Option φ
  userData : Option δ

variable {φ δ : Type}

structure CompletionCallbackTable (φ δ : Type) where
  table : Int32 → Option (PPCompletionCallback φ δ)
  nextId : Int32

def emptyCallback : PPCompletionCallback φ δ := ⟨none, none⟩

namespace CompletionCallbackTable

def new : CompletionCallbackTable φ δ := ⟨fun _ => none, 0⟩

def addCallback (table : CompletionCallbackTable φ δ)
    (callback : PPCompletionCallback φ δ) :
    Int32 × CompletionCallbackTable φ δ :=
  match callback.func with
  | none => (0, table)
  | some _ =>
      (table.nextId,
        { table := Function.update table.table table.nextId (some callback)
          nextId := table.nextId + 1 })

def removeCallback (table : CompletionCallbackTable φ δ) (callbackId : Int32) :
    PPCompletionCallback φ δ × CompletionCallbackTable φ δ :=
  match table.table callbackId with
  | some callback => (callback, table)
  | none => (emptyCallback, table)

def invokeCompletionCallback (table : CompletionCallbackTable φ δ)
    (callbackId : Int32) :
    Option (PPCompletionCallback φ δ) × Bool × CompletionCallbackTable φ δ :=
  let (callback, table) := table.removeCallback callbackId
  match callback.func with
  | some _ => (some callback, true, table)
  | none => (none, false, table)

inductive Request (φ δ : Type) where
  | add (callback : PPCompletionCallback φ δ)
  | remove (callbackId : Int32)
  | invoke (callbackId : Int32)

def step (table : CompletionCallbackTable φ δ) :
    Request φ δ →
      TableEvent Int32 (PPCompletionCallback φ δ) × CompletionCallbackTable φ δ
  | .add callback =>
      let (id, after) := table.addCallback callback
      match callback.func with
      | none => (.rejected id, after)
      | some _ => (.accepted id callback, after)
  | .remove callbackId =>
      let (callback, after) := table.removeCallback callbackId
      (.removed callbackId callback, after)
  | .invoke callbackId =>
      let (ran, _, after) := table.invokeCompletionCallback callbackId
      (.removed callbackId (ran.getD emptyCallback), after)

def events (table : CompletionCallbackTable φ δ) :
    List (Request φ δ) → List (TableEvent Int32 (PPCompletionCallback φ δ))
  | [] => []
  | request :: requests =>
      (table.step request).1 :: (table.step request).2.events requests

end CompletionCallbackTable

end Completion

section Closures

variable {φ : Type}

structure NPClosureTable (φ : Type) where
  closures : UInt32 → Option (Option φ)
  nextId : UInt32

namespace NPClosureTable

def kInvalidId : UInt32 := -1

def kMaxTries : Nat := 16

def new : NPClosureTable φ := ⟨fun _ => none, 0⟩

/-- Whether one of so many tries finds a free identifier, and `next_id_` after
them. -/
def tries (closures : UInt32 → Option (Option φ)) : Nat → UInt32 → Bool × UInt32
  | 0, nextId => (false, nextId)
  | left + 1, nextId =>
      if kInvalidId = nextId then tries closures left (nextId + 1)
      else
        match closures nextId with
        | none => (true, nextId)
        | some _ => tries closures left (nextId + 1)

def add (table : NPClosureTable φ) (closure : Option φ) :
    UInt32 × NPClosureTable φ :=
  let (found, nextId) := tries table.closures kMaxTries table.nextId
  if found then
    (nextId,
      { closures := Function.update table.closures nextId (some closure)
        nextId := nextId })
  else (kInvalidId, { table with nextId := nextId })

def remove (table : NPClosureTable φ) (id : UInt32) :
    Option φ × NPClosureTable φ :=
  match table.closures id with
  | none => (none, table)
  | some closure =>
      (closure, { table with closures := Function.update table.closures id none })

inductive Request (φ : Type) where
  | add (closure : Option φ)
  | remove (id : UInt32)

def step (table : NPClosureTable φ) :
    Request φ → TableEvent UInt32 (Option φ) × NPClosureTable φ
  | .add closure =>
      let (id, after) := table.add closure
      (if id = kInvalidId then .rejected id else .accepted id closure, after)
  | .remove id =>
      let (closure, after) := table.remove id
      (.removed id closure, after)

def events (table : NPClosureTable φ) :
    List (Request φ) → List (TableEvent UInt32 (Option φ))
  | [] => []
  | request :: requests =>
      (table.step request).1 :: (table.step request).2.events requests

end NPClosureTable

end Closures

namespace NPClosureTable

variable {φ : Type}

/-- The table of closures is what is pending, and only `kInvalidId` was ever
returned for a rejected closure. -/
structure Tracks (table : NPClosureTable φ)
    (pending : Pending UInt32 (Option φ)) : Prop where
  same : pending.values = table.closures
  reserved : table.closures kInvalidId = none
  refused : ∀ id, pending.refused id → id = kInvalidId

theorem tries_found
    {closures : UInt32 → Option (Option φ)} {left : Nat} {nextId found : UInt32}
    (finds : tries closures left nextId = (true, found)) :
    found ≠ kInvalidId ∧ closures found = none := by
  induction left generalizing nextId with
  | zero => cases finds
  | succ left ih =>
      rw [tries] at finds
      split at finds
      next => exact ih finds
      next valid =>
        split at finds
        next free =>
          cases finds
          exact ⟨Ne.symm valid, free⟩
        next => exact ih finds

/-- `Add` and `Remove` are allowed, and keep the table what is pending. -/
theorem Tracks.step
    {table : NPClosureTable φ} {pending : Pending UInt32 (Option φ)}
    (tracks : Tracks table pending) (request : Request φ) :
    pending.Allows none (table.step request).1 ∧
      Tracks (table.step request).2 (pending.after (table.step request).1) := by
  obtain ⟨same, reserved, refused⟩ := tracks
  cases request with
  | add closure =>
      unfold NPClosureTable.step NPClosureTable.add
      dsimp only
      cases finds : tries table.closures kMaxTries table.nextId with
      | mk found nextId =>
          cases found with
          | false =>
              simp only [Bool.false_eq_true, if_false, if_true]
              refine ⟨(congrFun same _).trans reserved, same, reserved,
                fun id member => ?_⟩
              exact member.elim (fun now => now) (refused id)
          | true =>
              obtain ⟨valid, free⟩ := tries_found finds
              simp only [if_true, if_neg valid]
              refine ⟨⟨same ▸ free, fun member => valid (refused _ member)⟩,
                ?_, ?_, refused⟩
              · exact congrArg (fun values => Function.update values nextId _)
                  same
              · exact (Function.update_of_ne (Ne.symm valid) _ _).trans reserved
  | remove id =>
      unfold NPClosureTable.step NPClosureTable.remove
      dsimp only
      cases closure : table.closures id with
      | none =>
          dsimp only
          refine ⟨?_, ?_, reserved, refused⟩
          · change _ = (pending.values id).getD none
            rw [same, closure]
            rfl
          · unfold Pending.after
            dsimp only
            rw [same, ← closure, Function.update_eq_self]
      | some closure' =>
          dsimp only
          refine ⟨?_, ?_, ?_, refused⟩
          · change _ = (pending.values id).getD none
            rw [same, closure]
            rfl
          · unfold Pending.after
            dsimp only
            rw [same]
          · by_cases reservedId : kInvalidId = id
            · rw [reservedId]
              exact Function.update_self _ _ _
            · exact (Function.update_of_ne reservedId _ _).trans reserved

theorem Tracks.oneShot
    {table : NPClosureTable φ} {pending : Pending UInt32 (Option φ)}
    (tracks : Tracks table pending) (requests : List (Request φ)) :
    OneShot none pending (table.events requests) := by
  induction requests generalizing table pending with
  | nil => trivial
  | cons request requests ih =>
      obtain ⟨allowed, next⟩ := tracks.step request
      exact ⟨allowed, ih next⟩

end NPClosureTable

namespace CompletionCallbackTable

variable {φ δ : Type} {table : CompletionCallbackTable φ δ}
  {pending : Pending Int32 (PPCompletionCallback φ δ)}

structure Tracks (table : CompletionCallbackTable φ δ)
    (pending : Pending Int32 (PPCompletionCallback φ δ)) : Prop where
  stored : ∀ id callback, pending.values id = some callback →
    table.table id = some callback
  runs : ∀ id callback, table.table id = some callback → callback.func ≠ none

/-- A request that the table can cope with.  A callback that is not null is
added when the counter stands at an identifier that is neither pending nor that
of a rejected callback; a null callback is added when 0 is not pending; what is
removed is pending, or was never added. -/
def Meets (table : CompletionCallbackTable φ δ)
    (pending : Pending Int32 (PPCompletionCallback φ δ)) :
    Request φ δ → Prop
  | .add callback =>
      if callback.func = none then pending.values 0 = none
      else pending.values table.nextId = none ∧ ¬ pending.refused table.nextId
  | .remove id | .invoke id =>
      pending.values id ≠ none ∨ table.table id = none

def AllMeet (table : CompletionCallbackTable φ δ)
    (pending : Pending Int32 (PPCompletionCallback φ δ)) :
    List (Request φ δ) → Prop
  | [] => True
  | request :: requests =>
      Meets table pending request ∧
        AllMeet (table.step request).2 (pending.after (table.step request).1)
          requests

theorem step_null
    {callback : PPCompletionCallback φ δ}
    (null : callback.func = none) :
    table.step (.add callback) = (.rejected 0, table) := by
  simp [CompletionCallbackTable.step, addCallback, null]

theorem step_add
    {callback : PPCompletionCallback φ δ}
    (notNull : callback.func ≠ none) :
    table.step (.add callback) =
      (.accepted table.nextId callback,
        { table := Function.update table.table table.nextId (some callback)
          nextId := table.nextId + 1 }) := by
  obtain ⟨func, runs⟩ := Option.ne_none_iff_exists'.mp notNull
  simp [CompletionCallbackTable.step, addCallback, runs]

theorem step_remove
    (tracks : Tracks table pending) (id : Int32) :
    table.step (.remove id) =
        (.removed id ((table.table id).getD emptyCallback), table) ∧
      table.step (.invoke id) =
        (.removed id ((table.table id).getD emptyCallback), table) := by
  cases found : table.table id with
  | none =>
      simp [CompletionCallbackTable.step, invokeCompletionCallback,
        removeCallback, found, emptyCallback]
  | some callback =>
      obtain ⟨func, runs⟩ :=
        Option.ne_none_iff_exists'.mp (tracks.runs id callback found)
      simp [CompletionCallbackTable.step, invokeCompletionCallback,
        removeCallback, found, runs]

theorem Tracks.removed
    (tracks : Tracks table pending) (id : Int32) :
    (pending.Allows emptyCallback
        (.removed id ((table.table id).getD emptyCallback)) ↔
      pending.values id ≠ none ∨ table.table id = none) ∧
    Tracks table (pending.after
      (.removed id ((table.table id).getD emptyCallback))) := by
  refine ⟨?_, fun other callback value => ?_, tracks.runs⟩
  · change (table.table id).getD emptyCallback =
      (pending.values id).getD emptyCallback ↔ _
    cases value : pending.values id with
    | some callback =>
        rw [tracks.stored id callback value]
        exact iff_of_true rfl (.inl nofun)
    | none =>
        cases found : table.table id with
        | none => exact iff_of_true rfl (.inr rfl)
        | some callback =>
            have runs := tracks.runs id callback found
            refine iff_of_false (fun same => runs ?_) ?_
            · rw [show callback = emptyCallback from same]
              rfl
            · rintro (impossible | impossible)
              · exact impossible rfl
              · cases impossible
  · rw [Pending.values_removed] at value
    by_cases same : other = id
    · rw [same, Function.update_self] at value
      cases value
    · rw [Function.update_of_ne same] at value
      exact tracks.stored other callback value

theorem Tracks.step
    (tracks : Tracks table pending) (request : Request φ δ) :
    (pending.Allows emptyCallback (table.step request).1 ↔
      Meets table pending request) ∧
    Tracks (table.step request).2 (pending.after (table.step request).1) := by
  cases request with
  | add callback =>
      unfold Meets
      dsimp only
      by_cases null : callback.func = none
      · rw [step_null null, if_pos null]
        exact ⟨Iff.rfl, tracks.stored, tracks.runs⟩
      · rw [step_add null, if_neg null]
        refine ⟨Iff.rfl, fun other stored value => ?_,
          fun other stored value => ?_⟩
        · rw [Pending.values_accepted] at value
          dsimp only
          by_cases same : other = table.nextId
          · rw [same, Function.update_self] at value ⊢
            exact value
          · rw [Function.update_of_ne same] at value ⊢
            exact tracks.stored other stored value
        · dsimp only at value
          by_cases same : other = table.nextId
          · rw [same, Function.update_self] at value
            rw [← Option.some.inj value]
            exact null
          · rw [Function.update_of_ne same] at value
            exact tracks.runs other stored value
  | remove id =>
      rw [(step_remove tracks id).1]
      exact tracks.removed id
  | invoke id =>
      rw [(step_remove tracks id).2]
      exact tracks.removed id

theorem Tracks.oneShot_iff
    (tracks : Tracks table pending) (requests : List (Request φ δ)) :
    OneShot emptyCallback pending (table.events requests) ↔
      AllMeet table pending requests := by
  induction requests generalizing table pending with
  | nil => exact Iff.rfl
  | cons request requests ih =>
      obtain ⟨allowed, next⟩ := tracks.step request
      exact and_congr allowed (ih next)

theorem new_tracks :
    Tracks (new : CompletionCallbackTable φ δ) Pending.empty :=
  ⟨fun _ _ => nofun, fun _ _ => nofun⟩

/-- The peer presents the identifier of a callback twice. -/
theorem invoked_twice :
    ¬ OneShot emptyCallback Pending.empty
      ((new : CompletionCallbackTable Nat Nat).events
        [.add ⟨some 1, none⟩, .invoke 0, .invoke 0]) := by
  rw [new_tracks.oneShot_iff]
  rintro ⟨-, -, impossible, -⟩
  rcases impossible with pending | absent
  · exact pending rfl
  · cases absent

end CompletionCallbackTable

/-- The table of closures is one-shot in every run.  The table of completion
callbacks is in just the runs whose requests it can cope with. -/
theorem tables_oneShot {φ δ : Type} :
    (∀ requests : List (NPClosureTable.Request φ),
      OneShot none Pending.empty (NPClosureTable.new.events requests)) ∧
    ∀ requests : List (CompletionCallbackTable.Request φ δ),
      OneShot emptyCallback Pending.empty
          (CompletionCallbackTable.new.events requests) ↔
        CompletionCallbackTable.AllMeet CompletionCallbackTable.new
          Pending.empty requests := by
  have start : NPClosureTable.Tracks (NPClosureTable.new : NPClosureTable φ)
      Pending.empty := ⟨rfl, rfl, nofun⟩
  exact ⟨start.oneShot,
    CompletionCallbackTable.new_tracks.oneShot_iff⟩

end NativeClient.Callbacks
