import NativeClient.Runtime.VmmapUpdate

/-!
# Compaction of the memory map

`NaClVmmapRemoveMarked`, access by access.  Every slot that is read or written
has to be one of the array, every entry that is looked at has to be there, and
the entries that are freed are recorded.  When every entry is marked, the code
means to log that no entry is left, but reads the mark of a slot that it has
just cleared.
-/

namespace NativeClient.Runtime

open NativeClient.Library

namespace RemoveMarked

inductive Fault where
  | outside
  | null
  | fatal
  | endless
  deriving DecidableEq

structure Sweep where
  vmentry : List (Option VmmapEntry)
  freed : List VmmapEntry
  deriving DecidableEq

namespace Sweep

def slot (sweep : Sweep) (index : Nat) : Except Fault (Option VmmapEntry) :=
  match sweep.vmentry[index]? with
  | none => .error .outside
  | some slot => .ok slot

def entry (sweep : Sweep) (index : Nat) : Except Fault VmmapEntry :=
  match sweep.vmentry[index]? with
  | none => .error .outside
  | some none => .error .null
  | some (some ent) => .ok ent

def store (sweep : Sweep) (index : Nat) (slot : Option VmmapEntry) :
    Except Fault Sweep :=
  if index < sweep.vmentry.length then
    .ok { sweep with vmentry := sweep.vmentry.set index slot }
  else
    .error .outside

def free (sweep : Sweep) (ent : VmmapEntry) : Sweep :=
  { sweep with freed := sweep.freed ++ [ent] }

end Sweep

def sweepEnd : Nat → Sweep → Except Fault (Nat × Sweep)
  | 0, sweep => .ok (0, sweep)
  | last + 1, sweep => do
      let ent ← sweep.entry last
      if ent.removed then
        let sweep ← (sweep.free ent).store last none
        sweepEnd last sweep
      else
        .ok (last, sweep)

/-- The inner loop, above the slot that was just filled.  At zero `--last`
wraps around. -/
def sweepAbove (index : Nat) : Nat → Sweep → Except Fault (Nat × Sweep)
  | 0, _ => .error .outside
  | last + 1, sweep =>
      if index < last then do
        let ent ← sweep.entry last
        if ent.removed then
          let sweep ← (sweep.free ent).store last none
          sweepAbove index last sweep
        else
          .ok (last, sweep)
      else
        .ok (last, sweep)

def fillSlots : Nat → Nat → Nat → Sweep → Except Fault (Nat × Sweep)
  | 0, _, _, _ => .error .endless
  | fuel + 1, index, last, sweep =>
      if index < last then do
        let ent ← sweep.entry index
        if ent.removed then
          let moved ← sweep.slot last
          let sweep ← (sweep.free ent).store index moved
          let sweep ← sweep.store last none
          let (last, sweep) ← sweepAbove index last sweep
          fillSlots fuel (index + 1) last sweep
        else
          fillSlots fuel (index + 1) last sweep
      else
        .ok (last, sweep)

/-- A failed `CHECK`, or a message that is fatal. -/
def check (holds : Bool) : Except Fault Unit :=
  if holds then .ok () else .error .fatal

/-- The array has `nvalid` slots afterwards. -/
def removeMarked (vmentry : List (Option VmmapEntry)) : Except Fault Sweep :=
  if vmentry.length = 0 then
    .ok ⟨vmentry, []⟩
  else do
    let (last, sweep) ← sweepEnd vmentry.length ⟨vmentry, []⟩
    if last = 0 then
      let ent ← sweep.entry 0
      check (!ent.removed)
    check (last < vmentry.length)
    let ent ← sweep.entry last
    check (!ent.removed)
    let (last, sweep) ← fillSlots (vmentry.length + 1) 0 last sweep
    .ok { sweep with vmentry := sweep.vmentry.take (last + 1) }

def RemovesExactly (items : List VmmapEntry) : Prop :=
  ∃ kept freed : List VmmapEntry,
    removeMarked (items.map some) = .ok ⟨kept.map some, freed⟩ ∧
    kept.Perm (items.filter fun ent => !ent.removed) ∧
    freed.Perm (items.filter VmmapEntry.removed)

/-! ## What a step does to the entries -/

private theorem filterMap_cons (slot : Option VmmapEntry)
    (slots : List (Option VmmapEntry)) :
    (slot :: slots).filterMap id = slot.toList ++ slots.filterMap id := by
  cases slot <;> rfl

theorem nonnull_set
    {slots : List (Option VmmapEntry)} {index : Nat}
    {old fresh : Option VmmapEntry} (here : slots[index]? = some old) :
    ((slots.set index fresh).filterMap id ++ old.toList).Perm
      (slots.filterMap id ++ fresh.toList) := by
  induction slots generalizing index with
  | nil => cases here
  | cons slot slots ih =>
      cases index with
      | zero =>
          cases here
          rw [List.set_cons_zero, filterMap_cons, filterMap_cons]
          calc
            (fresh.toList ++ slots.filterMap id ++ old.toList).Perm
                (old.toList ++ (fresh.toList ++ slots.filterMap id)) :=
              List.perm_append_comm
            _ |>.Perm (old.toList ++ (slots.filterMap id ++ fresh.toList)) :=
              List.perm_append_comm.append_left _
            _ |>.Perm (old.toList ++ slots.filterMap id ++ fresh.toList) :=
              List.Perm.of_eq (List.append_assoc _ _ _).symm
      | succ index =>
          rw [List.set_cons_succ, filterMap_cons, filterMap_cons,
            List.append_assoc, List.append_assoc]
          exact (ih here).append_left _

/-- The slots below `last` hold entries and the others are null; together with
the freed entries, which are marked, they are the entries of the array. -/
structure Swept (items : List VmmapEntry) (last : Nat) (sweep : Sweep) :
    Prop where
  conserved : (sweep.vmentry.filterMap id ++ sweep.freed).Perm items
  marked : ∀ ent ∈ sweep.freed, ent.removed = true
  length : sweep.vmentry.length = items.length
  filled : ∀ index < last, ∃ ent, sweep.vmentry[index]? = some (some ent)
  cleared : ∀ index, last ≤ index → index < items.length →
    sweep.vmentry[index]? = some none
  bound : last ≤ items.length

theorem swept_start (items : List VmmapEntry) :
    Swept items items.length ⟨items.map some, []⟩ where
  conserved := by
    rw [List.append_nil, List.filterMap_map]
    exact List.Perm.of_eq List.filterMap_some
  marked := nofun
  length := List.length_map _
  filled index below := by
    refine ⟨items[index], ?_⟩
    rw [List.getElem?_map, List.getElem?_eq_getElem below]
    rfl
  cleared index above below := absurd below (Nat.not_lt.mpr above)
  bound := Nat.le_refl _

variable {sweep : Sweep} {index last : Nat} {ent : VmmapEntry}
  {items : List VmmapEntry}

theorem entry_eq
    (here : sweep.vmentry[index]? = some (some ent)) :
    sweep.entry index = .ok ent := by
  rw [Sweep.entry, here]

theorem store_free
    (inside : index < sweep.vmentry.length)
    (ent : VmmapEntry) (slot : Option VmmapEntry) :
    (sweep.free ent).store index slot =
      .ok ⟨sweep.vmentry.set index slot, sweep.freed ++ [ent]⟩ :=
  if_pos inside

theorem Swept.release
    (swept : Swept items (last + 1) sweep)
    (here : sweep.vmentry[last]? = some (some ent))
    (isMarked : ent.removed = true) :
    (sweep.free ent).store last none =
        .ok ⟨sweep.vmentry.set last none, sweep.freed ++ [ent]⟩ ∧
      Swept items last ⟨sweep.vmentry.set last none, sweep.freed ++ [ent]⟩ := by
  have bound := swept.bound
  have inside : last < sweep.vmentry.length := by
    rw [swept.length]
    exact bound
  refine ⟨store_free inside ent none, ?_⟩
  constructor
  case conserved =>
    have moved := @nonnull_set sweep.vmentry last (some ent) none here
    rw [Option.toList_none, List.append_nil] at moved
    calc
      ((sweep.vmentry.set last none).filterMap id ++ (sweep.freed ++ [ent])).Perm
          ((sweep.vmentry.set last none).filterMap id ++
            ([ent] ++ sweep.freed)) := List.perm_append_comm.append_left _
      _ |>.Perm ((sweep.vmentry.set last none).filterMap id ++ [ent] ++
            sweep.freed) := List.Perm.of_eq (List.append_assoc _ _ _).symm
      _ |>.Perm (sweep.vmentry.filterMap id ++ sweep.freed) :=
          moved.append_right _
      _ |>.Perm items := swept.conserved
  case marked =>
    intro other member
    rcases List.mem_append.mp member with old | new
    · exact swept.marked other old
    · rw [List.mem_singleton.mp new]
      exact isMarked
  case length =>
    rw [List.length_set]
    exact swept.length
  case filled =>
    intro index below
    obtain ⟨other, there⟩ := swept.filled index (by omega)
    refine ⟨other, ?_⟩
    rw [List.getElem?_set_ne (by omega)]
    exact there
  case cleared =>
    intro index above below
    by_cases same : last = index
    · rw [← same, List.getElem?_set_self inside]
    · rw [List.getElem?_set_ne same]
      exact swept.cleared index (by omega) below
  case bound => omega

theorem sweepEnd_spec
    (swept : Swept items last sweep) :
    ∃ after, sweepEnd last sweep = .ok (0, after) ∧ Swept items 0 after ∨
      ∃ stop, sweepEnd last sweep = .ok (stop, after) ∧
        Swept items (stop + 1) after ∧
        ∃ ent, after.vmentry[stop]? = some (some ent) ∧
          ent.removed = false := by
  induction last generalizing sweep with
  | zero => exact ⟨sweep, .inl ⟨rfl, swept⟩⟩
  | succ last ih =>
      obtain ⟨ent, here⟩ := swept.filled last (Nat.lt_succ_self last)
      rw [sweepEnd, entry_eq here]
      cases isMarked : ent.removed with
      | false =>
          refine ⟨sweep, .inr ⟨last, ?_, swept, ent, here, isMarked⟩⟩
          exact if_neg (by simp [isMarked])
      | true =>
          obtain ⟨stored, released⟩ := swept.release here isMarked
          obtain ⟨after, ended⟩ := ih released
          refine ⟨after, ?_⟩
          have step : (Except.ok ent >>= fun ent =>
              if ent.removed = true then do
                let sweep ← (sweep.free ent).store last none
                sweepEnd last sweep
              else .ok (last, sweep)) =
              sweepEnd last
                ⟨sweep.vmentry.set last none, sweep.freed ++ [ent]⟩ := by
            show (if ent.removed = true then _ else _) = _
            rw [if_pos isMarked, stored]
            rfl
          rw [step]
          exact ended

/-- The slots up to `index` hold entries that are not marked. -/
def LiveTo (index : Nat) (sweep : Sweep) : Prop :=
  ∀ place ≤ index, ∃ ent, sweep.vmentry[place]? = some (some ent) ∧
    ent.removed = false

theorem sweepAbove_spec
    (swept : Swept items last sweep) (below : index < last)
    (live : LiveTo index sweep) :
    ∃ stop after, sweepAbove index last sweep = .ok (stop, after) ∧
      Swept items (stop + 1) after ∧ index ≤ stop ∧ stop < last ∧
      LiveTo index after ∧
      ∃ ent, after.vmentry[stop]? = some (some ent) ∧
        ent.removed = false := by
  induction last generalizing sweep with
  | zero => exact absurd below (Nat.not_lt_zero _)
  | succ last ih =>
      rw [sweepAbove]
      by_cases more : index < last
      · obtain ⟨ent, here⟩ := swept.filled last (Nat.lt_succ_self last)
        rw [if_pos more, entry_eq here]
        cases isMarked : ent.removed with
        | false =>
            refine ⟨last, sweep, ?_, swept, Nat.le_of_lt more,
              Nat.lt_succ_self last, live, ent, here, isMarked⟩
            exact if_neg (by simp [isMarked])
        | true =>
            obtain ⟨stored, released⟩ := swept.release here isMarked
            have still : LiveTo index
                ⟨sweep.vmentry.set last none, sweep.freed ++ [ent]⟩ := by
              intro place within
              obtain ⟨other, there, unmarked⟩ := live place within
              refine ⟨other, ?_, unmarked⟩
              rw [List.getElem?_set_ne (by omega)]
              exact there
            obtain ⟨stop, after, run, done, least, less, rest⟩ :=
              ih released more still
            refine ⟨stop, after, ?_, done, least, Nat.lt_succ_of_lt less, rest⟩
            rw [← run]
            show (if ent.removed = true then _ else _) = _
            rw [if_pos isMarked, stored]
            rfl
      · have same : index = last := by omega
        obtain ⟨ent, here, unmarked⟩ := live index (Nat.le_refl index)
        rw [if_neg more]
        rw [same] at here
        exact ⟨last, sweep, rfl, swept, Nat.le_of_eq same,
          Nat.lt_succ_self last, live, ent, here, unmarked⟩

theorem Swept.move
    {moved : VmmapEntry} (swept : Swept items (last + 1) sweep)
    (below : index < last)
    (here : sweep.vmentry[index]? = some (some ent))
    (there : sweep.vmentry[last]? = some (some moved))
    (isMarked : ent.removed = true) :
    Swept items last
      ⟨(sweep.vmentry.set index (some moved)).set last none,
        sweep.freed ++ [ent]⟩ := by
  have bound := swept.bound
  have inside : last < sweep.vmentry.length := by
    rw [swept.length]
    exact bound
  have thereStill : (sweep.vmentry.set index (some moved))[last]? =
      some (some moved) := by
    rw [List.getElem?_set_ne (by omega)]
    exact there
  constructor
  case conserved =>
    have first := @nonnull_set sweep.vmentry index (some ent) (some moved) here
    have second := @nonnull_set (sweep.vmentry.set index (some moved)) last
      (some moved) none thereStill
    rw [Option.toList_none, List.append_nil] at second
    -- The entry that has moved is counted once, before and after.
    have kept : (((sweep.vmentry.set index (some moved)).set last none).filterMap
        id ++ [ent]).Perm (sweep.vmentry.filterMap id) := by
      refine (List.perm_append_right_iff [moved]).mp ?_
      calc
        (((sweep.vmentry.set index (some moved)).set last none).filterMap id ++
            [ent] ++ [moved]).Perm
            (((sweep.vmentry.set index (some moved)).set last none).filterMap id ++
              ([moved] ++ [ent])) := by
          rw [List.append_assoc]
          exact List.perm_append_comm.append_left _
        _ |>.Perm (((sweep.vmentry.set index (some moved)).set last
              none).filterMap id ++ [moved] ++ [ent]) :=
            List.Perm.of_eq (List.append_assoc _ _ _).symm
        _ |>.Perm ((sweep.vmentry.set index (some moved)).filterMap id ++
              [ent]) := second.append_right _
        _ |>.Perm (sweep.vmentry.filterMap id ++ [moved]) := first
    calc
      (((sweep.vmentry.set index (some moved)).set last none).filterMap id ++
          (sweep.freed ++ [ent])).Perm
          (((sweep.vmentry.set index (some moved)).set last none).filterMap id ++
            ([ent] ++ sweep.freed)) := List.perm_append_comm.append_left _
      _ |>.Perm (((sweep.vmentry.set index (some moved)).set last
            none).filterMap id ++ [ent] ++ sweep.freed) :=
          List.Perm.of_eq (List.append_assoc _ _ _).symm
      _ |>.Perm (sweep.vmentry.filterMap id ++ sweep.freed) :=
          kept.append_right _
      _ |>.Perm items := swept.conserved
  case marked =>
    intro other member
    rcases List.mem_append.mp member with old | new
    · exact swept.marked other old
    · rw [List.mem_singleton.mp new]
      exact isMarked
  case length =>
    rw [List.length_set, List.length_set]
    exact swept.length
  case filled =>
    intro place less
    by_cases same : index = place
    · refine ⟨moved, ?_⟩
      rw [List.getElem?_set_ne (by omega), ← same,
        List.getElem?_set_self (by omega)]
    · obtain ⟨other, found⟩ := swept.filled place (by omega)
      refine ⟨other, ?_⟩
      rw [List.getElem?_set_ne (by omega), List.getElem?_set_ne same]
      exact found
  case cleared =>
    intro place above less
    by_cases same : last = place
    · rw [← same, List.getElem?_set_self (by
        rw [List.length_set]
        exact inside)]
    · rw [List.getElem?_set_ne same, List.getElem?_set_ne (by omega)]
      exact swept.cleared place (by omega) less
  case bound => omega

theorem fillSlots_spec
    {items : List VmmapEntry} {fuel index last : Nat} {sweep : Sweep}
    (swept : Swept items (last + 1) sweep) (enough : last + 1 < index + fuel)
    (within : index ≤ last + 1)
    (live : ∀ place < index, ∃ ent,
      sweep.vmentry[place]? = some (some ent) ∧ ent.removed = false)
    (ends : ∃ ent, sweep.vmentry[last]? = some (some ent) ∧
      ent.removed = false) :
    ∃ stop after, fillSlots fuel index last sweep = .ok (stop, after) ∧
      Swept items (stop + 1) after ∧ LiveTo stop after := by
  induction fuel generalizing index last sweep with
  | zero => omega
  | succ fuel ih =>
      rw [fillSlots]
      by_cases more : index < last
      · obtain ⟨ent, here⟩ := swept.filled index (by omega)
        rw [if_pos more, entry_eq here]
        cases isMarked : ent.removed with
        | false =>
            obtain ⟨stop, after, run, done⟩ :=
              @ih (index + 1) last sweep swept (by omega) (by omega) (by
                intro place less
                by_cases same : place = index
                · rw [same]
                  exact ⟨ent, here, isMarked⟩
                · exact live place (by omega)) ends
            refine ⟨stop, after, ?_, done⟩
            rw [← run]
            exact if_neg (by simp [isMarked])
        | true =>
            obtain ⟨moved, there, unmarked⟩ := ends
            have carried := swept.move more here there isMarked
            have filled : LiveTo index
                ⟨(sweep.vmentry.set index (some moved)).set last none,
                  sweep.freed ++ [ent]⟩ := by
              intro place least
              rw [List.getElem?_set_ne (by omega)]
              by_cases same : index = place
              · refine ⟨moved, ?_, unmarked⟩
                rw [← same, List.getElem?_set_self (by
                  rw [swept.length]
                  have bound := swept.bound
                  omega)]
              · rw [List.getElem?_set_ne same]
                exact live place (by omega)
            obtain ⟨next, swept', above, between, least, less, still, tail⟩ :=
              sweepAbove_spec carried more filled
            obtain ⟨stop, after, run, done⟩ :=
              @ih (index + 1) next swept' between (by omega) (by omega)
                (fun place smaller => still place (by omega)) tail
            refine ⟨stop, after, ?_, done⟩
            have bound := swept.bound
            have read : sweep.slot last = .ok (some moved) := by
              rw [Sweep.slot, there]
            have first : (sweep.free ent).store index (some moved) =
                .ok ⟨sweep.vmentry.set index (some moved),
                  sweep.freed ++ [ent]⟩ :=
              if_pos (by
                show index < sweep.vmentry.length
                rw [swept.length]
                omega)
            have second : Sweep.store ⟨sweep.vmentry.set index (some moved),
                sweep.freed ++ [ent]⟩ last none =
                .ok ⟨(sweep.vmentry.set index (some moved)).set last none,
                  sweep.freed ++ [ent]⟩ :=
              if_pos (by
                show last < (sweep.vmentry.set index (some moved)).length
                rw [List.length_set, swept.length]
                omega)
            rw [← run]
            show (if ent.removed = true then _ else _) = _
            rw [if_pos isMarked, read]
            show (Sweep.store (sweep.free ent) index (some moved) >>= _) = _
            rw [first]
            show (Sweep.store _ last none >>= _) = _
            rw [second]
            show (sweepAbove index last _ >>= _) = _
            rw [above]
            rfl
      · rw [if_neg more]
        refine ⟨last, sweep, rfl, swept, ?_⟩
        intro place least
        by_cases same : place = last
        · rw [same]
          exact ends
        · exact live place (by omega)

theorem Swept.take
    (swept : Swept items (last + 1) sweep) (live : LiveTo last sweep) :
    ∃ kept : List VmmapEntry,
      sweep.vmentry.take (last + 1) = kept.map some ∧
      (∀ ent ∈ kept, ent.removed = false) ∧
      (kept ++ sweep.freed).Perm items := by
  have back : (sweep.vmentry.drop (last + 1)).filterMap id = [] := by
    rw [List.filterMap_eq_nil_iff]
    intro slot member
    obtain ⟨index, less, rfl⟩ := List.mem_iff_getElem.mp member
    rw [List.getElem_drop]
    rw [List.length_drop, swept.length] at less
    have none := swept.cleared (last + 1 + index) (by omega) (by omega)
    exact (List.getElem_eq_iff _).mpr none
  have nonnull : none ∉ sweep.vmentry.take (last + 1) := by
    intro member
    obtain ⟨index, less, null⟩ := List.mem_iff_getElem.mp member
    rw [List.getElem_take] at null
    rw [List.length_take] at less
    obtain ⟨ent, here, -⟩ := live index (by omega)
    rw [List.getElem?_eq_getElem (by omega), null] at here
    cases here
  have slots := @vmentry_of_nonnull ⟨sweep.vmentry.take (last + 1), 0, false⟩
    nonnull
  refine ⟨_, slots, ?_, ?_⟩
  · intro ent member
    obtain ⟨slot, inSlots, same⟩ := List.mem_filterMap.mp member
    cases same
    obtain ⟨index, less, here⟩ := List.mem_iff_getElem.mp inSlots
    rw [List.getElem_take] at here
    rw [List.length_take] at less
    obtain ⟨other, there, unmarked⟩ := live index (by omega)
    rw [List.getElem?_eq_getElem (by omega), here] at there
    cases there
    exact unmarked
  · have whole : sweep.vmentry.filterMap id =
        (sweep.vmentry.take (last + 1)).filterMap id := by
      conv_lhs => rw [← List.take_append_drop (last + 1) sweep.vmentry]
      rw [List.filterMap_append, back, List.append_nil]
    have conserved := swept.conserved
    rw [whole] at conserved
    exact conserved

/-! ## The compaction of the model -/

section Refinement

variable {sweep : Sweep} {index last : Nat}

theorem toOption_entry (sweep : Sweep) (index : Nat) :
    (sweep.entry index).toOption = deref sweep.vmentry index := by
  rw [Sweep.entry, deref]
  cases sweep.vmentry[index]? with
  | none => rfl
  | some slot => cases slot <;> rfl

theorem inside_of_entry
    {ent : VmmapEntry} (read : sweep.entry index = .ok ent) :
    index < sweep.vmentry.length := by
  by_contra outside
  rw [Sweep.entry, List.getElem?_eq_none (Nat.not_lt.mp outside)] at read
  cases read

private theorem deref_of_entry
    {ent : VmmapEntry} (read : sweep.entry index = .ok ent) :
    deref sweep.vmentry index = some ent := by
  rw [← toOption_entry, read]
  rfl

private theorem deref_of_error
    {fault : Fault} (read : sweep.entry index = .error fault) :
    deref sweep.vmentry index = none := by
  rw [← toOption_entry, read]
  rfl

def view (result : Nat × Sweep) : List (Option VmmapEntry) × Nat :=
  (result.2.vmentry, result.1)

theorem sweepEnd_refines (last : Nat) (sweep : Sweep) :
    (sweepEnd last sweep).toOption.map view =
      dropTail VmmapEntry.removed sweep.vmentry last := by
  induction last generalizing sweep with
  | zero => rfl
  | succ last ih =>
      rw [sweepEnd, dropTail]
      cases read : sweep.entry last with
      | error fault =>
          rw [deref_of_error read]
          rfl
      | ok ent =>
          rw [deref_of_entry read]
          show (Except.toOption (ite (ent.removed = true) _ _)).map view =
            ite (ent.removed = true) _ _
          cases isMarked : ent.removed with
          | false => rfl
          | true =>
              rw [if_pos rfl, if_pos rfl, store_free (inside_of_entry read),
                ← ih ⟨sweep.vmentry.set last none, sweep.freed ++ [ent]⟩]
              rfl

theorem sweepAbove_refines (index last : Nat) (sweep : Sweep) :
    (sweepAbove index last sweep).toOption.map view =
      dropAbove VmmapEntry.removed index sweep.vmentry last := by
  induction last generalizing sweep with
  | zero => rfl
  | succ last ih =>
      rw [sweepAbove, dropAbove]
      by_cases more : index < last
      · rw [if_pos more, if_pos more]
        cases read : sweep.entry last with
        | error fault =>
            rw [deref_of_error read]
            rfl
        | ok ent =>
            rw [deref_of_entry read]
            show (Except.toOption (ite (ent.removed = true) _ _)).map view =
              ite (ent.removed = true) _ _
            cases isMarked : ent.removed with
            | false => rfl
            | true =>
                rw [if_pos rfl, if_pos rfl, store_free (inside_of_entry read),
                  ← ih ⟨sweep.vmentry.set last none, sweep.freed ++ [ent]⟩]
                rfl
      · rw [if_neg more, if_neg more]
        rfl

theorem sweepAbove_bounds
    {stop : Nat} {after : Sweep}
    (run : sweepAbove index last sweep = .ok (stop, after)) :
    stop < last ∧ after.vmentry.length = sweep.vmentry.length := by
  have same := sweepAbove_refines index last sweep
  rw [run] at same
  exact dropAbove_bounds same.symm

theorem fillSlots_refines
    {fuel : Nat} (enough : last ≤ index + fuel)
    (inside : last < sweep.vmentry.length) :
    (fillSlots (fuel + 1) index last sweep).toOption.map view =
      fillGaps VmmapEntry.removed fuel index sweep.vmentry last := by
  induction fuel generalizing index last sweep with
  | zero =>
      rw [fillSlots, if_neg (by omega)]
      rfl
  | succ fuel ih =>
      rw [fillSlots, fillGaps]
      by_cases more : index < last
      · rw [if_pos more, if_pos more]
        cases read : sweep.entry index with
        | error fault =>
            rw [deref_of_error read]
            rfl
        | ok ent =>
            rw [deref_of_entry read]
            show (Except.toOption (ite (ent.removed = true) _ _)).map view =
              ite (ent.removed = true) _ _
            cases isMarked : ent.removed with
            | false => exact ih (by omega) inside
            | true =>
                have slot : sweep.slot last =
                    .ok (sweep.vmentry[last]?.join) := by
                  rw [Sweep.slot, List.getElem?_eq_getElem inside]
                  rfl
                rw [if_pos rfl, if_pos rfl, slot]
                show (Except.toOption (Sweep.store (sweep.free ent) index _ >>=
                  _)).map view = _
                rw [store_free (inside_of_entry read)]
                show (Except.toOption (Sweep.store _ last none >>= _)).map
                  view = _
                rw [Sweep.store, if_pos (by
                  rw [List.length_set]
                  exact inside)]
                show (Except.toOption (sweepAbove index last _ >>= _)).map
                  view = _
                rw [← sweepAbove_refines index last
                  ⟨(sweep.vmentry.set index sweep.vmentry[last]?.join).set last
                    none, sweep.freed ++ [ent]⟩]
                cases above : sweepAbove index last
                    ⟨(sweep.vmentry.set index sweep.vmentry[last]?.join).set
                      last none, sweep.freed ++ [ent]⟩ with
                | error fault =>
                    rfl
                | ok result =>
                    obtain ⟨stop, after⟩ := result
                    obtain ⟨less, length⟩ := sweepAbove_bounds above
                    refine ih (by omega) ?_
                    rw [length, List.length_set, List.length_set]
                    omega
      · rw [if_neg more, if_neg more]
        rfl

theorem sweepEnd_bounds
    {stop : Nat} {after : Sweep}
    (run : sweepEnd last sweep = .ok (stop, after)) :
    stop ≤ last - 1 ∧ after.vmentry.length = sweep.vmentry.length := by
  have same := sweepEnd_refines last sweep
  rw [run] at same
  exact dropTail_bounds same.symm

private theorem removeMarked_after
    {slots : List (Option VmmapEntry)} (inside : last < slots.length)
    (run : sweepEnd slots.length ⟨slots, []⟩ = .ok (last, sweep)) :
    removeMarked slots = (do
      let ent ← sweep.entry last
      check (!ent.removed)
      let (last, sweep) ← fillSlots (slots.length + 1) 0 last sweep
      .ok { sweep with vmentry := sweep.vmentry.take (last + 1) }) := by
  have passed : check (decide (last < slots.length)) = .ok () :=
    if_pos (decide_eq_true inside)
  rw [removeMarked, if_neg (Nat.ne_zero_of_lt inside), run]
  show (ite (last = 0) _ _) = _
  by_cases isFirst : last = 0
  · rw [if_pos isFirst]
    rw [isFirst] at passed
    rw [isFirst]
    cases read : sweep.entry 0 with
    | error fault => rfl
    | ok ent =>
        show (check (!ent.removed) >>= _) = (check (!ent.removed) >>= _)
        cases isMarked : ent.removed with
        | false =>
            show (check (decide (0 < slots.length)) >>= _) = _
            rw [passed]
            show (check (!ent.removed) >>= _) = _
            rw [isMarked]
        | true => rfl
  · rw [if_neg isFirst, passed]
    rfl

theorem toOption_removeMarked
    {slots : List (Option VmmapEntry)} (nonempty : slots.length ≠ 0) :
    (removeMarked slots).toOption.map Sweep.vmentry =
      compact VmmapEntry.removed slots := by
  have first := sweepEnd_refines slots.length ⟨slots, []⟩
  cases run : sweepEnd slots.length ⟨slots, []⟩ with
  | error fault =>
      rw [run] at first
      rw [compact, removeMarked, if_neg nonempty, ← first, run]
      rfl
  | ok result =>
      obtain ⟨last, sweep⟩ := result
      rw [run] at first
      obtain ⟨below, length⟩ := sweepEnd_bounds run
      change last ≤ slots.length - 1 at below
      rw [compact, ← first, removeMarked_after (by omega) run]
      show _ = deref sweep.vmentry last >>= _
      cases read : sweep.entry last with
      | error fault =>
          rw [deref_of_error read]
          rfl
      | ok ent =>
          rw [deref_of_entry read]
          show (Except.toOption (check (!ent.removed) >>= _)).map _ =
            ite (ent.removed = true) _ _
          cases ent.removed with
          | true => rfl
          | false =>
              show (Except.toOption (fillSlots _ 0 last sweep >>= _)).map _ =
                fillGaps VmmapEntry.removed _ 0 sweep.vmentry last >>= _
              rw [← @fillSlots_refines sweep 0 last slots.length
                (by omega) (by
                  rw [length]
                  show last < slots.length
                  omega)]
              cases fillSlots (slots.length + 1) 0 last sweep with
              | error fault => rfl
              | ok result => rfl

/-- The compaction of the map is the code's, access by access. -/
theorem removeMarked_refines (self : Vmmap) (nonempty : nvalid self ≠ 0) :
    naClVmmapRemoveMarked self =
      (removeMarked self.vmentry).toOption.map fun sweep =>
        { self with vmentry := sweep.vmentry, isSorted := false } := by
  rw [naClVmmapRemoveMarked, if_neg nonempty,
    ← toOption_removeMarked nonempty]
  cases (removeMarked self.vmentry).toOption with
  | none => rfl
  | some sweep => rfl

/-- The second entry is moved into the place of the first one. -/
theorem removeMarked_refines_gap :
    naClVmmapRemoveMarked
      ⟨[some ⟨16, 1, 0, none, true⟩, some ⟨20, 1, 3, none, false⟩], 5, true⟩ =
        some ⟨[some ⟨20, 1, 3, none, false⟩], 5, false⟩ :=
  removeMarked_refines _ (by decide)

end Refinement

theorem removesExactly_of_live
    (member : ent ∈ items)
    (unmarked : ent.removed = false) : RemovesExactly items := by
  obtain ⟨cleared, ⟨-, none⟩ | ⟨last, first, swept, tail⟩⟩ :=
    sweepEnd_spec (swept_start items)
  · have empty : cleared.vmentry.filterMap id = [] := by
      rw [List.filterMap_eq_nil_iff]
      intro slot inSlots
      obtain ⟨index, less, rfl⟩ := List.mem_iff_getElem.mp inSlots
      rw [none.length] at less
      exact (List.getElem_eq_iff _).mpr (none.cleared index (by omega) less)
    have all := none.conserved
    rw [empty, List.nil_append] at all
    have isMarked := none.marked ent (all.mem_iff.mpr member)
    rw [unmarked] at isMarked
    cases isMarked
  obtain ⟨live, here, liveUnmarked⟩ := tail
  have bound := swept.bound
  obtain ⟨stop, after, second, done, filled⟩ :=
    @fillSlots_spec items (items.length + 1) 0 last cleared swept (by omega)
      (Nat.zero_le _) (fun place less => absurd less (Nat.not_lt_zero _))
      ⟨live, here, liveUnmarked⟩
  obtain ⟨kept, slots, keptLive, perm⟩ := done.take filled
  refine ⟨kept, after.freed, ?_, ?_, ?_⟩
  · have nonempty : items.length ≠ 0 := by
      omega
    have passed : check (decide (last < items.length)) = .ok () :=
      if_pos (decide_eq_true (by omega))
    have liveCheck : check (!live.removed) = .ok () := by
      rw [liveUnmarked]
      rfl
    rw [removeMarked, List.length_map, if_neg nonempty, first]
    show (ite (last = 0) _ _) = _
    by_cases isFirst : last = 0
    · rw [if_pos isFirst]
      rw [isFirst] at here
      simp only [isFirst, entry_eq here, liveCheck, bind, Except.bind]
      rw [isFirst] at passed second
      rw [passed]
      simp only [second]
      rw [slots]
    · rw [if_neg isFirst]
      simp only [entry_eq here, liveCheck, bind, Except.bind]
      rw [passed]
      simp only [second]
      rw [slots]
  · have kept' := perm.filter (fun ent => !ent.removed)
    rw [List.filter_append, List.filter_eq_self.mpr (by
      intro other inKept
      rw [keptLive other inKept]
      rfl), List.filter_eq_nil_iff.mpr (by
      intro other inFreed
      rw [done.marked other inFreed]
      exact Bool.false_ne_true), List.append_nil] at kept'
    exact kept'
  · have freed' := perm.filter VmmapEntry.removed
    rw [List.filter_append, List.filter_eq_nil_iff.mpr (by
      intro other inKept
      rw [keptLive other inKept]
      exact Bool.false_ne_true), List.filter_eq_self.mpr done.marked,
      List.nil_append] at freed'
    exact freed'

theorem removeMarked_all
    (nonempty : items ≠ [])
    (all : ∀ ent ∈ items, ent.removed = true) :
    removeMarked (items.map some) = .error .null := by
  have positive : items.length ≠ 0 := by
    rwa [Ne, List.length_eq_zero_iff]
  obtain ⟨cleared, ⟨first, swept⟩ | ⟨last, -, swept, live, here, unmarked⟩⟩ :=
    sweepEnd_spec (swept_start items)
  · have null := swept.cleared 0 (Nat.le_refl 0) (by omega)
    rw [removeMarked, List.length_map, if_neg positive, first]
    show (Sweep.entry cleared 0 >>= _) = _
    rw [Sweep.entry, null]
    rfl
  · have kept : live ∈ cleared.vmentry.filterMap id :=
      List.mem_filterMap.mpr ⟨some live, List.mem_of_getElem? here, rfl⟩
    have member : live ∈ items :=
      swept.conserved.mem_iff.mp (List.mem_append_left _ kept)
    rw [all live member] at unmarked
    cases unmarked

/-- The compaction is right, and no slot outside of the array is ever
touched, except that it stops at a null pointer when all entries are
marked. -/
theorem removesExactly_iff (items : List VmmapEntry) :
    (RemovesExactly items ↔
        items = [] ∨ ∃ ent ∈ items, ent.removed = false) ∧
      ∀ fault, removeMarked (items.map some) = .error fault → fault = .null := by
  have cases : items = [] ∨ (∃ ent ∈ items, ent.removed = false) ∨
      items ≠ [] ∧ ∀ ent ∈ items, ent.removed = true := by
    by_cases empty : items = []
    · exact .inl empty
    · by_cases live : ∃ ent ∈ items, ent.removed = false
      · exact .inr (.inl live)
      · refine .inr (.inr ⟨empty, ?_⟩)
        intro ent member
        by_contra unmarked
        exact live ⟨ent, member, Bool.eq_false_iff.mpr unmarked⟩
  rcases cases with rfl | ⟨ent, member, unmarked⟩ | ⟨nonempty, all⟩
  · have exact' : RemovesExactly [] := ⟨[], [], rfl, .nil, .nil⟩
    refine ⟨iff_of_true exact' (.inl rfl), ?_⟩
    intro fault failed
    cases failed
  · have exact' := removesExactly_of_live member unmarked
    refine ⟨iff_of_true exact' (.inr ⟨ent, member, unmarked⟩), ?_⟩
    intro fault failed
    obtain ⟨kept, freed, run, -⟩ := exact'
    rw [run] at failed
    cases failed
  · have run := removeMarked_all nonempty all
    refine ⟨iff_of_false ?_ ?_, ?_⟩
    · rintro ⟨kept, freed, passed, -⟩
      rw [run] at passed
      cases passed
    · rintro (empty | ⟨ent, member, unmarked⟩)
      · exact nonempty empty
      · rw [all ent member] at unmarked
        cases unmarked
    · intro fault failed
      rw [run] at failed
      cases failed
      rfl

/-- One entry, which is marked. -/
theorem not_removesExactly_single :
    ¬ RemovesExactly [⟨16, 1, 0, none, true⟩] := by
  rintro ⟨kept, freed, passed, -⟩
  cases passed

end RemoveMarked

end NativeClient.Runtime
