import NativeClient.Container.HashTblOperations

/-!
# Histories of the hash table

An insertion returns as long as one bucket is not used, and a search as long as
one bucket was never used or an entry is equal.  But deleted entries are not
counted by the load, and a table that could not grow is filled further: there
are histories after which a search, or an insertion, never returns.
-/

namespace NativeClient.Container

open NativeClient.Library

variable {α : Type} {machine : Machine} {functor : HashFunctor α}

def Proper (functor : HashFunctor α) :
    Option (HashTbl α) → Operation α → Prop
  | some table, .insert _ _ => table.numEntries < table.numBuckets
  | some table, .find key => Findable functor table key
  | _, _ => True

section Steps

variable {table : HashTbl α} {operation : Operation α}

theorem remove_does
    (valid : Valid machine functor table) {idx : Nat}
    (inside : idx < table.numBuckets) :
    (∃ next, (table.remove idx).iterIncr idx = some next) ∧
      Valid machine functor (table.remove idx) ∧
      table.live.Perm
        ((table.slot idx).datum.toList ++ (table.remove idx).live) := by
  obtain ⟨next, incr, -⟩ := iterIncr_spec (table.remove idx) inside
  exact ⟨⟨next, incr⟩, valid.remove inside,
    live_remove (by rwa [valid.length])⟩

theorem call_does
    (valid : Valid machine functor table)
    (possible : operation.Possible table)
    (proper : Proper functor (some table) operation) :
    ∃ response next,
      table.call machine functor operation = some (response, next) ∧
        Valid machine functor next ∧
        Does functor table operation response next := by
  cases operation with
  | insert obj allocates =>
      obtain ⟨grown, next, inserted, after, perm, -⟩ :=
        @insert_spec _ machine functor allocates table obj valid proper
      refine ⟨.inserted grown, next, ?_, after, perm⟩
      rw [HashTbl.call, inserted]
      rfl
  | find key =>
      obtain ⟨idx, found, does⟩ := find_does valid proper
      refine ⟨_, table, ?_, valid, does⟩
      rw [HashTbl.call, found]
      rfl
  | erase idx =>
      obtain ⟨⟨next, incr⟩, after, perm⟩ := remove_does valid possible
      refine ⟨.erased next, table.remove idx, ?_, after, perm⟩
      rw [HashTbl.call, incr]
      rfl
  | extract idx =>
      obtain ⟨⟨next, incr⟩, after, perm⟩ := remove_does valid possible
      refine ⟨.extracted (table.slot idx).datum next, table.remove idx, ?_,
        after, rfl, perm⟩
      rw [HashTbl.call, incr]
      rfl
  | iterate choose =>
      obtain ⟨next, iterated, after, live⟩ := iterate_does valid choose
      refine ⟨.visited (table.live.map some), next, ?_, after, rfl, live⟩
      rw [HashTbl.call, iterated]
      rfl

theorem call_none
    (valid : Valid machine functor table)
    (improper : ¬ Proper functor (some table) operation) :
    table.call machine functor operation = none := by
  cases operation with
  | insert obj allocates =>
      rw [HashTbl.call, insert_none valid improper]
      rfl
  | find key =>
      rw [HashTbl.call, find_none valid improper]
      rfl
  | erase idx => exact absurd trivial improper
  | extract idx => exact absurd trivial improper
  | iterate choose => exact absurd trivial improper

def StateValid (machine : Machine) (functor : HashFunctor α) :
    Option (HashTbl α) → Prop
  | none => True
  | some table => Valid machine functor table

theorem possible_of_step
    {next : Option (HashTbl α)}
    (stepped : step machine functor (some table) operation = some next) :
    operation.Possible table ∧
      next = (table.call machine functor operation).map Prod.snd := by
  by_cases possible : operation.Possible table
  · rw [step, if_pos possible] at stepped
    exact ⟨possible, (Option.some.inj stepped).symm⟩
  · rw [step, if_neg possible] at stepped
    cases stepped

theorem stateValid_step
    (state : Option (HashTbl α)) (operation : Operation α)
    (next : Option (HashTbl α)) (valid : StateValid machine functor state)
    (stepped : step machine functor state operation = some next) :
    StateValid machine functor next := by
  cases state with
  | none => cases stepped
  | some table =>
      obtain ⟨possible, rfl⟩ := possible_of_step stepped
      by_cases proper : Proper functor (some table) operation
      · obtain ⟨response, after, called, afterValid, -⟩ :=
          call_does valid possible proper
        rw [called]
        exact afterValid
      · rw [call_none valid proper]
        trivial

theorem behaves_iff_proper
    (state : Option (HashTbl α)) (operation : Operation α)
    (next : Option (HashTbl α)) (valid : StateValid machine functor state)
    (stepped : step machine functor state operation = some next) :
    Behaves machine functor state operation ↔ Proper functor state operation := by
  cases state with
  | none => cases stepped
  | some table =>
      obtain ⟨possible, -⟩ := possible_of_step stepped
      constructor
      · rintro ⟨response, after, called, -⟩
        by_contra improper
        rw [call_none valid improper] at called
        cases called
      · intro proper
        obtain ⟨response, after, called, -, does⟩ :=
          call_does valid possible proper
        exact ⟨response, after, called, does⟩

theorem sound_of_stateValid
    (state : Option (HashTbl α)) (valid : StateValid machine functor state) :
    Sound state := by
  cases state with
  | none => trivial
  | some table => exact ⟨valid.counted, valid.coprime⟩

end Steps

section Construction

variable {allocates : Nat → Bool} {numBuckets : Nat} {table : HashTbl α}

theorem coprime_stride {count : Nat} (other : count % stride ≠ 0) :
    Nat.Coprime count stride := by
  have all : ∀ rest < stride, rest ≠ 0 → Nat.gcd rest stride = 1 := by decide
  have one := all (count % stride) (Nat.mod_lt _ (by decide)) other
  rw [← Nat.gcd_rec, Nat.gcd_comm] at one
  exact one

theorem hashTblCtor_valid
    (less : numBuckets < machine.sizeMax)
    (built : hashTblCtor machine allocates numBuckets = some table) :
    Valid machine functor table := by
  have wide : 2 ^ 32 ≤ 2 ^ machine.sizeBits := by
    apply Nat.pow_le_pow_right (by decide)
    rcases machine.widths with eq | eq <;> omega
  obtain ⟨large, other⟩ : minBuckets ≤ initialBuckets machine numBuckets ∧
      initialBuckets machine numBuckets % stride ≠ 0 := by
    unfold Machine.sizeMax at less
    unfold initialBuckets
    split
    next multiple =>
      unfold minBuckets stride at *
      rw [Nat.mod_eq_of_lt (by omega)]
      omega
    next other =>
      refine ⟨?_, other⟩
      unfold minBuckets
      omega
  unfold hashTblCtor at built
  cases made : makeBucket (α := α) machine allocates
      (initialBuckets machine numBuckets) with
  | none =>
      rw [made] at built
      cases built
  | some bucket =>
      obtain ⟨rfl, fits⟩ := makeBucket_some made
      rw [made] at built
      cases built
      exact valid_replicate large (coprime_stride other) fits

theorem hashTblCtor_sizeMax
    (built : hashTblCtor machine allocates machine.sizeMax = some table) :
    table.numBuckets = 0 := by
  have wraps : initialBuckets machine machine.sizeMax = 0 := by
    unfold initialBuckets Machine.sizeMax minBuckets stride
    rcases machine.widths with eq | eq <;> rw [eq] <;> decide
  unfold hashTblCtor at built
  cases made : makeBucket (α := α) machine allocates
      (initialBuckets machine machine.sizeMax) with
  | none =>
      rw [made] at built
      cases built
  | some bucket =>
      rw [made] at built
      cases built
      exact wraps

/-- The table is a multiset in a history exactly if its constructor was not
given `SIZE_T_MAX` and every call of the history can return. -/
theorem multiset_iff
    {operations : List (Operation α)}
    (size : numBuckets ≤ machine.sizeMax)
    (built : hashTblCtor machine allocates numBuckets = some table) :
    (Throughout (step machine functor) Sound (some table) operations ∧
        AllSteps (step machine functor) (Behaves machine functor) (some table)
          operations) ↔
      numBuckets ≠ machine.sizeMax ∧
        AllSteps (step machine functor) (Proper functor) (some table)
          operations := by
  rcases Nat.lt_or_eq_of_le size with less | rfl
  · have valid : StateValid machine functor (some table) :=
      hashTblCtor_valid less built
    have sound : Throughout (step machine functor) Sound (some table)
        operations :=
      (throughout_of_kept stateValid_step operations valid).imp
        sound_of_stateValid
    have same : AllSteps (step machine functor) (Behaves machine functor)
        (some table) operations ↔
          AllSteps (step machine functor) (Proper functor) (some table)
            operations :=
      allSteps_iff stateValid_step behaves_iff_proper valid
    rw [same]
    exact ⟨fun both => ⟨Nat.ne_of_lt less, both.2⟩,
      fun both => ⟨sound, both.2⟩⟩
  · have none' := hashTblCtor_sizeMax built
    constructor
    · rintro ⟨through, -⟩
      have sound : Sound (some table) := by
        cases operations with
        | nil => exact through
        | cons operation operations => exact through.1
      have coprime := sound.2
      rw [none'] at coprime
      exact absurd coprime (by decide)
    · rintro ⟨wrong, -⟩
      exact absurd rfl wrong

end Construction

section Churn

def wide : Machine where
  sizeBits := 64
  widths := Or.inr rfl

def numbers : HashFunctor Nat where
  hash := id
  orderCmp := fun left right => (left : Int) - right
  consistent := by
    intro datum key equal
    show datum = key
    omega

def empty : HashTbl Nat :=
  ⟨32, 0, List.replicate 32 .unused⟩

theorem multiset_iff_inserted :
    (Throughout (step wide numbers) Sound (some empty)
        [.insert 5 fun _ => true, .find 5] ∧
      AllSteps (step wide numbers) (Behaves wide numbers) (some empty)
        [.insert 5 fun _ => true, .find 5]) ↔
      0 ≠ wide.sizeMax ∧
        AllSteps (step wide numbers) (Proper numbers) (some empty)
          [.insert 5 fun _ => true, .find 5] :=
  @multiset_iff Nat wide numbers (fun _ => true) 0 empty _ (by decide) rfl

def churn : List (Operation Nat) :=
  (List.range 32).flatMap fun number =>
    [.insert number fun _ => true, .erase number]

theorem run_churn :
    run (step wide numbers) (some empty) churn =
      some (some ⟨32, 0, List.replicate 32 .deleted⟩) := by
  rfl

/-- Then no bucket is unused, and the search for a number never returns. -/
theorem table_not_multiset :
    ¬ ∀ (machine : Machine) (functor : HashFunctor Nat)
        (allocates : Nat → Bool) (numBuckets : Nat) (table : HashTbl Nat)
        (operations : List (Operation Nat)),
      numBuckets ≤ machine.sizeMax →
      hashTblCtor machine allocates numBuckets = some table →
      Throughout (step machine functor) Sound (some table) operations ∧
        AllSteps (step machine functor) (Behaves machine functor) (some table)
          operations := by
  intro multiset
  obtain ⟨-, behaves⟩ := multiset wide numbers (fun _ => true) 0 empty
    (churn ++ [.find 0]) (by decide) rfl
  have last := behaves.after run_churn
  obtain ⟨⟨response, next, called, -⟩, -⟩ := last none rfl
  have endless : HashTbl.call wide numbers
      ⟨32, 0, List.replicate 32 .deleted⟩ (.find 0) = none := rfl
  rw [endless] at called
  cases called

end Churn

end NativeClient.Container
