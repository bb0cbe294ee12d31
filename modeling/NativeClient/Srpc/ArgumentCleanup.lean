import NativeClient.Srpc.ArgumentOwnership

/-!
# How `ArgsGet` fails

A call of `ArgsGet` that fails should release what it allocated, and nothing
else, by way of the slots of `argvec` that it set.  It does, if it allocated the
vector itself, has set the first slot, and finds a null pointer behind the last
one that it set.  Other failures lose the vector, release that of the caller, or
follow pointers that were left in `argvec`.
-/

namespace NativeClient.Srpc

variable {δ : Type}

section Cleanly

def Datagram.PartOf (rest buffer : Datagram δ) : Prop :=
  rest.bytes <:+ buffer.bytes ∧ rest.descs <:+ buffer.descs

def FilledArgvec (buffer : Datagram δ) (after : ArgsMemory δ) : Prop :=
  ∃ length rest, ∃ args : Address, getCount buffer = some (length, rest) ∧
    (∀ slot < length.val, after.argvec[slot]? = some (some (args.plus slot))) ∧
    after.argvec[length.val]? = some none

structure CleanedUp (after : ArgsMemory δ) : Prop where
  released : after.released.Perm after.allocated
  slots : ∀ slot ∈ after.slotsUsed, slot ∈ after.slotsSet

def GetsCleanly (buffer : Datagram δ) :
    Option (Bool × Datagram δ × ArgsMemory δ) → Prop
  | none => False
  | some (true, rest, after) => rest.PartOf buffer ∧ FilledArgvec buffer after
  | some (false, _, after) => CleanedUp after

end Cleanly

section Condition

variable (platform : Platform δ)

/-- A vector that the call allocates: the number is that of the declaration, and
if an element is malformed, the first one has the right tag and there is a null
pointer behind the slots that are set. -/
def AllocatedIsClean (readValues : Bool) (argTypes : List UInt8) (length : Nat)
    (argvec : List (Option Address)) (rest : Datagram δ) : Prop :=
  ∃ tags, declaredTags length argTypes = some tags ∧
    let args := tags.map (zeroedArg platform)
    getArgs platform true readValues length args rest ≠ none ∨
      0 < startedArgs platform true readValues args rest ∧
        argvec[startedArgs platform true readValues args rest]? = some none

/-- A vector of the caller: every element can be read, or the vector is null and
the first tag is missing. -/
def SuppliedIsClean (readValues : Bool) (length : Nat)
    (objects : Address → ArgObject δ) (argvec : List (Option Address))
    (rest : Datagram δ) : Prop :=
  match argvec.head?.join with
  | none => getElements 1 1 rest = none
  | some args =>
      getArgs platform false readValues length
        ((List.range length).map fun index => (objects (args.plus index)).arg)
        rest ≠ none

def CleanCall (allocateArgs readValues : Bool) (argTypes : List UInt8)
    (buffer : Datagram δ) (objects : Address → ArgObject δ)
    (argvec : List (Option Address)) : Prop :=
  ∀ length rest, getCount buffer = some (length, rest) → length.val < maxArgs →
    0 < length.val →
      if allocateArgs then
        platform.malloc (length * platform.argSize) ≠ none →
          AllocatedIsClean platform readValues argTypes length argvec rest
      else
        length.val = argTypes.length →
          SuppliedIsClean platform readValues length objects argvec rest

end Condition

section Received

variable {platform : Platform δ} {allocate readValue : Bool}
  {buffer rest : Datagram δ}

theorem Datagram.PartOf.refl (buffer : Datagram δ) : buffer.PartOf buffer :=
  ⟨List.suffix_refl _, List.suffix_refl _⟩

theorem Datagram.PartOf.trans
    {last : Datagram δ} (second : last.PartOf rest) (first : rest.PartOf buffer) :
    last.PartOf buffer :=
  ⟨second.1.trans first.1, second.2.trans first.2⟩

theorem imcRead_partOf (eltSize nElt : Nat) (buffer : Datagram δ) :
    (imcRead eltSize nElt buffer).buffer.PartOf buffer := by
  unfold imcRead
  split
  · exact Datagram.PartOf.refl _
  split
  · exact ⟨List.drop_suffix _ _, List.suffix_refl _⟩
  · exact Datagram.PartOf.refl _

theorem getElements_partOf
    {eltSize nElt : Nat} {bytes : List UInt8}
    (got : getElements eltSize nElt buffer = some (bytes, rest)) :
    rest.PartOf buffer := by
  unfold getElements at got
  dsimp only at got
  split at got
  · obtain ⟨-, rfl⟩ := Prod.mk.inj (Option.some.inj got)
    exact imcRead_partOf _ _ _
  · cases got

theorem getCount_partOf
    {count : Fin (2 ^ 32)} (got : getCount buffer = some (count, rest)) :
    rest.PartOf buffer := by
  obtain ⟨⟨bytes, following⟩, elements, same⟩ := Option.map_eq_some_iff.mp got
  cases same
  exact getElements_partOf elements

private theorem arrGet_partOf
    {type : ArrayType} {elements target : Elements type}
    (got : arrGet platform type allocate readValue elements buffer =
      some (target, rest)) : rest.PartOf buffer := by
  obtain ⟨⟨dim, following⟩, counted, got⟩ := Option.bind_eq_some_iff.mp got
  obtain ⟨fresh, -, got⟩ := Option.bind_eq_some_iff.mp got
  have counts := getCount_partOf counted
  dsimp only at got
  split at got
  · obtain ⟨⟨bytes, last⟩, values, got⟩ := Option.bind_eq_some_iff.mp got
    cases got
    exact (getElements_partOf values).trans counts
  · cases got
    exact counts

private theorem stringGet_partOf
    {str target : Option CString}
    (got : stringGet platform readValue str buffer = some (target, rest)) :
    rest.PartOf buffer := by
  unfold stringGet at got
  split at got
  · obtain ⟨⟨dim, following⟩, counted, got⟩ := Option.bind_eq_some_iff.mp got
    dsimp only at got
    split at got
    · cases got
    obtain ⟨contents, -, got⟩ := Option.bind_eq_some_iff.mp got
    obtain ⟨⟨bytes, last⟩, values, got⟩ := Option.bind_eq_some_iff.mp got
    cases got
    exact (getElements_partOf values).trans (getCount_partOf counted)
  · cases got
    exact Datagram.PartOf.refl _

private theorem handleGet_partOf (hval : δ) :
    (handleGet platform readValue hval buffer).2.PartOf buffer := by
  unfold handleGet imcReadDesc
  split
  · split
    · exact Datagram.PartOf.refl _
    · next desc descs same =>
        exact ⟨List.suffix_refl _, by rw [same]; exact List.suffix_cons _ _⟩
  · exact Datagram.PartOf.refl _

theorem argGet_partOf
    {arg target : Arg δ}
    (got : argGet platform allocate readValue arg buffer = some (target, rest)) :
    rest.PartOf buffer := by
  cases arg with
  | basic type field =>
      obtain ⟨⟨value, following⟩, read, same⟩ := Option.map_eq_some_iff.mp got
      cases same
      unfold basicGet at read
      split at read
      · obtain ⟨⟨bytes, last⟩, values, same⟩ := Option.map_eq_some_iff.mp read
        cases same
        exact getElements_partOf values
      · cases read
        exact Datagram.PartOf.refl _
  | array type elements =>
      obtain ⟨⟨value, following⟩, read, same⟩ := Option.map_eq_some_iff.mp got
      cases same
      exact arrGet_partOf read
  | handle hval =>
      obtain ⟨-, rfl⟩ := Prod.mk.inj (Option.some.inj got)
      exact handleGet_partOf hval
  | string str =>
      obtain ⟨⟨value, following⟩, read, same⟩ := Option.map_eq_some_iff.mp got
      cases same
      exact stringGet_partOf read
  | other tag invalid => cases got

theorem getArgs_partOf
    {length : Nat} {args values : List (Arg δ)}
    (got : getArgs platform allocate readValue length args buffer =
      some (values, rest)) : rest.PartOf buffer := by
  induction length generalizing args values buffer with
  | zero =>
      cases got
      exact Datagram.PartOf.refl _
  | succ length ih =>
      cases args with
      | nil => cases got
      | cons arg args =>
          obtain ⟨⟨readType, following⟩, tag, got⟩ := Option.bind_eq_some_iff.mp got
          dsimp only at got
          split at got
          · obtain ⟨⟨value, behind⟩, element, got⟩ := Option.bind_eq_some_iff.mp got
            obtain ⟨⟨others, last⟩, elements, got⟩ := Option.bind_eq_some_iff.mp got
            cases got
            exact (ih elements).trans
              ((argGet_partOf element).trans (getElements_partOf tag))
          · cases got

end Received

section Ends

variable {platform : Platform δ} {allocateArgs readValues : Bool} {args : Address}
  {length started : Nat} {buffer rest last : Datagram δ} {done : Bool}
  {before after freed : ArgsMemory δ}

theorem startedArgs_le (args : List (Arg δ)) (buffer : Datagram δ) :
    startedArgs platform allocateArgs readValues args buffer ≤ args.length := by
  induction args generalizing buffer with
  | nil => exact Nat.le_refl _
  | cons arg args ih =>
      unfold startedArgs
      split
      · exact Nat.zero_le _
      split
      · split
        · exact Nat.succ_le_succ (Nat.zero_le _)
        · exact Nat.succ_le_succ (ih _)
      · exact Nat.zero_le _

theorem startedArgs_of_read
    {elements : List (Arg δ)} {result : List (Arg δ) × Datagram δ}
    (read : getArgs platform allocateArgs readValues elements.length elements buffer =
      some result) :
    startedArgs platform allocateArgs readValues elements buffer =
      elements.length := by
  induction elements generalizing buffer result with
  | nil => rfl
  | cons arg elements ih =>
      obtain ⟨⟨readType, following⟩, tag, read⟩ := Option.bind_eq_some_iff.mp read
      dsimp only at read
      split at read
      · next same =>
          obtain ⟨⟨value, behind⟩, element, read⟩ := Option.bind_eq_some_iff.mp read
          obtain ⟨others, elements, -⟩ := Option.bind_eq_some_iff.mp read
          rw [startedArgs, tag]
          simp only [same, if_true, element, ih elements, List.length_cons]
      · cases read

theorem LoopRun.filled
    (run : LoopRun platform allocateArgs readValues args length 0 rest before true last
      after started) (space : before.argvec.length = maxArgs + 1)
    (few : length < maxArgs) {count : Fin (2 ^ 32)}
    (counted : getCount buffer = some (count, rest)) (isCount : count.val = length) :
    GetsCleanly buffer (some (true, last, after.setSlot length none)) := by
  have read := run.read
  rw [if_pos rfl] at read
  have all : started = length := by
    rw [← run.started_eq, startedArgs_of_read (by rw [length_vectorFrom]; exact read),
      length_vectorFrom]
  have inside : length < after.argvec.length := by
    by_contra outside
    have absent : after.argvec[length]? = none :=
      List.getElem?_eq_none_iff.mpr (by omega)
    rw [run.argvec, if_neg (by omega), List.getElem?_eq_none_iff] at absent
    omega
  refine ⟨(getArgs_partOf read).trans (getCount_partOf counted), count, rest, args,
    counted, ?_, ?_⟩
  · intro slot below
    rw [getElem?_setSlot (by omega), if_neg (by omega), run.argvec, if_pos (by omega)]
  · rw [getElem?_setSlot (by omega), if_pos isCount]

theorem LoopRun.head
    (run : LoopRun platform allocateArgs readValues args length 0 rest before done last
      after started) (first : before.argvec.head?.join = some args ∨ 0 < started) :
    after.argvec.head?.join = some args := by
  rw [List.head?_eq_getElem?, run.argvec]
  by_cases starts : 0 < started
  · rw [if_pos (by omega)]
    rfl
  · rw [if_neg (by omega), ← List.head?_eq_getElem?]
    exact first.resolve_right starts

theorem LoopRun.releases_supplied
    (run : LoopRun platform allocateArgs readValues args length 0 rest before done last
      after started) (nothing : before.allocated = [])
    (first : before.argvec.head?.join = some args) (old : args.block < before.next)
    (cleaned : argsFree after = some freed) : ¬ CleanedUp freed := by
  intro clean
  obtain ⟨walked, -, allocated, -, -, released⟩ := argsFree_walked cleaned
  have member : args ∈ freed.released := by
    rw [released, run.head (.inl first)]
    exact List.mem_append_right _ List.mem_cons_self
  have owned := clean.released.mem_iff.mp member
  rw [allocated] at owned
  rcases run.fresh args owned with earlier | fresh
  · rw [nothing] at earlier
    cases earlier
  · omega

theorem LoopRun.cleaned_iff
    (run : LoopRun platform true readValues args length 0 rest before done last after
      started) (new : before.allocated = [args]) (released : before.released = [])
    (slotsSet : before.slotsSet = []) (slotsUsed : before.slotsUsed = [])
    (empty : ∀ place < length, (before.objects (args.plus place)).array = none)
    (inside : started < before.argvec.length) :
    (∃ freed, argsFree after = some freed ∧ CleanedUp freed) ↔
      0 < started ∧ before.argvec[started]? = some none := by
  have allocated := run.owned rfl fun place _ below => empty place (by omega)
  have behind : after.argvec[started]? = before.argvec[started]? := by
    rw [run.argvec, if_neg (by omega)]
  have pointers : ∀ place < started,
      after.argvec[place]? = some (some (args.plus (0 + place))) := by
    intro place below
    rw [run.argvec, if_pos (by omega), Nat.zero_add]
  constructor
  · rintro ⟨freed, cleaned, clean⟩
    obtain ⟨walked, walk, sameAllocated, sameSet, sameUsed, allReleased⟩ :=
      argsFree_walked cleaned
    have null : before.argvec[started]? = some none := by
      rw [← behind]
      cases slot : after.argvec[started]? with
      | none =>
          rw [behind] at slot
          exact absurd (List.getElem?_eq_none_iff.mp slot) (by omega)
      | some pointer =>
          cases pointer with
          | none => rfl
          | some stale =>
              have used := @argsFreeElements_uses _ _ _ _ _ started walk (by
                intro place bound
                by_cases same : place = started
                · exact ⟨stale, by rw [same, slot]⟩
                · exact ⟨_, pointers place (by omega)⟩)
              rw [← sameUsed] at used
              have isSet := clean.slots _ used
              rw [sameSet, run.slotsSet, slotsSet, List.nil_append,
                List.mem_range'_1] at isSet
              omega
    refine ⟨?_, null⟩
    by_contra nothing
    have isZero : started = 0 := by
      omega
    subst isZero
    obtain ⟨same, walkSame, releasedSame, -⟩ :=
      @argsFreeElements_walk _ after _ _ 0 0 pointers (behind.trans null)
    have sameWalk : walked = same := Option.some.inj (walk.symm.trans walkSame)
    have noHead : after.argvec.head?.join = none := by
      rw [List.head?_eq_getElem?, behind, null]
      rfl
    have perm := clean.released
    rw [sameAllocated, allocated, new, allReleased, sameWalk, releasedSame, noHead,
      run.released, released] at perm
    exact absurd perm.length_eq (by simp)
  · rintro ⟨starts, null⟩
    obtain ⟨walked, walk, releases, uses⟩ := @argsFreeElements_walk _ after _ _ 0
      started pointers (behind.trans null)
    obtain ⟨freed, cleaned⟩ := argsFree_of_walk walk
    refine ⟨freed, cleaned, ?_⟩
    obtain ⟨again, walkAgain, sameAllocated, sameSet, sameUsed, allReleased⟩ :=
      argsFree_walked cleaned
    have same : again = walked := Option.some.inj (walkAgain.symm.trans walk)
    refine ⟨?_, ?_⟩
    · rw [allReleased, sameAllocated, same, releases, run.released, released, allocated,
        new, run.head (.inr starts)]
      exact List.perm_append_comm
    · rw [sameUsed, sameSet, same, uses, run.slotsUsed, slotsUsed, run.slotsSet,
        slotsSet]
      exact fun _ => id

end Ends

section Calls

variable {platform : Platform δ} {allocateArgs readValues : Bool}
  {argTypes : List UInt8} {buffer rest : Datagram δ}
  {objects : Address → ArgObject δ} {argvec : List (Option Address)} {next : Nat}
  {length : Fin (2 ^ 32)} {args : Address}

theorem length_declaredTags
    {count : Nat} {types tags : List UInt8}
    (declared : declaredTags count types = some tags) : tags.length = count := by
  induction count generalizing types tags with
  | zero =>
      cases types with
      | nil =>
          cases declared
          rfl
      | cons type types =>
          unfold declaredTags at declared
          split at declared
          · cases declared
            rfl
          · cases declared
  | succ count ih =>
      cases types with
      | nil => cases declared
      | cons type types =>
          unfold declaredTags at declared
          split at declared
          · cases declared
          · obtain ⟨others, rest, rfl⟩ := Option.map_eq_some_iff.mp declared
            rw [List.length_cons, ih rest]

theorem argsGetInto_supplied
    (space : argvec.length = maxArgs + 1) (few : length.val < maxArgs)
    (counted : getCount buffer = some (length, rest))
    (first : argvec.head?.join = some args) (old : args.block < next) :
    GetsCleanly buffer (argsGetInto platform allocateArgs readValues args length rest
        (ArgsMemory.start objects argvec next)) ↔
      getArgs platform allocateArgs readValues length
        ((List.range length).map fun index => (objects (args.plus index)).arg) rest ≠
          none := by
  have elements : ((List.range length).map fun index =>
      (objects (args.plus index)).arg) =
        vectorFrom (ArgsMemory.start objects argvec next) args 0 length := by
    rw [List.range_eq_range']
    rfl
  rw [elements, argsGetInto]
  generalize ran : getArgObjects platform allocateArgs readValues args length 0 rest
    (ArgsMemory.start objects argvec next) = result
  obtain ⟨done, last, after⟩ := result
  obtain ⟨started, run⟩ := getArgObjects_run (by
    show 0 + length.val ≤ argvec.length
    omega) ran
  rw [run.read]
  cases done with
  | true => simpa using run.filled space few counted rfl
  | false =>
      simp only [Bool.false_eq_true, if_false, ne_eq, not_true_eq_false, iff_false]
      cases cleaned : argsFree after with
      | none => exact id
      | some freed => exact run.releases_supplied rfl first old cleaned

theorem storeTags_object
    {tags : List UInt8} (memory : ArgsMemory δ) (block place : Nat)
    (below : place < tags.length) :
    (memory.storeTags platform ⟨block, 0⟩ tags).objects (Address.plus ⟨block, 0⟩ place) =
      ⟨zeroedArg platform (tags.getD place 0), none⟩ := by
  simp only [ArgsMemory.storeTags, Address.plus, Nat.zero_add]
  rw [if_pos ⟨trivial, below⟩]

theorem vectorFrom_storeTags
    (tags : List UInt8) (memory : ArgsMemory δ) (block : Nat) :
    vectorFrom (memory.storeTags platform ⟨block, 0⟩ tags) ⟨block, 0⟩ 0 tags.length =
      tags.map (zeroedArg platform) := by
  refine List.ext_getElem (by simp) ?_
  intro place below bound
  rw [length_vectorFrom] at below
  simp only [vectorFrom, List.getElem_map, List.getElem_range', Nat.zero_add,
    Nat.one_mul, storeTags_object memory block place below]
  rw [List.getD_eq_getElem?_getD, List.getElem?_eq_getElem below]
  rfl

theorem argsGetInto_allocated
    {tags : List UInt8} (space : argvec.length = maxArgs + 1)
    (few : length.val < maxArgs) (counted : getCount buffer = some (length, rest))
    (declared : declaredTags length argTypes = some tags) :
    GetsCleanly buffer (argsGetInto platform true readValues ⟨next, 0⟩ length rest
        ((ArgsMemory.start objects argvec next).allocate.storeTags platform ⟨next, 0⟩
          tags)) ↔
      AllocatedIsClean platform readValues argTypes length argvec rest := by
  have tagsLength := length_declaredTags declared
  have elements := @vectorFrom_storeTags δ platform tags
    (ArgsMemory.start objects argvec next).allocate next
  rw [tagsLength] at elements
  have same : AllocatedIsClean platform readValues argTypes length argvec rest ↔
      (getArgs platform true readValues length (tags.map (zeroedArg platform)) rest ≠
        none ∨
        0 < startedArgs platform true readValues (tags.map (zeroedArg platform)) rest ∧
          argvec[startedArgs platform true readValues
            (tags.map (zeroedArg platform)) rest]? = some none) := by
    constructor
    · rintro ⟨others, found, clean⟩
      cases declared.symm.trans found
      exact clean
    · exact fun clean => ⟨tags, declared, clean⟩
  rw [same, ← elements, argsGetInto]
  generalize ran : getArgObjects platform true readValues ⟨next, 0⟩ length 0 rest
    ((ArgsMemory.start objects argvec next).allocate.storeTags platform ⟨next, 0⟩
      tags) = result
  obtain ⟨done, last, after⟩ := result
  obtain ⟨started, run⟩ := getArgObjects_run (by
    show 0 + length.val ≤ argvec.length
    omega) ran
  have bound : started ≤ length.val := by
    rw [← run.started_eq]
    exact Nat.le_trans (startedArgs_le _ _) (by rw [length_vectorFrom])
  rw [run.read, run.started_eq]
  cases done with
  | true => simpa using run.filled space few counted rfl
  | false =>
      have clean := run.cleaned_iff rfl rfl rfl rfl
        (fun place below => by
          rw [storeTags_object _ _ _ (by omega)])
        (show started < argvec.length by omega)
      simp only [Bool.false_eq_true, if_false, ne_eq, not_true_eq_false, false_or]
      refine Iff.trans ?_ clean
      cases argsFree after with
      | none =>
          constructor
          · exact False.elim
          · rintro ⟨freed, found, -⟩
            cases found
      | some freed =>
          constructor
          · exact fun cleaned => ⟨freed, rfl, cleaned⟩
          · rintro ⟨_, ⟨⟩, cleaned⟩
            exact cleaned

theorem mem_of_head (first : argvec.head?.join = some args) :
    some args ∈ argvec := by
  cases argvec with
  | nil => cases first
  | cons slot slots =>
      have same : slot = some args := first
      rw [same]
      exact List.mem_cons_self

theorem cleanedUp_start :
    CleanedUp (ArgsMemory.start objects argvec next) :=
  ⟨List.Perm.refl _, fun _ => id⟩

private theorem argvec_start :
    (ArgsMemory.start objects argvec next).argvec = argvec := rfl

/-- `ArgsGet` succeeds or fails as it should just when the call is clean. -/
theorem argsGet_cleanly_iff
    (space : argvec.length = maxArgs + 1)
    (old : ∀ address, some address ∈ argvec → address.block < next) :
    GetsCleanly buffer (argsGetMemory platform allocateArgs readValues argTypes buffer
        (ArgsMemory.start objects argvec next)) ↔
      CleanCall platform allocateArgs readValues argTypes buffer objects argvec := by
  unfold argsGetMemory CleanCall
  rcases counted : getCount buffer with _ | ⟨length, rest⟩
  · refine ⟨?_, fun _ => cleanedUp_start⟩
    rintro - _ _ ⟨⟩
  have only : ∀ {property : Fin (2 ^ 32) → Datagram δ → Prop},
      (∀ found behind, some (length, rest) = some (found, behind) →
        property found behind) ↔ property length rest := by
    intro property
    constructor
    · exact fun all => all length rest rfl
    · rintro holds _ _ ⟨⟩
      exact holds
  rw [only]
  dsimp only
  by_cases many : maxArgs ≤ length.val
  · rw [if_pos many]
    exact ⟨fun _ few => absurd few (by omega), fun _ => cleanedUp_start⟩
  rw [if_neg many]
  have few : length.val < maxArgs := by
    omega
  by_cases positive : 0 < length.val
  · simp only [few, positive, forall_const]
    cases allocateArgs with
    | true =>
        simp only [true_and, if_true]
        cases platform.malloc (length * platform.argSize) with
        | none =>
            refine ⟨fun _ absent => absurd rfl absent, fun _ => cleanedUp_start⟩
        | some contents =>
            simp only [ne_eq, reduceCtorEq, not_false_eq_true, forall_const]
            cases declared : declaredTags length argTypes with
            | none =>
                constructor
                · intro cleaned
                  exact absurd cleaned.released.length_eq Nat.zero_ne_one
                · rintro ⟨tags, found, -⟩
                  cases declared.symm.trans found
            | some tags => exact argsGetInto_allocated space few counted declared
    | false =>
        simp only [Bool.false_eq_true, false_and, if_false]
        by_cases declared : length.val = argTypes.length
        · rw [if_pos declared]
          simp only [← declared, forall_const]
          rw [argvec_start, SuppliedIsClean]
          cases first : argvec.head?.join with
          | none =>
              dsimp only
              rw [if_neg (by omega)]
              cases getElements 1 1 rest with
              | none => exact iff_of_true cleanedUp_start rfl
              | some tag => exact iff_of_false id (Option.some_ne_none tag)
          | some args =>
              exact argsGetInto_supplied space few counted first
                (old args (mem_of_head first))
        · rw [if_neg declared]
          exact ⟨fun _ found => absurd found declared, fun _ => cleanedUp_start⟩
  · have isZero : length.val = 0 := by
      omega
    refine iff_of_true ?_ fun _ found => absurd found positive
    rw [if_neg (fun both => positive both.2)]
    split
    · rw [argvec_start]
      cases first : argvec.head?.join with
      | none =>
          refine ⟨getCount_partOf counted, length, rest, ⟨0, 0⟩, counted, ?_, ?_⟩
          · intro slot below
            omega
          · rw [isZero]
            exact (getElem?_setSlot (by
              show 0 < argvec.length
              omega) _ _).trans (if_pos rfl)
      | some args =>
          refine (argsGetInto_supplied space few counted first
            (old args (mem_of_head first))).mpr ?_
          rw [isZero, getArgs]
          exact Option.some_ne_none _
    · exact cleanedUp_start

private def zeroingPlatform : Platform Unit where
  sizeMax := 2 ^ 64 - 1
  invalidDesc := ()
  zeroDesc := ()
  malloc := fun _ => some fun _ => 0
  argSize := 24

private def intObjects : Address → ArgObject Unit :=
  fun _ => ⟨.basic .int 0, none⟩

private def cutArray : Datagram Unit :=
  ⟨[2, 0, 0, 0, 'i'.toUInt8, 7, 0, 0, 0, 'I'.toUInt8, 3, 0, 0, 0, 1, 2], []⟩

private def nullSlots : List (Option Address) := List.replicate 129 none

theorem argsGet_cleanly_cut :
    GetsCleanly cutArray (argsGetMemory zeroingPlatform true true
      ['i'.toUInt8, 'I'.toUInt8] cutArray
      (ArgsMemory.start intObjects nullSlots 5)) := by
  refine (argsGet_cleanly_iff List.length_replicate ?_).mpr ?_
  · intro address member
    cases List.eq_of_mem_replicate member
  · intro length rest counted _ _
    have isTwo : getCount cutArray = some (2, ⟨cutArray.bytes.drop 4, []⟩) := rfl
    cases isTwo.symm.trans counted
    intro _
    exact ⟨['i'.toUInt8, 'I'.toUInt8], by decide +kernel,
      .inr ⟨by decide +kernel, by decide +kernel⟩⟩

/-- A response that is cut off behind the tag of its only value: the vector of the
caller is released. -/
theorem argsGet_releases_supplied :
    (argsGetMemory zeroingPlatform false true ['i'.toUInt8]
        ⟨[1, 0, 0, 0, 'i'.toUInt8], []⟩
        (ArgsMemory.start intObjects (some ⟨4, 0⟩ :: List.replicate 128 none) 5)).map
          (fun result => (result.1, result.2.2.released, result.2.2.allocated)) =
      some (false, [⟨4, 0⟩], []) ∧
    ¬ GetsCleanly ⟨[1, 0, 0, 0, 'i'.toUInt8], []⟩
      (argsGetMemory zeroingPlatform false true ['i'.toUInt8]
        ⟨[1, 0, 0, 0, 'i'.toUInt8], []⟩
        (ArgsMemory.start intObjects (some ⟨4, 0⟩ :: List.replicate 128 none) 5)) := by
  have result : (argsGetMemory zeroingPlatform false true ['i'.toUInt8]
      ⟨[1, 0, 0, 0, 'i'.toUInt8], []⟩
      (ArgsMemory.start intObjects (some ⟨4, 0⟩ :: List.replicate 128 none) 5)).map
        (fun result => (result.1, result.2.2.released, result.2.2.allocated)) =
      some (false, [⟨4, 0⟩], []) := by
    decide +kernel
  refine ⟨result, ?_⟩
  intro cleanly
  obtain ⟨⟨done, rest, after⟩, ran, same⟩ := Option.map_eq_some_iff.mp result
  rw [ran] at cleanly
  obtain ⟨rfl, parts⟩ := Prod.mk.inj same
  obtain ⟨released, allocated⟩ := Prod.mk.inj parts
  have perm := cleanly.released
  rw [released, allocated] at perm
  exact absurd perm.length_eq (by decide)

end Calls

end NativeClient.Srpc
