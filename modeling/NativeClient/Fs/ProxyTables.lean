import NativeClient.Fs.ObjProxy
import NativeClient.Container.HashTblHistory
import Mathlib.Data.List.Nodup

/-!
# Whether the tables stay inverse

A removal that is not interrupted takes the same pair out of both tables, and
an insertion adds a new pair to both.  But an insertion does not look again
when it has the lock to add its pair, and a removal does not take the lock.
Removals leave marks in the buckets, so that a search may find no end.
-/

namespace NativeClient.Fs

open NativeClient.Library
open NativeClient.Container

variable {machine : Machine} {proxy : Proxy}

section Entries

theorem objFunctor_cmp_iff {left right : Entry} :
    objFunctor.orderCmp left right = 0 ↔ left.obj = right.obj := by
  show (if left.obj ≠ right.obj then (1 : Int) else 0) = 0 ↔ _
  by_cases same : left.obj = right.obj <;> simp [same]

theorem nameFunctor_cmp_iff {left right : Entry} :
    (nameFunctor machine).orderCmp left right = 0 ↔ left.name = right.name := by
  show (if left.name ≠ right.name then (1 : Int) else 0) = 0 ↔ _
  by_cases same : left.name = right.name <;> simp [same]

theorem Paired.eq_of_obj
    (paired : Paired proxy) {left right : Entry}
    (leftMember : left ∈ proxy.objToName.live)
    (rightMember : right ∈ proxy.objToName.live)
    (same : left.obj = right.obj) : left = right :=
  List.inj_on_of_nodup_map paired.objs leftMember rightMember same

theorem Paired.eq_of_name
    (paired : Paired proxy) {left right : Entry}
    (leftMember : left ∈ proxy.nameToObj.live)
    (rightMember : right ∈ proxy.nameToObj.live)
    (same : left.name = right.name) : left = right :=
  List.inj_on_of_nodup_map paired.names (paired.same.mem_iff.mpr leftMember)
    (paired.same.mem_iff.mpr rightMember) same

theorem lookup_spec
    {functor : HashFunctor Entry} {table : HashTbl Entry}
    (valid : Valid machine functor table) {key : Entry} {found : Option Entry}
    (looked : lookup functor table key = some found) :
    (∀ entry, found = some entry →
        entry ∈ table.live ∧ functor.orderCmp entry key = 0) ∧
      (found = none → ∀ entry ∈ table.live,
        functor.orderCmp entry key ≠ 0) := by
  unfold lookup at looked
  cases searched : table.find functor key with
  | none =>
      rw [searched] at looked
      cases looked
  | some idx =>
      rw [searched, Option.map_some, Option.some.injEq] at looked
      obtain ⟨exists_iff, there⟩ := find_returned valid searched
      by_cases inside : idx < table.numBuckets
      · obtain ⟨datum, used, equal⟩ := there inside
        rw [if_pos inside, used] at looked
        subst looked
        refine ⟨?_, nofun⟩
        intro entry same
        cases same
        exact ⟨mem_live_iff.mpr ⟨idx, used⟩, equal⟩
      · rw [if_neg inside] at looked
        subst looked
        refine ⟨nofun, ?_⟩
        intro _ entry member equal
        exact inside (exists_iff.mp ⟨entry, member, equal⟩)

end Entries

section Invariant

def InPhase (proxy : Proxy) : Local → Prop
  | .removing obj => proxy.key.obj = obj ∧ Paired proxy
  | .located idx entry =>
      proxy.objToName.slot idx = .used entry ∧ Paired proxy
  | .matched idx entry other =>
      proxy.objToName.slot idx = .used entry ∧
        proxy.nameToObj.slot other = .used entry ∧ Paired proxy
  | .halfErased entry other =>
      proxy.nameToObj.slot other = .used entry ∧
        proxy.nameToObj.live.Perm (entry :: proxy.objToName.live) ∧
        (proxy.nameToObj.live.map Entry.obj).Nodup ∧
        (proxy.nameToObj.live.map Entry.name).Nodup
  | _ => Paired proxy

structure Invariant (machine : Machine) (proxy : Proxy) : Prop where
  objValid : Valid machine objFunctor proxy.objToName
  nameValid : Valid machine (nameFunctor machine) proxy.nameToObj
  phase : ∀ thread, (∀ other ≠ thread, ¬ (proxy.threads other).Removing) →
    InPhase proxy (proxy.threads thread)

theorem inPhase_iff_paired {current : Local} (outside : ¬ current.Removing) :
    InPhase proxy current ↔ Paired proxy := by
  cases current with
  | idle => exact Iff.rfl
  | inserting obj => exact Iff.rfl
  | named obj name => exact Iff.rfl
  | removing obj => exact absurd trivial outside
  | located idx entry => exact absurd trivial outside
  | matched idx entry other => exact absurd trivial outside
  | halfErased entry other => exact absurd trivial outside

theorem Invariant.sound (inv : Invariant machine proxy) : Sound (some proxy) := by
  intro none'
  exact (inPhase_iff_paired (none' 0)).mp (inv.phase 0 fun other _ => none' other)

theorem threads_go (thread : Nat) (after : Local) :
    (proxy.go thread after).threads thread = after :=
  Function.update_self _ _ _

theorem threads_go_of_ne
    {thread other : Nat} (distinct : other ≠ thread) (after : Local) :
    (proxy.go thread after).threads other = proxy.threads other :=
  Function.update_of_ne distinct _ _

theorem paired_go (thread : Nat) (after : Local) :
    Paired (proxy.go thread after) ↔ Paired proxy :=
  ⟨fun paired => ⟨paired.same, paired.objs, paired.names⟩,
    fun paired => ⟨paired.same, paired.objs, paired.names⟩⟩

theorem inPhase_go (thread : Nat) (after current : Local) :
    InPhase (proxy.go thread after) current ↔ InPhase proxy current := by
  cases current with
  | idle => exact paired_go thread after
  | inserting obj => exact paired_go thread after
  | named obj name => exact paired_go thread after
  | removing obj => exact and_congr Iff.rfl (paired_go thread after)
  | located idx entry => exact and_congr Iff.rfl (paired_go thread after)
  | matched idx entry other =>
      exact and_congr Iff.rfl (and_congr Iff.rfl (paired_go thread after))
  | halfErased entry other => exact Iff.rfl

theorem Invariant.of_go
    {next : Proxy} {thread : Nat} {after : Local}
    (objValid : Valid machine objFunctor next.objToName)
    (nameValid : Valid machine (nameFunctor machine) next.nameToObj)
    (others : ∀ other ≠ thread, ¬ (next.threads other).Removing)
    (phase : InPhase next after) :
    Invariant machine (next.go thread after) := by
  refine ⟨objValid, nameValid, ?_⟩
  intro other alone
  by_cases same : other = thread
  · rw [same, threads_go, inPhase_go]
    exact phase
  · have outside : ¬ after.Removing := by
      have removing := alone thread (Ne.symm same)
      rwa [threads_go] at removing
    rw [threads_go_of_ne same, inPhase_go,
      inPhase_iff_paired (others other same)]
    exact (inPhase_iff_paired outside).mp phase

theorem Invariant.of_frame
    (inv : Invariant machine proxy) {thread : Nat} {before after : Local}
    (here : proxy.threads thread = before) (outside : ¬ before.Removing)
    (still : ¬ after.Removing) : Invariant machine (proxy.go thread after) := by
  refine ⟨inv.objValid, inv.nameValid, ?_⟩
  intro other alone
  have phase : InPhase proxy (proxy.threads other) := by
    apply inv.phase
    intro another distinct
    by_cases same : another = thread
    · rw [same, here]
      exact outside
    · rw [← threads_go_of_ne same after]
      exact alone another distinct
  rw [inPhase_go]
  by_cases same : other = thread
  · subst same
    rw [here, inPhase_iff_paired outside] at phase
    rw [threads_go, inPhase_iff_paired still]
    exact phase
  · rw [threads_go_of_ne same]
    exact phase

end Invariant

section Sections

theorem paired_key (paired : Paired proxy) (key : Entry) :
    Paired { proxy with key := key } :=
  ⟨paired.same, paired.objs, paired.names⟩

theorem go_self {thread : Nat} {current : Local}
    (here : proxy.threads thread = current) : proxy.go thread current = proxy := by
  unfold Proxy.go
  rw [← here, Function.update_eq_self]

theorem lookup_value
    {functor : HashFunctor Entry} {table : HashTbl Entry} {key : Entry}
    (valid : Valid machine functor table) {κ β : Type} {field : Entry → κ}
    {value : Entry → β}
    (cmp : ∀ {entry}, functor.orderCmp entry key = 0 ↔ field entry = field key)
    (unique : ∀ {left right}, left ∈ table.live → right ∈ table.live →
      field left = field right → left = right)
    {after next : Proxy} {found : Option β}
    (returned : (lookup functor table key).map (fun looked =>
      (looked.map value, after)) = some (found, next)) :
    next = after ∧ ∀ out, found = some out ↔
      ∃ entry ∈ table.live, field entry = field key ∧ value entry = out := by
  obtain ⟨looked, eq, same⟩ := Option.map_eq_some_iff.mp returned
  cases same
  obtain ⟨present, absent⟩ := lookup_spec valid eq
  refine ⟨rfl, fun out => ⟨?_, ?_⟩⟩
  · intro same
    obtain ⟨entry, rfl, rfl⟩ := Option.map_eq_some_iff.mp same
    obtain ⟨member, equal⟩ := present entry rfl
    exact ⟨entry, member, cmp.mp equal, rfl⟩
  · rintro ⟨entry, member, same, rfl⟩
    cases looked with
    | none => exact absurd (cmp.mpr same) (absent rfl entry member)
    | some other =>
        obtain ⟨otherMember, equal⟩ := present other rfl
        rw [unique otherMember member ((cmp.mp equal).trans same.symm)]
        rfl

theorem findNameByObj_spec
    (valid : Valid machine objFunctor proxy.objToName)
    (paired : Paired proxy) {obj : Nat} {found : Option Name} {next : Proxy}
    (returned : findNameByObj proxy obj = some (found, next)) :
    next = { proxy with key := { proxy.key with obj := obj } } ∧
      ∀ name, found = some name ↔ ⟨obj, name⟩ ∈ proxy.objToName.live := by
  obtain ⟨rfl, found_iff⟩ :=
    lookup_value valid objFunctor_cmp_iff paired.eq_of_obj returned
  refine ⟨rfl, fun name => (found_iff name).trans ⟨?_, ?_⟩⟩
  · rintro ⟨⟨_, _⟩, member, rfl, rfl⟩
    exact member
  · exact fun member => ⟨_, member, rfl, rfl⟩

theorem findObjByName_spec
    (valid : Valid machine (nameFunctor machine) proxy.nameToObj)
    (paired : Paired proxy) {name : Name} {found : Option Nat} {next : Proxy}
    (returned : findObjByName machine proxy name = some (found, next)) :
    next = { proxy with key := { proxy.key with name := name } } ∧
      ∀ obj, found = some obj ↔ ⟨obj, name⟩ ∈ proxy.nameToObj.live := by
  obtain ⟨rfl, found_iff⟩ :=
    lookup_value valid nameFunctor_cmp_iff paired.eq_of_name returned
  refine ⟨rfl, fun obj => (found_iff obj).trans ⟨?_, ?_⟩⟩
  · rintro ⟨⟨_, _⟩, member, rfl, rfl⟩
    exact member
  · exact fun member => ⟨_, member, rfl, rfl⟩

theorem live_remove_used
    {functor : HashFunctor Entry} {table : HashTbl Entry}
    (valid : Valid machine functor table) {idx : Nat} {entry : Entry}
    (used : table.slot idx = .used entry) :
    Valid machine functor (table.remove idx) ∧
      table.live.Perm (entry :: (table.remove idx).live) := by
  have inside := lt_of_slot_used used
  refine ⟨valid.remove (valid.length ▸ inside), ?_⟩
  have perm := live_remove inside
  rw [used] at perm
  exact perm

end Sections

section Steps

variable {thread : Nat} {response : Response} {next : Proxy}

section Alone

variable (inv : Invariant machine proxy)
  (others : ∀ other ≠ thread, ¬ (proxy.threads other).Removing) {obj idx : Nat}
  {name : Name} {entry : Entry}

include inv others

theorem Invariant.paired
    {current : Local} (here : proxy.threads thread = current)
    (outside : ¬ current.Removing) : Paired proxy := by
  have phase := inv.phase thread others
  rw [here] at phase
  exact (inPhase_iff_paired outside).mp phase

theorem Invariant.of_key
    (paired : Paired proxy) (key : Entry) {after : Local}
    (outside : ¬ after.Removing) :
    Invariant machine (Proxy.go { proxy with key := key } thread after) :=
  .of_go inv.objValid inv.nameValid others
    ((inPhase_iff_paired outside).mpr (paired_key paired key))

theorem Invariant.rekey
    {current : Local} (here : proxy.threads thread = current)
    (outside : ¬ current.Removing) (key : Entry) :
    Invariant machine { proxy with key := key } := by
  have kept := inv.of_key others (inv.paired others here outside) key outside
  have same : Proxy.go { proxy with key := key } thread current =
      { proxy with key := key } := go_self here
  exact same ▸ kept

theorem keeps_findNameByObj
    (here : proxy.threads thread = .idle)
    (acted : act machine proxy thread (.findNameByObj obj) =
      some (response, next)) :
    Invariant machine next ∧
      Does proxy thread (.findNameByObj obj) response next := by
  have paired := inv.paired others here id
  unfold act at acted
  rw [here] at acted
  dsimp only at acted
  obtain ⟨⟨found, after⟩, returned, eq⟩ := Option.map_eq_some_iff.mp acted
  cases eq
  obtain ⟨rfl, found_iff⟩ := findNameByObj_spec inv.objValid paired returned
  exact ⟨inv.rekey others here id _, found, rfl, found_iff⟩

theorem keeps_findObjByName
    (here : proxy.threads thread = .idle)
    (acted : act machine proxy thread (.findObjByName name) =
      some (response, next)) :
    Invariant machine next ∧
      Does proxy thread (.findObjByName name) response next := by
  have paired := inv.paired others here id
  unfold act at acted
  rw [here] at acted
  dsimp only at acted
  obtain ⟨⟨found, after⟩, returned, eq⟩ := Option.map_eq_some_iff.mp acted
  cases eq
  obtain ⟨rfl, found_iff⟩ := findObjByName_spec inv.nameValid paired returned
  exact ⟨inv.rekey others here id _, found, rfl, found_iff⟩

theorem keeps_beginInsert
    (here : proxy.threads thread = .idle)
    (acted : act machine proxy thread (.beginInsert obj) =
      some (response, next)) :
    Invariant machine next ∧
      Does proxy thread (.beginInsert obj) response next := by
  have paired := inv.paired others here id
  unfold act at acted
  rw [here] at acted
  dsimp only at acted
  obtain ⟨⟨found, after⟩, returned, eq⟩ := Option.map_eq_some_iff.mp acted
  obtain ⟨rfl, found_iff⟩ := findNameByObj_spec inv.objValid paired returned
  cases found with
  | some name =>
      cases eq
      exact ⟨inv.rekey others here id _, fun _ => rfl⟩
  | none =>
      cases eq
      refine ⟨inv.of_key others paired _ id, ?_⟩
      rintro ⟨entry, member, rfl⟩
      cases (found_iff entry.name).mpr member

theorem keeps_genName
    (here : proxy.threads thread = .inserting obj)
    (acted : act machine proxy thread (.genName name) =
      some (response, next)) :
    Invariant machine next := by
  have paired := inv.paired others here id
  unfold act at acted
  rw [here] at acted
  dsimp only at acted
  obtain ⟨⟨found, after⟩, returned, eq⟩ := Option.map_eq_some_iff.mp acted
  obtain ⟨rfl, -⟩ := findObjByName_spec inv.nameValid paired returned
  cases found with
  | some other =>
      cases eq
      exact inv.rekey others here id _
  | none =>
      cases eq
      exact inv.of_key others paired _ id

theorem keeps_addEntries
    (here : proxy.threads thread = .named obj name)
    (newObj : ∀ entry ∈ proxy.objToName.live, entry.obj ≠ obj)
    (newName : ∀ entry ∈ proxy.nameToObj.live, entry.name ≠ name)
    {objAllocates nameAllocates : Nat → Bool}
    (acted : act machine proxy thread (.addEntries objAllocates nameAllocates) =
      some (response, next)) :
    Invariant machine next ∧
      Does proxy thread (.addEntries objAllocates nameAllocates) response
        next := by
  have paired := inv.paired others here id
  unfold act at acted
  rw [here] at acted
  dsimp only at acted
  obtain ⟨⟨objGrown, objToName⟩, objInserted, rest⟩ :=
    Option.bind_eq_some_iff.mp acted
  obtain ⟨⟨nameGrown, nameToObj⟩, nameInserted, eq⟩ :=
    Option.map_eq_some_iff.mp rest
  cases eq
  obtain ⟨objValid, objPerm⟩ := insert_returned inv.objValid objInserted
  obtain ⟨nameValid, namePerm⟩ := insert_returned inv.nameValid nameInserted
  have after : Paired
      { proxy with objToName := objToName, nameToObj := nameToObj } := by
    refine ⟨objPerm.trans ((paired.same.cons _).trans namePerm.symm), ?_, ?_⟩
    · rw [(objPerm.map Entry.obj).nodup_iff, List.map_cons, List.nodup_cons]
      refine ⟨?_, paired.objs⟩
      intro member
      obtain ⟨entry, present, same⟩ := List.mem_map.mp member
      exact newObj entry present same
    · rw [(objPerm.map Entry.name).nodup_iff, List.map_cons, List.nodup_cons]
      refine ⟨?_, paired.names⟩
      intro member
      obtain ⟨entry, present, same⟩ := List.mem_map.mp member
      exact newName entry (paired.same.mem_iff.mp present) same
  refine ⟨.of_go objValid nameValid others after, ?_⟩
  intro otherObj otherName same
  rw [here] at same
  cases same
  exact ⟨rfl, newObj, objPerm.mem_iff.mpr List.mem_cons_self⟩

theorem keeps_beginRemove
    (here : proxy.threads thread = .idle)
    (acted : act machine proxy thread (.beginRemove obj) =
      some (response, next)) :
    Invariant machine next := by
  have paired := inv.paired others here id
  unfold act at acted
  rw [here] at acted
  dsimp only at acted
  cases acted
  exact .of_go inv.objValid inv.nameValid others ⟨rfl, paired_key paired _⟩

theorem keeps_locate
    (here : proxy.threads thread = .removing obj)
    (acted : act machine proxy thread .locate = some (response, next)) :
    Invariant machine next ∧ Does proxy thread .locate response next := by
  have phase := inv.phase thread others
  rw [here] at phase
  obtain ⟨key, paired⟩ := phase
  unfold act at acted
  rw [here] at acted
  dsimp only at acted
  obtain ⟨idx, found, rest⟩ := Option.bind_eq_some_iff.mp acted
  obtain ⟨exists_iff, there⟩ := find_returned inv.objValid found
  by_cases inside : idx < proxy.objToName.numBuckets
  · rw [if_pos inside] at rest
    obtain ⟨entry, used, -⟩ := there inside
    rw [used] at rest
    cases rest
    exact ⟨.of_go inv.objValid inv.nameValid others ⟨used, paired⟩, nofun⟩
  · rw [if_neg inside] at rest
    cases rest
    refine ⟨.of_go inv.objValid inv.nameValid others paired, ?_⟩
    intro otherObj same _ entry member equal
    rw [here] at same
    cases same
    exact inside (exists_iff.mp ⟨entry, member,
      objFunctor_cmp_iff.mpr (equal.trans key.symm)⟩)

theorem keeps_matchName
    (here : proxy.threads thread = .located idx entry)
    (acted : act machine proxy thread .matchName = some (response, next)) :
    Invariant machine next := by
  have phase := inv.phase thread others
  rw [here] at phase
  obtain ⟨used, paired⟩ := phase
  unfold act at acted
  rw [here] at acted
  dsimp only at acted
  obtain ⟨other, found, rest⟩ := Option.bind_eq_some_iff.mp acted
  obtain ⟨-, there⟩ := find_returned inv.nameValid found
  by_cases inside : other < proxy.nameToObj.numBuckets
  · rw [if_pos inside] at rest
    cases rest
    obtain ⟨partner, otherUsed, equal⟩ := there inside
    -- There is only one entry with the name.
    have same : partner = entry := by
      apply paired.eq_of_name (mem_live_iff.mpr ⟨other, otherUsed⟩)
      · exact paired.same.mem_iff.mp (mem_live_iff.mpr ⟨idx, used⟩)
      · exact nameFunctor_cmp_iff.mp equal
    rw [same] at otherUsed
    exact .of_go inv.objValid inv.nameValid others ⟨used, otherUsed, paired⟩
  · rw [if_neg inside] at rest
    cases rest

theorem keeps_eraseObj
    {other : Nat}
    (here : proxy.threads thread = .matched idx entry other)
    (acted : act machine proxy thread .eraseObj = some (response, next)) :
    Invariant machine next := by
  have phase := inv.phase thread others
  rw [here] at phase
  obtain ⟨used, otherUsed, paired⟩ := phase
  unfold act at acted
  rw [here] at acted
  dsimp only at acted
  cases acted
  obtain ⟨valid, perm⟩ := live_remove_used inv.objValid used
  refine .of_go valid inv.nameValid others ⟨otherUsed, ?_, ?_, ?_⟩
  · exact paired.same.symm.trans perm
  · exact (paired.same.map Entry.obj).nodup_iff.mp paired.objs
  · exact (paired.same.map Entry.name).nodup_iff.mp paired.names

theorem keeps_eraseName
    {other : Nat}
    (here : proxy.threads thread = .halfErased entry other)
    (acted : act machine proxy thread .eraseName = some (response, next)) :
    Invariant machine next ∧ Does proxy thread .eraseName response next := by
  have phase := inv.phase thread others
  rw [here] at phase
  obtain ⟨used, ahead, objs, names⟩ := phase
  unfold act at acted
  rw [here] at acted
  dsimp only at acted
  cases acted
  obtain ⟨valid, perm⟩ := live_remove_used inv.nameValid used
  have same : proxy.objToName.live.Perm (proxy.nameToObj.remove other).live :=
    (ahead.symm.trans perm).cons_inv
  rw [(ahead.map Entry.obj).nodup_iff, List.map_cons, List.nodup_cons] at objs
  rw [(ahead.map Entry.name).nodup_iff, List.map_cons, List.nodup_cons] at names
  refine ⟨.of_go inv.objValid valid others ⟨same, objs.2, names.2⟩, ?_⟩
  intro otherEntry otherIdx eq
  rw [here] at eq
  cases eq
  refine ⟨rfl, ?_, ?_⟩
  · intro left member equal
    exact objs.1 (List.mem_map.mpr ⟨left, member, equal⟩)
  · intro left member equal
    exact names.1 (List.mem_map.mpr ⟨left, same.mem_iff.mpr member, equal⟩)

end Alone

theorem threads_of_enables
    {action : Action}
    (enabled : (proxy.threads thread).enables action = true) :
    match action with
    | .findNameByObj _ | .findObjByName _ | .beginInsert _ | .beginRemove _ =>
        proxy.threads thread = .idle
    | .outOfMemory | .genName _ => ∃ obj, proxy.threads thread = .inserting obj
    | .addEntries _ _ => ∃ obj name, proxy.threads thread = .named obj name
    | .locate => ∃ obj, proxy.threads thread = .removing obj
    | .matchName => ∃ idx entry, proxy.threads thread = .located idx entry
    | .eraseObj =>
        ∃ idx entry other, proxy.threads thread = .matched idx entry other
    | .eraseName =>
        ∃ entry other, proxy.threads thread = .halfErased entry other := by
  unfold Local.enables at enabled
  split at enabled <;> simp_all

theorem act_keeps
    (inv : Invariant machine proxy) {action : Action}
    (enabled : (proxy.threads thread).enables action = true)
    (proper : Undisturbed proxy (thread, action))
    (acted : act machine proxy thread action = some (response, next)) :
    Invariant machine next ∧ Does proxy thread action response next := by
  have enabled := threads_of_enables enabled
  cases action with
  | findNameByObj obj => exact keeps_findNameByObj inv proper enabled acted
  | findObjByName name => exact keeps_findObjByName inv proper enabled acted
  | beginInsert obj => exact keeps_beginInsert inv proper enabled acted
  | outOfMemory =>
      obtain ⟨obj, here⟩ := enabled
      unfold act at acted
      rw [here] at acted
      dsimp only at acted
      cases acted
      exact ⟨inv.of_frame here id id, trivial⟩
  | genName name =>
      obtain ⟨obj, here⟩ := enabled
      exact ⟨keeps_genName inv proper here acted, trivial⟩
  | addEntries objAllocates nameAllocates =>
      obtain ⟨obj, name, here⟩ := enabled
      obtain ⟨newObj, newName⟩ := proper.2 obj name here
      exact keeps_addEntries inv proper.1 here newObj newName acted
  | beginRemove obj =>
      exact ⟨keeps_beginRemove inv proper enabled acted, trivial⟩
  | locate =>
      obtain ⟨obj, here⟩ := enabled
      exact keeps_locate inv proper here acted
  | matchName =>
      obtain ⟨idx, entry, here⟩ := enabled
      exact ⟨keeps_matchName inv proper here acted, trivial⟩
  | eraseObj =>
      obtain ⟨idx, entry, other, here⟩ := enabled
      exact ⟨keeps_eraseObj inv proper here acted, trivial⟩
  | eraseName =>
      obtain ⟨entry, other, here⟩ := enabled
      exact keeps_eraseName inv proper here acted

def Alive (machine : Machine) (state : Option Proxy) : Prop :=
  ∃ proxy, state = some proxy ∧ Invariant machine proxy

end Steps

section Runs

variable {objAllocates nameAllocates : Nat → Bool} {key : Entry}

def newProxy : Proxy where
  objToName := ⟨257, 0, List.replicate 257 .unused⟩
  nameToObj := ⟨257, 0, List.replicate 257 .unused⟩
  key := ⟨0, []⟩
  threads := fun _ => .idle

end Runs

end NativeClient.Fs
