import NativeClient.Container.HashTblOperations
import Mathlib.Logic.Function.Basic

/-!
# Object proxies

`NaClObjProxy` keeps two hash tables, from objects to names and from names to
objects.  Several threads use it: a section under the mutex is one step, and
what is done outside of it is done in steps of its own.  A step that never
returns, or aborts the process, has no result.
-/

namespace NativeClient.Fs

open NativeClient.Library
open NativeClient.Container

abbrev Name := List UInt8

/-- `struct NaClObjProxyEntry`; an object is its address. -/
structure Entry where
  obj : Nat
  name : Name
deriving DecidableEq

/-- `NaClObjProxyObjCmp` and `NaClObjProxyObjHash`. -/
def objFunctor : HashFunctor Entry where
  hash := Entry.obj
  orderCmp := fun left right => if left.obj ≠ right.obj then 1 else 0
  consistent := by
    intro datum key equal
    by_contra distinct
    rw [if_pos distinct] at equal
    cases equal

/-- `NaClObjProxyNameHash`, from the last byte to the first. -/
def nameHash (machine : Machine) (name : Name) : Nat :=
  name.foldr
    (fun byte hash => (17 * hash + 3 * byte.toNat) % 2 ^ machine.sizeBits) 0

/-- `NaClObjProxyNameCmp`, of which only whether it is zero is used. -/
def nameFunctor (machine : Machine) : HashFunctor Entry where
  hash := fun entry => nameHash machine entry.name
  orderCmp := fun left right => if left.name ≠ right.name then 1 else 0
  consistent := by
    intro datum key equal
    by_cases distinct : datum.name ≠ key.name
    · rw [if_pos distinct] at equal
      cases equal
    · rw [not_not.mp distinct]

/-- How far a thread is: between two sections of `NaClObjProxyInsert`, or
between two steps of `NaClObjProxyRemove`, which takes no lock. -/
inductive Local where
  | idle
  | inserting (obj : Nat)
  | named (obj : Nat) (name : Name)
  | removing (obj : Nat)
  | located (idx : Nat) (entry : Entry)
  | matched (idx : Nat) (entry : Entry) (other : Nat)
  | halfErased (entry : Entry) (other : Nat)

/-- `struct NaClObjProxy` with the threads that use it. -/
structure Proxy where
  objToName : HashTbl Entry
  nameToObj : HashTbl Entry
  key : Entry
  threads : Nat → Local

/-- The steps of a thread.  `genName` is the generation of a name with the
check of it; `addEntries` comes with what `calloc` can do for both tables. -/
inductive Action where
  | findNameByObj (obj : Nat)
  | findObjByName (name : Name)
  | beginInsert (obj : Nat)
  | outOfMemory
  | genName (name : Name)
  | addEntries (objAllocates nameAllocates : Nat → Bool)
  | beginRemove (obj : Nat)
  | locate
  | matchName
  | eraseObj
  | eraseName

inductive Response where
  | pending
  | name (found : Option Name)
  | obj (found : Option Nat)
  | removed (done : Bool)

/-- `Find`, and the entry of the iterator if it is not at the end. -/
def lookup (functor : HashFunctor Entry) (table : HashTbl Entry) (key : Entry) :
    Option (Option Entry) :=
  (table.find functor key).map fun idx =>
    if idx < table.numBuckets then (table.slot idx).datum else none

def Proxy.go (proxy : Proxy) (thread : Nat) (next : Local) : Proxy :=
  { proxy with threads := Function.update proxy.threads thread next }

def findNameByObj (proxy : Proxy) (obj : Nat) : Option (Option Name × Proxy) :=
  let proxy := { proxy with key := { proxy.key with obj := obj } }
  (lookup objFunctor proxy.objToName proxy.key).map fun found =>
    (found.map Entry.name, proxy)

def findObjByName (machine : Machine) (proxy : Proxy) (name : Name) :
    Option (Option Nat × Proxy) :=
  let proxy := { proxy with key := { proxy.key with name := name } }
  (lookup (nameFunctor machine) proxy.nameToObj proxy.key).map fun found =>
    (found.map Entry.obj, proxy)

/-- One step of a thread.  `Remove` reads the entry that it has found as it was
when it was found. -/
def act (machine : Machine) (proxy : Proxy) (thread : Nat) (action : Action) :
    Option (Response × Proxy) :=
  match proxy.threads thread, action with
  | .idle, .findNameByObj obj =>
      (findNameByObj proxy obj).map fun done => (.name done.1, done.2)
  | .idle, .findObjByName name =>
      (findObjByName machine proxy name).map fun done => (.obj done.1, done.2)
  | .idle, .beginInsert obj =>
      (findNameByObj proxy obj).map fun done =>
        if done.1.isSome then (.name none, done.2)
        else (.pending, done.2.go thread (.inserting obj))
  | .inserting _, .outOfMemory => some (.name none, proxy.go thread .idle)
  | .inserting obj, .genName name =>
      (findObjByName machine proxy name).map fun done =>
        if done.1.isSome then (.pending, done.2)
        else (.pending, done.2.go thread (.named obj name))
  | .named obj name, .addEntries objAllocates nameAllocates =>
      (proxy.objToName.insert machine objFunctor objAllocates
        ⟨obj, name⟩).bind fun first =>
          (proxy.nameToObj.insert machine (nameFunctor machine) nameAllocates
            ⟨obj, name⟩).map fun second =>
              (.name (some name),
                Proxy.go
                  { proxy with objToName := first.2, nameToObj := second.2 }
                  thread .idle)
  | .idle, .beginRemove obj =>
      some (.pending,
        Proxy.go { proxy with key := { proxy.key with obj := obj } } thread
          (.removing obj))
  | .removing _, .locate =>
      (proxy.objToName.find objFunctor proxy.key).bind fun idx =>
        if idx < proxy.objToName.numBuckets then
          (proxy.objToName.slot idx).datum.map fun entry =>
            (.pending, proxy.go thread (.located idx entry))
        else
          some (.removed false, proxy.go thread .idle)
  | .located idx entry, .matchName =>
      (proxy.nameToObj.find (nameFunctor machine) entry).bind fun other =>
        if other < proxy.nameToObj.numBuckets then
          some (.pending, proxy.go thread (.matched idx entry other))
        else
          none
  | .matched idx entry other, .eraseObj =>
      some (.pending,
        Proxy.go { proxy with objToName := proxy.objToName.remove idx } thread
          (.halfErased entry other))
  | .halfErased _ other, .eraseName =>
      some (.removed true,
        Proxy.go { proxy with nameToObj := proxy.nameToObj.remove other } thread
          .idle)
  | _, _ => none

/-- The steps that a thread can be about to take. -/
def Local.enables : Local → Action → Bool
  | .idle, .findNameByObj _ | .idle, .findObjByName _ | .idle, .beginInsert _
  | .idle, .beginRemove _ | .inserting _, .outOfMemory
  | .inserting _, .genName _ | .named _ _, .addEntries _ _
  | .removing _, .locate | .located _ _, .matchName
  | .matched _ _ _, .eraseObj | .halfErased _ _, .eraseName => true
  | _, _ => false

/-- After a step that has no result there is no proxy any more. -/
def step (machine : Machine) :
    Option Proxy → Nat × Action → Option (Option Proxy)
  | none, _ => none
  | some proxy, event =>
      if (proxy.threads event.1).enables event.2 then
        some ((act machine proxy event.1 event.2).map Prod.snd)
      else
        none

/-- The thread is in the middle of `NaClObjProxyRemove`. -/
def Local.Removing : Local → Prop
  | .removing _ | .located _ _ | .matched _ _ _ | .halfErased _ _ => True
  | _ => False

structure Paired (proxy : Proxy) : Prop where
  same : proxy.objToName.live.Perm proxy.nameToObj.live
  objs : (proxy.objToName.live.map Entry.obj).Nodup
  names : (proxy.objToName.live.map Entry.name).Nodup

def Sound : Option Proxy → Prop
  | none => True
  | some proxy =>
      (∀ thread, ¬ (proxy.threads thread).Removing) → Paired proxy

/-- What the calls return: the lookups what is in the tables, an insertion
`NULL` for an object that is there and a name only for one that is not, and
after a removal both lookups fail. -/
def Does (proxy : Proxy) (thread : Nat) :
    Action → Response → Proxy → Prop
  | .findNameByObj obj, response, _ =>
      ∃ found, response = .name found ∧
        ∀ name, found = some name ↔ ⟨obj, name⟩ ∈ proxy.objToName.live
  | .findObjByName name, response, _ =>
      ∃ found, response = .obj found ∧
        ∀ obj, found = some obj ↔ ⟨obj, name⟩ ∈ proxy.nameToObj.live
  | .beginInsert obj, response, _ =>
      (∃ entry ∈ proxy.objToName.live, entry.obj = obj) → response = .name none
  | .addEntries _ _, response, next =>
      ∀ obj name, proxy.threads thread = .named obj name →
        response = .name (some name) ∧
          (∀ entry ∈ proxy.objToName.live, entry.obj ≠ obj) ∧
          ⟨obj, name⟩ ∈ next.objToName.live
  | .locate, response, next =>
      ∀ obj, proxy.threads thread = .removing obj → response = .removed false →
        ∀ entry ∈ next.objToName.live, entry.obj ≠ obj
  | .eraseName, response, next =>
      ∀ entry other, proxy.threads thread = .halfErased entry other →
        response = .removed true ∧
          (∀ left ∈ next.objToName.live, left.obj ≠ entry.obj) ∧
          ∀ left ∈ next.nameToObj.live, left.name ≠ entry.name
  | _, _, _ => True

/-- The step returns, and does what it should. -/
def Behaves (machine : Machine) : Option Proxy → Nat × Action → Prop
  | none, _ => False
  | some proxy, event =>
      ∃ response next,
        act machine proxy event.1 event.2 = some (response, next) ∧
          Does proxy event.1 event.2 response next

/-- An insertion finds a bucket that is not used in both tables, and a search
one that was never used, or an equal entry. -/
def Room (machine : Machine) (proxy : Proxy) : Action → Prop
  | .findNameByObj obj | .beginInsert obj =>
      Findable objFunctor proxy.objToName { proxy.key with obj := obj }
  | .findObjByName name | .genName name =>
      Findable (nameFunctor machine) proxy.nameToObj
        { proxy.key with name := name }
  | .addEntries _ _ =>
      proxy.objToName.numEntries < proxy.objToName.numBuckets ∧
        proxy.nameToObj.numEntries < proxy.nameToObj.numBuckets
  | .locate => Findable objFunctor proxy.objToName proxy.key
  | _ => True

/-- While a thread is in the middle of a removal no other one takes a step in
the tables, and when an insertion adds its entries nobody has added the object
or the name since it looked for them. -/
def Undisturbed (proxy : Proxy) (event : Nat × Action) : Prop :=
  match event.2 with
  | .outOfMemory => True
  | .addEntries _ _ =>
      (∀ other ≠ event.1, ¬ (proxy.threads other).Removing) ∧
        ∀ obj name, proxy.threads event.1 = .named obj name →
          (∀ entry ∈ proxy.objToName.live, entry.obj ≠ obj) ∧
            ∀ entry ∈ proxy.nameToObj.live, entry.name ≠ name
  | _ => ∀ other ≠ event.1, ¬ (proxy.threads other).Removing

def Proper (machine : Machine) : Option Proxy → Nat × Action → Prop
  | none, _ => False
  | some proxy, event =>
      Room machine proxy event.2 ∧ Undisturbed proxy event

end NativeClient.Fs
