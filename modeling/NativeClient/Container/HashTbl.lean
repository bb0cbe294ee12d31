import NativeClient.Library.Probing
import NativeClient.Library.Runs

/-!
# The hash table

`NaClContainerHashTbl` keeps its entries in the buckets themselves and probes
with a fixed stride.  A deleted entry leaves a mark behind, so that a search
goes on past it.  A call that never returns has no result.
-/

namespace NativeClient.Container

open NativeClient.Library

/-- The width of `size_t` and `uintptr_t`. -/
structure Machine where
  sizeBits : Nat
  widths : sizeBits = 32 ∨ sizeBits = 64

def Machine.sizeMax (machine : Machine) : Nat :=
  2 ^ machine.sizeBits - 1

/-- `sizeof(struct NaClContainerHashTblEntry)`: two words. -/
def Machine.entrySize (machine : Machine) : Nat :=
  machine.sizeBits / 4

def loadFactor : Nat := 2

def stride : Nat := 17

def minBuckets : Nat := 32

/-- `struct NaClHashFunctor`: objects that are equal have the same hash. -/
structure HashFunctor (α : Type) where
  hash : α → Nat
  orderCmp : α → α → Int
  consistent : ∀ datum key, orderCmp datum key = 0 → hash datum = hash key

/-- `struct NaClContainerHashTblEntry` by its flags. -/
inductive Slot (α : Type) where
  | unused
  | used (datum : α)
  | deleted

structure HashTbl (α : Type) where
  numBuckets : Nat
  numEntries : Nat
  bucket : List (Slot α)

variable {α : Type}

def Slot.datum : Slot α → Option α
  | .used datum => some datum
  | _ => none

def Slot.isUsed (slot : Slot α) : Bool :=
  slot.datum.isSome

def Slot.isUnused : Slot α → Bool
  | .unused => true
  | _ => false

def HashTbl.slot (table : HashTbl α) (idx : Nat) : Slot α :=
  table.bucket.getD idx .unused

/-- `NaClContainerHashTblMakeBucket`; `allocates` is what `calloc` can do. -/
def makeBucket (machine : Machine) (allocates : Nat → Bool) (size : Nat) :
    Option (List (Slot α)) :=
  if machine.sizeMax / machine.entrySize < size then
    none
  else if allocates size then
    some (List.replicate size .unused)
  else
    none

def initialBuckets (machine : Machine) (numBuckets : Nat) : Nat :=
  if max numBuckets minBuckets % stride = 0 then
    (max numBuckets minBuckets + 1) % 2 ^ machine.sizeBits
  else
    max numBuckets minBuckets

def hashTblCtor
    (machine : Machine) (allocates : Nat → Bool) (numBuckets : Nat) :
    Option (HashTbl α) :=
  (makeBucket machine allocates (initialBuckets machine numBuckets)).map
    fun bucket =>
      { numBuckets := initialBuckets machine numBuckets
        numEntries := 0
        bucket := bucket }

/-- `HashNext`; the modulus is subtracted until it is larger. -/
def hashNext (modulus idx : Nat) : Nat :=
  (idx + stride) % modulus

def HashTbl.home
    (functor : HashFunctor α) (table : HashTbl α) (key : α) : Option Nat :=
  if table.numBuckets = 0 then none
  else some (functor.hash key % table.numBuckets)

/-- A search with the stride.  It comes to every bucket within `num_buckets`
turns, so that it never ends if it has not ended by then. -/
def HashTbl.probe
    (functor : HashFunctor α) (table : HashTbl α) (key : α)
    (stop : Slot α → Bool) : Option Nat :=
  (table.home functor key).bind
    (runLoop
      (searchTurn (fun idx => stop (table.slot idx))
        (hashNext table.numBuckets))
      table.numBuckets)

def HashTbl.put (table : HashTbl α) (idx : Nat) (obj : α) : HashTbl α :=
  { table with
    numEntries := table.numEntries + 1
    bucket := table.bucket.set idx (.used obj) }

/-- The transfer to the new table in `NaClContainerHashTblCheckLoad`. -/
def rehash (insert : HashTbl α → α → Option (Bool × HashTbl α)) :
    List (Slot α) → HashTbl α → Option (HashTbl α)
  | [], table => some table
  | .used datum :: slots, table =>
      (insert table datum).bind fun done => rehash insert slots done.2
  | _ :: slots, table => rehash insert slots table

def checkLoad
    (machine : Machine) (allocates : Nat → Bool)
    (insert : HashTbl α → α → Option (Bool × HashTbl α)) (table : HashTbl α) :
    Option (Bool × HashTbl α) :=
  if loadFactor * table.numEntries % 2 ^ machine.sizeBits <
      table.numBuckets then
    some (true, table)
  else
    let newSize := 2 * table.numBuckets % 2 ^ machine.sizeBits
    if newSize < table.numBuckets then
      some (false, table)
    else
      match makeBucket machine allocates newSize with
      | none => some (false, table)
      | some bucket =>
          (rehash insert table.bucket
            { numBuckets := newSize, numEntries := 0, bucket := bucket }).map
            fun next => (true, next)

/-- `NaClContainerHashTblInsert`, which may come back to itself through the
check of the load `depth` times. -/
def insertWithin
    (machine : Machine) (functor : HashFunctor α) (allocates : Nat → Bool) :
    Nat → HashTbl α → α → Option (Bool × HashTbl α)
  | 0, _, _ => none
  | depth + 1, table, obj =>
      (table.probe functor obj fun slot => !slot.isUsed).bind fun idx =>
        checkLoad machine allocates (insertWithin machine functor allocates depth)
          (table.put idx obj)

def HashTbl.insert
    (machine : Machine) (functor : HashFunctor α) (allocates : Nat → Bool)
    (table : HashTbl α) (obj : α) : Option (Bool × HashTbl α) :=
  insertWithin machine functor allocates 3 table obj

/-- The loop of `NaClContainerHashTblFind` ends. -/
def endsFind (functor : HashFunctor α) (key : α) : Slot α → Bool
  | .unused => true
  | .used datum => functor.orderCmp datum key == 0
  | .deleted => false

/-- `NaClContainerHashTblFind`, the index of the iterator. -/
def HashTbl.find (functor : HashFunctor α) (table : HashTbl α) (key : α) :
    Option Nat :=
  (table.probe functor key (endsFind functor key)).map fun idx =>
    if (table.slot idx).isUnused then table.numBuckets else idx

def HashTbl.iterIncr (table : HashTbl α) (idx : Nat) : Option Nat :=
  runLoop
    (searchTurn
      (fun idx => decide (table.numBuckets ≤ idx) || (table.slot idx).isUsed)
      (· + 1))
    (table.numBuckets + 1) (idx + 1)

def HashTbl.iterCtor (table : HashTbl α) : Option Nat :=
  if (table.slot 0).isUsed then some 0 else table.iterIncr 0

/-- What `NaClContainerHashTblIterErase` and `IterExtract` do to the table. -/
def HashTbl.remove (table : HashTbl α) (idx : Nat) : HashTbl α :=
  { table with
    numEntries :=
      if (table.slot idx).isUsed then table.numEntries - 1
      else table.numEntries
    bucket := table.bucket.set idx .deleted }

inductive Visit where
  | incr
  | erase
  | extract
deriving DecidableEq

structure Walk (α : Type) where
  table : HashTbl α
  idx : Nat
  visited : List (Option α)

/-- One turn of an iteration: `Star`, and then `Incr`, `Erase` or `Extract`. -/
def walkTurn (choose : Option α → Visit) (walk : Walk α) :
    Turn (Walk α) (Option (List (Option α) × HashTbl α)) :=
  if walk.table.numBuckets ≤ walk.idx then
    .leave (some (walk.visited, walk.table))
  else
    let datum := (walk.table.slot walk.idx).datum
    let table :=
      if choose datum = .incr then walk.table else walk.table.remove walk.idx
    match table.iterIncr walk.idx with
    | none => .leave none
    | some idx =>
        .again
          { table := table, idx := idx, visited := walk.visited ++ [datum] }

/-- An iteration from `IterCtor` to `AtEnd`. -/
def HashTbl.iterate (choose : Option α → Visit) (table : HashTbl α) :
    Option (List (Option α) × HashTbl α) :=
  table.iterCtor.bind fun idx =>
    (runLoop (walkTurn choose) (table.numBuckets + 1)
      { table := table, idx := idx, visited := [] }).join

inductive Operation (α : Type) where
  | insert (obj : α) (allocates : Nat → Bool)
  | find (key : α)
  | erase (idx : Nat)
  | extract (idx : Nat)
  | iterate (choose : Option α → Visit)

inductive Response (α : Type) where
  | inserted (grown : Bool)
  | found (idx : Nat)
  | erased (next : Nat)
  | extracted (datum : Option α) (next : Nat)
  | visited (data : List (Option α))

def HashTbl.call
    (machine : Machine) (functor : HashFunctor α) (table : HashTbl α) :
    Operation α → Option (Response α × HashTbl α)
  | .insert obj allocates =>
      (table.insert machine functor allocates obj).map fun done =>
        (.inserted done.1, done.2)
  | .find key => (table.find functor key).map fun idx => (.found idx, table)
  | .erase idx =>
      ((table.remove idx).iterIncr idx).map fun next =>
        (.erased next, table.remove idx)
  | .extract idx =>
      ((table.remove idx).iterIncr idx).map fun next =>
        (.extracted (table.slot idx).datum next, table.remove idx)
  | .iterate choose =>
      (table.iterate choose).map fun done => (.visited done.1, done.2)

/-- `Erase` and `Extract` need an iterator that is not at the end. -/
def Operation.Possible (table : HashTbl α) : Operation α → Prop
  | .erase idx => idx < table.numBuckets
  | .extract idx => idx < table.numBuckets
  | _ => True

instance (table : HashTbl α) :
    (operation : Operation α) → Decidable (operation.Possible table)
  | .erase idx => inferInstanceAs (Decidable (idx < table.numBuckets))
  | .extract idx => inferInstanceAs (Decidable (idx < table.numBuckets))
  | .insert _ _ | .find _ | .iterate _ => isTrue trivial

def step (machine : Machine) (functor : HashFunctor α) :
    Option (HashTbl α) → Operation α → Option (Option (HashTbl α))
  | none, _ => none
  | some table, operation =>
      if operation.Possible table then
        some ((table.call machine functor operation).map Prod.snd)
      else
        none

def HashTbl.live (table : HashTbl α) : List α :=
  table.bucket.filterMap Slot.datum

/-- A multiset is what the live entries are: an insertion adds one, a removal
takes away the one in the bucket, a search finds an equal entry exactly if
there is one, and an iteration comes to every entry once. -/
def Does (functor : HashFunctor α) (table : HashTbl α) :
    Operation α → Response α → HashTbl α → Prop
  | .insert obj _, .inserted _, next => next.live.Perm (obj :: table.live)
  | .find key, .found idx, next =>
      next = table ∧
        ((∃ datum ∈ table.live, functor.orderCmp datum key = 0) ↔
          idx < table.numBuckets) ∧
        (idx < table.numBuckets → ∃ datum, table.slot idx = .used datum ∧
          functor.orderCmp datum key = 0)
  | .erase idx, .erased _, next =>
      table.live.Perm ((table.slot idx).datum.toList ++ next.live)
  | .extract idx, .extracted datum _, next =>
      datum = (table.slot idx).datum ∧ table.live.Perm (datum.toList ++ next.live)
  | .iterate choose, .visited data, next =>
      data = table.live.map some ∧
        next.live = table.live.filter fun datum =>
          choose (some datum) == .incr
  | _, _, _ => False

def Behaves (machine : Machine) (functor : HashFunctor α) :
    Option (HashTbl α) → Operation α → Prop
  | none, _ => False
  | some table, operation =>
      ∃ response next,
        table.call machine functor operation = some (response, next) ∧
          Does functor table operation response next

def Sound : Option (HashTbl α) → Prop
  | none => True
  | some table =>
      table.numEntries = table.live.length ∧
        Nat.Coprime table.numBuckets stride

end NativeClient.Container
