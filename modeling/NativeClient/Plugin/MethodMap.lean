import Mathlib.Data.List.Basic
import Mathlib.Data.List.Count
import Mathlib.Data.List.Nodup
import Mathlib.Logic.Function.Basic

/-!
# Parameters of calls

`SrpcParams` holds two vectors of pointers to arguments.  `none` is undefined
behaviour: a slot that is read before it is set, a slot outside of a vector, an
argument that is read after its memory was freed.
-/

namespace NativeClient.Plugin

def naClSrpcMaxArgs : Nat := 128

/-- The blocks of the vectors of arguments, of the arrays, strings and nested
vectors that arguments are filled with, and of `exception_string_`. -/
inductive Block where
  | insVector
  | outsVector
  | value (number : Nat)
  | exceptionString
deriving DecidableEq

/-- A `NaClSrpcArg`.  `elements` is what `varr` points to in a variant array. -/
inductive NaClSrpcArg where
  | mk (tag : UInt8) (count : Nat) (arrays : Option Block)
      (elements : List NaClSrpcArg)

section Arguments

def variantArray : UInt8 := 'A'.toUInt8

def arrayTags : List UInt8 :=
  ['C'.toUInt8, 'D'.toUInt8, 'I'.toUInt8, 'L'.toUInt8, 's'.toUInt8]

def zeroArg (tag : UInt8) : NaClSrpcArg := .mk tag 0 none []

def initSrpcArgArray (size : Nat) (block : Option Block) : NaClSrpcArg :=
  match block with
  | none => .mk variantArray 0 none []
  | some block =>
      .mk variantArray size (some block) (List.replicate size (zeroArg 0))

mutual

def freeSrpcArg : NaClSrpcArg → Option (List Block)
  | .mk tag count arrays elements =>
      if tag ∈ arrayTags then some arrays.toList
      else if tag = variantArray then
        match arrays with
        | some _ => freeVariants count elements
        | none => some []
      else some []

def freeVariants : Nat → List NaClSrpcArg → Option (List Block)
  | 0, _ => some []
  | _ + 1, [] => none
  | count + 1, arg :: rest => do
      let here ← freeSrpcArg arg
      let later ← freeVariants count rest
      return here ++ later

end

mutual

def ownedBlocks : NaClSrpcArg → List Block
  | .mk tag _ arrays elements =>
      if tag ∈ arrayTags then arrays.toList
      else if tag = variantArray then
        arrays.toList ++ ownedByAll elements
      else []

def ownedByAll : List NaClSrpcArg → List Block
  | [] => []
  | arg :: rest => ownedBlocks arg ++ ownedByAll rest

end

mutual

/-- An argument that holds a value: the vector of a variant array has as many
elements as `u.count` says, and these hold values. -/
def HoldsValue : NaClSrpcArg → Prop
  | .mk tag count arrays elements =>
      (∀ block ∈ arrays, ∃ number, block = .value number) ∧
      (tag = variantArray → arrays = none → elements = []) ∧
      (tag = variantArray → arrays ≠ none → count = elements.length) ∧
      HoldValues elements

def HoldValues : List NaClSrpcArg → Prop
  | [] => True
  | arg :: rest => HoldsValue arg ∧ HoldValues rest

end

def HasVector : NaClSrpcArg → Prop
  | .mk tag _ arrays _ => tag = variantArray ∧ arrays ≠ none

end Arguments

/-- A pointer of `ins_` or `outs_`. -/
inductive Slot where
  | uninitialised
  | null
  | element (block : Block) (index : Nat)

structure Heap where
  vectors : Block → List NaClSrpcArg
  allocated : List Block
  freed : List Block

namespace Heap

def allocate (heap : Heap) (block : Block) (args : List NaClSrpcArg) : Heap :=
  { heap with
    vectors := Function.update heap.vectors block args
    allocated := heap.allocated ++ [block] }

def read (heap : Heap) (block : Block) (index : Nat) : Option NaClSrpcArg :=
  if block ∈ heap.freed then none else (heap.vectors block)[index]?

def free (heap : Heap) (blocks : List Block) : Heap :=
  { heap with freed := heap.freed ++ blocks }

end Heap

section Vectors

def setSlot (vec : List Slot) (index : Nat) (slot : Slot) :
    Option (List Slot) :=
  if index < vec.length then some (vec.set index slot) else none

/-- A vector and the memory after `FillVec`. -/
structure Fill where
  filled : Bool
  vec : List Slot
  heap : Heap

/-- `granted` tells which allocations succeed. -/
def fillVec (granted : Block → Bool) (block : Block) (vec : List Slot)
    (types : List UInt8) (heap : Heap) : Option Fill :=
  let kLength := types.length
  if kLength > naClSrpcMaxArgs then some ⟨false, vec, heap⟩
  else if kLength > 0 then
    if granted block then do
      let vec ← (List.range kLength).foldlM
        (fun vec i => setSlot vec i (.element block i)) vec
      let vec ← setSlot vec kLength .null
      return ⟨true, vec, heap.allocate block (types.map zeroArg)⟩
    else some ⟨false, vec, heap⟩
  else do
    let vec ← setSlot vec kLength .null
    return ⟨true, vec, heap⟩

def freeEach : List Slot → Heap → Option Heap
  | [], _ => none
  | .uninitialised :: _, _ => none
  | .null :: _, heap => some heap
  | .element block index :: rest, heap => do
      let arg ← heap.read block index
      let blocks ← freeSrpcArg arg
      freeEach rest (heap.free blocks)

def freeArguments (vec : List Slot) (heap : Heap) : Option Heap :=
  match vec[0]? with
  | some Slot.null => some heap
  | some (Slot.element block 0) => do
      let heap ← freeEach vec heap
      return heap.free [block]
  | _ => none

end Vectors

structure SrpcParams where
  ins : List Slot
  outs : List Slot
  exceptionString : Option Block
  heap : Heap

namespace SrpcParams

def slots (slot : Slot) : List Slot := List.replicate (naClSrpcMaxArgs + 1) slot

def emptyHeap : Heap := ⟨fun _ => [], [], []⟩

def init (granted : Block → Bool) (inTypes outTypes : List UInt8)
    (params : SrpcParams) : Option (Bool × SrpcParams) := do
  let ins ← fillVec granted .insVector params.ins inTypes params.heap
  let params := { params with ins := ins.vec, heap := ins.heap }
  if ins.filled then
    let outs ← fillVec granted .outsVector params.outs outTypes params.heap
    let params := { params with outs := outs.vec, heap := outs.heap }
    if outs.filled then return (true, params)
    else
      let heap ← freeArguments params.ins params.heap
      return (false, { params with heap := heap })
  else return (false, params)

def freeAll (params : SrpcParams) : Option SrpcParams := do
  let heap ← freeArguments params.ins params.heap
  let heap ← freeArguments params.outs heap
  return { params with ins := slots .null, outs := slots .null, heap := heap }

inductive Constructor where
  | default
  | typed
deriving DecidableEq

/-- One of the constructors, the first one followed by `Init`. -/
def construct (constructor : Constructor) (granted : Block → Bool)
    (inTypes outTypes : List UInt8) : Option (Bool × SrpcParams) :=
  match constructor with
  | .default =>
      init granted inTypes outTypes ⟨slots .null, slots .null, none, emptyHeap⟩
  | .typed => do
      let (done, params) ← init granted inTypes outTypes
        ⟨slots .uninitialised, slots .uninitialised, none, emptyHeap⟩
      if done then return (true, params)
      else
        let params ← freeAll params
        return (false, params)

structure Values where
  ins : List NaClSrpcArg
  outs : List NaClSrpcArg
  exception : Bool

def fill (params : SrpcParams) (values : Values) : SrpcParams :=
  { params with
    exceptionString := if values.exception then some .exceptionString else none
    heap :=
      { params.heap with
        vectors := Function.update
          (Function.update params.heap.vectors .insVector values.ins)
          .outsVector values.outs
        allocated := params.heap.allocated ++ (ownedByAll values.ins ++
          ownedByAll values.outs ++
          if values.exception then [.exceptionString] else []) } }

def destroy (params : SrpcParams) : Option SrpcParams := do
  let params ← freeAll params
  return { params with heap := params.heap.free params.exceptionString.toList }

def live (constructor : Constructor) (granted : Block → Bool)
    (inTypes outTypes : List UInt8) (values : Values) : Option SrpcParams := do
  let (done, params) ← construct constructor granted inTypes outTypes
  destroy (if done then params.fill values else params)

end SrpcParams

end NativeClient.Plugin
