import Mathlib.Logic.Function.Basic
import NativeClient.Srpc.Arguments

/-!
# The memory of argument vectors

`ArgsGet` again, with the memory that it allocates and releases and the slots of
`argvec` that it sets.  The elements of a vector are next to each other in one
block; arrays and strings have blocks of their own.  On an error `ArgsFree` walks
through `argvec` up to a null pointer.  `none` means that the code leaves
`argvec` or follows a null pointer.
-/

namespace NativeClient.Srpc

variable {δ : Type}

structure Address where
  block : Nat
  index : Nat
deriving DecidableEq

def Address.plus (address : Address) (offset : Nat) : Address :=
  { address with index := address.index + offset }

/-- A `NaClSrpcArg`: the argument, and the pointer of the union `arrays`. -/
structure ArgObject (δ : Type) where
  arg : Arg δ
  array : Option Address

/-- What is in memory, and what the call has done so far: the blocks that it
allocated, the pointers that it released, the slots of `argvec` that it set, and
those that it followed or cleared to clean up. -/
structure ArgsMemory (δ : Type) where
  objects : Address → ArgObject δ
  argvec : List (Option Address)
  next : Nat
  allocated : List Address
  released : List Address
  slotsSet : List Nat
  slotsUsed : List Nat

namespace ArgsMemory

def start (objects : Address → ArgObject δ) (argvec : List (Option Address))
    (next : Nat) : ArgsMemory δ :=
  ⟨objects, argvec, next, [], [], [], []⟩

def allocate (memory : ArgsMemory δ) : ArgsMemory δ :=
  { memory with
    next := memory.next + 1
    allocated := memory.allocated ++ [⟨memory.next, 0⟩] }

def release (memory : ArgsMemory δ) (pointer : Option Address) : ArgsMemory δ :=
  { memory with released := memory.released ++ pointer.toList }

def store (memory : ArgsMemory δ) (address : Address) (object : ArgObject δ) :
    ArgsMemory δ :=
  { memory with objects := Function.update memory.objects address object }

def setSlot (memory : ArgsMemory δ) (slot : Nat) (pointer : Option Address) :
    ArgsMemory δ :=
  { memory with
    argvec := memory.argvec.set slot pointer
    slotsSet := memory.slotsSet ++ [slot] }

def useSlot (memory : ArgsMemory δ) (slot : Nat) : ArgsMemory δ :=
  { memory with slotsUsed := memory.slotsUsed ++ [slot] }

end ArgsMemory

section Get

variable (platform : Platform δ)

/-- What the `get` of an element leaves behind; `allocated` tells whether it
allocated the block that it was offered. -/
structure ObjectRead (δ : Type) where
  done : Bool
  object : ArgObject δ
  buffer : Datagram δ
  allocated : Bool

/-- The `get` of an array.  The pointer is set before the elements are read. -/
def arrGetObject (type : ArrayType) (allocate readValue : Bool) (block : Address)
    (elements : Elements type) (array : Option Address) (buffer : Datagram δ) :
    ObjectRead δ :=
  match getCount buffer with
  | none => ⟨false, ⟨.array type elements, array⟩, buffer, false⟩
  | some (dim, rest) =>
      match arrayTarget platform type allocate elements dim with
      | none =>
          let tooLarge : Bool := abiSizeMax / type.size ≤ dim
          ⟨false, ⟨.array type elements,
            if allocate && !tooLarge then none else array⟩, rest, false⟩
      | some target =>
          let array := if allocate then some block else array
          if readValue then
            match getElements type.size dim rest with
            | none => ⟨false, ⟨.array type target, array⟩, rest, allocate⟩
            | some (bytes, rest) =>
                ⟨true, ⟨.array type (target.overwrite dim bytes), array⟩, rest,
                  allocate⟩
          else
            ⟨true, ⟨.array type target, array⟩, rest, allocate⟩

/-- The `get` of a string, which allocates in any case. -/
def stringGetObject (readValue : Bool) (block : Address) (str : Option CString)
    (array : Option Address) (buffer : Datagram δ) : ObjectRead δ :=
  if readValue then
    match getCount buffer with
    | none => ⟨false, ⟨.string str, array⟩, buffer, false⟩
    | some (dim, rest) =>
        if abiSizeMax ≤ dim then
          ⟨false, ⟨.string str, array⟩, rest, false⟩
        else
          match platform.malloc (dim + 1) with
          | none => ⟨false, ⟨.string none, none⟩, rest, false⟩
          | some contents =>
              match getElements 1 dim rest with
              | none =>
                  -- What `malloc` left in the block is the string.
                  ⟨false, ⟨.string (some (cString
                    ((List.range (dim + 1)).map contents))), some block⟩, rest, true⟩
              | some (bytes, rest) =>
                  ⟨true, ⟨.string (some (cString bytes)), some block⟩, rest, true⟩
  else
    ⟨true, ⟨.string str, array⟩, buffer, false⟩

/-- The `get` of the interface of the element. -/
def argGetObject (allocate readValue : Bool) (block : Address)
    (object : ArgObject δ) (buffer : Datagram δ) : ObjectRead δ :=
  match object.arg with
  | .basic type field =>
      match basicGet type readValue field buffer with
      | none => ⟨false, object, buffer, false⟩
      | some (field, rest) => ⟨true, ⟨.basic type field, object.array⟩, rest, false⟩
  | .array type elements =>
      arrGetObject platform type allocate readValue block elements object.array buffer
  | .handle hval =>
      let (hval, rest) := handleGet platform readValue hval buffer
      ⟨true, ⟨.handle hval, object.array⟩, rest, false⟩
  | .string str =>
      stringGetObject platform readValue block str object.array buffer
  | .other _ _ => ⟨false, object, buffer, false⟩

/-- The memory behind the `get` of an element. -/
def ArgsMemory.afterGet (memory : ArgsMemory δ) (address : Address)
    (read : ObjectRead δ) : ArgsMemory δ :=
  let memory := if read.allocated then memory.allocate else memory
  memory.store address read.object

/-- The loop of `ArgsGet`, from an index on. -/
def getArgObjects (allocateArgs readValues : Bool) (args : Address) :
    Nat → Nat → Datagram δ → ArgsMemory δ → Bool × Datagram δ × ArgsMemory δ
  | 0, _, buffer, memory => (true, buffer, memory)
  | left + 1, index, buffer, memory =>
      match getElements 1 1 buffer with
      | none => (false, buffer, memory)
      | some (readType, rest) =>
          let address := args.plus index
          let object := memory.objects address
          if readType = [object.arg.tag] then
            let memory := memory.setSlot index (some address)
            let read := argGetObject platform allocateArgs readValues
              ⟨memory.next, 0⟩ object rest
            let memory := memory.afterGet address read
            if read.done then
              getArgObjects allocateArgs readValues args left (index + 1) read.buffer
                memory
            else
              (false, read.buffer, memory)
          else
            (false, rest, memory)

/-- The pointer that the `free` of the interface of the element releases. -/
def ArgObject.owned (object : ArgObject δ) : Option Address :=
  match argsGetEltInterface object.arg.tag with
  | some (.array _) => object.array
  | some .string => object.array
  | _ => none

/-- The `free` of the interface of the element. -/
def ArgsMemory.freeElement (memory : ArgsMemory δ) (address : Address) :
    ArgsMemory δ :=
  let object := memory.objects address
  match argsGetEltInterface object.arg.tag with
  | some (.array _) | some .string =>
      (memory.release object.array).store address { object with array := none }
  | _ => memory

/-- The first loop of `ArgsFree`, from a slot on. -/
def argsFreeElements :
    List (Option Address) → Nat → ArgsMemory δ → Option (ArgsMemory δ)
  | [], _, _ => none
  | none :: _, _, memory => some memory
  | some address :: slots, slot, memory =>
      argsFreeElements slots (slot + 1) ((memory.useSlot slot).freeElement address)

/-- The second loop of `ArgsFree`. -/
def clearSlots : List (Option Address) → List (Option Address)
  | [] => []
  | none :: slots => none :: slots
  | some _ :: slots => none :: clearSlots slots

def argsFree (memory : ArgsMemory δ) : Option (ArgsMemory δ) := do
  let freed ← argsFreeElements memory.argvec 0 memory
  let freed := freed.release memory.argvec.head?.join
  some { freed with argvec := clearSlots memory.argvec }

/-- The end of `ArgsGet`, with a vector to read into. -/
def argsGetInto (allocateArgs readValues : Bool) (args : Address) (length : Nat)
    (buffer : Datagram δ) (memory : ArgsMemory δ) :
    Option (Bool × Datagram δ × ArgsMemory δ) :=
  let (done, rest, memory) :=
    getArgObjects platform allocateArgs readValues args length 0 buffer memory
  if done then
    some (true, rest, memory.setSlot length none)
  else do
    let memory ← argsFree memory
    some (false, rest, memory)

def ArgsMemory.storeTags (memory : ArgsMemory δ) (args : Address)
    (tags : List UInt8) : ArgsMemory δ :=
  { memory with
    objects := fun address =>
      if address.block = args.block ∧ address.index < tags.length then
        ⟨zeroedArg platform (tags.getD address.index 0), none⟩
      else
        memory.objects address }

/-- `ArgsGet`. -/
def argsGetMemory (allocateArgs readValues : Bool) (argTypes : List UInt8)
    (buffer : Datagram δ) (memory : ArgsMemory δ) :
    Option (Bool × Datagram δ × ArgsMemory δ) :=
  match getCount buffer with
  | none => some (false, buffer, memory)
  | some (length, rest) =>
      if maxArgs ≤ length then
        some (false, rest, memory)
      else if allocateArgs ∧ 0 < length.val then
        match platform.malloc (length * platform.argSize) with
        | none => some (false, rest, memory)
        | some _ =>
            let args : Address := ⟨memory.next, 0⟩
            let memory := memory.allocate
            match declaredTags length argTypes with
            | none => some (false, rest, memory)
            | some tags =>
                argsGetInto platform allocateArgs readValues args length rest
                  (memory.storeTags platform args tags)
      else if length.val = argTypes.length then
        match memory.argvec.head?.join with
        | some args =>
            argsGetInto platform allocateArgs readValues args length rest memory
        | none =>
            if length.val = 0 then
              some (true, rest, memory.setSlot 0 none)
            else
              -- The tag is read first, then the element at the null pointer.
              match getElements 1 1 rest with
              | none => some (false, rest, memory)
              | some _ => none
      else
        some (false, rest, memory)

end Get

end NativeClient.Srpc
