import Mathlib.Data.List.TakeWhile
import NativeClient.Library.Bytes
import NativeClient.Srpc.ImcBuffer

/-!
# Arguments and headers of remote procedure calls

An argument is a tag and the fields that the tag gives a meaning to.  The
functions that write and read the elements of a vector come from two macros,
one for scalars and one for arrays, and from separate code for handles and
strings.  `writeValue` and `readValue` are off for the templates of returns,
and `allocate` is off where returns are read into the caller's arguments.
-/

namespace NativeClient.Srpc

open NativeClient.Library

inductive BasicType where
  | bool
  | double
  | int
  | long
deriving DecidableEq

def BasicType.size : BasicType → Nat
  | .bool => 1
  | .double => 8
  | .int => 4
  | .long => 8

/-- The size of the field of the union.  `bval` is an `int`. -/
def BasicType.fieldSize : BasicType → Nat
  | .bool => 4
  | .double => 8
  | .int => 4
  | .long => 8

inductive ArrayType where
  | char
  | double
  | int
  | long
deriving DecidableEq

def ArrayType.size : ArrayType → Nat
  | .char => 1
  | .double => 8
  | .int => 4
  | .long => 8

inductive ArgType where
  | basic (type : BasicType)
  | array (type : ArrayType)
  | handle
  | string
deriving DecidableEq

def ArgType.tag : ArgType → UInt8
  | .basic .bool => 'b'.toUInt8
  | .array .char => 'C'.toUInt8
  | .basic .double => 'd'.toUInt8
  | .array .double => 'D'.toUInt8
  | .handle => 'h'.toUInt8
  | .basic .int => 'i'.toUInt8
  | .array .int => 'I'.toUInt8
  | .basic .long => 'l'.toUInt8
  | .array .long => 'L'.toUInt8
  | .string => 's'.toUInt8

def argTypes : List ArgType :=
  [.basic .bool, .array .char, .basic .double, .array .double, .handle,
    .basic .int, .array .int, .basic .long, .array .long, .string]

/-- `none` is the interface of invalid types, among them objects and arrays of
variants. -/
def argsGetEltInterface (tag : UInt8) : Option ArgType :=
  argTypes.find? fun type => type.tag == tag

theorem argsGetEltInterface_tag (type : ArgType) :
    argsGetEltInterface type.tag = some type := by
  cases type with
  | basic type => cases type <;> decide
  | array type => cases type <;> decide
  | handle => decide
  | string => decide

abbrev Field (size : Nat) := Fin (256 ^ size)

/-- The elements of an array: `u.count` is their number. -/
structure Elements (type : ArrayType) where
  list : List (Field type.size)
  length_lt : list.length < 2 ^ 32
deriving DecidableEq

structure CString where
  chars : List UInt8
  no_nul : 0 ∉ chars
deriving DecidableEq

inductive Arg (δ : Type) where
  | basic (type : BasicType) (field : Field type.fieldSize)
  | array (type : ArrayType) (elements : Elements type)
  | handle (hval : δ)
  | string (str : Option CString)
  | other (tag : UInt8) (invalid : argsGetEltInterface tag = none)
deriving DecidableEq

variable {δ : Type}

def Arg.tag : Arg δ → UInt8
  | .basic type _ => (ArgType.basic type).tag
  | .array type _ => (ArgType.array type).tag
  | .handle _ => ArgType.handle.tag
  | .string _ => ArgType.string.tag
  | .other tag _ => tag

structure Platform (δ : Type) where
  /-- `SIZE_T_MAX`. -/
  sizeMax : Nat
  /-- `NACL_SRPC_IMC_INVALID_DESC`. -/
  invalidDesc : δ
  /-- The descriptor whose bytes are zero. -/
  zeroDesc : δ
  /-- The contents of a new block. -/
  malloc : Nat → Option (Nat → UInt8)
  /-- `sizeof(NaClSrpcArg)`. -/
  argSize : Nat

section Elements

def fieldOfBytes (size : Nat) (bytes : List UInt8) : Field size :=
  ⟨ofLittleEndian (bytes.take size),
    Nat.lt_of_lt_of_le (ofLittleEndian_lt _)
      (Nat.pow_le_pow_right (by decide) (List.length_take_le size bytes))⟩

def fieldsOfBytes (size : Nat) : Nat → List UInt8 → List (Field size)
  | 0, _ => []
  | count + 1, bytes =>
      fieldOfBytes size bytes :: fieldsOfBytes size count (bytes.drop size)

def bytesOfFields {size : Nat} (fields : List (Field size)) : List UInt8 :=
  fields.flatMap fun field => littleEndian size field.val

def overwriteField {size : Nat} (field : Field size) (bytes : List UInt8) :
    Field size :=
  Fin.ofNat _
    (field / 256 ^ bytes.length * 256 ^ bytes.length + ofLittleEndian bytes)

def Elements.overwrite {type : ArrayType} (elements : Elements type)
    (count : Nat) (bytes : List UInt8) : Elements type where
  list := (fieldsOfBytes type.size count bytes ++ elements.list.drop count).take
    elements.list.length
  length_lt := Nat.lt_of_le_of_lt (List.length_take_le _ _) elements.length_lt

/-- An array of `count` elements in a new block. -/
def freshElements (platform : Platform δ) (type : ArrayType) (count : Fin (2 ^ 32)) :
    Option (Elements type) :=
  (platform.malloc (count * type.size)).map fun contents =>
    { list := List.ofFn fun index : Fin count =>
        fieldOfBytes type.size
          ((List.range type.size).map fun offset =>
            contents (index * type.size + offset))
      length_lt := by rw [List.length_ofFn]; exact count.isLt }

def cString (bytes : List UInt8) : CString where
  chars := bytes.takeWhile fun byte => byte != 0
  no_nul := by
    intro nul
    exact absurd (List.mem_takeWhile_imp nul) (by decide)

end Elements

section Get

variable (platform : Platform δ)

def getCount (buffer : Datagram δ) : Option (Fin (2 ^ 32) × Datagram δ) :=
  (getElements 4 1 buffer).map fun (bytes, rest) =>
    (Fin.ofNat _ (ofLittleEndian bytes), rest)

def basicGet (type : BasicType) (readValue : Bool)
    (field : Field type.fieldSize) (buffer : Datagram δ) :
    Option (Field type.fieldSize × Datagram δ) :=
  if readValue then
    (getElements type.size 1 buffer).map fun (bytes, rest) =>
      (overwriteField field bytes, rest)
  else some (field, buffer)

def arrayTarget (type : ArrayType) (allocate : Bool) (elements : Elements type)
    (dim : Fin (2 ^ 32)) : Option (Elements type) :=
  if allocate then
    if abiSizeMax / type.size ≤ dim then none
    else freshElements platform type dim
  else if elements.list.length < dim then none
  else some elements

def arrGet (type : ArrayType) (allocate readValue : Bool)
    (elements : Elements type) (buffer : Datagram δ) :
    Option (Elements type × Datagram δ) := do
  let (dim, rest) ← getCount buffer
  let target ← arrayTarget platform type allocate elements dim
  if readValue then
    let (bytes, rest) ← getElements type.size dim rest
    return (target.overwrite dim bytes, rest)
  else
    return (target, rest)

def handleGet (readValue : Bool) (hval : δ) (buffer : Datagram δ) :
    δ × Datagram δ :=
  if readValue then imcReadDesc platform.invalidDesc buffer else (hval, buffer)

def stringGet (readValue : Bool) (str : Option CString) (buffer : Datagram δ) :
    Option (Option CString × Datagram δ) :=
  if readValue then do
    let (dim, rest) ← getCount buffer
    if abiSizeMax ≤ dim then none
    else
      let _ ← platform.malloc (dim + 1)
      let (bytes, rest) ← getElements 1 dim rest
      return (some (cString bytes), rest)
  else some (str, buffer)

/-- The `get` of the interface of the element. -/
def argGet (allocate readValue : Bool) (arg : Arg δ) (buffer : Datagram δ) :
    Option (Arg δ × Datagram δ) :=
  match arg with
  | .basic type field =>
      (basicGet type readValue field buffer).map fun (field, rest) =>
        (.basic type field, rest)
  | .array type elements =>
      (arrGet platform type allocate readValue elements buffer).map
        fun (elements, rest) => (.array type elements, rest)
  | .handle hval =>
      let (hval, rest) := handleGet platform readValue hval buffer
      some (.handle hval, rest)
  | .string str =>
      (stringGet platform readValue str buffer).map fun (str, rest) =>
        (.string str, rest)
  | .other _ _ => none

def maxArgs : Nat := 128

def declaredTags : Nat → List UInt8 → Option (List UInt8)
  | 0, [] => some []
  | 0, type :: _ => if type = ':'.toUInt8 then some [] else none
  | _ + 1, [] => none
  | length + 1, type :: types =>
      if type = ':'.toUInt8 then none
      else (declaredTags length types).map (type :: ·)

def zeroedArg (tag : UInt8) : Arg δ :=
  match interface : argsGetEltInterface tag with
  | some (.basic type) => .basic type ⟨0, Nat.pow_pos (by decide)⟩
  | some (.array type) => .array type ⟨[], Nat.two_pow_pos 32⟩
  | some .handle => .handle platform.zeroDesc
  | some .string => .string none
  | none => .other tag interface

def argsTarget (allocateArgs : Bool) (length : Nat) (argvec : List (Arg δ))
    (argTypes : List UInt8) : Option (List (Arg δ)) :=
  if allocateArgs ∧ 0 < length then do
    let _ ← platform.malloc (length * platform.argSize)
    let tags ← declaredTags length argTypes
    return tags.map (zeroedArg platform)
  else if length = argTypes.length then some argvec
  else none

/-- The loop of `ArgsGet`.  The elements are next to each other in memory. -/
def getArgs (allocateArgs readValues : Bool) :
    Nat → List (Arg δ) → Datagram δ → Option (List (Arg δ) × Datagram δ)
  | 0, _, buffer => some ([], buffer)
  | _ + 1, [], _ => none
  | length + 1, arg :: args, buffer => do
      let (readType, rest) ← getElements 1 1 buffer
      if readType = [arg.tag] then
        let (arg, rest) ← argGet platform allocateArgs readValues arg rest
        let (args, rest) ← getArgs allocateArgs readValues length args rest
        return (arg :: args, rest)
      else none

def argsGet (allocateArgs readValues : Bool) (argvec : List (Arg δ))
    (argTypes : List UInt8) (buffer : Datagram δ) :
    Option (List (Arg δ) × Datagram δ) := do
  let (length, rest) ← getCount buffer
  if maxArgs ≤ length then none
  else
    let args ← argsTarget platform allocateArgs length argvec argTypes
    getArgs platform allocateArgs readValues length args rest

end Get

section Put

variable (sizeMax : Nat)

def basicPut (type : BasicType) (writeValue : Bool)
    (field : Field type.fieldSize) : Put δ :=
  if writeValue then
    putElements sizeMax ((littleEndian type.fieldSize field).take type.size)
      type.size 1
  else .succeed

def arrPut (type : ArrayType) (writeValue : Bool) (elements : Elements type) :
    Put δ :=
  (putElements sizeMax (littleEndian 4 elements.list.length) 4 1).andThen
    (if writeValue then
      putElements sizeMax (bytesOfFields elements.list) type.size
        elements.list.length
    else .succeed)

def handlePut (writeValue : Bool) (hval : δ) : Put δ :=
  if writeValue then imcWriteDesc hval else .succeed

def stringPut (writeValue : Bool) (str : CString) : Put δ :=
  if writeValue then
    (putElements sizeMax (littleEndian 4 (str.chars.length % 2 ^ 32)) 4 1).andThen
      (putElements sizeMax str.chars 1 (str.chars.length % 2 ^ 32))
  else .succeed

/-- The `put` of the interface of the element.  A null pointer has no length,
so there is nothing to model for it. -/
def argPut (writeValue : Bool) : Arg δ → Put δ
  | .basic type field => basicPut sizeMax type writeValue field
  | .array type elements => arrPut sizeMax type writeValue elements
  | .handle hval => handlePut writeValue hval
  | .string (some str) => stringPut sizeMax writeValue str
  | .string none => if writeValue then .fail else .succeed
  | .other _ _ => .fail

def putArgs (writeValue : Bool) : List (Arg δ) → Put δ
  | [] => .succeed
  | arg :: args =>
      ((putElements sizeMax [arg.tag] 1 1).andThen
        (argPut sizeMax writeValue arg)).andThen (putArgs writeValue args)

def argsPut (writeValue : Bool) (args : List (Arg δ)) : Put δ :=
  if maxArgs ≤ args.length then .fail
  else
    (putElements sizeMax (littleEndian 4 args.length) 4 1).andThen
      (putArgs sizeMax writeValue args)

end Put

structure Rpc where
  protocolVersion : UInt32
  requestId : UInt64
  isRequest : UInt8
  rpcNumber : UInt32
  result : UInt32
deriving DecidableEq

def resultOk : UInt32 := 256

def rpcWrite (sizeMax : Nat) (rpc : Rpc) : Put δ :=
  (putElements sizeMax (littleEndian 4 rpc.protocolVersion.toNat) 4 1).andThen <|
  (putElements sizeMax (littleEndian 8 rpc.requestId.toNat) 8 1).andThen <|
  (putElements sizeMax [rpc.isRequest] 1 1).andThen <|
  (putElements sizeMax (littleEndian 4 rpc.rpcNumber.toNat) 4 1).andThen <|
    if rpc.isRequest = 0 then
      putElements sizeMax (littleEndian 4 rpc.result.toNat) 4 1
    else .succeed

def rpcGet (buffer : Datagram δ) : Option (Rpc × Datagram δ) := do
  let (protocol, rest) ← getElements 4 1 buffer
  let (requestId, rest) ← getElements 8 1 rest
  let (isRequest, rest) ← getElements 1 1 rest
  let (rpcNumber, rest) ← getElements 4 1 rest
  let rpc : Rpc :=
    { protocolVersion := .ofNat (ofLittleEndian protocol)
      requestId := .ofNat (ofLittleEndian requestId)
      isRequest := .ofNat (ofLittleEndian isRequest)
      rpcNumber := .ofNat (ofLittleEndian rpcNumber)
      result := resultOk }
  if rpc.isRequest = 0 then
    let (result, rest) ← getElements 4 1 rest
    return ({ rpc with result := .ofNat (ofLittleEndian result) }, rest)
  else
    return (rpc, rest)

def requestPut (sizeMax : Nat) (rpc : Rpc) (args rets : List (Arg δ)) : Put δ :=
  ((rpcWrite sizeMax { rpc with isRequest := 1, result := resultOk }).andThen
    (argsPut sizeMax true args)).andThen
      (argsPut sizeMax false rets)

def responsePut (sizeMax : Nat) (rpc : Rpc) (rets : List (Arg δ)) : Put δ :=
  (rpcWrite sizeMax { rpc with isRequest := 0 }).andThen
    (argsPut sizeMax true rets)

def requestGet (platform : Platform δ) (argTypes retTypes : List UInt8)
    (buffer : Datagram δ) : Option (List (Arg δ) × List (Arg δ)) := do
  let (args, rest) ← argsGet platform true true [] argTypes buffer
  let (rets, _) ← argsGet platform true false [] retTypes rest
  return (args, rets)

def responseGet (platform : Platform δ) (result : UInt32) (retTypes : List UInt8)
    (rets : List (Arg δ)) (buffer : Datagram δ) : Option (List (Arg δ)) :=
  if result ≠ resultOk then some rets
  else (argsGet platform false true rets retTypes buffer).map Prod.fst

end NativeClient.Srpc
