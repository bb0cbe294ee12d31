import NativeClient.Library.Holding

/-!
# Variants on the wire

The PPAPI proxy and the NPAPI bridge send their variants in one format: a type
and a value of eight bytes together, behind which a double, the two words of a
capability, or the bytes of a string follow, a string filled up to a multiple
of eight bytes.  They differ in which bytes they write, in the checks of a
string, and in the memory that they allocate for its copy.
-/

namespace NativeClient.Variants

open NativeClient.Library

/-- A `PP_Var` or `NPVariant`.  An object is given by the two words of the
capability that is sent for it, a number by its bits. -/
inductive Value where
  | undefined
  | null
  | boolean (value : Bool)
  | int32 (bits : Fin (2 ^ 32))
  | double (bits : Fin (2 ^ 64))
  | string (bytes : List UInt8)
  | object (first second : Fin (2 ^ 64))
deriving DecidableEq

def Value.type : Value → Nat
  | undefined => 0
  | null => 1
  | boolean _ => 2
  | int32 _ => 3
  | double _ => 4
  | string _ => 5
  | object _ _ => 6

def uint32Max : Nat := 2 ^ 32 - 1

/-- `sizeof(SerializedFixed)`, `sizeof(SerializedDouble)` and
`sizeof(SerializedObject)`. -/
def fixedSize : Nat := 8

def doubleSize : Nat := 16

def objectSize : Nat := 24

def addWouldOverflow (value1 value2 : Nat) : Bool :=
  decide (uint32Max - value2 < value1)

def roundUp (length : Nat) : Nat := (length + 7) / 8 * 8

def roundedStringBytes (stringLength : Nat) : Nat :=
  if uint32Max - 8 < stringLength then uint32Max else roundUp stringLength

section Sizes

/-- `PpVarSize` and `NPVariantSize`; zero is an error. -/
def valueSize : Value → Nat
  | .double _ => doubleSize
  | .string bytes =>
      let stringLength := roundedStringBytes bytes.length
      if uint32Max = stringLength ∨ addWouldOverflow stringLength fixedSize then 0
      else fixedSize + stringLength
  | .object _ _ => objectSize
  | _ => fixedSize

/-- `PpVarVectorSize` and `NPVariantVectorSize`, with the size so far. -/
def vectorSize (size : Nat) : List Value → Nat
  | [] => size
  | value :: values =>
      let elementSize := valueSize value
      if elementSize = 0 ∨ addWouldOverflow size elementSize then 0
      else vectorSize (size + elementSize) values

def ppVarVectorSize (vars : List Value) : Nat := vectorSize 0 vars

def npVariantVectorSize (variants : List Value) : Nat := vectorSize 0 variants

end Sizes

section Write

/-- What is stored behind the type of a value at `p`.  The proxy fills up strings
with zeros. -/
def valueStores (clears : Bool) (p : Nat) : Value → List Store
  | .undefined => []
  | .null => []
  | .boolean value => [⟨p + 4, [if value then 1 else 0]⟩]
  | .int32 bits => [⟨p + 4, littleEndian 4 bits⟩]
  | .double bits => [⟨p + 8, littleEndian 8 bits⟩]
  | .string bytes =>
      ⟨p + 4, littleEndian 4 bytes.length⟩ :: ⟨p + 8, bytes⟩ ::
        if clears then
          [⟨p + 8 + bytes.length, List.replicate
            (roundedStringBytes bytes.length - bytes.length) 0⟩]
        else []
  | .object first second =>
      [⟨p + 8, littleEndian 8 first⟩, ⟨p + 16, littleEndian 8 second⟩]

/-- What is stored for a value.  The proxy clears it first, the bridge leaves the
bytes that it does not need as they are. -/
def elementStores (clears : Bool) (p : Nat) (value : Value) : List Store :=
  ⟨p, littleEndian 4 value.type⟩ ::
    ((if clears then [⟨p + 4, littleEndian 4 0⟩] else []) ++
      valueStores clears p value)

def writtenSize : Value → Nat
  | .double _ => doubleSize
  | .string bytes => fixedSize + roundedStringBytes bytes.length
  | .object _ _ => objectSize
  | _ => fixedSize

def serializeValues (clears : Bool) (length : Nat) (offset : Nat) :
    List Value → Option (List Store)
  | [] => some []
  | value :: values =>
      if length ≤ offset then none
      else
        let elementSize := valueSize value
        if elementSize = 0 ∨ addWouldOverflow offset elementSize then none
        else
          (serializeValues clears length (offset + writtenSize value) values).map
            fun rest => elementStores clears offset value ++ rest

/-- The stores to the buffer and the value of `*length` afterwards.  That no
buffer is returned for no values is not an error: the length is zero.  `memory`
tells whether the buffer could be allocated. -/
def toWireFormat (clears memory : Bool) (values : List Value) (length : Nat) :
    Option (List Store × Nat) :=
  if values = [] then some ([], 0)
  else
    let tmpLength := vectorSize 0 values
    if tmpLength = 0 ∨ length < tmpLength then none
    else if ¬memory then none
    else
      (serializeValues clears tmpLength 0 values).map fun stores =>
        (stores, tmpLength)

/-- `Serialize` of the PPAPI proxy. -/
def serialize (memory : Bool) (vars : List Value) (length : Nat) :
    Option (List Store × Nat) :=
  toWireFormat true memory vars length

def npVariantsToWireFormat (memory : Bool) (variants : List Value)
    (length : Nat) : Option (List Store × Nat) :=
  toWireFormat false memory variants length

end Write

section Read

/-- How the two readers differ: how they round, what they add to a string for
the last check, how much they allocate for a copy (from the length of the
message and that of the string), and what they make of a string and of a
capability. -/
structure Format where
  round : Nat → Nat
  reserve : Nat
  copySize : Nat → Nat → Nat
  makeString : List UInt8 → Value
  makeObject : Fin (2 ^ 64) → Fin (2 ^ 64) → Value

/-- `varFromUtf8` and `newProxy` are those of the browser. -/
def ppVarFormat (varFromUtf8 : List UInt8 → Value)
    (newProxy : Fin (2 ^ 64) → Fin (2 ^ 64) → Value) : Format where
  round := roundedStringBytes
  reserve := fixedSize
  copySize := fun _ stringLength => stringLength + 1
  makeString := varFromUtf8
  makeObject := newProxy

/-- The reserve is `sizeof(SerializedString)`, and the copy is as long as the
message, in 32 bits. -/
def npVariantFormat (createProxy : Fin (2 ^ 64) → Fin (2 ^ 64) → Value) :
    Format where
  round := roundUp
  reserve := 16
  copySize := fun length _ => (length + 1) % 2 ^ 32
  makeString := .string
  makeObject := createProxy

/-- What is done with one value: its size if the reader goes on, how far it is
read, and what was allocated and copied. -/
structure Element where
  value : Option (Value × Nat)
  span : Nat
  copies : List (Nat × Nat)

variable (format : Format) (memory : Nat → Bool) (buffer : Buffer) (length : Nat)

/-- The string at `p`.  `memory` tells whether its copy can be allocated. -/
def readString (p : Nat) : Element :=
  let stringLength := numberAt buffer (p + 4) 4
  if addWouldOverflow stringLength 7 then ⟨none, 8, []⟩
  else
    let roundedLength := format.round stringLength
    let value := fun bytes : List UInt8 =>
      if addWouldOverflow roundedLength format.reserve then none
      else some (format.makeString bytes, fixedSize + roundedLength)
    if stringLength = 0 then ⟨value [], 8, []⟩
    else if ¬memory p then ⟨none, 8, []⟩
    else
      ⟨value (bytesAt buffer (p + 8) stringLength), 8 + stringLength,
        [(format.copySize length stringLength, stringLength)]⟩

def uint64At (start : Nat) : Fin (2 ^ 64) :=
  Fin.ofNat _ (numberAt buffer start 8)

def readElement (p : Nat) : Element :=
  let type := numberAt buffer p 4
  if type = 0 then ⟨some (.undefined, fixedSize), 4, []⟩
  else if type = 1 then ⟨some (.null, fixedSize), 4, []⟩
  else if type = 2 then
    ⟨some (.boolean (decide (buffer (p + 4) ≠ 0)), fixedSize), 5, []⟩
  else if type = 3 then
    ⟨some (.int32 (Fin.ofNat _ (numberAt buffer (p + 4) 4)), fixedSize), 8, []⟩
  else if type = 4 then
    ⟨some (.double (uint64At buffer (p + 8)), doubleSize), 16, []⟩
  else if type = 5 then readString format memory buffer length p
  else if type = 6 then
    ⟨some (format.makeObject (uint64At buffer (p + 8)) (uint64At buffer (p + 16)),
      objectSize), 24, []⟩
  else ⟨none, 4, []⟩

structure Decoded where
  ok : Bool
  values : List Value
  readEnd : Nat
  copies : List (Nat × Nat)

/-- The loop of `DeserializePpVar` and `DeserializeNPVariant`. -/
def deserializeValues : Nat → Nat → Nat → Decoded
  | 0, _, readEnd => ⟨true, [], readEnd, []⟩
  | argc + 1, p, readEnd =>
      if length ≤ p then ⟨false, [], readEnd, []⟩
      else
        let element := readElement format memory buffer length p
        let readEnd := max readEnd (p + element.span)
        match element.value with
        | none => ⟨false, [], readEnd, element.copies⟩
        | some (value, size) =>
            let rest := deserializeValues argc (p + size) readEnd
            { rest with
              values := value :: rest.values
              copies := element.copies ++ rest.copies }

def fromWireFormat (argc : Nat) : Decoded :=
  if argc = 0 then ⟨true, [], 0, []⟩
  else if length = 0 then ⟨false, [], 0, []⟩
  else deserializeValues format memory buffer length argc 0 0

end Read

def deserializeTo (varFromUtf8 : List UInt8 → Value)
    (newProxy : Fin (2 ^ 64) → Fin (2 ^ 64) → Value) (memory : Nat → Bool)
    (bytes : Buffer) (length argc : Nat) : Decoded :=
  fromWireFormat (ppVarFormat varFromUtf8 newProxy) memory bytes length argc

def wireFormatToNpVariants
    (createProxy : Fin (2 ^ 64) → Fin (2 ^ 64) → Value) (memory : Nat → Bool)
    (bytes : Buffer) (length argc : Nat) : Decoded :=
  fromWireFormat (npVariantFormat createProxy) memory bytes length argc

/-! ## Strings outside a variant -/

/-- `*length` is the room that the caller has; `memory` tells whether a buffer
can be allocated. -/
def npStringToWireFormat (memory : Bool) (string : List UInt8) (length : Nat) :
    Option (List Store × Nat) :=
  if addWouldOverflow string.length 4 ∨ length < string.length + 4 then none
  else if ¬memory then none
  else
    some ([⟨0, littleEndian 4 string.length⟩, ⟨4, string⟩], 4 + string.length)

structure DecodedString where
  string : Option (List UInt8)
  readEnd : Nat
  copies : List (Nat × Nat)

/-- `sizeMax` is `SIZE_T_MAX`, and `memory` tells whether that many bytes can be
allocated. -/
def wireFormatToNpString (sizeMax : Nat) (memory : Nat → Bool) (bytes : Buffer)
    (length : Nat) : DecodedString :=
  let strLength := numberAt bytes 0 4
  if length < (strLength + 4) % (sizeMax + 1) then ⟨none, 4, []⟩
  else if ¬memory strLength then ⟨none, 4, []⟩
  else ⟨some (bytesAt bytes 4 strLength), 4 + strLength, [(strLength, strLength)]⟩

theorem npString_round_trip
    {string : List UInt8} {length : Nat} (room : string.length + 4 ≤ length)
    (fits : length ≤ uint32Max) {sizeMax : Nat} (size : uint32Max ≤ sizeMax)
    {memory : Nat → Bool} (allocated : memory string.length) (initial : Buffer) :
    ∃ stores, npStringToWireFormat true string length =
        some (stores, 4 + string.length) ∧
      (wireFormatToNpString sizeMax memory (applyStores stores initial)
        (4 + string.length)).string = some string := by
  refine ⟨[⟨0, littleEndian 4 string.length⟩, ⟨4, string⟩], ?_, ?_⟩
  · rw [npStringToWireFormat, if_neg, if_neg nofun]
    rintro (overflow | short)
    · unfold addWouldOverflow at overflow
      rw [decide_eq_true_eq] at overflow
      omega
    · omega
  · have first : Holds (applyStores
        [⟨0, littleEndian 4 string.length⟩, ⟨4, string⟩] initial) 0
        (littleEndian 4 string.length) := by
      refine @holds_applyStores [] _ ⟨0, littleEndian 4 string.length⟩ ?_ initial
      intro later member
      left
      rw [List.mem_singleton.mp member, length_littleEndian]
    have second : Holds (applyStores
        [⟨0, littleEndian 4 string.length⟩, ⟨4, string⟩] initial) 4 string :=
      @holds_applyStores [_] [] ⟨4, string⟩ nofun initial
    have count := numberAt_of_holds
      (show string.length < 256 ^ 4 by unfold uint32Max at fits; omega) first
    rw [wireFormatToNpString, count, Nat.mod_eq_of_lt (by omega),
      if_neg (by omega), if_neg (not_not.mpr allocated)]
    exact congrArg some second

end NativeClient.Variants
