import NativeClient.Library.Bytes
import NativeClient.Library.LittleEndian
import NativeClient.Library.Loop

/-!
# Packets of the remote debugging protocol

A packet is a growing vector of characters with a place to read and a place to
write.  Numbers and blocks are written in hexadecimal.  The reader expands
runs `X*N` where they stand: the vector is resized, what follows is moved up,
and the run is filled in.
-/

namespace NativeClient.Gdb

open NativeClient.Library

def ascii (character : Char) : UInt8 := character.toNat.toUInt8

/-- Whether `char` has a sign. -/
inductive CharType where
  | signed
  | unsigned

def CharType.value : CharType → UInt8 → Int
  | .signed, ch => signed8 ch
  | .unsigned, ch => ch.toNat

def nibbleToInt (ch : UInt8) : Option Nat :=
  if ascii 'a' ≤ ch ∧ ch ≤ ascii 'f' then some (ch.toNat - 97 + 10)
  else if ascii 'A' ≤ ch ∧ ch ≤ ascii 'F' then some (ch.toNat - 65 + 10)
  else if ascii '0' ≤ ch ∧ ch ≤ ascii '9' then some (ch.toNat - 48)
  else none

def intToNibble (nibble : Nat) : Option UInt8 :=
  if nibble < 10 then some (48 + nibble).toUInt8
  else if nibble < 16 then some (97 + (nibble - 10)).toUInt8
  else none

def nibble (value : Nat) : UInt8 := (intToNibble value).getD 0

def growSize : Nat := 64

/-- `seq` is -1 if there is no sequence number. -/
structure Packet where
  seq : Int
  data : List UInt8
  readIndex : Nat
  writeIndex : Nat

section Vector

variable (data : List UInt8)

def resize (size : Nat) : List UInt8 :=
  data.take size ++ List.replicate (size - data.length) 0

def overwrite (start : Nat) (bytes : List UInt8) : List UInt8 :=
  data.take start ++ bytes ++ data.drop (start + bytes.length)

def memmove (dst src count : Nat) : List UInt8 :=
  overwrite data dst ((data.drop src).take count)

def memset (start : Nat) (ch : UInt8) (count : Nat) : List UInt8 :=
  overwrite data start (List.replicate count ch)

end Vector

namespace Packet

def clear (pkt : Packet) : Packet :=
  { pkt with data := List.replicate growSize 0, readIndex := 0, writeIndex := 0 }

def empty : Packet := clear ⟨-1, [], 0, 0⟩

def addRawChar (pkt : Packet) (ch : UInt8) : Packet :=
  let data :=
    if pkt.data.length ≤ pkt.writeIndex + 1 then
      resize pkt.data (pkt.data.length + growSize)
    else
      pkt.data
  { pkt with
    data := (data.set pkt.writeIndex ch).set (pkt.writeIndex + 1) 0
    writeIndex := pkt.writeIndex + 1 }

def addString (pkt : Packet) (str : List UInt8) : Packet :=
  str.foldl addRawChar pkt

def addWord8 (pkt : Packet) (byte : UInt8) : Packet :=
  (pkt.addRawChar (nibble (byte.toNat / 16))).addRawChar
    (nibble (byte.toNat % 16))

def addBlock (pkt : Packet) (block : List UInt8) : Packet :=
  block.foldl addWord8 pkt

/-- `AddWord16`, `AddWord32` and `AddWord64`, for a number of `size` bytes in
the memory of a little endian machine. -/
def addWord (pkt : Packet) (size value : Nat) : Packet :=
  pkt.addBlock (littleEndian size value)

/-- The loop of `AddNumberSep`: the nibbles of at most `bytes` bytes, the lowest
first. -/
def nibbles : (bytes : Nat) → Nat → List UInt8
  | 0, _ => []
  | bytes + 1, val =>
      nibble (val % 256 % 16) :: nibble (val % 256 / 16) ::
        if val / 256 = 0 then [] else nibbles bytes (val / 256)

def numberText (val : Nat) : List UInt8 :=
  let out := nibbles 8 val
  (if 1 < out.length ∧ out.getLast? = some (ascii '0') then out.dropLast
    else out).reverse

def addNumberSep (pkt : Packet) (val : Nat) (sep : UInt8) : Packet :=
  let pkt :=
    if val = 2 ^ 64 - 1 then
      (pkt.addRawChar (ascii '-')).addRawChar (ascii '1')
    else
      pkt.addString (numberText val)
  if sep = 0 then pkt else pkt.addRawChar sep

/-- What `GetRawChar` returns, what `*ch` is after it, and the packet. -/
structure CharRead where
  ok : Bool
  ch : UInt8
  packet : Packet

variable (char : CharType)

/-- Fills in the run whose length is at `read_index_`, behind the star. -/
def expandRun (pkt : Packet) (count : Nat) : CharRead :=
  let read := pkt.readIndex
  let data := resize pkt.data (pkt.writeIndex + count - 3 + 1)
  let data := memmove data (read + count - 3) read (pkt.writeIndex - read)
  let ch := data.getD (read - 2) 0
  let data := memset data (read - 1) ch (count - 1)
  let writeIndex := data.length - 1
  ⟨true, ch,
    { pkt with data := data.set writeIndex 0, writeIndex := writeIndex }⟩

def getRawChar (pkt : Packet) (old : UInt8) : CharRead :=
  if pkt.writeIndex ≤ pkt.readIndex then ⟨false, old, pkt⟩
  else
    let ch := pkt.data.getD pkt.readIndex 0
    let pkt := { pkt with readIndex := pkt.readIndex + 1 }
    if ch = ascii '*' then
      if pkt.readIndex < 2 then ⟨false, ch, pkt⟩
      else if pkt.writeIndex ≤ pkt.readIndex then ⟨false, ch, pkt⟩
      else
        let count := char.value (pkt.data.getD pkt.readIndex 0) - 28
        if count < 3 then ⟨false, ch, pkt⟩
        else pkt.expandRun count.toNat
    else ⟨true, ch, pkt⟩

def getWord8 (pkt : Packet) : Option UInt8 × Packet :=
  let first := pkt.getRawChar char 0
  if first.ok then
    let second := first.packet.getRawChar char 0
    if second.ok then
      match nibbleToInt first.ch, nibbleToInt second.ch with
      | some high, some low => (some (high * 16 + low).toUInt8, second.packet)
      | _, _ => (none, second.packet)
    else (none, second.packet)
  else (none, first.packet)

def getBlock : (len : Nat) → Packet → List UInt8 × Bool × Packet
  | 0, pkt => ([], true, pkt)
  | len + 1, pkt =>
      match pkt.getWord8 char with
      | (none, pkt) => ([], false, pkt)
      | (some byte, pkt) =>
          let rest := getBlock len pkt
          (byte :: rest.1, rest.2)

def getWord (size : Nat) (pkt : Packet) : Option Nat × Packet :=
  let block := pkt.getBlock char size
  if block.2.1 then (some (ofLittleEndian block.1), block.2.2)
  else (none, block.2.2)

/-- The variables of the loop of `GetNumberSep`. -/
structure NumberState where
  out : Nat
  ch : UInt8
  packet : Packet

def numberTurn (state : NumberState) : Turn NumberState NumberState :=
  match nibbleToInt state.ch with
  | none => .leave state
  | some digit =>
      let out := (state.out * 16 + digit) % 2 ^ 64
      let next := state.packet.getRawChar char 0
      if next.ok then .again ⟨out, next.ch, next.packet⟩
      else .leave ⟨out, next.ch, next.packet⟩

/-- What `GetNumberSep` returns: the number and the separator, or nothing. -/
structure NumberRead where
  number : Option (Nat × UInt8)
  packet : Packet

def getNumberSep (pkt : Packet) : NumberRead :=
  let first := pkt.getRawChar char 0
  if !first.ok then ⟨none, first.packet⟩
  else if first.ch = ascii '-' then
    let second := first.packet.getRawChar char first.ch
    if !second.ok then ⟨none, second.packet⟩
    else if second.ch = ascii '1' then
      let sep := second.packet.getRawChar char 0
      ⟨some (2 ^ 64 - 1, sep.ch), sep.packet⟩
    else ⟨none, second.packet⟩
  else
    match runLoop (numberTurn char) (256 * pkt.data.length)
        ⟨0, first.ch, first.packet⟩ with
    | none => ⟨none, first.packet⟩
    | some state => ⟨some (state.out, state.ch), state.packet⟩

end Packet

end NativeClient.Gdb
