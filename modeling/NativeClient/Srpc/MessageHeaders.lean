import NativeClient.Library.Loop
import NativeClient.Library.LittleEndian
import NativeClient.Library.Placing
import NativeClient.Runtime.Addresses

/-!
# Vectors of buffers

A message is gathered from a vector of buffers and scattered to another one.
The vector that `Send` and `Receive` work on is a copy with room for two more
entries, and an index into it moves forward as the entries are used up.  The
entries of the copy point into the caller's memory or to one of the two
lengths that go before the bytes of a fragment.
-/

namespace NativeClient.Srpc

open NativeClient.Library

inductive Object where
  | totalSize
  | fragmentSize
  | caller
deriving DecidableEq

structure Place where
  object : Object
  offset : Nat
deriving DecidableEq

abbrev Memory := Place → UInt8

structure IoVec where
  base : Place
  length : Nat
deriving DecidableEq

namespace IoVec

def places (entry : IoVec) : List Place :=
  (List.range entry.length).map fun index =>
    ⟨entry.base.object, entry.base.offset + index⟩

def advance (entry : IoVec) (bytes : Nat) : IoVec :=
  ⟨⟨entry.base.object, entry.base.offset + bytes⟩, entry.length - bytes⟩

@[simp] theorem length_places (entry : IoVec) :
    entry.places.length = entry.length := by
  rw [places, List.length_map, List.length_range]

end IoVec

def places (entries : List IoVec) : List Place :=
  entries.flatMap IoVec.places

def totalLength (entries : List IoVec) : Nat :=
  (entries.map IoVec.length).sum

@[simp] theorem places_nil : places [] = [] := rfl

@[simp] theorem places_cons (entry : IoVec) (entries : List IoVec) :
    places (entry :: entries) = entry.places ++ places entries := rfl

@[simp] theorem places_append (front back : List IoVec) :
    places (front ++ back) = places front ++ places back :=
  List.flatMap_append

@[simp] theorem totalLength_nil : totalLength [] = 0 := rfl

@[simp] theorem totalLength_cons (entry : IoVec) (entries : List IoVec) :
    totalLength (entry :: entries) = entry.length + totalLength entries := rfl

@[simp] theorem totalLength_append (front back : List IoVec) :
    totalLength (front ++ back) = totalLength front + totalLength back := by
  unfold totalLength
  rw [List.map_append, List.sum_append]

@[simp] theorem length_places (entries : List IoVec) :
    (places entries).length = totalLength entries := by
  induction entries with
  | nil => rfl
  | cons entry entries ih =>
      rw [places_cons, List.length_append, ih, IoVec.length_places,
        totalLength_cons]

structure UserBuffer where
  base : Nat
  length : Nat

namespace UserBuffer

def ioVec (buffer : UserBuffer) : IoVec := ⟨⟨.caller, buffer.base⟩, buffer.length⟩

def addresses (buffer : UserBuffer) : List Nat :=
  (List.range buffer.length).map fun index => buffer.base + index

end UserBuffer

def addresses (buffers : List UserBuffer) : List Nat :=
  buffers.flatMap UserBuffer.addresses

theorem places_ioVec (buffers : List UserBuffer) :
    places (buffers.map UserBuffer.ioVec) =
      (addresses buffers).map fun address => ⟨.caller, address⟩ := by
  induction buffers with
  | nil => rfl
  | cons buffer buffers ih =>
      have split : addresses (buffer :: buffers) =
          buffer.addresses ++ addresses buffers := rfl
      rw [List.map_cons, places_cons, ih, split, List.map_append]
      congr 1
      simp only [IoVec.places, UserBuffer.ioVec, UserBuffer.addresses, List.map_map,
        Function.comp_def]

structure LengthHeader where
  byteCount : Nat
  descCount : Nat
deriving DecidableEq

def fragmentOverhead : Nat := 8

def LengthHeader.bytes (size : LengthHeader) : List UInt8 :=
  littleEndian 4 size.byteCount ++ littleEndian 4 size.descCount

@[simp] theorem length_lengthHeader_bytes (size : LengthHeader) :
    size.bytes.length = fragmentOverhead := by
  unfold LengthHeader.bytes
  rw [List.length_append, length_littleEndian, length_littleEndian]
  rfl

def LengthHeader.ofBytes (bytes : List UInt8) : LengthHeader :=
  ⟨ofLittleEndian (bytes.take 4), ofLittleEndian (bytes.drop 4)⟩

def lengthEntry (object : Object) : IoVec := ⟨⟨object, 0⟩, fragmentOverhead⟩

def readLength (memory : Memory) (object : Object) : LengthHeader :=
  .ofBytes ((lengthEntry object).places.map memory)

def withLengths (caller : Nat → UInt8) (total fragment : LengthHeader) :
    Memory
  | ⟨.totalSize, offset⟩ => total.bytes.getD offset 0
  | ⟨.fragmentSize, offset⟩ => fragment.bytes.getD offset 0
  | ⟨.caller, address⟩ => caller address

structure Flags where
  dataTruncated : Bool
  descTruncated : Bool
deriving DecidableEq

def noFlags : Flags := ⟨false, false⟩

/-- `iov` and `descv` are indices into the copied vector and into the
caller's descriptors. -/
structure MessageHeader where
  iov : Nat
  iovLength : Nat
  descv : Nat
  descLength : Nat
  flags : Flags
deriving DecidableEq

def view (vector : List IoVec) (header : MessageHeader) : List IoVec :=
  (vector.drop header.iov).take header.iovLength

def abiSsizeMax : Nat := 2 ^ 31 - 1

/-- `none` is `-1`.  A sum that does not fit a `size_t` is over the limit
too. -/
def iovTotalBytes (entries : List IoVec) (entriesToSkip : Nat) : Option Nat :=
  let byteCount := totalLength (entries.drop entriesToSkip)
  if abiSsizeMax < byteCount then none else some byteCount

/-- `kNaClSrpcMaxImcSendmsgSize`, as the module is initialized. -/
def maxImcSendmsgSize : Nat := 65536

/-- `SRPC_DESC_MAX` and `NACL_ABI_IMC_USER_DESC_MAX`. -/
def descMax : Nat := 8

def imcUserBytesMax : Nat := 131072

structure Datagram (δ : Type) where
  bytes : List UInt8
  descs : List δ

variable {δ : Type}

/-- Sends one datagram over a channel that loses nothing: it is put at the end
of the queue.  `iovecMax` is `NACL_ABI_IMC_IOVEC_MAX`. -/
def imcSendmsg (iovecMax : Nat) (memory : Memory) (entries : List IoVec)
    (descs : List δ) (channel : List (Datagram δ)) :
    Int × List (Datagram δ) :=
  if iovecMax < entries.length then (-einval, channel)
  else if descMax < descs.length then (-einval, channel)
  else if imcUserBytesMax < totalLength entries then (-einval, channel)
  else
    ((totalLength entries : Int),
      channel ++ [⟨(places entries).map memory, descs⟩])

inductive Incoming (δ : Type) where
  | failed (errno : Nat)
  | arrived (datagram : Datagram δ)

structure Buffers (δ : Type) where
  memory : Memory
  descs : Nat → δ

structure Received (δ : Type) where
  result : Int
  header : MessageHeader
  buffers : Buffers δ

def deliver (entries : List IoVec) (header : MessageHeader)
    (buffers : Buffers δ) (bytes : List UInt8) (descs : List δ) :
    Buffers δ where
  memory := writeAll buffers.memory (places entries) bytes
  descs := writeAll buffers.descs
    (List.range' header.descv header.descLength) descs

/-- Receives one datagram.  Only lost descriptors are reported in `flags`. -/
def imcRecvmsg (iovecMax : Nat) (entries : List IoVec) (header : MessageHeader)
    (buffers : Buffers δ) (incoming : Incoming δ) : Received δ :=
  if iovecMax < entries.length then ⟨-einval, header, buffers⟩
  else if descMax < header.descLength then ⟨-einval, header, buffers⟩
  else
    match incoming with
    | .failed errno => ⟨-(errno + 1 : Nat), header, buffers⟩
    | .arrived datagram =>
        let userBytes := min (totalLength entries) imcUserBytesMax
        let bytes := datagram.bytes.take userBytes
        let descs := datagram.descs.take header.descLength
        let lost := decide (header.descLength < datagram.descs.length)
        ⟨(bytes.length : Int),
          { header with
            descLength := descs.length
            flags.descTruncated := header.flags.descTruncated || lost },
          deliver entries header buffers bytes descs⟩

end NativeClient.Srpc
