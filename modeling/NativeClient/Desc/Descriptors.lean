import NativeClient.Library.Holding
import NativeClient.Runtime.Addresses

/-!
# Descriptors that can be sent

Every class of descriptors has a function that tells how many bytes and handles
it needs in a message, one that writes them, and one that makes a descriptor
from them.  The last one is found by the type tag, which is written before the
data.  It reads from a buffer that goes on behind the data of the descriptors.
-/

namespace NativeClient.Desc

open NativeClient.Library

inductive System where
  | windows
  | linux
  | osx
deriving DecidableEq

structure FixedBytes (size : Nat) where
  list : List UInt8
  length_eq : list.length = size
deriving DecidableEq

def pathMax : Nat := 28

def quotaFileIdLen : Nat := 16

inductive LocalClass where
  | boundSocket
  | connectedSocket
  | mutex
  | condvar
  | semaphore
  | imcSocket
deriving DecidableEq

/-- A descriptor, with handles of type `η`. -/
inductive NaClDesc (η : Type) where
  | invalid
  | dir (hd : η)
  | hostIo (d : η)
  | connCap (path : FixedBytes pathMax)
  | connCapFd (connectFd : η)
  | shm (h : η) (size : Fin (2 ^ 64))
  | sysvShm (id : Fin (2 ^ 32)) (size : Fin (2 ^ 64))
  | syncSocket (h : η)
  | transferableDataSocket (h : η)
  | quota (fileId : FixedBytes quotaFileIdLen) (desc : NaClDesc η)
  | localOnly (localClass : LocalClass)
deriving DecidableEq

variable {η : Type}

def LocalClass.typeTag : LocalClass → UInt8
  | boundSocket => 5
  | connectedSocket => 6
  | mutex => 9
  | condvar => 10
  | semaphore => 11
  | imcSocket => 14

def NaClDesc.typeTag : NaClDesc η → UInt8
  | invalid => 0
  | dir _ => 1
  | hostIo _ => 2
  | connCap _ => 3
  | connCapFd _ => 4
  | shm _ _ => 7
  | sysvShm _ _ => 8
  | syncSocket _ => 12
  | transferableDataSocket _ => 13
  | quota _ _ => 15
  | localOnly localClass => localClass.typeTag

def typeMax : UInt8 := 16

def typeEndTag : UInt8 := 0xff

def NaClDesc.handles : NaClDesc η → List η
  | dir hd => [hd]
  | hostIo d => [d]
  | connCapFd connectFd => [connectFd]
  | shm h _ => [h]
  | syncSocket h => [h]
  | transferableDataSocket h => [h]
  | quota _ desc => desc.handles
  | _ => []

section Externalize

/-- The bytes and handles that a descriptor needs, after `fuel` nested calls at
most.  The quota wrapper calls its own function and not that of the wrapped
descriptor. -/
def externalizeSize : Nat → NaClDesc η → Option (Except Int (Nat × Nat))
  | 0, _ => none
  | fuel + 1, desc =>
      match desc with
      | .invalid => some (.ok (0, 0))
      | .dir _ => some (.ok (0, 1))
      | .hostIo _ => some (.ok (0, 1))
      | .connCap _ => some (.ok (pathMax, 0))
      | .connCapFd _ => some (.ok (0, 1))
      | .shm _ _ => some (.ok (8, 1))
      | .sysvShm _ _ => some (.ok (4 + 8, 0))
      | .syncSocket _ => some (.ok (0, 1))
      | .transferableDataSocket _ => some (.ok (0, 1))
      | .quota fileId wrapped =>
          (externalizeSize fuel (.quota fileId wrapped)).map fun sizes =>
            sizes.map fun (bytes, handles) =>
              (bytes + quotaFileIdLen + 1, handles)
      | .localOnly _ => some (.error (-einval))

/-- The bytes and handles that are written behind the tag.  The wrapper writes
itself again. -/
def externalize : Nat → NaClDesc η → Option (Except Int (List UInt8 × List η))
  | 0, _ => none
  | fuel + 1, desc =>
      match desc with
      | .invalid => some (.ok ([], []))
      | .dir _ => some (.error (-einval))
      | .hostIo d => some (.ok ([], [d]))
      | .connCap path => some (.ok (path.list, []))
      | .connCapFd connectFd => some (.ok ([], [connectFd]))
      | .shm h size => some (.ok (littleEndian 8 size, [h]))
      | .sysvShm id size =>
          some (.ok (littleEndian 4 id ++ littleEndian 8 size, []))
      | .syncSocket h => some (.ok ([], [h]))
      | .transferableDataSocket h => some (.ok ([], [h]))
      | .quota fileId wrapped =>
          (externalize fuel (.quota fileId wrapped)).map fun written =>
            match written with
            | .ok (bytes, handles) =>
                .ok (fileId.list ++
                  (NaClDesc.quota fileId wrapped).typeTag :: bytes, handles)
            | .error _ => .error (-einval)
      | .localOnly _ => some (.error (-einval))

def externalizeToXferBuffer (fuel : Nat) (desc : NaClDesc η) :
    Option (Except Int (List UInt8 × List η)) :=
  (externalize fuel desc).map fun written =>
    written.map fun (bytes, handles) => (desc.typeTag :: bytes, handles)

end Externalize

section Internalize

/-- The receiver.  `memory` and `constructs` tell for the place of a descriptor
in the buffer whether the allocations and the constructors succeed there. -/
structure Receiver where
  system : System
  /-- `SIZE_T_MAX`. -/
  sizeMax : Nat
  /-- `sizeof(size_t)`. -/
  sizeBytes : Nat
  memory : Nat → Bool
  constructs : Nat → Bool

/-- `handles` are the ones that were not taken yet.  The last three fields are
not in the source: the end of what was read, and the handles that were taken
and closed, or taken and forgotten. -/
structure Xfer (η : Type) where
  nextByte : Nat
  byteBufferEnd : Nat
  handles : List η
  readEnd : Nat
  closed : List η
  lost : List η

/-- What `NaClDescInternalizeFromXferBuffer` finds.  It answers `0` both at the
end tag and when a descriptor could not be made. -/
inductive Internalized (η : Type) where
  | endTag
  | failed
  | made (desc : NaClDesc η)
  | illegalTag
  | fatal

variable (receiver : Receiver) (buffer : Nat → UInt8)

namespace Xfer

def peek (xfer : Xfer η) (count : Nat) : Xfer η :=
  { xfer with readEnd := max xfer.readEnd (xfer.nextByte + count) }

def advance (xfer : Xfer η) (count : Nat) : Xfer η :=
  { xfer.peek count with nextByte := xfer.nextByte + count }

end Xfer

def internalizeHandle (make : η → NaClDesc η) (place : Nat) (xfer : Xfer η) :
    Internalized η × Xfer η :=
  match xfer.handles with
  | [] => (.failed, xfer)
  | h :: handles =>
      if receiver.memory place ∧ receiver.constructs place then
        (.made (make h), { xfer with handles := handles })
      else (.failed, xfer)

def ioInternalize (place : Nat) (xfer : Xfer η) : Internalized η × Xfer η :=
  match xfer.handles with
  | [] => (.failed, xfer)
  | h :: handles =>
      if ¬receiver.memory place then (.failed, xfer)
      else if receiver.constructs place then
        (.made (.hostIo h), { xfer with handles := handles })
      else
        (.failed, { xfer with handles := handles, closed := xfer.closed ++ [h] })

def connCapInternalize (place : Nat) (xfer : Xfer η) :
    Internalized η × Xfer η :=
  if xfer.byteBufferEnd < xfer.nextByte + pathMax then (.failed, xfer)
  else if receiver.memory place ∧ receiver.constructs place then
    (.made (.connCap ⟨bytesAt buffer xfer.nextByte pathMax, by simp [bytesAt]⟩),
      xfer.advance pathMax)
  else (.failed, xfer.peek pathMax)

def uint64At (start : Nat) : Fin (2 ^ 64) :=
  Fin.ofNat _ (ofLittleEndian (bytesAt buffer start 8))

/-- A size that is negative or does not fit a `size_t` is refused. -/
def validSize (size : Fin (2 ^ 64)) : Bool :=
  decide (size.val < 2 ^ 63 ∧ size.val ≤ receiver.sizeMax)

def imcShmInternalize (place : Nat) (xfer : Xfer η) :
    Internalized η × Xfer η :=
  match xfer.handles with
  | [] => (.failed, xfer)
  | h :: handles =>
      if xfer.byteBufferEnd < xfer.nextByte + 8 then (.failed, xfer)
      else if ¬receiver.memory place then (.failed, xfer)
      else
        let size := uint64At buffer xfer.nextByte
        let taken := { xfer.advance 8 with handles := handles }
        if validSize receiver size ∧ receiver.constructs place then
          (.made (.shm h size), taken)
        else (.failed, { taken with lost := taken.lost ++ [h] })

/-- The check uses the size of a `size_t`, and eight bytes are read. -/
def sysvShmInternalize (place : Nat) (xfer : Xfer η) :
    Internalized η × Xfer η :=
  if xfer.byteBufferEnd < xfer.nextByte + 4 + receiver.sizeBytes then
    (.failed, xfer)
  else if ¬receiver.memory place then (.failed, xfer)
  else
    let id : Fin (2 ^ 32) :=
      Fin.ofNat _ (ofLittleEndian (bytesAt buffer xfer.nextByte 4))
    let size := uint64At buffer (xfer.nextByte + 4)
    if size.val % 4096 = 0 ∧ validSize receiver size ∧
        receiver.constructs place then
      (.made (.sysvShm id size), xfer.advance (4 + 8))
    else (.failed, xfer.advance (4 + 8))

/-- The table of internalizers.  `wrapped` makes the descriptor inside a quota
wrapper, whose file id is read without a check. -/
def internalizeTag (wrapped : Xfer η → Internalized η × Xfer η) (tag : UInt8)
    (place : Nat) (xfer : Xfer η) : Internalized η × Xfer η :=
  if tag = 0 then (.made .invalid, xfer)
  else if tag = 2 then ioInternalize receiver place xfer
  else if tag = 3 ∧ receiver.system = .windows then
    connCapInternalize receiver buffer place xfer
  else if tag = 4 ∧ receiver.system ≠ .windows then
    internalizeHandle receiver .connCapFd place xfer
  else if tag = 7 then imcShmInternalize receiver buffer place xfer
  else if tag = 8 then
    if receiver.system = .linux then
      sysvShmInternalize receiver buffer place xfer
    else (.fatal, xfer)
  else if tag = 12 then internalizeHandle receiver .syncSocket place xfer
  else if tag = 13 then
    internalizeHandle receiver .transferableDataSocket place xfer
  else if tag = 15 then
    if ¬receiver.memory place then (.failed, xfer)
    else
      let fileId : FixedBytes quotaFileIdLen :=
        ⟨bytesAt buffer xfer.nextByte quotaFileIdLen, by simp [bytesAt]⟩
      match wrapped (xfer.advance quotaFileIdLen) with
      | (.made desc, xfer) =>
          if receiver.constructs place then (.made (.quota fileId desc), xfer)
          else (.failed, { xfer with closed := xfer.closed ++ desc.handles })
      | (.fatal, xfer) => (.fatal, xfer)
      | (_, xfer) => (.failed, xfer)
  else (.failed, xfer)

/-- `fuel` bounds the nesting of wrappers: each takes bytes of the buffer, and
behind the buffer nothing is known. -/
def internalizeFromXferBuffer : Nat → Xfer η → Internalized η × Xfer η
  | 0, xfer => (.fatal, xfer)
  | fuel + 1, xfer =>
      let tag := buffer xfer.nextByte
      let behind := xfer.advance 1
      if tag = typeEndTag then (.endTag, behind)
      else if typeMax ≤ tag then (.illegalTag, behind)
      else
        internalizeTag receiver buffer (internalizeFromXferBuffer fuel) tag
          xfer.nextByte behind

end Internalize

end NativeClient.Desc
