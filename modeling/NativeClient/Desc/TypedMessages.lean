import NativeClient.Desc.Descriptors

/-!
# Messages with descriptors

The sender puts a header and the data of the descriptors before the bytes of the
user.  The data ends with a tag of its own and is filled up to a multiple of 16
bytes.  The receiver splits the message again, makes the descriptors and gives
up those that the user has no room for.
-/

namespace NativeClient.Desc

open NativeClient.Library

variable {η : Type}

structure Datagram (η : Type) where
  bytes : List UInt8
  handles : List η

def iovecMax : Nat := 256

/-- `NACL_ABI_IMC_USER_DESC_MAX` and `NACL_ABI_IMC_DESC_MAX`. -/
def descMax : Nat := 8

def userBytesMax : Nat := 131072

/-- `NACL_ABI_IMC_BYTES_MAX`, the size of the buffer of the receiver. -/
def imcBytesMax : Nat := userBytesMax + (1 + pathMax) * descMax + 16

def handleTransferProtocol : Nat := 0xd3c0de01

def abiSizeMax : Nat := 2 ^ 32 - 1

def internalHeader (descriptorDataBytes : Nat) : List UInt8 :=
  littleEndian 4 handleTransferProtocol ++
    (littleEndian 4 descriptorDataBytes ++ List.replicate 8 0)

def headerSize : Nat := 16

section Send

inductive SendFailure where
  | errno (value : Int)
  | fatal
deriving DecidableEq

def sizePass (fuel : Nat) : List (NaClDesc η) → (sysBytes sysHandles : Nat) →
    Option (Except Int (Nat × Nat))
  | [], sysBytes, sysHandles => some (.ok (sysBytes, sysHandles))
  | desc :: descs, sysBytes, sysHandles =>
      match externalizeSize fuel desc with
      | none => none
      | some (.error errno) => some (.error errno)
      | some (.ok (bytes, handles)) =>
          if abiSizeMax - 1 < bytes ∨ abiSizeMax - sysBytes < bytes + 1 ∨
              abiSizeMax - sysHandles < handles then
            some (.error (-eoverflow))
          else sizePass fuel descs (sysBytes + (1 + bytes)) (sysHandles + handles)

def writePass (fuel : Nat) :
    List (NaClDesc η) → Option (Except Int (List UInt8 × List η))
  | [] => some (.ok ([], []))
  | desc :: descs =>
      match externalizeToXferBuffer fuel desc with
      | none => none
      | some (.error errno) => some (.error errno)
      | some (.ok (bytes, handles)) =>
          (writePass fuel descs).map fun rest =>
            rest.map fun (moreBytes, moreHandles) =>
              (bytes ++ moreBytes, handles ++ moreHandles)

def roundedBytes (sysBytes : Nat) : Nat := (sysBytes + 1 + 15) / 16 * 16

def descriptorArea (size : Nat) (written : List UInt8) : List UInt8 :=
  written ++ typeEndTag :: List.replicate (size - (written.length + 1)) 0

/-- The message that is given to the transport of the channel, after at most
`fuel` nested calls.  `memory` tells whether the buffer can be allocated. -/
def sendTypedMessage (fuel : Nat) (memory imcSocket : Bool)
    (iov : List (List UInt8)) (descs : List (NaClDesc η)) :
    Option (Except SendFailure (Datagram η)) :=
  let userBytes := iov.flatten
  if descs ≠ [] ∧ ¬imcSocket then some (.error (.errno (-einval)))
  else if iovecMax < iov.length then some (.error (.errno (-einval)))
  else if descMax < descs.length then some (.error (.errno (-einval)))
  else if userBytesMax < userBytes.length then some (.error (.errno (-einval)))
  else if descs = [] then some (.ok ⟨internalHeader 0 ++ userBytes, []⟩)
  else
    match sizePass fuel descs 0 0 with
    | none => none
    | some (.error errno) => some (.error (.errno errno))
    | some (.ok (sysBytes, sysHandles)) =>
        let size := roundedBytes sysBytes
        if descMax < sysHandles then some (.error .fatal)
        else if abiSizeMax - headerSize < size then some (.error .fatal)
        else if ¬memory then some (.error (.errno (-enomem)))
        else
          match writePass fuel descs with
          | none => none
          | some (.error errno) => some (.error (.errno errno))
          | some (.ok (bytes, handles)) =>
              some (.ok
                ⟨internalHeader size ++ (descriptorArea size bytes ++ userBytes),
                  handles.take sysHandles⟩)

end Send

section Receive

structure Flags where
  dataTruncated : Bool
  descTruncated : Bool
deriving DecidableEq

/-- The lengths of the caller's buffers, the room for descriptors, and the flags
that the caller left in the header. -/
structure ReceiveHeader where
  iov : List Nat
  ndescLength : Nat
  flags : Flags

inductive Stop where
  | endTag
  | endOfArea
  | failedDesc
  | illegalTag
  | fatal
deriving DecidableEq

structure Parsed (η : Type) where
  stop : Stop
  descs : List (NaClDesc η)
  xfer : Xfer η

/-- What a call leaves: its result, what it stored in each buffer, the
descriptors and flags of the header, and what became of the handles. -/
structure TypedReceive (η : Type) where
  retval : Int
  stored : List (List UInt8)
  descs : List (NaClDesc η)
  flags : Flags
  closed : List η
  parsed : Option (Parsed η)

variable (receiver : Receiver)

/-- `room` is what is left of the array of new descriptors. -/
def internalizeAll (buffer : Nat → UInt8) (room : Nat) (xfer : Xfer η) :
    Parsed η :=
  if xfer.nextByte < xfer.byteBufferEnd then
    match internalizeFromXferBuffer receiver buffer (imcBytesMax + 1) xfer with
    | (.endTag, xfer) => ⟨.endTag, [], xfer⟩
    | (.failed, xfer) => ⟨.failedDesc, [], xfer⟩
    | (.fatal, xfer) => ⟨.fatal, [], xfer⟩
    | (.illegalTag, xfer) =>
        ⟨if room = 0 then .fatal else .illegalTag, [], xfer⟩
    | (.made desc, xfer) =>
        match room with
        | 0 => ⟨.fatal, [], xfer⟩
        | room + 1 =>
            let rest := internalizeAll buffer room xfer
            { rest with descs := desc :: rest.descs }
  else ⟨.endOfArea, [], xfer⟩

def copyOut : List Nat → List UInt8 → List (List UInt8)
  | [], _ => []
  | length :: lengths, bytes =>
      bytes.take length :: copyOut lengths (bytes.drop length)

def receiveBuffer (received : List UInt8) (unknown : Nat → UInt8) :
    Nat → UInt8 :=
  fun offset => received.getD offset (unknown offset)

def receiveFailure (header : ReceiveHeader) (errno : Int) (handles : List η) :
    TypedReceive η :=
  ⟨errno, [], [], header.flags, handles, none⟩

/-- The end of the descriptors in the buffer, as the sum of two `size_t`. -/
def areaEnd (descriptorDataBytes : Nat) : Nat :=
  (descriptorDataBytes + headerSize) % (receiver.sizeMax + 1)

def finishReceive (header : ReceiveHeader) (retval : Nat)
    (stored : List (List UInt8)) (parsed : Parsed η) : TypedReceive η where
  retval := retval
  stored := stored
  descs := parsed.descs.take header.ndescLength
  flags :=
    { header.flags with
      descTruncated := header.flags.descTruncated ||
        decide (header.ndescLength < parsed.descs.length) }
  closed := parsed.xfer.closed ++
    ((parsed.descs.drop header.ndescLength).flatMap NaClDesc.handles ++
      parsed.xfer.handles)
  parsed := some parsed

/-- `unknown` is what the buffer holds behind the message.  The result is `none`
where the process is aborted.  That data was truncated is noted in the header of
the transport only. -/
def receiveTypedMessage (imcSocket : Bool) (unknown : Nat → UInt8)
    (header : ReceiveHeader) (incoming : Except Int (Datagram η)) :
    Option (TypedReceive η) :=
  if iovecMax < header.iov.length then
    some (receiveFailure header (-einval) [])
  else if descMax < header.ndescLength then
    some (receiveFailure header (-einval) [])
  else if receiver.sizeMax < header.iov.sum then
    some (receiveFailure header (-einval) [])
  else
    let userBytes := min header.iov.sum userBytesMax
    match incoming with
    | .error errno => some (receiveFailure header (-errno) [])
    | .ok datagram =>
        let received := datagram.bytes.take imcBytesMax
        let handles := if imcSocket then datagram.handles.take descMax else []
        let version := ofLittleEndian (received.take 4)
        let dataBytes := ofLittleEndian ((received.drop 4).take 4)
        let areaEnd := areaEnd receiver dataBytes
        if received.length < headerSize then
          some (receiveFailure header (-eio) handles)
        else if version ≠ handleTransferProtocol then
          some (receiveFailure header (-eio) handles)
        else if received.length < areaEnd then
          some (receiveFailure header (-eio) handles)
        else
          let available := min (received.length - areaEnd) userBytes
          let stored := copyOut header.iov
            ((received.drop areaEnd).take available)
          let parsed := internalizeAll receiver (receiveBuffer received unknown)
            descMax ⟨headerSize, areaEnd, handles, headerSize, [], []⟩
          match parsed.stop with
          | .fatal => none
          | .illegalTag =>
              some { receiveFailure header (-eio)
                  (parsed.xfer.closed ++
                    (parsed.descs.flatMap NaClDesc.handles ++ parsed.xfer.handles))
                with stored := stored, parsed := some parsed }
          | _ => some (finishReceive header available stored parsed)

end Receive

end NativeClient.Desc
