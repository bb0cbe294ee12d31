import NativeClient.Library.LittleEndian
import NativeClient.Library.Runs

/-!
# Datagrams over a stream on OS X

A datagram is written to a stream with a header that tells its size and the
number of its handles.  The receiver reads the header, reads what its buffers
take, and skips the rest.  The stream is reliable: what is written is read in
order, and a call that waits for all its bytes gets them.
-/

namespace NativeClient.Imc

open NativeClient.Library

/-- `sizeBytes` is the size of a `size_t`, and `ssizeMax` the largest number of
bytes that one system call transfers. -/
structure Platform where
  sizeBytes : Nat
  ssizeMax : Nat
  sizes : sizeBytes = 4 ∨ sizeBytes = 8

def Platform.headerSize (platform : Platform) : Nat := 2 * platform.sizeBytes

def handleCountMax : Nat := 8

def iovLengthMax : Nat := 257

/-- The value of a number in an `int`. -/
def toInt (value : Nat) : Int :=
  if value % 2 ^ 32 < 2 ^ 31 then (value % 2 ^ 32 : Nat)
  else (value % 2 ^ 32 : Nat) - 2 ^ 32

/-- `MessageSizeIsValid`, with the bytes counted so far. -/
def messageSizeIsValid (curBytes : Nat) : List Nat → Bool
  | [] => true
  | length :: lengths =>
      if 2 ^ 32 - 1 - curBytes < length then false
      else messageSizeIsValid (curBytes + length) lengths

section Send

structure Message where
  iov : List (List UInt8)
  handleCount : Nat

def Message.lengths (message : Message) : List Nat := message.iov.map List.length

def Message.bytes (message : Message) : List UInt8 := message.iov.flatten

def encodeHeader (platform : Platform) (messageBytes handleCount : Nat) :
    List UInt8 :=
  littleEndian platform.sizeBytes messageBytes ++
    littleEndian platform.sizeBytes handleCount

def frame (platform : Platform) (message : Message) : List UInt8 :=
  encodeHeader platform message.lengths.sum message.handleCount ++ message.bytes

/-- The result, and the stream afterwards.  `accepts` tells whether the system
call succeeds; then it writes everything. -/
def sendDatagram (platform : Platform) (accepts : Bool) (message : Message)
    (stream : List UInt8) : Int × List UInt8 :=
  if messageSizeIsValid 0 message.lengths = false then (-1, stream)
  else if handleCountMax < message.handleCount ∨
      iovLengthMax < message.iov.length then (-1, stream)
  else
    let written := frame platform message
    if ¬accepts ∨ platform.ssizeMax < written.length then (-1, stream)
    else
      let result := toInt written.length
      if result = -1 then (-1, stream ++ written)
      else if 0 ≤ result ∧ result < platform.headerSize then
        (-1, stream ++ written)
      else (toInt (written.length - platform.headerSize), stream ++ written)

end Send

section Receive

structure Room where
  iov : List Nat
  handleCount : Nat

def Room.capacity (room : Room) : Nat := room.iov.sum

inductive HeaderAnswer where
  | nothing
  | arrived (count rights : Nat)

structure Received where
  retval : Int
  stored : List (List UInt8)
  messageTruncated : Bool
  handlesTruncated : Bool

def refused : Received := ⟨-1, [], false, false⟩

def trim (messageBytes bufferBytes : Nat) : List Nat → List Nat × Nat
  | [] => ([], bufferBytes)
  | length :: lengths =>
      if messageBytes ≤ bufferBytes + length then
        ([length - (bufferBytes + length - messageBytes)], messageBytes)
      else
        let (rest, total) := trim messageBytes (bufferBytes + length) lengths
        (length :: rest, total)

def scatter : List Nat → List UInt8 → List (List UInt8)
  | [], _ => []
  | length :: lengths, bytes =>
      bytes.take length :: scatter lengths (bytes.drop length)

/-- The second half of `ReceiveDatagram`: the bytes behind the header.  It is
`none` where the call waits for bytes that nobody sent.  A call with no buffers
at all is refused by the system. -/
def receiveBytes (platform : Platform) (room : Room) (messageBytes : Nat)
    (handlesTruncated : Bool) (stream : List UInt8) :
    Option (Received × List UInt8) :=
  if messageBytes = 0 then some (⟨0, [], false, handlesTruncated⟩, stream)
  else
    let (lengths, bufferBytes) := trim messageBytes 0 room.iov
    let wanted := lengths.sum
    let truncated := decide (bufferBytes < messageBytes)
    if lengths = [] ∨ platform.ssizeMax < wanted then
      some (⟨-1, [], truncated, handlesTruncated⟩, stream)
    else if stream.length < wanted then none
    else
      let stored := scatter lengths (stream.take wanted)
      let rest := stream.drop wanted
      if 0 < toInt wanted ∧ toInt wanted < messageBytes then
        if rest.length < messageBytes - wanted then none
        else
          some (⟨toInt wanted, stored, true, handlesTruncated⟩,
            rest.drop (messageBytes - wanted))
      else some (⟨toInt wanted, stored, truncated, handlesTruncated⟩, rest)

def receiveDatagram (platform : Platform) (room : Room) (answer : HeaderAnswer)
    (stream : List UInt8) : Option (Received × List UInt8) :=
  if handleCountMax < room.handleCount ∨ iovLengthMax < room.iov.length then
    some (refused, stream)
  else if messageSizeIsValid 0 room.iov = false then some (refused, stream)
  else
    match answer with
    | .nothing => some (refused, stream)
    | .arrived count rights =>
        if stream.length < count ∨ count = 0 ∨ platform.headerSize < count then none
        else if count ≠ platform.headerSize then
          some (refused, stream.drop count)
        else
          let messageBytes := ofLittleEndian (stream.take platform.sizeBytes)
          let handleCount := ofLittleEndian
            ((stream.drop platform.sizeBytes).take platform.sizeBytes)
          receiveBytes platform room messageBytes (decide (rights < handleCount))
            (stream.drop platform.headerSize)

end Receive

section Runs

inductive Call where
  | send (message : Message) (accepts : Bool)
  | receive (room : Room) (answer : HeaderAnswer)

structure Connection where
  stream : List UInt8
  sent : List Message
  received : List (Room × Received)

def Connection.initial : Connection := ⟨[], [], []⟩

def call (platform : Platform) (connection : Connection) :
    Call → Option Connection
  | .send message accepts =>
      let (retval, stream) :=
        sendDatagram platform accepts message connection.stream
      some { connection with
        stream := stream
        sent := if 0 ≤ retval then connection.sent ++ [message]
          else connection.sent }
  | .receive room answer =>
      (receiveDatagram platform room answer connection.stream).map
        fun (result, stream) =>
          { connection with
            stream := stream
            received := if 0 ≤ result.retval then
                connection.received ++ [(room, result)]
              else connection.received }

end Runs

end NativeClient.Imc
