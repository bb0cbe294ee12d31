import NativeClient.Srpc.MessageHeaders

/-!
# Sending and receiving messages in fragments

A message that is too long for one datagram is sent in fragments.  Each begins
with its own length, and the first one with the length of the whole message
before that.  Both ends write the length of a fragment through the entry just
before the ones that are left of the copied vector.
-/

namespace NativeClient.Srpc

open NativeClient.Library

def computeFragmentSizes (entries : List IoVec) (entriesToSkip descLength : Nat) :
    Option LengthHeader :=
  (iovTotalBytes entries entriesToSkip).map fun byteCount =>
    ⟨min byteCount maxImcSendmsgSize, min descMax descLength⟩

def copyAndAddIovs (entries : List IoVec) (extraEntries : Nat) :
    Option (List IoVec) :=
  if iovTotalBytes entries extraEntries = none then none
  else some (List.replicate extraEntries ⟨⟨.caller, 0⟩, 0⟩ ++ entries)

/-- The loop of `BuildFragmentHeader`: entry `index` is the first one.  The
vector ends before the last entry that gets no bytes. -/
def limitEntries (byteCount : Nat) :
    List IoVec → (index totalBytes iovLength : Nat) → List IoVec × Nat
  | [], _, _, iovLength => ([], iovLength)
  | entry :: entries, index, totalBytes, iovLength =>
      let bytes := min (byteCount - totalBytes) entry.length
      let iovLength := if bytes = 0 then index else iovLength
      let rest :=
        limitEntries byteCount entries (index + 1) (totalBytes + bytes) iovLength
      ({ entry with length := bytes } :: rest.1, rest.2)

def buildFragmentHeader (entries : List IoVec) (byteCount entriesToSkip : Nat) :
    List IoVec :=
  let limited := limitEntries byteCount (entries.drop entriesToSkip)
    entriesToSkip 0 entries.length
  (entries.take entriesToSkip ++ limited.1).take limited.2

structure Consumed where
  vector : List IoVec
  iov : Nat
  iovLength : Nat
  byteCount : Nat

/-- The loop of `ConsumeFragment`: the length of the vector goes down. -/
def consumeEntries :
    (iovLength : Nat) → List IoVec → (iov byteCount : Nat) → Consumed
  | 0, vector, iov, byteCount => ⟨vector, iov, 0, byteCount⟩
  | iovLength + 1, vector, iov, byteCount =>
      if byteCount = 0 then ⟨vector, iov, iovLength + 1, byteCount⟩
      else
        match vector[iov]? with
        | none => ⟨vector, iov, iovLength + 1, byteCount⟩
        | some entry =>
            let bytes := min entry.length byteCount
            if 0 < entry.length - bytes then
              ⟨vector.set iov (entry.advance bytes), iov, iovLength + 1,
                byteCount - bytes⟩
            else
              consumeEntries iovLength
                (vector.set iov { entry with length := entry.length - bytes })
                (iov + 1) (byteCount - bytes)

def consumeFragment (vector : List IoVec) (header : MessageHeader)
    (fragment : LengthHeader) (guaranteedEntries : Nat) :
    List IoVec × MessageHeader :=
  let descsRead := min fragment.descCount header.descLength
  let consumed := consumeEntries (header.iovLength - guaranteedEntries) vector
    (header.iov + guaranteedEntries) fragment.byteCount
  (consumed.vector,
    { iov := consumed.iov
      iovLength := consumed.iovLength
      descv := header.descv + descsRead
      descLength := header.descLength - descsRead
      flags :=
        { dataTruncated :=
            header.flags.dataTruncated || decide (0 < consumed.byteCount)
          descTruncated :=
            header.flags.descTruncated ||
              decide (0 < fragment.descCount - descsRead) } })

def fragmentLengthIsSane (fragment : LengthHeader)
    (bytesReceived descsReceived : Nat) : Bool :=
  if fragment.byteCount < bytesReceived - fragmentOverhead ∨
      fragment.descCount < descsReceived then false
  else if fragment.byteCount = fragmentOverhead ∧ fragment.descCount = 0 then
    false
  else true

def messageLengthsAreSane (total fragment : LengthHeader)
    (bytesReceived descsReceived : Nat) : Bool :=
  if total.byteCount = 0 ∧ total.descCount = 0 then false
  else if total.byteCount < fragment.byteCount ∨
      total.descCount < fragment.descCount then false
  else
    fragmentLengthIsSane fragment (bytesReceived - fragmentOverhead)
      descsReceived

def errnoFromImcRet (imcRet : Int) : Int :=
  if imcRet < 0 then imcRet else -eio

variable {δ : Type}

def addFragmentLength (vector : List IoVec) (header : MessageHeader) :
    List IoVec × MessageHeader :=
  (vector.set (header.iov - 1) (lengthEntry .fragmentSize),
    { header with iov := header.iov - 1, iovLength := header.iovLength + 1 })

section Send

structure Message (δ : Type) where
  iov : List UserBuffer
  memory : Nat → UInt8
  descs : List δ
  descLength : descs.length < 2 ^ 32

def Message.bytes (message : Message δ) : List UInt8 :=
  (addresses message.iov).map message.memory

structure Sending (δ : Type) where
  vector : List IoVec
  remaining : MessageHeader
  channel : List (Datagram δ)

variable (iovecMax : Nat) (message : Message δ) (total : LengthHeader)

/-- Sends one fragment, whose first `guaranteedEntries` entries are lengths.
An error of the sizes is the result `sizesFailed`. -/
def sendFragment (guaranteedEntries : Nat) (sizesFailed : Int)
    (state : Sending δ) : Except (Int × List (Datagram δ)) (Sending δ) :=
  let entries := view state.vector state.remaining
  match computeFragmentSizes entries guaranteedEntries
      state.remaining.descLength with
  | none => .error (sizesFailed, state.channel)
  | some fragment =>
      let expectedBytesSent :=
        fragment.byteCount + guaranteedEntries * fragmentOverhead
      let sent := imcSendmsg iovecMax
        (withLengths message.memory total fragment)
        (buildFragmentHeader entries fragment.byteCount guaranteedEntries)
        ((message.descs.drop state.remaining.descv).take fragment.descCount)
        state.channel
      if sent.1 ≠ (expectedBytesSent : Int) then
        .error (errnoFromImcRet sent.1, sent.2)
      else
        let consumed := consumeFragment state.vector state.remaining fragment
          guaranteedEntries
        .ok ⟨consumed.1, consumed.2, sent.2⟩

def sendTurn (state : Sending δ) :
    Turn (Sending δ) (Int × List (Datagram δ)) :=
  if state.remaining.iovLength = 0 ∧ state.remaining.descLength = 0 then
    .leave ((total.byteCount : Int), state.channel)
  else
    let next := addFragmentLength state.vector state.remaining
    if iovTotalBytes (view next.1 next.2) 0 = none then
      .leave (-einval, state.channel)
    else
      match sendFragment iovecMax message total 1 (-eio)
          ⟨next.1, next.2, state.channel⟩ with
      | .error result => .leave result
      | .ok state => .again state

end Send

/-- The state in which the fragments after the first are sent, or the result
of a message whose first fragment was not sent. -/
def sendFirst (iovecMax : Nat) (message : Message δ)
    (channel : List (Datagram δ)) :
    Except (Int × List (Datagram δ)) (LengthHeader × Sending δ) :=
  let iov := message.iov.map UserBuffer.ioVec
  match copyAndAddIovs iov 2 with
  | none => .error (-einval, channel)
  | some copy =>
      let vector :=
        (copy.set 0 (lengthEntry .totalSize)).set 1 (lengthEntry .fragmentSize)
      let remaining : MessageHeader :=
        ⟨0, iov.length + 2, 0, message.descs.length, noFlags⟩
      if iovTotalBytes (view vector remaining) 0 = none then
        .error (-einval, channel)
      else
        match iovTotalBytes (view vector remaining) 2 with
        | none => .error (-einval, channel)
        | some byteCount =>
            let total : LengthHeader := ⟨byteCount, message.descs.length⟩
            match sendFragment iovecMax message total 2 (-einval)
                ⟨vector, remaining, channel⟩ with
            | .error result => .error result
            | .ok state => .ok (total, state)

/-- `NaClSrpcMessageChannelSend` returns, with this result and these datagrams
in the channel. -/
def SendReturns (iovecMax : Nat) (message : Message δ)
    (channel : List (Datagram δ)) (result : Int × List (Datagram δ)) : Prop :=
  match sendFirst iovecMax message channel with
  | .error failed => result = failed
  | .ok (total, state) => Returns (sendTurn iovecMax message total) state result

section Receive

structure Receiver where
  iov : List UserBuffer
  descLength : Nat

structure Receiving (δ : Type) where
  vector : List IoVec
  copy : MessageHeader
  buffers : Buffers δ
  total : LengthHeader
  processed : LengthHeader
  bytesReceived : Nat
  descsReceived : Nat

/-- What `NaClSrpcMessageChannelReceive` has come to.  A call that has used up
all that came in waits for more. -/
inductive Outcome (δ : Type) where
  | waiting
  | failed (result : Int)
  | succeeded (state : Receiving δ) (left : List (Incoming δ))

/-- A fragment that `Peek` has left in the channel; there is none if both
lists are empty. -/
abbrev Buffered (δ : Type) := Datagram δ

def messageChannelBufferRead (entries : List IoVec) (header : MessageHeader)
    (buffers : Buffers δ) (buffered : Buffered δ) : Received δ :=
  let bytes := buffered.bytes.take (totalLength entries)
  let descs := buffered.descs.take header.descLength
  ⟨(bytes.length : Int),
    { header with
      descLength := descs.length
      flags :=
        { dataTruncated := decide (bytes.length < buffered.bytes.length)
          descTruncated := decide (descs.length < buffered.descs.length) } },
    deliver entries header buffers bytes descs⟩

def acceptFirst (vector : List IoVec) (received : Received δ) :
    Except Int (Receiving δ) :=
  let total := readLength received.buffers.memory .totalSize
  let fragment := readLength received.buffers.memory .fragmentSize
  let imcRet := received.result
  if imcRet < (2 * fragmentOverhead : Nat) then
    .error (errnoFromImcRet imcRet)
  else if messageLengthsAreSane total fragment imcRet.toNat
      received.header.descLength then
    let consumed := consumeFragment vector received.header fragment 2
    .ok
      { vector := consumed.1
        copy := consumed.2
        buffers := received.buffers
        total := total
        processed := fragment
        bytesReceived := imcRet.toNat - 2 * fragmentOverhead
        descsReceived := received.header.descLength }
  else .error (-eio)

variable (iovecMax descRoom : Nat)

def nextFragment (state : Receiving δ) : List IoVec × MessageHeader :=
  let next := addFragmentLength state.vector state.copy
  (next.1,
    { next.2 with
      descv := state.descsReceived
      descLength := min descMax (descRoom - state.descsReceived) })

def acceptNext (state : Receiving δ) (vector : List IoVec)
    (received : Received δ) : Except Int (Receiving δ) :=
  let fragment := readLength received.buffers.memory .fragmentSize
  let imcRet := received.result
  if imcRet < fragmentOverhead then .error (errnoFromImcRet imcRet)
  else if fragmentLengthIsSane fragment imcRet.toNat
      received.header.descLength then
    let consumed := consumeFragment vector received.header fragment 1
    .ok
      { vector := consumed.1
        copy := consumed.2
        buffers := received.buffers
        total := state.total
        processed :=
          ⟨(state.processed.byteCount + fragment.byteCount) % 2 ^ 32,
            (state.processed.descCount + fragment.descCount) % 2 ^ 32⟩
        bytesReceived :=
          state.bytesReceived + (imcRet.toNat - fragmentOverhead)
        descsReceived := state.descsReceived + received.header.descLength }
  else .error (-eio)

def receiveTurn (state : Receiving δ) (incoming : Incoming δ) :
    Except Int (Receiving δ) :=
  let next := nextFragment descRoom state
  acceptNext state next.1
    (imcRecvmsg iovecMax (view next.1 next.2) next.2 state.buffers incoming)

def finished (state : Receiving δ) : Bool :=
  ¬ (state.processed.byteCount < state.total.byteCount ∨
    state.processed.descCount < state.total.descCount)

def receiveLoop (state : Receiving δ) (incomings : List (Incoming δ)) :
    Outcome δ :=
  if finished state then .succeeded state incomings
  else
    let next := nextFragment descRoom state
    if iovTotalBytes (view next.1 next.2) 0 = none then .failed (-einval)
    else
      match incomings with
      | [] => .waiting
      | incoming :: incomings =>
          match receiveTurn iovecMax descRoom state incoming with
          | .error result => .failed result
          | .ok state => receiveLoop state incomings

end Receive

def receiveHeader (receiver : Receiver) :
    Except Int (List IoVec × MessageHeader) :=
  let iov := receiver.iov.map UserBuffer.ioVec
  match copyAndAddIovs iov 2 with
  | none => .error (-einval)
  | some copy =>
      let vector :=
        (copy.set 0 (lengthEntry .totalSize)).set 1 (lengthEntry .fragmentSize)
      let header : MessageHeader :=
        ⟨0, iov.length + 2, 0, min descMax receiver.descLength, noFlags⟩
      if iovTotalBytes (view vector header) 0 = none then .error (-einval)
      else .ok (vector, header)

def receive (iovecMax : Nat) (receiver : Receiver) (buffers : Buffers δ)
    (buffered : Buffered δ) (incomings : List (Incoming δ)) : Outcome δ :=
  match receiveHeader receiver with
  | .error result => .failed result
  | .ok (vector, header) =>
      let goOn (received : Received δ) (incomings : List (Incoming δ)) :=
        match acceptFirst vector received with
        | .error result => .failed result
        | .ok state =>
            receiveLoop iovecMax receiver.descLength state incomings
      if buffered.bytes = [] ∧ buffered.descs = [] then
        match incomings with
        | [] => .waiting
        | incoming :: incomings =>
            goOn
              (imcRecvmsg iovecMax (view vector header) header buffers incoming)
              incomings
      else
        goOn (messageChannelBufferRead (view vector header) header buffers
          buffered) incomings

end NativeClient.Srpc
