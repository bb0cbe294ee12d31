import NativeClient.Srpc.ReceiveRun

/-!
# The first fragment

The first fragment has the length of the whole message before its own.  It is
read from the channel or, after a peek, from the buffer of the channel; both
ways store the bytes and descriptors that fit.
-/

namespace NativeClient.Srpc

open NativeClient.Library

variable {δ : Type}

def Receiver.entries (receiver : Receiver) : List IoVec :=
  receiver.iov.map UserBuffer.ioVec

def Receiver.header (receiver : Receiver) : MessageHeader :=
  ⟨0, receiver.entries.length + 2, 0, min descMax receiver.descLength, noFlags⟩

def Receiver.Within (receiver : Receiver) : Prop :=
  totalLength receiver.entries + 2 * fragmentOverhead ≤ abiSsizeMax

instance (receiver : Receiver) : Decidable receiver.Within :=
  inferInstanceAs (Decidable (_ ≤ _))

theorem receiveHeader_eq {receiver : Receiver} (within : receiver.Within) :
    receiveHeader receiver =
      .ok (twoLengths ++ receiver.entries, receiver.header) := by
  obtain ⟨copy, copied, filledIn⟩ := copyAndAddIovs_eq within
  obtain ⟨some, -⟩ := iovTotalBytes_twoLengths within
  have viewed : view (twoLengths ++ receiver.entries) receiver.header =
      twoLengths ++ receiver.entries := by
    apply Stands.view_eq
    refine ⟨⟨[], rfl, rfl⟩, ?_⟩
    simp only [Receiver.header, twoLengths, List.length_append,
      List.length_cons, List.length_nil]
    omega
  unfold receiveHeader
  simp only [Receiver.entries, Receiver.header] at copied filledIn viewed some ⊢
  rw [copied]
  simp only [filledIn, viewed, some, if_false]

theorem receiveHeader_error
    {receiver : Receiver} (beyond : ¬ receiver.Within) :
    receiveHeader receiver = .error (-einval) := by
  unfold receiveHeader
  simp only
  split
  next => rfl
  next copy copied =>
      have shape : copy = List.replicate 2 ⟨⟨.caller, 0⟩, 0⟩ ++
          receiver.iov.map UserBuffer.ioVec := by
        unfold copyAndAddIovs at copied
        split at copied
        next => cases copied
        next => exact (Option.some.inj copied).symm
      subst shape
      rw [if_pos]
      have viewed : view (twoLengths ++ receiver.entries) receiver.header =
          twoLengths ++ receiver.entries := by
        apply Stands.view_eq
        refine ⟨⟨[], rfl, rfl⟩, ?_⟩
        simp only [Receiver.header, twoLengths, List.length_append,
          List.length_cons, List.length_nil]
        omega
      have tooLong : iovTotalBytes (twoLengths ++ receiver.entries) 0 = none := by
        unfold iovTotalBytes
        rw [if_pos]
        unfold Receiver.Within at beyond
        simp only [List.drop_zero, totalLength_append, twoLengths,
          totalLength_cons, totalLength_nil, lengthEntry]
        omega
      rw [← viewed] at tooLong
      exact tooLong

structure FirstRead (receiver : Receiver) (buffers : Buffers δ)
    (received : Received δ) (bytes : List UInt8) (descs : List δ) : Prop where
  result : received.result = (bytes.length : Int)
  fits : bytes.length ≤ 2 * fragmentOverhead + totalLength receiver.entries
  fewDescs : descs.length ≤ min descMax receiver.descLength
  stored : received.buffers = deliver (twoLengths ++ receiver.entries)
    receiver.header buffers bytes descs
  iov : received.header.iov = 0
  iovLength : received.header.iovLength = receiver.entries.length + 2
  descv : received.header.descv = 0
  descLength : received.header.descLength = descs.length

def firstStored (receiver : Receiver) (datagram : Datagram δ) : List UInt8 :=
  datagram.bytes.take (min (2 * fragmentOverhead +
    totalLength receiver.entries) imcUserBytesMax)

theorem firstRead_arrived
    {receiver : Receiver} {iovecMax : Nat} (buffers : Buffers δ)
    (datagram : Datagram δ)
    (fits : ¬ iovecMax < receiver.entries.length + 2) :
    FirstRead receiver buffers
      (imcRecvmsg iovecMax (twoLengths ++ receiver.entries) receiver.header
        buffers (.arrived datagram))
      (firstStored receiver datagram)
      (datagram.descs.take (min descMax receiver.descLength)) := by
  have total : totalLength (twoLengths ++ receiver.entries) =
      2 * fragmentOverhead + totalLength receiver.entries := by
    simp only [totalLength_append, twoLengths, totalLength_cons,
      totalLength_nil, lengthEntry]
    omega
  have count : (twoLengths ++ receiver.entries).length =
      receiver.entries.length + 2 := by
    simp only [twoLengths, List.length_append, List.length_cons,
      List.length_nil]
    omega
  have few : ¬ descMax < receiver.header.descLength := by
    simp only [Receiver.header]
    omega
  unfold imcRecvmsg
  rw [count, if_neg fits, if_neg few]
  simp only [total]
  refine ⟨rfl, ?_, ?_, rfl, rfl, rfl, rfl, rfl⟩
  · rw [firstStored, List.length_take]
    omega
  · rw [List.length_take]
    exact Nat.min_le_left _ _

theorem firstRead_buffered
    {receiver : Receiver} (buffers : Buffers δ) (buffered : Buffered δ) :
    FirstRead receiver buffers
      (messageChannelBufferRead (twoLengths ++ receiver.entries)
        receiver.header buffers buffered)
      (buffered.bytes.take (2 * fragmentOverhead +
        totalLength receiver.entries))
      (buffered.descs.take (min descMax receiver.descLength)) := by
  have total : totalLength (twoLengths ++ receiver.entries) =
      2 * fragmentOverhead + totalLength receiver.entries := by
    simp only [totalLength_append, twoLengths, totalLength_cons,
      totalLength_nil, lengthEntry]
    omega
  unfold messageChannelBufferRead
  simp only [total]
  refine ⟨rfl, ?_, ?_, rfl, rfl, rfl, rfl, rfl⟩
  · rw [List.length_take]
    exact Nat.min_le_left _ _
  · rw [List.length_take]
    exact Nat.min_le_left _ _

def firstFragmentOf (bytes : List UInt8) (descs : List δ) : Fragment δ where
  claim := .ofBytes ((bytes.drop fragmentOverhead).take fragmentOverhead)
  payload := bytes.drop (2 * fragmentOverhead)
  descs := descs

def totalOf (bytes : List UInt8) : LengthHeader :=
  .ofBytes (bytes.take fragmentOverhead)

section First

variable {receiver : Receiver} {buffers : Buffers δ} {received : Received δ}
  {bytes : List UInt8} {descs : List δ}

def afterFirst (receiver : Receiver) (received : Received δ)
    (bytes : List UInt8) (descs : List δ) : Receiving δ :=
  let fragment := firstFragmentOf bytes descs
  let consumed := consumeFragment (twoLengths ++ receiver.entries)
    received.header fragment.claim 2
  { vector := consumed.1
    copy := consumed.2
    buffers := received.buffers
    total := totalOf bytes
    processed := fragment.claim
    bytesReceived := fragment.payload.length
    descsReceived := descs.length }

private theorem FirstRead.memory
    (read : FirstRead receiver buffers received bytes descs)
    (long : 2 * fragmentOverhead ≤ bytes.length) :
    received.buffers.memory =
      writeAll
        (writeAll
          (writeAll buffers.memory (lengthEntry .totalSize).places
            (bytes.take fragmentOverhead))
          (lengthEntry .fragmentSize).places
          ((bytes.drop fragmentOverhead).take fragmentOverhead))
        (places receiver.entries) (bytes.drop (2 * fragmentOverhead)) := by
  have rest : bytes.drop (2 * fragmentOverhead) =
      (bytes.drop fragmentOverhead).drop fragmentOverhead := by
    rw [List.drop_drop]
    congr 1
  rw [read.stored, rest, ← writeAll_append, List.take_append_drop,
    ← writeAll_append, List.take_append_drop]
  · rfl
  · rw [IoVec.length_places, List.length_take]
    simp only [lengthEntry]
    omega
  · rw [IoVec.length_places, List.length_take, List.length_drop]
    simp only [lengthEntry]
    omega

private theorem lengthEntry_apart {object other : Object} (differ : object ≠ other) :
    ∀ place ∈ (lengthEntry object).places, place.object ≠ other := by
  intro place member
  obtain ⟨index, -, rfl⟩ := List.mem_map.mp member
  exact differ

private theorem entries_apart {object : Object} (differ : object ≠ .caller) :
    ∀ place ∈ places receiver.entries, place.object ≠ object := by
  intro place member
  rw [callerEntries_ioVec receiver.iov place member]
  exact differ.symm

private theorem FirstRead.lengths
    (read : FirstRead receiver buffers received bytes descs)
    (long : 2 * fragmentOverhead ≤ bytes.length) :
    readLength received.buffers.memory .totalSize = totalOf bytes ∧
      readLength received.buffers.memory .fragmentSize =
        (firstFragmentOf bytes descs).claim := by
  rw [read.memory long]
  constructor
  · rw [readLength_outside (entries_apart (by decide)),
      readLength_outside (lengthEntry_apart (by decide)), readLength_writeAll]
    · rfl
    · rw [List.length_take]
      omega
  · rw [readLength_outside (entries_apart (by decide)), readLength_writeAll]
    · rfl
    · rw [List.length_take, List.length_drop]
      omega

theorem FirstRead.acceptFirst_eq
    (read : FirstRead receiver buffers received bytes descs) :
    acceptFirst (twoLengths ++ receiver.entries) received =
      if bytes.length < 2 * fragmentOverhead then .error (-eio)
      else if messageLengthsAreSane (totalOf bytes)
          (firstFragmentOf bytes descs).claim bytes.length descs.length then
        .ok (afterFirst receiver received bytes descs)
      else .error (-eio) := by
  unfold acceptFirst
  simp only [read.result, Nat.cast_lt]
  by_cases long : bytes.length < 2 * fragmentOverhead
  · rw [if_pos long, if_pos long]
    unfold errnoFromImcRet
    rw [if_neg (by omega)]
  · obtain ⟨total, claim⟩ := read.lengths (Nat.le_of_not_lt long)
    have payload : bytes.length - 2 * fragmentOverhead =
        (firstFragmentOf bytes descs).payload.length := by
      simp only [firstFragmentOf, List.length_drop]
    rw [if_neg long, if_neg long, total, claim]
    simp only [Int.toNat_natCast, read.descLength, payload, afterFirst]

section After

variable (read : FirstRead receiver buffers received bytes descs)

include read

private theorem FirstRead.stands :
    Stands (twoLengths ++ receiver.entries) received.header
      (twoLengths ++ receiver.entries) where
  split := ⟨[], rfl, read.iov.symm⟩
  length := by
    rw [read.iovLength]
    simp only [twoLengths, List.length_append, List.length_cons,
      List.length_nil]
    omega

theorem FirstRead.after :
    ReceivePoint (afterFirst receiver received bytes descs)
      (consumedEntries receiver.entries
        (firstFragmentOf bytes descs).claim.byteCount).1 := by
  obtain ⟨next, further⟩ :=
    read.stands.consumeFragment (firstFragmentOf bytes descs).claim
  refine ⟨next, ?_, (callerEntries_ioVec _).consumed _⟩
  exact Nat.lt_of_lt_of_le (Nat.succ_pos _) further

theorem FirstRead.after_flags :
    (afterFirst receiver received bytes descs).copy.flags =
      ⟨received.header.flags.dataTruncated ||
          decide (totalLength receiver.entries <
            (firstFragmentOf bytes descs).claim.byteCount),
        received.header.flags.descTruncated ||
          decide (descs.length <
            (firstFragmentOf bytes descs).claim.descCount)⟩ := by
  have flags := read.stands.consumeFragment_flags
    (firstFragmentOf bytes descs).claim
  rw [read.descLength] at flags
  exact flags

theorem FirstRead.after_memory
    (long : 2 * fragmentOverhead ≤ bytes.length) :
    callerMemory (afterFirst receiver received bytes descs).buffers.memory =
      writeAll (callerMemory buffers.memory) (offsets receiver.entries)
        (firstFragmentOf bytes descs).payload := by
  have written : (afterFirst receiver received bytes descs).buffers.memory =
      received.buffers.memory := rfl
  have caller : CallerEntries receiver.entries :=
    callerEntries_ioVec receiver.iov
  rw [written, read.memory long, callerMemory_writeAll caller,
    callerMemory_length (by decide), callerMemory_length (by decide)]
  rfl

theorem FirstRead.after_descs :
    (afterFirst receiver received bytes descs).buffers.descs =
      writeAll buffers.descs
        (List.range' 0 (min descMax receiver.descLength)) descs := by
  have written : (afterFirst receiver received bytes descs).buffers.descs =
      received.buffers.descs := rfl
  rw [written, read.stored]
  rfl

end After

end First

end NativeClient.Srpc
