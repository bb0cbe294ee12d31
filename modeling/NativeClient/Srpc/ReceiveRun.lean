import NativeClient.Srpc.Fragments

/-!
# A run of `Receive`

A turn of the loop reads one datagram: the length that it claims, and the
bytes after that, which go to the entries that are left.  The entries are then
consumed by the claimed length, which may be more than what was read.  These
lemmas say what one turn does for any datagram at all.
-/

namespace NativeClient.Srpc

open NativeClient.Library

variable {δ : Type}

section Memory

def callerMemory (memory : Memory) (address : Nat) : UInt8 :=
  memory ⟨.caller, address⟩

def offsets (entries : List IoVec) : List Nat :=
  (places entries).map Place.offset

def CallerEntries (entries : List IoVec) : Prop :=
  ∀ place ∈ places entries, place.object = .caller

@[simp] theorem length_offsets (entries : List IoVec) :
    (offsets entries).length = totalLength entries := by
  rw [offsets, List.length_map, length_places]

theorem offsets_consumed (entries : List IoVec) (byteCount : Nat) :
    offsets (consumedEntries entries byteCount).1 =
      (offsets entries).drop byteCount := by
  unfold offsets
  rw [places_consumed, List.map_drop]

theorem CallerEntries.consumed
    {entries : List IoVec} (caller : CallerEntries entries) (byteCount : Nat) :
    CallerEntries (consumedEntries entries byteCount).1 := by
  intro place member
  rw [places_consumed] at member
  exact caller place (List.mem_of_mem_drop member)

theorem callerEntries_ioVec (buffers : List UserBuffer) :
    CallerEntries (buffers.map UserBuffer.ioVec) := by
  intro place member
  rw [places_ioVec] at member
  obtain ⟨address, -, rfl⟩ := List.mem_map.mp member
  rfl

theorem offsets_ioVec (buffers : List UserBuffer) :
    offsets (buffers.map UserBuffer.ioVec) = addresses buffers := by
  unfold offsets
  rw [places_ioVec, List.map_map]
  exact List.map_id _

variable {memory : Memory} {bytes : List UInt8} {object : Object}

theorem callerMemory_writeAll
    {targets : List Place}
    (caller : ∀ place ∈ targets, place.object = .caller) :
    callerMemory (writeAll memory targets bytes) =
      writeAll (callerMemory memory) (targets.map Place.offset) bytes := by
  induction targets generalizing memory bytes with
  | nil => rfl
  | cons target targets ih =>
      cases bytes with
      | nil => rfl
      | cons byte bytes =>
          obtain ⟨object, offset⟩ := target
          obtain rfl : object = .caller := caller _ List.mem_cons_self
          rw [writeAll, List.map_cons, writeAll,
            ih fun place member => caller place (List.mem_cons_of_mem _ member)]
          congr 1
          funext address
          simp only [callerMemory, writeOne, Place.mk.injEq, true_and]

theorem callerMemory_length
    (other : object ≠ .caller) :
    callerMemory (writeAll memory (lengthEntry object).places bytes) =
      callerMemory memory := by
  funext address
  unfold callerMemory
  apply writeAll_outside
  intro member
  have written := List.mem_of_mem_take member
  obtain ⟨index, -, same⟩ := List.mem_map.mp written
  cases same
  exact other rfl

private theorem nodup_places (entry : IoVec) : entry.places.Nodup := by
  apply List.Nodup.map
  · intro index other same
    simp only [Place.mk.injEq, true_and] at same
    omega
  · exact List.nodup_range

theorem readLength_writeAll
    (whole : bytes.length = fragmentOverhead) :
    readLength (writeAll memory (lengthEntry object).places bytes) object =
      .ofBytes bytes := by
  have back := @map_writeAll Place UInt8 _ memory (lengthEntry object).places
    bytes (nodup_places _) (by
      rw [IoVec.length_places, whole]
      exact Nat.le_refl _)
  rw [whole, List.take_of_length_le (by
    rw [IoVec.length_places]
    exact Nat.le_refl _)] at back
  unfold readLength
  rw [back]

theorem readLength_outside
    {targets : List Place}
    (apart : ∀ place ∈ targets, place.object ≠ object) :
    readLength (writeAll memory targets bytes) object =
      readLength memory object := by
  unfold readLength
  congr 1
  apply List.map_congr_left
  intro place member
  apply writeAll_outside
  intro written
  obtain ⟨index, -, rfl⟩ := List.mem_map.mp member
  exact apart _ (List.mem_of_mem_take written) rfl

end Memory

/-- What was accepted of a datagram: the length that it claims, the bytes that
were stored, and the descriptors. -/
structure Fragment (δ : Type) where
  claim : LengthHeader
  payload : List UInt8
  descs : List δ

section Turn

variable {state : Receiving δ} {entries : List IoVec}
  {iovecMax descRoom : Nat} {datagram : Datagram δ} {header : MessageHeader}
  {buffers : Buffers δ}

def stored (entries : List IoVec) (datagram : Datagram δ) : List UInt8 :=
  datagram.bytes.take
    (min (fragmentOverhead + totalLength entries) imcUserBytesMax)

def fragmentOf (descRoom : Nat) (state : Receiving δ) (entries : List IoVec)
    (datagram : Datagram δ) : Fragment δ where
  claim := .ofBytes ((stored entries datagram).take fragmentOverhead)
  payload := (stored entries datagram).drop fragmentOverhead
  descs := datagram.descs.take (min descMax (descRoom - state.descsReceived))

structure ReceivePoint (state : Receiving δ) (entries : List IoVec) : Prop where
  stands : Stands state.vector state.copy entries
  slot : 0 < state.copy.iov
  caller : CallerEntries entries

theorem ReceivePoint.prepared (point : ReceivePoint state entries) :
    Stands (nextFragment descRoom state).1 (nextFragment descRoom state).2
      (lengthEntry .fragmentSize :: entries) := by
  obtain ⟨split, length⟩ := point.stands.addFragmentLength point.slot
  exact ⟨split, length⟩

def receivedOf (entries : List IoVec) (header : MessageHeader)
    (buffers : Buffers δ) (datagram : Datagram δ) : Received δ :=
  let bytes := stored entries datagram
  let descs := datagram.descs.take header.descLength
  let lost := decide (header.descLength < datagram.descs.length)
  ⟨(bytes.length : Int),
    { header with
      descLength := descs.length
      flags.descTruncated := header.flags.descTruncated || lost },
    deliver (lengthEntry .fragmentSize :: entries) header buffers bytes descs⟩

private theorem imcRecvmsg_arrived
    (fits : ¬ iovecMax < entries.length + 1)
    (few : header.descLength ≤ descMax) :
    imcRecvmsg iovecMax (lengthEntry .fragmentSize :: entries) header buffers
        (.arrived datagram) = receivedOf entries header buffers datagram := by
  unfold imcRecvmsg
  rw [List.length_cons, if_neg fits, if_neg (Nat.not_lt.mpr few)]
  rfl

def afterTurn (descRoom : Nat) (state : Receiving δ) (entries : List IoVec)
    (datagram : Datagram δ) : Receiving δ :=
  let next := nextFragment descRoom state
  let fragment := fragmentOf descRoom state entries datagram
  let received := receivedOf entries next.2 state.buffers datagram
  let consumed := consumeFragment next.1 received.header fragment.claim 1
  { vector := consumed.1
    copy := consumed.2
    buffers := received.buffers
    total := state.total
    processed :=
      ⟨(state.processed.byteCount + fragment.claim.byteCount) % 2 ^ 32,
        (state.processed.descCount + fragment.claim.descCount) % 2 ^ 32⟩
    bytesReceived := state.bytesReceived + fragment.payload.length
    descsReceived := state.descsReceived + fragment.descs.length }

private theorem receivedOf_memory
    (long : fragmentOverhead ≤ (stored entries datagram).length) :
    (receivedOf entries header buffers datagram).buffers.memory =
      writeAll
        (writeAll buffers.memory (lengthEntry .fragmentSize).places
          ((stored entries datagram).take fragmentOverhead))
        (places entries) ((stored entries datagram).drop fragmentOverhead) := by
  unfold receivedOf deliver
  rw [← writeAll_append, List.take_append_drop]
  · rfl
  · rw [IoVec.length_places, List.length_take, Nat.min_eq_left long]
    rfl

private theorem readLength_receivedOf
    (caller : CallerEntries entries)
    (long : fragmentOverhead ≤ (stored entries datagram).length) :
    readLength (receivedOf entries header buffers datagram).buffers.memory
        .fragmentSize =
      .ofBytes ((stored entries datagram).take fragmentOverhead) := by
  rw [receivedOf_memory long, readLength_outside, readLength_writeAll]
  · rw [List.length_take, Nat.min_eq_left long]
  · intro place member
    rw [caller place member]
    decide

theorem ReceivePoint.receiveTurn_arrived
    (point : ReceivePoint state entries) :
    receiveTurn iovecMax descRoom state (.arrived datagram) =
      let fragment := fragmentOf descRoom state entries datagram
      if iovecMax < entries.length + 1 then .error (-einval)
      else if (stored entries datagram).length < fragmentOverhead then
        .error (-eio)
      else if fragmentLengthIsSane fragment.claim
          (stored entries datagram).length fragment.descs.length then
        .ok (afterTurn descRoom state entries datagram)
      else .error (-eio) := by
  have stands := @ReceivePoint.prepared _ _ _ descRoom point
  have few : (nextFragment descRoom state).2.descLength ≤ descMax :=
    Nat.min_le_left _ _
  unfold receiveTurn
  simp only [stands.view_eq]
  by_cases fits : iovecMax < entries.length + 1
  · unfold imcRecvmsg acceptNext
    rw [if_pos fits, List.length_cons, if_pos fits]
    rfl
  rw [if_neg fits, imcRecvmsg_arrived fits few]
  unfold acceptNext
  by_cases long : (stored entries datagram).length < fragmentOverhead
  · have short : (receivedOf entries (nextFragment descRoom state).2
        state.buffers datagram).result < (fragmentOverhead : Int) := by
      simp only [receivedOf]
      omega
    have errno : errnoFromImcRet (receivedOf entries
        (nextFragment descRoom state).2 state.buffers datagram).result =
          -eio := by
      unfold errnoFromImcRet
      rw [if_neg]
      simp only [receivedOf]
      omega
    rw [if_pos long, if_pos short, errno]
  · have enough : ¬ (receivedOf entries (nextFragment descRoom state).2
        state.buffers datagram).result < (fragmentOverhead : Int) := by
      simp only [receivedOf]
      omega
    rw [if_neg long, if_neg enough,
      readLength_receivedOf point.caller (Nat.le_of_not_lt long)]
    have payload : (stored entries datagram).length - fragmentOverhead =
        (fragmentOf descRoom state entries datagram).payload.length := by
      simp only [fragmentOf, List.length_drop]
    simp only [afterTurn, receivedOf, Int.toNat_natCast, ← payload]
    rfl

theorem receiveTurn_failed (point : ReceivePoint state entries) (errno : Nat) :
    ∃ result, receiveTurn iovecMax descRoom state (.failed errno) =
      .error result := by
  have stands := @ReceivePoint.prepared _ _ _ descRoom point
  have few : (nextFragment descRoom state).2.descLength ≤ descMax :=
    Nat.min_le_left _ _
  unfold receiveTurn acceptNext imcRecvmsg
  simp only [stands.view_eq]
  rw [if_neg (Nat.not_lt.mpr few)]
  split
  next => exact ⟨_, rfl⟩
  next =>
      rw [if_pos]
      · exact ⟨_, rfl⟩
      · simp only [fragmentOverhead]
        omega

theorem fragmentLengthIsSane_iff
    {claim : LengthHeader} {bytes descs : Nat} :
    fragmentLengthIsSane claim bytes descs = true ↔
      bytes - fragmentOverhead ≤ claim.byteCount ∧ descs ≤ claim.descCount ∧
        ¬ (claim.byteCount = fragmentOverhead ∧ claim.descCount = 0) := by
  unfold fragmentLengthIsSane
  split
  next short => simp only [Bool.false_eq_true, false_iff]; omega
  next long =>
      split
      next empty => simp only [Bool.false_eq_true, false_iff]; omega
      next => simp only [true_iff]; omega

section After

variable (point : ReceivePoint state entries) (datagram)

include point

theorem ReceivePoint.after :
    ReceivePoint (afterTurn descRoom state entries datagram)
      (consumedEntries entries
        (fragmentOf descRoom state entries datagram).claim.byteCount).1 := by
  obtain ⟨split, length⟩ := @ReceivePoint.prepared _ _ _ descRoom point
  have stands : Stands (nextFragment descRoom state).1
      (receivedOf entries (nextFragment descRoom state).2 state.buffers
        datagram).header ([lengthEntry .fragmentSize] ++ entries) :=
    ⟨split, length⟩
  obtain ⟨next, further⟩ := stands.consumeFragment
    (fragmentOf descRoom state entries datagram).claim
  refine ⟨next, ?_, point.caller.consumed _⟩
  rw [List.length_singleton] at further
  exact Nat.lt_of_lt_of_le (Nat.succ_pos _) further

theorem ReceivePoint.after_flags :
    (afterTurn descRoom state entries datagram).copy.flags =
      ⟨state.copy.flags.dataTruncated || decide (totalLength entries <
          (fragmentOf descRoom state entries datagram).claim.byteCount),
        (state.copy.flags.descTruncated ||
          decide (min descMax (descRoom - state.descsReceived) <
            datagram.descs.length)) ||
          decide ((fragmentOf descRoom state entries datagram).descs.length <
            (fragmentOf descRoom state entries datagram).claim.descCount)⟩ := by
  obtain ⟨split, length⟩ := @ReceivePoint.prepared _ _ _ descRoom point
  have stands : Stands (nextFragment descRoom state).1
      (receivedOf entries (nextFragment descRoom state).2 state.buffers
        datagram).header ([lengthEntry .fragmentSize] ++ entries) :=
    ⟨split, length⟩
  exact stands.consumeFragment_flags
    (fragmentOf descRoom state entries datagram).claim

theorem ReceivePoint.after_memory
    (long : fragmentOverhead ≤ (stored entries datagram).length) :
    callerMemory (afterTurn descRoom state entries datagram).buffers.memory =
      writeAll (callerMemory state.buffers.memory) (offsets entries)
        (fragmentOf descRoom state entries datagram).payload := by
  have written : (afterTurn descRoom state entries datagram).buffers.memory =
      (receivedOf entries (nextFragment descRoom state).2 state.buffers
        datagram).buffers.memory := rfl
  rw [written, receivedOf_memory long, callerMemory_writeAll point.caller,
    callerMemory_length (by decide)]
  rfl

omit point in
theorem after_descs :
    (afterTurn descRoom state entries datagram).buffers.descs =
      writeAll state.buffers.descs
        (List.range' state.descsReceived
          (min descMax (descRoom - state.descsReceived)))
        (fragmentOf descRoom state entries datagram).descs := rfl

end After

theorem length_payload_le :
    (fragmentOf descRoom state entries datagram).payload.length ≤
      totalLength entries := by
  simp only [fragmentOf, stored, List.length_drop, List.length_take]
  omega

end Turn

end NativeClient.Srpc
