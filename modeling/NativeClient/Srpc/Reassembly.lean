import NativeClient.Srpc.ReceiveFirst

/-!
# Putting a message together

As long as every fragment carries the bytes that it claims, or fills all of
the room, the bytes that were received are next to each other at the beginning
of the caller's buffers.  The descriptors always are.
-/

namespace NativeClient.Srpc

open NativeClient.Library

variable {δ : Type}

private theorem range_window {room start count : Nat}
    (within : start + count ≤ room) :
    List.range' start count =
      ((List.range' 0 room).drop start).take count := by
  apply List.ext_getElem
  · rw [List.length_range', List.length_take, List.length_drop,
      List.length_range']
    omega
  · intro index _ _
    simp only [List.getElem_range', List.getElem_take, List.getElem_drop]
    omega

private theorem writeAll_window
    {memory : Nat → δ} {room count : Nat} {first second : List δ}
    (within : first.length + count ≤ room) (few : second.length ≤ count) :
    writeAll (writeAll memory (List.range' 0 room) first)
        (List.range' first.length count) second =
      writeAll memory (List.range' 0 room) (first ++ second) := by
  rw [range_window within, writeAll_take few, writeAll_drop]
  rw [List.length_range']
  omega

structure Contiguous (receiver : Receiver) (start : Buffers δ)
    (state : Receiving δ) (entries : List IoVec) (payload : List UInt8)
    (descs : List δ) : Prop where
  point : ReceivePoint state entries
  memory : callerMemory state.buffers.memory =
    writeAll (callerMemory start.memory) (addresses receiver.iov) payload
  here : offsets entries = (addresses receiver.iov).drop payload.length
  fits : payload.length ≤ (addresses receiver.iov).length
  bytes : state.bytesReceived = payload.length
  descBuffer : state.buffers.descs =
    writeAll start.descs (List.range' 0 receiver.descLength) descs
  descCount : state.descsReceived = descs.length
  descFits : descs.length ≤ receiver.descLength

def Fragment.Carries (fragment : Fragment δ) (room : Nat) : Prop :=
  fragment.payload.length = fragment.claim.byteCount ∨
    (room ≤ fragment.payload.length ∧ room ≤ fragment.claim.byteCount)

instance (fragment : Fragment δ) (room : Nat) :
    Decidable (fragment.Carries room) :=
  inferInstanceAs (Decidable (_ ∨ _))

private theorem drop_carried
    {all : List Nat} {before : Nat} {fragment : Fragment δ}
    (carries : fragment.Carries (all.drop before).length) :
    (all.drop before).drop fragment.claim.byteCount =
      all.drop (before + fragment.payload.length) := by
  rcases carries with same | ⟨filled, beyond⟩
  · rw [List.drop_drop, same]
  · rw [List.length_drop] at filled beyond
    rw [List.drop_drop, List.drop_eq_nil_of_le (by omega),
      List.drop_eq_nil_of_le (by omega)]

section Turn

variable {receiver : Receiver} {start : Buffers δ} {state : Receiving δ}
  {entries : List IoVec} {payload : List UInt8} {descs : List δ}
  {datagram : Datagram δ}

theorem Contiguous.after
    (whole : Contiguous receiver start state entries payload descs)
    (long : fragmentOverhead ≤ (stored entries datagram).length)
    (carries : (fragmentOf receiver.descLength state entries
      datagram).Carries (totalLength entries)) :
    Contiguous receiver start
      (afterTurn receiver.descLength state entries datagram)
      (consumedEntries entries (fragmentOf receiver.descLength state entries
        datagram).claim.byteCount).1
      (payload ++
        (fragmentOf receiver.descLength state entries datagram).payload)
      (descs ++
        (fragmentOf receiver.descLength state entries datagram).descs) := by
  have room : (addresses receiver.iov).length - payload.length =
      totalLength entries := by
    rw [← List.length_drop, ← whole.here, length_offsets]
  have stays := @length_payload_le _ state entries receiver.descLength datagram
  have few : (fragmentOf receiver.descLength state entries
      datagram).descs.length ≤
        min descMax (receiver.descLength - descs.length) := by
    simp only [fragmentOf, List.length_take, whole.descCount]
    exact Nat.min_le_left _ _
  have fits := whole.fits
  have descFits := whole.descFits
  refine ⟨whole.point.after datagram, ?_, ?_, ?_, ?_, ?_, ?_, ?_⟩
  · rw [whole.point.after_memory datagram long, whole.memory, whole.here,
      writeAll_drop fits]
  · rw [offsets_consumed, whole.here, List.length_append]
    apply drop_carried
    rw [List.length_drop, room]
    exact carries
  · rw [List.length_append]
    omega
  · rw [List.length_append, ← whole.bytes]
    rfl
  · rw [after_descs, whole.descBuffer, whole.descCount]
    apply writeAll_window
    · omega
    · exact few
  · rw [List.length_append, ← whole.descCount]
    rfl
  · rw [List.length_append]
    omega

theorem FirstRead.contiguous
    {received : Received δ} {bytes : List UInt8}
    (read : FirstRead receiver start received bytes descs)
    (long : 2 * fragmentOverhead ≤ bytes.length)
    (carries : (firstFragmentOf bytes descs).Carries
      (totalLength receiver.entries)) :
    Contiguous receiver start (afterFirst receiver received bytes descs)
      (consumedEntries receiver.entries
        (firstFragmentOf bytes descs).claim.byteCount).1
      (firstFragmentOf bytes descs).payload descs := by
  have all : offsets receiver.entries = addresses receiver.iov :=
    offsets_ioVec receiver.iov
  have room : (addresses receiver.iov).length = totalLength receiver.entries := by
    rw [← all, length_offsets]
  have fits := read.fits
  have few := read.fewDescs
  refine ⟨read.after, ?_, ?_, ?_, rfl, ?_, rfl, ?_⟩
  · rw [read.after_memory long, all]
  · rw [offsets_consumed, all]
    have dropped := @drop_carried _ (addresses receiver.iov) 0
      (firstFragmentOf bytes descs) (by rw [List.drop_zero, room]; exact carries)
    rw [List.drop_zero, Nat.zero_add] at dropped
    exact dropped
  · simp only [firstFragmentOf, List.length_drop]
    omega
  · rw [read.after_descs]
    have window := @writeAll_window _ start.descs receiver.descLength
      (min descMax receiver.descLength) [] descs
    simp only [writeAll_nil, List.length_nil, List.nil_append] at window
    apply window
    · omega
    · exact few
  · omega

end Turn

end NativeClient.Srpc
