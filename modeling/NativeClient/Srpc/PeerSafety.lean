import NativeClient.Srpc.Reassembly

/-!
# Fragments of any peer

Whatever datagrams come in, a receive stays within the caller's buffers.  It
does not check that a fragment carries what it claims, that it claims anything,
or that the claimed counts do not wrap around.  When the peer keeps to all
three, the processed counts grow with every fragment and the bytes received are
contiguous.
-/

namespace NativeClient.Srpc

open NativeClient.Library

variable {δ : Type}

inductive ReadsFirst (iovecMax : Nat) (receiver : Receiver)
    (start : Buffers δ) : Received δ → List UInt8 → List δ → Prop where
  | channel (datagram : Datagram δ) :
      ReadsFirst iovecMax receiver start
        (imcRecvmsg iovecMax (twoLengths ++ receiver.entries) receiver.header
          start (.arrived datagram))
        (firstStored receiver datagram)
        (datagram.descs.take (min descMax receiver.descLength))
  | buffer (buffered : Buffered δ) :
      ReadsFirst iovecMax receiver start
        (messageChannelBufferRead (twoLengths ++ receiver.entries)
          receiver.header start buffered)
        (buffered.bytes.take (2 * fragmentOverhead +
          totalLength receiver.entries))
        (buffered.descs.take (min descMax receiver.descLength))

def turnFragment (receiver : Receiver) (state : Receiving δ)
    (datagram : Datagram δ) : Fragment δ :=
  fragmentOf receiver.descLength state (view state.vector state.copy) datagram

inductive Reached (iovecMax : Nat) (receiver : Receiver)
    (start : Buffers δ) : List (Fragment δ) → Receiving δ → Prop where
  | first {received : Received δ} {bytes : List UInt8} {descs : List δ}
      {vector : List IoVec} {header : MessageHeader} {state : Receiving δ} :
      receiveHeader receiver = .ok (vector, header) →
      ReadsFirst iovecMax receiver start received bytes descs →
      acceptFirst vector received = .ok state →
      Reached iovecMax receiver start [firstFragmentOf bytes descs] state
  | next {log : List (Fragment δ)} {state next : Receiving δ}
      {datagram : Datagram δ} :
      Reached iovecMax receiver start log state →
      finished state = false →
      receiveTurn iovecMax receiver.descLength state (.arrived datagram) =
        .ok next →
      Reached iovecMax receiver start
        (log ++ [turnFragment receiver state datagram]) next

def claimedBytes (log : List (Fragment δ)) : Nat :=
  (log.map fun fragment => fragment.claim.byteCount).sum

def claimedDescs (log : List (Fragment δ)) : Nat :=
  (log.map fun fragment => fragment.claim.descCount).sum

def receivedBytes (log : List (Fragment δ)) : List UInt8 :=
  log.flatMap Fragment.payload

def receivedDescs (log : List (Fragment δ)) : List δ :=
  log.flatMap Fragment.descs

section Reached

variable {iovecMax : Nat} {receiver : Receiver} {start : Buffers δ}
  {log : List (Fragment δ)} {state : Receiving δ} {received : Received δ}
  {bytes : List UInt8} {descs : List δ} {entries : List IoVec}

private theorem entries_of_receiveHeader
    {vector : List IoVec} {header : MessageHeader}
    (opened : receiveHeader receiver = .ok (vector, header)) :
    vector = twoLengths ++ receiver.entries := by
  by_cases within : receiver.Within
  · rw [receiveHeader_eq within] at opened
    cases opened
    rfl
  · rw [receiveHeader_error within] at opened
    cases opened

private theorem ReadsFirst.firstRead
    (reads : ReadsFirst iovecMax receiver start received bytes descs)
    (accepted : acceptFirst (twoLengths ++ receiver.entries) received =
      .ok state) :
    FirstRead receiver start received bytes descs := by
  cases reads with
  | channel datagram =>
      by_cases fits : iovecMax < receiver.entries.length + 2
      · have refused : imcRecvmsg iovecMax (twoLengths ++ receiver.entries)
            receiver.header start (.arrived datagram) =
              ⟨-einval, receiver.header, start⟩ := by
          unfold imcRecvmsg
          rw [if_pos]
          simp only [twoLengths, List.length_append, List.length_cons,
            List.length_nil]
          omega
        rw [refused] at accepted
        cases accepted
      · exact firstRead_arrived start datagram fits
  | buffer buffered => exact firstRead_buffered start buffered

private theorem first_cases
    (read : FirstRead receiver start received bytes descs)
    (accepted : acceptFirst (twoLengths ++ receiver.entries) received =
      .ok state) :
    state = afterFirst receiver received bytes descs ∧
      2 * fragmentOverhead ≤ bytes.length ∧
      (firstFragmentOf bytes descs).payload.length ≤
        (firstFragmentOf bytes descs).claim.byteCount := by
  rw [read.acceptFirst_eq] at accepted
  split at accepted
  next => cases accepted
  next long =>
      split at accepted
      next sane =>
          cases accepted
          refine ⟨rfl, Nat.le_of_not_lt long, ?_⟩
          unfold messageLengthsAreSane at sane
          split at sane
          next => cases sane
          next =>
            split at sane
            next => cases sane
            next =>
              have carried := (fragmentLengthIsSane_iff.mp sane).1
              have payload : (firstFragmentOf bytes descs).payload.length =
                  bytes.length - 2 * fragmentOverhead := by
                simp only [firstFragmentOf, List.length_drop]
              omega
      next => cases accepted

private theorem turn_cases
    {datagram : Datagram δ} {next : Receiving δ}
    (point : ReceivePoint state entries)
    (accepted : receiveTurn iovecMax receiver.descLength state
      (.arrived datagram) = .ok next) :
    next = afterTurn receiver.descLength state entries datagram ∧
      fragmentOverhead ≤ (stored entries datagram).length ∧
      (fragmentOf receiver.descLength state entries datagram).payload.length ≤
        (fragmentOf receiver.descLength state entries
          datagram).claim.byteCount := by
  rw [point.receiveTurn_arrived] at accepted
  simp only at accepted
  split at accepted
  next => cases accepted
  next =>
      split at accepted
      next => cases accepted
      next long =>
          split at accepted
          next sane =>
              cases accepted
              refine ⟨rfl, Nat.le_of_not_lt long, ?_⟩
              have carried := (fragmentLengthIsSane_iff.mp sane).1
              simp only [fragmentOf, List.length_drop] at carried ⊢
              exact carried
          next => cases accepted

structure Bounded (receiver : Receiver) (start : Buffers δ)
    (log : List (Fragment δ)) (state : Receiving δ)
    (entries : List IoVec) : Prop where
  point : ReceivePoint state entries
  here : offsets entries = (addresses receiver.iov).drop (claimedBytes log)
  room : state.bytesReceived + totalLength entries ≤
    totalLength receiver.entries
  memory : ∀ address, address ∉ addresses receiver.iov →
    callerMemory state.buffers.memory address =
      callerMemory start.memory address
  descs : state.descsReceived ≤ receiver.descLength
  descBuffer : ∀ index, receiver.descLength ≤ index →
    state.buffers.descs index = start.descs index
  processed : state.processed =
    ⟨claimedBytes log % 2 ^ 32, claimedDescs log % 2 ^ 32⟩
  bytesReceived : state.bytesReceived = (receivedBytes log).length
  descsReceived : state.descsReceived = (receivedDescs log).length

theorem Bounded.left
    (bounded : Bounded receiver start log state entries) :
    totalLength entries = totalLength receiver.entries - claimedBytes log := by
  rw [← length_offsets entries, bounded.here, List.length_drop,
    ← length_offsets, ← offsets_ioVec]
  rfl

private theorem ofBytes_lt (bytes : List UInt8)
    (short : bytes.length ≤ fragmentOverhead) :
    (LengthHeader.ofBytes bytes).byteCount < 2 ^ 32 ∧
      (LengthHeader.ofBytes bytes).descCount < 2 ^ 32 := by
  have bound : ∀ part : List UInt8, part.length ≤ 4 →
      ofLittleEndian part < 2 ^ 32 := by
    intro part few
    have below := ofLittleEndian_lt part
    have power := Nat.pow_le_pow_right (by decide : 0 < 256) few
    exact Nat.lt_of_lt_of_le below power
  unfold fragmentOverhead at short
  constructor
  · apply bound
    exact List.length_take_le _ _
  · apply bound
    rw [List.length_drop]
    omega

theorem claimedBytes_concat (log : List (Fragment δ)) (fragment : Fragment δ) :
    claimedBytes (log ++ [fragment]) =
      claimedBytes log + fragment.claim.byteCount := by
  unfold claimedBytes
  rw [List.map_append, List.sum_append, List.map_singleton, List.sum_singleton]

theorem claimedDescs_concat (log : List (Fragment δ)) (fragment : Fragment δ) :
    claimedDescs (log ++ [fragment]) =
      claimedDescs log + fragment.claim.descCount := by
  unfold claimedDescs
  rw [List.map_append, List.sum_append, List.map_singleton, List.sum_singleton]

private theorem bounded_first
    (read : FirstRead receiver start received bytes descs)
    (long : 2 * fragmentOverhead ≤ bytes.length)
    (carried : (firstFragmentOf bytes descs).payload.length ≤
      (firstFragmentOf bytes descs).claim.byteCount) :
    Bounded receiver start [firstFragmentOf bytes descs]
      (afterFirst receiver received bytes descs)
      (consumedEntries receiver.entries
        (firstFragmentOf bytes descs).claim.byteCount).1 := by
  have all : offsets receiver.entries = addresses receiver.iov :=
    offsets_ioVec receiver.iov
  have few := read.fewDescs
  have small : (firstFragmentOf bytes descs).claim.byteCount < 2 ^ 32 ∧
      (firstFragmentOf bytes descs).claim.descCount < 2 ^ 32 :=
    ofBytes_lt _ (List.length_take_le _ _)
  refine ⟨read.after, ?_, ?_, ?_, ?_, ?_, ?_, ?_, ?_⟩
  · rw [offsets_consumed, all]
    rfl
  · have fits := read.fits
    have payload : (firstFragmentOf bytes descs).payload.length =
        bytes.length - 2 * fragmentOverhead := by
      simp only [firstFragmentOf, List.length_drop]
    rw [totalLength_consumed]
    simp only [afterFirst]
    omega
  · intro address outside
    rw [read.after_memory long, all]
    exact writeAll_outside fun member => outside (List.mem_of_mem_take member)
  · simp only [afterFirst]
    omega
  · intro index beyond
    rw [read.after_descs]
    apply writeAll_outside
    intro member
    have inside := List.mem_range'_1.mp (List.mem_of_mem_take member)
    omega
  · have bytesEq : claimedBytes [firstFragmentOf bytes descs] =
        (firstFragmentOf bytes descs).claim.byteCount := Nat.add_zero _
    have descsEq : claimedDescs [firstFragmentOf bytes descs] =
        (firstFragmentOf bytes descs).claim.descCount := Nat.add_zero _
    rw [bytesEq, descsEq, Nat.mod_eq_of_lt small.1, Nat.mod_eq_of_lt small.2]
    rfl
  · simp only [receivedBytes, List.flatMap_cons, List.flatMap_nil,
      List.append_nil]
    rfl
  · simp only [receivedDescs, List.flatMap_cons, List.flatMap_nil,
      List.append_nil]
    rfl

private theorem Bounded.after
    {entries : List IoVec} {datagram : Datagram δ}
    (bounded : Bounded receiver start log state entries)
    (long : fragmentOverhead ≤ (stored entries datagram).length)
    (carried : (fragmentOf receiver.descLength state entries
        datagram).payload.length ≤
      (fragmentOf receiver.descLength state entries datagram).claim.byteCount) :
    Bounded receiver start
      (log ++ [fragmentOf receiver.descLength state entries datagram])
      (afterTurn receiver.descLength state entries datagram)
      (consumedEntries entries (fragmentOf receiver.descLength state entries
        datagram).claim.byteCount).1 := by
  have few : (fragmentOf receiver.descLength state entries
      datagram).descs.length ≤
        min descMax (receiver.descLength - state.descsReceived) := by
    simp only [fragmentOf, List.length_take]
    exact Nat.min_le_left _ _
  have descs := bounded.descs
  refine ⟨bounded.point.after datagram, ?_, ?_, ?_, ?_, ?_, ?_, ?_, ?_⟩
  · rw [offsets_consumed, bounded.here, claimedBytes_concat, List.drop_drop]
  · have room := bounded.room
    have fits := @length_payload_le _ state entries receiver.descLength datagram
    rw [totalLength_consumed]
    simp only [afterTurn]
    omega
  · intro address outside
    rw [bounded.point.after_memory datagram long, writeAll_outside]
    · exact bounded.memory address outside
    · intro member
      have inside := List.mem_of_mem_take member
      rw [bounded.here] at inside
      exact outside (List.mem_of_mem_drop inside)
  · simp only [afterTurn]
    omega
  · intro index beyond
    rw [after_descs, writeAll_outside]
    · exact bounded.descBuffer index beyond
    · intro member
      have inside := List.mem_range'_1.mp (List.mem_of_mem_take member)
      omega
  · rw [claimedBytes_concat, claimedDescs_concat]
    simp only [afterTurn, bounded.processed, Nat.mod_add_mod]
  · simp only [receivedBytes, List.flatMap_append, List.flatMap_cons,
      List.flatMap_nil, List.append_nil, List.length_append, afterTurn,
      bounded.bytesReceived]
  · simp only [receivedDescs, List.flatMap_append, List.flatMap_cons,
      List.flatMap_nil, List.append_nil, List.length_append, afterTurn,
      bounded.descsReceived]

theorem Reached.bounded (reached : Reached iovecMax receiver start log state) :
    ∃ entries, Bounded receiver start log state entries := by
  induction reached with
  | first opened reads accepted =>
      obtain rfl := entries_of_receiveHeader opened
      have read := reads.firstRead accepted
      obtain ⟨rfl, long, carried⟩ := first_cases read accepted
      exact ⟨_, bounded_first read long carried⟩
  | next reached more accepted ih =>
      obtain ⟨entries, bounded⟩ := ih
      obtain ⟨rfl, long, carried⟩ := turn_cases bounded.point accepted
      unfold turnFragment
      rw [bounded.point.stands.view_eq]
      exact ⟨_, bounded.after long carried⟩

/-- Every fragment claims something and carries all bytes that it claims or
fills the room that is left, and the claimed counts stay below `2 ^ 32`. -/
structure Faithful (receiver : Receiver) (log : List (Fragment δ)) :
    Prop where
  carries : ∀ front fragment back, log = front ++ fragment :: back →
    fragment.Carries (totalLength receiver.entries - claimedBytes front)
  claims : ∀ fragment ∈ log,
    0 < fragment.claim.byteCount + fragment.claim.descCount
  bytes : claimedBytes log < 2 ^ 32
  descs : claimedDescs log < 2 ^ 32

theorem Faithful.concat
    {fragment : Fragment δ} (faithful : Faithful receiver (log ++ [fragment])) :
    Faithful receiver log ∧
      fragment.Carries (totalLength receiver.entries - claimedBytes log) := by
  obtain ⟨carries, claims, bytes, descs⟩ := faithful
  rw [claimedBytes_concat] at bytes
  rw [claimedDescs_concat] at descs
  refine ⟨⟨?_, ?_, by omega, by omega⟩, carries log fragment [] rfl⟩
  · intro front other back split
    apply carries front other (back ++ [fragment])
    rw [split, List.append_assoc, List.cons_append]
  · intro other member
    exact claims other (List.mem_append_left _ member)

theorem Reached.contiguous
    (reached : Reached iovecMax receiver start log state)
    (faithful : Faithful receiver log) :
    ∃ entries, Contiguous receiver start state entries (receivedBytes log)
      (receivedDescs log) := by
  induction reached with
  | first opened reads accepted =>
      obtain rfl := entries_of_receiveHeader opened
      have read := reads.firstRead accepted
      obtain ⟨rfl, long, -⟩ := first_cases read accepted
      have carries := faithful.carries [] _ [] rfl
      have whole := read.contiguous long carries
      simp only [receivedBytes, receivedDescs, List.flatMap_cons,
        List.flatMap_nil, List.append_nil]
      exact ⟨_, whole⟩
  | next reached more accepted ih =>
      obtain ⟨before, carries⟩ := faithful.concat
      obtain ⟨entries, whole⟩ := ih before
      obtain ⟨others, bounded⟩ := reached.bounded
      have same : others = entries := by
        rw [← bounded.point.stands.view_eq, whole.point.stands.view_eq]
      subst same
      obtain ⟨rfl, long, -⟩ := turn_cases whole.point accepted
      unfold turnFragment at carries ⊢
      rw [whole.point.stands.view_eq, ← bounded.left] at carries
      rw [whole.point.stands.view_eq]
      simp only [receivedBytes, receivedDescs, List.flatMap_append,
        List.flatMap_cons, List.flatMap_nil, List.append_nil]
      exact ⟨_, whole.after long carries⟩

structure InBounds (iovecMax : Nat) (receiver : Receiver) (start : Buffers δ)
    (state : Receiving δ) : Prop where
  vector : state.copy.iov + state.copy.iovLength = state.vector.length
  memory : ∀ address, address ∉ addresses receiver.iov →
    callerMemory state.buffers.memory address =
      callerMemory start.memory address
  next : ∀ incoming address, address ∉ addresses receiver.iov →
    callerMemory (imcRecvmsg iovecMax
      (view (nextFragment receiver.descLength state).1
        (nextFragment receiver.descLength state).2)
      (nextFragment receiver.descLength state).2 state.buffers
      incoming).buffers.memory address =
        callerMemory state.buffers.memory address
  bytes : state.bytesReceived ≤ (addresses receiver.iov).length
  descs : state.descsReceived ≤ receiver.descLength
  descBuffer : ∀ index, receiver.descLength ≤ index →
    state.buffers.descs index = start.descs index

theorem Bounded.inBounds
    (bounded : Bounded receiver start log state entries) :
    InBounds iovecMax receiver start state where
  vector := by
    obtain ⟨⟨front, whole, starts⟩, length⟩ := bounded.point.stands
    rw [whole, List.length_append, ← starts, length]
  memory := bounded.memory
  next := by
    intro incoming address outside
    rw [bounded.point.prepared.view_eq]
    unfold imcRecvmsg
    split
    next => rfl
    next =>
        split
        next => rfl
        next =>
          cases incoming with
          | failed errno => rfl
          | arrived datagram =>
              apply writeAll_outside
              intro written
              have member := List.mem_of_mem_take written
              rcases List.mem_append.mp member with inLength | inEntries
              · obtain ⟨index, -, same⟩ := List.mem_map.mp inLength
                cases same
              · have inside : address ∈ offsets entries :=
                  List.mem_map.mpr ⟨_, inEntries, rfl⟩
                rw [bounded.here] at inside
                exact outside (List.mem_of_mem_drop inside)
  bytes := by
    have room := bounded.room
    have all : (addresses receiver.iov).length =
        totalLength receiver.entries := by
      rw [← offsets_ioVec, length_offsets]
      rfl
    omega
  descs := bounded.descs
  descBuffer := bounded.descBuffer

def LengthHeader.Grows (before after : LengthHeader) : Prop :=
  before.byteCount ≤ after.byteCount ∧ before.descCount ≤ after.descCount ∧
    (before.byteCount < after.byteCount ∨ before.descCount < after.descCount)

structure Reassembled (receiver : Receiver) (log : List (Fragment δ))
    (state : Receiving δ) : Prop where
  processed : state.processed = ⟨claimedBytes log, claimedDescs log⟩
  grows : ∀ front fragment back, log = front ++ fragment :: back →
    LengthHeader.Grows ⟨claimedBytes front, claimedDescs front⟩
      ⟨claimedBytes (front ++ [fragment]), claimedDescs (front ++ [fragment])⟩
  count : state.bytesReceived = (receivedBytes log).length
  bytes : ((addresses receiver.iov).take state.bytesReceived).map
    (callerMemory state.buffers.memory) = receivedBytes log

theorem Reached.reassembled
    (apart : (addresses receiver.iov).Nodup)
    (reached : Reached iovecMax receiver start log state)
    (faithful : Faithful receiver log) :
    Reassembled receiver log state := by
  obtain ⟨others, bounded⟩ := reached.bounded
  obtain ⟨entries, whole⟩ := reached.contiguous faithful
  refine ⟨?_, ?_, whole.bytes, ?_⟩
  · rw [bounded.processed, Nat.mod_eq_of_lt faithful.bytes,
      Nat.mod_eq_of_lt faithful.descs]
  · intro front fragment back split
    have some := faithful.claims fragment (by
      rw [split]
      exact List.mem_append_right _ List.mem_cons_self)
    unfold LengthHeader.Grows
    rw [claimedBytes_concat, claimedDescs_concat]
    simp only
    omega
  · rw [whole.bytes, whole.memory]
    exact map_writeAll apart whole.fits

private theorem receiveLoop_reached
    {incomings left : List (Incoming δ)} {last : Receiving δ}
    (reached : Reached iovecMax receiver start log state)
    (succeeded : receiveLoop iovecMax receiver.descLength state incomings =
      .succeeded last left) :
    ∃ whole, Reached iovecMax receiver start whole last := by
  induction incomings generalizing log state with
  | nil =>
      unfold receiveLoop at succeeded
      split at succeeded
      next =>
          cases succeeded
          exact ⟨log, reached⟩
      next =>
          simp only at succeeded
          split at succeeded <;> cases succeeded
  | cons incoming incomings ih =>
      unfold receiveLoop at succeeded
      split at succeeded
      next =>
          cases succeeded
          exact ⟨log, reached⟩
      next more =>
          simp only at succeeded
          split at succeeded
          next => cases succeeded
          next =>
            obtain ⟨entries, bounded⟩ := reached.bounded
            cases incoming with
            | failed errno =>
                obtain ⟨result, errs⟩ := @receiveTurn_failed _ _ _ iovecMax
                  receiver.descLength bounded.point errno
                rw [errs] at succeeded
                cases succeeded
            | arrived datagram =>
                cases turn : receiveTurn iovecMax receiver.descLength state
                    (.arrived datagram) with
                | error result =>
                    rw [turn] at succeeded
                    cases succeeded
                | ok next =>
                    rw [turn] at succeeded
                    exact ih (.next reached (Bool.eq_false_iff.mpr more) turn)
                      succeeded

private theorem acceptFirst_failed (errno : Nat) :
    ∃ result, acceptFirst (twoLengths ++ receiver.entries)
      (imcRecvmsg iovecMax (twoLengths ++ receiver.entries) receiver.header
        start (.failed errno)) = .error result := by
  unfold acceptFirst
  rw [if_pos]
  · exact ⟨_, rfl⟩
  · unfold imcRecvmsg fragmentOverhead einval
    split
    next =>
        simp only
        omega
    next =>
        split
        next =>
          simp only
          omega
        next =>
          simp only
          omega

theorem receive_reached
    {buffered : Buffered δ} {incomings left : List (Incoming δ)}
    (succeeded : receive iovecMax receiver start buffered incomings =
      .succeeded state left) :
    ∃ log, Reached iovecMax receiver start log state := by
  unfold receive at succeeded
  by_cases within : receiver.Within
  swap
  · rw [receiveHeader_error within] at succeeded
    cases succeeded
  have opened := receiveHeader_eq within
  have viewed : view (twoLengths ++ receiver.entries) receiver.header =
      twoLengths ++ receiver.entries := by
    apply Stands.view_eq
    refine ⟨⟨[], rfl, rfl⟩, ?_⟩
    simp only [Receiver.header, twoLengths, List.length_append,
      List.length_cons, List.length_nil]
    omega
  rw [opened] at succeeded
  simp only [viewed] at succeeded
  split at succeeded
  next =>
      cases incomings with
      | nil => cases succeeded
      | cons incoming incomings =>
          cases incoming with
          | failed errno =>
              obtain ⟨result, errs⟩ :=
                @acceptFirst_failed _ iovecMax receiver start errno
              simp only [errs] at succeeded
              cases succeeded
          | arrived datagram =>
              simp only at succeeded
              split at succeeded
              next => cases succeeded
              next first accepted =>
                exact receiveLoop_reached
                  (.first opened (.channel datagram) accepted) succeeded
  next =>
      split at succeeded
      next => cases succeeded
      next first accepted =>
        exact receiveLoop_reached (.first opened (.buffer buffered) accepted)
          succeeded

end Reached

/-- A receive is safe in every state that it reaches.  The other half depends
on the peer: it holds as long as every fragment is what it claims. -/
theorem reassembly_safe
    (iovecMax : Nat) (receiver : Receiver) (start : Buffers δ)
    (apart : (addresses receiver.iov).Nodup) :
    (∀ buffered incomings state left,
      receive iovecMax receiver start buffered incomings =
        .succeeded state left →
      ∃ log, Reached iovecMax receiver start log state) ∧
    ∀ log state, Reached iovecMax receiver start log state →
      InBounds iovecMax receiver start state ∧
      (Faithful receiver log → Reassembled receiver log state) := by
  refine ⟨?_, ?_⟩
  · intro buffered incomings state left succeeded
    exact receive_reached succeeded
  · intro log state reached
    obtain ⟨entries, bounded⟩ := reached.bounded
    exact ⟨bounded.inBounds, reached.reassembled apart⟩

section Examples

def fourBytes : Receiver := ⟨[⟨0, 4⟩], 0⟩

def zeroed : Buffers Unit := ⟨fun _ => 0, fun _ => ()⟩

def firstDatagram (total claim : LengthHeader) (bytes : List UInt8) :
    Incoming Unit :=
  .arrived ⟨total.bytes ++ claim.bytes ++ bytes, []⟩

def nextDatagram (claim : LengthHeader) (bytes : List UInt8) : Incoming Unit :=
  .arrived ⟨claim.bytes ++ bytes, []⟩

def seen : Outcome Unit → Option (Nat × List UInt8)
  | .succeeded state _ =>
      some (state.bytesReceived,
        (List.range 4).map (callerMemory state.buffers.memory))
  | _ => none

private theorem apart_fourBytes : (addresses fourBytes.iov).Nodup := by decide

def oneByte : Datagram Unit :=
  ⟨LengthHeader.bytes ⟨1, 0⟩ ++ LengthHeader.bytes ⟨1, 0⟩ ++ [7], []⟩

private theorem reached_oneByte :
    Reached 256 fourBytes zeroed
      [firstFragmentOf (firstStored fourBytes oneByte) []]
      (afterFirst fourBytes
        (imcRecvmsg 256 (twoLengths ++ fourBytes.entries) fourBytes.header
          zeroed (.arrived oneByte))
        (firstStored fourBytes oneByte) []) :=
  .first (receiveHeader_eq (by decide)) (.channel oneByte) rfl

private theorem faithful_oneByte :
    Faithful fourBytes
      [firstFragmentOf (firstStored fourBytes oneByte) ([] : List Unit)] where
  carries := by
    intro front fragment back split
    cases front with
    | nil =>
        cases split
        exact .inl (by decide)
    | cons first front => simp at split
  claims := by
    intro fragment member
    rw [List.mem_singleton.mp member]
    decide
  bytes := by decide
  descs := by decide

theorem reassembly_safe_oneByte :
    ∃ log state, Reached 256 fourBytes zeroed log state ∧
      Faithful fourBytes log ∧ InBounds 256 fourBytes zeroed state ∧
      Reassembled fourBytes log state := by
  obtain ⟨inBounds, reassembled⟩ :=
    (reassembly_safe 256 fourBytes zeroed apart_fourBytes).2 _ _
      reached_oneByte
  exact ⟨_, _, reached_oneByte, faithful_oneByte, inBounds,
    reassembled faithful_oneByte⟩

private structure Stuck (state : Receiving Unit) (entries : List IoVec) :
    Prop where
  point : ReceivePoint state entries
  total : state.total = ⟨1, 0⟩
  processed : state.processed = ⟨0, 0⟩
  short : entries.length + 1 ≤ 256
  room : totalLength entries + fragmentOverhead ≤ abiSsizeMax

def nothing : Datagram Unit := ⟨LengthHeader.bytes ⟨0, 0⟩, []⟩

private theorem stored_nothing (entries : List IoVec) :
    stored entries nothing = nothing.bytes := by
  unfold stored
  apply List.take_of_length_le
  unfold imcUserBytesMax
  simp only [nothing, length_lengthHeader_bytes, fragmentOverhead]
  omega

private theorem Stuck.turn
    {state : Receiving Unit} {entries : List IoVec}
    (stuck : Stuck state entries) :
    ∃ next, receiveTurn 256 0 state (.arrived nothing) = .ok next ∧
      Stuck next entries := by
  have fragment : fragmentOf 0 state entries nothing =
      ⟨⟨0, 0⟩, [], []⟩ := by
    unfold fragmentOf
    rw [stored_nothing]
    simp only [nothing, List.take_nil]
    rfl
  refine ⟨afterTurn 0 state entries nothing, ?_, ?_⟩
  · rw [stuck.point.receiveTurn_arrived]
    have short := stuck.short
    simp only [fragment, stored_nothing]
    rw [if_neg (by omega)]
    rfl
  · have next := @ReceivePoint.after _ _ _ 0 nothing stuck.point
    rw [fragment, consumedEntries_zero] at next
    refine ⟨next, stuck.total, ?_, stuck.short, stuck.room⟩
    simp only [afterTurn, fragment, stuck.processed]
    rfl

private theorem Stuck.waiting
    {state : Receiving Unit} {entries : List IoVec}
    (stuck : Stuck state entries) (count : Nat) :
    receiveLoop 256 0 state (List.replicate count (.arrived nothing)) =
      .waiting := by
  have more : finished state = false := by
    unfold finished
    rw [stuck.total, stuck.processed]
    decide
  have within : iovTotalBytes (view (nextFragment 0 state).1
      (nextFragment 0 state).2) 0 ≠ none := by
    have room := stuck.room
    rw [stuck.point.prepared.view_eq]
    unfold iovTotalBytes
    simp only [List.drop_zero, totalLength_cons, lengthEntry]
    rw [if_neg (by omega)]
    exact Option.some_ne_none _
  induction count generalizing state with
  | zero =>
      rw [List.replicate_zero, receiveLoop, more]
      simp only [Bool.false_eq_true, if_false, within]
  | succ count ih =>
      obtain ⟨next, turn, still⟩ := stuck.turn
      rw [List.replicate_succ, receiveLoop, more]
      simp only [Bool.false_eq_true, if_false, within, turn]
      apply ih still
      · unfold finished
        rw [still.total, still.processed]
        decide
      · have room := still.room
        rw [still.point.prepared.view_eq]
        unfold iovTotalBytes
        simp only [List.drop_zero, totalLength_cons, lengthEntry]
        rw [if_neg (by omega)]
        exact Option.some_ne_none _

def nothingFirst : Datagram Unit :=
  ⟨LengthHeader.bytes ⟨1, 0⟩ ++ LengthHeader.bytes ⟨0, 0⟩, []⟩

private theorem stuck_nothingFirst :
    Stuck
      (afterFirst fourBytes
        (imcRecvmsg 256 (twoLengths ++ fourBytes.entries) fourBytes.header
          zeroed (.arrived nothingFirst))
        (firstStored fourBytes nothingFirst) [])
      fourBytes.entries := by
  have read := @firstRead_arrived _ fourBytes 256 zeroed nothingFirst (by decide)
  have point := read.after
  exact ⟨point, rfl, rfl, by decide, by decide⟩

/-- A fragment that claims two bytes and carries one leaves a gap; fragments
that claim nothing are accepted for ever; and the processed count wraps
around, so that more bytes than the total are not enough. -/
theorem unfaithful_fragments_accepted :
    seen (receive 256 fourBytes zeroed ⟨[], []⟩
      [firstDatagram ⟨3, 0⟩ ⟨2, 0⟩ [7], nextDatagram ⟨1, 0⟩ [9]]) =
        some (2, [7, 0, 9, 0]) ∧
    (∀ count, receive 256 fourBytes zeroed ⟨[], []⟩
      (.arrived nothingFirst :: List.replicate count (.arrived nothing)) =
        .waiting) ∧
    receive 256 fourBytes zeroed ⟨[], []⟩
      [firstDatagram ⟨2 ^ 32 - 1, 0⟩ ⟨2 ^ 32 - 2, 0⟩ [],
        nextDatagram ⟨3, 0⟩ []] = .waiting := by
  refine ⟨by decide, ?_, rfl⟩
  intro count
  exact stuck_nothingFirst.waiting count

end Examples

end NativeClient.Srpc
