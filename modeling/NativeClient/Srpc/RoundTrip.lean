import NativeClient.Srpc.SendRun
import NativeClient.Srpc.Reassembly

/-!
# From `Send` to `Receive`

The receiver takes the pieces of a message one after the other.  It refuses a
piece of exactly eight bytes without descriptors, because `FragmentLengthIsSane`
compares the length of the payload with that of the length itself.
-/

namespace NativeClient.Srpc

open NativeClient.Library

variable {δ : Type}

theorem ofBytes_bytes
    {size : LengthHeader} (fewBytes : size.byteCount < 2 ^ 32)
    (fewDescs : size.descCount < 2 ^ 32) :
    LengthHeader.ofBytes size.bytes = size := by
  unfold LengthHeader.ofBytes LengthHeader.bytes
  rw [List.take_left' (length_littleEndian _ _),
    List.drop_left' (length_littleEndian _ _), ofLittleEndian_littleEndian,
    ofLittleEndian_littleEndian]
  · exact fewDescs
  · exact fewBytes

def Datagram.Refused (piece : Datagram δ) : Prop :=
  piece.bytes.length = fragmentOverhead ∧ piece.descs.length = 0

instance (piece : Datagram δ) : Decidable piece.Refused :=
  inferInstanceAs (Decidable (_ ∧ _))

theorem refused_pieces_iff (bytes : List UInt8) (descs : List δ) :
    (∃ piece ∈ pieces bytes descs, piece.Refused) ↔
      bytes.length % maxImcSendmsgSize = fragmentOverhead ∧
        descs.length ≤ bytes.length / maxImcSendmsgSize * descMax := by
  induction size : bytes.length + descs.length using Nat.strongRecOn
    generalizing bytes descs with
  | ind size ih =>
      rw [pieces]
      split
      next empty =>
          have none : bytes.length = 0 := by omega
          rw [none]
          constructor
          · rintro ⟨piece, member, -⟩
            exact absurd member List.not_mem_nil
          · rintro ⟨impossible, -⟩
            exact absurd impossible (by decide)
      next some =>
          have rest := ih _ (by
            rw [← size, List.length_drop, List.length_drop]
            unfold maxImcSendmsgSize descMax
            omega) (bytes.drop maxImcSendmsgSize) (descs.drop descMax) rfl
          simp only [List.exists_mem_cons_iff]
          rw [rest, List.length_drop, List.length_drop]
          unfold Datagram.Refused maxImcSendmsgSize fragmentOverhead descMax
          rw [List.length_take, List.length_take]
          omega

section Loop

variable {receiver : Receiver} {start : Buffers δ} {iovecMax : Nat}
  {state : Receiving δ} {payload : List UInt8}

structure Honest (receiver : Receiver) (start : Buffers δ)
    (state : Receiving δ) (entries : List IoVec) (payload : List UInt8)
    (descs : List δ) : Prop where
  whole : Contiguous receiver start state entries payload descs
  flags : state.copy.flags = noFlags
  processed : state.processed = ⟨payload.length, descs.length⟩

theorem Contiguous.room
    {entries : List IoVec}
    {descs : List δ}
    (whole : Contiguous receiver start state entries payload descs) :
    totalLength receiver.entries = payload.length + totalLength entries := by
  have left := congrArg List.length whole.here
  have all : (addresses receiver.iov).length = totalLength receiver.entries := by
    rw [← offsets_ioVec, length_offsets]
    rfl
  have fits := whole.fits
  rw [length_offsets, List.length_drop] at left
  omega

structure Fits (receiver : Receiver) (payload : List UInt8) (descs : List δ)
    (piece : Datagram δ) : Prop where
  short : piece.bytes.length ≤ maxImcSendmsgSize
  few : piece.descs.length ≤ descMax
  room : payload.length + piece.bytes.length ≤ totalLength receiver.entries
  descRoom : descs.length + piece.descs.length ≤ receiver.descLength
  byteCount : payload.length + piece.bytes.length < 2 ^ 32
  descCount : descs.length + piece.descs.length < 2 ^ 32

section Turn

variable {state : Receiving δ} {entries : List IoVec} {payload : List UInt8}
  {descs : List δ} {piece : Datagram δ}

private theorem Honest.stored_fragment
    (honest : Honest receiver start state entries payload descs)
    (fits : Fits receiver payload descs piece) :
    stored entries piece.fragment = piece.size.bytes ++ piece.bytes := by
  unfold stored Datagram.fragment
  apply List.take_of_length_le
  have room := honest.whole.room
  have enough := fits.room
  have short := fits.short
  rw [List.length_append, length_lengthHeader_bytes]
  unfold imcUserBytesMax fragmentOverhead
  unfold maxImcSendmsgSize at short
  omega

private theorem Honest.fragmentOf_fragment
    (honest : Honest receiver start state entries payload descs)
    (fits : Fits receiver payload descs piece) :
    fragmentOf receiver.descLength state entries piece.fragment =
      ⟨piece.size, piece.bytes, piece.descs⟩ := by
  have byteCount := fits.byteCount
  have descCount := fits.descCount
  have descRoom := fits.descRoom
  have few := fits.few
  have size : LengthHeader.ofBytes piece.size.bytes = piece.size := by
    apply ofBytes_bytes
    · simp only [Datagram.size]
      omega
    · simp only [Datagram.size]
      omega
  unfold fragmentOf
  rw [honest.stored_fragment fits,
    List.take_left' (length_lengthHeader_bytes _),
    List.drop_left' (length_lengthHeader_bytes _), size, honest.whole.descCount]
  congr 1
  apply List.take_of_length_le
  simp only [Datagram.fragment]
  omega

private theorem Honest.receiveTurn_eq
    (honest : Honest receiver start state entries payload descs)
    (fits : Fits receiver payload descs piece)
    (vector : entries.length + 1 ≤ iovecMax) :
    receiveTurn iovecMax receiver.descLength state (.arrived piece.fragment) =
      if piece.Refused then .error (-eio)
      else .ok (afterTurn receiver.descLength state entries
        piece.fragment) := by
  have long : ¬ (stored entries piece.fragment).length < fragmentOverhead := by
    rw [honest.stored_fragment fits, List.length_append,
      length_lengthHeader_bytes]
    omega
  have sane : fragmentLengthIsSane piece.size
      (stored entries piece.fragment).length piece.descs.length = true ↔
        ¬ piece.Refused := by
    rw [fragmentLengthIsSane_iff, honest.stored_fragment fits,
      List.length_append, length_lengthHeader_bytes]
    unfold Datagram.Refused Datagram.size
    simp only [Nat.add_sub_cancel_left, Nat.le_refl, true_and]
  rw [honest.whole.point.receiveTurn_arrived]
  simp only [honest.fragmentOf_fragment fits]
  rw [if_neg (Nat.not_lt.mpr vector), if_neg long]
  by_cases refused : piece.Refused
  · rw [if_pos refused, if_neg fun holds => sane.mp holds refused]
  · rw [if_neg refused, if_pos (sane.mpr refused)]

private theorem Honest.after
    (honest : Honest receiver start state entries payload descs)
    (fits : Fits receiver payload descs piece) :
    Honest receiver start
      (afterTurn receiver.descLength state entries piece.fragment)
      (consumedEntries entries piece.bytes.length).1
      (payload ++ piece.bytes) (descs ++ piece.descs) := by
  have same := honest.fragmentOf_fragment fits
  have long : fragmentOverhead ≤ (stored entries piece.fragment).length := by
    rw [honest.stored_fragment fits, List.length_append,
      length_lengthHeader_bytes]
    omega
  have next := @Contiguous.after _ _ _ _ _ _ _ piece.fragment honest.whole long
    (by
      rw [same]
      exact .inl rfl)
  rw [same] at next
  refine ⟨next, ?_, ?_⟩
  · have room := honest.whole.room
    have enough := fits.room
    have descRoom := fits.descRoom
    have few := fits.few
    rw [honest.whole.point.after_flags, same, honest.flags,
      honest.whole.descCount]
    simp only [Datagram.size, Datagram.fragment, noFlags, Bool.false_or,
      Nat.lt_irrefl, decide_false, Bool.or_false]
    refine congrArg₂ Flags.mk (decide_eq_false ?_) (decide_eq_false ?_)
    · omega
    · omega
  · have byteCount := fits.byteCount
    have descCount := fits.descCount
    simp only [afterTurn, same, honest.processed, Datagram.size,
      List.length_append]
    rw [Nat.mod_eq_of_lt byteCount, Nat.mod_eq_of_lt descCount]

end Turn

structure ToCome (receiver : Receiver) (state : Receiving δ)
    (payload bytes : List UInt8) (descs left : List δ) : Prop where
  total : state.total =
    ⟨payload.length + bytes.length, descs.length + left.length⟩
  room : payload.length + bytes.length ≤ totalLength receiver.entries
  descRoom : descs.length + left.length ≤ receiver.descLength
  byteCount : payload.length + bytes.length < 2 ^ 32
  descCount : descs.length + left.length < 2 ^ 32

theorem ToCome.fits
    {bytes : List UInt8} {descs left : List δ}
    (coming : ToCome receiver state payload bytes descs left) :
    Fits receiver payload descs
      ⟨bytes.take maxImcSendmsgSize, left.take descMax⟩ := by
  obtain ⟨-, room, descRoom, byteCount, descCount⟩ := coming
  have fewer := List.length_take_le' maxImcSendmsgSize bytes
  have fewerDescs := List.length_take_le' descMax left
  refine ⟨?_, ?_, by simp only; omega, by simp only; omega, by simp only; omega,
    by simp only; omega⟩
  · exact List.length_take_le _ _
  · exact List.length_take_le _ _

theorem ToCome.after
    {state next : Receiving δ} {payload bytes : List UInt8}
    {descs left : List δ}
    (coming : ToCome receiver state payload bytes descs left)
    (total : next.total = state.total) :
    ToCome receiver next (payload ++ bytes.take maxImcSendmsgSize)
      (bytes.drop maxImcSendmsgSize) (descs ++ left.take descMax)
      (left.drop descMax) := by
  have bytesSplit := congrArg List.length
    (List.take_append_drop maxImcSendmsgSize bytes)
  have descsSplit := congrArg List.length (List.take_append_drop descMax left)
  rw [List.length_append] at bytesSplit descsSplit
  obtain ⟨totals, room, descRoom, byteCount, descCount⟩ := coming
  constructor
  · rw [total, totals, List.length_append, List.length_append]
    congr 1 <;> omega
  all_goals
    rw [List.length_append]
    omega

private theorem Honest.iovTotalBytes_ne
    {entries : List IoVec}
    {descs : List δ}
    (honest : Honest receiver start state entries payload descs)
    (within : receiver.Within) :
    iovTotalBytes (view (nextFragment receiver.descLength state).1
      (nextFragment receiver.descLength state).2) 0 ≠ none := by
  have room := honest.whole.room
  unfold Receiver.Within at within
  rw [honest.whole.point.prepared.view_eq]
  unfold iovTotalBytes
  simp only [List.drop_zero, totalLength_cons, lengthEntry]
  rw [if_neg (by omega)]
  exact Option.some_ne_none _

private theorem receiveLoop_cons
    {descRoom : Nat} {incoming : Incoming δ}
    {incomings : List (Incoming δ)} (more : finished state = false)
    (fits : iovTotalBytes (view (nextFragment descRoom state).1
      (nextFragment descRoom state).2) 0 ≠ none) :
    receiveLoop iovecMax descRoom state (incoming :: incomings) =
      match receiveTurn iovecMax descRoom state incoming with
      | .error result => .failed result
      | .ok next => receiveLoop iovecMax descRoom next incomings := by
  rw [receiveLoop, if_neg (by rw [more]; exact Bool.false_ne_true)]
  exact if_neg fits

theorem Honest.receiveLoop_pieces
    {state : Receiving δ} {entries : List IoVec} {payload bytes : List UInt8}
    {descs left : List δ}
    (honest : Honest receiver start state entries payload descs)
    (coming : ToCome receiver state payload bytes descs left)
    (vector : entries.length + 1 ≤ iovecMax)
    (within : receiver.Within) (later : List (Incoming δ)) :
    ((∃ piece ∈ pieces bytes left, piece.Refused) →
      ∃ result, receiveLoop iovecMax receiver.descLength state
        ((pieces bytes left).map (fun piece => .arrived piece.fragment) ++
          later) = .failed result) ∧
    ((∀ piece ∈ pieces bytes left, ¬ piece.Refused) →
      ∃ last rest, receiveLoop iovecMax receiver.descLength state
        ((pieces bytes left).map (fun piece => .arrived piece.fragment) ++
          later) = .succeeded last later ∧
        Honest receiver start last rest (payload ++ bytes) (descs ++ left)) := by
  induction count : bytes.length + left.length using Nat.strongRecOn
    generalizing state entries payload bytes descs left with
  | ind size ih =>
      have processed := honest.processed
      have total := coming.total
      by_cases empty : bytes.length + left.length = 0
      · obtain rfl : bytes = [] := List.eq_nil_of_length_eq_zero (by omega)
        obtain rfl : left = [] := List.eq_nil_of_length_eq_zero (by omega)
        have none : pieces ([] : List UInt8) ([] : List δ) = [] := by
          rw [pieces]
          rfl
        have done : finished state = true := by
          unfold finished
          rw [processed, total]
          simp
        rw [none]
        refine ⟨?_, ?_⟩
        · rintro ⟨piece, member, -⟩
          exact absurd member List.not_mem_nil
        · intro _
          refine ⟨state, entries, ?_, ?_⟩
          · cases later <;>
            simp only [List.map_nil, List.nil_append, receiveLoop, done, if_true]
          · rw [List.append_nil, List.append_nil]
            exact honest
      · have cut : pieces bytes left =
            ⟨bytes.take maxImcSendmsgSize, left.take descMax⟩ ::
              pieces (bytes.drop maxImcSendmsgSize) (left.drop descMax) := by
          rw [pieces, if_neg empty]
        have more : finished state = false := by
          unfold finished
          rw [processed, total]
          simp only [Nat.lt_add_right_iff_pos, decide_eq_false_iff_not,
            not_not]
          omega
        have turn := honest.receiveTurn_eq coming.fits vector
        rw [cut, List.map_cons, List.cons_append,
          receiveLoop_cons more (honest.iovTotalBytes_ne within), turn]
        have smaller : (bytes.drop maxImcSendmsgSize).length +
            (left.drop descMax).length < size := by
          rw [← count, List.length_drop, List.length_drop]
          unfold maxImcSendmsgSize descMax
          omega
        have next := honest.after coming.fits
        have following := @ToCome.after _ _ _ (afterTurn receiver.descLength state
          entries (Datagram.fragment
            ⟨bytes.take maxImcSendmsgSize, left.take descMax⟩)) _ _ _ _ coming rfl
        by_cases refused : Datagram.Refused
            ⟨bytes.take maxImcSendmsgSize, left.take descMax⟩
        · rw [if_pos refused]
          refine ⟨fun _ => ⟨_, rfl⟩, ?_⟩
          intro none
          exact absurd refused (none _ List.mem_cons_self)
        · rw [if_neg refused]
          obtain ⟨failed, passed⟩ :=
            ih _ smaller next following
              (Nat.le_trans (Nat.succ_le_succ (length_consumed_le entries _))
                vector) rfl
          simp only [List.append_assoc, List.take_append_drop] at passed
          refine ⟨?_, ?_⟩
          · rintro ⟨piece, member, bad⟩
            apply failed
            rcases List.mem_cons.mp member with rfl | behind
            · exact absurd bad refused
            · exact ⟨piece, behind, bad⟩
          · intro none
            exact passed fun piece member =>
              none piece (List.mem_cons_of_mem _ member)

end Loop

section Message

variable {message : Message δ} {receiver : Receiver} {iovecMax : Nat}
  {start : Buffers δ} {received : Received δ}

theorem Message.length_bytes (message : Message δ) :
    message.bytes.length = totalLength message.entries := by
  rw [← message.leftBytes_entries, length_leftBytes]

def Message.Nonempty (message : Message δ) : Prop :=
  0 < message.bytes.length + message.descs.length

structure Receiver.HasRoom (receiver : Receiver) (message : Message δ) :
    Prop where
  apart : (addresses receiver.iov).Nodup
  bytes : message.bytes.length ≤ (addresses receiver.iov).length
  descs : message.descs.length ≤ receiver.descLength

theorem Receiver.length_addresses (receiver : Receiver) :
    (addresses receiver.iov).length = totalLength receiver.entries := by
  rw [← offsets_ioVec, length_offsets]
  rfl

theorem Message.pieces_eq (nonempty : message.Nonempty) :
    pieces message.bytes message.descs =
      message.firstPiece :: pieces (message.bytes.drop maxImcSendmsgSize)
        (message.descs.drop descMax) := by
  unfold Message.Nonempty at nonempty
  rw [pieces, if_neg (by omega)]
  rfl

private theorem firstStored_datagram (room : receiver.HasRoom message) :
    firstStored receiver (message.firstPiece.firstFragment message.total) =
      message.total.bytes ++ (message.firstPiece.size.bytes ++
        message.firstPiece.bytes) := by
  unfold firstStored Datagram.firstFragment
  rw [List.append_assoc]
  apply List.take_of_length_le
  have enough := room.bytes
  have short := List.length_take_le maxImcSendmsgSize message.bytes
  have fewer := List.length_take_le' maxImcSendmsgSize message.bytes
  rw [receiver.length_addresses] at enough
  simp only [List.length_append, length_lengthHeader_bytes,
    Message.firstPiece] at short fewer ⊢
  unfold imcUserBytesMax fragmentOverhead
  unfold maxImcSendmsgSize at short fewer ⊢
  omega

private theorem totals_small (within : message.Within) :
    message.bytes.length < 2 ^ 32 := by
  unfold Message.Within abiSsizeMax at within
  rw [message.length_bytes]
  simp only [Nat.reducePow] at *
  omega

private theorem size_firstPiece (within : message.Within) :
    LengthHeader.ofBytes message.firstPiece.size.bytes =
      message.firstPiece.size := by
  have few := totals_small within
  have descLength := message.descLength
  have fewer := List.length_take_le' maxImcSendmsgSize message.bytes
  have fewerDescs := List.length_take_le' descMax message.descs
  apply ofBytes_bytes
  · simp only [Datagram.size, Message.firstPiece]
    omega
  · simp only [Datagram.size, Message.firstPiece]
    omega

private theorem total_bytes (within : message.Within) :
    LengthHeader.ofBytes message.total.bytes = message.total := by
  apply ofBytes_bytes
  · have few := totals_small within
    rw [message.length_bytes] at few
    exact few
  · exact message.descLength

private theorem firstFragmentOf_datagram
    (within : message.Within) (room : receiver.HasRoom message)
    (descs : List δ) :
    totalOf (firstStored receiver
        (message.firstPiece.firstFragment message.total)) = message.total ∧
      firstFragmentOf (firstStored receiver
        (message.firstPiece.firstFragment message.total)) descs =
        ⟨message.firstPiece.size, message.firstPiece.bytes, descs⟩ := by
  have one : (message.total.bytes).length = fragmentOverhead :=
    length_lengthHeader_bytes _
  have two : (message.firstPiece.size.bytes).length = fragmentOverhead :=
    length_lengthHeader_bytes _
  rw [firstStored_datagram room]
  constructor
  · unfold totalOf
    rw [List.take_left' one, total_bytes within]
  · unfold firstFragmentOf
    have rest : (message.total.bytes ++ (message.firstPiece.size.bytes ++
        message.firstPiece.bytes)).drop (2 * fragmentOverhead) =
          message.firstPiece.bytes := by
      rw [← List.append_assoc]
      apply List.drop_left'
      rw [List.length_append, one, two, Nat.two_mul]
    rw [rest, List.drop_left' one, List.take_left' two, size_firstPiece within]

private theorem acceptFirst_datagram
    (within : message.Within) (nonempty : message.Nonempty)
    (room : receiver.HasRoom message)
    (read : FirstRead receiver start received
      (firstStored receiver (message.firstPiece.firstFragment message.total))
      message.firstPiece.descs) :
    acceptFirst (twoLengths ++ receiver.entries) received =
      if message.firstPiece.Refused then .error (-eio)
      else .ok (afterFirst receiver received
        (firstStored receiver (message.firstPiece.firstFragment message.total))
        message.firstPiece.descs) := by
  obtain ⟨total, fragment⟩ :=
    firstFragmentOf_datagram within room message.firstPiece.descs
  have fewer := List.length_take_le' maxImcSendmsgSize message.bytes
  have fewerDescs := List.length_take_le' descMax message.descs
  have length : (firstStored receiver
      (message.firstPiece.firstFragment message.total)).length =
        2 * fragmentOverhead + message.firstPiece.bytes.length := by
    rw [firstStored_datagram room]
    simp only [List.length_append, length_lengthHeader_bytes]
    omega
  have sane : messageLengthsAreSane message.total message.firstPiece.size
      (2 * fragmentOverhead + message.firstPiece.bytes.length)
      message.firstPiece.descs.length = true ↔
        ¬ message.firstPiece.Refused := by
    unfold messageLengthsAreSane
    unfold Message.Nonempty at nonempty
    rw [if_neg, if_neg, fragmentLengthIsSane_iff]
    · unfold Datagram.Refused
      simp only [Datagram.size, Nat.le_refl, true_and]
      omega
    · rw [Message.total, ← message.length_bytes]
      simp only [Datagram.size, Message.firstPiece]
      omega
    · rw [Message.total, ← message.length_bytes]
      simp only
      omega
  rw [read.acceptFirst_eq, total, fragment, length, if_neg (by omega)]
  by_cases refused : message.firstPiece.Refused
  · rw [if_pos refused, if_neg fun holds => sane.mp holds refused]
  · rw [if_neg refused, if_pos (sane.mpr refused)]

private theorem flags_arrived
    (start : Buffers δ) (room : receiver.HasRoom message)
    (fits : ¬ iovecMax < receiver.entries.length + 2) :
    (imcRecvmsg iovecMax (twoLengths ++ receiver.entries) receiver.header start
      (.arrived (message.firstPiece.firstFragment
        message.total))).header.flags = noFlags := by
  have count : (twoLengths ++ receiver.entries).length =
      receiver.entries.length + 2 := by
    simp only [twoLengths, List.length_append, List.length_cons,
      List.length_nil]
    omega
  have few : ¬ descMax < receiver.header.descLength := by
    simp only [Receiver.header]
    omega
  have none : ¬ min descMax receiver.descLength <
      message.firstPiece.descs.length := by
    have enough := room.descs
    simp only [Message.firstPiece, List.length_take]
    omega
  unfold imcRecvmsg
  rw [count, if_neg fits, if_neg few]
  simp only [Receiver.header, noFlags, Bool.false_or, Datagram.firstFragment]
  exact congrArg (Flags.mk false) (decide_eq_false none)

private theorem read_datagram
    (start : Buffers δ) (room : receiver.HasRoom message)
    (fits : ¬ iovecMax < receiver.entries.length + 2) :
    FirstRead receiver start
      (imcRecvmsg iovecMax (twoLengths ++ receiver.entries) receiver.header
        start (.arrived (message.firstPiece.firstFragment message.total)))
      (firstStored receiver (message.firstPiece.firstFragment message.total))
      message.firstPiece.descs := by
  have read := firstRead_arrived start
    (message.firstPiece.firstFragment message.total) fits
  have all : (message.firstPiece.firstFragment message.total).descs.take
      (min descMax receiver.descLength) = message.firstPiece.descs := by
    have enough := room.descs
    apply List.take_of_length_le
    simp only [Message.firstPiece, Datagram.firstFragment, List.length_take]
    omega
  rw [all] at read
  exact read

private theorem honest_first
    (within : message.Within) (room : receiver.HasRoom message)
    (read : FirstRead receiver start received
      (firstStored receiver (message.firstPiece.firstFragment message.total))
      message.firstPiece.descs)
    (flags : received.header.flags = noFlags) :
    Honest receiver start
      (afterFirst receiver received
        (firstStored receiver (message.firstPiece.firstFragment message.total))
        message.firstPiece.descs)
      (consumedEntries receiver.entries message.firstPiece.bytes.length).1
      message.firstPiece.bytes message.firstPiece.descs := by
  obtain ⟨-, fragment⟩ :=
    firstFragmentOf_datagram within room message.firstPiece.descs
  have long : 2 * fragmentOverhead ≤ (firstStored receiver
      (message.firstPiece.firstFragment message.total)).length := by
    rw [firstStored_datagram room]
    simp only [List.length_append, length_lengthHeader_bytes]
    omega
  have whole := read.contiguous long (by
    rw [fragment]
    exact .inl rfl)
  rw [fragment] at whole
  refine ⟨whole, ?_, ?_⟩
  · have enough := room.bytes
    have fewer := List.length_take_le' maxImcSendmsgSize message.bytes
    rw [receiver.length_addresses] at enough
    rw [read.after_flags, fragment, flags]
    simp only [noFlags, Bool.false_or, Datagram.size, Nat.lt_irrefl,
      decide_false]
    refine congrArg₂ Flags.mk (decide_eq_false ?_) rfl
    simp only [Message.firstPiece]
    omega
  · simp only [afterFirst, fragment]
    rfl

private theorem toCome_first
    (within : message.Within) (room : receiver.HasRoom message) :
    ToCome receiver
      (afterFirst receiver received
        (firstStored receiver (message.firstPiece.firstFragment message.total))
        message.firstPiece.descs)
      message.firstPiece.bytes (message.bytes.drop maxImcSendmsgSize)
      message.firstPiece.descs (message.descs.drop descMax) := by
  obtain ⟨total, -⟩ :=
    firstFragmentOf_datagram within room message.firstPiece.descs
  have bytesSplit := congrArg List.length
    (List.take_append_drop maxImcSendmsgSize message.bytes)
  have descsSplit := congrArg List.length
    (List.take_append_drop descMax message.descs)
  have few := totals_small within
  have fewDescs := message.descLength
  obtain ⟨-, enough, enoughDescs⟩ := room
  rw [receiver.length_addresses] at enough
  rw [List.length_append] at bytesSplit descsSplit
  simp only [Message.firstPiece] at total ⊢
  constructor
  · rw [bytesSplit, descsSplit, message.length_bytes]
    exact total
  all_goals omega

private theorem receive_cons
    {vector : List IoVec} {header : MessageHeader}
    (made : receiveHeader receiver = .ok (vector, header))
    (incoming : Incoming δ) (incomings : List (Incoming δ)) :
    receive iovecMax receiver start ⟨[], []⟩ (incoming :: incomings) =
      match acceptFirst vector
        (imcRecvmsg iovecMax (view vector header) header start incoming) with
      | .error result => .failed result
      | .ok state =>
          receiveLoop iovecMax receiver.descLength state incomings := by
  unfold receive
  rw [made]
  rfl

theorem receive_datagrams
    (start : Buffers δ) (within : message.Within) (nonempty : message.Nonempty)
    (room : receiver.HasRoom message) (later : List (Incoming δ)) :
    (¬ (receiver.Within ∧ receiver.iov.length + 2 ≤ iovecMax ∧
        ∀ piece ∈ pieces message.bytes message.descs, ¬ piece.Refused) →
      ∃ result, receive iovecMax receiver start ⟨[], []⟩
        (message.datagrams.map .arrived ++ later) = .failed result) ∧
    (receiver.Within → receiver.iov.length + 2 ≤ iovecMax →
      (∀ piece ∈ pieces message.bytes message.descs, ¬ piece.Refused) →
      ∃ last rest, receive iovecMax receiver start ⟨[], []⟩
        (message.datagrams.map .arrived ++ later) = .succeeded last later ∧
        Honest receiver start last rest message.bytes message.descs) := by
  have vector : receiver.entries.length = receiver.iov.length :=
    List.length_map _
  by_cases inRange : receiver.Within
  swap
  · refine ⟨fun _ => ?_, fun holds => absurd holds inRange⟩
    unfold receive
    rw [receiveHeader_error inRange]
    exact ⟨_, rfl⟩
  have viewed : view (twoLengths ++ receiver.entries) receiver.header =
      twoLengths ++ receiver.entries := by
    apply Stands.view_eq
    refine ⟨⟨[], rfl, rfl⟩, ?_⟩
    simp only [Receiver.header, twoLengths, List.length_append,
      List.length_cons, List.length_nil]
    omega
  rw [Message.datagrams, List.map_cons, List.map_map, List.cons_append,
    receive_cons (receiveHeader_eq inRange), viewed]
  by_cases fits : iovecMax < receiver.entries.length + 2
  · have refused : imcRecvmsg iovecMax (twoLengths ++ receiver.entries)
        receiver.header start
        (.arrived (message.firstPiece.firstFragment message.total)) =
          ⟨-einval, receiver.header, start⟩ := by
      unfold imcRecvmsg
      rw [if_pos]
      simp only [twoLengths, List.length_append, List.length_cons,
        List.length_nil]
      omega
    rw [refused]
    refine ⟨fun _ => ⟨_, rfl⟩, ?_⟩
    intro _ enough
    omega
  have read := read_datagram start room fits
  rw [acceptFirst_datagram within nonempty room read,
    message.pieces_eq nonempty]
  by_cases refused : message.firstPiece.Refused
  · rw [if_pos refused]
    refine ⟨fun _ => ⟨_, rfl⟩, ?_⟩
    intro _ _ none
    exact absurd refused (none _ List.mem_cons_self)
  rw [if_neg refused]
  have honest := honest_first within room read (flags_arrived start room fits)
  have shorter := length_consumed_le receiver.entries
    message.firstPiece.bytes.length
  obtain ⟨failed, passed⟩ := @Honest.receiveLoop_pieces _ _ _ iovecMax _ _ _ _ _ _
    honest (toCome_first within room) (by omega) inRange later
  have bytes : message.firstPiece.bytes ++
      message.bytes.drop maxImcSendmsgSize = message.bytes :=
    List.take_append_drop _ _
  have descs : message.firstPiece.descs ++ message.descs.drop descMax =
      message.descs := List.take_append_drop _ _
  rw [bytes, descs] at passed
  refine ⟨?_, ?_⟩
  · intro fails
    apply failed
    by_contra none
    apply fails
    refine ⟨inRange, by omega, ?_⟩
    intro piece member bad
    rcases List.mem_cons.mp member with rfl | behind
    · exact refused bad
    · exact none ⟨piece, behind, bad⟩
  · intro _ _ none
    exact passed fun piece member => none piece (List.mem_cons_of_mem _ member)

theorem SendReturns.unique
    {channel : List (Datagram δ)} {first second : Int × List (Datagram δ)}
    (left : SendReturns iovecMax message channel first)
    (right : SendReturns iovecMax message channel second) : first = second := by
  unfold SendReturns at left right
  cases opened : sendFirst iovecMax message channel with
  | error failed =>
      rw [opened] at left right
      exact left.trans right.symm
  | ok begun =>
      rw [opened] at left right
      exact Returns.unique left right

/-- The caller of `Receive` has the message. -/
structure Delivered (message : Message δ) (receiver : Receiver)
    (state : Receiving δ) : Prop where
  bytesReceived : state.bytesReceived = message.bytes.length
  bytes : ((addresses receiver.iov).take message.bytes.length).map
    (callerMemory state.buffers.memory) = message.bytes
  descsReceived : state.descsReceived = message.descs.length
  descs : (List.range message.descs.length).map state.buffers.descs =
    message.descs
  flags : state.copy.flags = noFlags

private theorem Honest.delivered
    {state : Receiving δ} {entries : List IoVec}
    (room : receiver.HasRoom message)
    (honest : Honest receiver start state entries message.bytes
      message.descs) :
    Delivered message receiver state where
  bytesReceived := honest.whole.bytes
  bytes := by
    rw [honest.whole.memory]
    exact map_writeAll room.apart room.bytes
  descsReceived := honest.whole.descCount
  descs := by
    have places : List.range message.descs.length =
        (List.range' 0 receiver.descLength).take message.descs.length := by
      apply List.ext_getElem
      · have enough := room.descs
        rw [List.length_range, List.length_take, List.length_range']
        omega
      · intro index _ _
        simp only [List.getElem_range, List.getElem_take, List.getElem_range']
        omega
    rw [honest.whole.descBuffer, places]
    apply map_writeAll
    · exact List.nodup_range'
    · rw [List.length_range']
      exact room.descs
  flags := honest.flags

/-- `Send` returns the byte count, and `Receive` then delivers the message,
whatever is in the channel before and behind it. -/
def RoundTrip (iovecMax : Nat) (message : Message δ) (receiver : Receiver)
    (start : Buffers δ) : Prop :=
  ∃ sent,
    (∀ before, SendReturns iovecMax message before
      ((message.bytes.length : Int), before ++ sent)) ∧
    ∀ later, ∃ state,
      receive iovecMax receiver start ⟨[], []⟩ (sent.map .arrived ++ later) =
        .succeeded state later ∧
      Delivered message receiver state

/-- The last entry is not empty, no entry is empty in the fragment in which
the last one begins, the vectors are not too long, and no fragment has exactly
eight bytes and no descriptor. -/
structure Deliverable (iovecMax : Nat) (message : Message δ)
    (receiver : Receiver) : Prop where
  filled : FragmentsFilled message.lengths
  sendVector : fragmentLength 2 message.lengths ≤ iovecMax
  receiverWithin : receiver.Within
  receiveVector : receiver.iov.length + 2 ≤ iovecMax
  noRefusal : ¬ (message.bytes.length % maxImcSendmsgSize = fragmentOverhead ∧
    message.descs.length ≤ message.bytes.length / maxImcSendmsgSize * descMax)

theorem RoundTrip.deliverable
    (within : message.Within) (nonempty : message.Nonempty)
    (room : receiver.HasRoom message)
    (trip : RoundTrip iovecMax message receiver start) :
    Deliverable iovecMax message receiver := by
  have count : message.total.byteCount = message.bytes.length :=
    message.length_bytes.symm
  obtain ⟨sent, sends, receives⟩ := trip
  have sendable : FragmentsFilled message.lengths ∧
      fragmentLength 2 message.lengths ≤ iovecMax := by
    by_contra fails
    have negative := sendReturns_negative [] within fails (sends [])
    simp only at negative
    omega
  obtain ⟨filled, sendVector⟩ := sendable
  have same := (sends []).unique
    (sendReturns_of_filled [] within filled sendVector)
  rw [List.nil_append, List.nil_append, Prod.mk.injEq] at same
  obtain rfl := same.2
  have passes : receiver.Within ∧ receiver.iov.length + 2 ≤ iovecMax ∧
      ∀ piece ∈ pieces message.bytes message.descs, ¬ piece.Refused := by
    by_contra fails
    obtain ⟨result, failed⟩ :=
      (receive_datagrams start within nonempty room []).1 fails
    obtain ⟨state, succeeded, -⟩ := receives []
    rw [failed] at succeeded
    cases succeeded
  obtain ⟨receiverWithin, receiveVector, none⟩ := passes
  refine ⟨filled, sendVector, receiverWithin, receiveVector, ?_⟩
  intro sizes
  obtain ⟨piece, member, refused⟩ :=
    (refused_pieces_iff message.bytes message.descs).mpr sizes
  exact none piece member refused

theorem Deliverable.roundTrip
    (start : Buffers δ) (within : message.Within) (nonempty : message.Nonempty)
    (room : receiver.HasRoom message)
    (deliverable : Deliverable iovecMax message receiver) :
    RoundTrip iovecMax message receiver start := by
  have count : message.total.byteCount = message.bytes.length :=
    message.length_bytes.symm
  have refusals := refused_pieces_iff message.bytes message.descs
  obtain ⟨filled, sendVector, receiverWithin, receiveVector, noRefusal⟩ :=
    deliverable
  refine ⟨message.datagrams, ?_, ?_⟩
  · intro before
    rw [← count]
    exact sendReturns_of_filled before within filled sendVector
  · intro later
    obtain ⟨last, rest, succeeded, honest⟩ :=
      (receive_datagrams start within nonempty room later).2 receiverWithin
        receiveVector fun piece member refused =>
          noRefusal (refusals.mp ⟨piece, member, refused⟩)
    exact ⟨last, succeeded, honest.delivered room⟩

/-- Messages make the round trip exactly under these conditions. -/
theorem message_round_trip
    (start : Buffers δ) (within : message.Within) (nonempty : message.Nonempty)
    (room : receiver.HasRoom message) :
    RoundTrip iovecMax message receiver start ↔
      Deliverable iovecMax message receiver :=
  ⟨RoundTrip.deliverable within nonempty room,
    Deliverable.roundTrip start within nonempty room⟩

end Message

section Examples

instance (message : Message δ) : Decidable message.Within :=
  inferInstanceAs (Decidable (_ ≤ _))

instance (message : Message δ) : Decidable message.Nonempty :=
  inferInstanceAs (Decidable (_ < _))

def oneBuffer (length : Nat) : Message Unit where
  iov := [⟨0, length⟩]
  memory := fun address => UInt8.ofNat address
  descs := []
  descLength := by decide

def twoBuffers (length : Nat) : Receiver := ⟨[⟨0, 1⟩, ⟨1, length⟩], 0⟩

def clean : Buffers Unit := ⟨fun _ => 0, fun _ => ()⟩

theorem filled_oneBuffer {length : Nat} (positive : 0 < length) :
    FragmentsFilled (oneBuffer length).lengths := by
  intro front last split
  cases front with
  | nil =>
      cases split
      exact ⟨positive, fun _ empty => empty.elim⟩
  | cons first front =>
      have lengths := congrArg List.length split
      simp [Message.lengths, oneBuffer] at lengths

private theorem room_three : (twoBuffers 7).HasRoom (oneBuffer 3) :=
  ⟨by decide, by decide, by decide⟩

private theorem deliverable_three :
    Deliverable 256 (oneBuffer 3) (twoBuffers 7) :=
  ⟨filled_oneBuffer (by decide), by decide, by decide, by decide, by decide⟩

/-- Three bytes make the round trip. -/
theorem three_bytes_round_trip :
    RoundTrip 256 (oneBuffer 3) (twoBuffers 7) clean :=
  (message_round_trip clean (by decide) (by decide) room_three).mpr
    deliverable_three

private theorem room_eight : (twoBuffers 7).HasRoom (oneBuffer 8) :=
  ⟨by decide, by decide, by decide⟩

def emptyBehind : Message Unit :=
  { oneBuffer 3 with iov := [⟨0, 3⟩, ⟨3, 0⟩] }

private theorem room_emptyBehind : (twoBuffers 7).HasRoom emptyBehind :=
  ⟨by decide, by decide, by decide⟩

/-- Eight bytes are sent, but the receiver refuses them; and if the last entry
is empty, `Send` does not come to its end. -/
theorem eight_bytes_refused :
    ((oneBuffer 8).Within ∧ (oneBuffer 8).Nonempty ∧
      (twoBuffers 7).HasRoom (oneBuffer 8) ∧
      ¬ RoundTrip 256 (oneBuffer 8) (twoBuffers 7) clean) ∧
    emptyBehind.Within ∧ emptyBehind.Nonempty ∧
      (twoBuffers 7).HasRoom emptyBehind ∧
      ¬ RoundTrip 256 emptyBehind (twoBuffers 7) clean := by
  refine ⟨⟨by decide, by decide, room_eight, ?_⟩, by decide, by decide,
    room_emptyBehind, ?_⟩
  · intro trip
    have deliverable := trip.deliverable (by decide) (by decide) room_eight
    exact deliverable.noRefusal (by decide)
  · intro trip
    have deliverable :=
      trip.deliverable (by decide) (by decide) room_emptyBehind
    exact absurd (deliverable.filled [3] 0 rfl).1 (by decide)

end Examples

/-! ## Messages one behind the other -/

structure Exchange (δ : Type) where
  message : Message δ
  receiver : Receiver

structure Exchange.Fits (iovecMax : Nat) (exchange : Exchange δ) : Prop where
  within : exchange.message.Within
  nonempty : exchange.message.Nonempty
  room : exchange.receiver.HasRoom exchange.message
  deliverable : Deliverable iovecMax exchange.message exchange.receiver

/-- How many calls have returned, and the datagrams on their way. -/
structure Transit (δ : Type) where
  sent : Nat
  received : Nat
  wire : List (Datagram δ)
  arrived : List (Incoming δ)

/-- The sender and the receiver go through the exchanges at a pace of their
own.  A datagram arrives some time after it was sent. -/
inductive Underway (iovecMax : Nat) (exchanges : List (Exchange δ)) :
    Transit δ → Prop
  | start : Underway iovecMax exchanges ⟨0, 0, [], []⟩
  | send {transit : Transit δ} {exchange : Exchange δ} {result : Int}
      {wire : List (Datagram δ)} (underway : Underway iovecMax exchanges transit)
      (next : exchanges[transit.sent]? = some exchange)
      (returns : SendReturns iovecMax exchange.message transit.wire
        (result, wire)) :
      Underway iovecMax exchanges
        { transit with sent := transit.sent + 1, wire := wire }
  | arrive {transit : Transit δ} {datagram : Datagram δ}
      {wire : List (Datagram δ)} (underway : Underway iovecMax exchanges transit)
      (first : transit.wire = datagram :: wire) :
      Underway iovecMax exchanges
        { transit with
          wire := wire, arrived := transit.arrived ++ [.arrived datagram] }
  | receive {transit : Transit δ} {exchange : Exchange δ} {start : Buffers δ}
      {state : Receiving δ} {left : List (Incoming δ)}
      (underway : Underway iovecMax exchanges transit)
      (next : exchanges[transit.received]? = some exchange)
      (returns : receive iovecMax exchange.receiver start ⟨[], []⟩
        transit.arrived = .succeeded state left) :
      Underway iovecMax exchanges
        { transit with received := transit.received + 1, arrived := left }

/-- The datagrams of the messages that were sent and not yet received. -/
def onTheWay (exchanges : List (Exchange δ)) (sent received : Nat) :
    List (Incoming δ) :=
  ((exchanges.take sent).drop received).flatMap fun exchange =>
    exchange.message.datagrams.map .arrived

/-- A receive waits for datagrams that are to come, or delivers the message. -/
def Exchange.Answered (exchange : Exchange δ) (coming later : List (Incoming δ)) :
    Outcome δ → Prop
  | .waiting => coming ≠ []
  | .failed _ => False
  | .succeeded state left =>
      left ++ coming = later ∧
        Delivered exchange.message exchange.receiver state

/-- Only the oldest message that was sent is received. -/
def Transit.Receives (transit : Transit δ) (exchanges : List (Exchange δ))
    (exchange : Exchange δ) (outcome : Outcome δ) : Prop :=
  if transit.received < transit.sent then
    exchange.Answered (transit.wire.map .arrived)
      (onTheWay exchanges transit.sent (transit.received + 1)) outcome
  else outcome = .waiting

structure InOrder (iovecMax : Nat) (exchanges : List (Exchange δ))
    (transit : Transit δ) : Prop where
  behind : transit.received ≤ transit.sent
  sends : ∀ exchange, exchanges[transit.sent]? = some exchange →
    ∃ wire, SendReturns iovecMax exchange.message transit.wire
      (exchange.message.bytes.length, wire)
  receives : ∀ exchange, exchanges[transit.received]? = some exchange →
    ∀ start, transit.Receives exchanges exchange
      (receive iovecMax exchange.receiver start ⟨[], []⟩ transit.arrived)

section Sequence

variable {iovecMax : Nat} {exchange : Exchange δ} {exchanges : List (Exchange δ)}
  {transit : Transit δ}

/-- The outcome when `more` comes in behind what was there. -/
def Outcome.followedBy (outcome : Outcome δ) (more : List (Incoming δ)) :
    Outcome δ :=
  match outcome with
  | .succeeded state left => .succeeded state (left ++ more)
  | other => other

theorem receiveLoop_append
    {descRoom : Nat} {state : Receiving δ} {incomings : List (Incoming δ)}
    (returned : receiveLoop iovecMax descRoom state incomings ≠ .waiting)
    (more : List (Incoming δ)) :
    receiveLoop iovecMax descRoom state (incomings ++ more) =
      (receiveLoop iovecMax descRoom state incomings).followedBy more := by
  induction incomings generalizing state with
  | nil =>
      rw [receiveLoop] at returned ⊢
      rw [receiveLoop.eq_def _ _ _ ([] ++ more)]
      split
      · rfl
      · next more' =>
        rw [if_neg more'] at returned
        dsimp only at returned ⊢
        split
        · rfl
        · next fits =>
          rw [if_neg fits] at returned
          exact absurd rfl returned
  | cons incoming incomings ih =>
      rw [receiveLoop] at returned
      rw [List.cons_append, receiveLoop, receiveLoop]
      split
      · rfl
      · next more' =>
        rw [if_neg more'] at returned
        dsimp only at returned ⊢
        split
        · rfl
        · next fits =>
          rw [if_neg fits] at returned
          split
          · rfl
          · next next' turn =>
            rw [turn] at returned
            exact ih returned

theorem Exchange.Fits.receive_append
    (fits : exchange.Fits iovecMax) {start : Buffers δ}
    {incomings : List (Incoming δ)}
    (returned : receive iovecMax exchange.receiver start ⟨[], []⟩ incomings ≠
      .waiting)
    (more : List (Incoming δ)) :
    receive iovecMax exchange.receiver start ⟨[], []⟩ (incomings ++ more) =
      (receive iovecMax exchange.receiver start ⟨[], []⟩ incomings).followedBy
        more := by
  have made := receiveHeader_eq fits.deliverable.receiverWithin
  cases incomings with
  | nil =>
      unfold receive at returned
      rw [made] at returned
      exact absurd rfl returned
  | cons incoming incomings =>
      rw [receive_cons made] at returned
      rw [List.cons_append, receive_cons made, receive_cons made]
      split
      · rfl
      · next state accepted =>
        rw [accepted] at returned
        exact receiveLoop_append returned more

theorem Exchange.Fits.receive_datagrams
    (fits : exchange.Fits iovecMax) (start : Buffers δ)
    {arrived coming later : List (Incoming δ)}
    (here : arrived ++ coming =
      exchange.message.datagrams.map .arrived ++ later) :
    exchange.Answered coming later
      (receive iovecMax exchange.receiver start ⟨[], []⟩ arrived) := by
  obtain ⟨-, -, within, vector, noRefusal⟩ := fits.deliverable
  obtain ⟨last, rest, whole, honest⟩ :=
    (Srpc.receive_datagrams start fits.within fits.nonempty fits.room later).2
      within vector fun piece member refused =>
        noRefusal ((refused_pieces_iff _ _).mp ⟨piece, member, refused⟩)
  rw [← here] at whole
  cases outcome : receive iovecMax exchange.receiver start ⟨[], []⟩ arrived with
  | waiting =>
      rintro rfl
      rw [List.append_nil, outcome] at whole
      cases whole
  | failed result =>
      rw [fits.receive_append (by simp [outcome]), outcome] at whole
      cases whole
  | succeeded state left =>
      rw [fits.receive_append (by simp [outcome]), outcome] at whole
      cases whole
      exact ⟨rfl, honest.delivered fits.room⟩

theorem onTheWay_sent
    {sent received : Nat} (next : exchanges[sent]? = some exchange)
    (behind : received ≤ sent) :
    onTheWay exchanges (sent + 1) received =
      onTheWay exchanges sent received ++
        exchange.message.datagrams.map .arrived := by
  have inside := (List.getElem?_eq_some_iff.mp next).1
  unfold onTheWay
  rw [List.take_add_one, next, List.drop_append_of_le_length (by
    rw [List.length_take]
    omega), List.flatMap_append]
  simp

theorem onTheWay_received
    {sent received : Nat} (next : exchanges[received]? = some exchange)
    (behind : received < sent) :
    onTheWay exchanges sent received =
      exchange.message.datagrams.map .arrived ++
        onTheWay exchanges sent (received + 1) := by
  obtain ⟨inside, here⟩ := List.getElem?_eq_some_iff.mp next
  unfold onTheWay
  rw [List.drop_eq_getElem_cons (by
    rw [List.length_take]
    omega), List.flatMap_cons, List.getElem_take, here]

structure Accounted (exchanges : List (Exchange δ)) (transit : Transit δ) :
    Prop where
  behind : transit.received ≤ transit.sent
  datagrams : transit.arrived ++ transit.wire.map .arrived =
    onTheWay exchanges transit.sent transit.received

theorem Accounted.receives
    (accounted : Accounted exchanges transit) (fits : exchange.Fits iovecMax)
    (next : exchanges[transit.received]? = some exchange)
    (start : Buffers δ) :
    transit.Receives exchanges exchange
      (receive iovecMax exchange.receiver start ⟨[], []⟩ transit.arrived) := by
  obtain ⟨behind, datagrams⟩ := accounted
  unfold Transit.Receives
  split
  · next owed =>
    rw [onTheWay_received next owed] at datagrams
    exact fits.receive_datagrams start datagrams
  · next owed =>
    have none : onTheWay exchanges transit.sent transit.received = [] := by
      unfold onTheWay
      rw [List.drop_eq_nil_of_le (by rw [List.length_take]; omega)]
      rfl
    rw [none, List.append_eq_nil_iff] at datagrams
    rw [datagrams.1]
    unfold receive
    rw [receiveHeader_eq fits.deliverable.receiverWithin]
    rfl

theorem Exchange.Fits.sends
    (fits : exchange.Fits iovecMax) (channel : List (Datagram δ)) :
    SendReturns iovecMax exchange.message channel
      (exchange.message.bytes.length, channel ++ exchange.message.datagrams) := by
  rw [exchange.message.length_bytes]
  exact sendReturns_of_filled channel fits.within fits.deliverable.filled
    fits.deliverable.sendVector

theorem underway_accounted
    (fits : ∀ exchange ∈ exchanges, exchange.Fits iovecMax)
    (underway : Underway iovecMax exchanges transit) :
    Accounted exchanges transit := by
  induction underway with
  | start => exact ⟨Nat.le_refl 0, rfl⟩
  | send underway next returns ih =>
      have sends := (fits _ (List.mem_of_getElem? next)).sends
      cases returns.unique (sends _)
      refine ⟨Nat.le_succ_of_le ih.behind, ?_⟩
      rw [onTheWay_sent next ih.behind, ← ih.datagrams, List.map_append,
        List.append_assoc]
  | arrive underway first ih =>
      have datagrams := ih.datagrams
      rw [first] at datagrams
      exact ⟨ih.behind, by
        rw [List.append_assoc]
        exact datagrams⟩
  | @receive transit exchange start state left underway next returns ih =>
      have receives :=
        ih.receives (fits _ (List.mem_of_getElem? next)) next start
      rw [returns] at receives
      unfold Transit.Receives at receives
      split at receives
      · next owed => exact ⟨owed, receives.1⟩
      · cases receives

/-- Messages are received in the order in which they were sent, each of them
once and whole, whenever the calls are made and the datagrams arrive. -/
theorem messages_in_order
    (fits : ∀ exchange ∈ exchanges, exchange.Fits iovecMax)
    (underway : Underway iovecMax exchanges transit) :
    InOrder iovecMax exchanges transit := by
  have accounted := underway_accounted fits underway
  refine ⟨accounted.behind, ?_, ?_⟩
  · intro exchange next
    exact ⟨_, (fits exchange (List.mem_of_getElem? next)).sends _⟩
  · intro exchange next start
    exact accounted.receives (fits exchange (List.mem_of_getElem? next)) next start

private theorem fits_three :
    (⟨oneBuffer 3, twoBuffers 7⟩ : Exchange Unit).Fits 256 :=
  ⟨show (oneBuffer 3).Within by decide, show (oneBuffer 3).Nonempty by decide,
    room_three, deliverable_three⟩

private theorem fits_five :
    (⟨oneBuffer 5, twoBuffers 7⟩ : Exchange Unit).Fits 256 :=
  ⟨show (oneBuffer 5).Within by decide, show (oneBuffer 5).Nonempty by decide,
    ⟨by decide, by decide, by decide⟩,
    ⟨filled_oneBuffer (by decide), by decide, by decide, by decide,
      by decide⟩⟩

theorem Message.datagrams_single
    {message : Message δ} (bytes : message.bytes.length ≤ maxImcSendmsgSize)
    (descs : message.descs.length ≤ descMax) :
    message.datagrams = [message.firstPiece.firstFragment message.total] := by
  unfold Message.datagrams
  rw [List.drop_eq_nil_of_le bytes, List.drop_eq_nil_of_le descs, pieces]
  rfl

def threeThenFive : List (Exchange Unit) :=
  [⟨oneBuffer 3, twoBuffers 7⟩, ⟨oneBuffer 5, twoBuffers 7⟩]

/-- Both messages are sent and arrive, and one of them is received. -/
theorem messages_in_order_two :
    InOrder 256 threeThenFive
      ⟨2, 1, [], (oneBuffer 5).datagrams.map .arrived⟩ := by
  have every : ∀ exchange ∈ threeThenFive, exchange.Fits 256 := by
    simp [threeThenFive, fits_three, fits_five]
  have three := @Message.datagrams_single _ (oneBuffer 3) (by decide) (by decide)
  have five := @Message.datagrams_single _ (oneBuffer 5) (by decide) (by decide)
  have sent : Underway 256 threeThenFive ⟨2, 0,
      [] ++ (oneBuffer 3).datagrams ++ (oneBuffer 5).datagrams, []⟩ :=
    (Underway.start.send rfl (fits_three.sends [])).send rfl (fits_five.sends _)
  rw [three, five] at sent
  have arrived := (sent.arrive rfl).arrive rfl
  rw [five]
  exact messages_in_order every
    (@Underway.receive _ _ _ _ _ clean _ _ arrived rfl rfl)

end Sequence

end NativeClient.Srpc
