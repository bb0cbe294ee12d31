import NativeClient.Srpc.EmptyEntries

/-!
# A run of `Send`

The bytes and descriptors that are left are cut into pieces, and each turn of
the loop sends the next piece.  `Send` comes to its end exactly if the entries
are filled as `FragmentsFilled` says; otherwise it stops with an error or goes
on for ever.
-/

namespace NativeClient.Srpc

open NativeClient.Library

variable {δ : Type}

def Datagram.size (piece : Datagram δ) : LengthHeader :=
  ⟨piece.bytes.length, piece.descs.length⟩

def pieces (bytes : List UInt8) (descs : List δ) : List (Datagram δ) :=
  if bytes.length + descs.length = 0 then []
  else
    ⟨bytes.take maxImcSendmsgSize, descs.take descMax⟩ ::
      pieces (bytes.drop maxImcSendmsgSize) (descs.drop descMax)
termination_by bytes.length + descs.length
decreasing_by
  rw [List.length_drop, List.length_drop]
  have some : 0 < maxImcSendmsgSize ∧ 0 < descMax := by decide
  omega

def Datagram.fragment (piece : Datagram δ) : Datagram δ :=
  ⟨piece.size.bytes ++ piece.bytes, piece.descs⟩

def Datagram.firstFragment (total : LengthHeader) (piece : Datagram δ) :
    Datagram δ :=
  ⟨total.bytes ++ piece.size.bytes ++ piece.bytes, piece.descs⟩

section Lengths

variable (caller : Nat → UInt8) (total fragment : LengthHeader)

private theorem map_getD (bytes : List UInt8) :
    (List.range bytes.length).map (fun index => bytes.getD index 0) = bytes := by
  apply List.ext_getElem
  · rw [List.length_map, List.length_range]
  · intro index _ below
    rw [List.getElem_map, List.getElem_range, List.getD_eq_getElem?_getD,
      List.getElem?_eq_getElem below, Option.getD_some]

theorem map_totalEntry :
    (lengthEntry .totalSize).places.map (withLengths caller total fragment) =
      total.bytes := by
  have whole := map_getD total.bytes
  rw [length_lengthHeader_bytes] at whole
  simp only [IoVec.places, lengthEntry, List.map_map, Function.comp_def,
    Nat.zero_add, withLengths, whole]

theorem map_fragmentEntry :
    (lengthEntry .fragmentSize).places.map
        (withLengths caller total fragment) = fragment.bytes := by
  have whole := map_getD fragment.bytes
  rw [length_lengthHeader_bytes] at whole
  simp only [IoVec.places, lengthEntry, List.map_map, Function.comp_def,
    Nat.zero_add, withLengths, whole]

end Lengths

section Build

variable {lengths entries : List IoVec}

theorem places_build (complete : NextComplete entries) :
    places (buildFragmentHeader (lengths ++ entries) (nextCount entries)
        lengths.length) =
      places lengths ++ (places entries).take (nextCount entries) := by
  rcases List.eq_nil_or_concat entries with rfl | ⟨front, last, rfl⟩
  · rw [buildFragmentHeader_nil, places_nil, List.take_nil, List.append_nil]
  rw [List.concat_eq_append] at complete ⊢
  by_cases reached : totalLength front < nextCount (front ++ [last])
  · have some : 0 < last.length := by
      unfold nextCount at reached
      rw [totalLength_append, totalLength_cons, totalLength_nil] at reached
      omega
    rw [buildFragmentHeader_reaching reached some
      (complete front last rfl reached), places_append, places_cut]
  · have short := Nat.le_of_not_lt reached
    rw [buildFragmentHeader_short short, places_append, places_cut,
      places_append, List.take_append_of_le_length]
    rw [length_places]
    exact short

theorem totalLength_build (complete : NextComplete entries) :
    totalLength (buildFragmentHeader (lengths ++ entries) (nextCount entries)
        lengths.length) = totalLength lengths + nextCount entries := by
  rw [← length_places, places_build complete, List.length_append,
    List.length_take, length_places, length_places]
  unfold nextCount
  omega

def fragmentLength (count : Nat) : List Nat → Nat
  | [] => count
  | first :: lengths =>
      let whole := first :: lengths
      if whole.dropLast.sum < min whole.sum maxImcSendmsgSize then
        count + whole.length
      else count + whole.length - 1

theorem fragmentLength_concat (count : Nat) (front : List IoVec) (last : IoVec) :
    fragmentLength count (Srpc.lengths (front ++ [last])) =
      if totalLength front < nextCount (front ++ [last]) then
        count + front.length + 1
      else count + front.length := by
  have shape : ∀ values : List Nat, values ≠ [] →
      fragmentLength count values =
        if values.dropLast.sum < min values.sum maxImcSendmsgSize then
          count + values.length
        else count + values.length - 1 := by
    intro values nonempty
    cases values with
    | nil => exact absurd rfl nonempty
    | cons first values => rfl
  rw [shape _ (by simp), Srpc.lengths, List.map_append, List.map_singleton,
    List.dropLast_concat, sum_lengths]
  unfold nextCount
  rw [totalLength_append, totalLength_cons, totalLength_nil, List.sum_append,
    List.length_append, List.length_map, List.length_singleton, sum_lengths]
  simp only [List.sum_cons, List.sum_nil]
  rfl

theorem length_build (complete : NextComplete entries) :
    (buildFragmentHeader (lengths ++ entries) (nextCount entries)
        lengths.length).length =
      fragmentLength lengths.length (Srpc.lengths entries) := by
  rcases List.eq_nil_or_concat entries with rfl | ⟨front, last, rfl⟩
  · rw [buildFragmentHeader_nil]
    rfl
  rw [List.concat_eq_append] at complete ⊢
  rw [fragmentLength_concat]
  split
  next reached =>
      have some : 0 < last.length := by
        unfold nextCount at reached
        rw [totalLength_append, totalLength_cons, totalLength_nil] at reached
        omega
      rw [buildFragmentHeader_reaching reached some
        (complete front last rfl reached), List.length_append,
        length_cutEntries, List.length_append]
      rfl
  next short =>
      rw [buildFragmentHeader_short (Nat.le_of_not_lt short),
        List.length_append, length_cutEntries]

theorem totalLength_build_lt (incomplete : ¬ NextComplete entries) :
    totalLength (buildFragmentHeader (lengths ++ entries) (nextCount entries)
        lengths.length) < totalLength lengths + nextCount entries := by
  unfold NextComplete at incomplete
  push Not at incomplete
  obtain ⟨front, last, rfl, reached, entry, member, none⟩ := incomplete
  have some : 0 < last.length := by
    unfold nextCount at reached
    rw [totalLength_append, totalLength_cons, totalLength_nil] at reached
    omega
  have fewer := @buildFragmentHeader_early lengths front last _ reached some
    ⟨entry, member, Nat.le_zero.mp none⟩
  omega

end Build

section Fragment

variable {message : Message δ} {total : LengthHeader} {state : Sending δ}
  {lengths entries : List IoVec} {iovecMax : Nat} {sizesFailed : Int}

def leftBytes (message : Message δ) (entries : List IoVec) : List UInt8 :=
  (places entries).map fun place => message.memory place.offset

@[simp] theorem length_leftBytes (message : Message δ) (entries : List IoVec) :
    (leftBytes message entries).length = totalLength entries := by
  rw [leftBytes, List.length_map, length_places]

structure SendPoint (message : Message δ) (state : Sending δ)
    (lengths entries : List IoVec) : Prop where
  stands : Stands state.vector state.remaining (lengths ++ entries)
  overhead : totalLength lengths = lengths.length * fragmentOverhead
  caller : ∀ place ∈ places entries, place.object = .caller
  descs : state.remaining.descv + state.remaining.descLength =
    message.descs.length
  limit : totalLength entries ≤ abiSsizeMax

def leftDescs (message : Message δ) (state : Sending δ) : List δ :=
  message.descs.drop state.remaining.descv

theorem SendPoint.length_leftDescs
    (point : SendPoint message state lengths entries) :
    (leftDescs message state).length = state.remaining.descLength := by
  rw [leftDescs, List.length_drop]
  have sum := point.descs
  omega

def nextPiece (message : Message δ) (state : Sending δ)
    (entries : List IoVec) : Datagram δ :=
  ⟨(leftBytes message entries).take maxImcSendmsgSize,
    (leftDescs message state).take descMax⟩

theorem SendPoint.size_nextPiece
    (point : SendPoint message state lengths entries) :
    (nextPiece message state entries).size =
      ⟨nextCount entries, min descMax state.remaining.descLength⟩ := by
  unfold nextPiece Datagram.size nextCount
  rw [List.length_take, List.length_take, length_leftBytes,
    point.length_leftDescs, Nat.min_comm]

private theorem SendPoint.computeFragmentSizes
    (point : SendPoint message state lengths entries) :
    computeFragmentSizes (lengths ++ entries) lengths.length
        state.remaining.descLength =
      some (nextPiece message state entries).size := by
  unfold Srpc.computeFragmentSizes iovTotalBytes
  have limit := point.limit
  simp only [List.drop_left]
  rw [if_neg (Nat.not_lt.mpr limit), point.size_nextPiece]
  rfl

private theorem SendPoint.map_entries
    (point : SendPoint message state lengths entries)
    (fragment : LengthHeader) :
    ((places entries).take (nextCount entries)).map
        (withLengths message.memory total fragment) =
      (leftBytes message entries).take maxImcSendmsgSize := by
  have same : (places entries).map
      (withLengths message.memory total fragment) =
        leftBytes message entries := by
    apply List.map_congr_left
    intro place member
    obtain ⟨object, offset⟩ := place
    cases point.caller _ member
    rfl
  rw [List.map_take, same, List.take_eq_take_iff, length_leftBytes]
  unfold nextCount
  omega

private theorem SendPoint.sendFragment_eq
    (point : SendPoint message state lengths entries) :
    sendFragment iovecMax message total lengths.length sizesFailed state =
      let fragment := (nextPiece message state entries).size
      let sent := imcSendmsg iovecMax
        (withLengths message.memory total fragment)
        (buildFragmentHeader (lengths ++ entries) (nextCount entries)
          lengths.length)
        (nextPiece message state entries).descs state.channel
      if sent.1 ≠ ((totalLength lengths + nextCount entries : Nat) : Int) then
        .error (errnoFromImcRet sent.1, sent.2)
      else
        .ok ⟨(consumeFragment state.vector state.remaining fragment
            lengths.length).1,
          (consumeFragment state.vector state.remaining fragment
            lengths.length).2, sent.2⟩ := by
  have taken : (leftDescs message state).take
      (min descMax state.remaining.descLength) =
        (nextPiece message state entries).descs := by
    rw [nextPiece, List.take_eq_take_iff, point.length_leftDescs]
    omega
  unfold sendFragment
  simp only [point.stands.view_eq, point.computeFragmentSizes]
  rw [point.size_nextPiece]
  simp only [leftDescs] at taken
  simp only [taken, point.overhead, Nat.add_comm (nextCount entries)]

def afterFragment (message : Message δ) (total : LengthHeader)
    (state : Sending δ) (lengths entries : List IoVec) : Sending δ :=
  let piece := nextPiece message state entries
  let consumed :=
    consumeFragment state.vector state.remaining piece.size lengths.length
  ⟨consumed.1, consumed.2,
    state.channel ++
      [⟨(places lengths).map
          (withLengths message.memory total piece.size) ++ piece.bytes,
        piece.descs⟩]⟩

theorem SendPoint.sendFragment_complete
    (point : SendPoint message state lengths entries)
    (few : lengths.length ≤ 2) (complete : NextComplete entries)
    (fits : fragmentLength lengths.length (Srpc.lengths entries) ≤ iovecMax) :
    sendFragment iovecMax message total lengths.length sizesFailed state =
      .ok (afterFragment message total state lengths entries) := by
  have fewDescs :
      ¬ descMax < (nextPiece message state entries).descs.length := by
    rw [nextPiece, List.length_take]
    omega
  have fewBytes :
      ¬ imcUserBytesMax < totalLength lengths + nextCount entries := by
    have overhead := point.overhead
    unfold nextCount imcUserBytesMax maxImcSendmsgSize
    unfold fragmentOverhead at overhead
    omega
  rw [point.sendFragment_eq]
  unfold imcSendmsg
  simp only [length_build complete, totalLength_build complete, fewDescs,
    fewBytes, if_neg (Nat.not_lt.mpr fits), if_false, ne_eq, not_true_eq_false,
    places_build complete, List.map_append, point.map_entries]
  rfl

theorem SendPoint.sendFragment_error
    (point : SendPoint message state lengths entries)
    (fails : ¬ (NextComplete entries ∧
      fragmentLength lengths.length (Srpc.lengths entries) ≤ iovecMax)) :
    ∃ result channel,
      sendFragment iovecMax message total lengths.length sizesFailed state =
        .error (result, channel) ∧ result < 0 := by
  have negative : ∀ result : Int, errnoFromImcRet result < 0 := by
    intro result
    unfold errnoFromImcRet eio
    split
    next below => exact below
    next => decide
  rw [point.sendFragment_eq]
  simp only
  rw [if_pos]
  · exact ⟨_, _, rfl, negative _⟩
  · have errors : ∀ count : Nat, -einval ≠ (count : Int) := by
      intro count
      unfold einval
      omega
    unfold imcSendmsg
    by_cases complete : NextComplete entries
    · have long := fun fits => fails ⟨complete, fits⟩
      rw [length_build complete, if_pos (Nat.lt_of_not_le long)]
      exact errors _
    · have fewer := @totalLength_build_lt lengths entries complete
      split
      next => exact errors _
      next =>
          split
          next => exact errors _
          next =>
            split
            next => exact errors _
            next =>
              simp only [ne_eq, Nat.cast_inj]
              omega

section After

variable (point : SendPoint message state lengths entries)

include point

theorem SendPoint.after :
    SendPoint message (afterFragment message total state lengths entries) []
      (consumedEntries entries (nextCount entries)).1 := by
  obtain ⟨stands, -⟩ := point.stands.consumeFragment
    (nextPiece message state entries).size
  have read : (nextPiece message state entries).size.descCount ≤
      state.remaining.descLength := by
    rw [point.size_nextPiece]
    exact Nat.min_le_right _ _
  refine ⟨?_, rfl, ?_, ?_, ?_⟩
  · rw [point.size_nextPiece] at stands
    unfold afterFragment
    simp only [point.size_nextPiece, List.nil_append]
    exact stands
  · intro place member
    rw [places_consumed] at member
    exact point.caller place (List.mem_of_mem_drop member)
  · have sum := point.descs
    simp only [afterFragment, consumeFragment]
    omega
  · have limit := point.limit
    rw [totalLength_consumed]
    omega

theorem SendPoint.after_iov :
    state.remaining.iov + lengths.length ≤
      (afterFragment message total state lengths entries).remaining.iov :=
  (point.stands.consumeFragment (nextPiece message state entries).size).2

theorem SendPoint.after_descLength :
    (afterFragment message total state lengths entries).remaining.descLength =
      state.remaining.descLength - descMax := by
  simp only [afterFragment, consumeFragment, point.size_nextPiece]
  omega

theorem SendPoint.after_leftDescs :
    leftDescs message (afterFragment message total state lengths entries) =
      (leftDescs message state).drop descMax := by
  have read : min (min descMax state.remaining.descLength)
      state.remaining.descLength =
        min descMax state.remaining.descLength := by omega
  unfold leftDescs
  simp only [afterFragment, consumeFragment, point.size_nextPiece, read]
  rw [List.drop_drop]
  have sum := point.descs
  by_cases many : descMax ≤ state.remaining.descLength
  · rw [Nat.min_eq_left many]
  · rw [List.drop_eq_nil_of_le (by omega), List.drop_eq_nil_of_le (by omega)]

end After

theorem leftBytes_consumed (message : Message δ) (entries : List IoVec) :
    leftBytes message (consumedEntries entries (nextCount entries)).1 =
      (leftBytes message entries).drop maxImcSendmsgSize := by
  unfold leftBytes
  rw [places_consumed, List.map_drop]
  by_cases many : maxImcSendmsgSize ≤ totalLength entries
  · unfold nextCount
    rw [Nat.min_eq_right many]
  · have few : nextCount entries = totalLength entries := by
      unfold nextCount
      omega
    rw [few, List.drop_eq_nil_of_le, List.drop_eq_nil_of_le]
    · rw [List.length_map, length_places]
      omega
    · rw [List.length_map, length_places]

end Fragment

section Loop

variable {message : Message δ} {total : LengthHeader} {state : Sending δ}
  {entries : List IoVec} {iovecMax : Nat}

def prepared (state : Sending δ) : Sending δ :=
  let next := addFragmentLength state.vector state.remaining
  ⟨next.1, next.2, state.channel⟩

structure TurnPoint (message : Message δ) (state : Sending δ)
    (entries : List IoVec) : Prop where
  point : SendPoint message state [] entries
  slot : 0 < state.remaining.iov
  room : totalLength entries + fragmentOverhead ≤ abiSsizeMax

theorem TurnPoint.prepared (turn : TurnPoint message state entries) :
    SendPoint message (prepared state) [lengthEntry .fragmentSize] entries where
  stands := turn.point.stands.addFragmentLength turn.slot
  overhead := rfl
  caller := turn.point.caller
  descs := turn.point.descs
  limit := turn.point.limit

theorem TurnPoint.sendTurn_eq
    (turn : TurnPoint message state entries)
    (more : ¬ (entries = [] ∧ state.remaining.descLength = 0)) :
    sendTurn iovecMax message total state =
      match sendFragment iovecMax message total 1 (-eio) (Srpc.prepared state)
        with
      | .error result => .leave result
      | .ok next => .again next := by
  have goesOn : ¬ (state.remaining.iovLength = 0 ∧
      state.remaining.descLength = 0) := by
    rw [turn.point.stands.length, List.nil_append, List.length_eq_zero_iff]
    exact more
  have within : iovTotalBytes (view (Srpc.prepared state).vector
      (Srpc.prepared state).remaining) 0 ≠ none := by
    have room := turn.room
    rw [turn.prepared.stands.view_eq]
    unfold iovTotalBytes
    simp only [List.drop_zero, List.singleton_append, totalLength_cons,
      lengthEntry]
    rw [if_neg (by omega)]
    exact Option.some_ne_none _
  unfold sendTurn
  rw [if_neg goesOn]
  simp only [Srpc.prepared] at within ⊢
  exact if_neg within

theorem TurnPoint.again
    (turn : TurnPoint message state entries) :
    TurnPoint message
      (afterFragment message total (Srpc.prepared state)
        [lengthEntry .fragmentSize] entries)
      (consumedEntries entries (nextCount entries)).1 where
  point := turn.prepared.after
  slot := by
    have further := @SendPoint.after_iov _ _ total _ _ _ turn.prepared
    rw [List.length_singleton] at further
    omega
  room := by
    have room := turn.room
    rw [totalLength_consumed]
    omega

theorem fragmentLength_le (entries : List IoVec) (count : Nat) :
    fragmentLength count (Srpc.lengths entries) ≤ count + entries.length := by
  rcases List.eq_nil_or_concat entries with rfl | ⟨front, last, rfl⟩
  · exact Nat.le_refl _
  · rw [List.concat_eq_append, fragmentLength_concat, List.length_append,
      List.length_singleton]
    split <;> omega

def restOf (message : Message δ) (state : Sending δ) (entries : List IoVec) :
    List (Datagram δ) :=
  (pieces (leftBytes message entries) (leftDescs message state)).map
    Datagram.fragment

theorem TurnPoint.restOf_again
    (turn : TurnPoint message state entries)
    (more : totalLength entries + state.remaining.descLength ≠ 0) :
    state.channel ++ restOf message state entries =
      (afterFragment message total (Srpc.prepared state)
        [lengthEntry .fragmentSize] entries).channel ++
      restOf message
        (afterFragment message total (Srpc.prepared state)
          [lengthEntry .fragmentSize] entries)
        (consumedEntries entries (nextCount entries)).1 := by
  unfold restOf
  rw [pieces, length_leftBytes, turn.point.length_leftDescs, if_neg more,
    turn.prepared.after_leftDescs, leftBytes_consumed]
  simp only [afterFragment, places_cons, places_nil, List.append_nil,
    map_fragmentEntry, List.map_cons, List.append_assoc]
  rfl

theorem TurnPoint.returns
    (turn : TurnPoint message state entries)
    (filled : FragmentsFilled (Srpc.lengths entries))
    (fits : entries.length + 1 ≤ iovecMax) :
    Returns (sendTurn iovecMax message total) state
      ((total.byteCount : Int),
        state.channel ++ restOf message state entries) := by
  induction size : totalLength entries + state.remaining.descLength
    using Nat.strongRecOn generalizing state entries with
  | ind size ih =>
      by_cases ended : entries = [] ∧ state.remaining.descLength = 0
      · obtain ⟨rfl, noDescs⟩ := ended
        have leaves : sendTurn iovecMax message total state =
            .leave ((total.byteCount : Int), state.channel) := by
          unfold sendTurn
          rw [if_pos ⟨turn.point.stands.length, noDescs⟩]
        have nothing : restOf message state [] = [] := by
          unfold restOf
          rw [pieces, length_leftBytes, turn.point.length_leftDescs, noDescs,
            totalLength_nil]
          rfl
        rw [returns_leave leaves, nothing, List.append_nil]
      · have complete := filled.nextComplete
        have short := fragmentLength_le entries 1
        have sent := @SendPoint.sendFragment_complete _ _ total _ _ _ iovecMax
          (-eio) turn.prepared (by decide) complete (by
            rw [List.length_singleton]
            omega)
        have goesOn := @TurnPoint.sendTurn_eq _ _ total _ _ iovecMax turn ended
        rw [List.length_singleton] at sent
        rw [sent] at goesOn
        have some : totalLength entries + state.remaining.descLength ≠ 0 := by
          intro none
          apply ended
          refine ⟨?_, by omega⟩
          rcases List.eq_nil_or_concat entries with rfl | ⟨front, last, rfl⟩
          · rfl
          · rw [List.concat_eq_append] at filled none
            obtain ⟨positive, -⟩ := (fragmentsFilled_entries _ _).mp filled
            rw [totalLength_append, totalLength_cons] at none
            omega
        rw [returns_again goesOn, turn.restOf_again some]
        have fewer := length_consumed_le entries (nextCount entries)
        refine ih _ ?_ turn.again
          ((fragmentsFilled_consumed complete).mpr filled) (by omega) rfl
        have descs := @SendPoint.after_descLength _ _ total _ _ _ turn.prepared
        rw [totalLength_consumed, descs, ← size]
        have positive : 0 < maxImcSendmsgSize ∧ 0 < descMax := by decide
        simp only [Srpc.prepared, addFragmentLength, nextCount]
        omega

theorem TurnPoint.negative
    (turn : TurnPoint message state entries)
    (filled : ¬ FragmentsFilled (Srpc.lengths entries))
    {result : Int × List (Datagram δ)}
    (returned : Returns (sendTurn iovecMax message total) state result) :
    result.1 < 0 := by
  have step : ∀ state entries, TurnPoint message state entries →
      ¬ FragmentsFilled (Srpc.lengths entries) →
      (∃ failed, sendTurn iovecMax message total state = .leave failed ∧
        failed.1 < 0) ∨
      ∃ next rest, sendTurn iovecMax message total state = .again next ∧
        TurnPoint message next rest ∧
        ¬ FragmentsFilled (Srpc.lengths rest) := by
    intro state entries turn filled
    have nonempty : entries ≠ [] := by
      rintro rfl
      exact filled fragmentsFilled_nil
    rw [turn.sendTurn_eq fun ended => nonempty ended.1]
    by_cases sends : NextComplete entries ∧
        fragmentLength 1 (Srpc.lengths entries) ≤ iovecMax
    · have sent := @SendPoint.sendFragment_complete _ _ total _ _ _ iovecMax
        (-eio) turn.prepared (by decide) sends.1 sends.2
      rw [List.length_singleton] at sent
      rw [sent]
      refine .inr ⟨_, _, rfl, turn.again, ?_⟩
      rw [fragmentsFilled_consumed sends.1]
      exact filled
    · obtain ⟨failed, channel, errs, below⟩ := @SendPoint.sendFragment_error _ _
        total _ _ _ iovecMax (-eio) turn.prepared sends
      rw [List.length_singleton] at errs
      rw [errs]
      exact .inl ⟨_, rfl, below⟩
  refine Returns.invariant
    (fun state => ∃ entries, TurnPoint message state entries ∧
      ¬ FragmentsFilled (Srpc.lengths entries))
    (fun result => result.1 < 0) ?_ ?_ ⟨entries, turn, filled⟩ returned
  · rintro current next ⟨left, here, unfilled⟩ action
    rcases step current left here unfilled with
      ⟨failed, leaves, -⟩ | ⟨other, rest, goesOn, there, still⟩
    · rw [leaves] at action
      cases action
    · rw [goesOn] at action
      cases action
      exact ⟨rest, there, still⟩
  · rintro current outcome ⟨left, here, unfilled⟩ action
    rcases step current left here unfilled with
      ⟨failed, leaves, below⟩ | ⟨other, rest, goesOn, -, -⟩
    · rw [leaves] at action
      cases action
      exact below
    · rw [goesOn] at action
      cases action

end Loop

section Message

variable (message : Message δ) (channel : List (Datagram δ))

def Message.entries : List IoVec := message.iov.map UserBuffer.ioVec

def Message.total : LengthHeader :=
  ⟨totalLength message.entries, message.descs.length⟩

def Message.lengths : List Nat := message.iov.map UserBuffer.length

def Message.firstPiece : Datagram δ :=
  ⟨message.bytes.take maxImcSendmsgSize, message.descs.take descMax⟩

def Message.datagrams : List (Datagram δ) :=
  message.firstPiece.firstFragment message.total ::
    (pieces (message.bytes.drop maxImcSendmsgSize)
      (message.descs.drop descMax)).map Datagram.fragment

def Message.Within : Prop :=
  totalLength message.entries + 2 * fragmentOverhead ≤ abiSsizeMax

theorem Message.lengths_entries :
    Srpc.lengths message.entries = message.lengths := by
  unfold Srpc.lengths Message.entries Message.lengths
  rw [List.map_map]
  rfl

theorem Message.leftBytes_entries :
    leftBytes message message.entries = message.bytes := by
  unfold leftBytes Message.entries Message.bytes
  rw [places_ioVec, List.map_map]
  rfl

private theorem Message.caller :
    ∀ place ∈ places message.entries, place.object = .caller := by
  unfold Message.entries
  rw [places_ioVec]
  intro place member
  obtain ⟨address, -, rfl⟩ := List.mem_map.mp member
  rfl

def started : Sending δ :=
  ⟨twoLengths ++ message.entries,
    ⟨0, message.entries.length + 2, 0, message.descs.length, noFlags⟩, channel⟩

variable {message}

theorem started_point (within : message.Within) :
    SendPoint message (started message channel) twoLengths message.entries where
  stands :=
    { split := ⟨[], rfl, rfl⟩
      length := by
        simp only [started, twoLengths, List.length_append, List.length_cons,
          List.length_nil]
        omega }
  overhead := rfl
  caller := message.caller
  descs := by
    simp only [started, Nat.zero_add]
  limit := by
    unfold Message.Within at within
    omega

theorem sendFirst_eq (within : message.Within) (iovecMax : Nat) :
    sendFirst iovecMax message channel =
      match sendFragment iovecMax message message.total 2 (-einval)
        (started message channel) with
      | .error result => .error result
      | .ok state => .ok (message.total, state) := by
  obtain ⟨copy, copied, filledIn⟩ := copyAndAddIovs_eq within
  obtain ⟨some, count⟩ := iovTotalBytes_twoLengths within
  have viewed := (started_point channel within).stands.view_eq
  unfold sendFirst
  simp only [Message.entries, started] at copied filledIn some count viewed ⊢
  rw [copied]
  simp only [filledIn, viewed, some, count, if_false]
  rfl

theorem afterFragment_started (within : message.Within) :
    (afterFragment message message.total (started message channel) twoLengths
        message.entries).channel ++
      restOf message
        (afterFragment message message.total (started message channel)
          twoLengths message.entries)
        (consumedEntries message.entries (nextCount message.entries)).1 =
      channel ++ message.datagrams := by
  have piece : nextPiece message (started message channel) message.entries =
      message.firstPiece := by
    unfold nextPiece
    rw [message.leftBytes_entries]
    rfl
  unfold restOf
  rw [(started_point channel within).after_leftDescs, leftBytes_consumed,
    message.leftBytes_entries]
  simp only [afterFragment, piece, twoLengths, places_cons, places_nil,
    List.append_nil, List.map_append, map_totalEntry, map_fragmentEntry,
    List.append_assoc]
  unfold Message.datagrams Datagram.firstFragment
  rw [List.append_assoc]
  rfl

private theorem turnPoint_afterFirst (within : message.Within) :
    TurnPoint message
      (afterFragment message message.total (started message channel) twoLengths
        message.entries)
      (consumedEntries message.entries (nextCount message.entries)).1 where
  point := (started_point channel within).after
  slot := by
    have further := @SendPoint.after_iov _ _ message.total _ _ _
      (started_point channel within)
    simp only [twoLengths, List.length_cons, List.length_nil] at further ⊢
    omega
  room := by
    unfold Message.Within at within
    rw [totalLength_consumed]
    omega

theorem fragmentLength_ge (count : Nat) (entries : List IoVec) :
    count + entries.length ≤ fragmentLength count (Srpc.lengths entries) + 1 := by
  rcases List.eq_nil_or_concat entries with rfl | ⟨front, last, rfl⟩
  · exact Nat.le_succ _
  · rw [List.concat_eq_append, fragmentLength_concat, List.length_append,
      List.length_singleton]
    split <;> omega

theorem sendReturns_of_filled
    {iovecMax : Nat} (within : message.Within)
    (filled : FragmentsFilled message.lengths)
    (fits : fragmentLength 2 message.lengths ≤ iovecMax) :
    SendReturns iovecMax message channel
      ((message.total.byteCount : Int), channel ++ message.datagrams) := by
  rw [← message.lengths_entries] at filled fits
  have complete := filled.nextComplete
  have sent := @SendPoint.sendFragment_complete _ _ message.total _ _ _
    iovecMax (-einval) (started_point channel within) (by decide) complete fits
  have many := fragmentLength_ge 2 message.entries
  have fewer := length_consumed_le message.entries (nextCount message.entries)
  have two : twoLengths.length = 2 := rfl
  rw [two] at sent
  unfold SendReturns
  rw [sendFirst_eq channel within, sent]
  simp only
  rw [← afterFragment_started channel within]
  exact (turnPoint_afterFirst channel within).returns
    ((fragmentsFilled_consumed complete).mpr filled) (by omega)

theorem sendReturns_negative
    {iovecMax : Nat} (within : message.Within)
    (fails : ¬ (FragmentsFilled message.lengths ∧
      fragmentLength 2 message.lengths ≤ iovecMax))
    {result : Int × List (Datagram δ)}
    (returned : SendReturns iovecMax message channel result) :
    result.1 < 0 := by
  rw [← message.lengths_entries] at fails
  have two : twoLengths.length = 2 := rfl
  unfold SendReturns at returned
  rw [sendFirst_eq channel within] at returned
  by_cases sends : NextComplete message.entries ∧
      fragmentLength 2 (Srpc.lengths message.entries) ≤ iovecMax
  · have sent := @SendPoint.sendFragment_complete _ _ message.total _ _ _
      iovecMax (-einval) (started_point channel within) (by decide) sends.1
      sends.2
    rw [two] at sent
    rw [sent] at returned
    refine (turnPoint_afterFirst channel within).negative ?_ returned
    rw [fragmentsFilled_consumed sends.1]
    exact fun filled => fails ⟨filled, sends.2⟩
  · obtain ⟨failed, left, errs, below⟩ := @SendPoint.sendFragment_error _ _
      message.total _ _ _ iovecMax (-einval) (started_point channel within) sends
    rw [two] at errs
    rw [errs] at returned
    simp only at returned
    rw [returned]
    exact below

end Message

end NativeClient.Srpc
