import NativeClient.Imc.OsxDatagrams
import Mathlib.Data.List.Forall2

/-!
# Whether the receiver stays in step

The receiver stays in step as long as it reads whole headers, the messages are
shorter than `2 ^ 31` bytes, and there is room for at least one byte of every
message that is not empty.  Without any room the bytes of the message stay in
the stream and are taken for the next header.
-/

namespace NativeClient.Imc

open NativeClient.Library

section Sizes

theorem messageSizeIsValid_iff
    {curBytes : Nat} (small : curBytes ≤ 2 ^ 32 - 1) (lengths : List Nat) :
    messageSizeIsValid curBytes lengths = true ↔
      curBytes + lengths.sum ≤ 2 ^ 32 - 1 := by
  induction lengths generalizing curBytes with
  | nil => exact iff_of_true rfl small
  | cons length lengths ih =>
      rw [messageSizeIsValid, List.sum_cons]
      by_cases beyond : 2 ^ 32 - 1 - curBytes < length
      · rw [if_pos beyond]
        constructor
        · exact nofun
        · omega
      · rw [if_neg beyond, ih (by omega), Nat.add_assoc]

theorem toInt_of_lt {value : Nat} (small : value < 2 ^ 31) :
    toInt value = value := by
  unfold toInt
  rw [Nat.mod_eq_of_lt (by omega), if_pos small]

theorem toInt_neg {value : Nat} (large : 2 ^ 31 ≤ value) (fits : value < 2 ^ 32) :
    toInt value < 0 := by
  unfold toInt
  rw [Nat.mod_eq_of_lt fits, if_neg (by omega)]
  omega

theorem trim_sum
    {messageBytes bufferBytes : Nat} (room : bufferBytes ≤ messageBytes)
    (lengths : List Nat) :
    bufferBytes + (trim messageBytes bufferBytes lengths).1.sum =
        min messageBytes (bufferBytes + lengths.sum) ∧
      (trim messageBytes bufferBytes lengths).2 =
        min messageBytes (bufferBytes + lengths.sum) := by
  induction lengths generalizing bufferBytes with
  | nil =>
      simp only [trim, List.sum_nil]
      omega
  | cons length lengths ih =>
      rw [trim, List.sum_cons]
      by_cases full : messageBytes ≤ bufferBytes + length
      · rw [if_pos full]
        simp only [List.sum_singleton]
        omega
      · rw [if_neg full]
        obtain ⟨sum, total⟩ := @ih (bufferBytes + length) (by omega)
        simp only [List.sum_cons]
        omega

theorem trim_eq_nil_iff {messageBytes bufferBytes : Nat} {lengths : List Nat} :
    (trim messageBytes bufferBytes lengths).1 = [] ↔ lengths = [] := by
  cases lengths with
  | nil => simp [trim]
  | cons length lengths =>
      rw [trim]
      split <;> simp

theorem flatten_scatter (lengths : List Nat) (bytes : List UInt8) :
    (scatter lengths bytes).flatten = bytes.take lengths.sum := by
  induction lengths generalizing bytes with
  | nil => rw [scatter, List.sum_nil, List.take_zero, List.flatten_nil]
  | cons length lengths ih =>
      rw [scatter, List.flatten_cons, ih, List.sum_cons, List.take_add]

theorem Message.length_bytes (message : Message) :
    message.bytes.length = message.lengths.sum := by
  rw [bytes, lengths, List.length_flatten]

theorem length_encodeHeader (platform : Platform) (messageBytes handleCount : Nat) :
    (encodeHeader platform messageBytes handleCount).length =
      platform.headerSize := by
  rw [encodeHeader, List.length_append, length_littleEndian, length_littleEndian,
    Platform.headerSize, Nat.two_mul]

theorem length_frame (platform : Platform) (message : Message) :
    (frame platform message).length =
      platform.headerSize + message.bytes.length := by
  rw [frame, List.length_append, length_encodeHeader]

end Sizes

section InStep

variable {platform : Platform} {message : Message} {room : Room}

structure Matches (message : Message) (receive : Room × Received) : Prop where
  retval : receive.2.retval =
    (min receive.1.capacity message.bytes.length : Nat)
  stored : receive.2.stored.flatten = message.bytes.take receive.1.capacity
  truncated : receive.2.messageTruncated ↔
    receive.1.capacity < message.bytes.length

/-- The successful receives got the first messages, and the stream starts with
the header of the next one. -/
structure InStep (platform : Platform) (connection : Connection) : Prop where
  results : List.Forall₂ Matches
    (connection.sent.take connection.received.length) connection.received
  stream : connection.stream =
    (connection.sent.drop connection.received.length).flatMap (frame platform)

/-- What `SendDatagram` and the system let through. -/
structure Transmitted (platform : Platform) (message : Message)
    (accepts : Bool) : Prop where
  valid : message.bytes.length ≤ 2 ^ 32 - 1
  handles : message.handleCount ≤ handleCountMax
  buffers : message.iov.length ≤ iovLengthMax
  accepts : accepts = true
  system : platform.headerSize + message.bytes.length ≤ platform.ssizeMax

structure Room.Valid (room : Room) : Prop where
  handles : room.handleCount ≤ handleCountMax
  buffers : room.iov.length ≤ iovLengthMax
  bytes : room.capacity ≤ 2 ^ 32 - 1

def Proper (platform : Platform) (connection : Connection) : Call → Prop
  | .send message accepts =>
      Transmitted platform message accepts → message.bytes.length < 2 ^ 31
  | .receive room (.arrived count _) =>
      room.Valid → count = platform.headerSize ∧
        ∀ message, connection.sent[connection.received.length]? = some message →
          message.bytes ≠ [] → 0 < room.capacity
  | .receive _ .nothing => True

theorem Platform.headerSize_bounds (platform : Platform) :
    8 ≤ platform.headerSize ∧ platform.headerSize ≤ 16 := by
  unfold headerSize
  rcases platform.sizes with four | eight
  · omega
  · omega

theorem sendDatagram_transmitted
    {accepts : Bool}
    (transmitted : Transmitted platform message accepts) (stream : List UInt8) :
    (sendDatagram platform accepts message stream).2 =
        stream ++ frame platform message ∧
      (0 ≤ (sendDatagram platform accepts message stream).1 ↔
        message.bytes.length < 2 ^ 31) := by
  obtain ⟨valid, handles, buffers, accepted, system⟩ := transmitted
  obtain ⟨low, high⟩ := platform.headerSize_bounds
  have checked : messageSizeIsValid 0 message.lengths = true := by
    rw [messageSizeIsValid_iff (Nat.zero_le _), ← message.length_bytes]
    omega
  have full := length_frame platform message
  have payload : (frame platform message).length - platform.headerSize =
      message.bytes.length := by
    omega
  rw [sendDatagram, checked, if_neg nofun, if_neg (by omega)]
  simp only [payload]
  rw [if_neg (by rw [accepted]; simp; omega)]
  rcases Nat.lt_or_ge message.bytes.length (2 ^ 31) with short | long
  · have result : toInt (frame platform message).length ≠ -1 ∧
        ¬(0 ≤ toInt (frame platform message).length ∧
          toInt (frame platform message).length < platform.headerSize) := by
      rw [full]
      unfold toInt
      split <;> omega
    rw [if_neg result.1, if_neg result.2]
    refine ⟨rfl, iff_of_true ?_ short⟩
    rw [toInt_of_lt short]
    omega
  · have negative := toInt_neg long (by omega)
    split
    · exact ⟨rfl, iff_of_false (show ¬(0 : Int) ≤ -1 by decide)
        (by omega)⟩
    split
    · exact ⟨rfl, iff_of_false (show ¬(0 : Int) ≤ -1 by decide)
        (by omega)⟩
    · exact ⟨rfl, iff_of_false (by omega) (by omega)⟩

theorem sendDatagram_refused
    {accepts : Bool}
    (refuses : ¬Transmitted platform message accepts) (stream : List UInt8) :
    sendDatagram platform accepts message stream = (-1, stream) := by
  unfold sendDatagram
  split
  · rfl
  next valid =>
    split
    · rfl
    next checked =>
      simp only
      split
      · rfl
      next accepted =>
        refine absurd ?_ refuses
        have size : 0 + message.lengths.sum ≤ 2 ^ 32 - 1 :=
          (messageSizeIsValid_iff (Nat.zero_le _) _).mp (by simpa using valid)
        rw [length_frame] at accepted
        rw [← message.length_bytes] at size
        refine ⟨by omega, by omega, by omega, ?_, ?_⟩
        · by_contra refused
          exact accepted (.inl refused)
        · by_contra large
          exact accepted (.inr (by omega))

structure Message.Short (platform : Platform) (message : Message) : Prop where
  short : message.bytes.length < 2 ^ 31
  handles : message.handleCount ≤ handleCountMax
  system : platform.headerSize + message.bytes.length ≤ platform.ssizeMax

theorem receiveDatagram_frame
    (short : message.Short platform)
    (valid : room.Valid) (rights : Nat) (rest : List UInt8) :
    ∃ handlesTruncated,
      receiveDatagram platform room (.arrived platform.headerSize rights)
          (frame platform message ++ rest) =
        receiveBytes platform room message.bytes.length handlesTruncated
          (message.bytes ++ rest) := by
  obtain ⟨bytes, handles, system⟩ := short
  obtain ⟨roomHandles, buffers, capacity⟩ := valid
  obtain ⟨low, high⟩ := platform.headerSize_bounds
  have width : 2 ^ 32 ≤ 256 ^ platform.sizeBytes := by
    rcases platform.sizes with four | eight
    · rw [four]
      decide
    · rw [eight]
      decide
  have checked : messageSizeIsValid 0 room.iov = true := by
    rw [messageSizeIsValid_iff (Nat.zero_le _), Nat.zero_add]
    exact capacity
  have header : (frame platform message ++ rest).take platform.sizeBytes =
      littleEndian platform.sizeBytes message.lengths.sum := by
    rw [frame, encodeHeader, List.append_assoc, List.append_assoc]
    exact List.take_left' (length_littleEndian _ _)
  have behind : (frame platform message ++ rest).drop platform.headerSize =
      message.bytes ++ rest := by
    rw [frame, List.append_assoc]
    exact List.drop_left' (length_encodeHeader _ _ _)
  have full : (frame platform message ++ rest).length =
      platform.headerSize + message.bytes.length + rest.length := by
    rw [List.length_append, length_frame]
  refine ⟨decide (rights < ofLittleEndian (((frame platform message ++ rest).drop
    platform.sizeBytes).take platform.sizeBytes)), ?_⟩
  rw [receiveDatagram, if_neg (by omega), checked, if_neg nofun]
  simp only
  rw [if_neg (by omega), if_neg (not_not.mpr rfl), header, behind,
    ofLittleEndian_littleEndian
      (show message.lengths.sum < 256 ^ platform.sizeBytes by
        rw [← message.length_bytes]; omega), ← message.length_bytes]

theorem receiveBytes_matches
    (short : message.Short platform)
    (roomy : message.bytes ≠ [] → 0 < room.capacity)
    (handlesTruncated : Bool) (rest : List UInt8) :
    ∃ result, receiveBytes platform room message.bytes.length handlesTruncated
        (message.bytes ++ rest) = some (result, rest) ∧
      0 ≤ result.retval ∧ Matches message (room, result) := by
  obtain ⟨bytes, handles, system⟩ := short
  by_cases empty : message.bytes = []
  · refine ⟨⟨0, [], false, handlesTruncated⟩, ?_, Int.le_refl 0, ?_, ?_, ?_⟩
    · rw [receiveBytes, empty, List.length_nil, if_pos rfl, List.nil_append]
    · rw [empty, List.length_nil, Nat.min_zero]
      rfl
    · rw [empty, List.take_nil, List.flatten_nil]
    · rw [empty, List.length_nil]
      exact iff_of_false nofun (Nat.not_lt_zero _)
  · have some := roomy empty
    have positive : 0 < message.bytes.length := List.length_pos_iff.mpr empty
    obtain ⟨sum, total⟩ := trim_sum (Nat.zero_le message.bytes.length) room.iov
    rw [Nat.zero_add, Nat.zero_add] at sum
    rw [Nat.zero_add] at total
    have buffers : (trim message.bytes.length 0 room.iov).1 ≠ [] := by
      rw [Ne, trim_eq_nil_iff]
      intro none
      rw [Room.capacity, none] at some
      exact Nat.lt_irrefl 0 some
    have wanted : min message.bytes.length room.iov.sum =
        min room.capacity message.bytes.length := Nat.min_comm _ _
    rw [wanted] at sum total
    have int : toInt (min room.capacity message.bytes.length) =
        (min room.capacity message.bytes.length : Nat) :=
      toInt_of_lt (by omega)
    have taken : (message.bytes ++ rest).take
        (min room.capacity message.bytes.length) =
          message.bytes.take room.capacity := by
      rw [List.take_append_of_le_length (Nat.min_le_right _ _),
        ← List.take_take, List.take_length]
    have length : (message.bytes ++ rest).length =
        message.bytes.length + rest.length := List.length_append
    have stored : (scatter (trim message.bytes.length 0 room.iov).1
        (message.bytes.take room.capacity)).flatten =
          message.bytes.take room.capacity := by
      rw [flatten_scatter, sum]
      exact List.take_of_length_le (Nat.le_of_eq List.length_take)
    rw [receiveBytes, if_neg (by omega)]
    simp only [sum, total]
    rw [if_neg (by rintro (none | large); exact buffers none; omega),
      if_neg (by omega), int, taken]
    by_cases less : room.capacity < message.bytes.length
    · have count : min room.capacity message.bytes.length = room.capacity :=
        Nat.min_eq_left (Nat.le_of_lt less)
      have skipped : ((message.bytes ++ rest).drop room.capacity).drop
          (message.bytes.length - room.capacity) = rest := by
        rw [List.drop_drop, Nat.add_sub_of_le (Nat.le_of_lt less), List.drop_left]
      rw [count]
      rw [if_pos (by omega), if_neg (by rw [List.length_drop]; omega), skipped]
      refine ⟨_, rfl, Int.natCast_nonneg _, ?_, stored, iff_of_true rfl less⟩
      rw [count]
    · have count : min room.capacity message.bytes.length =
          message.bytes.length := Nat.min_eq_right (Nat.not_lt.mp less)
      rw [count, if_neg (by omega), List.drop_left]
      refine ⟨_, rfl, Int.natCast_nonneg _, ?_, stored, ?_⟩
      · rw [count]
      · simp only [Nat.lt_irrefl, decide_false]
        exact iff_of_false nofun less

theorem receiveBytes_noRoom
    {message : Message} (nonempty : message.bytes ≠ []) {room : Room}
    (none : room.capacity = 0) (handlesTruncated : Bool) (rest : List UInt8) :
    ∃ result, receiveBytes platform room message.bytes.length handlesTruncated
        (message.bytes ++ rest) = some (result, message.bytes ++ rest) := by
  have positive : 0 < message.bytes.length := List.length_pos_iff.mpr nonempty
  have sum := (trim_sum (Nat.zero_le message.bytes.length) room.iov).1
  have wanted : (trim message.bytes.length 0 room.iov).1.sum = 0 := by
    unfold Room.capacity at none
    omega
  rw [receiveBytes, if_neg (by omega)]
  simp only [wanted]
  split
  · exact ⟨_, rfl⟩
  · rw [if_neg (Nat.not_lt_zero _), if_neg (fun both => absurd both.1 (by decide)),
      List.drop_zero]
    exact ⟨_, rfl⟩

theorem receiveDatagram_invalid
    (invalid : ¬room.Valid) (answer : HeaderAnswer)
    (stream : List UInt8) :
    receiveDatagram platform room answer stream = some (refused, stream) := by
  unfold receiveDatagram
  split
  · rfl
  next counts =>
    split
    · rfl
    next bytes =>
      refine absurd ⟨by omega, by omega, ?_⟩ invalid
      have size := (messageSizeIsValid_iff (Nat.zero_le _) room.iov).mp
        (by simpa using bytes)
      rw [Nat.zero_add] at size
      exact size

theorem receiveDatagram_nothing (room : Room) (stream : List UInt8) :
    receiveDatagram platform room .nothing stream = some (refused, stream) := by
  unfold receiveDatagram
  split
  · rfl
  · split <;> rfl

theorem receiveDatagram_enabled
    (valid : room.Valid) {count rights : Nat} {stream : List UInt8}
    {answer : Received × List UInt8}
    (returned : receiveDatagram platform room (.arrived count rights) stream =
      some answer) :
    0 < count ∧ count ≤ stream.length ∧
      (count ≠ platform.headerSize → answer = (refused, stream.drop count)) := by
  obtain ⟨handles, buffers, capacity⟩ := valid
  have checked : messageSizeIsValid 0 room.iov = true := by
    rw [messageSizeIsValid_iff (Nat.zero_le _), Nat.zero_add]
    exact capacity
  rw [receiveDatagram, if_neg (by omega), checked, if_neg nofun] at returned
  simp only at returned
  split at returned
  · cases returned
  next enabled =>
    refine ⟨by omega, by omega, ?_⟩
    intro part
    rw [if_pos part] at returned
    exact (Option.some.inj returned).symm

end InStep

section Steps

variable {platform : Platform} {connection next : Connection}

def ShortSent (platform : Platform) (connection : Connection) : Prop :=
  ∀ message ∈ connection.sent, message.Short platform

theorem call_send
    {message : Message} {accepts : Bool}
    (stepped : call platform connection (.send message accepts) = some next) :
    next =
      { connection with
        stream := (sendDatagram platform accepts message connection.stream).2
        sent :=
          if 0 ≤ (sendDatagram platform accepts message connection.stream).1 then
            connection.sent ++ [message]
          else connection.sent } :=
  (Option.some.inj stepped).symm

theorem call_receive
    {room : Room} {answer : HeaderAnswer}
    (stepped : call platform connection (.receive room answer) = some next) :
    ∃ result stream,
      receiveDatagram platform room answer connection.stream =
        some (result, stream) ∧
      (0 ≤ result.retval ∧
          next = ⟨stream, connection.sent,
            connection.received ++ [(room, result)]⟩ ∨
        ¬0 ≤ result.retval ∧
          next = ⟨stream, connection.sent, connection.received⟩) := by
  rw [call, Option.map_eq_some_iff] at stepped
  obtain ⟨⟨result, stream⟩, returned, rfl⟩ := stepped
  refine ⟨result, stream, returned, ?_⟩
  by_cases succeeded : 0 ≤ result.retval
  · refine .inl ⟨succeeded, ?_⟩
    simp only [if_pos succeeded]
  · refine .inr ⟨succeeded, ?_⟩
    simp only [if_neg succeeded]

theorem shortSent_call
    (connection : Connection) (event : Call) (next : Connection)
    (short : ShortSent platform connection)
    (stepped : call platform connection event = some next) :
    ShortSent platform next := by
  cases event with
  | send message accepts =>
      rw [call_send stepped]
      unfold ShortSent
      by_cases succeeded :
          0 ≤ (sendDatagram platform accepts message connection.stream).1
      · rw [if_pos succeeded]
        by_cases transmitted : Transmitted platform message accepts
        · have bytes := (sendDatagram_transmitted transmitted
            connection.stream).2.mp succeeded
          intro other member
          rcases List.mem_append.mp member with before | now
          · exact short other before
          · rw [List.mem_singleton.mp now]
            exact ⟨bytes, transmitted.handles, transmitted.system⟩
        · rw [sendDatagram_refused transmitted] at succeeded
          exact absurd succeeded (show ¬(0 : Int) ≤ -1 by decide)
      · rw [if_neg succeeded]
        exact short
  | receive room answer =>
      rw [call, Option.map_eq_some_iff] at stepped
      obtain ⟨result, _, rfl⟩ := stepped
      exact short

theorem InStep.length_le
    (inStep : InStep platform connection) :
    connection.received.length ≤ connection.sent.length := by
  have same := inStep.results.length_eq
  rw [List.length_take] at same
  omega

theorem inStep_send_iff
    (inStep : InStep platform connection)
    {message : Message} {accepts : Bool}
    (stepped : call platform connection (.send message accepts) = some next) :
    InStep platform next ↔
      Proper platform connection (.send message accepts) := by
  have count := inStep.length_le
  rw [call_send stepped]
  by_cases transmitted : Transmitted platform message accepts
  · obtain ⟨written, success⟩ :=
      sendDatagram_transmitted transmitted connection.stream
    by_cases short : message.bytes.length < 2 ^ 31
    · refine iff_of_true ?_ fun _ => short
      rw [written, if_pos (success.mpr short)]
      constructor
      · show List.Forall₂ Matches ((connection.sent ++ [message]).take _) _
        rw [List.take_append_of_le_length count]
        exact inStep.results
      · show connection.stream ++ _ =
          ((connection.sent ++ [message]).drop _).flatMap _
        rw [List.drop_append_of_le_length count, List.flatMap_append,
          ← inStep.stream, List.flatMap_singleton]
    · refine iff_of_false ?_ fun proper => short (proper transmitted)
      rw [written, if_neg fun succeeded => short (success.mp succeeded)]
      intro after
      have stream : connection.stream ++ frame platform message = _ := after.stream
      rw [← inStep.stream, List.append_right_eq_self] at stream
      have none := congrArg List.length stream
      rw [length_frame, List.length_nil] at none
      have bounds := platform.headerSize_bounds
      omega
  · refine iff_of_true ?_ fun sent => absurd sent transmitted
    rw [sendDatagram_refused transmitted,
      if_neg (show ¬(0 : Int) ≤ -1 by decide)]
    exact inStep

theorem InStep.next_message
    (inStep : InStep platform connection)
    (some : 0 < connection.stream.length) :
    ∃ message,
      connection.sent[connection.received.length]? = .some message ∧
      connection.sent.take (connection.received.length + 1) =
        connection.sent.take connection.received.length ++ [message] ∧
      connection.stream = frame platform message ++
        (connection.sent.drop (connection.received.length + 1)).flatMap
          (frame platform) := by
  have more : connection.received.length < connection.sent.length := by
    by_contra none
    rw [inStep.stream, List.drop_of_length_le (Nat.not_lt.mp none)] at some
    exact Nat.lt_irrefl 0 some
  refine ⟨connection.sent[connection.received.length], ?_, ?_, ?_⟩
  · exact List.getElem?_eq_getElem more
  · exact (List.take_append_getElem more).symm
  · rw [inStep.stream, List.drop_eq_getElem_cons more, List.flatMap_cons]

theorem inStep_receive_iff
    (short : ShortSent platform connection)
    (inStep : InStep platform connection)
    {room : Room} {answer : HeaderAnswer}
    (stepped : call platform connection (.receive room answer) = some next) :
    InStep platform next ↔
      Proper platform connection (.receive room answer) := by
  obtain ⟨result, stream, returned, outcome⟩ := call_receive stepped
  by_cases valid : room.Valid
  · cases answer with
    | nothing =>
        rw [receiveDatagram_nothing] at returned
        cases returned
        rw [(outcome.resolve_left fun success => absurd success.1 (by decide)).2]
        exact iff_of_true inStep trivial
    | arrived count rights =>
        obtain ⟨positive, available, part⟩ := receiveDatagram_enabled valid returned
        obtain ⟨message, next, taken, start⟩ := inStep.next_message (by omega)
        have bounds := platform.headerSize_bounds
        by_cases whole : count = platform.headerSize
        · subst whole
          have size := short message (List.mem_of_getElem? next)
          obtain ⟨handlesTruncated, same⟩ := receiveDatagram_frame size valid rights
            ((connection.sent.drop (connection.received.length + 1)).flatMap
              (frame platform))
          rw [start, same] at returned
          by_cases roomy : message.bytes ≠ [] → 0 < room.capacity
          · obtain ⟨good, got, success, matched⟩ := receiveBytes_matches size roomy
              handlesTruncated ((connection.sent.drop
                (connection.received.length + 1)).flatMap (frame platform))
            rw [got] at returned
            cases returned
            rw [(outcome.resolve_right fun failure => failure.1 success).2]
            refine iff_of_true ⟨?_, ?_⟩ fun _ => ⟨rfl, ?_⟩
            · show List.Forall₂ Matches (connection.sent.take _) _
              rw [List.length_append, List.length_singleton, taken]
              exact List.rel_append inStep.results (.cons matched .nil)
            · show _ = (connection.sent.drop _).flatMap _
              rw [List.length_append, List.length_singleton]
            · intro other same
              cases next.symm.trans same
              exact roomy
          · obtain ⟨nonempty, none⟩ := Classical.not_imp.mp roomy
            obtain ⟨bad, got⟩ := @receiveBytes_noRoom platform message nonempty room
              (by omega) handlesTruncated ((connection.sent.drop
                (connection.received.length + 1)).flatMap (frame platform))
            rw [got] at returned
            cases returned
            have payload := List.length_pos_iff.mpr nonempty
            refine iff_of_false ?_ fun proper =>
              roomy ((proper valid).2 message next)
            intro after
            have lengths := congrArg List.length after.stream
            have before := congrArg List.length (start.symm.trans inStep.stream)
            rw [List.length_append, length_frame] at before
            rcases outcome with ⟨_, rfl⟩ | ⟨_, rfl⟩
            · rw [List.length_append, List.length_append,
                List.length_singleton] at lengths
              dsimp only at lengths
              omega
            · rw [List.length_append, ← inStep.stream, start, List.length_append,
                length_frame] at lengths
              omega
        · refine iff_of_false ?_ fun proper => whole (proper valid).1
          cases part whole
          rw [(outcome.resolve_left fun success => absurd success.1 (by decide)).2]
          intro after
          have lost : connection.stream.drop count = _ := after.stream
          rw [← inStep.stream] at lost
          have lengths := congrArg List.length lost
          rw [List.length_drop] at lengths
          omega
  · rw [receiveDatagram_invalid valid] at returned
    cases returned
    rw [(outcome.resolve_left fun success => absurd success.1 (by decide)).2]
    refine iff_of_true inStep ?_
    cases answer with
    | nothing => trivial
    | arrived count rights => exact fun valid' => absurd valid' valid

/-- The receiver is in step after every call exactly if all calls are proper. -/
theorem osx_framing_in_step (platform : Platform) (calls : List Call) :
    Throughout (call platform) (InStep platform) Connection.initial calls ↔
      AllSteps (call platform) (Proper platform) Connection.initial calls := by
  refine throughout_iff_allSteps shortSent_call ?_ ?_ ?_
  · intro connection event next short inStep stepped
    cases event with
    | send message accepts => exact inStep_send_iff inStep stepped
    | receive room answer => exact inStep_receive_iff short inStep stepped
  · exact fun message member => absurd member List.not_mem_nil
  · exact ⟨.nil, rfl⟩

def platform32 : Platform := ⟨4, 2 ^ 31 - 1, .inl rfl⟩

def threeBytes : Message := ⟨[[1, 2], [], [3]], 0⟩

/-- A buffer of no bytes, and a part of a header. -/
theorem osx_framing_out_of_step :
    ¬Throughout (call platform32) (InStep platform32) Connection.initial
        [.send threeBytes true, .receive ⟨[0], 0⟩ (.arrived 8 0)] ∧
      ¬Throughout (call platform32) (InStep platform32) Connection.initial
        [.send threeBytes true, .receive ⟨[3], 0⟩ (.arrived 5 0)] := by
  constructor
  · intro through
    have after := ((through.2 _ rfl).2 _ rfl).stream
    exact absurd after (by decide)
  · intro through
    have after := ((through.2 _ rfl).2 _ rfl).stream
    exact absurd after (by decide)

end Steps

end NativeClient.Imc
