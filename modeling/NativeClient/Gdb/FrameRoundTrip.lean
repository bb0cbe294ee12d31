import NativeClient.Gdb.FrameChecks

/-!
# Frames that are sent and received

What `SendPacketOnly` puts on the wire is read back by `GetPacket` at the other
end.  The receiver takes whatever starts with `xx:` for a sequence number, and
its packet keeps the sequence number that it had.
-/

namespace NativeClient.Gdb

open NativeClient.Library

def StartsWithSequence (payload : List UInt8) : Prop :=
  seqSoFar (payload ++ [ascii '#']) = true

def Delivers
    (char : CharType) (junk : Nat → Int) (receiver : Session) (old : Packet)
    (payload : List UInt8) (seq : Int) : Prop :=
  ∃ got final, receiver.getPacket char junk old = (true, got, final) ∧
    got.unread = payload ∧
    got.seq = if seq = -1 then -1 else seq % 256

section Wire

theorem writeAll_true
    {writes rest : List Int} {out sent : List UInt8}
    (written : writeAll writes out = (true, sent, rest)) :
    sent = out := by
  induction writes generalizing out sent with
  | nil =>
      cases out with
      | nil =>
          rw [writeAll] at written
          cases written
          rfl
      | cons ch out => cases written
  | cons tx writes ih =>
      cases out with
      | nil =>
          rw [writeAll] at written
          cases written
          rfl
      | cons ch out =>
          rw [writeAll] at written
          split at written
          next => cases written
          next =>
            have parts := Prod.mk.inj written
            have others := Prod.mk.inj parts.2
            have later := @ih ((ch :: out).drop tx.toNat) _
              (Prod.ext parts.1 (Prod.ext rfl others.2))
            rw [← others.1]
            exact (congrArg (fun list => (ch :: out).take tx.toNat ++ list)
              later).trans (List.take_append_drop _ _)

theorem sendPacketOnly_true
    {sender sender' : Session} {pkt numbered : Packet}
    (sending : sender.sendPacketOnly pkt = (true, numbered, sender')) :
    sender'.sent =
      sender.sent ++ frameText (frameBody numbered.seq pkt.payload) := by
  unfold Session.sendPacketOnly Session.sendStream at sending
  dsimp only at sending
  have parts := Prod.mk.inj sending
  have others := Prod.mk.inj parts.2
  rw [← others.1, ← others.2]
  dsimp only
  rw [writeAll_true (Prod.ext parts.1 rfl)]
  split
  next => rfl
  next => rfl

end Wire

section Bodies

theorem nibble_not_mark :
    ∀ value : Fin 16, nibble value.val ≠ ascii '$' ∧
      nibble value.val ≠ ascii '#' := by
  decide

theorem nibble_ne_mark {value : Nat} (small : value < 16) :
    nibble value ≠ ascii '$' ∧ nibble value ≠ ascii '#' :=
  nibble_not_mark ⟨value, small⟩

theorem sequence_digits (seq : Int) :
    (seq % 256 / 16).toNat < 16 ∧ (seq % 16).toNat < 16 ∧
      (((seq % 256 / 16).toNat * 16 + (seq % 16).toNat).toUInt8.toNat : Int) =
        seq % 256 := by
  refine ⟨by omega, by omega, ?_⟩
  rw [UInt8.toNat_ofNat']
  omega

theorem frameBody_marks
    (seq : Int) {payload : List UInt8} (noDollar : ascii '$' ∉ payload)
    (noHash : ascii '#' ∉ payload) :
    ascii '$' ∉ frameBody seq payload ∧ ascii '#' ∉ frameBody seq payload := by
  unfold frameBody
  by_cases none : seq = -1
  · rw [if_pos none, List.nil_append]
    exact ⟨noDollar, noHash⟩
  · rw [if_neg none]
    obtain ⟨highSmall, lowSmall, -⟩ := sequence_digits seq
    have high := nibble_ne_mark highSmall
    have low := nibble_ne_mark lowSmall
    have colon : ascii '$' ≠ ascii ':' ∧ ascii '#' ≠ ascii ':' := by decide
    unfold sequenceText
    refine ⟨?_, ?_⟩
    · simp only [List.cons_append, List.nil_append, List.mem_cons, not_or]
      exact ⟨high.1.symm, low.1.symm, colon.1, noDollar⟩
    · simp only [List.cons_append, List.nil_append, List.mem_cons, not_or]
      exact ⟨high.2.symm, low.2.symm, colon.2, noHash⟩

end Bodies

section Reception

variable {char : CharType} {junk : Nat → Int} {receiver : Receiver}
  {session : Session}

theorem receive_body
    {before : List UInt8} {opened : Bool} {body : List UInt8}
    (inData : InData before opened body receiver)
    {chars : List UInt8} (noDollar : ascii '$' ∉ chars)
    (noHash : ascii '#' ∉ chars) (rest : List Arrival) :
    ∃ next,
      receive char junk (chars.map .char ++ rest) receiver session =
        receive char junk rest next session ∧
      InData before opened (body ++ chars) next ∧
      next.packet.seq = receiver.packet.seq := by
  induction chars generalizing receiver body with
  | nil => exact ⟨receiver, rfl, by rwa [List.append_nil], rfl⟩
  | cons ch chars ih =>
      rw [List.mem_cons, not_or] at noDollar noHash
      obtain ⟨inData', seq⟩ :=
        inData.plain (Ne.symm noHash.1) (Ne.symm noDollar.1)
      obtain ⟨next, run, whole, seq'⟩ := ih inData' noDollar.2 noHash.2
      refine ⟨next, ?_, ?_, seq'.trans seq⟩
      · rw [List.map_cons, List.cons_append, receive, inData.place]
        exact run
      · rw [List.append_assoc] at whole
        exact whole

/-- The acknowledgement of a packet with this sequence number is off, or the
transport takes it. -/
def CanAnswer (session : Session) (seq : Int) : Prop :=
  session.ignoreAck = true ∨
    (session.sendStream
      (Receiver.plusText { Packet.empty with seq := seq })).1 = true

def Session.answers (session : Session) (pkt : Packet) : Bool :=
  session.ignoreAck || (session.sendStream (Receiver.plusText pkt)).1

theorem CanAnswer.answers
    {pkt : Packet} (can : CanAnswer session pkt.seq) :
    session.answers pkt = true := by
  rw [Session.answers, Bool.or_eq_true]
  exact can

theorem readXsum_nibbles (junk : Int) (sum : UInt8) :
    readXsum junk (nibble (sum.toNat / 16)) (nibble (sum.toNat % 16)) =
      sum := by
  have small := sum.toNat_lt
  apply UInt8.toNat_inj.mp
  rw [readXsum_digits junk
    (nibbleToInt_nibble (show sum.toNat / 16 < 16 by omega))
    (nibbleToInt_nibble (Nat.mod_lt _ (by decide))), Nat.div_add_mod']

theorem receive_checks
    {before : List UInt8} {opened : Bool} {body : List UInt8}
    (place : receiver.place = .firstCheck)
    (collects : Collects before opened body receiver)
    (hasSeq : receiver.hasSeq = seqSoFar (body ++ [ascii '#']))
    {got : Packet} (pulled : got = if seqSoFar (body ++ [ascii '#']) then
      (Receiver.pullSequence char receiver.packet).2 else receiver.packet)
    (rest : List Arrival) :
    ∃ final,
      receive char junk
        ([nibble ((xsum body).toNat / 16),
          nibble ((xsum body).toNat % 16)].map .char ++ rest)
        receiver session = (session.answers got, got, final) := by
  rw [List.map_cons, List.map_singleton, List.cons_append, List.singleton_append,
    receive, place]
  dsimp only
  rw [receive]
  dsimp only [Receiver.firstChar]
  generalize lastEq : Receiver.secondChar _ (nibble ((xsum body).toNat % 16)) =
    last
  have sum : last.finXsum = last.runXsum := by
    have value := readXsum_nibbles (junk receiver.refused) (xsum body)
    rw [← lastEq]
    exact value.trans collects.sum.symm
  have has : last.hasSeq = seqSoFar (body ++ [ascii '#']) := by
    rw [← lastEq]
    exact hasSeq
  have packet : last.packet = receiver.packet := by rw [← lastEq]; rfl
  -- The sequence number, if there is one, is taken off.
  have pulls : (if last.hasSeq then Receiver.pullSequence char last.packet
      else (true, last.packet)) = (true, got) := by
    rw [has, packet, pulled]
    by_cases numbered : seqSoFar (body ++ [ascii '#']) = true
    · obtain ⟨first, second, high, low, others, bodyEq, isHigh, isLow⟩ :=
        seqSoFar_hash numbered
      have holds := collects.holds
      rw [bodyEq] at holds
      obtain ⟨next, whole, -⟩ :=
        Receiver.pullSequence_spec char holds isHigh isLow
      rw [if_pos numbered, if_pos numbered, whole]
    · rw [if_neg numbered, if_neg numbered]
  unfold Receiver.finish Session.answers
  rw [pulls]
  dsimp only
  rw [if_neg (by decide), if_pos sum]
  cases session.ignoreAck with
  | true => exact ⟨_, rfl⟩
  | false => exact ⟨_, rfl⟩

theorem receive_retry
    (place : receiver.place = .retry) {chars : List UInt8} (some : chars ≠ [])
    (rest : List Arrival) :
    receive char junk (chars.map .char ++ rest) receiver session =
      receive char junk (chars.map .char ++ rest) receiver.clear session := by
  cases chars with
  | nil => exact absurd rfl some
  | cons ch chars =>
      rw [List.map_cons, List.cons_append, receive, receive, place]
      rfl

theorem receive_frame
    {body : List UInt8} (noDollar : ascii '$' ∉ body)
    (noHash : ascii '#' ∉ body) (place : receiver.place = .start)
    (rest : List Arrival) :
    ∃ full got final, full.Holds [] body ∧ full.seq = receiver.packet.seq ∧
      got = (if seqSoFar (body ++ [ascii '#']) then
        (Receiver.pullSequence char full).2 else full) ∧
      receive char junk ((frameText body).map .char ++ rest) receiver session =
        (session.answers got, got, final) := by
  unfold frameText
  rw [List.cons_append, List.map_cons, List.cons_append, receive, place]
  dsimp only
  rw [if_pos rfl, receive_retry rfl (by simp), List.map_append,
    List.append_assoc]
  obtain ⟨collected, run, inData, seq⟩ := @receive_body char junk
    (Receiver.clear { receiver with place := .retry }) session [ascii '$'] true
    [] (inData_clear (by decide)) body noDollar noHash
    (([ascii '#', nibble ((xsum body).toNat / 16),
      nibble ((xsum body).toNat % 16)]).map .char ++ rest)
  rw [List.nil_append] at inData
  obtain ⟨place', collects, hasSeq, seq'⟩ := inData.hash
  obtain ⟨final, checks⟩ := @receive_checks char junk _ session [ascii '$'] true
    body place' collects hasSeq _ rfl rest
  refine ⟨(collected.dataChar (ascii '#')).packet, _, final, collects.holds,
    seq'.trans seq, rfl, ?_⟩
  rw [run, List.map_cons, List.cons_append, receive, inData.place]
  exact checks

end Reception

section RoundTrip

theorem seq_sendPacketOnly
    {sender sender' : Session} {pkt numbered : Packet} {ok : Bool}
    (sending : sender.sendPacketOnly pkt = (ok, numbered, sender')) :
    numbered.seq = -1 ↔ pkt.seq = -1 ∧ sender.useSeq = false := by
  unfold Session.sendPacketOnly at sending
  dsimp only at sending
  have parts := Prod.mk.inj sending
  rw [← (Prod.mk.inj parts.2).1]
  dsimp only
  by_cases unset : pkt.seq = -1
  · cases sender.useSeq with
    | false => simp [unset]
    | true =>
        rw [if_pos ⟨unset, rfl⟩]
        refine iff_of_false (by omega) ?_
        rintro ⟨-, none⟩
        cases none
  · rw [if_neg (fun both => unset both.1)]
    exact iff_of_false unset (fun both => unset both.1)

variable (char : CharType) (junk : Nat → Int) {receiver : Session}
  {payload : List UInt8} {later : List Arrival}

theorem delivers_numbered
    {seq : Int} (noDollar : ascii '$' ∉ payload) (noHash : ascii '#' ∉ payload)
    (arrivals : receiver.arrivals =
      (frameText (frameBody seq payload)).map .char ++ later)
    (can : CanAnswer receiver (seq % 256)) (numbered : seq ≠ -1)
    (old : Packet) :
    Delivers char junk receiver old payload seq := by
  obtain ⟨noDollar', noHash'⟩ := frameBody_marks seq noDollar noHash
  obtain ⟨full, got, final, holds, -, pull, run⟩ := @receive_frame char junk
    ⟨.start, true, 0, 0, 0, 0, 0, old⟩ receiver _ noDollar' noHash' rfl later
  obtain ⟨highSmall, lowSmall, value⟩ := sequence_digits seq
  have body : frameBody seq payload = nibble (seq % 256 / 16).toNat ::
      nibble (seq % 16).toNat :: ascii ':' :: payload := by
    unfold frameBody
    rw [if_neg numbered]
    rfl
  have starts : seqSoFar (frameBody seq payload ++ [ascii '#']) = true := by
    rw [body]
    simp [seqSoFar, nibbleToInt_nibble highSmall, nibbleToInt_nibble lowSmall]
  rw [body] at holds
  obtain ⟨next, pulled, after, seqEq⟩ := Receiver.pullSequence_spec char holds
    (nibbleToInt_nibble highSmall) (nibbleToInt_nibble lowSmall)
  rw [if_pos starts, pulled] at pull
  have gotSeq : got.seq = seq % 256 := by rw [pull, seqEq, value]
  rw [← gotSeq] at can
  refine ⟨got, final, ?_, ?_, ?_⟩
  · unfold Session.getPacket
    rw [arrivals, run, can.answers]
  · rw [pull]
    exact after.unread_eq
  · rw [gotSeq, if_neg numbered]

theorem delivers_unnumbered
    (noDollar : ascii '$' ∉ payload) (noHash : ascii '#' ∉ payload)
    (arrivals : receiver.arrivals =
      (frameText (frameBody (-1) payload)).map .char ++ later)
    (can : CanAnswer receiver (-1)) (old : Packet) :
    Delivers char junk receiver old payload (-1) ↔
      old.seq = -1 ∧ ¬ StartsWithSequence payload := by
  obtain ⟨full, got, final, holds, seq, pull, run⟩ := @receive_frame char junk
    ⟨.start, true, 0, 0, 0, 0, 0, old⟩ receiver _ noDollar noHash rfl later
  have unfolded : receiver.getPacket char junk old =
      receive char junk receiver.arrivals ⟨.start, true, 0, 0, 0, 0, 0, old⟩
        receiver := rfl
  rw [arrivals] at unfolded
  have returned := unfolded.trans run
  constructor
  · rintro ⟨delivered, final', returned', -, gotSeq⟩
    rw [returned] at returned'
    have same := (Prod.mk.inj (Prod.mk.inj returned').2).1
    rw [if_pos rfl, ← same, pull] at gotSeq
    by_cases starts : seqSoFar (payload ++ [ascii '#']) = true
    · -- The first characters of the payload are taken for a number.
      obtain ⟨first, second, high, low, rest, rfl, isHigh, isLow⟩ :=
        seqSoFar_hash starts
      obtain ⟨next, pulled, -, nextSeq⟩ :=
        Receiver.pullSequence_spec char holds isHigh isLow
      rw [if_pos starts, pulled, nextSeq] at gotSeq
      omega
    · rw [if_neg starts, seq] at gotSeq
      exact ⟨gotSeq, starts⟩
  · rintro ⟨unset, starts⟩
    unfold StartsWithSequence at starts
    rw [if_neg starts] at pull
    have gotSeq : got.seq = -1 := by
      rw [pull, seq]
      exact unset
    rw [← gotSeq] at can
    refine ⟨got, final, ?_, ?_, ?_⟩
    · rw [returned, can.answers]
    · rw [pull]
      exact holds.unread_eq
    · rw [if_pos rfl, gotSeq]

/-- A packet that is sent arrives just when it has a sequence number or neither
the packet of the receiver nor the start of the payload looks as if. -/
theorem delivers_iff
    {sender sender' : Session} {pkt numbered : Packet} {text : List UInt8}
    (noDollar : ascii '$' ∉ pkt.payload) (noHash : ascii '#' ∉ pkt.payload)
    (sending : sender.sendPacketOnly pkt = (true, numbered, sender'))
    (wire : sender'.sent = sender.sent ++ text)
    (arrivals : receiver.arrivals = text.map .char ++ later)
    (can : CanAnswer receiver
      (if numbered.seq = -1 then -1 else numbered.seq % 256)) (old : Packet) :
    Delivers char junk receiver old pkt.payload numbered.seq ↔
      (pkt.seq ≠ -1 ∨ sender.useSeq = true) ∨
        (old.seq = -1 ∧ ¬ StartsWithSequence pkt.payload) := by
  have textEq : text = frameText (frameBody numbered.seq pkt.payload) :=
    List.append_cancel_left (wire.symm.trans (sendPacketOnly_true sending))
  rw [textEq] at arrivals
  have none := seq_sendPacketOnly sending
  by_cases unset : numbered.seq = -1
  · obtain ⟨pktUnset, noSeq⟩ := none.mp unset
    rw [unset] at arrivals can ⊢
    rw [delivers_unnumbered char junk noDollar noHash arrivals can]
    constructor
    · exact .inr
    · rintro ((set | uses) | both)
      · exact absurd pktUnset set
      · rw [noSeq] at uses
        cases uses
      · exact both
  · rw [if_neg unset] at can
    refine iff_of_true (delivers_numbered char junk noDollar noHash arrivals
      can unset old) (.inl ?_)
    by_cases pktUnset : pkt.seq = -1
    · refine .inr ?_
      cases uses : sender.useSeq with
      | true => rfl
      | false => exact absurd (none.mpr ⟨pktUnset, uses⟩) unset
    · exact .inl pktUnset

def okPacket : Packet := ⟨-1, [ascii 'O', ascii 'K', 0], 0, 2⟩

def okSender : Session := ⟨[], [6], [], true, false, false, 0⟩

/-- The other end, where the frame of `OK` arrives. -/
def okReceiver : Session :=
  ⟨(frameText [ascii 'O', ascii 'K']).map .char, [1], [], true, false, false,
    0⟩

theorem okPacket_sent :
    okSender.sendPacketOnly okPacket =
      (true, okPacket,
        { okSender with
          writes := [], sent := frameText [ascii 'O', ascii 'K'] }) := by
  rfl

theorem okPacket_delivered :
    Delivers .signed (fun _ => 0) okReceiver Packet.empty okPacket.payload
      okPacket.seq :=
  (delivers_iff .signed (fun _ => 0) (by decide) (by decide) okPacket_sent rfl
    (List.append_nil _).symm (.inr rfl) Packet.empty).mpr
      (.inr ⟨rfl, fun starts => Bool.noConfusion starts⟩)

/-- The packet of the receiver keeps the number of an earlier frame. -/
theorem okPacket_staleSequence :
    okSender.sendPacketOnly okPacket =
        (true, okPacket,
          { okSender with
            writes := [], sent := frameText [ascii 'O', ascii 'K'] }) ∧
      ¬ Delivers .signed (fun _ => 0) okReceiver { Packet.empty with seq := 5 }
        okPacket.payload okPacket.seq := by
  refine ⟨okPacket_sent, fun delivered => ?_⟩
  have unset := (delivers_unnumbered .signed (fun _ => 0)
    (by decide : ascii '$' ∉ okPacket.payload) (by decide)
    (List.append_nil _).symm (.inr rfl)
    { Packet.empty with seq := 5 }).mp delivered
  exact absurd unset.1 (by decide)

end RoundTrip

end NativeClient.Gdb
