import NativeClient.Desc.RoundTrip

/-!
# What a receive reports

A call that succeeds should tell what it dropped.  It does so only for a message
whose descriptors are all made, up to the end tag, and whose user bytes all
arrive: that data was truncated is never told, and a descriptor that cannot be
made ends the list.
-/

namespace NativeClient.Desc

open NativeClient.Library

variable {η : Type}

section Made

variable {receiver : Receiver} {buffer : Nat → UInt8} {place : Nat}
  {xfer behind : Xfer η} {desc : NaClDesc η}

structure MadeFrom (receiver : Receiver) (buffer : Nat → UInt8)
    (xfer : Xfer η) (desc : NaClDesc η) (behind : Xfer η) : Prop where
  acceptable : Acceptable receiver xfer.nextByte desc
  holds : Holds buffer xfer.nextByte (encodeDesc desc)
  handles : xfer.handles = desc.handles ++ behind.handles
  past : behind = xfer.past (encodeDesc desc).length behind.handles

private theorem made_of_internalizeHandle
    {make : η → NaClDesc η}
    (made : internalizeHandle receiver make place xfer = (.made desc, behind)) :
    (receiver.memory place ∧ receiver.constructs place) ∧
      ∃ h rest, xfer.handles = h :: rest ∧ desc = make h ∧
        behind = { xfer with handles := rest } := by
  unfold internalizeHandle at made
  split at made
  · cases made
  next h rest handles =>
    split at made
    next accepts =>
      cases made
      exact ⟨accepts, h, rest, handles, rfl, rfl⟩
    · cases made

private theorem made_of_ioInternalize
    (made : ioInternalize receiver place xfer = (.made desc, behind)) :
    (receiver.memory place ∧ receiver.constructs place) ∧
      ∃ h rest, xfer.handles = h :: rest ∧ desc = .hostIo h ∧
        behind = { xfer with handles := rest } := by
  unfold ioInternalize at made
  split at made
  · cases made
  next h rest handles =>
    split at made
    · cases made
    next memory =>
      split at made
      next constructs =>
        cases made
        exact ⟨⟨Decidable.not_not.mp memory, constructs⟩, h, rest, handles, rfl, rfl⟩
      · cases made

private theorem made_of_connCapInternalize
    (made : connCapInternalize receiver buffer place xfer =
      (.made desc, behind)) :
    (receiver.memory place ∧ receiver.constructs place) ∧
      (∃ path : FixedBytes pathMax, Holds buffer xfer.nextByte path.list ∧
        desc = .connCap path) ∧
      behind = xfer.advance pathMax := by
  unfold connCapInternalize at made
  split at made
  · cases made
  · split at made
    next accepts =>
      cases made
      refine ⟨accepts, ⟨_, ?_, rfl⟩, rfl⟩
      rw [Holds, length_bytesAt]
    · cases made

private theorem made_of_imcShmInternalize
    (made : imcShmInternalize receiver buffer place xfer = (.made desc, behind)) :
    (receiver.memory place ∧ receiver.constructs place) ∧
      ∃ h rest size, xfer.handles = h :: rest ∧ desc = .shm h size ∧
        validSize receiver size ∧
        Holds buffer xfer.nextByte (littleEndian 8 size) ∧
        behind = xfer.past 8 rest := by
  unfold imcShmInternalize at made
  split at made
  · cases made
  next h rest handles =>
    split at made
    · cases made
    split at made
    · cases made
    next memory =>
      simp only at made
      split at made
      next valid =>
        cases made
        exact ⟨⟨Decidable.not_not.mp memory, valid.2⟩, h, rest, _, handles, rfl,
          valid.1, holds_uint64At _, rfl⟩
      · cases made

private theorem made_of_sysvShmInternalize
    (made : sysvShmInternalize receiver buffer place xfer = (.made desc, behind)) :
    (receiver.memory place ∧ receiver.constructs place) ∧
      ∃ id size, desc = .sysvShm id size ∧ size.val % 4096 = 0 ∧
        validSize receiver size ∧
        Holds buffer xfer.nextByte (littleEndian 4 id ++ littleEndian 8 size) ∧
        behind = xfer.advance (4 + 8) := by
  unfold sysvShmInternalize at made
  split at made
  · cases made
  split at made
  · cases made
  next memory =>
    simp only at made
    split at made
    next valid =>
      cases made
      have small : ofLittleEndian (bytesAt buffer xfer.nextByte 4) < 2 ^ 32 := by
        have bound := ofLittleEndian_lt (bytesAt buffer xfer.nextByte 4)
        rw [length_bytesAt] at bound
        exact bound
      have value : (Fin.ofNat (2 ^ 32)
          (ofLittleEndian (bytesAt buffer xfer.nextByte 4))).val =
            ofLittleEndian (bytesAt buffer xfer.nextByte 4) :=
        Nat.mod_eq_of_lt small
      refine ⟨⟨Decidable.not_not.mp memory, valid.2.2⟩, _, _, rfl, valid.1,
        valid.2.1, ?_, rfl⟩
      rw [value]
      refine holds_append.mpr ⟨holds_littleEndian _ 4, ?_⟩
      rw [length_littleEndian]
      exact holds_uint64At _
    · cases made

theorem madeFrom_of_internalize
    {fuel : Nat}
    (made : internalizeFromXferBuffer receiver buffer fuel xfer =
      (.made desc, behind)) :
    MadeFrom receiver buffer xfer desc behind := by
  induction fuel generalizing xfer behind desc with
  | zero => cases made
  | succ fuel ih =>
      rw [internalizeFromXferBuffer] at made
      split at made
      · cases made
      split at made
      · cases made
      generalize tag : buffer xfer.nextByte = next at made
      rw [internalizeTag] at made
      by_cases zero : next = 0
      · rw [if_pos zero] at made
        cases made
        exact ⟨trivial, holds_cons.mpr ⟨tag.trans zero, holds_nil _⟩, rfl, rfl⟩
      rw [if_neg zero] at made
      by_cases two : next = 2
      · rw [if_pos two] at made
        obtain ⟨accepts, h, rest, handles, rfl, rfl⟩ := made_of_ioInternalize made
        exact ⟨accepts, holds_cons.mpr ⟨tag.trans two, holds_nil _⟩, handles, rfl⟩
      rw [if_neg two] at made
      by_cases three : next = 3 ∧ receiver.system = .windows
      · rw [if_pos three] at made
        obtain ⟨accepts, ⟨path, data, rfl⟩, rfl⟩ := made_of_connCapInternalize made
        refine ⟨⟨three.2, accepts⟩, holds_cons.mpr ⟨tag.trans three.1, data⟩, rfl,
          ?_⟩
        rw [encodeDesc, List.length_cons, path.length_eq, Nat.add_comm,
          ← Xfer.advance_past]
        rfl
      rw [if_neg three] at made
      by_cases four : next = 4 ∧ receiver.system ≠ .windows
      · rw [if_pos four] at made
        obtain ⟨accepts, h, rest, handles, rfl, rfl⟩ :=
          made_of_internalizeHandle made
        exact ⟨⟨four.2, accepts⟩,
          holds_cons.mpr ⟨tag.trans four.1, holds_nil _⟩, handles, rfl⟩
      rw [if_neg four] at made
      by_cases seven : next = 7
      · rw [if_pos seven] at made
        obtain ⟨accepts, h, rest, size, handles, rfl, valid, data, rfl⟩ :=
          made_of_imcShmInternalize made
        refine ⟨⟨valid, accepts⟩, holds_cons.mpr ⟨tag.trans seven, data⟩, handles,
          ?_⟩
        rw [encodeDesc, List.length_cons, length_littleEndian, Xfer.advance_past]
        rfl
      rw [if_neg seven] at made
      by_cases eight : next = 8
      · rw [if_pos eight] at made
        by_cases linux : receiver.system = .linux
        · rw [if_pos linux] at made
          obtain ⟨accepts, id, size, rfl, pages, valid, data, rfl⟩ :=
            made_of_sysvShmInternalize made
          refine ⟨⟨linux, pages, valid, accepts⟩,
            holds_cons.mpr ⟨tag.trans eight, data⟩, rfl, ?_⟩
          rw [encodeDesc, List.length_cons, List.length_append,
            length_littleEndian, length_littleEndian, Nat.add_comm (4 + 8),
            ← Xfer.advance_past]
          rfl
        · rw [if_neg linux] at made
          cases made
      rw [if_neg eight] at made
      by_cases twelve : next = 12
      · rw [if_pos twelve] at made
        obtain ⟨accepts, h, rest, handles, rfl, rfl⟩ :=
          made_of_internalizeHandle made
        exact ⟨accepts, holds_cons.mpr ⟨tag.trans twelve, holds_nil _⟩, handles,
          rfl⟩
      rw [if_neg twelve] at made
      by_cases thirteen : next = 13
      · rw [if_pos thirteen] at made
        obtain ⟨accepts, h, rest, handles, rfl, rfl⟩ :=
          made_of_internalizeHandle made
        exact ⟨accepts, holds_cons.mpr ⟨tag.trans thirteen, holds_nil _⟩, handles,
          rfl⟩
      rw [if_neg thirteen] at made
      by_cases fifteen : next = 15
      · rw [if_pos fifteen] at made
        by_cases memory : receiver.memory xfer.nextByte
        · rw [if_neg (not_not.mpr memory)] at made
          simp only at made
          split at made
          next inner after inside =>
            split at made
            next constructs =>
              cases made
              obtain ⟨acceptable, holds, handles, past⟩ := ih inside
              refine ⟨⟨memory, constructs, ?_⟩, ?_, handles, ?_⟩
              · exact Nat.add_assoc _ _ _ ▸ acceptable
              · refine holds_cons.mpr ⟨tag.trans fifteen, holds_append.mpr ⟨?_, ?_⟩⟩
                · rw [Holds, length_bytesAt]
                  rfl
                · rw [length_bytesAt]
                  exact holds
              · rw [past, Xfer.advance_past, Xfer.advance_past, encodeDesc,
                  List.length_cons, List.length_append, length_bytesAt]
                congr 1
                omega
            · cases made
          · cases made
          · cases made
        · rw [if_pos memory] at made
          cases made
      · rw [if_neg fifteen] at made
        cases made

private theorem ite_ne_endTag
    {condition : Prop} [Decidable condition] {first second : Internalized η × Xfer η}
    (yes : first.1 ≠ .endTag) (no : second.1 ≠ .endTag) :
    (if condition then first else second).1 ≠ .endTag := by
  split
  · exact yes
  · exact no

private theorem internalizeHandle_ne_endTag
    (make : η → NaClDesc η) (place : Nat) (xfer : Xfer η) :
    (internalizeHandle receiver make place xfer).1 ≠ .endTag := by
  unfold internalizeHandle
  split
  · exact nofun
  · exact ite_ne_endTag nofun nofun

private theorem ioInternalize_ne_endTag (place : Nat) (xfer : Xfer η) :
    (ioInternalize receiver place xfer).1 ≠ .endTag := by
  unfold ioInternalize
  split
  · exact nofun
  · exact ite_ne_endTag nofun (ite_ne_endTag nofun nofun)

private theorem imcShmInternalize_ne_endTag (place : Nat) (xfer : Xfer η) :
    (imcShmInternalize receiver buffer place xfer).1 ≠ .endTag := by
  unfold imcShmInternalize
  split
  · exact nofun
  · exact ite_ne_endTag nofun (ite_ne_endTag nofun (ite_ne_endTag nofun nofun))

private theorem sysvShmInternalize_ne_endTag (place : Nat) (xfer : Xfer η) :
    (sysvShmInternalize receiver buffer place xfer).1 ≠ .endTag :=
  ite_ne_endTag nofun (ite_ne_endTag nofun (ite_ne_endTag nofun nofun))

private theorem internalizeTag_ne_endTag
    (wrapped : Xfer η → Internalized η × Xfer η) (tag : UInt8) (place : Nat)
    (xfer : Xfer η) :
    (internalizeTag receiver buffer wrapped tag place xfer).1 ≠ .endTag := by
  refine ite_ne_endTag (by simp) ?_
  refine ite_ne_endTag (ioInternalize_ne_endTag place xfer) ?_
  refine ite_ne_endTag (ite_ne_endTag (by simp) (ite_ne_endTag (by simp) (by simp))) ?_
  refine ite_ne_endTag (internalizeHandle_ne_endTag _ place xfer) ?_
  refine ite_ne_endTag (imcShmInternalize_ne_endTag place xfer) ?_
  refine ite_ne_endTag
    (ite_ne_endTag (sysvShmInternalize_ne_endTag place xfer) (by simp)) ?_
  refine ite_ne_endTag (internalizeHandle_ne_endTag _ place xfer) ?_
  refine ite_ne_endTag (internalizeHandle_ne_endTag _ place xfer) ?_
  refine ite_ne_endTag (ite_ne_endTag (by simp) ?_) (by simp)
  simp only
  split
  · exact ite_ne_endTag (by simp) (by simp)
  · simp
  · simp

private theorem endTag_of_internalize
    {fuel : Nat}
    (ended : internalizeFromXferBuffer receiver buffer fuel xfer =
      (.endTag, behind)) :
    buffer xfer.nextByte = typeEndTag ∧ behind.handles = xfer.handles := by
  cases fuel with
  | zero => cases ended
  | succ fuel =>
      rw [internalizeFromXferBuffer] at ended
      split at ended
      next tag =>
        cases ended
        exact ⟨tag, rfl⟩
      split at ended
      · cases ended
      · have same := congrArg Prod.fst ended
        exact absurd same (internalizeTag_ne_endTag _ _ _ _)

private theorem internalizeAll_endTag_cases
    {room : Nat}
    (stop : (internalizeAll receiver buffer room xfer).stop = .endTag) :
    xfer.nextByte < xfer.byteBufferEnd ∧
      ((buffer xfer.nextByte = typeEndTag ∧
          (internalizeAll receiver buffer room xfer).descs = [] ∧
          (internalizeAll receiver buffer room xfer).xfer.handles = xfer.handles) ∨
        ∃ desc behind less,
          room = less + 1 ∧ MadeFrom receiver buffer xfer desc behind ∧
          (internalizeAll receiver buffer less behind).stop = .endTag ∧
          (internalizeAll receiver buffer room xfer).descs =
            desc :: (internalizeAll receiver buffer less behind).descs ∧
          (internalizeAll receiver buffer room xfer).xfer =
            (internalizeAll receiver buffer less behind).xfer) := by
  have more : xfer.nextByte < xfer.byteBufferEnd := by
    by_contra none
    rw [internalizeAll, if_neg none] at stop
    cases stop
  refine ⟨more, ?_⟩
  rcases next : internalizeFromXferBuffer receiver buffer (imcBytesMax + 1) xfer
    with ⟨found, behind⟩
  cases found with
  | endTag =>
      obtain ⟨tag, left⟩ := endTag_of_internalize next
      refine .inl ⟨tag, ?_, ?_⟩
      · rw [internalizeAll, if_pos more, next]
      · rw [internalizeAll, if_pos more, next]
        exact left
  | failed =>
      rw [internalizeAll, if_pos more, next] at stop
      cases stop
  | fatal =>
      rw [internalizeAll, if_pos more, next] at stop
      cases stop
  | illegalTag =>
      rw [internalizeAll, if_pos more, next] at stop
      simp only at stop
      split at stop <;> cases stop
  | made desc =>
      cases room with
      | zero =>
          rw [internalizeAll, if_pos more, next] at stop
          cases stop
      | succ less =>
          refine .inr ⟨desc, behind, less, rfl, madeFrom_of_internalize next, ?_⟩
          rw [internalizeAll, if_pos more, next] at stop
          refine ⟨stop, ?_, ?_⟩
          · rw [internalizeAll, if_pos more, next]
          · rw [internalizeAll, if_pos more, next]

theorem encoded_of_internalizeAll
    {room : Nat} {parsed : Parsed η}
    (all : internalizeAll receiver buffer room xfer = parsed)
    (stop : parsed.stop = .endTag) :
    AllAcceptable receiver xfer.nextByte parsed.descs ∧
      Holds buffer xfer.nextByte (encodeDescs parsed.descs ++ [typeEndTag]) ∧
      xfer.nextByte + (encodeDescs parsed.descs).length < xfer.byteBufferEnd ∧
      xfer.handles =
        parsed.descs.flatMap NaClDesc.handles ++ parsed.xfer.handles ∧
      parsed.descs.length ≤ room := by
  subst all
  induction room generalizing xfer with
  | zero =>
      obtain ⟨more, ⟨tag, none, left⟩ | ⟨_, _, _, impossible, _⟩⟩ :=
        internalizeAll_endTag_cases stop
      · rw [none, left]
        exact ⟨trivial, holds_cons.mpr ⟨tag, holds_nil _⟩, more, rfl, Nat.le_refl 0⟩
      · cases impossible
  | succ room ih =>
      obtain ⟨more, ⟨tag, none, left⟩ | ⟨desc, behind, less, same, made, later, descs,
        rest⟩⟩ := internalizeAll_endTag_cases stop
      · rw [none, left]
        exact ⟨trivial, holds_cons.mpr ⟨tag, holds_nil _⟩, more, rfl, Nat.zero_le _⟩
      · cases same
        obtain ⟨acceptable, holds, inside, handles, few⟩ := ih later
        obtain ⟨first, encoded, taken, past⟩ := made
        have place : behind.nextByte =
            xfer.nextByte + (encodeDesc desc).length := by
          rw [past]
          rfl
        have stopAt : behind.byteBufferEnd = xfer.byteBufferEnd := by
          rw [past]
          rfl
        rw [place] at acceptable holds inside
        rw [stopAt] at inside
        have split : encodeDescs (desc ::
            (internalizeAll receiver buffer room behind).descs) =
          encodeDesc desc ++
            encodeDescs (internalizeAll receiver buffer room behind).descs := rfl
        rw [descs, rest, split]
        refine ⟨⟨first, acceptable⟩, ?_, ?_, ?_, Nat.succ_le_succ few⟩
        · rw [List.append_assoc]
          exact holds_append.mpr ⟨encoded, holds⟩
        · rw [List.length_append]
          omega
        · rw [taken, handles, List.flatMap_cons, List.append_assoc]

end Made

section Reports

def Datagram.received (datagram : Datagram η) : List UInt8 :=
  datagram.bytes.take imcBytesMax

def Datagram.receivedHandles (imcSocket : Bool) (datagram : Datagram η) : List η :=
  if imcSocket then datagram.handles.take descMax else []

def Datagram.declared (datagram : Datagram η) : Nat :=
  ofLittleEndian ((datagram.received.drop 4).take 4)

def Datagram.userLength (datagram : Datagram η) : Nat :=
  datagram.bytes.length - (headerSize + datagram.declared)

structure Reports (imcSocket : Bool) (datagram : Datagram η)
    (result : TypedReceive η) : Prop where
  dataFlag : result.flags.dataTruncated ↔ result.retval < datagram.userLength
  parsed : ∃ parsed, result.parsed = some parsed ∧
    (result.flags.descTruncated ↔ result.descs.length < parsed.descs.length) ∧
    (datagram.declared = 0 ∨ parsed.stop = .endTag) ∧
    parsed.xfer.readEnd ≤ headerSize + datagram.declared ∧
    parsed.xfer.lost = []
  handles : (result.descs.flatMap NaClDesc.handles ++ result.closed).Perm
    (datagram.receivedHandles imcSocket)

/-- All descriptors of the message are made, up to an end tag inside the area,
and the rest of the handles is left. -/
structure MakesAll (receiver : Receiver) (imcSocket : Bool)
    (datagram : Datagram η) (descs : List (NaClDesc η)) (rest : List η) :
    Prop where
  few : descs.length ≤ descMax
  acceptable : AllAcceptable receiver headerSize descs
  handles : datagram.receivedHandles imcSocket =
    descs.flatMap NaClDesc.handles ++ rest
  encoded : datagram.declared = 0 ∧ descs = [] ∨
    (encodeDescs descs ++ [typeEndTag]).IsPrefix
      ((datagram.received.drop headerSize).take datagram.declared)

/-- The message is one whose descriptors are all made, and the flags that the
caller left are what they have to be. -/
structure Complete (receiver : Receiver) (imcSocket : Bool)
    (header : ReceiveHeader) (datagram : Datagram η) : Prop where
  inside : headerSize + datagram.declared ≤ datagram.received.length
  data : header.flags.dataTruncated ↔
    min header.iov.sum userBytesMax < datagram.userLength ∨
      imcBytesMax < datagram.bytes.length
  list : ∃ (descs : List (NaClDesc η)) (rest : List η),
    MakesAll receiver imcSocket datagram descs rest ∧
      (header.flags.descTruncated → header.ndescLength < descs.length)

variable {receiver : Receiver} {imcSocket : Bool} {unknown : Nat → UInt8}
  {header : ReceiveHeader} {datagram : Datagram η} {result : TypedReceive η}

def parsedMessage (receiver : Receiver) (imcSocket : Bool) (unknown : Nat → UInt8)
    (datagram : Datagram η) : Parsed η :=
  internalizeAll receiver (receiveBuffer datagram.received unknown) descMax
    ⟨headerSize, areaEnd receiver datagram.declared,
      datagram.receivedHandles imcSocket, headerSize, [], []⟩

theorem receive_succeeded
    (returned : receiveTypedMessage receiver imcSocket unknown header
      (.ok datagram) = some result)
    (succeeded : 0 ≤ result.retval) :
    areaEnd receiver datagram.declared ≤ datagram.received.length ∧
      ∃ stored, result = finishReceive header
        (min (datagram.received.length - areaEnd receiver datagram.declared)
          (min header.iov.sum userBytesMax)) stored
        (parsedMessage receiver imcSocket unknown datagram) := by
  have negative : ∀ {errno : Int} {handles : List η}, 0 < errno →
      some (receiveFailure header (-errno) handles) ≠ some result := by
    intro errno handles positive same
    cases same
    have nonnegative : 0 ≤ -errno := succeeded
    omega
  unfold receiveTypedMessage at returned
  split at returned
  · exact absurd returned (negative (by decide))
  split at returned
  · exact absurd returned (negative (by decide))
  split at returned
  · exact absurd returned (negative (by decide))
  simp only at returned
  split at returned
  · exact absurd returned (negative (by decide))
  split at returned
  · exact absurd returned (negative (by decide))
  split at returned
  · exact absurd returned (negative (by decide))
  next inside =>
    refine ⟨Nat.not_lt.mp inside, ?_⟩
    split at returned
    · cases returned
    · cases returned
      have nonnegative : 0 ≤ -eio := succeeded
      exact absurd nonnegative (by decide)
    · cases returned
      exact ⟨_, rfl⟩

theorem declared_lt (datagram : Datagram η) : datagram.declared < 2 ^ 32 := by
  have bound := ofLittleEndian_lt ((datagram.received.drop 4).take 4)
  have short : ((datagram.received.drop 4).take 4).length ≤ 4 :=
    List.length_take_le _ _
  exact Nat.lt_of_lt_of_le bound (Nat.pow_le_pow_right (by decide) short)

theorem length_received_le (datagram : Datagram η) :
    datagram.received.length ≤ imcBytesMax :=
  List.length_take_le _ _

theorem areaEnd_cases (sized : receiver.Sized) (datagram : Datagram η) :
    areaEnd receiver datagram.declared = headerSize + datagram.declared ∨
      (areaEnd receiver datagram.declared < headerSize ∧
        datagram.declared ≠ 0 ∧ imcBytesMax < headerSize + datagram.declared) := by
  have small := declared_lt datagram
  have sizeMax := sized.sizeMax
  unfold areaEnd headerSize imcBytesMax userBytesMax pathMax descMax
  rcases Nat.lt_or_ge (datagram.declared + 16) (receiver.sizeMax + 1) with
    fits | wraps
  · left
    rw [Nat.mod_eq_of_lt fits, Nat.add_comm]
  · right
    rw [Nat.mod_eq_sub_mod wraps, Nat.mod_eq_of_lt (by omega)]
    omega

theorem bytesAt_receiveBuffer
    {received : List UInt8} {start count : Nat}
    (inside : start + count ≤ received.length) :
    bytesAt (receiveBuffer received unknown) start count =
      (received.drop start).take count := by
  refine List.ext_getElem ?_ ?_
  · rw [length_bytesAt, List.length_take, List.length_drop]
    omega
  · intro index first second
    rw [length_bytesAt] at first
    simp only [bytesAt, receiveBuffer, List.getElem_map, List.getElem_range,
      List.getD_eq_getElem?_getD, List.getElem_take, List.getElem_drop]
    rw [List.getElem?_eq_getElem (by omega), Option.getD_some]

theorem parsedMessage_of_makesAll
    (sized : receiver.Sized)
    (inside : headerSize + datagram.declared ≤ datagram.received.length)
    {descs : List (NaClDesc η)} {rest : List η}
    (all : MakesAll receiver imcSocket datagram descs rest) :
    ∃ stop readEnd,
      (datagram.declared = 0 ∨ stop = .endTag) ∧
      readEnd ≤ headerSize + datagram.declared ∧
      ∃ nextByte byteBufferEnd,
        parsedMessage receiver imcSocket unknown datagram =
          ⟨stop, descs, ⟨nextByte, byteBufferEnd, rest, readEnd, [], []⟩⟩ := by
  have long := length_received_le datagram
  have whole : areaEnd receiver datagram.declared =
      headerSize + datagram.declared := by
    rcases areaEnd_cases sized datagram with whole | ⟨_, _, large⟩
    · exact whole
    · omega
  obtain ⟨few, acceptable, handles, ⟨zero, rfl⟩ | encoded⟩ := all
  · refine ⟨.endOfArea, headerSize, .inl zero, Nat.le_add_right _ _, headerSize,
      headerSize, ?_⟩
    rw [parsedMessage, whole, zero, internalizeAll,
      if_neg (show ¬headerSize < headerSize + 0 from Nat.lt_irrefl _), handles]
    rfl
  · obtain ⟨front, short⟩ := List.prefix_take_iff.mp encoded
    have fits : (encodeDescs descs).length < datagram.declared := by
      rw [List.length_append, List.length_singleton] at short
      omega
    have holds : Holds (receiveBuffer datagram.received unknown) headerSize
        (encodeDescs descs ++ [typeEndTag]) := by
      rw [Holds, bytesAt_receiveBuffer (by omega)]
      exact (List.prefix_iff_eq_take.mp front).symm
    have parsed := @internalizeAll_encoded η receiver _ descs descMax few
      ⟨headerSize, headerSize + datagram.declared,
        datagram.receivedHandles imcSocket, headerSize, [], []⟩
      acceptable holds (Nat.add_lt_add_left fits _) (Nat.le_trans inside long)
      sized.sizeBytes rest handles
    refine ⟨.endTag, max headerSize (headerSize + ((encodeDescs descs).length + 1)),
      .inr rfl, by omega, headerSize + ((encodeDescs descs).length + 1),
      headerSize + datagram.declared, ?_⟩
    rw [parsedMessage, whole, parsed]
    rfl

theorem makesAll_of_parsedMessage
    (sized : receiver.Sized)
    (inside : areaEnd receiver datagram.declared ≤ datagram.received.length)
    (ended : datagram.declared = 0 ∨
      (parsedMessage receiver imcSocket unknown datagram).stop = .endTag) :
    headerSize + datagram.declared ≤ datagram.received.length ∧
      MakesAll receiver imcSocket datagram
        (parsedMessage receiver imcSocket unknown datagram).descs
        (parsedMessage receiver imcSocket unknown datagram).xfer.handles := by
  rcases areaEnd_cases sized datagram with whole | ⟨small, some, _⟩
  · rw [whole] at inside
    refine ⟨inside, ?_⟩
    rcases ended with zero | stop
    · have parsed : parsedMessage receiver imcSocket unknown datagram =
          ⟨.endOfArea, [], ⟨headerSize, headerSize,
            datagram.receivedHandles imcSocket, headerSize, [], []⟩⟩ := by
        rw [parsedMessage, whole, zero, internalizeAll,
          if_neg (show ¬headerSize < headerSize + 0 from Nat.lt_irrefl _)]
        rfl
      rw [parsed]
      exact ⟨Nat.zero_le _, trivial, rfl, .inl ⟨zero, rfl⟩⟩
    · obtain ⟨acceptable, holds, fits, handles, few⟩ :=
        encoded_of_internalizeAll rfl stop
      refine ⟨few, acceptable, handles, .inr ?_⟩
      have short : (encodeDescs (parsedMessage receiver imcSocket unknown
          datagram).descs ++ [typeEndTag]).length ≤ datagram.declared := by
        rw [List.length_append, List.length_singleton]
        have before : headerSize + (encodeDescs (parsedMessage receiver imcSocket
            unknown datagram).descs).length <
              areaEnd receiver datagram.declared := fits
        omega
      rw [List.prefix_take_iff]
      refine ⟨List.prefix_iff_eq_take.mpr ?_, short⟩
      have bytes := @bytesAt_receiveBuffer unknown datagram.received headerSize _
        (Nat.le_trans (Nat.add_le_add_left short _) inside)
      exact (Eq.trans bytes.symm holds).symm
  · exfalso
    rcases ended with zero | stop
    · exact some zero
    · obtain ⟨_, _, fits, _⟩ := encoded_of_internalizeAll rfl stop
      have before : headerSize + _ < areaEnd receiver datagram.declared := fits
      omega

theorem discards_iff
    (inside : headerSize + datagram.declared ≤ datagram.received.length) :
    min (datagram.received.length - (headerSize + datagram.declared))
        (min header.iov.sum userBytesMax) < datagram.userLength ↔
      min header.iov.sum userBytesMax < datagram.userLength ∨
        imcBytesMax < datagram.bytes.length := by
  unfold Datagram.userLength Datagram.received at *
  rw [List.length_take] at *
  omega

theorem reports_of_complete
    (sized : receiver.Sized) {stored : List (List UInt8)}
    (complete : Complete receiver imcSocket header datagram) :
    Reports imcSocket datagram (finishReceive header
      (min (datagram.received.length - areaEnd receiver datagram.declared)
        (min header.iov.sum userBytesMax)) stored
      (parsedMessage receiver imcSocket unknown datagram)) := by
  obtain ⟨inside, data, descs, rest, all, room⟩ := complete
  have long := length_received_le datagram
  have whole : areaEnd receiver datagram.declared =
      headerSize + datagram.declared := by
    rcases areaEnd_cases sized datagram with whole | ⟨_, _, large⟩
    · exact whole
    · omega
  obtain ⟨stop, readEnd, ended, within, nextByte, byteBufferEnd, parsed⟩ :=
    @parsedMessage_of_makesAll η receiver imcSocket unknown datagram sized inside
      descs rest all
  rw [whole, parsed]
  refine ⟨?_, ⟨_, rfl, ?_, ended, within, rfl⟩, ?_⟩
  · rw [finishReceive, data, ← discards_iff inside]
    exact Int.ofNat_lt.symm
  · simp only [finishReceive, List.length_take, Bool.or_eq_true,
      decide_eq_true_eq]
    constructor
    · rintro (before | now)
      · have discarded := room before
        omega
      · omega
    · intro discarded
      omega
  · have same : (descs.take header.ndescLength).flatMap NaClDesc.handles ++
        ((descs.drop header.ndescLength).flatMap NaClDesc.handles ++ rest) =
          datagram.receivedHandles imcSocket := by
      rw [← List.append_assoc, ← List.flatMap_append, List.take_append_drop,
        all.handles]
    exact List.Perm.of_eq same

theorem complete_of_reports
    (sized : receiver.Sized) {stored : List (List UInt8)}
    (inside : areaEnd receiver datagram.declared ≤ datagram.received.length)
    (reports : Reports imcSocket datagram (finishReceive header
      (min (datagram.received.length - areaEnd receiver datagram.declared)
        (min header.iov.sum userBytesMax)) stored
      (parsedMessage receiver imcSocket unknown datagram))) :
    Complete receiver imcSocket header datagram := by
  obtain ⟨data, ⟨parsed, same, flag, ended, _, _⟩, _⟩ := reports
  cases same
  obtain ⟨fits, all⟩ := makesAll_of_parsedMessage sized inside ended
  have long := length_received_le datagram
  have whole : areaEnd receiver datagram.declared =
      headerSize + datagram.declared := by
    rcases areaEnd_cases sized datagram with whole | ⟨_, _, large⟩
    · exact whole
    · omega
  refine ⟨fits, ?_, _, _, all, ?_⟩
  · rw [← discards_iff fits]
    rw [whole] at data
    exact data.trans Int.ofNat_lt
  · intro before
    simp only [finishReceive, List.length_take, before, Bool.true_or, true_iff]
      at flag
    omega

/-- A call that succeeds reports what it dropped exactly for these messages. -/
theorem receive_reports_iff
    (sized : receiver.Sized)
    (returned : receiveTypedMessage receiver imcSocket unknown header
      (.ok datagram) = some result)
    (succeeded : 0 ≤ result.retval) :
    Reports imcSocket datagram result ↔
      Complete receiver imcSocket header datagram := by
  obtain ⟨inside, stored, rfl⟩ := receive_succeeded returned succeeded
  exact ⟨complete_of_reports sized inside, reports_of_complete sized⟩

end Reports

section Examples

def oneByte : ReceiveHeader := ⟨[1], descMax, ⟨false, false⟩⟩

def wholeFile : Datagram Nat :=
  ⟨internalHeader 16 ++ (descriptorArea 16 [2] ++ [7]), [5]⟩

private theorem complete_wholeFile :
    Complete (ableReceiver .linux) true oneByte wholeFile := by
  refine ⟨by decide, by decide, [.hostIo 5], [], ⟨by decide, ?_, rfl, ?_⟩, nofun⟩
  · exact ⟨⟨rfl, rfl⟩, trivial⟩
  · exact .inr ⟨List.replicate 14 0, by decide⟩

theorem receive_reports_file :
    ∃ result, receiveTypedMessage (ableReceiver .linux) true (fun _ => 0) oneByte
        (.ok wholeFile) = some result ∧
      0 ≤ result.retval ∧ Reports true wholeFile result := by
  refine ⟨_, rfl, by decide, ?_⟩
  exact (receive_reports_iff (ableReceiver_able _).toSized rfl (by decide)).mpr
    complete_wholeFile

def twoBytes : Datagram Nat := ⟨internalHeader 0 ++ [7, 8], []⟩

def missingHandle : Datagram Nat :=
  ⟨internalHeader 16 ++ descriptorArea 16 [2, 0], []⟩

def longFileId : Datagram Nat :=
  ⟨internalHeader 16 ++ (15 :: List.replicate 15 0 ++ [0, 0]), []⟩

def negativeShm : Datagram Nat :=
  ⟨internalHeader 16 ++ descriptorArea 16 (7 :: littleEndian 8 (2 ^ 63)), [5]⟩

def Conceals (header : ReceiveHeader) (datagram : Datagram Nat) : Prop :=
  ∃ result, receiveTypedMessage (ableReceiver .linux) true (fun _ => 0) header
      (.ok datagram) = some result ∧
    0 ≤ result.retval ∧ ¬Reports true datagram result

/-- The flag for data is not set; the list ends at a file without a handle; the
wrapper is read behind the area; and the handle of the memory is lost. -/
theorem receive_conceals :
    Conceals oneByte twoBytes ∧ Conceals oneByte missingHandle ∧
      Conceals oneByte longFileId ∧ Conceals oneByte negativeShm := by
  refine ⟨?_, ?_, ?_, ?_⟩
  · refine ⟨_, rfl, by decide, fun reports => ?_⟩
    have told := reports.dataFlag.mpr (by decide)
    cases told
  · refine ⟨_, rfl, by decide, fun reports => ?_⟩
    obtain ⟨parsed, same, _, ended, _⟩ := reports.parsed
    cases same
    exact absurd ended (by decide)
  · refine ⟨_, rfl, by decide, fun reports => ?_⟩
    obtain ⟨parsed, same, _, _, within, _⟩ := reports.parsed
    cases same
    exact absurd within (by decide)
  · refine ⟨_, rfl, by decide, fun reports => ?_⟩
    obtain ⟨parsed, same, _, _, _, lost⟩ := reports.parsed
    cases same
    exact absurd lost (by decide)

end Examples

end NativeClient.Desc
