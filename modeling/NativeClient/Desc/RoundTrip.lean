import NativeClient.Desc.DescriptorEncoding

/-!
# Sending descriptors and receiving them again

A message arrives as it was sent unless one of three things is in the way.  The
size of a quota wrapper is asked of the wrapper itself, so that the sender does
not return.  A directory tells its size, but cannot be written.  And the buffer
of the receiver is too small for the longest messages, because it does not
count the end tag and the rounding.
-/

namespace NativeClient.Desc

open NativeClient.Library

variable {η : Type}

/-- The classes that can be sent, as far as they exist on the system.  A
descriptor of shared memory has a size that its constructor accepted. -/
def Transferable (receiver : Receiver) : NaClDesc η → Prop
  | .connCap _ => receiver.system = .windows
  | .connCapFd _ => receiver.system ≠ .windows
  | .shm _ size => validSize receiver size
  | .sysvShm _ size =>
      receiver.system = .linux ∧ size.val % 4096 = 0 ∧ validSize receiver size
  | .quota _ desc => Transferable receiver desc
  | .localOnly _ => False
  | _ => True

def NaClDesc.Plain : NaClDesc η → Prop
  | dir _ => False
  | quota _ _ => False
  | localOnly _ => False
  | _ => True

section Sizes

theorem externalizeSize_quota
    (fuel : Nat) (fileId : FixedBytes quotaFileIdLen) (desc : NaClDesc η) :
    externalizeSize fuel (.quota fileId desc) = none := by
  induction fuel with
  | zero => rfl
  | succ fuel ih => rw [externalizeSize, ih, Option.map_none]

theorem externalizeSize_plain
    {desc : NaClDesc η} (plain : desc.Plain) (fuel : Nat) :
    ∃ bytes, externalizeSize (fuel + 1) desc =
        some (.ok (bytes, desc.handles.length)) ∧
      1 + bytes = (encodeDesc desc).length := by
  cases desc with
  | connCap path =>
      refine ⟨pathMax, rfl, ?_⟩
      rw [encodeDesc, List.length_cons, path.length_eq, Nat.add_comm]
  | shm h size => exact ⟨8, rfl, by simp [encodeDesc]⟩
  | sysvShm id size => exact ⟨4 + 8, rfl, by simp [encodeDesc]⟩
  | dir hd => exact absurd plain id
  | quota fileId desc => exact absurd plain id
  | localOnly localClass => exact absurd plain id
  | _ => exact ⟨0, rfl, rfl⟩

theorem externalize_plain
    {desc : NaClDesc η} (plain : desc.Plain) (fuel : Nat) :
    externalizeToXferBuffer (fuel + 1) desc =
      some (.ok (encodeDesc desc, desc.handles)) := by
  cases desc with
  | dir hd => exact absurd plain id
  | quota fileId desc => exact absurd plain id
  | localOnly localClass => exact absurd plain id
  | _ => rfl

theorem length_encodeDesc_le
    {desc : NaClDesc η} (plain : desc.Plain) :
    (encodeDesc desc).length ≤ 1 + pathMax ∧ desc.handles.length ≤ 1 := by
  cases desc with
  | connCap path =>
      simp only [encodeDesc, List.length_cons, path.length_eq, NaClDesc.handles,
        List.length_nil]
      omega
  | shm h size => simp [encodeDesc, NaClDesc.handles, pathMax]
  | sysvShm id size => simp [encodeDesc, NaClDesc.handles, pathMax]
  | dir hd => exact absurd plain id
  | quota fileId desc => exact absurd plain id
  | localOnly localClass => exact absurd plain id
  | _ => simp [encodeDesc, NaClDesc.handles, pathMax]

theorem length_encodeDescs_le
    {descs : List (NaClDesc η)} (plain : ∀ desc ∈ descs, desc.Plain) :
    (encodeDescs descs).length ≤ descs.length * (1 + pathMax) ∧
      (descs.flatMap NaClDesc.handles).length ≤ descs.length := by
  induction descs with
  | nil => simp [encodeDescs]
  | cons desc descs ih =>
      obtain ⟨bytes, handles⟩ := length_encodeDesc_le
        (plain desc List.mem_cons_self)
      obtain ⟨moreBytes, moreHandles⟩ := ih fun desc member =>
        plain desc (List.mem_cons_of_mem _ member)
      unfold encodeDescs at moreBytes ⊢
      rw [List.flatMap_cons, List.flatMap_cons, List.length_append,
        List.length_append, List.length_cons, Nat.succ_mul]
      omega

theorem sizePass_plain
    {descs : List (NaClDesc η)} (plain : ∀ desc ∈ descs, desc.Plain) (fuel : Nat)
    {sysBytes sysHandles : Nat}
    (bytes : sysBytes + (encodeDescs descs).length < abiSizeMax)
    (handles : sysHandles + (descs.flatMap NaClDesc.handles).length < abiSizeMax) :
    sizePass (fuel + 1) descs sysBytes sysHandles =
      some (.ok (sysBytes + (encodeDescs descs).length,
        sysHandles + (descs.flatMap NaClDesc.handles).length)) := by
  induction descs generalizing sysBytes sysHandles with
  | nil => rfl
  | cons desc descs ih =>
      obtain ⟨size, sizes, same⟩ :=
        externalizeSize_plain (plain desc List.mem_cons_self) fuel
      have split : encodeDescs (desc :: descs) =
          encodeDesc desc ++ encodeDescs descs := rfl
      rw [split, List.length_append] at bytes
      rw [List.flatMap_cons, List.length_append] at handles
      rw [sizePass, sizes]
      simp only
      rw [if_neg (by omega), ih (fun desc member =>
        plain desc (List.mem_cons_of_mem _ member)) (by omega) (by omega), split,
        List.flatMap_cons, List.length_append, List.length_append, same,
        Nat.add_assoc, Nat.add_assoc]

theorem writePass_plain
    {descs : List (NaClDesc η)} (plain : ∀ desc ∈ descs, desc.Plain) (fuel : Nat) :
    writePass (fuel + 1) descs =
      some (.ok (encodeDescs descs, descs.flatMap NaClDesc.handles)) := by
  induction descs with
  | nil => rfl
  | cons desc descs ih =>
      rw [writePass, externalize_plain (plain desc List.mem_cons_self)]
      simp only [ih fun desc member => plain desc (List.mem_cons_of_mem _ member)]
      rfl

end Sizes

section Sending

def areaSize (descs : List (NaClDesc η)) : Nat :=
  if descs = [] then 0 else roundedBytes (encodeDescs descs).length

def areaBytes (descs : List (NaClDesc η)) : List UInt8 :=
  if descs = [] then []
  else descriptorArea (areaSize descs) (encodeDescs descs)

theorem lt_roundedBytes (sysBytes : Nat) : sysBytes < roundedBytes sysBytes := by
  unfold roundedBytes
  omega

theorem length_areaBytes (descs : List (NaClDesc η)) :
    (areaBytes descs).length = areaSize descs := by
  unfold areaBytes
  by_cases none : descs = []
  · rw [if_pos none, areaSize, if_pos none, List.length_nil]
  · have more : (encodeDescs descs).length < areaSize descs := by
      rw [areaSize, if_neg none]
      exact lt_roundedBytes _
    rw [if_neg none, descriptorArea, List.length_append, List.length_cons,
      List.length_replicate]
    omega

variable {descs : List (NaClDesc η)} {iov : List (List UInt8)} {fuel : Nat}

theorem areaSize_le
    (plain : ∀ desc ∈ descs, desc.Plain)
    (few : descs.length ≤ descMax) :
    areaSize descs ≤ 240 := by
  have bound := (length_encodeDescs_le plain).1
  unfold areaSize
  split
  · omega
  · unfold roundedBytes
    unfold pathMax at bound
    unfold descMax at few
    omega

def messageBytes (iov : List (List UInt8)) (descs : List (NaClDesc η)) :
    List UInt8 :=
  internalHeader (areaSize descs) ++ (areaBytes descs ++ iov.flatten)

theorem send_plain
    (buffers : iov.length ≤ iovecMax) (few : descs.length ≤ descMax)
    (small : iov.flatten.length ≤ userBytesMax)
    (plain : ∀ desc ∈ descs, desc.Plain) (fuel : Nat) :
    sendTypedMessage (fuel + 1) true true iov descs =
      some (.ok ⟨messageBytes iov descs, descs.flatMap NaClDesc.handles⟩) := by
  obtain ⟨bytes, handles⟩ := length_encodeDescs_le plain
  have bound := areaSize_le plain few
  unfold descMax at few
  unfold pathMax at bytes
  rw [sendTypedMessage, if_neg (by simp), if_neg (Nat.not_lt.mpr buffers),
    if_neg (by unfold descMax; omega), if_neg (Nat.not_lt.mpr small)]
  by_cases none : descs = []
  · rw [if_pos none, messageBytes, areaBytes, if_pos none, areaSize, if_pos none,
      none]
    rfl
  · have sizes := @sizePass_plain η descs plain fuel 0 0
      (by unfold abiSizeMax; omega) (by unfold abiSizeMax; omega)
    rw [Nat.zero_add, Nat.zero_add] at sizes
    rw [areaSize, if_neg none] at bound
    rw [if_neg none, sizes]
    simp only [writePass_plain plain]
    rw [if_neg (by unfold descMax; omega),
      if_neg (by unfold abiSizeMax headerSize; omega), if_neg (by decide),
      messageBytes, areaBytes, if_neg none, areaSize, if_neg none,
      List.take_length]

theorem plain_of_passes
    {receiver : Receiver}
    (transferable : ∀ desc ∈ descs, Transferable receiver desc)
    {sysBytes sysHandles : Nat} {sizes : Nat × Nat}
    (sized : sizePass fuel descs sysBytes sysHandles = some (.ok sizes))
    {written : List UInt8 × List η}
    (wrote : writePass fuel descs = some (.ok written)) :
    ∀ desc ∈ descs, desc.Plain := by
  induction descs generalizing sysBytes sysHandles written with
  | nil => exact fun desc member => absurd member List.not_mem_nil
  | cons desc descs ih =>
      have plain : desc.Plain := by
        cases desc with
        | dir hd =>
            cases fuel with
            | zero => cases wrote
            | succ fuel => cases wrote
        | quota fileId wrapped =>
            rw [sizePass, externalizeSize_quota] at sized
            cases sized
        | localOnly localClass =>
            exact absurd (transferable _ List.mem_cons_self) id
        | _ => trivial
      cases fuel with
      | zero => cases wrote
      | succ fuel =>
          obtain ⟨size, first, same⟩ := externalizeSize_plain plain fuel
          rw [sizePass, first] at sized
          simp only at sized
          split at sized
          · cases sized
          · rw [writePass, externalize_plain plain] at wrote
            simp only at wrote
            have later : ∀ desc ∈ descs, Transferable receiver desc :=
              fun desc member => transferable desc (List.mem_cons_of_mem _ member)
            cases rest : writePass (fuel + 1) descs with
            | none => rw [rest] at wrote; cases wrote
            | some answer =>
                cases answer with
                | error errno => rw [rest] at wrote; cases wrote
                | ok more =>
                    intro other member
                    rcases List.mem_cons.mp member with rfl | member
                    · exact plain
                    · exact ih later sized rest other member

theorem plain_of_send
    {receiver : Receiver} {memory imcSocket : Bool}
    {datagram : Datagram η}
    (transferable : ∀ desc ∈ descs, Transferable receiver desc)
    (sent : sendTypedMessage fuel memory imcSocket iov descs =
      some (.ok datagram)) :
    ∀ desc ∈ descs, desc.Plain := by
  by_cases none : descs = []
  · rw [none]
    exact fun desc member => absurd member List.not_mem_nil
  · unfold sendTypedMessage at sent
    simp only [if_neg none] at sent
    split at sent
    · cases sent
    split at sent
    · cases sent
    split at sent
    · cases sent
    split at sent
    · cases sent
    split at sent
    · cases sent
    · cases sent
    next sysBytes sysHandles sized =>
      split at sent
      · cases sent
      split at sent
      · cases sent
      split at sent
      · cases sent
      split at sent
      · cases sent
      · cases sent
      next bytes handles wrote => exact plain_of_passes transferable sized wrote

theorem datagram_of_send
    {datagram : Datagram η}
    (buffers : iov.length ≤ iovecMax) (few : descs.length ≤ descMax)
    (small : iov.flatten.length ≤ userBytesMax)
    (plain : ∀ desc ∈ descs, desc.Plain)
    (sent : sendTypedMessage fuel true true iov descs = some (.ok datagram)) :
    datagram = ⟨messageBytes iov descs, descs.flatMap NaClDesc.handles⟩ := by
  cases fuel with
  | zero =>
      cases descs with
      | nil =>
          have same : sendTypedMessage 0 true true iov ([] : List (NaClDesc η)) =
              sendTypedMessage (0 + 1) true true iov [] := rfl
          rw [same, send_plain buffers few small plain] at sent
          cases sent
          rfl
      | cons desc descs =>
          rw [sendTypedMessage, if_neg (by simp),
            if_neg (Nat.not_lt.mpr buffers), if_neg (Nat.not_lt.mpr few),
            if_neg (Nat.not_lt.mpr small), if_neg (List.cons_ne_nil _ _)] at sent
          cases sent
  | succ fuel =>
      rw [send_plain buffers few small plain] at sent
      cases sent
      rfl

end Sending

section Receiving

theorem flatten_copyOut (lengths : List Nat) (bytes : List UInt8) :
    (copyOut lengths bytes).flatten = bytes.take lengths.sum := by
  induction lengths generalizing bytes with
  | nil => rw [copyOut, List.sum_nil, List.take_zero, List.flatten_nil]
  | cons length lengths ih =>
      rw [copyOut, List.flatten_cons, ih, List.sum_cons, List.take_add]

theorem holds_receiveBuffer
    (front middle back : List UInt8) (unknown : Nat → UInt8) :
    Holds (receiveBuffer (front ++ (middle ++ back)) unknown) front.length
      middle := by
  refine List.ext_getElem (length_bytesAt _ _ _) ?_
  intro index _ inside
  simp only [bytesAt, receiveBuffer, List.getElem_map, List.getElem_range,
    List.getD_eq_getElem?_getD]
  rw [List.getElem?_append_right (Nat.le_add_right _ _), Nat.add_sub_cancel_left,
    List.getElem?_append_left inside, List.getElem?_eq_getElem inside,
    Option.getD_some]

@[simp] theorem length_internalHeader (dataBytes : Nat) :
    (internalHeader dataBytes).length = headerSize := by
  simp [internalHeader, headerSize]

theorem version_internalHeader (dataBytes : Nat) (behind : List UInt8) :
    ofLittleEndian ((internalHeader dataBytes ++ behind).take 4) =
      handleTransferProtocol := by
  rw [internalHeader, List.append_assoc,
    List.take_left' (length_littleEndian 4 _)]
  exact ofLittleEndian_littleEndian (by decide)

theorem dataBytes_internalHeader
    {dataBytes : Nat} (small : dataBytes < 2 ^ 32) (behind : List UInt8) :
    ofLittleEndian (((internalHeader dataBytes ++ behind).drop 4).take 4) =
      dataBytes := by
  rw [internalHeader, List.append_assoc,
    List.drop_left' (length_littleEndian 4 _), List.append_assoc,
    List.take_left' (length_littleEndian 4 _)]
  exact ofLittleEndian_littleEndian small

variable {receiver : Receiver} {descs : List (NaClDesc η)}

theorem acceptable_of_transferable
    {desc : NaClDesc η}
    (memory : ∀ place, receiver.memory place)
    (constructs : ∀ place, receiver.constructs place)
    (plain : desc.Plain) (transferable : Transferable receiver desc)
    (place : Nat) :
    Acceptable receiver place desc := by
  have both := And.intro (memory place) (constructs place)
  cases desc with
  | invalid => trivial
  | dir hd => exact absurd plain id
  | hostIo d => exact both
  | connCap path => exact ⟨transferable, both⟩
  | connCapFd connectFd => exact ⟨transferable, both⟩
  | shm h size => exact ⟨transferable, both⟩
  | sysvShm id size =>
      exact ⟨transferable.1, transferable.2.1, transferable.2.2, both⟩
  | syncSocket h => exact both
  | transferableDataSocket h => exact both
  | quota fileId desc => exact absurd plain id
  | localOnly localClass => exact absurd plain id

theorem allAcceptable_of_transferable
    (memory : ∀ place, receiver.memory place)
    (constructs : ∀ place, receiver.constructs place)
    (plain : ∀ desc ∈ descs, desc.Plain)
    (transferable : ∀ desc ∈ descs, Transferable receiver desc)
    (place : Nat) :
    AllAcceptable receiver place descs := by
  induction descs generalizing place with
  | nil => trivial
  | cons desc descs ih =>
      refine ⟨acceptable_of_transferable memory constructs
        (plain desc List.mem_cons_self) (transferable desc List.mem_cons_self)
        place, ?_⟩
      exact ih (fun desc member => plain desc (List.mem_cons_of_mem _ member))
        (fun desc member => transferable desc (List.mem_cons_of_mem _ member)) _

structure Receiver.Sized (receiver : Receiver) : Prop where
  sizeMax : 2 ^ 32 - 1 ≤ receiver.sizeMax
  sizeBytes : receiver.sizeBytes ≤ 8

structure Receiver.Able (receiver : Receiver) : Prop extends
    Receiver.Sized receiver where
  memory : ∀ place, receiver.memory place
  constructs : ∀ place, receiver.constructs place

structure ReceiveHeader.Sufficient (header : ReceiveHeader) (receiver : Receiver)
    (iov : List (List UInt8)) (descs : List (NaClDesc η)) : Prop where
  buffers : header.iov.length ≤ iovecMax
  sum : header.iov.sum ≤ receiver.sizeMax
  bytes : iov.flatten.length ≤ header.iov.sum
  room : header.ndescLength ≤ descMax
  descs : descs.length ≤ header.ndescLength

theorem internalizeAll_area
    (able : receiver.Able)
    (few : descs.length ≤ descMax) (plain : ∀ desc ∈ descs, desc.Plain)
    (transferable : ∀ desc ∈ descs, Transferable receiver desc)
    {buffer : Nat → UInt8} (holds : Holds buffer headerSize (areaBytes descs)) :
    ∃ parsed, internalizeAll receiver buffer descMax
        ⟨headerSize, headerSize + areaSize descs,
          descs.flatMap NaClDesc.handles, headerSize, [], []⟩ = parsed ∧
      (parsed.stop = .endTag ∨ parsed.stop = .endOfArea) ∧
      parsed.descs = descs ∧ parsed.xfer.handles = [] ∧
      parsed.xfer.closed = [] := by
  by_cases none : descs = []
  · subst none
    refine ⟨_, rfl, ?_⟩
    rw [internalizeAll, areaSize, if_pos rfl,
      if_neg (show ¬headerSize < headerSize + 0 from Nat.lt_irrefl _)]
    exact ⟨.inr rfl, rfl, rfl, rfl⟩
  · have bound := areaSize_le plain few
    have inside : (encodeDescs descs).length < areaSize descs := by
      rw [areaSize, if_neg none]
      exact lt_roundedBytes _
    rw [areaBytes, if_neg none, descriptorArea,
      ← List.singleton_append, ← List.append_assoc] at holds
    have parsed := @internalizeAll_encoded η receiver buffer descs descMax few
      ⟨headerSize, headerSize + areaSize descs, descs.flatMap NaClDesc.handles,
        headerSize, [], []⟩
      (allAcceptable_of_transferable able.memory able.constructs plain
        transferable _)
      (holds_append.mp holds).1 (Nat.add_lt_add_left inside _)
      (by show headerSize + areaSize descs ≤ imcBytesMax
          unfold headerSize imcBytesMax userBytesMax pathMax descMax
          omega)
      able.sizeBytes [] (List.append_nil _).symm
    exact ⟨_, parsed, .inl rfl, rfl, rfl, rfl⟩

def deliveredBytes (iov : List (List UInt8)) (descs : List (NaClDesc η)) : Nat :=
  min iov.flatten.length (imcBytesMax - (headerSize + areaSize descs))

theorem take_messageBytes
    {iov : List (List UInt8)}
    (plain : ∀ desc ∈ descs, desc.Plain) (few : descs.length ≤ descMax) :
    (messageBytes iov descs).take imcBytesMax =
      internalHeader (areaSize descs) ++
        (areaBytes descs ++ iov.flatten.take (deliveredBytes iov descs)) := by
  have bound := areaSize_le plain few
  have header : headerSize + areaSize descs ≤ imcBytesMax := by
    unfold headerSize imcBytesMax userBytesMax pathMax descMax
    omega
  rw [messageBytes, List.take_append, length_internalHeader, List.take_append,
    length_areaBytes,
    List.take_of_length_le (by rw [length_internalHeader]; omega),
    List.take_of_length_le (by rw [length_areaBytes]; omega), deliveredBytes,
    Nat.min_comm, ← List.take_take, List.take_length, Nat.sub_sub]

theorem receive_plain
    (able : receiver.Able)
    {iov : List (List UInt8)} {header : ReceiveHeader}
    (sufficient : header.Sufficient receiver iov descs)
    (small : iov.flatten.length ≤ userBytesMax)
    (plain : ∀ desc ∈ descs, desc.Plain)
    (transferable : ∀ desc ∈ descs, Transferable receiver desc)
    (unknown : Nat → UInt8) :
    ∃ result, receiveTypedMessage receiver true unknown header
        (.ok ⟨messageBytes iov descs, descs.flatMap NaClDesc.handles⟩) =
          some result ∧
      result.retval = deliveredBytes iov descs ∧
      result.stored.flatten = iov.flatten.take (deliveredBytes iov descs) ∧
      result.descs = descs ∧ result.closed = [] := by
  obtain ⟨buffers, sum, bytes, room, enough⟩ := sufficient
  have few := Nat.le_trans enough room
  have bound := areaSize_le plain few
  have handleCount := (length_encodeDescs_le plain).2
  have sizeMax := able.sizeMax
  have wraps : areaEnd receiver (areaSize descs) =
      headerSize + areaSize descs := by
    rw [areaEnd, Nat.mod_eq_of_lt (by unfold headerSize; omega), Nat.add_comm]
  have delivered : deliveredBytes iov descs ≤ iov.flatten.length :=
    Nat.min_le_left _ _
  have length : (internalHeader (areaSize descs) ++ (areaBytes descs ++
      iov.flatten.take (deliveredBytes iov descs))).length =
        headerSize + areaSize descs + deliveredBytes iov descs := by
    rw [List.length_append, List.length_append, length_internalHeader,
      length_areaBytes, List.length_take_of_le delivered, Nat.add_assoc]
  have available : min (headerSize + areaSize descs + deliveredBytes iov descs -
      (headerSize + areaSize descs)) (min header.iov.sum userBytesMax) =
        deliveredBytes iov descs := by
    omega
  have user : (internalHeader (areaSize descs) ++ (areaBytes descs ++
      iov.flatten.take (deliveredBytes iov descs))).drop
        (headerSize + areaSize descs) =
      iov.flatten.take (deliveredBytes iov descs) := by
    rw [← List.append_assoc]
    exact List.drop_left' (by
      rw [List.length_append, length_internalHeader, length_areaBytes])
  have holds := holds_receiveBuffer (internalHeader (areaSize descs))
    (areaBytes descs) (iov.flatten.take (deliveredBytes iov descs)) unknown
  rw [length_internalHeader] at holds
  obtain ⟨parsed, same, stop, made, left, closed⟩ :=
    internalizeAll_area able few plain transferable holds
  refine ⟨finishReceive header (deliveredBytes iov descs)
    (copyOut header.iov (iov.flatten.take (deliveredBytes iov descs))) parsed,
    ?_, rfl, ?_, ?_, ?_⟩
  · rw [receiveTypedMessage, if_neg (Nat.not_lt.mpr buffers),
      if_neg (Nat.not_lt.mpr room), if_neg (Nat.not_lt.mpr sum)]
    simp only [take_messageBytes plain few, version_internalHeader,
      dataBytes_internalHeader (show areaSize descs < 2 ^ 32 by omega), wraps,
      length, available, user, if_true, ne_eq, not_true_eq_false, if_false]
    rw [if_neg (by omega), if_neg (by omega),
      List.take_of_length_le (Nat.le_trans handleCount few), same,
      List.take_take, Nat.min_self]
    rcases stop with stop | stop
    · rw [stop]
    · rw [stop]
  · show (copyOut _ _).flatten = _
    rw [flatten_copyOut, List.take_take]
    congr 1
    omega
  · show parsed.descs.take header.ndescLength = descs
    rw [made, List.take_of_length_le enough]
  · show parsed.xfer.closed ++ _ = []
    rw [closed, made, left, List.drop_of_length_le enough]
    rfl

end Receiving

section RoundTrip

/-- The sender returns, writes what its first pass computed, and whoever has
room for the message receives it as it was sent. -/
structure RoundTrips (receiver : Receiver) (iov : List (List UInt8))
    (descs : List (NaClDesc η)) : Prop where
  sizes : ∃ fuel bytes handles, writePass fuel descs = some (.ok (bytes, handles)) ∧
    sizePass fuel descs 0 0 = some (.ok (bytes.length, handles.length))
  received : ∃ fuel datagram,
    sendTypedMessage fuel true true iov descs = some (.ok datagram) ∧
      ∀ (header : ReceiveHeader) (unknown : Nat → UInt8),
        header.Sufficient receiver iov descs →
          ∃ result, receiveTypedMessage receiver true unknown header
              (.ok datagram) = some result ∧
            result.retval = iov.flatten.length ∧
            result.stored.flatten = iov.flatten ∧
            result.descs = descs

structure Sendable (receiver : Receiver) (iov : List (List UInt8))
    (descs : List (NaClDesc η)) : Prop where
  buffers : iov.length ≤ iovecMax
  bytes : iov.flatten.length ≤ userBytesMax
  few : descs.length ≤ descMax
  transferable : ∀ desc ∈ descs, Transferable receiver desc

variable {receiver : Receiver} {iov : List (List UInt8)}
  {descs : List (NaClDesc η)}

theorem exists_sufficient
    (able : receiver.Able)
    (sendable : Sendable receiver iov descs) :
    ∃ header : ReceiveHeader, header.Sufficient receiver iov descs := by
  refine ⟨⟨[iov.flatten.length], descMax, ⟨false, false⟩⟩,
    Nat.succ_le_succ (Nat.zero_le _), ?_, ?_, Nat.le_refl _, sendable.few⟩
  · have bytes := sendable.bytes
    have sizeMax := able.sizeMax
    rw [List.sum_singleton]
    unfold userBytesMax at bytes
    omega
  · rw [List.sum_singleton]

theorem roundTrips_of_plain
    (able : receiver.Able)
    (sendable : Sendable receiver iov descs)
    (plain : ∀ desc ∈ descs, desc.Plain)
    (fits : headerSize + areaSize descs + iov.flatten.length ≤ imcBytesMax) :
    RoundTrips receiver iov descs := by
  obtain ⟨buffers, small, few, transferable⟩ := sendable
  have whole : deliveredBytes iov descs = iov.flatten.length := by
    unfold deliveredBytes
    omega
  obtain ⟨bytes, handles⟩ := length_encodeDescs_le plain
  refine ⟨?_, ?_⟩
  · refine ⟨1, encodeDescs descs, descs.flatMap NaClDesc.handles,
      writePass_plain plain 0, ?_⟩
    have sizes := @sizePass_plain η descs plain 0 0 0
      (by unfold abiSizeMax; unfold descMax at few; unfold pathMax at bytes; omega)
      (by unfold abiSizeMax; unfold descMax at few; omega)
    simpa only [Nat.zero_add] using sizes
  · refine ⟨1, _, send_plain buffers few small plain 0, ?_⟩
    intro header unknown sufficient
    obtain ⟨result, received, retval, stored, made, closed⟩ :=
      receive_plain able sufficient small plain transferable unknown
    rw [whole] at retval stored
    exact ⟨result, received, retval, stored.trans (List.take_length), made⟩

theorem plain_of_roundTrips
    (able : receiver.Able)
    (sendable : Sendable receiver iov descs)
    (trips : RoundTrips receiver iov descs) :
    (∀ desc ∈ descs, desc.Plain) ∧
      headerSize + areaSize descs + iov.flatten.length ≤ imcBytesMax := by
  obtain ⟨fuel, datagram, sent, received⟩ := trips.received
  have plain := plain_of_send sendable.transferable sent
  refine ⟨plain, ?_⟩
  have message := datagram_of_send sendable.buffers sendable.few sendable.bytes
    plain sent
  subst message
  obtain ⟨header, sufficient⟩ := exists_sufficient able sendable
  obtain ⟨result, some, retval, stored, made⟩ :=
    received header (fun _ => 0) sufficient
  obtain ⟨other, again, count, rest⟩ := receive_plain able sufficient
    sendable.bytes plain sendable.transferable fun _ => 0
  rw [some] at again
  cases again
  have bound := areaSize_le plain sendable.few
  have whole : iov.flatten.length = deliveredBytes iov descs := by
    exact Int.ofNat.inj (retval.symm.trans count)
  unfold deliveredBytes headerSize imcBytesMax userBytesMax pathMax descMax at whole
  unfold headerSize imcBytesMax userBytesMax pathMax descMax
  omega

/-- The messages that arrive as they were sent are those without wrappers and
directories that fit the buffer of the receiver. -/
theorem typed_message_round_trip
    {receiver : Receiver} (able : receiver.Able)
    {iov : List (List UInt8)} {descs : List (NaClDesc η)}
    (sendable : Sendable receiver iov descs) :
    RoundTrips receiver iov descs ↔
      (∀ desc ∈ descs, desc.Plain) ∧
        headerSize + areaSize descs + iov.flatten.length ≤ imcBytesMax :=
  ⟨plain_of_roundTrips able sendable,
    fun ⟨plain, fits⟩ => roundTrips_of_plain able sendable plain fits⟩

end RoundTrip

section Examples

def ableReceiver (system : System) : Receiver where
  system := system
  sizeMax := 2 ^ 64 - 1
  sizeBytes := 8
  memory := fun _ => true
  constructs := fun _ => true

theorem ableReceiver_able (system : System) : (ableReceiver system).Able := by
  refine ⟨⟨?_, Nat.le_refl 8⟩, fun _ => rfl, fun _ => rfl⟩
  show 2 ^ 32 - 1 ≤ 2 ^ 64 - 1
  decide

/-- A file and shared memory, with two buffers of bytes. -/
theorem typed_message_round_trip_pair :
    Sendable (ableReceiver .linux) [[1, 2], [3]]
        [NaClDesc.hostIo 5, .shm 6 65536] ∧
      RoundTrips (ableReceiver .linux) [[1, 2], [3]]
        [NaClDesc.hostIo 5, .shm 6 65536] := by
  have sendable : Sendable (ableReceiver .linux) [[1, 2], [3]]
      [NaClDesc.hostIo 5, .shm 6 65536] := by
    refine ⟨by decide, by decide, by decide, ?_⟩
    intro desc member
    simp only [List.mem_cons, List.not_mem_nil, or_false] at member
    rcases member with rfl | rfl
    · trivial
    · show validSize (ableReceiver .linux) 65536 = true
      decide
  refine ⟨sendable,
    (typed_message_round_trip (ableReceiver_able .linux) sendable).mpr ?_⟩
  refine ⟨?_, by decide⟩
  intro desc member
  simp only [List.mem_cons, List.not_mem_nil, or_false] at member
  rcases member with rfl | rfl
  · trivial
  · trivial

def zeroPath : FixedBytes pathMax := ⟨List.replicate pathMax 0, by decide⟩

def zeroFileId : FixedBytes quotaFileIdLen :=
  ⟨List.replicate quotaFileIdLen 0, by decide⟩

/-- A wrapped file, a directory, and eight paths with as many bytes as the user
may send. -/
theorem typed_messages_not_round_trip :
    (Sendable (ableReceiver .linux) [] [NaClDesc.quota zeroFileId (.hostIo 5)] ∧
      ¬RoundTrips (ableReceiver .linux) []
        [NaClDesc.quota zeroFileId (.hostIo 5)]) ∧
    (Sendable (ableReceiver .linux) [] [NaClDesc.dir 5] ∧
      ¬RoundTrips (ableReceiver .linux) [] [NaClDesc.dir 5]) ∧
    (Sendable (ableReceiver .windows) [List.replicate userBytesMax 0]
        (List.replicate 8 (NaClDesc.connCap zeroPath : NaClDesc Nat)) ∧
      ¬RoundTrips (ableReceiver .windows) [List.replicate userBytesMax 0]
        (List.replicate 8 (NaClDesc.connCap zeroPath : NaClDesc Nat))) := by
  refine ⟨?_, ?_, ?_⟩
  · have sendable : Sendable (ableReceiver .linux) []
        [NaClDesc.quota zeroFileId (.hostIo 5)] := by
      refine ⟨by decide, by decide, by decide, ?_⟩
      intro desc member
      rw [List.mem_singleton.mp member]
      trivial
    refine ⟨sendable, fun trips => ?_⟩
    exact (plain_of_roundTrips (ableReceiver_able _) sendable trips).1 _
      List.mem_cons_self
  · have sendable : Sendable (ableReceiver .linux) [] [NaClDesc.dir 5] := by
      refine ⟨by decide, by decide, by decide, ?_⟩
      intro desc member
      rw [List.mem_singleton.mp member]
      trivial
    refine ⟨sendable, fun trips => ?_⟩
    exact (plain_of_roundTrips (ableReceiver_able _) sendable trips).1 _
      List.mem_cons_self
  · have length : [List.replicate userBytesMax (0 : UInt8)].flatten.length =
        userBytesMax := by
      rw [List.flatten_singleton, List.length_replicate]
    have sendable : Sendable (ableReceiver .windows)
        [List.replicate userBytesMax 0]
        (List.replicate 8 (NaClDesc.connCap zeroPath : NaClDesc Nat)) := by
      refine ⟨Nat.succ_le_succ (Nat.zero_le _), Nat.le_of_eq length, by decide, ?_⟩
      intro desc member
      rw [List.eq_of_mem_replicate member]
      rfl
    refine ⟨sendable, fun trips => ?_⟩
    have fits := (plain_of_roundTrips (ableReceiver_able _) sendable trips).2
    have area : areaSize (List.replicate 8
        (NaClDesc.connCap zeroPath : NaClDesc Nat)) = 240 := by
      decide +kernel
    rw [length, area] at fits
    unfold headerSize imcBytesMax pathMax descMax at fits
    omega

end Examples

end NativeClient.Desc
