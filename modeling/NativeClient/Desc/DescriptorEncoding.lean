import NativeClient.Desc.TypedMessages

/-!
# How descriptors are encoded

`encodeDesc` is the format that the internalizers read: the tag and the data,
and for a wrapper the encoding of the wrapped descriptor behind its file id.  A
descriptor is made exactly if its encoding is next in the buffer, its handles
are next among those received, and the receiver accepts it.
-/

namespace NativeClient.Desc

open NativeClient.Library

variable {η : Type}

def encodeDesc : NaClDesc η → List UInt8
  | .connCap path => 3 :: path.list
  | .shm _ size => 7 :: littleEndian 8 size
  | .sysvShm id size => 8 :: (littleEndian 4 id ++ littleEndian 8 size)
  | .quota fileId desc => 15 :: (fileId.list ++ encodeDesc desc)
  | desc => [desc.typeTag]

def NaClDesc.depth : NaClDesc η → Nat
  | quota _ desc => desc.depth + 1
  | _ => 0

/-- The receiver makes this descriptor when its encoding starts at `place`. -/
def Acceptable (receiver : Receiver) : Nat → NaClDesc η → Prop
  | _, .invalid => True
  | _, .dir _ => False
  | place, .hostIo _ => receiver.memory place ∧ receiver.constructs place
  | place, .connCap _ =>
      receiver.system = .windows ∧
        receiver.memory place ∧ receiver.constructs place
  | place, .connCapFd _ =>
      receiver.system ≠ .windows ∧
        receiver.memory place ∧ receiver.constructs place
  | place, .shm _ size =>
      validSize receiver size ∧
        receiver.memory place ∧ receiver.constructs place
  | place, .sysvShm _ size =>
      receiver.system = .linux ∧ size.val % 4096 = 0 ∧ validSize receiver size ∧
        receiver.memory place ∧ receiver.constructs place
  | place, .syncSocket _ => receiver.memory place ∧ receiver.constructs place
  | place, .transferableDataSocket _ =>
      receiver.memory place ∧ receiver.constructs place
  | place, .quota _ desc =>
      receiver.memory place ∧ receiver.constructs place ∧
        Acceptable receiver (place + (1 + quotaFileIdLen)) desc
  | _, .localOnly _ => False

section Buffer

variable {buffer : Nat → UInt8}

theorem uint64At_of_holds
    {start : Nat} {size : Fin (2 ^ 64)}
    (holds : Holds buffer start (littleEndian 8 size)) :
    uint64At buffer start = size := by
  rw [Holds, length_littleEndian] at holds
  rw [uint64At, holds, ofLittleEndian_littleEndian size.isLt]
  exact Fin.ext (Nat.mod_eq_of_lt size.isLt)

theorem holds_uint64At (start : Nat) :
    Holds buffer start (littleEndian 8 (uint64At buffer start)) := by
  have small : ofLittleEndian (bytesAt buffer start 8) < 2 ^ 64 := by
    have bound := ofLittleEndian_lt (bytesAt buffer start 8)
    rw [length_bytesAt] at bound
    exact bound
  have value : (uint64At buffer start).val =
      ofLittleEndian (bytesAt buffer start 8) := Nat.mod_eq_of_lt small
  rw [value]
  exact holds_littleEndian start 8

end Buffer

section Making

variable {receiver : Receiver} {buffer : Nat → UInt8}

def Xfer.past (xfer : Xfer η) (count : Nat) (handles : List η) : Xfer η :=
  { xfer.advance count with handles := handles }

theorem Xfer.advance_past (xfer : Xfer η) (front back : Nat) (handles : List η) :
    (xfer.advance front).past back handles = xfer.past (front + back) handles := by
  simp only [past, advance, peek, Xfer.mk.injEq]
  exact ⟨by omega, trivial, trivial, by omega, trivial, trivial⟩

theorem Xfer.past_past (xfer : Xfer η) (front back : Nat) (first second : List η) :
    (xfer.past front first).past back second = xfer.past (front + back) second := by
  simp only [past, advance, peek, Xfer.mk.injEq]
  exact ⟨by omega, trivial, trivial, by omega, trivial, trivial⟩

private theorem internalize_tag
    {xfer : Xfer η} (tag : UInt8) (next : buffer xfer.nextByte = tag)
    (small : tag < typeMax) (fuel : Nat) :
    internalizeFromXferBuffer receiver buffer (fuel + 1) xfer =
      internalizeTag receiver buffer
        (internalizeFromXferBuffer receiver buffer fuel) tag xfer.nextByte
        (xfer.advance 1) := by
  have notEnd : tag ≠ typeEndTag := by
    rintro rfl
    exact absurd small (by decide)
  rw [internalizeFromXferBuffer]
  simp only [next, if_neg notEnd, if_neg (UInt8.not_le.mpr small)]

section Table

variable (wrapped : Xfer η → Internalized η × Xfer η) (place : Nat) (xfer : Xfer η)

private theorem internalizeTag_hostIo :
    internalizeTag receiver buffer wrapped 2 place xfer =
      ioInternalize receiver place xfer := rfl

private theorem internalizeTag_connCap (windows : receiver.system = .windows) :
    internalizeTag receiver buffer wrapped 3 place xfer =
      connCapInternalize receiver buffer place xfer := by
  unfold internalizeTag
  rw [if_neg (by decide), if_neg (by decide), if_pos ⟨rfl, windows⟩]

private theorem internalizeTag_connCapFd (posix : receiver.system ≠ .windows) :
    internalizeTag receiver buffer wrapped 4 place xfer =
      internalizeHandle receiver .connCapFd place xfer := by
  unfold internalizeTag
  rw [if_neg (by decide), if_neg (by decide),
    if_neg fun both => absurd both.1 (by decide), if_pos ⟨rfl, posix⟩]

private theorem internalizeTag_shm :
    internalizeTag receiver buffer wrapped 7 place xfer =
      imcShmInternalize receiver buffer place xfer := rfl

private theorem internalizeTag_sysvShm (linux : receiver.system = .linux) :
    internalizeTag receiver buffer wrapped 8 place xfer =
      sysvShmInternalize receiver buffer place xfer :=
  if_pos linux

private theorem internalizeTag_syncSocket :
    internalizeTag receiver buffer wrapped 12 place xfer =
      internalizeHandle receiver .syncSocket place xfer := rfl

private theorem internalizeTag_dataSocket :
    internalizeTag receiver buffer wrapped 13 place xfer =
      internalizeHandle receiver .transferableDataSocket place xfer := rfl

private theorem internalizeTag_quota_eq :
    internalizeTag receiver buffer wrapped 15 place xfer =
      if ¬receiver.memory place then (.failed, xfer)
      else
        match wrapped (xfer.advance quotaFileIdLen) with
        | (.made desc, xfer') =>
            if receiver.constructs place then
              (.made (.quota ⟨bytesAt buffer xfer.nextByte quotaFileIdLen,
                length_bytesAt _ _ _⟩ desc), xfer')
            else (.failed, { xfer' with closed := xfer'.closed ++ desc.handles })
        | (.fatal, xfer') => (.fatal, xfer')
        | (_, xfer') => (.failed, xfer') := rfl

private theorem internalizeTag_quota
    {desc : NaClDesc η} {fileId : FixedBytes quotaFileIdLen} {behind : Xfer η}
    (memory : receiver.memory place) (constructs : receiver.constructs place)
    (holds : Holds buffer xfer.nextByte fileId.list)
    (made : wrapped (xfer.advance quotaFileIdLen) = (.made desc, behind)) :
    internalizeTag receiver buffer wrapped 15 place xfer =
      (.made (.quota fileId desc), behind) := by
  rw [Holds, fileId.length_eq] at holds
  rw [internalizeTag_quota_eq, if_neg (not_not.mpr memory), made]
  simp only [if_pos constructs, holds]

end Table

private theorem internalizeHandle_next
    {make : η → NaClDesc η} {place : Nat} {xfer : Xfer η} {h : η} {rest : List η}
    (accepts : receiver.memory place ∧ receiver.constructs place)
    (handles : xfer.handles = h :: rest) :
    internalizeHandle receiver make place xfer =
      (.made (make h), { xfer with handles := rest }) := by
  rw [internalizeHandle, handles]
  simp only [if_pos accepts]

private theorem connCapInternalize_next
    {xfer : Xfer η} {place : Nat} {path : FixedBytes pathMax}
    (accepts : receiver.memory place ∧ receiver.constructs place)
    (holds : Holds buffer xfer.nextByte path.list)
    (inside : xfer.nextByte + pathMax ≤ xfer.byteBufferEnd) :
    connCapInternalize receiver buffer place xfer =
      (.made (.connCap path), xfer.advance pathMax) := by
  rw [Holds, path.length_eq] at holds
  rw [connCapInternalize, if_neg (Nat.not_lt.mpr inside), if_pos accepts]
  simp only [holds]

private theorem imcShmInternalize_next
    {xfer : Xfer η} {place : Nat} {h : η} {size : Fin (2 ^ 64)} {rest : List η}
    (valid : validSize receiver size)
    (accepts : receiver.memory place ∧ receiver.constructs place)
    (holds : Holds buffer xfer.nextByte (littleEndian 8 size))
    (inside : xfer.nextByte + 8 ≤ xfer.byteBufferEnd)
    (handles : xfer.handles = h :: rest) :
    imcShmInternalize receiver buffer place xfer =
      (.made (.shm h size), xfer.past 8 rest) := by
  rw [imcShmInternalize, handles]
  simp only [if_neg (Nat.not_lt.mpr inside), accepts.1, not_true_eq_false,
    if_false, uint64At_of_holds holds, if_pos (And.intro valid accepts.2)]
  rfl

private theorem sysvShmInternalize_next
    {xfer : Xfer η} {place : Nat} {id : Fin (2 ^ 32)} {size : Fin (2 ^ 64)}
    (pages : size.val % 4096 = 0) (valid : validSize receiver size)
    (accepts : receiver.memory place ∧ receiver.constructs place)
    (holds : Holds buffer xfer.nextByte (littleEndian 4 id ++ littleEndian 8 size))
    (inside : xfer.nextByte + (4 + 8) ≤ xfer.byteBufferEnd)
    (sizeBytes : receiver.sizeBytes ≤ 8) :
    sysvShmInternalize receiver buffer place xfer =
      (.made (.sysvShm id size), xfer.advance (4 + 8)) := by
  obtain ⟨first, second⟩ := holds_append.mp holds
  rw [length_littleEndian] at second
  have number : Fin.ofNat (2 ^ 32)
      (ofLittleEndian (bytesAt buffer xfer.nextByte 4)) = id := by
    rw [Holds, length_littleEndian] at first
    rw [first, ofLittleEndian_littleEndian id.isLt]
    exact Fin.ext (Nat.mod_eq_of_lt id.isLt)
  have room : ¬xfer.byteBufferEnd < xfer.nextByte + 4 + receiver.sizeBytes := by
    omega
  rw [sysvShmInternalize, if_neg room]
  simp only [accepts.1, not_true_eq_false, if_false, uint64At_of_holds second,
    number, if_pos (And.intro pages (And.intro valid accepts.2))]

theorem internalize_encoded
    {desc : NaClDesc η} {fuel : Nat} (deep : desc.depth < fuel) {xfer : Xfer η}
    (acceptable : Acceptable receiver xfer.nextByte desc)
    (holds : Holds buffer xfer.nextByte (encodeDesc desc))
    (inside : xfer.nextByte + (encodeDesc desc).length ≤ xfer.byteBufferEnd)
    (sizeBytes : receiver.sizeBytes ≤ 8)
    {rest : List η} (handles : xfer.handles = desc.handles ++ rest) :
    internalizeFromXferBuffer receiver buffer fuel xfer =
      (.made desc, xfer.past (encodeDesc desc).length rest) := by
  obtain ⟨fuel, rfl⟩ : ∃ less, fuel = less + 1 := ⟨fuel - 1, by omega⟩
  induction desc generalizing xfer fuel with
  | invalid =>
      rw [internalize_tag 0 (holds_cons.mp holds).1 (by decide)]
      have left : xfer.handles = rest := handles
      rw [← left]
      rfl
  | dir hd => exact absurd acceptable id
  | hostIo d =>
      rw [internalize_tag 2 (holds_cons.mp holds).1 (by decide),
        internalizeTag_hostIo, ioInternalize]
      have next : (xfer.advance 1).handles = d :: rest := handles
      simp only [next, acceptable.1, acceptable.2, not_true_eq_false, if_true,
        if_false]
      rfl
  | connCap path =>
      obtain ⟨tag, data⟩ := holds_cons.mp holds
      obtain ⟨windows, accepts⟩ := acceptable
      have length : (encodeDesc (.connCap path : NaClDesc η)).length =
          1 + pathMax := by
        rw [encodeDesc, List.length_cons, path.length_eq, Nat.add_comm]
      have left : xfer.handles = rest := handles
      rw [length] at inside
      have room : xfer.nextByte + 1 + pathMax ≤ xfer.byteBufferEnd := by omega
      rw [internalize_tag _ tag (by decide), internalizeTag_connCap _ _ _ windows,
        @connCapInternalize_next η receiver buffer (xfer.advance 1) _ path accepts
          data room,
        length, ← Xfer.advance_past, ← left]
      rfl
  | connCapFd connectFd =>
      rw [internalize_tag 4 (holds_cons.mp holds).1 (by decide),
        internalizeTag_connCapFd _ _ _ acceptable.1]
      exact internalizeHandle_next acceptable.2 handles
  | shm h size =>
      obtain ⟨tag, data⟩ := holds_cons.mp holds
      obtain ⟨valid, accepts⟩ := acceptable
      have length : (encodeDesc (.shm h size : NaClDesc η)).length = 1 + 8 := by
        rw [encodeDesc, List.length_cons, length_littleEndian]
      rw [length] at inside
      have room : xfer.nextByte + 1 + 8 ≤ xfer.byteBufferEnd := by omega
      rw [internalize_tag _ tag (by decide), internalizeTag_shm,
        @imcShmInternalize_next η receiver buffer (xfer.advance 1) _ h size rest
          valid accepts data room handles,
        length, ← Xfer.advance_past]
  | sysvShm id size =>
      obtain ⟨tag, data⟩ := holds_cons.mp holds
      obtain ⟨linux, pages, valid, accepts⟩ := acceptable
      have length : (encodeDesc (.sysvShm id size : NaClDesc η)).length =
          1 + (4 + 8) := by
        rw [encodeDesc, List.length_cons, List.length_append, length_littleEndian,
          length_littleEndian]
      have left : xfer.handles = rest := handles
      rw [length] at inside
      have room : xfer.nextByte + 1 + (4 + 8) ≤ xfer.byteBufferEnd := by omega
      rw [internalize_tag _ tag (by decide), internalizeTag_sysvShm _ _ _ linux,
        @sysvShmInternalize_next η receiver buffer (xfer.advance 1) _ id size pages
          valid accepts data room sizeBytes,
        length, ← Xfer.advance_past, ← left]
      rfl
  | syncSocket h =>
      rw [internalize_tag 12 (holds_cons.mp holds).1 (by decide),
        internalizeTag_syncSocket]
      exact internalizeHandle_next acceptable handles
  | transferableDataSocket h =>
      rw [internalize_tag 13 (holds_cons.mp holds).1 (by decide),
        internalizeTag_dataSocket]
      exact internalizeHandle_next acceptable handles
  | quota fileId desc ih =>
      obtain ⟨tag, data⟩ := holds_cons.mp holds
      obtain ⟨memory, constructs, inner⟩ := acceptable
      obtain ⟨first, second⟩ := holds_append.mp data
      rw [fileId.length_eq] at second
      have length : (encodeDesc (.quota fileId desc)).length =
          1 + quotaFileIdLen + (encodeDesc desc).length := by
        rw [encodeDesc, List.length_cons, List.length_append, fileId.length_eq]
        omega
      rw [length] at inside
      obtain ⟨less, rfl⟩ : ∃ less, fuel = less + 1 :=
        ⟨fuel - 1, by simp only [NaClDesc.depth] at deep; omega⟩
      have place : xfer.nextByte + (1 + quotaFileIdLen) =
          ((xfer.advance 1).advance quotaFileIdLen).nextByte :=
        (Nat.add_assoc _ _ _).symm
      have made := @ih ((xfer.advance 1).advance quotaFileIdLen) (place ▸ inner)
        second (by rw [← place]; show _ ≤ xfer.byteBufferEnd; omega) handles less
        (by simp only [NaClDesc.depth] at deep; omega)
      rw [internalize_tag _ tag (by decide),
        @internalizeTag_quota η receiver buffer _ _ (xfer.advance 1) desc fileId _
          memory constructs first made,
        length, Xfer.advance_past, Xfer.advance_past]
      congr 2
      omega
  | localOnly localClass => exact absurd acceptable id

end Making

section Lists

def encodeDescs (descs : List (NaClDesc η)) : List UInt8 :=
  descs.flatMap encodeDesc

def AllAcceptable (receiver : Receiver) : Nat → List (NaClDesc η) → Prop
  | _, [] => True
  | place, desc :: descs =>
      Acceptable receiver place desc ∧
        AllAcceptable receiver (place + (encodeDesc desc).length) descs

theorem depth_lt_length_encodeDesc (desc : NaClDesc η) :
    desc.depth < (encodeDesc desc).length := by
  induction desc with
  | quota fileId desc ih =>
      simp only [NaClDesc.depth, encodeDesc, List.length_cons, List.length_append]
      omega
  | _ => simp [NaClDesc.depth, encodeDesc]

variable {receiver : Receiver} {buffer : Nat → UInt8}

theorem internalizeAll_encoded
    {descs : List (NaClDesc η)} {room : Nat} (few : descs.length ≤ room)
    {xfer : Xfer η}
    (acceptable : AllAcceptable receiver xfer.nextByte descs)
    (holds : Holds buffer xfer.nextByte (encodeDescs descs ++ [typeEndTag]))
    (inside : xfer.nextByte + (encodeDescs descs).length < xfer.byteBufferEnd)
    (small : xfer.byteBufferEnd ≤ imcBytesMax)
    (sizeBytes : receiver.sizeBytes ≤ 8)
    {rest : List η}
    (handles : xfer.handles = descs.flatMap NaClDesc.handles ++ rest) :
    internalizeAll receiver buffer room xfer =
      ⟨.endTag, descs, xfer.past ((encodeDescs descs).length + 1) rest⟩ := by
  induction descs generalizing room xfer with
  | nil =>
      have left : xfer.handles = rest := handles
      have tag : buffer xfer.nextByte = typeEndTag := (holds_cons.mp holds).1
      have more : xfer.nextByte < xfer.byteBufferEnd := inside
      have next : internalizeFromXferBuffer receiver buffer (imcBytesMax + 1) xfer =
          (.endTag, xfer.advance 1) := by
        rw [internalizeFromXferBuffer]
        simp only [tag, if_true]
      rw [internalizeAll, if_pos more, next, ← left]
      rfl
  | cons desc descs ih =>
      have split : encodeDescs (desc :: descs) =
          encodeDesc desc ++ encodeDescs descs := rfl
      rw [split, List.append_assoc] at holds
      obtain ⟨first, later⟩ := holds_append.mp holds
      rw [split, List.length_append] at inside
      have some := depth_lt_length_encodeDesc desc
      have made := @internalize_encoded η receiver buffer desc (imcBytesMax + 1)
        (by omega) xfer acceptable.1 first (by omega) sizeBytes
        (descs.flatMap NaClDesc.handles ++ rest)
        (handles.trans (List.append_assoc _ _ _))
      obtain ⟨room, rfl⟩ : ∃ less, room = less + 1 :=
        ⟨room - 1, by rw [List.length_cons] at few; omega⟩
      have behind := @ih room (by rw [List.length_cons] at few; omega)
        (xfer.past (encodeDesc desc).length
          (descs.flatMap NaClDesc.handles ++ rest))
        acceptable.2 later
        (by show xfer.nextByte + _ + _ < xfer.byteBufferEnd; omega) small rfl
      rw [internalizeAll, if_pos (by omega), made]
      simp only [behind, Xfer.past_past, split, List.length_append, Nat.add_assoc]

end Lists

end NativeClient.Desc
