import NativeClient.HostDir.Dirent

/-!
# Records of a directory

The stores of a record, and what a reader finds in a buffer: records that
begin on multiples of four, each with a name that ends in it, one where the
length of the other says.
-/

namespace NativeClient.HostDir

open NativeClient.Library

def offOffset : Nat := 4

/-- A name that the host gives.  The longest are those of Windows, of
`MAX_PATH` characters that may become four bytes each. -/
structure Name where
  bytes : List UInt8
  plain : 0 ∉ bytes
  bounded : bytes.length ≤ 260 * 4

/-- `(offsetof(struct nacl_abi_dirent, nacl_abi_d_name) + (d_namlen + 4)) & ~3`. -/
def recordLength (name : Name) : Nat :=
  (nameOffset + (name.bytes.length + 4)) / 4 * 4

def offStore (start : Nat) (off : Int) : Store :=
  ⟨start + offOffset, littleEndian 4 (off % 2 ^ 32).toNat⟩

def reclenStore (start reclen : Nat) : Store :=
  ⟨start + reclenOffset, littleEndian 2 reclen⟩

def nameStore (start : Nat) (name : Name) : Store :=
  ⟨start + nameOffset, name.bytes ++ [0]⟩

structure Dirent where
  reclen : Nat
  off : Int
  name : List UInt8

def direntAt (memory : Buffer) (start : Nat) : Option Dirent :=
  let reclen := word16 memory (start + reclenOffset)
  let field := bytesAt memory (start + nameOffset) (reclen - nameOffset)
  if start % 4 = 0 ∧ 0 ∈ field then
    some ⟨reclen,
      Int.bmod (numberAt memory (start + offOffset) 4) (2 ^ 32),
      field.takeWhile (· != 0)⟩
  else
    none

structure Record where
  name : Name
  off : Int

/-- The records lie one behind the other, and the last ends at `finish`. -/
def Chain (memory : Buffer) : Nat → Int → List Record → Prop
  | start, finish, [] => finish = start
  | start, finish, record :: records =>
      ∃ dirent, direntAt memory start = some dirent ∧
        dirent.off = record.off ∧ dirent.name = record.name.bytes ∧
        Chain memory (start + dirent.reclen) finish records

theorem recordLength_bounds (name : Name) :
    nameOffset + name.bytes.length < recordLength name ∧
      recordLength name < 2 ^ 16 := by
  have bounded := name.bounded
  simp only [recordLength, nameOffset]
  omega

variable {start : Nat} {memory : Buffer}

theorem recordLength_aligned
    (name : Name) (aligned : start % 4 = 0) :
    (start + recordLength name) % 4 = 0 := by
  simp only [recordLength]
  omega

theorem recordLength_positive (name : Name) : 0 < recordLength name := by
  have bounds := (recordLength_bounds name).1
  omega

theorem direntAt_positive
    {dirent : Dirent}
    (found : direntAt memory start = some dirent) :
    0 < dirent.reclen := by
  unfold direntAt at found
  dsimp only at found
  split at found
  next conditions =>
    cases found
    have some := List.length_pos_of_mem conditions.2
    rw [length_bytesAt] at some
    dsimp only
    omega
  next => cases found

theorem Chain.le
    {finish : Int} {records : List Record}
    (chain : Chain memory start finish records) :
    start ≤ finish := by
  induction records generalizing start with
  | nil =>
      rw [show finish = start from chain]
  | cons record records ih =>
      obtain ⟨dirent, -, -, -, rest⟩ := chain
      have later := ih rest
      omega

theorem Chain.unique
    {finish : Int}
    {records others : List Record}
    (chain : Chain memory start finish records)
    (other : Chain memory start finish others) :
    records = others := by
  induction records generalizing start others with
  | nil =>
      cases others with
      | nil => rfl
      | cons second others =>
          obtain ⟨dirent, found, -, -, rest⟩ := other
          have positive := direntAt_positive found
          have later := rest.le
          rw [show finish = start from chain] at later
          omega
  | cons record records ih =>
      obtain ⟨dirent, found, off, name, rest⟩ := chain
      cases others with
      | nil =>
          have positive := direntAt_positive found
          have later := rest.le
          rw [show finish = start from other] at later
          omega
      | cons second others =>
          obtain ⟨otherDirent, otherFound, otherOff, otherName, otherRest⟩ :=
            other
          obtain rfl : dirent = otherDirent :=
            Option.some.inj (found.symm.trans otherFound)
          have sameName : record.name.bytes = second.name.bytes :=
            name.symm.trans otherName
          have same : record = second := by
            obtain ⟨⟨bytes, _, _⟩, recordOff⟩ := record
            obtain ⟨⟨otherBytes, _, _⟩, secondOff⟩ := second
            cases sameName
            cases off.symm.trans otherOff
            rfl
          rw [same, ih rest otherRest]

structure Written (memory : Buffer) (start : Nat) (record : Record) : Prop where
  off : Holds memory (start + offOffset)
    (littleEndian 4 (record.off % 2 ^ 32).toNat)
  reclen : Holds memory (start + reclenOffset)
    (littleEndian 2 (recordLength record.name))
  name : Holds memory (start + nameOffset) (record.name.bytes ++ [0])

theorem takeWhile_name (name : Name) (rest : List UInt8) :
    (name.bytes ++ 0 :: rest).takeWhile (· != 0) = name.bytes := by
  rw [List.takeWhile_append_of_pos]
  · simp
  · intro byte member
    have different : byte ≠ 0 := fun zero => name.plain (zero ▸ member)
    simpa using different

theorem direntAt_of_written
    {record : Record}
    (aligned : start % 4 = 0)
    (representable : -2 ^ 31 ≤ record.off ∧ record.off < 2 ^ 31)
    (written : Written memory start record) :
    direntAt memory start =
      some ⟨recordLength record.name, record.off, record.name.bytes⟩ := by
  have bounds := recordLength_bounds record.name
  have reclen : word16 memory (start + reclenOffset) =
      recordLength record.name :=
    word16_of_holds bounds.2 written.reclen
  have off : numberAt memory (start + offOffset) 4 =
      (record.off % 2 ^ 32).toNat :=
    numberAt_of_holds (by omega) written.off
  have field : ∃ rest, bytesAt memory (start + nameOffset)
      (recordLength record.name - nameOffset) =
        record.name.bytes ++ 0 :: rest := by
    have length : (record.name.bytes ++ [0]).length =
        record.name.bytes.length + 1 := List.length_append
    refine ⟨bytesAt memory
      (start + nameOffset + (record.name.bytes ++ [0]).length)
      (recordLength record.name - nameOffset -
        (record.name.bytes ++ [0]).length), ?_⟩
    rw [List.append_cons, ← written.name, length_bytesAt, ← bytesAt_add]
    congr 1
    omega
  obtain ⟨rest, field⟩ := field
  have signed : Int.bmod (record.off % 2 ^ 32).toNat (2 ^ 32) = record.off := by
    rw [Int.toNat_of_nonneg (Int.emod_nonneg _ (by decide)), Int.bmod_def]
    split <;> omega
  unfold direntAt
  dsimp only
  rw [reclen, field, if_pos ⟨aligned, by simp⟩, takeWhile_name, off, signed]

theorem holds_of_pairwise
    {stores : List Store} {store : Store}
    (apart : stores.Pairwise fun first second =>
      second.Beside first.address first.bytes.length)
    (member : store ∈ stores) (memory : Buffer) :
    Holds (applyStores stores memory) store.address store.bytes := by
  obtain ⟨front, back, rfl⟩ := List.append_of_mem member
  have later := (List.pairwise_cons.mp (List.pairwise_append.mp apart).2.1).1
  exact holds_applyStores later memory

theorem written_of_mem
    {stores : List Store} {record : Record}
    (apart : stores.Pairwise fun first second =>
      second.Beside first.address first.bytes.length)
    (off : offStore start record.off ∈ stores)
    (reclen : reclenStore start (recordLength record.name) ∈ stores)
    (name : nameStore start record.name ∈ stores) (memory : Buffer) :
    Written (applyStores stores memory) start record :=
  ⟨holds_of_pairwise apart off memory, holds_of_pairwise apart reclen memory,
    holds_of_pairwise apart name memory⟩

theorem Written.later
    {memory : Buffer} {start : Nat} {record : Record} {stores : List Store}
    (behind : ∀ store ∈ stores,
      start + recordLength record.name ≤ store.address)
    (written : Written memory start record) :
    Written (applyStores stores memory) start record := by
  have bounds := (recordLength_bounds record.name).1
  have keeps : ∀ {place : Nat} {bytes : List UInt8},
      place + bytes.length ≤ start + recordLength record.name →
      Holds memory place bytes →
      Holds (applyStores stores memory) place bytes := by
    intro place bytes inside holds
    refine holds_applyStores_beside (fun store member => ?_) holds
    exact .inl (inside.trans (behind store member))
  unfold nameOffset at bounds
  refine ⟨keeps ?_ written.off, keeps ?_ written.reclen, keeps ?_ written.name⟩
  · rw [length_littleEndian]
    unfold offOffset
    omega
  · rw [length_littleEndian]
    unfold reclenOffset
    omega
  · rw [List.length_append, List.length_singleton]
    unfold nameOffset
    omega

end NativeClient.HostDir
