import NativeClient.Gio.ShmTransfers

/-!
# A shared memory object as a file of fixed size

The calls on a `NaClGioShm` are compared with those on a file that cannot grow.
A transfer maps one window after the other, and comes back exactly if each of
them can be mapped: an address that `Map` did not return is not recognised.  A
window at such an address does no harm if the next transfer is elsewhere.
-/

namespace NativeClient.Gio

open NativeClient.Library

/-- What a file of fixed size does, where the mapping that a transfer needs
behind `done` bytes fails if `fails done`: the bytes before the first failure
are transferred. -/
inductive FixedDoes (fails : Nat → Prop) (file : MemoryFile) :
    Call → Response → MemoryFile → Prop where
  | read {count done : Nat}
      (within : done ≤ file.available count)
      (mapped : ∀ earlier < done, ¬ fails earlier)
      (part : done < file.available count → fails done ∧ 0 < done) :
      FixedDoes fails file (.read count)
        (.got (bytesAt file.contents file.offset done))
        { file with offset := file.offset + done }
  | readFails {count : Nat}
      (because : fails 0) (some : 0 < file.available count) :
      FixedDoes fails file (.read count) (.failed .eio) file
  | write {bytes : List UInt8} {done : Nat}
      (within : done ≤ file.available bytes.length)
      (mapped : ∀ earlier < done, ¬ fails earlier)
      (part : done < file.available bytes.length → fails done ∧ 0 < done) :
      FixedDoes fails file (.write bytes) (.wrote done)
        { file with
          contents :=
            file.contents.splice (Buffer.ofList bytes) file.offset done
          offset := file.offset + done }
  | writeFails {bytes : List UInt8}
      (because : fails 0) (some : 0 < file.available bytes.length) :
      FixedDoes fails file (.write bytes) (.failed .eio) file
  | seek {offset : Int} {whence : Whence} {position : Nat}
      (there : file.target offset whence = some (position : Int))
      (inside : position ≤ file.length) :
      FixedDoes fails file (.seek offset whence) (.moved position)
        { file with offset := position }
  | seekFails {offset : Int} {whence : Whence}
      (because : ∀ target, file.target offset whence = some target →
        target < 0 ∨ file.length < target) :
      FixedDoes fails file (.seek offset whence) (.failed .einval) file

namespace GioShm

def call (platform : Platform) (maps : Nat → MapAnswer) (stack : Buffer)
    (self : GioShm) : Call → Option (Response × GioShm)
  | .read count =>
      (readOrWrite maps false self stack count).map fun done =>
        (respond (fun count => .got (bytesAt done.2.2 0 count)) done.1,
          done.2.1)
  | .write bytes =>
      (readOrWrite maps true self (Buffer.ofList bytes) bytes.length).map
        fun done => (respond .wrote done.1, done.2.1)
  | .seek offset whence =>
      let done := self.seek platform offset whence
      some (respond .moved done.1, done.2)

structure Event where
  maps : Nat → MapAnswer
  stack : Buffer
  request : Call

def step (platform : Platform) :
    Option GioShm → Event → Option (Option GioShm)
  | none, _ => none
  | some self, event =>
      some ((self.call platform event.maps event.stack event.request).map
        Prod.snd)

def file (self : GioShm) : MemoryFile where
  contents := self.memory
  length := self.shmSz
  offset := self.ioOffset

def Mappable (maps : Nat → MapAnswer) (self : GioShm) (window : Nat) : Prop :=
  imcShmMap (maps window) (min windowLimit (self.shmSz - window)) window =
    .address

/-- The first window that a transfer maps.  The others follow it one by one. -/
def firstWindow (self : GioShm) : Nat :=
  if self.SeekRequired then self.ioOffset / naclMapPagesize * naclMapPagesize
  else self.windowOffset + self.windowSize

def window (self : GioShm) (index : Nat) : Nat :=
  self.firstWindow + index * windowLimit

/-- A window begins behind `done` bytes of the transfer, or around the first of
them, and cannot be mapped. -/
def FailsAt (maps : Nat → MapAnswer) (self : GioShm) (done : Nat) : Prop :=
  ∃ index, done = self.window index - self.ioOffset ∧
    ¬ self.Mappable maps (self.window index)

def Behaves (platform : Platform) : Option GioShm → Event → Prop
  | none, _ => False
  | some self, event =>
      ∃ response next,
        self.call platform event.maps event.stack event.request =
            some (response, next) ∧
          FixedDoes (self.FailsAt event.maps) self.file event.request response
            next.file ∧
          next.shmSz = self.shmSz ∧ next.ioOffset ≤ next.shmSz

/-- The window is one that can be left, or used. -/
def Ready (self : GioShm) : Prop :=
  if self.SeekRequired then unmapsWindow self.windowSize self.curWindow = true
  else self.curWindow = some .address

instance (self : GioShm) : Decidable self.Ready :=
  inferInstanceAs (Decidable (if self.SeekRequired then _ = _ else _ = _))

def Mapped (maps : Nat → MapAnswer) (self : GioShm) (count : Nat) : Prop :=
  0 < self.file.available count →
    self.Ready ∧
      ∀ index, self.window index < self.ioOffset + self.file.available count →
        self.Mappable maps (self.window index)

def Proper (platform : Platform) : Option GioShm → Event → Prop
  | none, _ => True
  | some self, event =>
      match event.request with
      | .read count => self.Mapped event.maps count
      | .write bytes => self.Mapped event.maps bytes.length
      | .seek offset whence =>
          self.shmSz < self.newPos platform offset whence ∨
            ∃ position, self.file.target offset whence = some position ∧
              0 ≤ position ∧ position ≤ self.shmSz

/-- The offset is inside of the object, and the window is one that
`NaClGioShmSetWindow` has set. -/
structure Placed (shm : GioShm) : Prop where
  small : shm.shmSz ≤ int32Max
  offset : shm.ioOffset ≤ shm.shmSz
  window : shm.curWindow = none ∨
    shm.windowOffset % naclMapPagesize = 0 ∧
      shm.windowOffset < shm.shmSz ∧
      shm.windowSize = min windowLimit (shm.shmSz - shm.windowOffset)

end GioShm

section Window

variable {maps : Nat → MapAnswer} {self : GioShm}

def GioShm.brought (maps : Nat → MapAnswer) (self : GioShm) : GioShm :=
  if self.SeekRequired then
    let window := self.ioOffset / naclMapPagesize * naclMapPagesize
    let length := min windowLimit (self.shmSz - window)
    { self with
      curWindow := some (imcShmMap (maps window) length window)
      windowSize := length
      windowOffset := window }
  else
    self

theorem imcShmMap_ne_mapFailed (answer : MapAnswer) (length offset : Nat) :
    imcShmMap answer length offset ≠ mapFailed := by
  unfold imcShmMap mapFailed
  cases answer with
  | noAddressSpace =>
      dsimp only
      decide
  | mapped =>
      dsimp only
      split
      next => decide
      next => exact nofun
  | notMapped unmaps =>
      dsimp only
      split
      next => decide
      next => exact nofun

theorem bringWindow_eq
    (ready : self.Ready) (within : self.ioOffset < self.shmSz) :
    bringWindow maps self = some (true, self.brought maps) := by
  have below : self.ioOffset / naclMapPagesize * naclMapPagesize ≤ self.ioOffset :=
    Nat.div_mul_le_self _ _
  unfold GioShm.Ready at ready
  unfold bringWindow GioShm.brought
  by_cases required : self.SeekRequired
  · rw [if_pos required] at ready
    rw [if_pos required, if_pos required]
    unfold setWindow
    rw [if_neg (not_not.mpr (Nat.mul_mod_left _ _)), if_neg (by omega),
      if_neg (by rw [ready]; decide)]
    dsimp only
    rw [if_neg (imcShmMap_ne_mapFailed _ _ _)]
  · rw [if_neg required, if_neg required]

structure Around (shm : GioShm) (window : GioShm) : Prop where
  size : window.shmSz = shm.shmSz
  ioOffset : window.ioOffset = shm.ioOffset
  memory : window.memory = shm.memory
  aligned : window.windowOffset % naclMapPagesize = 0
  below : window.windowOffset ≤ shm.ioOffset
  above : shm.ioOffset < window.windowOffset + window.windowSize
  length : window.windowSize =
    min windowLimit (shm.shmSz - window.windowOffset)

theorem GioShm.Placed.around
    (placed : self.Placed) (within : self.ioOffset < self.shmSz) :
    Around self (self.brought maps) := by
  unfold GioShm.brought
  by_cases required : self.SeekRequired
  · rw [if_pos required]
    refine ⟨rfl, rfl, rfl, Nat.mul_mod_left _ _, Nat.div_mul_le_self _ _, ?_,
      rfl⟩
    unfold windowLimit naclMapPagesize
    dsimp only
    omega
  · rw [if_neg required]
    unfold GioShm.SeekRequired at required
    rcases placed.window with absent | ⟨aligned, before, length⟩
    · exact absurd (Or.inl absent) required
    · exact ⟨rfl, rfl, rfl, aligned, by omega, by omega, length⟩

theorem mapped_step
    (placed : self.Placed) (within : self.ioOffset < self.shmSz)
    {count : Nat} (more : 0 < count) {next : GioShm}
    (size : next.shmSz = self.shmSz)
    (offset : next.ioOffset =
      self.ioOffset + (self.brought maps).transfer count)
    (sameOffset : next.windowOffset = (self.brought maps).windowOffset)
    (sameSize : next.windowSize = (self.brought maps).windowSize)
    (present : next.curWindow = some .address) (ready : self.Ready)
    (here : self.SeekRequired →
      self.Mappable maps (self.ioOffset / naclMapPagesize * naclMapPagesize)) :
    next.Mapped maps (count - (self.brought maps).transfer count) ↔
      self.Mapped maps count := by
  obtain ⟨sameShm, sameIo, -, aligned, below, above, length⟩ :=
    @GioShm.Placed.around maps self placed within
  have same : ∀ window, next.Mappable maps window ↔
      self.Mappable maps window := by
    intro window
    unfold GioShm.Mappable
    rw [size]
  have required : self.SeekRequired →
      self.firstWindow = (self.brought maps).windowOffset ∧
        self.Mappable maps (self.brought maps).windowOffset := by
    intro required
    have window := here required
    unfold GioShm.firstWindow GioShm.brought
    rw [if_pos required, if_pos required]
    exact ⟨rfl, window⟩
  have unmoved : ¬ self.SeekRequired → self.firstWindow =
      (self.brought maps).windowOffset + (self.brought maps).windowSize := by
    intro missing
    unfold GioShm.firstWindow GioShm.brought
    rw [if_neg missing, if_neg missing]
  have amount : (self.brought maps).transfer count =
      min count ((self.brought maps).windowOffset +
        (self.brought maps).windowSize - self.ioOffset) := by
    unfold GioShm.transfer
    rw [sameShm, sameIo]
    omega
  have rest : next.file.available
      (count - (self.brought maps).transfer count) =
      self.file.available count - (self.brought maps).transfer count := by
    unfold MemoryFile.available GioShm.file
    dsimp only
    omega
  have room : self.file.available count =
      min count (self.shmSz - self.ioOffset) := rfl
  unfold GioShm.Mapped GioShm.window
  rw [amount] at offset rest ⊢
  simp only [same, rest, offset]
  clear amount
  generalize (self.brought maps).windowOffset = window at *
  generalize (self.brought maps).windowSize = windowSize at *
  -- The windows behind the first one are those of the rest.
  have shifted : ∀ index : Nat, window + (index + 1) * windowLimit =
      window + windowLimit + index * windowLimit := by
    intro index
    rw [Nat.succ_mul]
    omega
  rcases Nat.eq_zero_or_pos (self.file.available count -
      min count (window + windowSize - self.ioOffset)) with none | some
  · rw [none]
    refine iff_of_true (fun some => absurd some (Nat.lt_irrefl 0)) ?_
    intro _
    refine ⟨ready, ?_⟩
    intro index before
    by_cases seek : self.SeekRequired
    · obtain ⟨first, mappable⟩ := required seek
      rw [first] at before ⊢
      cases index with
      | zero =>
          rw [Nat.zero_mul, Nat.add_zero]
          exact mappable
      | succ index =>
          rw [shifted] at before
          omega
    · rw [unmoved seek] at before
      omega
  · have whole : windowSize = windowLimit := by omega
    have ends : self.ioOffset + min count (window + windowSize - self.ioOffset) =
        window + windowLimit := by omega
    have behind : next.SeekRequired := .inr (.inr (by omega))
    have nextReady : next.Ready := by
      unfold GioShm.Ready
      rw [if_pos behind, present]
      rfl
    have nextFirst : next.firstWindow = window + windowLimit := by
      unfold GioShm.firstWindow
      rw [if_pos behind, offset, ends]
      unfold windowLimit naclMapPagesize
      unfold naclMapPagesize at aligned
      omega
    rw [nextFirst, ends]
    have last : window + windowLimit + (self.file.available count -
        min count (window + windowSize - self.ioOffset)) =
        self.ioOffset + self.file.available count := by omega
    rw [last]
    constructor
    · intro all _
      obtain ⟨-, windows⟩ := all some
      refine ⟨ready, ?_⟩
      intro index before
      by_cases seek : self.SeekRequired
      · obtain ⟨first, mappable⟩ := required seek
        rw [first] at before ⊢
        cases index with
        | zero =>
            rw [Nat.zero_mul, Nat.add_zero]
            exact mappable
        | succ index =>
            rw [shifted] at before ⊢
            exact windows index before
      · rw [unmoved seek, whole] at before ⊢
        exact windows index before
    · intro all _
      obtain ⟨-, windows⟩ := all (by omega)
      refine ⟨nextReady, ?_⟩
      intro index before
      by_cases seek : self.SeekRequired
      · obtain ⟨first, -⟩ := required seek
        have window := windows (index + 1)
        rw [first, shifted] at window
        exact window before
      · have window := windows index
        rw [unmoved seek, whole] at window
        exact window before

end Window

section Transfers

variable {maps : Nat → MapAnswer} {isWrite : Bool}

/-- The object and the buffer of the caller after `done` bytes were moved. -/
structure Moved
    (isWrite : Bool) (shm : GioShm) (buf : Buffer) (done : Nat)
    (next : GioShm) (after : Buffer) : Prop where
  size : next.shmSz = shm.shmSz
  offset : next.ioOffset = shm.ioOffset + done
  placed : next.Placed
  memory : next.memory =
    if isWrite then shm.memory.splice buf shm.ioOffset done else shm.memory
  buffer : after =
    if isWrite then buf
    else buf.splice (shm.memory.shift shm.ioOffset) 0 done

theorem readOrWriteTurn_eq
    {first : Transfer} (placed : first.self.Placed) (more : 0 < first.count)
    (within : first.self.ioOffset < first.self.shmSz) :
    readOrWriteTurn maps isWrite first =
      if first.self.Ready ∧
          (first.self.brought maps).curWindow = some .address then
        .again (Transfer.copy isWrite
          { first with self := first.self.brought maps })
      else .leave none := by
  obtain ⟨sameShm, sameIo, -, aligned, below, above, length⟩ :=
    @GioShm.Placed.around maps first.self placed within
  unfold readOrWriteTurn
  rw [if_neg (by omega)]
  by_cases ready : first.self.Ready
  · rw [bringWindow_eq ready within]
    dsimp only
    rw [if_neg (by omega), if_neg (by omega)]
    by_cases mapped : (first.self.brought maps).curWindow = some .address
    · rw [if_neg (not_not.mpr mapped), if_pos ⟨ready, mapped⟩]
    · rw [if_pos mapped, if_neg (fun both => mapped both.2)]
  · have never : ¬ (first.self.Ready ∧
        (first.self.brought maps).curWindow = some .address) :=
      fun both => ready both.1
    rw [if_neg never]
    unfold GioShm.Ready at ready
    by_cases required : first.self.SeekRequired
    · rw [if_pos required, Bool.not_eq_true] at ready
      have aborted : bringWindow maps first.self = none := by
        have start : first.self.ioOffset / naclMapPagesize * naclMapPagesize ≤
            first.self.ioOffset := Nat.div_mul_le_self _ _
        unfold bringWindow setWindow
        rw [if_pos required, if_neg (not_not.mpr (Nat.mul_mod_left _ _)),
          if_neg (by omega), if_pos ready]
      rw [aborted]
    · rw [if_neg required] at ready
      have stays : bringWindow maps first.self = some (true, first.self) := by
        unfold bringWindow
        rw [if_neg required]
      have same : first.self.brought maps = first.self := by
        unfold GioShm.brought
        rw [if_neg required]
      rw [same] at below above length
      rw [stays]
      dsimp only
      rw [if_neg (by omega), if_neg (by omega), if_pos ready]

theorem Moved.copy
    {self : GioShm} {buf : Buffer} {first : Transfer}
    (moved : Moved isWrite self buf first.sofar first.self first.buf)
    (within : first.self.ioOffset < first.self.shmSz) :
    Moved isWrite self buf
      (Transfer.copy isWrite
        { first with self := first.self.brought maps }).sofar
      (Transfer.copy isWrite
        { first with self := first.self.brought maps }).self
      (Transfer.copy isWrite
        { first with self := first.self.brought maps }).buf := by
  obtain ⟨sameShm, sameIo, sameMemory, aligned, below, above, length⟩ :=
    @GioShm.Placed.around maps first.self moved.placed within
  have size := moved.size
  have small := moved.placed.small
  have offset := moved.offset
  obtain ⟨memory, buffer⟩ := @Transfer.copy_continues isWrite
    { first with self := first.self.brought maps } _ _ _
    (sameIo.trans offset) (sameMemory.trans moved.memory) moved.buffer
  refine ⟨sameShm.trans size, ?_, ⟨?_, ?_, .inr ⟨aligned, ?_, ?_⟩⟩, memory,
    buffer⟩
  · dsimp only [Transfer.copy]
    omega
  · dsimp only [Transfer.copy]
    omega
  · dsimp only [Transfer.copy, GioShm.transfer]
    omega
  · dsimp only [Transfer.copy]
    omega
  · dsimp only [Transfer.copy]
    rw [sameShm]
    exact length

theorem brought_of_mapped
    {self : GioShm} {count : Nat} (left : 0 < self.file.available count)
    (mapped : self.Mapped maps count) :
    (self.brought maps).curWindow = some .address := by
  obtain ⟨ready, windows⟩ := mapped left
  unfold GioShm.Ready at ready
  unfold GioShm.brought
  by_cases required : self.SeekRequired
  · have first : self.window 0 =
        self.ioOffset / naclMapPagesize * naclMapPagesize := by
      unfold GioShm.window GioShm.firstWindow
      rw [if_pos required, Nat.zero_mul, Nat.add_zero]
    have below : self.ioOffset / naclMapPagesize * naclMapPagesize ≤ self.ioOffset :=
      Nat.div_mul_le_self _ _
    have window := windows 0
    rw [first] at window
    rw [if_pos required]
    exact congrArg some (window (by omega))
  · rw [if_neg required] at ready ⊢
    exact ready

theorem mappable_of_brought
    {self : GioShm} (present : (self.brought maps).curWindow = some .address)
    (required : self.SeekRequired) :
    self.Mappable maps (self.ioOffset / naclMapPagesize * naclMapPagesize) := by
  unfold GioShm.brought at present
  rw [if_pos required] at present
  exact Option.some.inj present

theorem runLoop_readOrWriteTurn
    {self : GioShm} {buf : Buffer} (first : Transfer)
    (moved : Moved isWrite self buf first.sofar first.self first.buf)
    {fuel : Nat} (enough : first.count < fuel) :
    (first.self.Mapped maps first.count → ∃ next after,
      runLoop (readOrWriteTurn maps isWrite) fuel first =
          some (some (.ok (first.sofar +
            first.self.file.available first.count), next, after)) ∧
        Moved isWrite self buf
          (first.sofar + first.self.file.available first.count) next after) ∧
    (¬ first.self.Mapped maps first.count →
      runLoop (readOrWriteTurn maps isWrite) fuel first = some none) := by
  induction fuel generalizing first with
  | zero => exact absurd enough (Nat.not_lt_zero _)
  | succ fuel ih =>
      have placed := moved.placed
      have inside := placed.offset
      have room : first.self.file.available first.count =
          min first.count (first.self.shmSz - first.self.ioOffset) := rfl
      by_cases finished : first.count = 0 ∨
          first.self.shmSz ≤ first.self.ioOffset
      · have nothing : first.self.file.available first.count = 0 := by omega
        have trivially : first.self.Mapped maps first.count := by
          intro some
          omega
        refine ⟨fun _ => ⟨first.self, first.buf, ?_, ?_⟩,
          fun wrong => absurd trivially wrong⟩
        · rw [runLoop, readOrWriteTurn, if_pos finished, nothing]
          rfl
        · rw [nothing]
          exact moved
      · have more : 0 < first.count := by omega
        have within : first.self.ioOffset < first.self.shmSz := by omega
        have around := @GioShm.Placed.around maps first.self placed within
        have sameShm := around.size
        have sameIo := around.ioOffset
        have above := around.above
        have left : 0 < first.self.file.available first.count := by omega
        rw [runLoop, readOrWriteTurn_eq placed more within]
        by_cases good : first.self.Ready ∧
            (first.self.brought maps).curWindow = some .address
        · obtain ⟨next, nextEq⟩ : ∃ next, next = Transfer.copy isWrite
              { first with self := first.self.brought maps } := ⟨_, rfl⟩
          have nextMoved := @Moved.copy maps isWrite _ _ _ moved within
          rw [← nextEq] at nextMoved
          have step := @mapped_step maps first.self placed within first.count
            more next.self (by rw [nextEq]; exact sameShm)
            (by rw [nextEq, ← sameIo]; rfl) (by rw [nextEq]; rfl)
            (by rw [nextEq]; rfl) (by rw [nextEq]; exact good.2) good.1
            (mappable_of_brought good.2)
          have count : next.count =
              first.count - (first.self.brought maps).transfer first.count := by
            rw [nextEq]
            rfl
          have sofar : next.sofar =
              first.sofar + (first.self.brought maps).transfer first.count := by
            rw [nextEq]
            rfl
          have rest : next.self.file.available next.count =
              min next.count (next.self.shmSz - next.self.ioOffset) := rfl
          have size := nextMoved.size.trans moved.size.symm
          have offset := nextMoved.offset
          have firstOffset := moved.offset
          have amount : (first.self.brought maps).transfer first.count =
              min first.count (min ((first.self.brought maps).windowOffset +
                (first.self.brought maps).windowSize) first.self.shmSz -
                first.self.ioOffset) := by
            unfold GioShm.transfer
            rw [sameShm, sameIo]
          rw [if_pos good, ← nextEq, ← step, ← count]
          have sum : first.sofar + first.self.file.available first.count =
              next.sofar + next.self.file.available next.count := by omega
          rw [sum]
          exact ih next nextMoved (by omega)
        · rw [if_neg good]
          refine ⟨fun mapped => absurd ?_ good, fun _ => rfl⟩
          exact ⟨(mapped left).1, brought_of_mapped left mapped⟩

theorem readOrWrite_spec
    {self : GioShm} (placed : self.Placed) (buf : Buffer) (count : Nat) :
    (self.Mapped maps count → ∃ next after,
      readOrWrite maps isWrite self buf count =
          some (.ok (self.file.available count), next, after) ∧
        Moved isWrite self buf (self.file.available count) next after) ∧
    (¬ self.Mapped maps count →
      readOrWrite maps isWrite self buf count = none) := by
  have none : Moved isWrite self buf 0 self buf :=
    ⟨rfl, rfl, placed, by simp, by simp⟩
  obtain ⟨good, bad⟩ := @runLoop_readOrWriteTurn maps isWrite self buf
    ⟨self, buf, count, 0⟩ none (count + 1) (Nat.lt_succ_self count)
  simp only [Nat.zero_add] at good bad
  unfold readOrWrite
  constructor
  · intro mapped
    obtain ⟨next, after, ran, moved⟩ := good mapped
    exact ⟨next, after, by rw [ran]; rfl, moved⟩
  · intro missing
    rw [bad missing]
    rfl

end Transfers

section Calls

variable {platform : Platform} {self : GioShm}

theorem GioShm.Mapped.not_failsAt
    {maps : Nat → MapAnswer} {count : Nat} (mapped : self.Mapped maps count)
    {done : Nat} (before : done < self.file.available count) :
    ¬ self.FailsAt maps done := by
  rintro ⟨index, rfl, fails⟩
  exact fails ((mapped (by omega)).2 index (by omega))

theorem newPos_of_target
    (placed : self.Placed) {offset position : Int} {whence : Whence}
    (there : self.file.target offset whence = some position)
    (nonneg : 0 ≤ position) (inside : position ≤ self.shmSz) :
    (self.newPos platform offset whence : Int) = position := by
  have small := placed.small
  have wide : (2 : Int) ^ 32 ≤ 2 ^ platform.sizeBits := by
    rcases platform.sizeWidths with width | width
    · rw [width]
    · rw [width]
      decide
  have sized : (platform.toSize position : Int) = position := by
    unfold Platform.toSize
    unfold int32Max at small
    rw [Int.emod_eq_of_lt nonneg (by omega)]
    exact Int.toNat_of_nonneg nonneg
  cases whence with
  | other => cases there
  | seekSet =>
      cases there
      exact sized
  | seekCur =>
      cases there
      exact sized
  | seekEnd =>
      cases there
      exact sized

theorem seek_behaves_iff
    (placed : self.Placed) (maps : Nat → MapAnswer) (stack : Buffer)
    (offset : Int) (whence : Whence) :
    GioShm.Behaves platform (some self) ⟨maps, stack, .seek offset whence⟩ ↔
      GioShm.Proper platform (some self)
        ⟨maps, stack, .seek offset whence⟩ := by
  have inside := placed.offset
  unfold GioShm.Behaves GioShm.Proper GioShm.call GioShm.seek
  dsimp only
  by_cases refused : self.shmSz < self.newPos platform offset whence
  · rw [if_pos refused]
    refine iff_of_true ⟨_, _, rfl, .seekFails ?_, rfl, inside⟩ (.inl refused)
    intro target there
    by_contra within
    have length : self.file.length = self.shmSz := rfl
    have same := @newPos_of_target platform self placed _ _ _ there (by omega)
      (by omega)
    omega
  · rw [if_neg refused]
    constructor
    · rintro ⟨response, next, same, does, -, -⟩
      cases same
      cases does with
      | seek there below =>
          exact .inr ⟨_, there, Int.natCast_nonneg _, Int.ofNat_le.mpr below⟩
    · rintro (wrong | ⟨position, there, nonneg, below⟩)
      · exact absurd wrong refused
      · have same := @newPos_of_target platform self placed _ _ _ there nonneg
          below
        have least : self.newPos platform offset whence ≤ self.shmSz :=
          Nat.not_lt.mp refused
        exact ⟨_, _, rfl, .seek (same ▸ there) least, rfl, least⟩

theorem read_behaves_iff
    (placed : self.Placed) (maps : Nat → MapAnswer) (stack : Buffer)
    (count : Nat) :
    GioShm.Behaves platform (some self) ⟨maps, stack, .read count⟩ ↔
      GioShm.Proper platform (some self) ⟨maps, stack, .read count⟩ := by
  obtain ⟨good, bad⟩ := @readOrWrite_spec maps false self placed stack count
  unfold GioShm.Behaves GioShm.Proper GioShm.call
  dsimp only
  constructor
  · rintro ⟨response, next, returned, -⟩
    by_contra missing
    rw [bad missing] at returned
    cases returned
  · intro mapped
    obtain ⟨next, after, ran, moved⟩ := good mapped
    have memory := moved.memory
    have buffer := moved.buffer
    simp only [Bool.false_eq_true, if_false] at memory buffer
    have does := @FixedDoes.read (self.FailsAt maps) self.file count _
      (Nat.le_refl _) (fun _ => mapped.not_failsAt)
      (fun less => absurd less (Nat.lt_irrefl _))
    refine ⟨_, next, by rw [ran]; rfl, ?_, moved.size, moved.placed.offset⟩
    have after' : next.file =
        { self.file with
          offset := self.file.offset + self.file.available count } := by
      unfold GioShm.file
      rw [memory, moved.size, moved.offset]
      rfl
    rw [after', respond, buffer, bytesAt_splice]
    exact does

theorem write_behaves_iff
    (placed : self.Placed) (maps : Nat → MapAnswer) (stack : Buffer)
    (bytes : List UInt8) :
    GioShm.Behaves platform (some self) ⟨maps, stack, .write bytes⟩ ↔
      GioShm.Proper platform (some self) ⟨maps, stack, .write bytes⟩ := by
  obtain ⟨good, bad⟩ := @readOrWrite_spec maps true self placed
    (Buffer.ofList bytes) bytes.length
  unfold GioShm.Behaves GioShm.Proper GioShm.call
  dsimp only
  constructor
  · rintro ⟨response, next, returned, -⟩
    by_contra missing
    rw [bad missing] at returned
    cases returned
  · intro mapped
    obtain ⟨next, after, ran, moved⟩ := good mapped
    have memory := moved.memory
    simp only [if_true] at memory
    have does := @FixedDoes.write (self.FailsAt maps) self.file bytes _
      (Nat.le_refl _) (fun _ => mapped.not_failsAt)
      (fun less => absurd less (Nat.lt_irrefl _))
    refine ⟨_, next, by rw [ran]; rfl, ?_, moved.size, moved.placed.offset⟩
    have after' : next.file =
        { self.file with
          contents := self.file.contents.splice (Buffer.ofList bytes)
            self.file.offset (self.file.available bytes.length)
          offset :=
            self.file.offset + self.file.available bytes.length } := by
      unfold GioShm.file
      rw [memory, moved.size, moved.offset]
      rfl
    rw [after', respond]
    exact does

end Calls

section Runs

variable {platform : Platform}

def GioShm.Kept : Option GioShm → Prop
  | none => True
  | some self => self.Placed

theorem GioShm.Kept.step
    {state next : Option GioShm} {event : GioShm.Event}
    (kept : GioShm.Kept state)
    (stepped : GioShm.step platform state event = some next) :
    GioShm.Kept next := by
  cases state with
  | none => cases stepped
  | some self =>
      cases stepped
      have placed : self.Placed := kept
      obtain ⟨maps, stack, request⟩ := event
      cases request with
      | read count =>
          obtain ⟨good, bad⟩ :=
            @readOrWrite_spec maps false self placed stack count
          dsimp only [GioShm.call]
          by_cases mapped : self.Mapped maps count
          · obtain ⟨next, after, ran, moved⟩ := good mapped
            rw [ran]
            exact moved.placed
          · rw [bad mapped]
            trivial
      | write bytes =>
          obtain ⟨good, bad⟩ := @readOrWrite_spec maps true self placed
            (Buffer.ofList bytes) bytes.length
          dsimp only [GioShm.call]
          by_cases mapped : self.Mapped maps bytes.length
          · obtain ⟨next, after, ran, moved⟩ := good mapped
            rw [ran]
            exact moved.placed
          · rw [bad mapped]
            trivial
      | seek offset whence =>
          dsimp only [GioShm.call, Option.map_some]
          unfold GioShm.seek
          dsimp only
          split
          next => exact placed
          next inside =>
            exact ⟨placed.small, Nat.not_lt.mp inside, placed.window⟩

theorem behaves_iff_proper
    {state next : Option GioShm} {event : GioShm.Event}
    (kept : GioShm.Kept state)
    (stepped : GioShm.step platform state event = some next) :
    GioShm.Behaves platform state event ↔
      GioShm.Proper platform state event := by
  cases state with
  | none => cases stepped
  | some self =>
      have placed : self.Placed := kept
      obtain ⟨maps, stack, request⟩ := event
      cases request with
      | read count => exact read_behaves_iff placed maps stack count
      | write bytes => exact write_behaves_iff placed maps stack bytes
      | seek offset whence =>
          exact seek_behaves_iff placed maps stack offset whence

theorem placed_of_ctor
    {maps : Nat → MapAnswer} {shmSize : Nat} {self : GioShm}
    (built : ctorIntern platform maps shmSize = some self) : self.Placed := by
  unfold ctorIntern at built
  split at built
  next => cases built
  next small =>
    split at built
    next => cases built
    next =>
      split at built
      next made set =>
        cases built
        unfold setWindow GioShm.fresh at set
        dsimp only at set
        rw [if_neg (by decide)] at set
        split at set
        next => cases set
        next some =>
          rw [if_neg (by decide), if_neg (imcShmMap_ne_mapFailed _ _ _)] at set
          cases set
          exact ⟨Nat.not_lt.mp small, Nat.zero_le _,
            .inr ⟨Nat.zero_mod _, Nat.not_le.mp some, rfl⟩⟩
      next => cases built

/-- In every run on an object that was constructed, all calls do what they do
on a file of fixed size, exactly if no mapping that they make fails and no seek
wraps around into the object. -/
theorem fixed_file_iff
    {maps : Nat → MapAnswer} {shmSize : Nat} {self : GioShm}
    (built : ctorIntern platform maps shmSize = some self)
    (events : List GioShm.Event) :
    AllSteps (GioShm.step platform) (GioShm.Behaves platform) (some self)
        events ↔
      AllSteps (GioShm.step platform) (GioShm.Proper platform) (some self)
        events := by
  refine @allSteps_iff _ _ _ GioShm.Kept _ _ ?_ ?_ _ _ (placed_of_ctor built)
  · intro state event next kept stepped
    exact kept.step stepped
  · intro state event next kept stepped
    exact behaves_iff_proper kept stepped

/-- An object of 17 pages, for the window of which `Map` answered `window`. -/
def seventeenPages (window : MapResult) : GioShm :=
  { GioShm.fresh 0x110000 with
    curWindow := some window
    windowSize := windowLimit }

def wideOffsets : Platform where
  sizeBits := 64
  offBits := 64
  sizeWidths := bits64
  offWidths := bits64

theorem ctorIntern_seventeenPages
    {answer : MapAnswer} {window : MapResult}
    (mapped : imcShmMap answer windowLimit 0 = window) :
    ctorIntern wideOffsets (fun _ => answer) 0x110000 =
      some (seventeenPages window) := by
  have whole : min windowLimit ((GioShm.fresh 0x110000).shmSz - 0) =
      windowLimit := by decide
  unfold ctorIntern
  rw [if_neg (by decide), if_neg (by decide)]
  unfold setWindow
  rw [if_neg (by decide), if_neg (by decide), if_neg (by decide)]
  dsimp only
  rw [if_neg (imcShmMap_ne_mapFailed _ _ _), whole, mapped]
  rfl

/-- The first window is the error number 12, but the second one can be used. -/
theorem fixed_file_write :
    AllSteps (GioShm.step wideOffsets) (GioShm.Behaves wideOffsets)
      (some (seventeenPages (.negated 12)))
      [⟨fun _ => .mapped, fun _ => 0, .seek 0x100000 .seekSet⟩,
        ⟨fun _ => .mapped, fun _ => 0, .write [1]⟩] := by
  have built : ctorIntern wideOffsets (fun _ => .noAddressSpace) 0x110000 =
      some (seventeenPages (.negated 12)) := ctorIntern_seventeenPages rfl
  refine (fixed_file_iff built _).mpr ?_
  have sought : GioShm.step wideOffsets (some (seventeenPages (.negated 12)))
      ⟨fun _ => .mapped, fun _ => 0, .seek 0x100000 .seekSet⟩ =
        some (some
          { seventeenPages (.negated 12) with ioOffset := 0x100000 }) := rfl
  refine .first sought (.inr ⟨0x100000, rfl, by decide, by decide⟩) ?_
  refine fun next stepped => ⟨?_, trivial⟩
  intro _
  refine ⟨rfl, ?_⟩
  intro index before
  -- There is one window to map, at the last page.
  change 0x100000 + index * 0x100000 < 0x100001 at before
  have first : index = 0 := by omega
  subst first
  exact imcShmMap_mapped (by decide)

/-- The window for the last page cannot be mapped, and the read does not come
back. -/
theorem fixed_file_mapping_fails :
    ctorIntern wideOffsets (fun _ => .mapped) 0x110000 =
        some (seventeenPages .address) ∧
      ¬ AllSteps (GioShm.step wideOffsets) (GioShm.Behaves wideOffsets)
        (some (seventeenPages .address))
        [⟨fun _ => .mapped, fun _ => 0, .seek 0x100000 .seekSet⟩,
          ⟨fun _ => .noAddressSpace, fun _ => 0, .read 1⟩] := by
  refine ⟨ctorIntern_seventeenPages (imcShmMap_mapped (by decide)), ?_⟩
  intro all
  obtain ⟨-, rest⟩ := all _ rfl
  obtain ⟨behaves, -⟩ := rest _ rfl
  obtain ⟨response, next, returned, -⟩ := behaves
  cases returned

end Runs

end NativeClient.Gio
