import NativeClient.Gio.GioShmUnbounded

/-!
# A buffer in memory as a file of fixed size

`GioMemoryFile` reads and writes a buffer of the caller.  A seek computes its
target in the arithmetic of `size_t`, from an offset that may be negative or
wider than that, and tells from the result alone whether it was inside.
-/

namespace NativeClient.Gio

open NativeClient.Library

def Platform.toSsize (platform : Platform) (value : Nat) : Int :=
  (value : Int).bmod (2 ^ platform.sizeBits)

def Platform.toOff (platform : Platform) (value : Nat) : Int :=
  (value : Int).bmod (2 ^ platform.offBits)

structure GioMemoryFile where
  buffer : Buffer
  len : Nat
  curpos : Nat

/-- What a call returns: with the bytes for a read, and with the value that
`errno` is set to for a seek. -/
inductive Returned where
  | read (result : Int) (bytes : List UInt8)
  | wrote (result : Int)
  | sought (result : Int) (errno : Option Errno)

namespace GioMemoryFile

def ctor (buffer : Buffer) (len : Nat) : GioMemoryFile where
  buffer := buffer
  len := len
  curpos := 0

/-- The bytes that a transfer of `count` bytes is cut to. -/
def cut (platform : Platform) (self : GioMemoryFile) (count : Nat) : Nat :=
  let remain := platform.toSize ((self.len : Int) - self.curpos)
  if remain < count then remain else count

def read (platform : Platform) (self : GioMemoryFile) (count : Nat) :
    Returned × GioMemoryFile :=
  let count := self.cut platform count
  if count = 0 then
    (.read 0 [], self)
  else
    (.read (platform.toSsize count) (bytesAt self.buffer self.curpos count),
      { self with curpos := platform.toSize ((self.curpos : Int) + count) })

def write (platform : Platform) (self : GioMemoryFile) (bytes : List UInt8) :
    Returned × GioMemoryFile :=
  let count := self.cut platform bytes.length
  if count = 0 then
    (.wrote 0, self)
  else
    (.wrote (platform.toSsize count),
      { self with
        buffer := self.buffer.splice (Buffer.ofList bytes) self.curpos count
        curpos := platform.toSize ((self.curpos : Int) + count) })

def newPos (platform : Platform) (self : GioMemoryFile) (offset : Int) :
    Whence → Nat
  | .seekSet => platform.toSize offset
  | .seekCur => platform.toSize (self.curpos + offset)
  | .seekEnd => platform.toSize (self.len + offset)
  | .other => platform.sizeMax

/-- `GioMemoryFileSeek`; the `default` case sets `errno` and goes on. -/
def seek (platform : Platform) (self : GioMemoryFile) (offset : Int)
    (whence : Whence) : Returned × GioMemoryFile :=
  let newPos := self.newPos platform offset whence
  if self.len < newPos then
    (.sought (-1) (some .einval), self)
  else
    (.sought (platform.toOff newPos)
        (if whence = .other then some .einval else none),
      { self with curpos := newPos })

def call (platform : Platform) (self : GioMemoryFile) :
    Call → Returned × GioMemoryFile
  | .read count => self.read platform count
  | .write bytes => self.write platform bytes
  | .seek offset whence => self.seek platform offset whence

def step (platform : Platform) (self : GioMemoryFile) (request : Call) :
    Option GioMemoryFile :=
  some (self.call platform request).2

def file (self : GioMemoryFile) : MemoryFile where
  contents := self.buffer
  length := self.len
  offset := self.curpos

def Behaves (platform : Platform) (self : GioMemoryFile) (request : Call) :
    Prop :=
  match request with
  | .read count =>
      let moved := self.file.available count
      self.call platform (.read count) =
        (.read (platform.toSsize moved)
            (bytesAt self.buffer self.curpos moved),
          { self with curpos := self.curpos + moved })
  | .write bytes =>
      let moved := self.file.available bytes.length
      self.call platform (.write bytes) =
        (.wrote (platform.toSsize moved),
          { self with
            buffer :=
              self.buffer.splice (Buffer.ofList bytes) self.curpos moved
            curpos := self.curpos + moved })
  | .seek offset whence =>
      (∀ position : Nat, self.file.target offset whence = some ↑position →
        position ≤ self.len →
          self.call platform (.seek offset whence) =
            (.sought position none, { self with curpos := position })) ∧
      ((∀ position : Nat, self.file.target offset whence = some ↑position →
        self.len < position) →
          self.call platform (.seek offset whence) =
            (.sought (-1) (some .einval), self))

/-- The condition on a seek.  No place of the file other than the target is
the same number modulo the size of a `size_t`, and a target in the file is an
`off_t`.  Without a target the file must be shorter than the largest `size_t`,
or be left where it is. -/
def Proper (platform : Platform) (self : GioMemoryFile) : Call → Prop
  | .read _ | .write _ => True
  | .seek offset whence =>
      match self.file.target offset whence with
      | some target =>
          ∀ position : Nat, position ≤ self.len →
            (position : Int) % 2 ^ platform.sizeBits =
              target % 2 ^ platform.sizeBits →
            target = position ∧ position ≤ platform.offMax
      | none =>
          self.len < platform.sizeMax ∨
            self.curpos = platform.sizeMax ∧
              platform.offBits ≤ platform.sizeBits

structure Placed (platform : Platform) (gio : GioMemoryFile) : Prop where
  small : gio.len ≤ platform.sizeMax
  inside : gio.curpos ≤ gio.len

variable {platform : Platform} {self : GioMemoryFile}

section Transfers

theorem toSize_of_le {value : Nat} (small : value ≤ platform.sizeMax) :
    platform.toSize value = value := by
  have positive : 0 < 2 ^ platform.sizeBits := Nat.two_pow_pos _
  have below : value < 2 ^ platform.sizeBits := by
    unfold Platform.sizeMax at small
    omega
  unfold Platform.toSize
  rw [Int.emod_eq_of_lt (Int.natCast_nonneg value) (by exact_mod_cast below)]
  exact Int.toNat_natCast value

theorem cut_eq (placed : Placed platform self) (count : Nat) :
    self.cut platform count = self.file.available count := by
  obtain ⟨small, inside⟩ := placed
  have remain : platform.toSize ((self.len : Int) - self.curpos) =
      self.len - self.curpos := by
    rw [← Int.ofNat_sub inside]
    exact toSize_of_le (by omega)
  unfold cut MemoryFile.available file
  rw [remain]
  dsimp only
  split
  · omega
  · omega

theorem available_inside (placed : Placed platform self) (count : Nat) :
    self.curpos + self.file.available count ≤ self.len := by
  have inside := placed.inside
  unfold MemoryFile.available file
  dsimp only
  omega

theorem advanced_eq (placed : Placed platform self) (count : Nat) :
    platform.toSize ((self.curpos : Int) + ↑(self.file.available count)) =
      self.curpos + self.file.available count := by
  have inside := available_inside placed count
  have small := placed.small
  rw [← Int.natCast_add]
  exact toSize_of_le (by omega)

theorem toSsize_zero : platform.toSsize 0 = 0 := by
  unfold Platform.toSsize
  exact Int.zero_bmod

theorem behaves_read (placed : Placed platform self) (count : Nat) :
    self.Behaves platform (.read count) := by
  unfold Behaves call read
  dsimp only
  rw [cut_eq placed, advanced_eq placed]
  by_cases none' : self.file.available count = 0
  · rw [if_pos none', none', toSsize_zero]
    rfl
  · rw [if_neg none']

theorem behaves_write (placed : Placed platform self) (bytes : List UInt8) :
    self.Behaves platform (.write bytes) := by
  unfold Behaves call write
  dsimp only
  rw [cut_eq placed, advanced_eq placed]
  by_cases none' : self.file.available bytes.length = 0
  · have same : self.buffer.splice (Buffer.ofList bytes) self.curpos 0 =
        self.buffer := Buffer.splice_none _ _ _
    rw [if_pos none', none', toSsize_zero, same]
    rfl
  · rw [if_neg none']

end Transfers

section Seeks

theorem two_pow_cast (bits : Nat) : ((2 ^ bits : Nat) : Int) = 2 ^ bits := by
  exact_mod_cast rfl

theorem two_pow_pos (bits : Nat) : (0 : Int) < 2 ^ bits := by
  exact_mod_cast Nat.two_pow_pos bits

theorem toSize_eq_iff
    {position : Nat} (small : position ≤ platform.sizeMax) (value : Int) :
    platform.toSize value = position ↔
      (position : Int) % 2 ^ platform.sizeBits =
        value % 2 ^ platform.sizeBits := by
  have positive := two_pow_pos platform.sizeBits
  have nonneg := Int.emod_nonneg value (Int.ne_of_gt positive)
  have below : (position : Int) < 2 ^ platform.sizeBits := by
    have power : 0 < 2 ^ platform.sizeBits := Nat.two_pow_pos _
    unfold Platform.sizeMax at small
    have less : position < 2 ^ platform.sizeBits := by omega
    exact_mod_cast less
  rw [Int.emod_eq_of_lt (Int.natCast_nonneg position) below]
  unfold Platform.toSize
  omega

theorem toSize_le (value : Int) : platform.toSize value ≤ platform.sizeMax := by
  have positive := two_pow_pos platform.sizeBits
  have nonneg := Int.emod_nonneg value (Int.ne_of_gt positive)
  have below := Int.emod_lt_of_pos value positive
  have power : 0 < 2 ^ platform.sizeBits := Nat.two_pow_pos _
  have cast := two_pow_cast platform.sizeBits
  unfold Platform.toSize Platform.sizeMax
  omega

theorem newPos_of_target
    {offset : Int} {whence : Whence} {target : Int}
    (aimed : self.file.target offset whence = some target) :
    whence ≠ .other ∧
      self.newPos platform offset whence = platform.toSize target := by
  cases whence with
  | seekSet => cases aimed; exact ⟨nofun, rfl⟩
  | seekCur => cases aimed; exact ⟨nofun, rfl⟩
  | seekEnd => cases aimed; exact ⟨nofun, rfl⟩
  | other => cases aimed

theorem toOff_eq_iff (platform : Platform) (position : Nat) :
    platform.toOff position = position ↔ position ≤ platform.offMax := by
  unfold Platform.toOff Platform.offMax
  rcases platform.offWidths with width | width
  · rw [width]
    have below : (position : Int).bmod (2 ^ 32) < (2 ^ 32 + 1) / 2 :=
      Int.bmod_lt (by decide)
    constructor
    · intro same
      omega
    · intro small
      exact Int.bmod_eq_of_le (by omega) (by omega)
  · rw [width]
    have below : (position : Int).bmod (2 ^ 64) < (2 ^ 64 + 1) / 2 :=
      Int.bmod_lt (by decide)
    constructor
    · intro same
      omega
    · intro small
      exact Int.bmod_eq_of_le (by omega) (by omega)

theorem toOff_sizeMax_iff (platform : Platform) :
    platform.toOff platform.sizeMax = -1 ↔
      platform.offBits ≤ platform.sizeBits := by
  unfold Platform.toOff Platform.sizeMax
  rcases platform.offWidths with off | off <;>
    rcases platform.sizeWidths with size | size <;>
      rw [off, size] <;> decide

theorem seek_of_target
    {offset : Int} {whence : Whence} {target : Int}
    (aimed : self.file.target offset whence = some target) :
    self.call platform (.seek offset whence) =
      if self.len < platform.toSize target then
        (.sought (-1) (some .einval), self)
      else
        (.sought (platform.toOff (platform.toSize target)) none,
          { self with curpos := platform.toSize target }) := by
  obtain ⟨known, place⟩ := @newPos_of_target platform self _ _ _ aimed
  unfold call seek
  dsimp only
  rw [place, if_neg known]

theorem behaves_seek_of_target
    (placed : Placed platform self) {offset : Int} {whence : Whence}
    {target : Int} (aimed : self.file.target offset whence = some target) :
    self.Behaves platform (.seek offset whence) ↔
      ∀ position : Nat, position ≤ self.len →
        (position : Int) % 2 ^ platform.sizeBits =
          target % 2 ^ platform.sizeBits →
        target = position ∧ position ≤ platform.offMax := by
  have small := placed.small
  have sought := @seek_of_target platform self _ _ _ aimed
  constructor
  · rintro ⟨accepts, refuses⟩ position inside same
    have taken := (toSize_eq_iff (by omega) target).mpr same
    rw [taken, if_neg (Nat.not_lt.mpr inside)] at sought
    by_cases there : ∃ place : Nat, target = place ∧ place ≤ self.len
    · obtain ⟨place, rfl, within⟩ := there
      have moved := sought.symm.trans (accepts place aimed within)
      rw [toSize_of_le (by omega)] at taken
      subst taken
      have result := (Returned.sought.inj (Prod.mk.inj moved).1).1
      exact ⟨rfl, (toOff_eq_iff platform place).mp result⟩
    · have refused := refuses (by
        intro place same
        rw [aimed] at same
        by_contra within
        exact there ⟨place, Option.some.inj same, Nat.not_lt.mp within⟩)
      have moved := sought.symm.trans refused
      cases (Returned.sought.inj (Prod.mk.inj moved).1).2
  · intro only
    constructor
    · intro place same within
      cases aimed.symm.trans same
      obtain ⟨-, representable⟩ := only place within rfl
      rw [sought, toSize_of_le (by omega), if_neg (Nat.not_lt.mpr within),
        (toOff_eq_iff platform place).mpr representable]
    · intro outside
      rw [sought, if_pos]
      by_contra within
      have inside := Nat.not_lt.mp within
      have taken := (@toSize_eq_iff platform _ (toSize_le target) target).mp rfl
      obtain ⟨same, -⟩ := only _ inside taken
      exact within (outside _ (aimed.trans (congrArg some same)))

theorem behaves_seek_of_none
    (placed : Placed platform self) {offset : Int} {whence : Whence}
    (lost : self.file.target offset whence = none) :
    self.Behaves platform (.seek offset whence) ↔
      self.len < platform.sizeMax ∨
        self.curpos = platform.sizeMax ∧
          platform.offBits ≤ platform.sizeBits := by
  have small := placed.small
  obtain rfl : whence = .other := by
    cases whence with
    | other => rfl
    | seekSet | seekCur | seekEnd => cases lost
  have refuses : self.Behaves platform (.seek offset .other) ↔
      self.call platform (.seek offset .other) =
        (.sought (-1) (some .einval), self) :=
    ⟨fun both => both.2 nofun, fun refused => ⟨nofun, fun _ => refused⟩⟩
  rw [refuses]
  unfold call seek newPos
  dsimp only
  by_cases short : self.len < platform.sizeMax
  · rw [if_pos short]
    exact iff_of_true rfl (.inl short)
  · rw [if_neg short, if_pos rfl, ← toOff_sizeMax_iff platform]
    constructor
    · intro same
      obtain ⟨result, stays⟩ := Prod.mk.inj same
      exact .inr ⟨(congrArg curpos stays).symm,
        (Returned.sought.inj result).1⟩
    · rintro (less | ⟨last, result⟩)
      · exact absurd less short
      · rw [result, ← last]

theorem behaves_iff_proper (placed : Placed platform self) (request : Call) :
    self.Behaves platform request ↔ self.Proper platform request := by
  cases request with
  | read count => exact iff_of_true (behaves_read placed count) trivial
  | write bytes => exact iff_of_true (behaves_write placed bytes) trivial
  | seek offset whence =>
      cases aimed : self.file.target offset whence with
      | some target =>
          rw [behaves_seek_of_target placed aimed]
          unfold Proper
          dsimp only
          rw [aimed]
      | none =>
          rw [behaves_seek_of_none placed aimed]
          unfold Proper
          dsimp only
          rw [aimed]

end Seeks

section Runs

theorem placed_step
    (self : GioMemoryFile) (request : Call) (next : GioMemoryFile)
    (placed : Placed platform self ∧ self.len = length)
    (stepped : step platform self request = some next) :
    Placed platform next ∧ next.len = length := by
  obtain ⟨placed, rfl⟩ := placed
  cases stepped
  cases request with
  | read count =>
      have moved : self.call platform (.read count) = _ :=
        behaves_read placed count
      rw [moved]
      exact ⟨⟨placed.small, available_inside placed count⟩, rfl⟩
  | write bytes =>
      have moved : self.call platform (.write bytes) = _ :=
        behaves_write placed bytes
      rw [moved]
      exact ⟨⟨placed.small, available_inside placed bytes.length⟩, rfl⟩
  | seek offset whence =>
      unfold call seek
      dsimp only
      split
      next => exact ⟨placed, rfl⟩
      next inside => exact ⟨⟨placed.small, Nat.not_lt.mp inside⟩, rfl⟩

theorem placed_ctor (buffer : Buffer) (small : length ≤ platform.sizeMax) :
    Placed platform (ctor buffer length) ∧
      (ctor buffer length).len = length :=
  ⟨⟨small, Nat.zero_le _⟩, rfl⟩

/-- A 32 bit build with the `off_t` of 64 bits. -/
def wideOffsets : Platform := ⟨32, 64, bits32, bits64⟩

/-- In every run the place is inside of the buffer, and the calls are those of
a file of fixed size exactly if every seek meets the condition. -/
theorem fixedFile_iff
    (buffer : Buffer) {length : Nat} (small : length ≤ platform.sizeMax)
    (requests : List Call) :
    Throughout (step platform)
        (fun self => self.len = length ∧ self.curpos ≤ length)
        (ctor buffer length) requests ∧
      (AllSteps (step platform) (Behaves platform) (ctor buffer length)
          requests ↔
        AllSteps (step platform) (Proper platform) (ctor buffer length)
          requests) := by
  have first := placed_ctor buffer small
  constructor
  · have kept := throughout_of_kept placed_step requests first
    refine kept.imp ?_
    rintro self ⟨placed, rfl⟩
    exact ⟨rfl, placed.inside⟩
  · apply allSteps_iff placed_step _ first
    intro self request next placed _
    exact behaves_iff_proper placed.1 request

theorem fixedFile_iff_tenBytes :
    10 ≤ wideOffsets.sizeMax ∧
      (AllSteps (step wideOffsets) (Behaves wideOffsets)
          (ctor (fun _ => 0) 10) [.seek (-4) .seekEnd, .read 20] ↔
        AllSteps (step wideOffsets) (Proper wideOffsets)
          (ctor (fun _ => 0) 10) [.seek (-4) .seekEnd, .read 20]) :=
  ⟨by decide, (fixedFile_iff (fun _ => 0) (by decide) _).2⟩

/-- An offset of four gigabytes is taken for the start of the buffer. -/
theorem fourGigabytes_accepted :
    (ctor (fun _ => 0) 10).call wideOffsets (.seek (2 ^ 32) .seekSet) =
        (.sought 0 none, ctor (fun _ => 0) 10) ∧
      ¬ AllSteps (step wideOffsets) (Behaves wideOffsets)
        (ctor (fun _ => 0) 10) [.seek (2 ^ 32) .seekSet] := by
  have accepted : (ctor (fun _ => 0) 10).call wideOffsets
      (.seek (2 ^ 32) .seekSet) =
        (.sought 0 none, ctor (fun _ => 0) 10) := rfl
  refine ⟨accepted, ?_⟩
  intro all
  obtain ⟨⟨-, refuses⟩, -⟩ := all _ rfl
  have refused := refuses (by
    intro position same
    have equal : (2 ^ 32 : Int) = position := Option.some.inj same
    show 10 < position
    omega)
  cases (Returned.sought.inj (Prod.mk.inj (accepted.symm.trans refused)).1).2

end Runs

end GioMemoryFile

end NativeClient.Gio
