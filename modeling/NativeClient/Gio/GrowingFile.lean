import NativeClient.Gio.ShmTransfers

/-!
# Whether the object is a growing file

The two offsets stay equal and growth loses nothing.  But a mapping that fails
is not noticed, the failure of a constructor is cleaned up twice, a seek from
the end starts from the end of the allocation, an offset that does not fit into
`size_t` is cut off, and a write of nothing after a gap makes the file longer.
-/

namespace NativeClient.Gio

open NativeClient.Library

section Doubling

variable (platform : Platform)

theorem two_pow_sizeBits :
    2 ^ 32 ≤ 2 ^ platform.sizeBits ∧
      2 ^ platform.sizeBits = 2 * 2 ^ (platform.sizeBits - 1) := by
  constructor
  · apply Nat.pow_le_pow_right (by decide)
    rcases platform.sizeWidths with narrow | wide <;> omega
  · rw [← Nat.pow_succ']
    congr 1
    rcases platform.sizeWidths with narrow | wide <;> omega

/-- The sizes that the loop goes through, from `2 ^ first` on. -/
def Doubled (first ioOffset size : Nat) : Prop :=
  (∃ exponent, first ≤ exponent ∧ exponent < platform.sizeBits ∧
    size = 2 ^ exponent ∧ (exponent = first ∨ 2 ^ (exponent - 1) < ioOffset)) ∨
  size = platform.largest ∧ 2 ^ (platform.sizeBits - 1) < ioOffset

theorem doublingTurn_again
    {first ioOffset size next : Nat}
    (doubled : Doubled platform first ioOffset size)
    (action : doublingTurn platform ioOffset size = .again next) :
    Doubled platform first ioOffset next ∧
      (next = platform.largest ∧ size < platform.largest ∨
        ∃ exponent, exponent + 1 < platform.sizeBits ∧ size = 2 ^ exponent ∧
          next = 2 ^ (exponent + 1)) := by
  obtain ⟨wide, halves⟩ := two_pow_sizeBits platform
  unfold doublingTurn at action
  by_cases reached : ioOffset ≤ size
  · rw [if_pos reached] at action
    cases action
  rw [if_neg reached] at action
  by_cases small : size ≤ platform.sizeMax / 2
  · rw [if_pos small] at action
    cases action
    unfold Platform.sizeMax at small
    rcases doubled with ⟨exponent, above, below, rfl, -⟩ | ⟨rfl, far⟩
    · have next : exponent + 1 < platform.sizeBits := by
        have less : 2 ^ exponent < 2 ^ (platform.sizeBits - 1) := by omega
        have := (Nat.pow_lt_pow_iff_right (by decide : 1 < 2)).mp less
        omega
      have exact' : 2 * 2 ^ exponent % 2 ^ platform.sizeBits =
          2 ^ (exponent + 1) := by
        rw [← Nat.pow_succ', Nat.mod_eq_of_lt]
        exact Nat.pow_lt_pow_right (by decide) next
      rw [exact']
      refine ⟨Or.inl ⟨exponent + 1, by omega, next, rfl, Or.inr ?_⟩,
        Or.inr ⟨exponent, next, rfl, rfl⟩⟩
      rw [Nat.add_sub_cancel]
      omega
    · unfold Platform.largest Platform.sizeMax naclMapPagesize at small
      omega
  · rw [if_neg small] at action
    by_cases pegged : platform.largest ≤ size
    · rw [if_pos pegged] at action
      cases action
    · rw [if_neg pegged] at action
      cases action
      refine ⟨Or.inr ⟨rfl, ?_⟩, Or.inl ⟨rfl, by omega⟩⟩
      unfold Platform.sizeMax at small
      omega

theorem doublingTurn_leave
    {ioOffset size : Nat} {result : Option Nat}
    (action : doublingTurn platform ioOffset size = .leave result) :
    (result = none ∧ platform.largest < ioOffset) ∨
      (result = some size ∧ ioOffset ≤ size) := by
  unfold doublingTurn at action
  split at action
  next reached =>
    cases action
    exact Or.inr ⟨rfl, reached⟩
  next far =>
    split at action
    next => cases action
    next =>
      split at action
      next pegged =>
        cases action
        exact Or.inl ⟨rfl, by omega⟩
      next => cases action

theorem runLoop_doublingTurn
    {first : Nat} (below : first < platform.sizeBits) (ioOffset : Nat) :
    ∃ result,
      runLoop (doublingTurn platform ioOffset) (platform.sizeBits + 2)
          (2 ^ first) = some result ∧
        (result = none ∧ platform.largest < ioOffset ∨
          ∃ size, result = some size ∧ ioOffset ≤ size ∧
            Doubled platform first ioOffset size) := by
  apply runLoop_total (Doubled platform first ioOffset) _
    (fun size => if size = platform.largest then 0
      else platform.sizeBits - Nat.log2 size)
  · intro size next doubled action
    obtain ⟨kept, change⟩ := doublingTurn_again platform doubled action
    refine ⟨kept, ?_⟩
    have distinct : size ≠ platform.largest := by
      intro same
      rw [same, doublingTurn] at action
      split at action
      next => cases action
      next =>
        split at action
        next small =>
          have wide := (two_pow_sizeBits platform).1
          unfold Platform.largest Platform.sizeMax naclMapPagesize at small
          omega
        next =>
          rw [if_pos (Nat.le_refl _)] at action
          cases action
    rw [if_neg distinct]
    rcases change with ⟨rfl, -⟩ | ⟨exponent, small, rfl, rfl⟩
    · rw [if_pos rfl]
      rcases doubled with ⟨exponent, -, less, rfl, -⟩ | ⟨same, -⟩
      · rw [Nat.log2_two_pow]
        omega
      · exact absurd same distinct
    · rw [Nat.log2_two_pow, Nat.log2_two_pow]
      split
      · omega
      · omega
  · intro size result doubled action
    rcases doublingTurn_leave platform action with ended | ⟨same, enough⟩
    · exact Or.inl ended
    · exact Or.inr ⟨size, same, enough, doubled⟩
  · exact Or.inl ⟨first, Nat.le_refl _, below, rfl, Or.inl rfl⟩
  · split
    · omega
    · omega

theorem doubled_mod
    {first ioOffset size : Nat} (large : 16 ≤ first)
    (doubled : Doubled platform first ioOffset size) :
    size % naclMapPagesize = 0 := by
  rcases doubled with ⟨exponent, above, -, rfl, -⟩ | ⟨rfl, -⟩
  · exact Nat.mod_eq_zero_of_dvd (Nat.pow_dvd_pow 2 (by omega : 16 ≤ exponent))
  · have known : ∀ bits : Nat, bits = 32 ∨ bits = 64 →
        (2 ^ bits - 1 - 65536 + 1) % 65536 = 0 := by
      rintro bits (rfl | rfl)
      · rfl
      · rfl
    exact known platform.sizeBits platform.sizeWidths

theorem doubled_small
    {first ioOffset size : Nat} (small : first ≤ 30)
    (doubled : Doubled platform first ioOffset size)
    (fits : ioOffset ≤ 2 ^ 30) :
    ∃ exponent, first ≤ exponent ∧ exponent ≤ 30 ∧ size = 2 ^ exponent := by
  rcases doubled with ⟨exponent, above, -, rfl, same | less⟩ | ⟨-, far⟩
  · exact ⟨exponent, above, by omega, rfl⟩
  · refine ⟨exponent, above, ?_, rfl⟩
    have power : 2 ^ (exponent - 1) < 2 ^ 30 := by omega
    have := (Nat.pow_lt_pow_iff_right (by decide : 1 < 2)).mp power
    omega
  · obtain ⟨wide, halves⟩ := two_pow_sizeBits platform
    omega

theorem doubled_large
    {first ioOffset size : Nat}
    (doubled : Doubled platform first ioOffset size)
    (enough : ioOffset ≤ size) (far : platform.limit < ioOffset) :
    2 ^ 63 ≤ size := by
  unfold Platform.limit Platform.largest Platform.sizeMax naclMapPagesize at far
  obtain ⟨wide, halves⟩ := two_pow_sizeBits platform
  rcases doubled with ⟨exponent, -, below, rfl, -⟩ | ⟨rfl, -⟩
  · have less : 2 ^ exponent ≤ 2 ^ (platform.sizeBits - 1) :=
      Nat.pow_le_pow_right (by decide) (by omega)
    have power : 2 ^ 62 < 2 ^ exponent := by omega
    have := (Nat.pow_lt_pow_iff_right (by decide : 1 < 2)).mp power
    exact Nat.pow_le_pow_right (by decide) (by omega)
  · unfold Platform.largest Platform.sizeMax naclMapPagesize at enough ⊢
    rcases platform.sizeWidths with eq | eq
    · rw [eq] at far enough
      omega
    · rw [eq]
      omega

end Doubling

section Growth

theorem roundAllocPage_of_mod {size : Nat} (whole : size % naclMapPagesize = 0) :
    roundAllocPage size = size := by
  unfold roundAllocPage naclMapPagesize at *
  omega

def GioShm.built (size : Nat) : GioShm :=
  { GioShm.fresh size with
    curWindow := some .address
    windowSize := min windowLimit size }

theorem built_usable {size : Nat} (small : size ≤ 2 ^ 30) :
    (GioShm.built size).Usable :=
  ⟨small, Nat.zero_le _, Or.inr ⟨rfl, Nat.min_le_left _ _⟩⟩

theorem allocCtor_mapped
    (platform : Platform) {maps : Nat → MapAnswer} (mapped : Maps maps)
    {size : Nat} (whole : size % naclMapPagesize = 0) (some' : 0 < size)
    (small : size ≤ 2 ^ 30) :
    allocCtor platform true maps size = some (some (GioShm.built size)) := by
  have usable : (GioShm.fresh size).Usable :=
    ⟨small, Nat.zero_le _, Or.inl rfl⟩
  have window := setWindow_mapped mapped usable (Nat.zero_mod naclMapPagesize) some'
  have offMax : 2 ^ 31 - 1 ≤ platform.offMax := by
    unfold Platform.offMax
    rcases platform.offWidths with eq | eq
    · rw [eq]
    · rw [eq]
      decide
  have possible : ¬(true = false ∨ 2 ^ 63 ≤ size) := by
    rintro (wrong | large)
    · cases wrong
    · omega
  unfold allocCtor ctorIntern
  rw [if_neg (by rw [roundAllocPage_of_mod whole]; simp), if_neg possible,
    if_neg (by unfold int32Max; omega), if_neg (by omega), window]
  rfl

structure Unbounded.Valid (object : Unbounded) : Prop where
  offsets : object.ioOffset = object.ngsp.ioOffset
  sizes : object.shmAvailSz = object.ngsp.shmSz
  doubled : ∃ exponent, 16 ≤ exponent ∧ exponent ≤ 30 ∧
    object.shmAvailSz = 2 ^ exponent
  written : object.shmWritten ≤ object.shmAvailSz
  usable : object.ngsp.Usable
  zero : ∀ address, object.shmWritten ≤ address →
    object.ngsp.memory address = 0

theorem Unbounded.Valid.file_eq
    {object : Unbounded} (valid : object.Valid) :
    object.file =
      { contents := object.ngsp.memory
        length := object.shmWritten
        offset := object.ioOffset } := by
  unfold Unbounded.file
  congr 1
  funext address
  split
  next => rfl
  next beyond => exact (valid.zero address (by omega)).symm

theorem grow_mapped
    (platform : Platform) {answers : Answers}
    (readable : Maps answers.copyReads) (writable : Maps answers.copyWrites)
    (created : answers.created = true)
    {self : Unbounded} (valid : self.Valid) {exponent : Nat}
    (large : 16 ≤ exponent) (small : exponent ≤ 30)
    (more : self.shmAvailSz ≤ 2 ^ exponent) :
    ∃ next, grow platform answers self (2 ^ exponent) = some (some next) ∧
      next.Valid ∧ next.file = self.file ∧ next.shmAvailSz = 2 ^ exponent := by
  unfold grow
  by_cases same : 2 ^ exponent = self.shmAvailSz
  · rw [if_pos same]
    exact ⟨self, rfl, valid, rfl, same.symm⟩
  rw [if_neg same, created]
  have bound : 2 ^ exponent ≤ 2 ^ 30 := Nat.pow_le_pow_right (by decide) small
  have built := allocCtor_mapped platform writable
    (Nat.mod_eq_zero_of_dvd (Nat.pow_dvd_pow 2 large)) (Nat.two_pow_pos _) bound
  have sizes := valid.sizes
  obtain ⟨ngsp, copied, newSize, newOffset, newUsable, newMemory⟩ :=
    gioCopy_copies platform readable writable answers.stack
      (built_usable bound) valid.usable
      (show self.ngsp.shmSz ≤ 2 ^ exponent by omega)
  rw [← sizes] at copied
  -- Behind the old object there was nothing written.
  have memory : ngsp.memory = self.ngsp.memory := by
    rw [newMemory]
    funext address
    by_cases inside : address < self.ngsp.shmSz
    · rw [Buffer.splice_inside (Nat.zero_le _) (by omega), Nat.sub_zero]
    · rw [Buffer.splice_outside (by omega)]
      have written := valid.written
      exact (valid.zero address (by omega)).symm
  refine ⟨{ self with ngsp := ngsp, shmAvailSz := 2 ^ exponent }, ?_, ?_, ?_,
    rfl⟩
  · rw [built]
    dsimp only
    rw [copied]
  · refine ⟨valid.offsets.trans newOffset.symm, newSize.symm,
      ⟨exponent, large, small, rfl⟩, Nat.le_trans valid.written more, newUsable,
      ?_⟩
    intro address beyond
    exact (congrFun memory address).trans (valid.zero address beyond)
  · unfold Unbounded.file
    dsimp only
    rw [memory]

theorem grow_refused
    (platform : Platform) {answers : Answers} {self : Unbounded}
    {newAvailSz : Nat} (whole : newAvailSz % naclMapPagesize = 0)
    (other : newAvailSz ≠ self.shmAvailSz)
    (refused : answers.created = false ∨ 2 ^ 63 ≤ newAvailSz) :
    grow platform answers self newAvailSz = some none := by
  unfold grow allocCtor
  rw [if_neg other, if_neg (by rw [roundAllocPage_of_mod whole]; simp),
    if_pos refused]

end Growth

section Calls

variable {answers : Answers} {self : Unbounded} {bytes : List UInt8}
  {offset : Int} {whence : Whence}

theorem put_mapped
    (mapped : Maps answers.maps)
    (valid : self.Valid)
    (room : self.ioOffset + bytes.length ≤ self.shmAvailSz)
    (proper : bytes = [] → self.ioOffset ≤ self.shmWritten) :
    ∃ next, self.put answers bytes = some (.ok bytes.length, next) ∧
      next.Valid ∧ next.file = self.file.write bytes := by
  have offsets := valid.offsets
  have sizes := valid.sizes
  have written := valid.written
  obtain ⟨ngsp, buf, returned, moves⟩ :=
    readOrWrite_moves mapped true valid.usable (Buffer.ofList bytes) bytes.length
  rw [show min bytes.length (self.ngsp.shmSz - self.ngsp.ioOffset) =
    bytes.length by omega] at returned moves
  have memory := moves.memory
  have size := moves.size
  have offset := moves.offset
  simp only [if_true] at memory
  have after : Unbounded.Valid
      { self with
        ngsp := ngsp
        shmWritten := max self.shmWritten (self.ioOffset + bytes.length)
        ioOffset := self.ioOffset + bytes.length } := by
    refine ⟨by dsimp only; omega, by dsimp only; omega, valid.doubled,
      by dsimp only; omega, moves.usable, ?_⟩
    intro address beyond
    dsimp only at beyond ⊢
    rw [memory, Buffer.splice_outside (by omega)]
    exact valid.zero address (by omega)
  refine ⟨_, ?_, after, ?_⟩
  · unfold Unbounded.put
    rw [returned]
    dsimp only
    rw [if_neg (Nat.lt_irrefl _)]
  · rw [after.file_eq, valid.file_eq, MemoryFile.write]
    by_cases empty : bytes = []
    · have before := proper empty
      subst empty
      rw [if_pos rfl, memory]
      simp only [List.length_nil, Nat.add_zero, Buffer.splice_none,
        Nat.max_eq_left before]
    · rw [if_neg empty, memory, offsets]

theorem put_does
    {limit : Nat} (mapped : Maps answers.maps)
    (valid : self.Valid)
    (room : self.ioOffset + bytes.length ≤ self.shmAvailSz)
    (proper : bytes = [] → self.ioOffset ≤ self.shmWritten) :
    ∃ result next, self.put answers bytes = some (result, next) ∧
      next.Valid ∧
      MemoryFile.Does limit answers.Trouble self.file (.write bytes)
        (respond .wrote result) next.file := by
  obtain ⟨next, put, after, file⟩ := put_mapped mapped valid room proper
  refine ⟨_, next, put, after, ?_⟩
  have does : MemoryFile.Does limit answers.Trouble self.file (.write bytes)
      (.wrote bytes.length) (self.file.write (bytes.take bytes.length)) :=
    .write (Nat.le_refl _) fun less => absurd less (Nat.lt_irrefl _)
  rw [List.take_length] at does
  rw [file]
  exact does

theorem write_does
    (platform : Platform) (mapped : Maps answers.maps)
    (readable : Maps answers.copyReads) (writable : Maps answers.copyWrites)
    (valid : self.Valid)
    (extends' : bytes = [] → self.ioOffset ≤ self.shmWritten)
    (sized : answers.created = true →
      self.ioOffset + bytes.length ≤ 2 ^ 30 ∨
        platform.limit < self.ioOffset + bytes.length) :
    ∃ result next, self.write platform answers bytes = some (result, next) ∧
      next.Valid ∧
      MemoryFile.Does platform.limit answers.Trouble self.file (.write bytes)
        (respond .wrote result) next.file := by
  have fails {errno : Errno}
      (because : answers.Trouble ∨ platform.limit < self.ioOffset + bytes.length) :
      MemoryFile.Does platform.limit answers.Trouble self.file (.write bytes)
        (respond .wrote (.error errno)) self.file :=
    .writeFails because
  obtain ⟨wide, halves⟩ := two_pow_sizeBits platform
  have inside := valid.usable.offset
  have sizes := valid.sizes
  have offsets := valid.offsets
  have gigabyte := valid.usable.size
  have limit : platform.limit ≤ platform.largest := Nat.min_le_left _ _
  have largest : platform.largest < platform.sizeMax := by
    unfold Platform.largest Platform.sizeMax naclMapPagesize
    omega
  unfold Unbounded.write
  by_cases beyond : platform.sizeMax - self.ioOffset < bytes.length
  · rw [if_pos beyond]
    exact ⟨_, _, rfl, valid, fails (Or.inr (by omega))⟩
  rw [if_neg beyond]
  obtain ⟨exponent, large, small, size⟩ := valid.doubled
  obtain ⟨result, looped, ended⟩ := runLoop_doublingTurn platform
    (show exponent < platform.sizeBits by
      rcases platform.sizeWidths with eq | eq <;> omega)
    (self.ioOffset + bytes.length)
  rw [size, looped]
  rcases ended with ⟨rfl, far⟩ | ⟨newAvailSz, rfl, enough, doubled⟩
  · exact ⟨_, _, rfl, valid, fails (Or.inr (by omega))⟩
  · by_cases same : newAvailSz = self.shmAvailSz
    · dsimp only
      rw [grow, if_pos same]
      exact put_does mapped valid (by omega) extends'
    · have whole := doubled_mod platform large doubled
      cases created : answers.created with
      | false =>
          dsimp only
          rw [grow_refused platform whole same (Or.inl created)]
          exact ⟨_, _, rfl, valid, fails (Or.inl (Or.inl created))⟩
      | true =>
          rcases sized created with fits | far
          · obtain ⟨newExponent, above, below, rfl⟩ :=
              doubled_small platform small doubled fits
            have more : self.shmAvailSz ≤ 2 ^ newExponent := by
              rw [size]
              exact Nat.pow_le_pow_right (by decide) above
            obtain ⟨next, grown, after, file, avail⟩ :=
              grow_mapped platform readable writable created valid
                (Nat.le_trans large above) below more
            have offset : next.ioOffset = self.ioOffset :=
              congrArg MemoryFile.offset file
            have length : next.shmWritten = self.shmWritten :=
              congrArg MemoryFile.length file
            dsimp only
            rw [grown, ← file]
            apply put_does mapped after
            · omega
            · rw [offset, length]
              exact extends'
          · dsimp only
            rw [grow_refused platform whole same
              (Or.inr (doubled_large platform doubled enough far))]
            exact ⟨_, _, rfl, valid, fails (Or.inr far)⟩

theorem read_does
    {limit : Nat} (mapped : Maps answers.maps)
    (valid : self.Valid) (count : Nat) :
    ∃ result next, self.read answers count = some (result, next) ∧
      next.Valid ∧
      MemoryFile.Does limit answers.Trouble self.file (.read count)
        (respond .got result) next.file := by
  have offsets := valid.offsets
  have sizes := valid.sizes
  have written := valid.written
  obtain ⟨done, doneEq⟩ : ∃ done, done = self.file.available count := ⟨_, rfl⟩
  have amount : done = min count (self.shmWritten - self.ioOffset) := doneEq
  have does : MemoryFile.Does limit answers.Trouble self.file (.read count)
      (.got (bytesAt self.file.contents self.file.offset done))
      { self.file with offset := self.file.offset + done } :=
    .read (Nat.le_of_eq doneEq) fun less => absurd less (by omega)
  unfold Unbounded.read
  by_cases ended : self.shmWritten ≤ self.ioOffset
  · rw [if_pos ended]
    rw [show done = 0 by omega] at does
    exact ⟨_, _, rfl, valid, does⟩
  rw [if_neg ended, ← amount]
  obtain ⟨ngsp, buf, returned, moves⟩ :=
    readOrWrite_moves mapped false valid.usable answers.stack done
  rw [show min done (self.ngsp.shmSz - self.ngsp.ioOffset) = done by omega]
    at returned moves
  have memory := moves.memory
  have buffer := moves.buffer
  have size := moves.size
  have offset := moves.offset
  simp only [Bool.false_eq_true, if_false] at memory buffer
  have after : Unbounded.Valid
      { self with ngsp := ngsp, ioOffset := self.ioOffset + done } := by
    refine ⟨by dsimp only; omega, by dsimp only; omega, valid.doubled, written,
      moves.usable, ?_⟩
    intro address beyond
    dsimp only
    rw [memory]
    exact valid.zero address beyond
  refine ⟨_, _, by rw [returned], after, ?_⟩
  rw [buffer, bytesAt_splice, after.file_eq, memory]
  rw [valid.file_eq] at does ⊢
  dsimp only at does
  rw [offsets] at does ⊢
  exact does

def Unbounded.base (self : Unbounded) : Whence → Int
  | .seekSet => 0
  | .seekCur => self.ioOffset
  | .seekEnd => self.shmAvailSz
  | .other => -1

/-- A seek that is refused, or whose position is a `size_t` and not counted
from the end of an allocation that is larger than the file. -/
def SeekProper
    (platform : Platform) (self : Unbounded) (offset : Int) (whence : Whence) :
    Prop :=
  self.shmAvailSz < self.ngsp.newPos platform offset whence ∨
    0 ≤ self.base whence + offset ∧
      self.base whence + offset < 2 ^ platform.sizeBits ∧
      (whence = .seekEnd → self.shmAvailSz = self.shmWritten)

theorem toSize_of_nonneg
    (platform : Platform) {value : Int} (nonneg : 0 ≤ value)
    (below : value < 2 ^ platform.sizeBits) :
    (platform.toSize value : Int) = value := by
  unfold Platform.toSize
  rw [Int.emod_eq_of_lt nonneg below]
  exact Int.toNat_of_nonneg nonneg

theorem newPos_of_nonneg
    (platform : Platform) (valid : self.Valid)
    (known : whence ≠ .other)
    (nonneg : 0 ≤ self.base whence + offset)
    (below : self.base whence + offset < 2 ^ platform.sizeBits) :
    (self.ngsp.newPos platform offset whence : Int) =
      self.base whence + offset := by
  have sized := toSize_of_nonneg platform nonneg below
  have offsets := valid.offsets
  have sizes := valid.sizes
  cases whence with
  | seekSet =>
      rw [Unbounded.base, Int.zero_add] at sized
      rw [Unbounded.base, Int.zero_add]
      exact sized
  | seekCur =>
      rw [Unbounded.base, offsets] at sized ⊢
      exact sized
  | seekEnd =>
      rw [Unbounded.base, sizes] at sized ⊢
      exact sized
  | other => exact absurd rfl known

theorem refused_outside
    (platform : Platform) (valid : self.Valid)
    (refused : self.shmAvailSz < self.ngsp.newPos platform offset whence)
    {target : Int} (there : self.file.target offset whence = some target) :
    target < 0 ∨ self.shmWritten < target := by
  by_contra inside
  have written := valid.written
  have small := valid.usable.size
  have sizes := valid.sizes
  obtain ⟨wide, -⟩ := two_pow_sizeBits platform
  have power : (2 : Int) ^ 32 ≤ 2 ^ platform.sizeBits := by exact_mod_cast wide
  have position : whence ≠ .other → 0 ≤ self.base whence + offset →
      self.base whence + offset ≤ self.shmAvailSz → False := by
    intro known nonneg most
    have newPos := newPos_of_nonneg platform valid known nonneg (by omega)
    omega
  cases whence with
  | seekSet =>
      cases there
      exact position nofun (by rw [Unbounded.base]; omega)
        (by rw [Unbounded.base]; omega)
  | seekCur =>
      cases there
      change ¬((self.ioOffset : Int) + offset < 0 ∨
        (self.shmWritten : Int) < self.ioOffset + offset) at inside
      exact position nofun (by rw [Unbounded.base]; omega)
        (by rw [Unbounded.base]; omega)
  | seekEnd =>
      cases there
      change ¬((self.shmWritten : Int) + offset < 0 ∨
        (self.shmWritten : Int) < self.shmWritten + offset) at inside
      exact position nofun (by rw [Unbounded.base]; omega)
        (by rw [Unbounded.base]; omega)
  | other => cases there

theorem seek_does
    (platform : Platform) {trouble : Prop}
    (valid : self.Valid)
    (proper : SeekProper platform self offset whence) :
    (self.seek platform offset whence).2.Valid ∧
      MemoryFile.Does platform.limit trouble self.file (.seek offset whence)
        (respond .moved (self.seek platform offset whence).1)
        (self.seek platform offset whence).2.file := by
  have sizes := valid.sizes
  by_cases refused :
      self.shmAvailSz < self.ngsp.newPos platform offset whence
  · have failed : self.seek platform offset whence = (.error .einval, self) := by
      unfold Unbounded.seek GioShm.seek
      dsimp only
      rw [if_pos (by omega)]
    rw [failed]
    exact ⟨valid, .seekFails fun target there =>
      refused_outside platform valid refused there⟩
  · rcases proper with wrong | ⟨nonneg, below, fromEnd⟩
    · exact absurd wrong refused
    have known : whence ≠ .other := by
      rintro rfl
      obtain ⟨wide, -⟩ := two_pow_sizeBits platform
      have small := valid.usable.size
      change ¬(self.shmAvailSz < platform.sizeMax) at refused
      unfold Platform.sizeMax at refused
      omega
    have newPos := newPos_of_nonneg platform valid known nonneg below
    obtain ⟨position, positionEq⟩ :
        ∃ position, position = self.ngsp.newPos platform offset whence :=
      ⟨_, rfl⟩
    rw [← positionEq] at newPos refused
    have moved : self.seek platform offset whence =
        (.ok position,
          { self with
            ngsp := { self.ngsp with ioOffset := position }
            ioOffset := position }) := by
      unfold Unbounded.seek GioShm.seek
      dsimp only
      rw [← positionEq, if_neg (by omega)]
    have there : self.file.target offset whence = some (position : Int) := by
      rw [newPos]
      cases whence with
      | seekSet => exact congrArg some (Int.zero_add offset).symm
      | seekCur => rfl
      | seekEnd =>
          have same := fromEnd rfl
          show some ((self.shmWritten : Int) + offset) =
            some ((self.shmAvailSz : Int) + offset)
          rw [same]
      | other => exact absurd rfl known
    rw [moved]
    refine ⟨⟨rfl, sizes, valid.doubled, valid.written,
      valid.usable.moved (by omega), valid.zero⟩, ?_⟩
    exact .seek there

end Calls

section Runs

/-- A call that meets none of the defects: no mapping fails, no allocation of
more than a gigabyte succeeds, nothing is written where there is nothing to
write after a gap, and a seek is proper. -/
def Proper (platform : Platform) : Option Unbounded → Answers × Call → Prop
  | none, _ => True
  | some self, (answers, call) =>
      Maps answers.maps ∧ Maps answers.copyReads ∧ Maps answers.copyWrites ∧
        match call with
        | .read _ => True
        | .write bytes =>
            (bytes = [] → self.ioOffset ≤ self.shmWritten) ∧
              (answers.created = true →
                self.ioOffset + bytes.length ≤ 2 ^ 30 ∨
                  platform.limit < self.ioOffset + bytes.length)
        | .seek offset whence => SeekProper platform self offset whence

theorem call_does
    (platform : Platform) {answers : Answers} {call : Call} {self : Unbounded}
    (valid : self.Valid) (proper : Proper platform (some self) (answers, call)) :
    ∃ response next,
      self.call platform answers call = some (response, next) ∧ next.Valid ∧
        MemoryFile.Does platform.limit answers.Trouble self.file call response
          next.file := by
  obtain ⟨mapped, readable, writable, proper⟩ := proper
  cases call with
  | read count =>
      obtain ⟨result, next, returned, after, does⟩ :=
        read_does mapped valid count
      refine ⟨_, next, ?_, after, does⟩
      rw [Unbounded.call, returned]
      rfl
  | write bytes =>
      obtain ⟨result, next, returned, after, does⟩ := write_does platform mapped
        readable writable valid proper.1 proper.2
      refine ⟨_, next, ?_, after, does⟩
      rw [Unbounded.call, returned]
      rfl
  | seek offset whence =>
      obtain ⟨after, does⟩ := seek_does platform valid proper
      exact ⟨_, _, rfl, after, does⟩

/-- Every turn of the doubling makes the size larger and keeps it a `size_t`,
and the loop ends with a size that is enough, or when there is none. -/
def Doubles (platform : Platform) (shmAvailSz : Nat) : Prop :=
  (∀ ioOffset size next, shmAvailSz ≤ size → size < 2 ^ platform.sizeBits →
      doublingTurn platform ioOffset size = .again next →
      size < next ∧ next < 2 ^ platform.sizeBits) ∧
    ∀ ioOffset, ∃ result,
      runLoop (doublingTurn platform ioOffset) (platform.sizeBits + 2)
          shmAvailSz = some result ∧
        ∀ size, result = some size → ioOffset ≤ size ∧ shmAvailSz ≤ size

def Sound (platform : Platform) : Option Unbounded → Prop
  | none => False
  | some self =>
      self.ioOffset = self.ngsp.ioOffset ∧ Doubles platform self.shmAvailSz

theorem doubles_of_valid
    (platform : Platform) {self : Unbounded} (valid : self.Valid) :
    Doubles platform self.shmAvailSz := by
  obtain ⟨exponent, -, small, size⟩ := valid.doubled
  obtain ⟨wide, halves⟩ := two_pow_sizeBits platform
  have some' : 0 < 2 ^ exponent := Nat.two_pow_pos exponent
  have gigabyte : 2 ^ exponent ≤ 2 ^ 30 := Nat.pow_le_pow_right (by decide) small
  refine ⟨?_, ?_⟩
  · intro ioOffset size next above below action
    unfold doublingTurn at action
    split at action
    next => cases action
    next =>
      split at action
      next half =>
        cases action
        unfold Platform.sizeMax at half
        rw [Nat.mod_eq_of_lt (by omega)]
        omega
      next =>
        split at action
        next => cases action
        next less =>
          cases action
          refine ⟨by omega, ?_⟩
          unfold Platform.largest Platform.sizeMax naclMapPagesize
          omega
  · intro ioOffset
    rw [size]
    obtain ⟨result, looped, ended⟩ := runLoop_doublingTurn platform
      (show exponent < platform.sizeBits by
        rcases platform.sizeWidths with eq | eq <;> omega) ioOffset
    refine ⟨result, looped, ?_⟩
    rintro size rfl
    rcases ended with ⟨wrong, -⟩ | ⟨other, eq, enough, doubled⟩
    · cases wrong
    cases eq
    refine ⟨enough, ?_⟩
    rcases doubled with ⟨more, above, -, rfl, -⟩ | ⟨rfl, -⟩
    · exact Nat.pow_le_pow_right (by decide) above
    · unfold Platform.largest Platform.sizeMax naclMapPagesize
      omega

def Alive (state : Option Unbounded) : Prop :=
  ∃ self, state = some self ∧ self.Valid

theorem step_alive
    (platform : Platform) (state : Option Unbounded) (event : Answers × Call)
    (next : Option Unbounded) (alive : Alive state)
    (proper : Proper platform state event)
    (stepped : step platform state event = some next) : Alive next := by
  obtain ⟨self, rfl, valid⟩ := alive
  obtain ⟨response, after, returned, afterValid, -⟩ :=
    call_does platform valid proper
  rw [step, returned] at stepped
  cases stepped
  exact ⟨after, rfl, afterValid⟩

theorem behaves_of_proper
    (platform : Platform) (state : Option Unbounded) (event : Answers × Call)
    (alive : Alive state) (proper : Proper platform state event) :
    Behaves platform state event := by
  obtain ⟨self, rfl, valid⟩ := alive
  obtain ⟨response, after, returned, -, does⟩ := call_does platform valid proper
  exact ⟨response, after, returned, does⟩

theorem sound_of_alive
    (platform : Platform) (state : Option Unbounded) (alive : Alive state) :
    Sound platform state := by
  obtain ⟨self, rfl, valid⟩ := alive
  exact ⟨valid.offsets, doubles_of_valid platform valid⟩

def constructed : Unbounded where
  ngsp := GioShm.built naclMapPagesize
  shmAvailSz := naclMapPagesize
  shmWritten := 0
  ioOffset := 0

theorem unboundedCtor_mapped
    (platform : Platform) {maps : Nat → MapAnswer} (mapped : Maps maps) :
    unboundedCtor platform true maps = some (some constructed) := by
  have allocated := allocCtor_mapped platform mapped
    (show naclMapPagesize % naclMapPagesize = 0 by decide) (by decide) (by decide)
  rw [unboundedCtor, allocated]
  rfl

theorem valid_of_ctor
    {platform : Platform} {created : Bool} {maps : Nat → MapAnswer}
    (mapped : Maps maps) {object : Unbounded}
    (built : unboundedCtor platform created maps = some (some object)) :
    object.Valid := by
  cases created with
  | false =>
      unfold unboundedCtor allocCtor at built
      rw [if_neg (by decide), if_pos (Or.inl rfl)] at built
      cases built
  | true =>
      rw [unboundedCtor_mapped platform mapped] at built
      cases built
      exact ⟨rfl, rfl, ⟨16, by decide, by decide, rfl⟩, Nat.zero_le _,
        built_usable (by decide), fun _ _ => rfl⟩

/-- In a run without the defects every call does what it does on a file, the
two offsets are equal after all of them, and the size can be doubled. -/
theorem growing_file
    {platform : Platform} {created : Bool} {maps : Nat → MapAnswer}
    {object : Unbounded}
    (built : unboundedCtor platform created maps = some (some object))
    (mapped : Maps maps) {events : List (Answers × Call)}
    (proper : AllSteps (step platform) (Proper platform) (some object) events) :
    Throughout (step platform) (Sound platform) (some object) events ∧
      AllSteps (step platform) (Behaves platform) (some object) events := by
  have alive : Alive (some object) := ⟨object, rfl, valid_of_ctor mapped built⟩
  refine ⟨?_, ?_⟩
  · exact (throughout_of_allSteps (step_alive platform) alive proper).imp
      (sound_of_alive platform)
  · exact proper.imp (step_alive platform)
      (fun state event _ alive proper _ =>
        behaves_of_proper platform state event alive proper) alive

def wide : Platform where
  sizeBits := 64
  offBits := 64
  sizeWidths := bits64
  offWidths := bits64

def quiet : Answers where
  created := true
  maps := fun _ => .mapped
  copyReads := fun _ => .mapped
  copyWrites := fun _ => .mapped
  stack := fun _ => 0

def pageAndMore : List UInt8 := List.replicate 65537 1

def writeAndRead : List (Answers × Call) :=
  [(quiet, .write pageAndMore), (quiet, .seek 0 .seekSet), (quiet, .read 2)]

/-- The file grows beyond its first page. -/
theorem growing_file_writeAndRead :
    Throughout (step wide) (Sound wide) (some constructed) writeAndRead ∧
      AllSteps (step wide) (Behaves wide) (some constructed) writeAndRead := by
  have alive : Alive (some constructed) :=
    ⟨constructed, rfl,
      valid_of_ctor (fun _ => rfl)
        (@unboundedCtor_mapped wide (fun _ => .mapped) fun _ => rfl)⟩
  have length : pageAndMore.length = 65537 := List.length_replicate
  have writes : Proper wide (some constructed) (quiet, .write pageAndMore) := by
    refine ⟨fun _ => rfl, fun _ => rfl, fun _ => rfl, ?_, fun _ => Or.inl ?_⟩
    · exact fun _ => Nat.le_refl 0
    · rw [length]
      decide
  have seeks (self : Unbounded) :
      Proper wide (some self) (quiet, .seek 0 .seekSet) := by
    refine ⟨fun _ => rfl, fun _ => rfl, fun _ => rfl, Or.inr ⟨?_, ?_, nofun⟩⟩
    · show (0 : Int) ≤ 0 + 0
      decide
    · show (0 : Int) + 0 < 2 ^ 64
      decide
  refine growing_file
    (@unboundedCtor_mapped wide (fun _ => .mapped) fun _ => rfl)
    (fun _ => rfl) ?_
  intro wrote stepped
  obtain ⟨self, rfl, valid⟩ :=
    step_alive wide _ _ _ alive writes stepped
  refine ⟨writes, ?_⟩
  intro sought stepped
  obtain ⟨other, rfl, -⟩ :=
    step_alive wide _ _ _ ⟨self, rfl, valid⟩ (seeks self) stepped
  refine ⟨seeks self, ?_⟩
  intro got stepped
  exact ⟨⟨fun _ => rfl, fun _ => rfl, fun _ => rfl, trivial⟩, trivial⟩

/-- A seek to the end of a new and empty file goes to the end of its page. -/
theorem file_not_growing :
    ¬ ∀ (platform : Platform) (created : Bool) (maps : Nat → MapAnswer)
        (object : Unbounded) (events : List (Answers × Call)),
      unboundedCtor platform created maps = some (some object) →
      Throughout (step platform) (Sound platform) (some object) events ∧
        AllSteps (step platform) (Behaves platform) (some object) events := by
  intro growing
  obtain ⟨-, behaves⟩ := growing wide true (fun _ => .mapped) constructed
    [(quiet, .seek 0 .seekEnd)]
    (unboundedCtor_mapped wide fun _ => rfl)
  obtain ⟨response, next, returned, does⟩ := (behaves _ rfl).1
  have newPos : constructed.ngsp.newPos wide 0 .seekEnd = 65536 := by decide
  have moved : response = .moved 65536 := by
    unfold Unbounded.call Unbounded.seek GioShm.seek at returned
    simp only [newPos] at returned
    rw [if_neg (by decide)] at returned
    cases returned
    rfl
  subst moved
  generalize next.file = after at does
  cases does with
  | seek there =>
      change some ((0 : Int) + 0) = some 65536 at there
      exact absurd there (by decide)

end Runs

end NativeClient.Gio
