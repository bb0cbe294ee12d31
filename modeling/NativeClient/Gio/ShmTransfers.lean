import NativeClient.Gio.GioShmUnbounded

/-!
# Transfers while every mapping succeeds

A transfer moves as many bytes as there are up to the end of the object, and a
copy of an object leaves all its bytes and its offset in the new one.
-/

namespace NativeClient.Gio

open NativeClient.Library

def Maps (maps : Nat → MapAnswer) : Prop :=
  ∀ offset, maps offset = .mapped

structure GioShm.Usable (shm : GioShm) : Prop where
  size : shm.shmSz ≤ 2 ^ 30
  offset : shm.ioOffset ≤ shm.shmSz
  window : shm.curWindow = none ∨
    shm.curWindow = some .address ∧ shm.windowSize ≤ windowLimit

section Window

theorem imcShmMap_mapped
    {length offset : Nat} (small : offset + length ≤ 2 ^ 30) :
    imcShmMap .mapped length offset = .address := by
  have rounded : roundAllocPage (offset + length) ≤ int32Max := by
    unfold roundAllocPage int32Max naclMapPagesize
    omega
  unfold imcShmMap
  dsimp only
  rw [if_neg (by omega)]

theorem setWindow_mapped
    {maps : Nat → MapAnswer} (mapped : Maps maps)
    {self : GioShm} (usable : self.Usable)
    {newWinOffset : Nat} (aligned : newWinOffset % naclMapPagesize = 0)
    (within : newWinOffset < self.shmSz) :
    setWindow maps self newWinOffset =
      some (true,
        { self with
          curWindow := some .address
          windowSize := min windowLimit (self.shmSz - newWinOffset)
          windowOffset := newWinOffset }) := by
  have size := usable.size
  have unmaps : unmapsWindow self.windowSize self.curWindow = true := by
    rcases usable.window with absent | ⟨present, -⟩
    · rw [absent]
      rfl
    · rw [present]
      rfl
  have result : imcShmMap (maps newWinOffset)
      (min windowLimit (self.shmSz - newWinOffset)) newWinOffset = .address := by
    rw [mapped newWinOffset]
    have part := Nat.min_le_right windowLimit (self.shmSz - newWinOffset)
    exact imcShmMap_mapped (by omega)
  unfold setWindow
  rw [if_neg (not_not.mpr aligned), if_neg (by omega),
    if_neg (by rw [unmaps]; decide)]
  simp only [result]
  rw [if_neg (by decide)]

theorem bringWindow_mapped
    {maps : Nat → MapAnswer} (mapped : Maps maps)
    {self : GioShm} (usable : self.Usable)
    (within : self.ioOffset < self.shmSz) :
    ∃ windowOffset windowSize,
      bringWindow maps self =
          some (true,
            { self with
              curWindow := some .address
              windowOffset := windowOffset
              windowSize := windowSize }) ∧
        windowOffset ≤ self.ioOffset ∧
        self.ioOffset < windowOffset + windowSize ∧
        windowSize ≤ windowLimit := by
  unfold bringWindow
  by_cases required : self.SeekRequired
  · rw [if_pos required]
    have below : self.ioOffset / naclMapPagesize * naclMapPagesize ≤ self.ioOffset :=
      Nat.div_mul_le_self _ _
    have above : self.ioOffset <
        self.ioOffset / naclMapPagesize * naclMapPagesize + naclMapPagesize := by
      unfold naclMapPagesize
      omega
    refine ⟨_, _, setWindow_mapped mapped usable (Nat.mul_mod_left _ _)
      (by omega), below, ?_, Nat.min_le_left _ _⟩
    have room : naclMapPagesize ≤ windowLimit := by decide
    omega
  · rw [if_neg required]
    unfold GioShm.SeekRequired at required
    rcases usable.window with absent | ⟨present, small⟩
    · exact absurd (Or.inl absent) required
    · refine ⟨self.windowOffset, self.windowSize, ?_, by omega, by omega, small⟩
      rw [← present]

end Window

section ReadOrWrite

/-- The object and the buffer of the caller after `done` bytes were moved. -/
structure Moves
    (isWrite : Bool) (shm : GioShm) (buf : Buffer) (done : Nat)
    (next : GioShm) (after : Buffer) : Prop where
  size : next.shmSz = shm.shmSz
  offset : next.ioOffset = shm.ioOffset + done
  usable : next.Usable
  memory : next.memory =
    if isWrite then shm.memory.splice buf shm.ioOffset done else shm.memory
  buffer : after =
    if isWrite then buf
    else buf.splice (shm.memory.shift shm.ioOffset) 0 done

theorem Moves.none
    (isWrite : Bool) {self : GioShm} (usable : self.Usable) (buf : Buffer) :
    Moves isWrite self buf 0 self buf where
  size := rfl
  offset := rfl
  usable := usable
  memory := by simp
  buffer := by simp

theorem Transfer.copy_continues
    (isWrite : Bool) {first : Transfer} {memory buf : Buffer} {start : Nat}
    (offset : first.self.ioOffset = start + first.sofar)
    (memoryBefore : first.self.memory =
      if isWrite then memory.splice buf start first.sofar else memory)
    (bufferBefore : first.buf =
      if isWrite then buf else buf.splice (memory.shift start) 0 first.sofar) :
    (Transfer.copy isWrite first).self.memory =
        (if isWrite then
          memory.splice buf start (Transfer.copy isWrite first).sofar
        else memory) ∧
      (Transfer.copy isWrite first).buf =
        if isWrite then buf
        else buf.splice (memory.shift start) 0
          (Transfer.copy isWrite first).sofar := by
  dsimp only [Transfer.copy]
  cases isWrite with
  | true =>
      simp only [if_true] at memoryBefore bufferBefore ⊢
      rw [memoryBefore, bufferBefore, offset]
      exact ⟨Buffer.splice_splice _ _ _ _ _, rfl⟩
  | false =>
      simp only [Bool.false_eq_true, if_false] at memoryBefore bufferBefore ⊢
      rw [memoryBefore, bufferBefore, offset, ← Buffer.shift_shift]
      have joined := Buffer.splice_splice buf (memory.shift start) 0
        first.sofar
      simp only [Nat.zero_add] at joined
      exact ⟨rfl, joined _⟩

theorem readOrWriteTurn_again
    {maps : Nat → MapAnswer} (mapped : Maps maps) (isWrite : Bool)
    {self : GioShm} {buf : Buffer} {first : Transfer}
    (moves : Moves isWrite self buf first.sofar first.self first.buf)
    (more : 0 < first.count) (within : first.self.ioOffset < first.self.shmSz) :
    ∃ next, readOrWriteTurn maps isWrite first = .again next ∧
      next.count < first.count ∧
      next.sofar + next.count = first.sofar + first.count ∧
      Moves isWrite self buf next.sofar next.self next.buf := by
  obtain ⟨windowOffset, windowSize, brought, below, above, small⟩ :=
    bringWindow_mapped mapped moves.usable within
  refine ⟨Transfer.copy isWrite
    { first with
      self :=
        { first.self with
          curWindow := some .address
          windowOffset := windowOffset
          windowSize := windowSize } }, ?_, ?_, ?_, ?_⟩
  · unfold readOrWriteTurn
    rw [if_neg (by omega), brought]
    dsimp only
    rw [if_neg (by omega), if_neg (by omega), if_neg (by simp)]
  · dsimp only [Transfer.copy, GioShm.transfer]
    omega
  · dsimp only [Transfer.copy, GioShm.transfer]
    omega
  · have size := moves.size
    have bound := moves.usable.size
    have offset := moves.offset
    obtain ⟨memory, buffer⟩ := @Transfer.copy_continues isWrite
      { first with
        self :=
          { first.self with
            curWindow := some .address
            windowOffset := windowOffset
            windowSize := windowSize } }
      _ _ _ offset moves.memory moves.buffer
    refine ⟨size, ?_, ⟨bound, ?_, Or.inr ⟨rfl, small⟩⟩, memory, buffer⟩
    · dsimp only [Transfer.copy, GioShm.transfer]
      omega
    · dsimp only [Transfer.copy, GioShm.transfer]
      omega

theorem readOrWrite_moves
    {maps : Nat → MapAnswer} (mapped : Maps maps) (isWrite : Bool)
    {self : GioShm} (usable : self.Usable) (buf : Buffer) (count : Nat) :
    ∃ next after,
      readOrWrite maps isWrite self buf count =
          some (.ok (min count (self.shmSz - self.ioOffset)), next, after) ∧
        Moves isWrite self buf (min count (self.shmSz - self.ioOffset))
          next after := by
  obtain ⟨result, finished, next, after, eq, moves⟩ :=
    @runLoop_total _ _ (readOrWriteTurn maps isWrite)
      (fun state => state.sofar + state.count = count ∧
        Moves isWrite self buf state.sofar state.self state.buf)
      (fun result => ∃ next after,
        result =
            some (.ok (min count (self.shmSz - self.ioOffset)), next, after) ∧
          Moves isWrite self buf (min count (self.shmSz - self.ioOffset))
            next after)
      Transfer.count
      (by
        rintro state next ⟨sum, moves⟩ action
        have unfinished : 0 < state.count ∧
            state.self.ioOffset < state.self.shmSz := by
          by_contra finished
          rw [readOrWriteTurn, if_pos (by omega)] at action
          cases action
        obtain ⟨other, again, smaller, sums, later⟩ :=
          readOrWriteTurn_again mapped isWrite moves unfinished.1 unfinished.2
        rw [again] at action
        cases action
        exact ⟨⟨sums.trans sum, later⟩, smaller⟩)
      (by
        rintro state result ⟨sum, moves⟩ action
        by_cases finished : state.count = 0 ∨
            state.self.shmSz ≤ state.self.ioOffset
        · rw [readOrWriteTurn, if_pos finished] at action
          cases action
          have size := moves.size
          have offset := moves.offset
          have inside := moves.usable.offset
          have all : state.sofar = min count (self.shmSz - self.ioOffset) := by
            omega
          rw [← all]
          exact ⟨_, _, rfl, moves⟩
        · obtain ⟨other, again, -⟩ := readOrWriteTurn_again mapped isWrite moves
            (by omega) (by omega)
          rw [again] at action
          cases action)
      { self := self, buf := buf, count := count, sofar := 0 }
      ⟨Nat.zero_add count, Moves.none isWrite usable buf⟩
      (count + 1) (Nat.lt_succ_self count)
  refine ⟨next, after, ?_, moves⟩
  unfold readOrWrite
  rw [finished, eq]
  rfl

theorem bytesAt_splice
    (buffer source : Buffer) (start count : Nat) :
    bytesAt (buffer.splice (source.shift start) 0 count) 0 count =
      bytesAt source start count := by
  unfold bytesAt
  apply List.map_congr_left
  intro offset member
  have below := List.mem_range.mp member
  rw [Nat.zero_add, Buffer.splice_inside (Nat.zero_le _) (by omega),
    Nat.sub_zero, Buffer.shift_apply]

end ReadOrWrite

section Copy

theorem copyOut_moves
    {maps : Nat → MapAnswer} (mapped : Maps maps)
    {dst : GioShm} (usable : dst.Usable) (buf : Buffer)
    {ask : Nat} (some' : 0 < ask) (room : dst.ioOffset + ask ≤ dst.shmSz) :
    ∃ next, copyOut maps dst buf ask = some next ∧
      Moves true dst buf ask next buf := by
  obtain ⟨next, after, returned, moves⟩ :=
    readOrWrite_moves mapped true usable buf ask
  rw [show min ask (dst.shmSz - dst.ioOffset) = ask by omega] at returned moves
  have same : after = buf := moves.buffer
  subst same
  refine ⟨next, ?_, moves⟩
  obtain ⟨more, rfl⟩ := Nat.exists_eq_add_of_lt some'
  unfold copyOut
  rw [runLoop, copyOutTurn, if_neg (by omega), returned]
  dsimp only
  rw [if_neg (by omega)]
  dsimp only
  rw [runLoop, copyOutTurn, if_pos (Nat.sub_self _)]
  rfl

/-- The two objects after `done` bytes were copied. -/
structure Copies (dst src : GioShm) (done : Nat) (state : Copying) : Prop where
  written : Moves true dst src.memory done state.dst src.memory
  size : state.src.shmSz = src.shmSz
  offset : state.src.ioOffset = done
  usable : state.src.Usable
  memory : state.src.memory = src.memory

theorem gioCopyTurn_again
    {reads writes : Nat → MapAnswer} (readable : Maps reads)
    (writable : Maps writes) {dst src : GioShm} {done : Nat} {state : Copying}
    (copies : Copies dst src done state) (rewound : dst.ioOffset = 0)
    (more : 0 < state.nbytes) (srcRoom : done + state.nbytes ≤ src.shmSz)
    (dstRoom : done + state.nbytes ≤ dst.shmSz) :
    ∃ next, gioCopyTurn reads writes state = .again next ∧
      next.nbytes < state.nbytes ∧
      Copies dst src (done + (state.nbytes - next.nbytes)) next := by
  have size := copies.size
  have offset := copies.offset
  have dstSize := copies.written.size
  have dstOffset := copies.written.offset
  obtain ⟨got, gotEq⟩ : ∃ got, got = min copyLimit state.nbytes := ⟨_, rfl⟩
  have some' : 0 < got := by
    rw [gotEq, copyLimit]
    omega
  have part : got ≤ state.nbytes := gotEq ▸ Nat.min_le_right _ _
  obtain ⟨nextSrc, buf, read, readMoves⟩ :=
    readOrWrite_moves readable false copies.usable state.buf got
  rw [show min got (state.src.shmSz - state.src.ioOffset) = got by omega]
    at read readMoves
  obtain ⟨nextDst, wrote, wroteMoves⟩ := copyOut_moves writable
    copies.written.usable buf some' (by omega)
  refine ⟨{ dst := nextDst, src := nextSrc, buf := buf,
            nbytes := state.nbytes - got }, ?_, ?_, ?_⟩
  · unfold gioCopyTurn
    rw [if_neg (by omega)]
    dsimp only
    rw [← gotEq, read]
    dsimp only
    rw [if_neg (by omega), wrote]
  · dsimp only
    omega
  · have added : done + (state.nbytes - (state.nbytes - got)) = done + got := by
      omega
    -- The buffer holds what follows in the source, and that is appended.
    have agree : buf.AgreeOn (src.memory.shift done) 0 got := by
      intro address above below
      have filled := readMoves.buffer
      simp only [Bool.false_eq_true, if_false] at filled
      rw [filled, Buffer.splice_inside above (by omega), Nat.sub_zero,
        copies.memory, offset]
    dsimp only
    rw [added]
    constructor
    · constructor
      · exact wroteMoves.size.trans dstSize
      · rw [wroteMoves.offset, dstOffset, Nat.add_assoc]
      · exact wroteMoves.usable
      · have before := copies.written.memory
        have now := wroteMoves.memory
        simp only [if_true] at before now ⊢
        rw [now, before, dstOffset, Buffer.splice_congr agree,
          Buffer.splice_splice]
      · rfl
    · exact readMoves.size.trans size
    · rw [readMoves.offset, offset]
    · exact readMoves.usable
    · have kept := readMoves.memory
      simp only [Bool.false_eq_true, if_false] at kept
      exact kept.trans copies.memory

theorem runLoop_gioCopyTurn
    {reads writes : Nat → MapAnswer} (readable : Maps reads)
    (writable : Maps writes) (stack : Buffer) {dst src : GioShm}
    (dstUsable : dst.Usable) (srcUsable : src.Usable)
    (dstRewound : dst.ioOffset = 0) (srcRewound : src.ioOffset = 0)
    (larger : src.shmSz ≤ dst.shmSz) :
    ∃ next,
      runLoop (gioCopyTurn reads writes) (src.shmSz + 1)
          { dst := dst, src := src, buf := stack, nbytes := src.shmSz } =
        some (some next) ∧
      Moves true dst src.memory src.shmSz next src.memory := by
  obtain ⟨result, finished, next, rfl, moves⟩ :=
    @runLoop_total _ _ (gioCopyTurn reads writes)
      (fun state => state.nbytes ≤ src.shmSz ∧
        Copies dst src (src.shmSz - state.nbytes) state)
      (fun result => ∃ next, result = some next ∧
        Moves true dst src.memory src.shmSz next src.memory)
      Copying.nbytes
      (by
        rintro state next ⟨bound, copies⟩ action
        have more : 0 < state.nbytes := by
          by_contra finished
          rw [gioCopyTurn, if_pos (by omega)] at action
          cases action
        obtain ⟨other, again, smaller, later⟩ := gioCopyTurn_again readable
          writable copies dstRewound more (by omega) (by omega)
        rw [again] at action
        cases action
        rw [show src.shmSz - state.nbytes + (state.nbytes - next.nbytes) =
          src.shmSz - next.nbytes by omega] at later
        exact ⟨⟨by omega, later⟩, smaller⟩)
      (by
        rintro state result ⟨bound, copies⟩ action
        by_cases finished : state.nbytes = 0
        · rw [gioCopyTurn, if_pos finished] at action
          cases action
          have written := copies.written
          rw [finished, Nat.sub_zero] at written
          exact ⟨_, rfl, written⟩
        · obtain ⟨other, again, -⟩ := gioCopyTurn_again readable writable copies
            dstRewound (by omega) (by omega) (by omega)
          rw [again] at action
          cases action)
      { dst := dst, src := src, buf := stack, nbytes := src.shmSz }
      (by
        refine ⟨Nat.le_refl _, ?_⟩
        dsimp only
        rw [Nat.sub_self]
        exact ⟨Moves.none true dstUsable _, rfl, srcRewound, srcUsable, rfl⟩)
      (src.shmSz + 1) (Nat.lt_succ_self _)
  exact ⟨next, finished, moves⟩

theorem toSize_natCast (platform : Platform) {value : Nat}
    (small : value < 2 ^ 32) :
    platform.toSize value = value := by
  have wide : 2 ^ 32 ≤ 2 ^ platform.sizeBits := by
    apply Nat.pow_le_pow_right (by decide)
    rcases platform.sizeWidths with narrow | wide <;> omega
  have below : (value : Int) < 2 ^ platform.sizeBits := by
    exact_mod_cast Nat.lt_of_lt_of_le small wide
  unfold Platform.toSize
  rw [Int.emod_eq_of_lt (Int.natCast_nonneg value) below, Int.toNat_natCast]

theorem seek_seekSet
    (platform : Platform) {shm : GioShm} (usable : shm.Usable)
    {position : Nat} (within : position ≤ shm.shmSz) :
    shm.seek platform position .seekSet =
      (.ok position, { shm with ioOffset := position }) := by
  have small := usable.size
  have newPos : shm.newPos platform position .seekSet = position :=
    toSize_natCast platform (by omega)
  unfold GioShm.seek
  simp only [newPos]
  rw [if_neg (by omega)]

theorem seek_seekCur
    (platform : Platform) {shm : GioShm} (usable : shm.Usable) :
    shm.seek platform 0 .seekCur = (.ok shm.ioOffset, shm) := by
  have small := usable.size
  have within := usable.offset
  have newPos : shm.newPos platform 0 .seekCur = shm.ioOffset := by
    show platform.toSize (shm.ioOffset + 0) = shm.ioOffset
    rw [Int.add_zero]
    exact toSize_natCast platform (by omega)
  unfold GioShm.seek
  simp only [newPos]
  rw [if_neg (by omega)]

theorem GioShm.Usable.moved
    {shm : GioShm} (usable : shm.Usable)
    {position : Nat} (within : position ≤ shm.shmSz) :
    GioShm.Usable { shm with ioOffset := position } :=
  ⟨usable.size, within, usable.window⟩

theorem gioCopy_copies
    (platform : Platform) {reads writes : Nat → MapAnswer}
    (readable : Maps reads) (writable : Maps writes) (stack : Buffer)
    {dst src : GioShm} (dstUsable : dst.Usable) (srcUsable : src.Usable)
    (larger : src.shmSz ≤ dst.shmSz) :
    ∃ next,
      gioCopy platform reads writes stack dst src src.shmSz = some next ∧
        next.shmSz = dst.shmSz ∧ next.ioOffset = src.ioOffset ∧
        next.Usable ∧
        next.memory = dst.memory.splice src.memory 0 src.shmSz := by
  have rewindSrc := seek_seekSet platform srcUsable (Nat.zero_le _)
  have rewindDst := seek_seekSet platform dstUsable (Nat.zero_le _)
  obtain ⟨next, finished, moves⟩ := runLoop_gioCopyTurn readable writable stack
    (dstUsable.moved (Nat.zero_le _)) (srcUsable.moved (Nat.zero_le _)) rfl rfl
    larger
  have within := srcUsable.offset
  have size : next.shmSz = dst.shmSz := moves.size
  refine ⟨{ next with ioOffset := src.ioOffset }, ?_, size, rfl,
    moves.usable.moved (by omega), moves.memory⟩
  unfold gioCopy
  simp only [Nat.cast_zero] at rewindSrc rewindDst
  simp only [seek_seekCur platform srcUsable, rewindSrc, rewindDst]
  dsimp only at finished
  rw [finished]
  simp only [Option.join_some]
  rw [seek_seekSet platform moves.usable (by omega)]

end Copy

end NativeClient.Gio
