import NativeClient.Library.Bytes
import NativeClient.Library.Loop
import NativeClient.Runtime.Addresses

/-!
# Buffered input and output over shared memory

`NaClGioShm` reads and writes a shared memory object of fixed size through a
window that is mapped as it is needed.  A call that does not return, because
the process is aborted or because it uses an address that is not mapped, has
no result.
-/

namespace NativeClient.Gio

open NativeClient.Library

def windowLimit : Nat := 16 * naclMapPagesize

def int32Max : Nat := 2 ^ 31 - 1

structure Platform where
  sizeBits : Nat
  offBits : Nat
  sizeWidths : sizeBits = 32 ∨ sizeBits = 64
  offWidths : offBits = 32 ∨ offBits = 64

def Platform.sizeMax (platform : Platform) : Nat :=
  2 ^ platform.sizeBits - 1

def Platform.offMax (platform : Platform) : Nat :=
  2 ^ (platform.offBits - 1) - 1

def Platform.toSize (platform : Platform) (value : Int) : Nat :=
  (value % 2 ^ platform.sizeBits).toNat

inductive Errno where
  | einval
  | enomem
  | eio
deriving DecidableEq

/-- What the system does for a call of `Map`.  If a page is not mapped, `unmaps`
is whether pages can be unmapped later at the address that `Map` returns. -/
inductive MapAnswer where
  | mapped
  | noAddressSpace
  | notMapped (unmaps : Bool)
deriving DecidableEq

/-- An address that `Map` returned, or an error number that it negated, where
`moveAddressSpace` is `E_MOVE_ADDRESS_SPACE`. -/
inductive MapResult where
  | address
  | negated (errno : Nat)
  | moveAddressSpace (unmaps : Bool)
deriving DecidableEq

/-- `NACL_ABI_MAP_FAILED`, which is `(void *) -1`. -/
def mapFailed : MapResult := .negated 1

def roundAllocPage (size : Nat) : Nat :=
  (size + naclMapPagesize - 1) / naclMapPagesize * naclMapPagesize

/-- `NaClDescImcShmMap`: `ENOMEM`, `EOVERFLOW` or `E_MOVE_ADDRESS_SPACE`. -/
def imcShmMap (answer : MapAnswer) (length offset : Nat) : MapResult :=
  match answer with
  | .noAddressSpace => .negated 12
  | .mapped =>
      if int32Max < roundAllocPage (offset + length) then .negated 139
      else .address
  | .notMapped unmaps =>
      if int32Max < roundAllocPage (offset + length) then .negated 139
      else .moveAddressSpace unmaps

/-- `struct NaClGioShm` with the bytes of its object; without a window
`cur_window` is `NULL`. -/
structure GioShm where
  ioOffset : Nat
  shmSz : Nat
  curWindow : Option MapResult
  windowOffset : Nat
  windowSize : Nat
  memory : Buffer

/-- Whether `NaClDescImcShmUnmapUnsafe` returns.  At the top of the address
space its loop does not run if the end of the window wraps around, and an
address that is not that of a page cannot be unmapped. -/
def unmapsWindow (windowSize : Nat) : Option MapResult → Bool
  | none | some .address => true
  | some (.negated errno) => decide (errno ≤ windowSize)
  | some (.moveAddressSpace unmaps) => unmaps

/-- `NaClGioShmSetWindow`, which aborts if the window is not unmapped. -/
def setWindow
    (maps : Nat → MapAnswer) (self : GioShm) (newWinOffset : Nat) :
    Option (Bool × GioShm) :=
  if newWinOffset % naclMapPagesize ≠ 0 then
    none
  else if self.shmSz ≤ newWinOffset then
    none
  else if unmapsWindow self.windowSize self.curWindow = false then
    none
  else
    let actualLen := min windowLimit (self.shmSz - newWinOffset)
    let mapResult := imcShmMap (maps newWinOffset) actualLen newWinOffset
    if mapResult = mapFailed then
      some (false, { self with curWindow := none, windowSize := 0 })
    else
      some (true,
        { self with
          curWindow := some mapResult
          windowSize := actualLen
          windowOffset := newWinOffset })

def GioShm.SeekRequired (self : GioShm) : Prop :=
  self.curWindow = none ∨ self.ioOffset < self.windowOffset ∨
    self.windowOffset + self.windowSize ≤ self.ioOffset

instance (self : GioShm) : Decidable self.SeekRequired :=
  inferInstanceAs (Decidable (_ ∨ _ ∨ _))

def bringWindow (maps : Nat → MapAnswer) (self : GioShm) :
    Option (Bool × GioShm) :=
  if self.SeekRequired then
    setWindow maps self (self.ioOffset / naclMapPagesize * naclMapPagesize)
  else
    some (true, self)

/-- The variables of the loop in `NaClGioShmReadOrWrite`; `buf` is the whole
buffer of the caller, of which `sofar` bytes are done. -/
structure Transfer where
  self : GioShm
  buf : Buffer
  count : Nat
  sofar : Nat

abbrev Transferred := Except Errno Nat × GioShm × Buffer

def GioShm.transfer (self : GioShm) (count : Nat) : Nat :=
  min count
    (min (self.windowOffset + self.windowSize) self.shmSz - self.ioOffset)

def Transfer.copy (isWrite : Bool) (state : Transfer) : Transfer :=
  let self := state.self
  let transfer := self.transfer state.count
  { self :=
      { self with
        ioOffset := self.ioOffset + transfer
        memory :=
          if isWrite then
            self.memory.splice (state.buf.shift state.sofar) self.ioOffset
              transfer
          else
            self.memory }
    buf :=
      if isWrite then
        state.buf
      else
        state.buf.splice (self.memory.shift self.ioOffset) state.sofar transfer
    count := state.count - transfer
    sofar := state.sofar + transfer }

/-- One turn of the loop; the three `CHECK`s abort, and so does a copy through
a window at an address that is none. -/
def readOrWriteTurn
    (maps : Nat → MapAnswer) (isWrite : Bool) (state : Transfer) :
    Turn Transfer (Option Transferred) :=
  if state.count = 0 ∨ state.self.shmSz ≤ state.self.ioOffset then
    .leave (some (.ok state.sofar, state.self, state.buf))
  else
    match bringWindow maps state.self with
    | none => .leave none
    | some (false, self) =>
        .leave (some
          (if state.sofar = 0 then .error .eio else .ok state.sofar,
            self, state.buf))
    | some (true, self) =>
        if self.ioOffset < self.windowOffset ∨
            self.windowOffset + self.windowSize ≤ self.ioOffset then
          .leave none
        else if windowLimit <
            min (self.windowOffset + self.windowSize) self.shmSz -
              self.ioOffset then
          .leave none
        else if self.curWindow ≠ some .address then
          .leave none
        else
          .again (Transfer.copy isWrite { state with self := self })

/-- `NaClGioShmReadOrWrite`: every turn copies a byte, so that `count` turns
and the last look are enough. -/
def readOrWrite
    (maps : Nat → MapAnswer) (isWrite : Bool) (self : GioShm)
    (buf : Buffer) (count : Nat) : Option Transferred :=
  (runLoop (readOrWriteTurn maps isWrite) (count + 1)
    { self := self, buf := buf, count := count, sofar := 0 }).join

inductive Whence where
  | seekSet
  | seekCur
  | seekEnd
  | other
deriving DecidableEq

/-- `NaClGioShmSeek`, in the arithmetic of `size_t`. -/
def GioShm.newPos
    (platform : Platform) (self : GioShm) (offset : Int) : Whence → Nat
  | .seekSet => platform.toSize offset
  | .seekCur => platform.toSize (self.ioOffset + offset)
  | .seekEnd => platform.toSize (self.shmSz + offset)
  | .other => platform.sizeMax

def GioShm.seek
    (platform : Platform) (self : GioShm) (offset : Int) (whence : Whence) :
    Except Errno Nat × GioShm :=
  let newPos := self.newPos platform offset whence
  if self.shmSz < newPos then
    (.error .einval, self)
  else
    (.ok newPos, { self with ioOffset := newPos })

/-- The object that `NaClGioShmCtorIntern` builds before it maps a window. -/
def GioShm.fresh (shmSize : Nat) : GioShm where
  ioOffset := 0
  shmSz := shmSize
  curWindow := none
  windowOffset := 0
  windowSize := 0
  memory := fun _ => 0

/-- `NaClGioShmCtorIntern`; a failure is cleaned up there and once more by the
caller, whose call goes through the table that the first one has cleared. -/
def ctorIntern
    (platform : Platform) (maps : Nat → MapAnswer) (shmSize : Nat) :
    Option GioShm :=
  if int32Max < shmSize then
    none
  else if platform.offMax < platform.sizeMax ∧ platform.offMax < shmSize then
    none
  else
    match setWindow maps (GioShm.fresh shmSize) 0 with
    | some (true, self) => some self
    | _ => none

/-- `NaClGioShmAllocCtor`; `created` is whether the memory for the object and
the shared memory itself were to be had.  The size is an `int64_t` there. -/
def allocCtor
    (platform : Platform) (created : Bool) (maps : Nat → MapAnswer)
    (shmSize : Nat) : Option (Option GioShm) :=
  if shmSize ≠ roundAllocPage shmSize then
    none
  else if created = false ∨ 2 ^ 63 ≤ shmSize then
    some none
  else
    (ctorIntern platform maps shmSize).map some

end NativeClient.Gio
