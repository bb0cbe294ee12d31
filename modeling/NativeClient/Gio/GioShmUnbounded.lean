import NativeClient.Gio.GioShm
import NativeClient.Library.Holding
import NativeClient.Library.Runs

/-!
# Shared memory that grows

`NaClGioShmUnbounded` replaces its `NaClGioShm` by one of twice the size when a
write would go past the end.  `MemoryFile` is what it is meant to be: a file in
memory that is as long as the largest offset written.
-/

namespace NativeClient.Gio

open NativeClient.Library

/-- `sizeof buf` in `GioCopy`. -/
def copyLimit : Nat := 4096

/-- The inner loop of `GioCopy`; it passes `buf`, and not the `bufp` that it
moves on. -/
def copyOutTurn (maps : Nat → MapAnswer) (buf : Buffer) (state : GioShm × Nat) :
    Turn (GioShm × Nat) (Option GioShm) :=
  if state.2 = 0 then
    .leave (some state.1)
  else
    match readOrWrite maps true state.1 buf state.2 with
    | some (.ok got, dst, _) =>
        if got = 0 ∨ state.2 < got then .leave none
        else .again (dst, state.2 - got)
    | _ => .leave none

def copyOut (maps : Nat → MapAnswer) (dst : GioShm) (buf : Buffer) (ask : Nat) :
    Option GioShm :=
  (runLoop (copyOutTurn maps buf) (ask + 1) (dst, ask)).join

/-- The variables of the outer loop of `GioCopy`. -/
structure Copying where
  dst : GioShm
  src : GioShm
  buf : Buffer
  nbytes : Nat

def gioCopyTurn (reads writes : Nat → MapAnswer) (state : Copying) :
    Turn Copying (Option GioShm) :=
  if state.nbytes = 0 then
    .leave (some state.dst)
  else
    let ask := min copyLimit state.nbytes
    match readOrWrite reads false state.src state.buf ask with
    | some (.ok got, src, buf) =>
        if got = 0 ∨ ask < got then .leave none
        else
          match copyOut writes state.dst buf got with
          | none => .leave none
          | some dst =>
              .again
                { dst := dst, src := src, buf := buf,
                  nbytes := state.nbytes - got }
    | _ => .leave none

/-- `GioCopy`, which aborts when a call fails.  The buffer on the stack holds
anything at first. -/
def gioCopy
    (platform : Platform) (reads writes : Nat → MapAnswer) (stack : Buffer)
    (dst src : GioShm) (nbytes : Nat) : Option GioShm :=
  match src.seek platform 0 .seekCur with
  | (.error _, _) => none
  | (.ok curOffset, src) =>
      match src.seek platform 0 .seekSet, dst.seek platform 0 .seekSet with
      | (.ok _, src), (.ok _, dst) =>
          match (runLoop (gioCopyTurn reads writes) (nbytes + 1)
            { dst := dst, src := src, buf := stack, nbytes := nbytes }).join with
          | none => none
          | some dst =>
              match dst.seek platform curOffset .seekSet with
              | (.error _, _) => none
              | (.ok _, dst) => some dst
      | _, _ => none

structure Unbounded where
  ngsp : GioShm
  shmAvailSz : Nat
  shmWritten : Nat
  ioOffset : Nat

structure Answers where
  created : Bool
  maps : Nat → MapAnswer
  copyReads : Nat → MapAnswer
  copyWrites : Nat → MapAnswer
  stack : Buffer

/-- The largest size, a page below the end of what `size_t` counts. -/
def Platform.largest (platform : Platform) : Nat :=
  platform.sizeMax - naclMapPagesize + 1

/-- The doubling of `new_avail_sz`, or `ENOMEM`. -/
def doublingTurn (platform : Platform) (ioOffset newAvailSz : Nat) :
    Turn Nat (Option Nat) :=
  if ioOffset ≤ newAvailSz then
    .leave (some newAvailSz)
  else if newAvailSz ≤ platform.sizeMax / 2 then
    .again (2 * newAvailSz % 2 ^ platform.sizeBits)
  else if platform.largest ≤ newAvailSz then
    .leave none
  else
    .again platform.largest

def grow
    (platform : Platform) (answers : Answers) (self : Unbounded)
    (newAvailSz : Nat) : Option (Option Unbounded) :=
  if newAvailSz = self.shmAvailSz then
    some (some self)
  else
    match allocCtor platform answers.created answers.copyWrites newAvailSz with
    | none => none
    | some none => some none
    | some (some ngsp) =>
        match gioCopy platform answers.copyReads answers.copyWrites
          answers.stack ngsp self.ngsp self.shmAvailSz with
        | none => none
        | some ngsp =>
            some (some { self with ngsp := ngsp, shmAvailSz := newAvailSz })

/-- The last part of `NaClGioShmUnboundedWrite`, after the growth. -/
def Unbounded.put (answers : Answers) (self : Unbounded) (bytes : List UInt8) :
    Option (Except Errno Nat × Unbounded) :=
  match readOrWrite answers.maps true self.ngsp (Buffer.ofList bytes)
    bytes.length with
  | none => none
  | some (.error errno, ngsp, _) => some (.error errno, { self with ngsp := ngsp })
  | some (.ok retval, ngsp, _) =>
      if bytes.length < retval then
        some (.error .eio, { self with ngsp := ngsp })
      else
        some (.ok retval,
          { self with
            ngsp := ngsp
            shmWritten := max self.shmWritten (self.ioOffset + retval)
            ioOffset := self.ioOffset + retval })

def Unbounded.write
    (platform : Platform) (answers : Answers) (self : Unbounded)
    (bytes : List UInt8) : Option (Except Errno Nat × Unbounded) :=
  if platform.sizeMax - self.ioOffset < bytes.length then
    some (.error .einval, self)
  else
    match runLoop (doublingTurn platform (self.ioOffset + bytes.length))
      (platform.sizeBits + 2) self.shmAvailSz with
    | none => none
    | some none => some (.error .enomem, self)
    | some (some newAvailSz) =>
        match grow platform answers self newAvailSz with
        | none => none
        | some none => some (.error .enomem, self)
        | some (some self) => self.put answers bytes

/-- `NaClGioShmUnboundedRead`, with the bytes that it puts into the buffer. -/
def Unbounded.read (answers : Answers) (self : Unbounded) (count : Nat) :
    Option (Except Errno (List UInt8) × Unbounded) :=
  if self.shmWritten ≤ self.ioOffset then
    some (.ok [], self)
  else
    match readOrWrite answers.maps false self.ngsp answers.stack
      (min count (self.shmWritten - self.ioOffset)) with
    | none => none
    | some (.error errno, ngsp, _) =>
        some (.error errno, { self with ngsp := ngsp })
    | some (.ok got, ngsp, buf) =>
        some (.ok (bytesAt buf 0 got),
          { self with ngsp := ngsp, ioOffset := self.ioOffset + got })

def Unbounded.seek
    (platform : Platform) (self : Unbounded) (offset : Int) (whence : Whence) :
    Except Errno Nat × Unbounded :=
  match self.ngsp.seek platform offset whence with
  | (.error errno, ngsp) => (.error errno, { self with ngsp := ngsp })
  | (.ok newPos, ngsp) =>
      (.ok newPos, { self with ngsp := ngsp, ioOffset := newPos })

def unboundedCtor
    (platform : Platform) (created : Bool) (maps : Nat → MapAnswer) :
    Option (Option Unbounded) :=
  (allocCtor platform created maps naclMapPagesize).map fun built =>
    built.map fun ngsp =>
      { ngsp := ngsp, shmAvailSz := naclMapPagesize, shmWritten := 0, ioOffset := 0 }

inductive Call where
  | read (count : Nat)
  | write (bytes : List UInt8)
  | seek (offset : Int) (whence : Whence)

inductive Response where
  | failed (errno : Errno)
  | got (bytes : List UInt8)
  | wrote (count : Nat)
  | moved (position : Nat)
deriving DecidableEq

def respond {α : Type} (good : α → Response) : Except Errno α → Response
  | .error errno => .failed errno
  | .ok value => good value

def Unbounded.call
    (platform : Platform) (answers : Answers) (self : Unbounded) :
    Call → Option (Response × Unbounded)
  | .read count =>
      (self.read answers count).map fun done => (respond .got done.1, done.2)
  | .write bytes =>
      (self.write platform answers bytes).map fun done =>
        (respond .wrote done.1, done.2)
  | .seek offset whence =>
      let done := self.seek platform offset whence
      some (respond .moved done.1, done.2)

def step (platform : Platform) :
    Option Unbounded → Answers × Call → Option (Option Unbounded)
  | none, _ => none
  | some self, (answers, call) =>
      some ((self.call platform answers call).map Prod.snd)

section MemoryFile

structure MemoryFile where
  contents : Buffer
  length : Nat
  offset : Nat

def MemoryFile.write (file : MemoryFile) (bytes : List UInt8) : MemoryFile :=
  if bytes = [] then
    file
  else
    { contents :=
        file.contents.splice (Buffer.ofList bytes) file.offset bytes.length
      length := max file.length (file.offset + bytes.length)
      offset := file.offset + bytes.length }

def MemoryFile.available (file : MemoryFile) (count : Nat) : Nat :=
  min count (file.length - file.offset)

def MemoryFile.target (file : MemoryFile) (offset : Int) : Whence → Option Int
  | .seekSet => some offset
  | .seekCur => some (file.offset + offset)
  | .seekEnd => some (file.length + offset)
  | .other => none

/-- What a file may do.  Only `trouble`, an allocation or a mapping that fails,
keeps a call from doing all of what it was asked for, apart from a write that
would end beyond the `limit` of the size and a seek to before the start, to after
the end, or from a place that there is not. -/
inductive MemoryFile.Does (limit : Nat) (trouble : Prop) :
    MemoryFile → Call → Response → MemoryFile → Prop where
  | read {file : MemoryFile} {count done : Nat}
      (within : done ≤ file.available count)
      (part : done < file.available count → trouble ∧ 0 < done) :
      Does limit trouble file (.read count)
        (.got (bytesAt file.contents file.offset done))
        { file with offset := file.offset + done }
  | readFails {file : MemoryFile} {count : Nat} {errno : Errno}
      (because : trouble) :
      Does limit trouble file (.read count) (.failed errno) file
  | write {file : MemoryFile} {bytes : List UInt8} {done : Nat}
      (within : done ≤ bytes.length)
      (part : done < bytes.length → trouble ∧ 0 < done) :
      Does limit trouble file (.write bytes) (.wrote done)
        (file.write (bytes.take done))
  | writeFails {file : MemoryFile} {bytes : List UInt8} {errno : Errno}
      (because : trouble ∨ limit < file.offset + bytes.length) :
      Does limit trouble file (.write bytes) (.failed errno) file
  | seek {file : MemoryFile} {offset : Int} {whence : Whence} {position : Nat}
      (there : file.target offset whence = some (position : Int)) :
      Does limit trouble file (.seek offset whence) (.moved position)
        { file with offset := position }
  | seekFails
      {file : MemoryFile} {offset : Int} {whence : Whence} {errno : Errno}
      (because : ∀ target, file.target offset whence = some target →
        target < 0 ∨ file.length < target) :
      Does limit trouble file (.seek offset whence) (.failed errno) file

end MemoryFile

def Unbounded.file (self : Unbounded) : MemoryFile where
  contents := fun address =>
    if address < self.shmWritten then self.ngsp.memory address else 0
  length := self.shmWritten
  offset := self.ioOffset

def Answers.Trouble (answers : Answers) : Prop :=
  answers.created = false ∨
    ∃ offset, answers.maps offset ≠ .mapped ∨
      answers.copyReads offset ≠ .mapped ∨ answers.copyWrites offset ≠ .mapped

/-- The largest file: beyond it the next size is not a `size_t` a page long, or
not an `int64_t`. -/
def Platform.limit (platform : Platform) : Nat :=
  min platform.largest (2 ^ 62)

def Behaves (platform : Platform) :
    Option Unbounded → Answers × Call → Prop
  | none, _ => False
  | some self, (answers, call) =>
      ∃ response next,
        self.call platform answers call = some (response, next) ∧
          MemoryFile.Does platform.limit answers.Trouble self.file call
            response next.file

end NativeClient.Gio
