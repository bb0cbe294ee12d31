import NativeClient.Library.Runs
import Mathlib.Logic.Function.Basic
import Mathlib.Algebra.Group.Nat.Defs
import Mathlib.Algebra.Group.Int.Defs

/-!
# Descriptors with a quota

Threads read, write and seek through one quota descriptor, which passes the
calls on to the descriptor that it wraps.  A write takes the file offset, asks
for the quota there and writes, with the mutex held; a seek takes the mutex as
well, and a read does not.  What the host and the quota server answer is part
of the events.
-/

namespace NativeClient.Desc.Quota

open NativeClient.Library

structure HostFile where
  content : List UInt8
  offset : Nat
  append : Bool

inductive Whence where
  | seekSet
  | seekCur
  | seekEnd

namespace HostFile

/-- Where `lseek` goes; `none` if that is no offset. -/
def target (file : HostFile) (offset : Int) (whence : Whence) : Option Nat :=
  let base : Int :=
    match whence with
    | .seekSet => 0
    | .seekCur => file.offset
    | .seekEnd => file.content.length
  if 0 ≤ base + offset ∧ base + offset < 2 ^ 63 then
    some (base + offset).toNat
  else
    none

/-- Where `write` puts its first byte. -/
def writePlace (file : HostFile) : Nat :=
  if file.append then file.content.length else file.offset

/-- The part of the file before `place` is made of zeros where there was
nothing. -/
def write (file : HostFile) (bytes : List UInt8) : HostFile :=
  let place := file.writePlace
  { file with
    content :=
      file.content.take place ++
        List.replicate (place - file.content.length) 0 ++ bytes ++
        file.content.drop (place + bytes.length)
    offset := place + bytes.length }

end HostFile

inductive Answer where
  | failed (errno : Nat)
  | done (count : Nat)

def edquot : Int := 122

/-- Where a thread is.  `request` is the offset for which the quota was asked
and the amount that was granted; a write of no bytes asks for nothing. -/
inductive Phase where
  | idle (result : Int)
  | writeLocked (buf : List UInt8)
  | writeMeasured (buf : List UInt8) (fileOffset : Nat)
  | writeAllowed (buf : List UInt8) (request : Option (Nat × Nat))
      (allowed : Nat)
  | seekLocked (offset : Int) (whence : Whence)
  | unlocking (result : Int)

/-- A range of bytes that a write has put into the file, and the request that
it made before. -/
structure Written where
  start : Nat
  bytes : List UInt8
  request : Option (Nat × Nat)

/-- The descriptor and its threads.  The last two fields are for an observer:
what was written, and how many bytes were read since a write took the file
offset. -/
structure QuotaState (θ : Type) where
  file : HostFile
  mu : Option θ
  threads : θ → Phase
  written : List Written
  readSince : Nat

inductive Event (θ : Type) where
  | read (thread : θ) (len : Nat) (answer : Answer)
  | write (thread : θ) (buf : List UInt8)
  | writeSeek (thread : θ) (failed : Option Nat)
  | writeRequest (thread : θ) (allowed : Int)
  | writeData (thread : θ) (answer : Answer)
  | seek (thread : θ) (offset : Int) (whence : Whence)
  | seekMove (thread : θ) (failed : Option Nat)
  | unlock (thread : θ)

section

variable {θ : Type} [DecidableEq θ] (state : QuotaState θ) (thread : θ)

def QuotaState.go (phase : Phase) : QuotaState θ :=
  { state with threads := Function.update state.threads thread phase }

/-- `NaClXMutexLock`, which returns only when the mutex was free. -/
def QuotaState.lock (phase : Phase) : Option (QuotaState θ) :=
  if state.mu = none then
    some ({ state with mu := some thread }.go thread phase)
  else
    none

/-- `NaClDescQuotaRead`: one call of the host, at any time. -/
def naclDescQuotaRead (len : Nat) (answer : Answer) : Option (QuotaState θ) :=
  match state.threads thread, answer with
  | .idle _, .failed errno => some (state.go thread (.idle (-errno)))
  | .idle _, .done count =>
      if count ≤ len ∧ count ≤ state.file.content.length - state.file.offset then
        some ({ state with
          file := { state.file with offset := state.file.offset + count }
          readSince := state.readSince + count }.go thread (.idle count))
      else
        none
  | _, _ => none

def writeSeek (failed : Option Nat) : Option (QuotaState θ) :=
  match state.threads thread with
  | .writeLocked buf =>
      if buf.length = 0 then some (state.go thread (.writeAllowed buf none 0))
      else
        match failed with
        | some errno => some (state.go thread (.unlocking (-errno)))
        | none =>
            some ({ state with readSince := 0 }.go thread
              (.writeMeasured buf state.file.offset))
  | _ => none

/-- `NaClSrpcPepperWriteRequest` has answered. -/
def writeRequest (allowed : Int) : Option (QuotaState θ) :=
  match state.threads thread with
  | .writeMeasured buf fileOffset =>
      let len := min buf.length (2 ^ 63 - 1)
      if allowed ≤ 0 then
        some (state.go thread (.unlocking (-edquot)))
      else
        some (state.go thread (.writeAllowed buf
          (some (fileOffset, allowed.toNat)) (min allowed.toNat len)))
  | _ => none

/-- The wrapped descriptor's `Write`. -/
def writeData (answer : Answer) : Option (QuotaState θ) :=
  match state.threads thread, answer with
  | .writeAllowed _ _ _, .failed errno =>
      some (state.go thread (.unlocking (-errno)))
  | .writeAllowed buf request allowed, .done count =>
      if count ≤ allowed then
        let bytes := buf.take count
        some ({ state with
          file := if bytes = [] then state.file else state.file.write bytes
          written :=
            if bytes = [] then state.written
            else ⟨state.file.writePlace, bytes, request⟩ :: state.written }.go
              thread (.unlocking count))
      else
        none
  | _, _ => none

def seekMove (failed : Option Nat) : Option (QuotaState θ) :=
  match state.threads thread, failed with
  | .seekLocked _ _, some errno =>
      some (state.go thread (.unlocking (-errno)))
  | .seekLocked offset whence, none =>
      (state.file.target offset whence).map fun place =>
        { state with file := { state.file with offset := place } }.go thread
          (.unlocking place)
  | _, _ => none

def unlock : Option (QuotaState θ) :=
  match state.threads thread with
  | .unlocking result =>
      some ({ state with mu := none }.go thread (.idle result))
  | _ => none

def step : Event θ → Option (QuotaState θ)
  | .read thread len answer => naclDescQuotaRead state thread len answer
  | .write thread buf =>
      match state.threads thread with
      | .idle _ => state.lock thread (.writeLocked buf)
      | _ => none
  | .writeSeek thread failed => writeSeek state thread failed
  | .writeRequest thread allowed => writeRequest state thread allowed
  | .writeData thread answer => writeData state thread answer
  | .seek thread offset whence =>
      match state.threads thread with
      | .idle _ => state.lock thread (.seekLocked offset whence)
      | _ => none
  | .seekMove thread failed => seekMove state thread failed
  | .unlock thread => unlock state thread

end

def opened (θ : Type) (file : HostFile) : QuotaState θ where
  file := file
  mu := none
  threads _ := .idle 0
  written := []
  readSince := 0

end NativeClient.Desc.Quota
