import NativeClient.Plugin.StringEncoding

/-!
# Scripted access to shared memory

A script reads bytes of a shared memory as a string in UTF-8, and writes such
a string to it.  The loop that writes has a decoder of its own, and counts the
bytes of the string against the number of bytes that it was asked to write.
-/

namespace NativeClient.Plugin

open NativeClient.Library

/-- What is mapped at `shm_addr()`, if anything; `shm_size()` is its length. -/
structure SharedMemory where
  shmAddr : Option (List UInt8)

def rangeCheck (memory : SharedMemory) (offset len : UInt32) :
    Except String (List UInt8) :=
  match memory.shmAddr with
  | none => .error "Shared memory not mapped"
  | some contents =>
      if offset + len < offset then .error "Offset + length overflows"
      else if (offset + len).toNat > contents.length then
        .error "Offset + length overlaps end of shared memory"
      else .ok contents

def part (contents : List UInt8) (offset len : UInt32) : List UInt8 :=
  (contents.drop offset.toNat).take len.toNat

section Read

/-- The variables of the loop of `RpcRead`. -/
structure ReadState where
  i : Nat
  shmAddr : Nat
  out : Output

def readTurn (contents : List UInt8) (len : UInt32) (state : ReadState) :
    Turn ReadState Outcome :=
  if state.i < len.toNat then
    match contents[state.shmAddr]? with
    | none => .leave .fault
    | some c =>
        match putEncoded state.out c with
        | none => .leave .fault
        | some out => .again ⟨state.i + 1, state.shmAddr + 1, out⟩
  else .leave state.out.finish

structure ReadResult where
  outcome : Outcome
  exceptionString : Option String

/-- A string of `len` bytes takes more bytes than a `uint32_t` can count. -/
def TooLarge (len : UInt32) : Prop :=
  2 * len < len ∨ 2 * len + 1 < 2 * len

instance (len : UInt32) : Decidable (TooLarge len) :=
  inferInstanceAs (Decidable (_ ∨ _))

def rpcRead (platform : Platform) (memory : SharedMemory)
    (offset len : UInt32) : ReadResult :=
  match rangeCheck memory offset len with
  | .error exception => ⟨.failed, some exception⟩
  | .ok contents =>
      let utf8BufferLen := 2 * len
      if TooLarge len then
        ⟨.failed, some "len too large to hold requested UTF8 chars"⟩
      else
        let size := (utf8BufferLen + 1).toNat
        if platform.malloc size then
          ⟨(runLoop (readTurn contents len) (len.toNat + 1)
            ⟨0, offset.toNat, ⟨size, []⟩⟩).getD .fault, none⟩
        else ⟨.failed, some "out of memory"⟩

end Read

section Write

structure ScriptString where
  text : List UInt8
  noNul : 0 ∉ text
  behind : Nat → UInt8

def ScriptString.bytes (script : ScriptString) : List UInt8 :=
  script.text ++ [0]

def ScriptString.char (script : ScriptString) (position : Nat) : UInt8 :=
  script.bytes[position]?.getD (script.behind (position - script.bytes.length))

/-- The variables of the loop of `RpcWrite`: `str` and `shmAddr` are positions
in the string and in the memory.  `stored` and `reads` record what is stored
one after the other, and which positions of the string are read. -/
structure WriteState where
  i : Nat
  str : Nat
  shmAddr : Nat
  contents : List UInt8
  stored : List UInt8
  reads : List Nat

def WriteState.read (state : WriteState) (position : Nat) : WriteState :=
  { state with reads := state.reads ++ [position] }

/-- `*shm_addr = value` and the steps to the next character. -/
def WriteState.store (state : WriteState) (value : UInt8) (count : Nat) :
    Option WriteState :=
  if state.shmAddr < state.contents.length then
    some { state with
      i := (state.i + count) % 2 ^ 32
      str := state.str + count
      shmAddr := state.shmAddr + 1
      contents := state.contents.set state.shmAddr value
      stored := state.stored ++ [value] }
  else none

structure WriteResult where
  success : Bool
  exceptionString : Option String
  state : WriteState

def MaskTests (c1 c2 : UInt8) : Prop := c1 &&& 0xc3 = c1 ∧ c2 &&& 0xbf = c2

instance (c1 c2 : UInt8) : Decidable (MaskTests c1 c2) :=
  inferInstanceAs (Decidable (_ ∧ _))

def maskedValue (c1 c2 : UInt8) : UInt8 := (c1 <<< 6) ||| (c2 &&& 0x3f)

/-- One turn; `none` is a store outside of what is mapped. -/
def writeTurn (script : ScriptString) (len : UInt32) (utfBytes : Nat)
    (state : WriteState) : Turn WriteState (Option WriteResult) :=
  if state.i < len.toNat then
    let c1 := script.char state.str
    let first := state.read state.str
    if state.i ≥ utfBytes then .leave (some ⟨false, none, first⟩)
    else if c1 &&& 0x80 ≠ 0 then
      if state.i = len.toNat - 1 then .leave (some ⟨false, none, first⟩)
      else
        let c2 := script.char (state.str + 1)
        let second := first.read (state.str + 1)
        if ¬ MaskTests c1 c2 then
          .leave (some ⟨false, some "Bad utf8 character value", second⟩)
        else
          match second.store (maskedValue c1 c2) 2 with
          | none => .leave none
          | some next => .again next
    else
      match first.store c1 1 with
      | none => .leave none
      | some next => .again next
  else .leave (some ⟨true, none, state⟩)

def rpcWrite (memory : SharedMemory) (offset len : UInt32)
    (script : ScriptString) : Option WriteResult :=
  let start contents : WriteState := ⟨0, 0, offset.toNat, contents, [], []⟩
  match rangeCheck memory offset len with
  | .error exception =>
      some ⟨false, some exception, start (memory.shmAddr.getD [])⟩
  | .ok contents =>
      let utfBytes := min script.text.length (2 ^ 32 - 1)
      (runLoop (writeTurn script len utfBytes) (len.toNat + 1)
        (start contents)).getD none

def WriteResult.consumed (result : WriteResult) (script : ScriptString) :
    List UInt8 :=
  script.bytes.take result.state.str

end Write

section Reading

theorem rangeCheck_ok
    {memory : SharedMemory} {offset len : UInt32} {contents : List UInt8}
    (admissible : rangeCheck memory offset len = .ok contents) :
    offset.toNat + len.toNat ≤ contents.length := by
  unfold rangeCheck at admissible
  split at admissible
  next => cases admissible
  next =>
    split at admissible
    next => cases admissible
    next noOverflow =>
      split at admissible
      next => cases admissible
      next inside =>
        cases admissible
        have offsetBound := offset.toNat_lt
        have lenBound := len.toNat_lt
        rw [UInt32.lt_iff_toNat_lt, UInt32.toNat_add] at noOverflow
        rw [UInt32.toNat_add] at inside
        omega

theorem length_part
    {contents : List UInt8} {offset len : UInt32}
    (inside : offset.toNat + len.toNat ≤ contents.length) :
    (part contents offset len).length = len.toNat := by
  unfold part
  rw [List.length_take, List.length_drop]
  omega

theorem tooLarge_iff (len : UInt32) : TooLarge len ↔ 2 ^ 31 ≤ len.toNat := by
  have bound := len.toNat_lt
  unfold TooLarge
  simp only [UInt32.lt_iff_toNat_lt, UInt32.toNat_add, UInt32.toNat_mul]
  change 2 * len.toNat % 2 ^ 32 < _ ∨
    (2 * len.toNat % 2 ^ 32 + 1) % 2 ^ 32 < 2 * len.toNat % 2 ^ 32 ↔ _
  omega

theorem readTurn_eq
    {contents : List UInt8} {offset len : UInt32}
    (inside : offset.toNat + len.toNat ≤ contents.length)
    (state : LoopState) :
    readTurn contents len
        ⟨state.index, offset.toNat + state.index, state.output⟩ =
      (asTurn (part contents offset len) state).map fun state =>
        ⟨state.index, offset.toNat + state.index, state.output⟩ := by
  unfold readTurn asTurn
  rw [length_part inside]
  dsimp only
  split
  next below =>
    have here : (part contents offset len)[state.index]? =
        contents[offset.toNat + state.index]? := by
      unfold part
      rw [List.getElem?_take_of_lt below, List.getElem?_drop]
    rw [here]
    cases contents[offset.toNat + state.index]? with
    | none => rfl
    | some c =>
        dsimp only
        cases putEncoded state.output c with
        | none => rfl
        | some out => rfl
  next => rfl

theorem rpcRead_eq
    {memory : SharedMemory} {offset len : UInt32} {contents : List UInt8}
    (admissible : rangeCheck memory offset len = .ok contents)
    (small : ¬ TooLarge len)
    {platform : Platform} (wide : 32 ≤ platform.sizeBits) :
    (rpcRead platform memory offset len).outcome =
      byteStringAsUTF8 platform (part contents offset len) := by
  have inside := rangeCheck_ok admissible
  have bound := Nat.not_le.mp (mt (tooLarge_iff len).mpr small)
  have least : 2 ^ 32 ≤ 2 ^ platform.sizeBits :=
    Nat.pow_le_pow_right (by decide) wide
  have size : (2 * len + 1).toNat = 2 * len.toNat + 1 := by
    rw [UInt32.toNat_add, UInt32.toNat_mul]
    change (2 * len.toNat % 2 ^ 32 + 1) % 2 ^ 32 = _
    omega
  have sameSize : (len.toNat * 2 % 2 ^ platform.sizeBits + 1) %
      2 ^ platform.sizeBits = 2 * len.toNat + 1 := by
    have uncut : 2 * len.toNat % 2 ^ platform.sizeBits = 2 * len.toNat :=
      Nat.mod_eq_of_lt (by omega)
    rw [Nat.mul_comm, uncut, Nat.mod_eq_of_lt (by omega)]
  unfold rpcRead byteStringAsUTF8
  rw [admissible, length_part inside]
  dsimp only
  rw [if_neg small, size, sameSize]
  split
  next =>
    have loops := runLoop_map _ (readTurn_eq inside) (len.toNat + 1)
      ⟨0, ⟨2 * len.toNat + 1, []⟩⟩
    exact congrArg (fun result => result.getD .fault) loops
  next => rfl

end Reading

end NativeClient.Plugin
