import NativeClient.Srpc.MessageHeaders

/-!
# Buffers of a channel

A channel has one buffer to write messages to and one to read them from.  Each
holds the bytes and the descriptors of one datagram.  A write that does not fit
leaves the buffer as it is and answers `-1`, which is a large number because
counts are unsigned.
-/

namespace NativeClient.Srpc

open NativeClient.Library

/-- `NACL_ABI_SIZE_T_MAX`, and the value of `-1` as a `nacl_abi_size_t`. -/
def abiSizeMax : Nat := 2 ^ 32 - 1

variable {δ : Type}

/-- The bytes before `next_byte` and the descriptors of the header. -/
structure SendBuffer (δ : Type) where
  bytes : List UInt8
  descs : List δ
  bytes_le : bytes.length ≤ imcUserBytesMax
  descs_le : descs.length ≤ descMax

namespace SendBuffer

def empty : SendBuffer δ := ⟨[], [], Nat.zero_le _, Nat.zero_le _⟩

def datagram (buffer : SendBuffer δ) : Datagram δ := ⟨buffer.bytes, buffer.descs⟩

def Room (buffer : SendBuffer δ) (datagram : Datagram δ) : Prop :=
  buffer.bytes.length + datagram.bytes.length ≤ imcUserBytesMax ∧
    buffer.descs.length + datagram.descs.length ≤ descMax

def extend (buffer : SendBuffer δ) (datagram : Datagram δ)
    (room : buffer.Room datagram) : SendBuffer δ where
  bytes := buffer.bytes ++ datagram.bytes
  descs := buffer.descs ++ datagram.descs
  bytes_le := by rw [List.length_append]; exact room.1
  descs_le := by rw [List.length_append]; exact room.2

end SendBuffer

/-- `sizeMax` is `SIZE_T_MAX`: the number of elements is compared with it, and
the number of bytes is then taken modulo `2 ^ 32`. -/
def imcWrite (sizeMax : Nat) (source : List UInt8) (eltSize nElt : Nat)
    (buffer : SendBuffer δ) : Nat × SendBuffer δ :=
  if sizeMax / eltSize ≤ nElt then (abiSizeMax, buffer)
  else
    let requestBytes := nElt * eltSize % 2 ^ 32
    if fits : buffer.bytes.length + requestBytes ≤ imcUserBytesMax then
      (nElt,
        buffer.extend ⟨source.take requestBytes, []⟩
          ⟨by have := List.length_take_le requestBytes source
              simp only; omega,
            buffer.descs_le⟩)
    else (abiSizeMax, buffer)

def imcWriteDesc (desc : δ) (buffer : SendBuffer δ) : Bool × SendBuffer δ :=
  if full : descMax ≤ buffer.descs.length then (false, buffer)
  else
    (true,
      buffer.extend ⟨[], [desc]⟩
        ⟨buffer.bytes_le, by simp only [List.length_singleton]; omega⟩)

structure ImcRead (δ : Type) where
  count : Nat
  bytes : List UInt8
  buffer : Datagram δ

def imcRead (eltSize nElt : Nat) (buffer : Datagram δ) : ImcRead δ :=
  if abiSizeMax / eltSize ≤ nElt then ⟨abiSizeMax, [], buffer⟩
  else if nElt * eltSize ≤ buffer.bytes.length then
    ⟨nElt, buffer.bytes.take (nElt * eltSize),
      { buffer with bytes := buffer.bytes.drop (nElt * eltSize) }⟩
  else ⟨abiSizeMax, [], buffer⟩

def imcReadDesc (invalidDesc : δ) (buffer : Datagram δ) : δ × Datagram δ :=
  match buffer.descs with
  | [] => (invalidDesc, buffer)
  | desc :: descs => (desc, { buffer with descs := descs })

/-- A step of a serialization: it tells whether it succeeded.  What it wrote
before a failure stays in the buffer. -/
abbrev Put (δ : Type) := SendBuffer δ → Bool × SendBuffer δ

namespace Put

def succeed : Put δ := fun buffer => (true, buffer)

def fail : Put δ := fun buffer => (false, buffer)

def andThen (first second : Put δ) : Put δ := fun buffer =>
  let written := first buffer
  if written.1 then second written.2 else written

def Writes (put : Put δ) (datagram : Datagram δ) : Prop :=
  ∀ (buffer : SendBuffer δ) (room : buffer.Room datagram),
    put buffer = (true, buffer.extend datagram room)

end Put

def putElements (sizeMax : Nat) (source : List UInt8) (eltSize nElt : Nat) :
    Put δ := fun buffer =>
  let written := imcWrite sizeMax source eltSize nElt buffer
  (decide (written.1 = nElt), written.2)

def getElements (eltSize nElt : Nat) (buffer : Datagram δ) :
    Option (List UInt8 × Datagram δ) :=
  let read := imcRead eltSize nElt buffer
  if read.count = nElt then some (read.bytes, read.buffer) else none

def noDatagram : Datagram δ := ⟨[], []⟩

def Datagram.append (front back : Datagram δ) : Datagram δ :=
  ⟨front.bytes ++ back.bytes, front.descs ++ back.descs⟩

theorem Datagram.append_assoc (first second third : Datagram δ) :
    (first.append second).append third = first.append (second.append third) := by
  simp only [append, List.append_assoc]

theorem SendBuffer.ext
    {left right : SendBuffer δ}
    (bytes : left.bytes = right.bytes) (descs : left.descs = right.descs) :
    left = right := by
  cases left
  cases right
  congr

theorem Put.writes_succeed : @Put.Writes δ Put.succeed noDatagram := by
  intro buffer room
  have same : buffer = buffer.extend noDatagram room :=
    SendBuffer.ext (List.append_nil _).symm (List.append_nil _).symm
  rw [Put.succeed, ← same]

theorem Put.Writes.andThen
    {first second : Put δ} {front back : Datagram δ}
    (writesFirst : first.Writes front) (writesSecond : second.Writes back) :
    (first.andThen second).Writes (front.append back) := by
  intro buffer room
  have firstRoom : buffer.Room front := by
    simp only [SendBuffer.Room, Datagram.append, List.length_append] at room ⊢
    omega
  have secondRoom : (buffer.extend front firstRoom).Room back := by
    simp only [SendBuffer.Room, SendBuffer.extend, Datagram.append,
      List.length_append] at room ⊢
    omega
  rw [Put.andThen, writesFirst buffer firstRoom]
  simp only [if_true, writesSecond _ secondRoom, Prod.mk.injEq, true_and]
  exact SendBuffer.ext (List.append_assoc _ _ _) (List.append_assoc _ _ _)

def IsSizeMax (sizeMax : Nat) : Prop :=
  sizeMax = 2 ^ 32 - 1 ∨ sizeMax = 2 ^ 64 - 1

private theorem lt_div_of_fits
    {limit eltSize nElt : Nat} (positive : 0 < eltSize)
    (fits : nElt * eltSize ≤ imcUserBytesMax) (small : eltSize ≤ 8)
    (large : 2 ^ 32 - 1 ≤ limit) :
    nElt < limit / eltSize := by
  rw [Nat.lt_div_iff_mul_lt positive]
  unfold imcUserBytesMax at fits
  omega

theorem writes_putElements
    {sizeMax : Nat} (isSizeMax : IsSizeMax sizeMax)
    {source : List UInt8} {eltSize nElt : Nat}
    (positive : 0 < eltSize) (small : eltSize ≤ 8)
    (length : source.length = nElt * eltSize) :
    @Put.Writes δ (putElements sizeMax source eltSize nElt) ⟨source, []⟩ := by
  intro buffer room
  have fits : buffer.bytes.length + nElt * eltSize ≤ imcUserBytesMax := by
    rw [← length]
    exact room.1
  have below : nElt < sizeMax / eltSize :=
    lt_div_of_fits positive (by omega) small
      (by rcases isSizeMax with same | same <;> omega)
  have exact_bytes : nElt * eltSize % 2 ^ 32 = nElt * eltSize := by
    unfold imcUserBytesMax at fits
    exact Nat.mod_eq_of_lt (by omega)
  have all : source.take (nElt * eltSize % 2 ^ 32) = source := by
    rw [exact_bytes, ← length, List.take_length]
  have fitsModulo :
      buffer.bytes.length + nElt * eltSize % 2 ^ 32 ≤ imcUserBytesMax := by
    rw [exact_bytes]
    exact fits
  rw [putElements, imcWrite, if_neg (Nat.not_le.mpr below)]
  simp only [dif_pos fitsModulo, all, decide_true]

theorem writes_imcWriteDesc (desc : δ) :
    Put.Writes (imcWriteDesc desc) ⟨[], [desc]⟩ := by
  intro buffer room
  have notFull : ¬descMax ≤ buffer.descs.length := by
    have bound := room.2
    simp only [List.length_singleton] at bound
    omega
  rw [imcWriteDesc, dif_neg notFull]

theorem getElements_append
    {source : List UInt8} {eltSize nElt : Nat}
    (positive : 0 < eltSize) (small : eltSize ≤ 8)
    (length : source.length = nElt * eltSize)
    (fits : source.length ≤ imcUserBytesMax)
    (following : List UInt8) (descs : List δ) :
    getElements eltSize nElt ⟨source ++ following, descs⟩ =
      some (source, ⟨following, descs⟩) := by
  have below : nElt < abiSizeMax / eltSize :=
    lt_div_of_fits positive (by omega) small (Nat.le_refl _)
  have enough : nElt * eltSize ≤ (source ++ following).length := by
    rw [List.length_append]
    omega
  rw [getElements, imcRead, if_neg (Nat.not_le.mpr below), if_pos enough]
  simp only [if_true, ← length, List.take_left, List.drop_left]

end NativeClient.Srpc
