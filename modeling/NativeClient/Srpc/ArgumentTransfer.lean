import NativeClient.Srpc.ArgumentRoundTrip

/-!
# Writing a vector and reading it back

A vector is written behind what is in the buffer already, and read by the peer
from the same place.  There are three ways to do this: the arguments of a
request, the template of its returns, and the returns of a response.
-/

namespace NativeClient.Srpc

open NativeClient.Library

variable {δ : Type}

/-- What the peer finds from the end of `before` on. -/
def SendBuffer.since (sent before : SendBuffer δ) (following : Datagram δ) :
    Datagram δ :=
  ⟨sent.bytes.drop before.bytes.length ++ following.bytes,
    sent.descs.drop before.descs.length ++ following.descs⟩

theorem SendBuffer.since_extend
    {before : SendBuffer δ} {datagram : Datagram δ} (room : before.Room datagram)
    (following : Datagram δ) :
    (before.extend datagram room).since before following =
      datagram.append following := by
  simp only [SendBuffer.since, SendBuffer.extend, List.drop_left, Datagram.append]

def Transfers (platform : Platform δ) (writeValue allocate readValue : Bool)
    (Same : Arg δ → Arg δ → Prop) (args argvec : List (Arg δ))
    (before : SendBuffer δ) (following : Datagram δ) : Prop :=
  ∃ sent got,
    argsPut platform.sizeMax writeValue args before = (true, sent) ∧
    argsGet platform allocate readValue argvec (args.map Arg.tag)
      (sent.since before following) = some (got, following) ∧
    List.Forall₂ Same got args

private theorem length_encodeArg_le
    {writeValue : Bool} {args : List (Arg δ)} {arg : Arg δ} (member : arg ∈ args) :
    (encodeArg writeValue arg).bytes.length ≤
      (encodeElements writeValue args).bytes.length := by
  induction args with
  | nil => exact absurd member List.not_mem_nil
  | cons first args ih =>
      simp only [encodeElements, encodeTagged, Datagram.append, List.length_append]
      rcases List.mem_cons.mp member with rfl | later
      · omega
      · have smaller := ih later
        omega

private theorem fits_of_room
    {writeValue : Bool} {args : List (Arg δ)} {before : SendBuffer δ}
    (room : before.Room (encodeArgs writeValue args)) :
    ∀ arg ∈ args, (encodeArg writeValue arg).bytes.length ≤ imcUserBytesMax := by
  intro arg member
  have smaller := @length_encodeArg_le δ writeValue args arg member
  have bound := room.1
  simp only [encodeArgs, Datagram.append, List.length_append] at bound
  omega

private theorem forall_zeroed
    {platform : Platform δ} {args : List (Arg δ)}
    {Relation : Arg δ → Arg δ → Prop}
    (each : ∀ arg ∈ args, Relation (zeroedArg platform arg.tag) arg) :
    List.Forall₂ Relation
      (args.map fun arg => zeroedArg platform arg.tag) args := by
  rw [List.forall₂_map_left_iff, List.forall₂_same]
  exact each

section Modes

variable {platform : Platform δ} (isSizeMax : IsSizeMax platform.sizeMax)
    (memory : ∀ size, (platform.malloc size).isSome)
    {args : List (Arg δ)} (few : args.length < maxArgs)

include isSizeMax memory few

private theorem transfers_iff
    {writeValue allocate readValue : Bool}
    {Same Condition : Arg δ → Arg δ → Prop}
    {argvec targets : List (Arg δ)} {before : SendBuffer δ}
    (supported : ∀ arg ∈ args, arg.Supported writeValue)
    (room : before.Room (encodeArgs writeValue args))
    (target : targets =
      if allocate then args.map fun arg => zeroedArg platform arg.tag else argvec)
    (each : List.Forall₂ (fun target arg => target.tag = arg.tag ∧
      Delivers platform writeValue allocate readValue Same
        (Condition target arg) target arg) targets args)
    (following : Datagram δ) :
    Transfers platform writeValue allocate readValue Same args argvec before
      following ↔ List.Forall₂ Condition targets args := by
  rw [← delivers_args memory few supported target each following]
  have written := writes_argsPut isSizeMax few supported before room
  constructor
  · rintro ⟨sent, got, put, get, same⟩
    obtain rfl : before.extend _ room = sent :=
      congrArg Prod.snd (written.symm.trans put)
    rw [SendBuffer.since_extend] at get
    exact ⟨got, get, same⟩
  · rintro ⟨got, get, same⟩
    refine ⟨before.extend _ room, got, written, ?_, same⟩
    rw [SendBuffer.since_extend]
    exact get

theorem transfers_request
    (supported : ∀ arg ∈ args, arg.Supported true) {before : SendBuffer δ}
    (room : before.Room (encodeArgs true args)) (argvec : List (Arg δ))
    (following : Datagram δ) :
    Transfers platform true true true (· = ·) args argvec before following ↔
      ∀ arg ∈ args, arg.BoolIsByte := by
  have each : ∀ arg ∈ args,
      (zeroedArg platform arg.tag).tag = arg.tag ∧
        Delivers platform true true true (· = ·) arg.BoolIsByte
          (zeroedArg platform arg.tag) arg := fun arg member =>
    ⟨tag_zeroedArg _, delivers_request memory (supported arg member)
      (fits_of_room room arg member)⟩
  rw [@transfers_iff δ platform isSizeMax memory args few true true true (· = ·)
    (fun _ arg => arg.BoolIsByte) argvec _ before supported room rfl
    (forall_zeroed each) following]
  exact Iff.trans List.forall₂_map_left_iff List.forall₂_same

theorem transfers_template
    (supported : ∀ arg ∈ args, arg.Supported false) {before : SendBuffer δ}
    (room : before.Room (encodeArgs false args)) (argvec : List (Arg δ))
    (following : Datagram δ) :
    Transfers platform false true false
      (fun got arg => got.template = arg.template) args argvec before following ↔
      ∀ arg ∈ args, arg.CountBelowLimit := by
  have each : ∀ arg ∈ args,
      (zeroedArg platform arg.tag).tag = arg.tag ∧
        Delivers platform false true false
          (fun got arg => got.template = arg.template) arg.CountBelowLimit
          (zeroedArg platform arg.tag) arg := fun arg member =>
    ⟨tag_zeroedArg _, delivers_template memory (supported arg member)⟩
  rw [@transfers_iff δ platform isSizeMax memory args few false true false
    (fun got arg => got.template = arg.template)
    (fun _ arg => arg.CountBelowLimit) argvec _ before supported room rfl
    (forall_zeroed each) following]
  exact Iff.trans List.forall₂_map_left_iff List.forall₂_same

theorem transfers_response
    (supported : ∀ arg ∈ args, arg.Supported true) {before : SendBuffer δ}
    (room : before.Room (encodeArgs true args)) {argvec : List (Arg δ)}
    (types : argvec.map Arg.tag = args.map Arg.tag) (following : Datagram δ) :
    Transfers platform true false true (· = ·) args argvec before following ↔
      List.Forall₂ Arg.Receives argvec args := by
  have tags : List.Forall₂ (fun target arg => Arg.tag target = Arg.tag arg)
      argvec args := by
    rw [← List.forall₂_eq_eq_eq, List.forall₂_map_left_iff,
      List.forall₂_map_right_iff] at types
    exact types
  have each : List.Forall₂ (fun target arg => Arg.tag target = Arg.tag arg ∧
      Delivers platform true false true (· = ·) (target.Receives arg)
        target arg) argvec args := by
    have members : List.Forall₂ (fun target arg =>
        arg ∈ args ∧ Arg.tag target = Arg.tag arg) argvec args :=
      ((List.forall₂_and_left args argvec).mpr
        ⟨fun arg member => member, tags.flip⟩).flip
    exact members.imp fun target arg both =>
      ⟨both.2, delivers_response memory both.2 (supported arg both.1)
        (fits_of_room room arg both.1)⟩
  exact transfers_iff isSizeMax memory few supported room rfl each following

end Modes

section Header

variable {sizeMax : Nat}

def HeaderTransfers (sizeMax : Nat) (rpc : Rpc) (before : SendBuffer δ)
    (following : Datagram δ) : Prop :=
  ∃ sent, rpcWrite sizeMax rpc before = (true, sent) ∧
    rpcGet (sent.since before following) = some (rpc, following)

theorem header_transfers
    (isSizeMax : IsSizeMax sizeMax) {rpc : Rpc}
    (ok : rpc.isRequest ≠ 0 → rpc.result = resultOk) {before : SendBuffer δ}
    (room : before.Room ⟨encodeRpc rpc, []⟩) (following : Datagram δ) :
    HeaderTransfers sizeMax rpc before following := by
  refine ⟨before.extend _ room, writes_rpcWrite isSizeMax rpc before room, ?_⟩
  rw [SendBuffer.since_extend, rpcGet_append]
  by_cases response : rpc.isRequest = 0
  · rw [if_pos response]
  · rw [if_neg response, ← ok response]

end Header

/-- Arguments of a request arrive if every bool is a byte.  Templates arrive if
their arrays are not too large to be allocated.  Returns arrive if the caller's
arrays have the counts that are sent and the caller's bools the same high bytes.
Headers of responses arrive as they are, and those of requests do because their
result is set before. -/
theorem arguments_round_trip
    {platform : Platform δ} (isSizeMax : IsSizeMax platform.sizeMax)
    (memory : ∀ size, (platform.malloc size).isSome) :
    (∀ args : List (Arg δ), args.length < maxArgs →
      (∀ arg ∈ args, arg.Supported true) →
      ∀ before : SendBuffer δ, before.Room (encodeArgs true args) →
      ∀ argvec following,
        Transfers platform true true true (· = ·) args argvec before following ↔
          ∀ arg ∈ args, arg.BoolIsByte) ∧
    (∀ args : List (Arg δ), args.length < maxArgs →
      (∀ arg ∈ args, arg.Supported false) →
      ∀ before : SendBuffer δ, before.Room (encodeArgs false args) →
      ∀ argvec following,
        Transfers platform false true false
          (fun got arg => got.template = arg.template) args argvec before
          following ↔ ∀ arg ∈ args, arg.CountBelowLimit) ∧
    (∀ args : List (Arg δ), args.length < maxArgs →
      (∀ arg ∈ args, arg.Supported true) →
      ∀ before : SendBuffer δ, before.Room (encodeArgs true args) →
      ∀ argvec, argvec.map Arg.tag = args.map Arg.tag → ∀ following,
        Transfers platform true false true (· = ·) args argvec before following ↔
          List.Forall₂ Arg.Receives argvec args) ∧
    (∀ rpc : Rpc, (rpc.isRequest ≠ 0 → rpc.result = resultOk) →
      ∀ before : SendBuffer δ, before.Room ⟨encodeRpc rpc, []⟩ →
      ∀ following, HeaderTransfers platform.sizeMax rpc before following) := by
  refine ⟨?_, ?_, ?_, ?_⟩
  · intro args few supported before room argvec following
    exact transfers_request isSizeMax memory few supported room argvec following
  · intro args few supported before room argvec following
    exact transfers_template isSizeMax memory few supported room argvec following
  · intro args few supported before room argvec types following
    exact transfers_response isSizeMax memory few supported room types following
  · intro rpc ok before room following
    exact header_transfers isSizeMax ok room following

section Examples

def zeroPlatform : Platform Unit where
  sizeMax := 2 ^ 64 - 1
  invalidDesc := ()
  zeroDesc := ()
  malloc := fun _ => some fun _ => 0
  argSize := 24

def intArray (list : List (Field 4)) (length : list.length < 2 ^ 32) : Arg Unit :=
  .array .int ⟨list, length⟩

def boolArg (value : Field 4) : Arg Unit := .basic .bool value

private theorem room_of_decide
    {datagram : Datagram Unit}
    (bytes : datagram.bytes.length ≤ imcUserBytesMax)
    (descs : datagram.descs.length ≤ descMax) :
    SendBuffer.empty.Room datagram := by
  simp only [SendBuffer.Room, SendBuffer.empty, List.length_nil, Nat.zero_add]
  exact ⟨bytes, descs⟩

theorem arguments_round_trip_pair :
    IsSizeMax zeroPlatform.sizeMax ∧
    (∀ size, (zeroPlatform.malloc size).isSome) ∧
    Transfers zeroPlatform true true true (· = ·)
      [boolArg 1, intArray [7, 8] (by decide)] [] .empty noDatagram := by
  refine ⟨Or.inr rfl, fun _ => rfl, ?_⟩
  refine ((@arguments_round_trip _ zeroPlatform (Or.inr rfl) fun _ => rfl).1
    _ (by decide) ?_ _ (room_of_decide (by decide) (by decide)) _ _).mpr ?_
  · simp [Arg.Supported, boolArg, intArray]
  · simp [Arg.BoolIsByte, boolArg, intArray]

/-- The server sends one element, and the caller's count stays two.  A bool of
`256` is sent as `0`. -/
theorem arguments_not_round_trip :
    ¬Transfers zeroPlatform true false true (· = ·)
        [intArray [7] (by decide)] [intArray [0, 0] (by decide)] .empty
        noDatagram ∧
      ¬Transfers zeroPlatform true true true (· = ·) [boolArg 256] [] .empty
        noDatagram := by
  constructor
  · intro transfers
    have same := (@transfers_response _ zeroPlatform (Or.inr rfl) (fun _ => rfl)
      [intArray [7] (by decide)] (by decide) (by simp [Arg.Supported, intArray]) _
      (room_of_decide (by decide) (by decide)) [intArray [0, 0] (by decide)] rfl
      noDatagram).mp transfers
    have counts : 2 = 1 := (List.forall₂_cons.mp same).1
    omega
  · intro transfers
    have bytes := (@transfers_request _ zeroPlatform (Or.inr rfl) (fun _ => rfl)
      [boolArg 256] (by decide) (by simp [Arg.Supported, boolArg]) _
      (room_of_decide (by decide) (by decide)) [] noDatagram).mp transfers
    have byte : 256 < 256 := bytes _ List.mem_cons_self
    omega

end Examples

end NativeClient.Srpc
