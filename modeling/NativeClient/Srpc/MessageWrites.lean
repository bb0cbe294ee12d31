import Mathlib.Data.List.Induction
import NativeClient.Srpc.ArgumentEncoding

/-!
# Writing requests and responses

All messages of a channel are put together in the same buffer.  It is emptied
when it is handed to the transport, whether that succeeds or not, and nowhere
else.  A message that turns out not to fit after its first bytes stays in the
buffer, and the next message is written behind it.
-/

namespace NativeClient.Srpc

open NativeClient.Library

variable {δ : Type}

def resultInternal : UInt32 := 267

structure SendChannel (δ : Type) where
  buffer : SendBuffer δ
  handed : List (Datagram δ)

/-- `sent` tells whether the transport took the whole datagram. -/
def imcFlush (sent : Bool) (channel : SendChannel δ) : Bool × SendChannel δ :=
  (sent, ⟨.empty, channel.handed ++ [channel.buffer.datagram]⟩)

def argsLength (args : List (Arg δ)) : Bool := decide (args.length < maxArgs)

def requestWrite (sizeMax : Nat) (rpc : Rpc) (args rets : List (Arg δ))
    (sent : Bool) (channel : SendChannel δ) : Bool × SendChannel δ :=
  if ¬(argsLength args ∧ argsLength rets) then (false, channel)
  else
    let put := requestPut sizeMax rpc args rets channel.buffer
    let channel := { channel with buffer := put.2 }
    if put.1 then imcFlush sent channel else (false, channel)

/-- A response that the transport refuses is replaced by a header that tells
the client of an error.  The result is `ret_send_succeeded`. -/
def responseWrite (sizeMax : Nat) (rpc : Rpc) (rets : List (Arg δ))
    (sent sentError : Bool) (channel : SendChannel δ) : Bool × SendChannel δ :=
  if ¬argsLength rets then (false, channel)
  else
    let put := responsePut sizeMax rpc rets channel.buffer
    let channel := { channel with buffer := put.2 }
    if ¬put.1 then (false, channel)
    else
      let flushed := imcFlush sent channel
      if flushed.1 then (true, flushed.2)
      else
        let error := { rpc with result := resultInternal, isRequest := 0 }
        let written := rpcWrite sizeMax error flushed.2.buffer
        let channel := { flushed.2 with buffer := written.2 }
        if written.1 then (true, (imcFlush sentError channel).2)
        else (false, channel)

inductive Write (δ : Type) where
  | request (rpc : Rpc) (args rets : List (Arg δ)) (sent : Bool)
  | response (rpc : Rpc) (rets : List (Arg δ)) (sent sentError : Bool)

namespace Write

def perform (sizeMax : Nat) (channel : SendChannel δ) :
    Write δ → SendChannel δ
  | request rpc args rets sent =>
      (requestWrite sizeMax rpc args rets sent channel).2
  | response rpc rets sent sentError =>
      (responseWrite sizeMax rpc rets sent sentError channel).2

def TooMany : Write δ → Prop
  | request _ args rets _ => maxArgs ≤ args.length ∨ maxArgs ≤ rets.length
  | response _ rets _ _ => maxArgs ≤ rets.length

instance : (write : Write δ) → Decidable write.TooMany
  | request _ args rets _ =>
      inferInstanceAs (Decidable (maxArgs ≤ args.length ∨ maxArgs ≤ rets.length))
  | response _ rets _ _ => inferInstanceAs (Decidable (maxArgs ≤ rets.length))

def put (sizeMax : Nat) : Write δ → Put δ
  | request rpc args rets _ => requestPut sizeMax rpc args rets
  | response rpc rets _ _ => responsePut sizeMax rpc rets

def encoding : Write δ → Datagram δ
  | request rpc args rets _ =>
      (Datagram.append ⟨encodeRpc { rpc with isRequest := 1, result := resultOk }, []⟩
        (encodeArgs true args)).append (encodeArgs false rets)
  | response rpc rets _ _ =>
      Datagram.append ⟨encodeRpc { rpc with isRequest := 0 }, []⟩
        (encodeArgs true rets)

def Supported : Write δ → Prop
  | request _ args rets _ =>
      (∀ arg ∈ args, arg.Supported true) ∧ ∀ ret ∈ rets, ret.Supported false
  | response _ rets _ _ => ∀ ret ∈ rets, ret.Supported true

def Encodable (write : Write δ) : Prop :=
  write.Supported ∧ (SendBuffer.empty : SendBuffer δ).Room write.encoding

def errorDatagrams : Write δ → List (Datagram δ)
  | request _ _ _ _ => []
  | response rpc _ sent _ =>
      if sent then []
      else [⟨encodeRpc { rpc with result := resultInternal, isRequest := 0 }, []⟩]

def datagrams (write : Write δ) : List (Datagram δ) :=
  if write.TooMany then [] else write.encoding :: write.errorDatagrams

end Write

def performAll (sizeMax : Nat) (writes : List (Write δ)) : SendChannel δ :=
  writes.foldl (Write.perform sizeMax) ⟨.empty, []⟩

section Extends

def Put.Extends (put : Put δ) : Prop :=
  ∀ buffer, buffer.bytes <+: (put buffer).2.bytes

theorem Put.Extends.andThen
    {first second : Put δ} (extendsFirst : first.Extends)
    (extendsSecond : second.Extends) :
    (first.andThen second).Extends := by
  intro buffer
  rw [Put.andThen]
  split
  · exact (extendsFirst buffer).trans (extendsSecond _)
  · exact extendsFirst buffer

theorem Put.Extends.prefix_andThen
    {second : Put δ} (extendsSecond : second.Extends) (first : Put δ)
    (buffer : SendBuffer δ) :
    (first buffer).2.bytes <+: ((first.andThen second) buffer).2.bytes := by
  rw [Put.andThen]
  split
  · exact extendsSecond _
  · exact List.prefix_rfl

theorem Put.extends_succeed : @Put.Extends δ Put.succeed :=
  fun _ => List.prefix_rfl

theorem Put.extends_fail : @Put.Extends δ Put.fail :=
  fun _ => List.prefix_rfl

variable (sizeMax : Nat)

theorem extends_putElements (source : List UInt8) (eltSize nElt : Nat) :
    @Put.Extends δ (putElements sizeMax source eltSize nElt) := by
  intro buffer
  rw [putElements, imcWrite]
  split
  · exact List.prefix_rfl
  · dsimp only
    split
    · exact List.prefix_append _ _
    · exact List.prefix_rfl

theorem extends_argPut (writeValue : Bool) (arg : Arg δ) :
    (argPut sizeMax writeValue arg).Extends := by
  have elements := @extends_putElements δ sizeMax
  cases arg with
  | basic type field =>
      cases writeValue with
      | false => exact Put.extends_succeed
      | true => exact elements _ _ _
  | array type values =>
      cases writeValue with
      | false => exact (elements _ _ _).andThen Put.extends_succeed
      | true => exact (elements _ _ _).andThen (elements _ _ _)
  | handle hval =>
      cases writeValue with
      | false => exact Put.extends_succeed
      | true =>
          intro buffer
          simp only [argPut, handlePut, if_true, imcWriteDesc]
          split
          · exact List.prefix_rfl
          · exact List.prefix_append _ _
  | string str =>
      cases str with
      | none => cases writeValue <;> exact fun _ => List.prefix_rfl
      | some str =>
          cases writeValue with
          | false => exact Put.extends_succeed
          | true => exact (elements _ _ _).andThen (elements _ _ _)
  | other tag invalid => exact Put.extends_fail

theorem extends_argsPut (writeValue : Bool) (args : List (Arg δ)) :
    (argsPut sizeMax writeValue args).Extends := by
  have loop : (putArgs sizeMax writeValue args).Extends := by
    induction args with
    | nil => exact Put.extends_succeed
    | cons arg args ih =>
        exact ((extends_putElements sizeMax _ _ _).andThen
          (extends_argPut sizeMax writeValue arg)).andThen ih
  unfold argsPut
  split
  · exact Put.extends_fail
  · exact (extends_putElements sizeMax _ _ _).andThen loop

end Extends

section Failing

variable (sizeMax : Nat)

theorem argPut_unsupported
    {writeValue : Bool} {arg : Arg δ} (unsupported : ¬arg.Supported writeValue) :
    argPut sizeMax writeValue arg = .fail := by
  cases arg with
  | basic type field => exact absurd trivial unsupported
  | array type elements => exact absurd trivial unsupported
  | handle hval => exact absurd trivial unsupported
  | string str =>
      cases str with
      | none =>
          cases writeValue with
          | false => exact absurd rfl unsupported
          | true => rfl
      | some str => exact absurd trivial unsupported
  | other tag invalid => rfl

theorem Put.andThen_fails_left
    {first second : Put δ} {buffer : SendBuffer δ}
    (fails : (first buffer).1 = false) :
    ((first.andThen second) buffer).1 = false := by
  rw [Put.andThen, fails, if_neg (by decide)]
  exact fails

theorem Put.andThen_fails
    {first second : Put δ} (fails : ∀ buffer, (second buffer).1 = false)
    (buffer : SendBuffer δ) :
    ((first.andThen second) buffer).1 = false := by
  cases written : (first buffer).1 with
  | false => exact Put.andThen_fails_left written
  | true =>
      rw [Put.andThen, written, if_pos rfl]
      exact fails _

theorem argsPut_unsupported
    {writeValue : Bool} {args : List (Arg δ)}
    (unsupported : ¬∀ arg ∈ args, arg.Supported writeValue)
    (buffer : SendBuffer δ) :
    (argsPut sizeMax writeValue args buffer).1 = false := by
  have loop : ∀ buffer, (putArgs sizeMax writeValue args buffer).1 = false := by
    induction args with
    | nil => exact absurd (fun _ member => absurd member List.not_mem_nil) unsupported
    | cons arg args ih =>
        intro buffer
        by_cases first : arg.Supported writeValue
        · have rest : ¬∀ arg ∈ args, arg.Supported writeValue := fun rest =>
            unsupported (List.forall_mem_cons.mpr ⟨first, rest⟩)
          exact Put.andThen_fails (ih rest) buffer
        · refine Put.andThen_fails_left (Put.andThen_fails ?_ buffer)
          intro buffer
          rw [argPut_unsupported sizeMax first]
          rfl
  unfold argsPut
  split
  · rfl
  · exact Put.andThen_fails loop buffer

theorem Write.put_unsupported
    {write : Write δ} (unsupported : ¬write.Supported) (buffer : SendBuffer δ) :
    (write.put sizeMax buffer).1 = false := by
  cases write with
  | request rpc args rets sent =>
      by_cases first : ∀ arg ∈ args, arg.Supported true
      · exact Put.andThen_fails
          (argsPut_unsupported sizeMax fun rest => unsupported ⟨first, rest⟩) buffer
      · exact Put.andThen_fails_left
          (Put.andThen_fails (argsPut_unsupported sizeMax first) buffer)
  | response rpc rets sent sentError =>
      exact Put.andThen_fails (argsPut_unsupported sizeMax unsupported) buffer

end Failing

private theorem room_encodeRpc (rpc : Rpc) :
    (SendBuffer.empty : SendBuffer δ).Room ⟨encodeRpc rpc, []⟩ := by
  constructor
  · simp only [SendBuffer.empty, encodeRpc, List.length_append,
      length_littleEndian, List.length_nil, List.length_singleton,
      imcUserBytesMax]
    split <;> simp only [length_littleEndian, List.length_nil] <;> omega
  · exact Nat.zero_le _

private theorem encodeRpc_ne_nil (rpc : Rpc) : encodeRpc rpc ≠ [] := by
  intro none
  have length := congrArg List.length none
  simp only [encodeRpc, List.length_append, length_littleEndian,
    List.length_nil] at length
  omega

section Steps

variable {sizeMax : Nat} (isSizeMax : IsSizeMax sizeMax) {write : Write δ}
  {channel : SendChannel δ}

include isSizeMax

theorem Write.put_ne_nil (write : Write δ) :
    (write.put sizeMax .empty).2.bytes ≠ [] := by
  have header : ∀ rpc,
      ((rpcWrite sizeMax rpc) (.empty : SendBuffer δ)).2.bytes = encodeRpc rpc := by
    intro rpc
    rw [writes_rpcWrite isSizeMax rpc .empty (room_encodeRpc rpc)]
    rfl
  have starts : ∃ rpc, encodeRpc rpc <+: (write.put sizeMax .empty).2.bytes := by
    cases write with
    | request rpc args rets sent =>
        have first := (extends_argsPut sizeMax true args).prefix_andThen
          (rpcWrite sizeMax { rpc with isRequest := 1, result := resultOk }) .empty
        rw [header] at first
        exact ⟨_, first.trans
          ((extends_argsPut sizeMax false rets).prefix_andThen _ _)⟩
    | response rpc rets sent sentError =>
        have first := (extends_argsPut sizeMax true rets).prefix_andThen
          (rpcWrite sizeMax { rpc with isRequest := 0 }) .empty
        rw [header] at first
        exact ⟨_, first⟩
  obtain ⟨rpc, starts⟩ := starts
  intro none
  rw [none, List.prefix_nil] at starts
  exact encodeRpc_ne_nil rpc starts

theorem Write.put_encodable
    (few : ¬write.TooMany) (encodable : write.Encodable) :
    write.put sizeMax .empty = (true, SendBuffer.empty.extend _ encodable.2) := by
  cases write with
  | request rpc args rets sent =>
      rw [TooMany, not_or, Nat.not_le, Nat.not_le] at few
      have writes := ((writes_rpcWrite isSizeMax
        { rpc with isRequest := 1, result := resultOk }).andThen
          (writes_argsPut isSizeMax few.1 encodable.1.1)).andThen
            (writes_argsPut isSizeMax few.2 encodable.1.2)
      exact writes .empty encodable.2
  | response rpc rets sent sentError =>
      have writes := (writes_rpcWrite isSizeMax
        { rpc with isRequest := 0 }).andThen
          (writes_argsPut isSizeMax (Nat.not_le.mp few) encodable.1)
      exact writes .empty encodable.2

omit isSizeMax in
theorem Write.perform_tooMany
    (many : write.TooMany) (channel : SendChannel δ) :
    write.perform sizeMax channel = channel := by
  cases write with
  | request rpc args rets sent =>
      have refused : ¬(argsLength args ∧ argsLength rets) := by
        rw [TooMany, ← Nat.not_lt, ← Nat.not_lt] at many
        simp only [argsLength, decide_eq_true_eq]
        tauto
      rw [perform, requestWrite, if_pos refused]
  | response rpc rets sent sentError =>
      have refused : ¬argsLength rets := by
        simp only [argsLength, decide_eq_true_eq]
        exact Nat.not_lt.mpr many
      rw [perform, responseWrite, if_pos refused]

omit isSizeMax in
theorem Write.perform_failed
    (few : ¬write.TooMany)
    (failed : (write.put sizeMax channel.buffer).1 = false) :
    write.perform sizeMax channel =
      { channel with buffer := (write.put sizeMax channel.buffer).2 } := by
  cases write with
  | request rpc args rets sent =>
      rw [TooMany, not_or, Nat.not_le, Nat.not_le] at few
      have accepted : ¬¬(argsLength args ∧ argsLength rets) := by
        simpa only [argsLength, decide_eq_true_eq, not_not] using few
      rw [put] at failed
      rw [perform, requestWrite, if_neg accepted]
      simp only [failed]
      rfl
  | response rpc rets sent sentError =>
      have accepted : ¬¬argsLength rets := by
        simpa only [argsLength, decide_eq_true_eq, not_not] using Nat.not_le.mp few
      rw [put] at failed
      rw [perform, responseWrite, if_neg accepted]
      simp only [failed]
      rfl

theorem Write.perform_written
    (few : ¬write.TooMany)
    (written : (write.put sizeMax channel.buffer).1 = true) :
    write.perform sizeMax channel =
      ⟨.empty, channel.handed ++
        (write.put sizeMax channel.buffer).2.datagram ::
          write.errorDatagrams⟩ := by
  cases write with
  | request rpc args rets sent =>
      rw [TooMany, not_or, Nat.not_le, Nat.not_le] at few
      have accepted : ¬¬(argsLength args ∧ argsLength rets) := by
        simpa only [argsLength, decide_eq_true_eq, not_not] using few
      rw [put] at written
      rw [perform, requestWrite, if_neg accepted]
      simp only [written, if_true, imcFlush]
      rfl
  | response rpc rets sent sentError =>
      have accepted : ¬¬argsLength rets := by
        simpa only [argsLength, decide_eq_true_eq, not_not] using Nat.not_le.mp few
      rw [put] at written
      rw [perform, responseWrite, if_neg accepted]
      simp only [written, not_true_eq_false, if_false, imcFlush]
      cases sent with
      | true => rfl
      | false =>
          have error := @writes_rpcWrite δ sizeMax isSizeMax
            { rpc with result := resultInternal, isRequest := 0 } .empty
            (room_encodeRpc _)
          simp only [error, Bool.false_eq_true, if_false, if_true,
            List.append_assoc]
          rfl

theorem Write.perform_clean_iff
    (clean : channel.buffer = .empty) (write : Write δ) :
    write.perform sizeMax channel =
        ⟨.empty, channel.handed ++ write.datagrams⟩ ↔
      write.TooMany ∨ write.Encodable := by
  by_cases many : write.TooMany
  · rw [write.perform_tooMany many, datagrams, if_pos many, List.append_nil,
      ← clean]
    exact ⟨fun _ => Or.inl many, fun _ => rfl⟩
  have split : write.datagrams = write.encoding :: write.errorDatagrams := by
    rw [datagrams, if_neg many]
  rw [or_iff_right many]
  constructor
  · intro exact_step
    cases written : (write.put sizeMax channel.buffer).1 with
    | false =>
        -- The first bytes are in the buffer, so it is not empty.
        rw [write.perform_failed many written, SendChannel.mk.injEq] at exact_step
        have left := write.put_ne_nil isSizeMax
        rw [← clean, exact_step.1] at left
        exact absurd rfl left
    | true =>
        -- What is handed over is the encoding, so the encoding fits.
        rw [write.perform_written isSizeMax many written, SendChannel.mk.injEq,
          List.append_cancel_left_eq, split, List.cons.injEq] at exact_step
        have same := exact_step.2.1
        refine ⟨?_, ?_⟩
        · by_contra unsupported
          have failed := write.put_unsupported sizeMax unsupported channel.buffer
          rw [written] at failed
          cases failed
        · rw [← same]
          simp only [SendBuffer.Room, SendBuffer.empty, List.length_nil,
            Nat.zero_add]
          exact ⟨(write.put sizeMax channel.buffer).2.bytes_le,
            (write.put sizeMax channel.buffer).2.descs_le⟩
  · intro encodable
    have put : write.put sizeMax channel.buffer =
        (true, SendBuffer.empty.extend _ encodable.2) := by
      rw [clean]
      exact write.put_encodable isSizeMax many encodable
    have written : (write.put sizeMax channel.buffer).1 = true := by rw [put]
    rw [write.perform_written isSizeMax many written, split, put]
    rfl

end Steps

/-- All messages start with an empty buffer, and what is handed to the transport
is one whole message after the other, exactly if every message is refused for
its number of elements or has supported elements only and fits a buffer. -/
theorem messages_whole_iff
    {sizeMax : Nat} (isSizeMax : IsSizeMax sizeMax) (writes : List (Write δ)) :
    (∀ front, front <+: writes →
      (performAll sizeMax front).buffer = .empty ∧
        (performAll sizeMax front).handed = front.flatMap Write.datagrams) ↔
      ∀ write ∈ writes, write.TooMany ∨ write.Encodable := by
  induction writes using List.reverseRecOn with
  | nil =>
      constructor
      · intro _ write member
        exact absurd member List.not_mem_nil
      · intro _ front nothing
        rw [List.prefix_nil.mp nothing]
        exact ⟨rfl, rfl⟩
  | append_singleton writes write ih =>
      have last : performAll sizeMax (writes ++ [write]) =
          write.perform sizeMax (performAll sizeMax writes) := by
        rw [performAll, List.foldl_append]
        rfl
      have flat : (writes ++ [write]).flatMap Write.datagrams =
          writes.flatMap Write.datagrams ++ write.datagrams := by
        rw [List.flatMap_append, List.flatMap_singleton]
      constructor
      · intro whole write' member
        have before := whole writes (List.prefix_append _ _)
        have after := whole (writes ++ [write]) List.prefix_rfl
        rcases List.mem_append.mp member with early | late
        · exact ih.mp (fun front before =>
            whole front (before.trans (List.prefix_append _ _))) write' early
        · rw [List.mem_singleton.mp late,
            ← write.perform_clean_iff isSizeMax before.1, ← last, before.2,
            ← flat, ← after.2, ← after.1]
      · intro each front before
        have early := ih.mpr fun write' member =>
          each write' (List.mem_append_left _ member)
        rcases List.prefix_concat_iff.mp before with whole | shorter
        · have now := early writes List.prefix_rfl
          have step := (write.perform_clean_iff isSizeMax now.1).mpr
            (each write (List.mem_append_right _ List.mem_cons_self))
          rw [whole, last, step, flat, now.2]
          exact ⟨rfl, rfl⟩
        · exact early front shorter

section Examples

private def plainRpc : Rpc := ⟨0, 0, 1, 0, resultOk⟩

def plainRequest : Write Unit := .request plainRpc [] [] true

def manyHandles : Write Unit :=
  .request plainRpc (List.replicate 9 (.handle ())) [] true

theorem messages_whole_plain :
    IsSizeMax (2 ^ 64 - 1) ∧
    ∀ front, front <+: [plainRequest, plainRequest] →
      (performAll (2 ^ 64 - 1) front).buffer = .empty ∧
        (performAll (2 ^ 64 - 1) front).handed =
          front.flatMap Write.datagrams := by
  refine ⟨Or.inr rfl, (messages_whole_iff (Or.inr rfl) _).mpr ?_⟩
  have encodable : plainRequest.Encodable :=
    ⟨⟨by simp, by simp⟩, by decide, by decide⟩
  intro write member
  simp only [List.mem_cons, List.not_mem_nil, or_false, or_self] at member
  rw [member]
  exact Or.inr encodable

/-- The request after the one with too many handles starts with what was left
of that. -/
theorem messages_not_whole :
    (performAll (2 ^ 64 - 1) [manyHandles]).buffer.bytes ≠ [] ∧
      (performAll (2 ^ 64 - 1) [manyHandles, plainRequest]).handed.map
          Datagram.bytes ≠
        [plainRequest.encoding.bytes] := by
  constructor <;> decide +kernel

end Examples

end NativeClient.Srpc
