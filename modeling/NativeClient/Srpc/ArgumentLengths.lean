import NativeClient.Srpc.ArgumentEncoding

/-!
# The length pass

Before a message is written, its bytes and handles are counted by functions of
their own.  For the vectors they agree with the functions that write, where
nothing overflows.  For the header they do not: the result is counted for
requests, and it is written for responses.
-/

namespace NativeClient.Srpc

open NativeClient.Library

variable {δ : Type}

structure Lengths where
  bytes : UInt32
  handles : UInt32
deriving DecidableEq

def Lengths.add (left right : Lengths) : Lengths :=
  ⟨left.bytes + right.bytes, left.handles + right.handles⟩

section Length

variable (sizeMax : Nat)

def basicLength (type : BasicType) (writeValue : Bool) : Lengths :=
  ⟨if writeValue then .ofNat type.size else 0, 0⟩

def arrLength (type : ArrayType) (writeValue : Bool) (elements : Elements type) :
    Lengths :=
  ⟨if writeValue then .ofNat (4 + type.size * elements.list.length) else 4, 0⟩

def handleLength (writeValue : Bool) : Lengths :=
  ⟨0, if writeValue then 1 else 0⟩

def abiSizeSaturate (size : Nat) : UInt32 :=
  .ofNat (if abiSizeMax < size then abiSizeMax else size)

def stringLength (writeValue : Bool) (str : CString) : Lengths :=
  ⟨if writeValue then abiSizeSaturate ((4 + str.chars.length) % (sizeMax + 1))
    else 0, 0⟩

/-- The `length` of the interface of the element; a null pointer has none. -/
def argLength (writeValue : Bool) : Arg δ → Option Lengths
  | .basic type _ => some (basicLength type writeValue)
  | .array type elements => some (arrLength type writeValue elements)
  | .handle _ => some (handleLength writeValue)
  | .string (some str) => some (stringLength sizeMax writeValue str)
  | .string none => if writeValue then none else some ⟨0, 0⟩
  | .other _ _ => some ⟨0, 0⟩

def lengthArgs (writeValue : Bool) : List (Arg δ) → Lengths → Option Lengths
  | [], tmp => some tmp
  | arg :: args, tmp => do
      let length ← argLength sizeMax writeValue arg
      lengthArgs writeValue args
        ⟨tmp.bytes + (1 + length.bytes), tmp.handles + length.handles⟩

/-- `ArgsLength`; without totals it fails. -/
def argsLengthTotals (writeValue : Bool) (args : List (Arg δ)) : Option Lengths :=
  if maxArgs ≤ args.length then none else lengthArgs sizeMax writeValue args ⟨4, 0⟩

def rpcLength (isRequest : Bool) : Lengths :=
  ⟨4 + 8 + 1 + 4 + (if isRequest then 4 else 0), 0⟩

def requestLength (args rets : List (Arg δ)) (start : Lengths) :
    Option Lengths := do
  let total := start.add (rpcLength true)
  let argLengths ← argsLengthTotals sizeMax true args
  let total := total.add argLengths
  let retLengths ← argsLengthTotals sizeMax false rets
  some (total.add retLengths)

def responseLength (rets : List (Arg δ)) (start : Lengths) : Option Lengths := do
  let total := start.add (rpcLength false)
  let retLengths ← argsLengthTotals sizeMax true rets
  some (total.add retLengths)

end Length

section Agreement

def Put.Adds (put : Put δ) (bytes descs : Nat) : Prop :=
  ∀ buffer after, put buffer = (true, after) →
    after.bytes.length = buffer.bytes.length + bytes ∧
      after.descs.length = buffer.descs.length + descs

theorem Put.adds_succeed : @Put.Adds δ Put.succeed 0 0 := by
  intro buffer after put
  cases put
  exact ⟨rfl, rfl⟩

theorem Put.andThen_cases
    {first second : Put δ} {buffer after : SendBuffer δ}
    (put : first.andThen second buffer = (true, after)) :
    ∃ middle, first buffer = (true, middle) ∧ second middle = (true, after) := by
  unfold Put.andThen at put
  dsimp only at put
  split at put
  · next succeeded =>
      exact ⟨(first buffer).2, Prod.ext succeeded rfl, put⟩
  · next failed =>
      rw [put] at failed
      exact absurd rfl failed

theorem Put.Adds.andThen
    {first second : Put δ} {bytes descs moreBytes moreDescs : Nat}
    (addsFirst : first.Adds bytes descs) (addsSecond : second.Adds moreBytes moreDescs) :
    (first.andThen second).Adds (bytes + moreBytes) (descs + moreDescs) := by
  intro buffer after put
  obtain ⟨middle, putFirst, putSecond⟩ := Put.andThen_cases put
  have firstAdds := addsFirst buffer middle putFirst
  have secondAdds := addsSecond middle after putSecond
  omega

theorem adds_putElements
    {sizeMax : Nat} {source : List UInt8} {eltSize nElt : Nat}
    (length : source.length = nElt * eltSize) (small : source.length < 2 ^ 32)
    (notMax : nElt ≠ abiSizeMax) :
    @Put.Adds δ (putElements sizeMax source eltSize nElt) source.length 0 := by
  intro buffer after put
  unfold putElements imcWrite at put
  dsimp only at put
  split at put
  · exact absurd (of_decide_eq_true (Prod.mk.inj put).1) (Ne.symm notMax)
  split at put
  · obtain ⟨-, rfl⟩ := Prod.mk.inj put
    have all : source.take (nElt * eltSize % 2 ^ 32) = source := by
      rw [← length, Nat.mod_eq_of_lt small, List.take_length]
    refine ⟨?_, List.length_append⟩
    simp only [SendBuffer.extend, all, List.length_append]
  · exact absurd (of_decide_eq_true (Prod.mk.inj put).1) (Ne.symm notMax)

theorem adds_imcWriteDesc (desc : δ) : Put.Adds (imcWriteDesc desc) 0 1 := by
  intro buffer after put
  unfold imcWriteDesc at put
  split at put
  · cases put
  · obtain ⟨-, rfl⟩ := Prod.mk.inj put
    exact ⟨List.length_append, List.length_append⟩

theorem adds_number (sizeMax width value : Nat) (small : width ≤ 8) :
    @Put.Adds δ (putElements sizeMax (littleEndian width value) width 1) width 0 := by
  have length : (littleEndian width value).length = width :=
    length_littleEndian width value
  have adds := @adds_putElements δ sizeMax (littleEndian width value) width 1
    (by rw [length, Nat.one_mul]) (by omega) (by decide)
  rwa [length] at adds

theorem adds_byte (sizeMax : Nat) (byte : UInt8) :
    @Put.Adds δ (putElements sizeMax [byte] 1 1) 1 0 :=
  adds_putElements rfl (by rw [List.length_singleton]; decide) (by decide)

def NoOverflow (writeValue : Bool) (args : List (Arg δ)) : Prop :=
  ∀ arg ∈ args, (encodeArg writeValue arg).bytes.length < 2 ^ 32

variable {sizeMax : Nat} {writeValue : Bool} {buffer after : SendBuffer δ}

private theorem adds_arrPut
    {type : ArrayType} {elements : Elements type}
    (small : (@encodeArg δ writeValue (.array type elements)).bytes.length < 2 ^ 32) :
    @Put.Adds δ (arrPut sizeMax type writeValue elements)
      (arrLength type writeValue elements).bytes.toNat 0 := by
  have count := @adds_number δ sizeMax 4 elements.list.length (by decide)
  cases writeValue with
  | false => exact count.andThen Put.adds_succeed
  | true =>
      have total : (@encodeArg δ true (.array type elements)).bytes.length =
          4 + elements.list.length * type.size := by
        simp only [encodeArg, if_true, List.length_append, length_littleEndian,
          length_bytesOfFields]
      have length := length_bytesOfFields elements.list
      have few : elements.list.length ≤ elements.list.length * type.size :=
        Nat.le_mul_of_pos_right _ type.size_pos
      have values := @adds_putElements δ sizeMax _ _ _ length (by omega) (by
        unfold abiSizeMax
        omega)
      have counted : (arrLength type true elements).bytes.toNat =
          4 + (bytesOfFields elements.list).length := by
        rw [arrLength, if_pos rfl, length, Nat.mul_comm type.size]
        exact UInt32.toNat_ofNat_of_lt' (by rw [← total]; exact small)
      rw [counted]
      exact count.andThen values

private theorem adds_stringPut
    (isSizeMax : IsSizeMax sizeMax) {str : CString}
    (small : (@encodeArg δ writeValue (.string (some str))).bytes.length < 2 ^ 32) :
    @Put.Adds δ (stringPut sizeMax writeValue str)
      (stringLength sizeMax writeValue str).bytes.toNat 0 := by
  cases writeValue with
  | false => exact Put.adds_succeed
  | true =>
      have total : (@encodeArg δ true (.string (some str))).bytes.length =
          4 + str.chars.length := by
        simp only [encodeArg, if_true, List.length_append, length_littleEndian]
      have counted : (stringLength sizeMax true str).bytes.toNat =
          4 + str.chars.length := by
        have whole : (4 + str.chars.length) % (sizeMax + 1) = 4 + str.chars.length :=
          Nat.mod_eq_of_lt (by rcases isSizeMax with same | same <;> omega)
        rw [stringLength, if_pos rfl, whole, abiSizeSaturate,
          if_neg (by unfold abiSizeMax; omega)]
        exact UInt32.toNat_ofNat_of_lt' (by rw [← total]; exact small)
      have values := @adds_putElements δ sizeMax str.chars 1 str.chars.length
        (Nat.mul_one _).symm (by omega) (by
          unfold abiSizeMax
          omega)
      rw [counted, stringPut, if_pos rfl, Nat.mod_eq_of_lt (by omega)]
      exact (adds_number sizeMax 4 _ (by decide)).andThen values

theorem argPut_adds
    (isSizeMax : IsSizeMax sizeMax) {arg : Arg δ}
    (small : (encodeArg writeValue arg).bytes.length < 2 ^ 32)
    (put : argPut sizeMax writeValue arg buffer = (true, after)) :
    ∃ lengths, argLength sizeMax writeValue arg = some lengths ∧
      after.bytes.length = buffer.bytes.length + lengths.bytes.toNat ∧
      after.descs.length = buffer.descs.length + lengths.handles.toNat := by
  cases arg with
  | basic type field =>
      refine ⟨_, rfl, ?_⟩
      cases writeValue with
      | false => exact Put.adds_succeed buffer after put
      | true =>
          rw [argPut, basicPut, if_pos rfl,
            take_littleEndian _ type.size_le_fieldSize] at put
          have counted : (basicLength type true).bytes.toNat = type.size := by
            cases type <;> rfl
          rw [counted]
          exact adds_number sizeMax _ _ type.size_le buffer after put
  | array type elements => exact ⟨_, rfl, adds_arrPut small buffer after put⟩
  | handle hval =>
      refine ⟨_, rfl, ?_⟩
      cases writeValue with
      | false => exact Put.adds_succeed buffer after put
      | true => exact adds_imcWriteDesc hval buffer after put
  | string str =>
      cases str with
      | none =>
          cases writeValue with
          | false => exact ⟨_, rfl, Put.adds_succeed buffer after put⟩
          | true => cases put
      | some str => exact ⟨_, rfl, adds_stringPut isSizeMax small buffer after put⟩
  | other tag invalid => cases put

/-- `counted` are the lengths of what was written between two buffers. -/
def CountedBetween (buffer after : SendBuffer δ) (counted : Lengths) : Prop :=
  ∃ bytes handles, counted = ⟨.ofNat bytes, .ofNat handles⟩ ∧
    after.bytes.length = buffer.bytes.length + bytes ∧
    after.descs.length = buffer.descs.length + handles

theorem CountedBetween.add
    {middle : SendBuffer δ} {first second : Lengths}
    (front : CountedBetween buffer middle first)
    (back : CountedBetween middle after second) :
    CountedBetween buffer after (first.add second) := by
  obtain ⟨bytes, handles, rfl, bytesAdded, handlesAdded⟩ := front
  obtain ⟨moreBytes, moreHandles, rfl, moreAdded, moreHandlesAdded⟩ := back
  refine ⟨bytes + moreBytes, handles + moreHandles, ?_, by omega, by omega⟩
  rw [UInt32.ofNat_add, UInt32.ofNat_add]
  rfl

theorem Put.Adds.counted
    {put : Put δ} {bytes descs : Nat} (adds : put.Adds bytes descs)
    (ran : put buffer = (true, after)) :
    CountedBetween buffer after ⟨.ofNat bytes, .ofNat descs⟩ :=
  ⟨bytes, descs, rfl, adds buffer after ran⟩

theorem Lengths.add_assoc (first second third : Lengths) :
    (first.add second).add third = first.add (second.add third) := by
  simp only [Lengths.add, UInt32.add_assoc]

theorem lengthArgs_counted
    (isSizeMax : IsSizeMax sizeMax) {args : List (Arg δ)}
    (noOverflow : NoOverflow writeValue args) (tmp : Lengths)
    (put : putArgs sizeMax writeValue args buffer = (true, after)) :
    ∃ counted, lengthArgs sizeMax writeValue args tmp = some (tmp.add counted) ∧
      CountedBetween buffer after counted := by
  induction args generalizing buffer tmp with
  | nil =>
      cases put
      refine ⟨⟨0, 0⟩, ?_, 0, 0, rfl, rfl, rfl⟩
      rw [lengthArgs, Lengths.add, UInt32.add_zero, UInt32.add_zero]
  | cons arg args ih =>
      obtain ⟨middle, putFirst, putRest⟩ := Put.andThen_cases put
      obtain ⟨tagged, putTag, putValue⟩ := Put.andThen_cases putFirst
      have atTag := (adds_byte sizeMax arg.tag).counted putTag
      obtain ⟨lengths, length, valueBytes, valueHandles⟩ :=
        argPut_adds isSizeMax (noOverflow arg List.mem_cons_self) putValue
      have atValue : CountedBetween tagged middle lengths := by
        refine ⟨_, _, ?_, valueBytes, valueHandles⟩
        rw [UInt32.ofNat_toNat, UInt32.ofNat_toNat]
      have restFits : NoOverflow writeValue args :=
        fun arg member => noOverflow arg (List.mem_cons_of_mem _ member)
      obtain ⟨counted, restLength, atRest⟩ :=
        ih restFits (tmp.add (Lengths.add ⟨1, 0⟩ lengths)) putRest
      refine ⟨(Lengths.add ⟨1, 0⟩ lengths).add counted, ?_,
        (atTag.add atValue).add atRest⟩
      rw [lengthArgs, length, ← Lengths.add_assoc, ← restLength]
      simp only [Lengths.add, UInt32.zero_add]
      rfl

theorem argsLengthTotals_counted
    (isSizeMax : IsSizeMax sizeMax) {args : List (Arg δ)}
    (noOverflow : NoOverflow writeValue args)
    (put : argsPut sizeMax writeValue args buffer = (true, after)) :
    ∃ counted, argsLengthTotals sizeMax writeValue args = some counted ∧
      CountedBetween buffer after counted := by
  unfold argsPut at put
  split at put
  · cases put
  next few =>
  obtain ⟨middle, putCount, putElements⟩ := Put.andThen_cases put
  have atCount := (adds_number sizeMax 4 _ (by decide)).counted putCount
  obtain ⟨counted, length, atElements⟩ :=
    lengthArgs_counted isSizeMax noOverflow ⟨4, 0⟩ putElements
  refine ⟨_, ?_, atCount.add atElements⟩
  rw [argsLengthTotals, if_neg few, length]
  rfl

end Agreement

section Messages

variable {sizeMax : Nat} {rpc : Rpc} {args rets : List (Arg δ)}
  {buffer after : SendBuffer δ}

theorem adds_rpcWrite (rpc : Rpc) :
    @Put.Adds δ (rpcWrite sizeMax rpc)
      (17 + if rpc.isRequest = 0 then 4 else 0) 0 := by
  have number : ∀ width value : Nat, width ≤ 8 →
      @Put.Adds δ (putElements sizeMax (littleEndian width value) width 1) width 0 :=
    adds_number sizeMax
  have last : @Put.Adds δ
      (if rpc.isRequest = 0 then
        putElements sizeMax (littleEndian 4 rpc.result.toNat) 4 1
      else .succeed) (if rpc.isRequest = 0 then 4 else 0) 0 := by
    split
    · exact number 4 _ (by decide)
    · exact Put.adds_succeed
  have bytes : (17 + if rpc.isRequest = 0 then 4 else 0) =
      4 + (8 + (1 + (4 + if rpc.isRequest = 0 then 4 else 0))) := by
    omega
  rw [bytes]
  exact (number 4 _ (by decide)).andThen <|
    (number 8 _ (by decide)).andThen <|
    (adds_byte sizeMax _).andThen <|
    (number 4 _ (by decide)).andThen last

def CountsMessage (put : Put δ) (length : Lengths → Option Lengths) : Prop :=
  ∃ after, put SendBuffer.empty = (true, after) ∧ ∀ start,
    length start =
      some (start.add ⟨.ofNat after.bytes.length, .ofNat after.descs.length⟩)

def RequestLengthAgrees (sizeMax : Nat) (rpc : Rpc) (args rets : List (Arg δ)) :
    Prop :=
  NoOverflow true args ∧ NoOverflow false rets ∧
    CountsMessage (requestPut sizeMax rpc args rets) (requestLength sizeMax args rets)

def ResponseLengthAgrees (sizeMax : Nat) (rpc : Rpc) (rets : List (Arg δ)) : Prop :=
  NoOverflow true rets ∧
    CountsMessage (responsePut sizeMax rpc rets) (responseLength sizeMax rets)

theorem requestLength_counted
    (isSizeMax : IsSizeMax sizeMax) (argsFit : NoOverflow true args)
    (retsFit : NoOverflow false rets)
    (put : requestPut sizeMax rpc args rets SendBuffer.empty = (true, after))
    (start : Lengths) :
    requestLength sizeMax args rets start = some (start.add
      ⟨.ofNat (after.bytes.length + 4), .ofNat after.descs.length⟩) := by
  obtain ⟨middle, putFirst, putRets⟩ := Put.andThen_cases put
  obtain ⟨header, putHeader, putArgs⟩ := Put.andThen_cases putFirst
  have headerAdds := adds_rpcWrite _ SendBuffer.empty header putHeader
  obtain ⟨argLengths, argLength, atArgs⟩ :=
    argsLengthTotals_counted isSizeMax argsFit putArgs
  obtain ⟨retLengths, retLength, atRets⟩ :=
    argsLengthTotals_counted isSizeMax retsFit putRets
  obtain ⟨bytes, handles, both, bytesAdded, handlesAdded⟩ := atArgs.add atRets
  have headerBytes : header.bytes.length = 17 := headerAdds.1
  have headerDescs : header.descs.length = 0 := headerAdds.2
  rw [bytesAdded, handlesAdded, headerBytes, headerDescs]
  simp only [requestLength, argLength, retLength, Option.bind_eq_bind,
    Option.bind_some, Lengths.add_assoc, both]
  rw [show 17 + bytes + 4 = 21 + bytes by omega, UInt32.ofNat_add, UInt32.ofNat_add]
  rfl

theorem responseLength_counted
    (isSizeMax : IsSizeMax sizeMax) (retsFit : NoOverflow true rets)
    (put : responsePut sizeMax rpc rets SendBuffer.empty = (true, after))
    (start : Lengths) :
    4 ≤ after.bytes.length ∧
      responseLength sizeMax rets start = some (start.add
        ⟨.ofNat (after.bytes.length - 4), .ofNat after.descs.length⟩) := by
  obtain ⟨header, putHeader, putRets⟩ := Put.andThen_cases put
  have headerAdds := adds_rpcWrite _ SendBuffer.empty header putHeader
  obtain ⟨retLengths, retLength, bytes, handles, rfl, bytesAdded, handlesAdded⟩ :=
    argsLengthTotals_counted isSizeMax retsFit putRets
  have headerBytes : header.bytes.length = 21 := headerAdds.1
  have headerDescs : header.descs.length = 0 := headerAdds.2
  rw [bytesAdded, handlesAdded, headerBytes, headerDescs]
  refine ⟨by omega, ?_⟩
  simp only [responseLength, retLength, Option.bind_eq_bind, Option.bind_some,
    Lengths.add_assoc]
  rw [show 21 + bytes - 4 = 17 + bytes by omega, UInt32.ofNat_add, UInt32.ofNat_add]
  rfl

private theorem bytes_ne
    {bytes handles : Nat} {start : Lengths}
    (same : start.add ⟨.ofNat bytes, .ofNat handles⟩ =
      start.add ⟨.ofNat (bytes + 4), .ofNat handles⟩) : False := by
  have values := congrArg (fun lengths => lengths.bytes.toNat) same
  simp only [Lengths.add, UInt32.toNat_add, UInt32.toNat_ofNat'] at values
  omega

/-- The length pass agrees with the encoder for no message: it is four bytes
above for requests and four bytes below for responses. -/
theorem length_pass_differs
    (isSizeMax : IsSizeMax sizeMax) (rpc : Rpc) (args rets : List (Arg δ)) :
    ¬ RequestLengthAgrees sizeMax rpc args rets ∧
      ¬ ResponseLengthAgrees sizeMax rpc rets ∧
      (NoOverflow true args → NoOverflow false rets → ∀ after,
        requestPut sizeMax rpc args rets SendBuffer.empty = (true, after) →
          ∀ start, requestLength sizeMax args rets start = some (start.add
            ⟨.ofNat (after.bytes.length + 4), .ofNat after.descs.length⟩)) ∧
      (NoOverflow true rets → ∀ after,
        responsePut sizeMax rpc rets SendBuffer.empty = (true, after) →
          ∀ start, responseLength sizeMax rets start = some (start.add
            ⟨.ofNat (after.bytes.length - 4), .ofNat after.descs.length⟩)) := by
  refine ⟨?_, ?_, ?_, ?_⟩
  · rintro ⟨argsFit, retsFit, after, put, counts⟩
    have counted := requestLength_counted isSizeMax argsFit retsFit put ⟨0, 0⟩
    rw [counts] at counted
    exact bytes_ne (Option.some.inj counted)
  · rintro ⟨retsFit, after, put, counts⟩
    obtain ⟨above, counted⟩ :=
      responseLength_counted isSizeMax retsFit put ⟨0, 0⟩
    rw [counts] at counted
    have split : after.bytes.length = after.bytes.length - 4 + 4 := by
      omega
    rw [split] at counted
    exact bytes_ne (Option.some.inj counted).symm
  · intro argsFit retsFit after put
    exact requestLength_counted isSizeMax argsFit retsFit put
  · intro retsFit after put start
    exact (responseLength_counted isSizeMax retsFit put start).2

private def header : Rpc := ⟨0xc0da0002, 1, 1, 7, resultOk⟩

theorem length_pass_differs_handle :
    (requestPut (2 ^ 64 - 1) header [.handle ()] [] SendBuffer.empty).1 = true ∧
      requestLength (2 ^ 64 - 1) [.handle ()] [] ⟨0, 0⟩ = some ⟨30, 1⟩ ∧
      ¬ RequestLengthAgrees (2 ^ 64 - 1) header [.handle ()] [] := by
  have whole := length_pass_differs (Or.inr rfl) header [.handle ()] []
  have fits : NoOverflow true [Arg.handle ()] := by
    intro arg member
    rw [List.mem_singleton.mp member]
    decide
  have counted := whole.2.2.1 fits (fun arg member => absurd member List.not_mem_nil)
    (requestPut (2 ^ 64 - 1) header [.handle ()] [] SendBuffer.empty).2
    (Prod.ext (by decide +kernel) rfl) ⟨0, 0⟩
  refine ⟨by decide +kernel, ?_, whole.1⟩
  rw [counted]
  decide +kernel

/-- A call without arguments is 25 bytes in both directions. -/
theorem length_pass_wrong_header :
    requestLength (2 ^ 64 - 1) ([] : List (Arg Unit)) [] ⟨0, 0⟩ = some ⟨29, 0⟩ ∧
      ¬ RequestLengthAgrees (2 ^ 64 - 1) header ([] : List (Arg Unit)) [] ∧
      responseLength (2 ^ 64 - 1) ([] : List (Arg Unit)) ⟨0, 0⟩ = some ⟨21, 0⟩ ∧
      ¬ ResponseLengthAgrees (2 ^ 64 - 1) header ([] : List (Arg Unit)) := by
  have request : (requestPut (2 ^ 64 - 1) header ([] : List (Arg Unit)) []
      SendBuffer.empty).2.bytes.length = 25 := by
    decide +kernel
  have response : (responsePut (2 ^ 64 - 1) header ([] : List (Arg Unit))
      SendBuffer.empty).2.bytes.length = 25 := by
    decide +kernel
  refine ⟨rfl, ?_, rfl, ?_⟩
  · rintro ⟨-, -, after, put, counts⟩
    rw [put] at request
    rw [request] at counts
    have bytes : some (29 : UInt32) = some (0 + .ofNat 25) :=
      congrArg (Option.map Lengths.bytes) (counts ⟨0, 0⟩)
    exact absurd bytes (by decide)
  · rintro ⟨-, after, put, counts⟩
    rw [put] at response
    rw [response] at counts
    have bytes : some (21 : UInt32) = some (0 + .ofNat 25) :=
      congrArg (Option.map Lengths.bytes) (counts ⟨0, 0⟩)
    exact absurd bytes (by decide)

end Messages

end NativeClient.Srpc
