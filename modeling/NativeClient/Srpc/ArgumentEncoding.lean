import NativeClient.Srpc.Arguments

/-!
# What a vector of arguments is on the wire

`encodeArg` gives the bytes and the descriptors of one element.  Where there is
room for them, `ArgsPut` writes the number of elements and then the tag and the
encoding of each.  Reading starts with the same lengths and ends behind them,
whatever follows.
-/

namespace NativeClient.Srpc

open NativeClient.Library

variable {δ : Type}

section Sizes

theorem BasicType.size_pos (type : BasicType) : 0 < type.size := by
  cases type <;> decide

theorem BasicType.size_le (type : BasicType) : type.size ≤ 8 := by
  cases type <;> decide

theorem BasicType.size_le_fieldSize (type : BasicType) :
    type.size ≤ type.fieldSize := by
  cases type <;> decide

theorem ArrayType.size_pos (type : ArrayType) : 0 < type.size := by
  cases type <;> decide

theorem ArrayType.size_le (type : ArrayType) : type.size ≤ 8 := by
  cases type <;> decide

end Sizes

section Fields

@[simp] theorem length_bytesOfFields {size : Nat} (fields : List (Field size)) :
    (bytesOfFields fields).length = fields.length * size := by
  induction fields with
  | nil => simp [bytesOfFields]
  | cons field fields ih =>
      unfold bytesOfFields at ih ⊢
      rw [List.flatMap_cons, List.length_append, ih, length_littleEndian,
        List.length_cons, Nat.succ_mul, Nat.add_comm]

theorem fieldsOfBytes_bytesOfFields {size : Nat} (fields : List (Field size)) :
    fieldsOfBytes size fields.length (bytesOfFields fields) = fields := by
  induction fields with
  | nil => rfl
  | cons field fields ih =>
      have split : bytesOfFields (field :: fields) =
          littleEndian size field ++ bytesOfFields fields := rfl
      have first : fieldOfBytes size (bytesOfFields (field :: fields)) = field := by
        apply Fin.ext
        simp only [fieldOfBytes, split]
        rw [List.take_left' (length_littleEndian _ _),
          ofLittleEndian_littleEndian field.isLt]
      rw [List.length_cons, fieldsOfBytes, first, split,
        List.drop_left' (length_littleEndian _ _), ih]

theorem Elements.overwrite_list
    {type : ArrayType} {target sent : Elements type}
    (le : sent.list.length ≤ target.list.length) :
    (target.overwrite sent.list.length (bytesOfFields sent.list)).list =
      sent.list ++ target.list.drop sent.list.length := by
  simp only [Elements.overwrite, fieldsOfBytes_bytesOfFields]
  apply List.take_of_length_le
  rw [List.length_append, List.length_drop]
  omega

theorem Elements.ext {type : ArrayType} {left right : Elements type}
    (same : left.list = right.list) : left = right := by
  cases left
  cases right
  congr

theorem overwriteField_eq_iff
    {size shorter : Nat} (le : shorter ≤ size) (target field : Field size) :
    overwriteField target (littleEndian shorter field) = field ↔
      target.val / 256 ^ shorter = field.val / 256 ^ shorter := by
  have positive : 0 < 256 ^ shorter := Nat.pow_pos (by decide)
  have power : 256 ^ size = 256 ^ (size - shorter) * 256 ^ shorter := by
    rw [← Nat.pow_add]
    congr 1
    omega
  have high : target.val / 256 ^ shorter < 256 ^ (size - shorter) := by
    apply Nat.div_lt_of_lt_mul
    rw [Nat.mul_comm, ← power]
    exact target.isLt
  have small : target.val / 256 ^ shorter * 256 ^ shorter +
      field.val % 256 ^ shorter < 256 ^ size := by
    have low := Nat.mod_lt field.val positive
    have next := Nat.mul_le_mul_right (256 ^ shorter) (Nat.succ_le_of_lt high)
    rw [Nat.succ_mul, ← power] at next
    omega
  have split := Nat.div_add_mod' field.val (256 ^ shorter)
  rw [Fin.ext_iff, overwriteField, length_littleEndian,
    ofLittleEndian_littleEndian_mod, Fin.val_ofNat, Nat.mod_eq_of_lt small]
  constructor
  · intro same
    apply Nat.eq_of_mul_eq_mul_right positive
    omega
  · intro same
    rw [same]
    exact split

theorem cString_chars (str : CString) : cString str.chars = str := by
  have all : str.chars.takeWhile (fun byte => byte != 0) = str.chars := by
    rw [List.takeWhile_eq_self_iff]
    intro byte member
    rw [bne_iff_ne]
    rintro rfl
    exact str.no_nul member
  cases str
  simp only [cString, all]

end Fields

section Encoding

def encodeArg (writeValue : Bool) : Arg δ → Datagram δ
  | .basic type field =>
      ⟨if writeValue then littleEndian type.size field else [], []⟩
  | .array _ elements =>
      ⟨littleEndian 4 elements.list.length ++
        if writeValue then bytesOfFields elements.list else [], []⟩
  | .handle hval => ⟨[], if writeValue then [hval] else []⟩
  | .string (some str) =>
      ⟨if writeValue then littleEndian 4 str.chars.length ++ str.chars else [], []⟩
  | .string none => noDatagram
  | .other _ _ => noDatagram

def encodeTagged (writeValue : Bool) (arg : Arg δ) : Datagram δ :=
  Datagram.append ⟨[arg.tag], []⟩ (encodeArg writeValue arg)

def encodeElements (writeValue : Bool) : List (Arg δ) → Datagram δ
  | [] => noDatagram
  | arg :: args =>
      (encodeTagged writeValue arg).append (encodeElements writeValue args)

def encodeArgs (writeValue : Bool) (args : List (Arg δ)) : Datagram δ :=
  Datagram.append ⟨littleEndian 4 args.length, []⟩ (encodeElements writeValue args)

def Arg.Supported (writeValue : Bool) : Arg δ → Prop
  | .string none => writeValue = false
  | .other _ _ => False
  | _ => True

def encodeRpc (rpc : Rpc) : List UInt8 :=
  littleEndian 4 rpc.protocolVersion.toNat ++
    (littleEndian 8 rpc.requestId.toNat ++
      ([rpc.isRequest] ++
        (littleEndian 4 rpc.rpcNumber.toNat ++
          if rpc.isRequest = 0 then littleEndian 4 rpc.result.toNat else [])))

end Encoding

section Writing

variable {sizeMax : Nat} (isSizeMax : IsSizeMax sizeMax)

include isSizeMax

private theorem writes_number (width value : Nat) (positive : 0 < width)
    (small : width ≤ 8) :
    @Put.Writes δ (putElements sizeMax (littleEndian width value) width 1)
      ⟨littleEndian width value, []⟩ :=
  writes_putElements isSizeMax positive small
    (by rw [length_littleEndian, Nat.one_mul])

private theorem writes_byte (byte : UInt8) :
    @Put.Writes δ (putElements sizeMax [byte] 1 1) ⟨[byte], []⟩ :=
  writes_putElements isSizeMax (by decide) (by decide) rfl

private theorem writes_arrPut (type : ArrayType) (writeValue : Bool)
    (elements : Elements type) :
    @Put.Writes δ (arrPut sizeMax type writeValue elements)
      (encodeArg writeValue (.array type elements)) := by
  have count := @writes_number δ _ isSizeMax 4 elements.list.length (by decide)
    (by decide)
  cases writeValue with
  | false => exact count.andThen Put.writes_succeed
  | true =>
      exact count.andThen (writes_putElements isSizeMax type.size_pos
        type.size_le (length_bytesOfFields _))

private theorem writes_stringPut (writeValue : Bool) (str : CString) :
    @Put.Writes δ (stringPut sizeMax writeValue str)
      (encodeArg writeValue (.string (some str))) := by
  cases writeValue with
  | false => exact Put.writes_succeed
  | true =>
      intro buffer room
      have small : str.chars.length < 2 ^ 32 := by
        have bound := room.1
        simp only [encodeArg, if_true, List.length_append, imcUserBytesMax] at bound
        omega
      have whole :
          @Put.Writes δ (stringPut sizeMax true str)
            ⟨littleEndian 4 str.chars.length ++ str.chars, []⟩ := by
        unfold stringPut
        rw [if_pos rfl, Nat.mod_eq_of_lt small]
        exact (writes_number isSizeMax 4 _ (by decide) (by decide)).andThen
          (writes_putElements isSizeMax (by decide) (by decide)
            (Nat.mul_one _).symm)
      exact whole buffer room

theorem writes_argPut
    {writeValue : Bool} {arg : Arg δ} (supported : arg.Supported writeValue) :
    (argPut sizeMax writeValue arg).Writes (encodeArg writeValue arg) := by
  cases arg with
  | basic type field =>
      cases writeValue with
      | false => exact Put.writes_succeed
      | true =>
          simp only [argPut, basicPut, encodeArg, if_true]
          rw [take_littleEndian _ type.size_le_fieldSize]
          exact writes_number isSizeMax _ _ type.size_pos type.size_le
  | array type elements => exact writes_arrPut isSizeMax type writeValue elements
  | handle hval =>
      cases writeValue with
      | false => exact Put.writes_succeed
      | true => exact writes_imcWriteDesc hval
  | string str =>
      cases str with
      | none =>
          rw [show writeValue = false from supported]
          exact Put.writes_succeed
      | some str => exact writes_stringPut isSizeMax writeValue str
  | other tag invalid => exact absurd supported id

theorem writes_putArgs
    {writeValue : Bool} {args : List (Arg δ)}
    (supported : ∀ arg ∈ args, arg.Supported writeValue) :
    (putArgs sizeMax writeValue args).Writes (encodeElements writeValue args) := by
  induction args with
  | nil => exact Put.writes_succeed
  | cons arg args ih =>
      have first := writes_argPut isSizeMax (supported arg List.mem_cons_self)
      have rest := ih fun arg member =>
        supported arg (List.mem_cons_of_mem _ member)
      exact ((writes_byte isSizeMax arg.tag).andThen first).andThen rest

theorem writes_argsPut
    {writeValue : Bool} {args : List (Arg δ)} (few : args.length < maxArgs)
    (supported : ∀ arg ∈ args, arg.Supported writeValue) :
    (argsPut sizeMax writeValue args).Writes (encodeArgs writeValue args) := by
  rw [argsPut, if_neg (Nat.not_le.mpr few)]
  exact (writes_number isSizeMax 4 _ (by decide) (by decide)).andThen
    (writes_putArgs isSizeMax supported)

theorem writes_rpcWrite (rpc : Rpc) :
    @Put.Writes δ (rpcWrite sizeMax rpc) ⟨encodeRpc rpc, []⟩ := by
  have number : ∀ width value : Nat, 0 < width → width ≤ 8 →
      @Put.Writes δ (putElements sizeMax (littleEndian width value) width 1)
        ⟨littleEndian width value, []⟩ := writes_number isSizeMax
  have last : @Put.Writes δ
      (if rpc.isRequest = 0 then
        putElements sizeMax (littleEndian 4 rpc.result.toNat) 4 1
      else .succeed)
      ⟨if rpc.isRequest = 0 then littleEndian 4 rpc.result.toNat else [], []⟩ := by
    split
    · exact number 4 _ (by decide) (by decide)
    · exact Put.writes_succeed
  exact (number 4 _ (by decide) (by decide)).andThen <|
    (number 8 _ (by decide) (by decide)).andThen <|
    (writes_byte isSizeMax _).andThen <|
    (number 4 _ (by decide) (by decide)).andThen last

end Writing

section Reading

theorem getElements_number
    (width value : Nat) (positive : 0 < width) (small : width ≤ 8)
    (following : List UInt8) (descs : List δ) :
    getElements width 1 ⟨littleEndian width value ++ following, descs⟩ =
      some (littleEndian width value, ⟨following, descs⟩) := by
  apply getElements_append positive small
  · rw [length_littleEndian, Nat.one_mul]
  · rw [length_littleEndian, imcUserBytesMax]
    omega

theorem getElements_byte (byte : UInt8) (following : List UInt8) (descs : List δ) :
    getElements 1 1 ⟨[byte] ++ following, descs⟩ =
      some ([byte], ⟨following, descs⟩) :=
  getElements_append (by decide) (by decide) rfl
    (by rw [List.length_singleton]; decide) following descs

theorem getCount_append
    {value : Nat} (small : value < 2 ^ 32)
    (following : List UInt8) (descs : List δ) :
    getCount ⟨littleEndian 4 value ++ following, descs⟩ =
      some (⟨value, small⟩, ⟨following, descs⟩) := by
  have same : ofLittleEndian (littleEndian 4 value) = value :=
    ofLittleEndian_littleEndian (show value < 256 ^ 4 from small)
  rw [getCount, getElements_number 4 value (by decide) (by decide),
    Option.map_some]
  simp only [same, Option.some.injEq, Prod.mk.injEq, and_true]
  exact Fin.ext (Nat.mod_eq_of_lt small)

theorem rpcGet_append (rpc : Rpc) (following : Datagram δ) :
    rpcGet (Datagram.append ⟨encodeRpc rpc, []⟩ following) =
      some (if rpc.isRequest = 0 then rpc else { rpc with result := resultOk },
        following) := by
  have protocol : UInt32.ofNat
      (ofLittleEndian (littleEndian 4 rpc.protocolVersion.toNat)) =
        rpc.protocolVersion := by
    rw [ofLittleEndian_littleEndian rpc.protocolVersion.toNat_lt,
      UInt32.ofNat_toNat]
  have requestId : UInt64.ofNat
      (ofLittleEndian (littleEndian 8 rpc.requestId.toNat)) = rpc.requestId := by
    rw [ofLittleEndian_littleEndian rpc.requestId.toNat_lt, UInt64.ofNat_toNat]
  have isRequest : UInt8.ofNat (ofLittleEndian [rpc.isRequest]) = rpc.isRequest := by
    simp only [ofLittleEndian, Nat.mul_zero, Nat.add_zero, UInt8.ofNat_toNat]
  have rpcNumber : UInt32.ofNat
      (ofLittleEndian (littleEndian 4 rpc.rpcNumber.toNat)) = rpc.rpcNumber := by
    rw [ofLittleEndian_littleEndian rpc.rpcNumber.toNat_lt, UInt32.ofNat_toNat]
  have result : UInt32.ofNat
      (ofLittleEndian (littleEndian 4 rpc.result.toNat)) = rpc.result := by
    rw [ofLittleEndian_littleEndian rpc.result.toNat_lt, UInt32.ofNat_toNat]
  simp only [rpcGet, Datagram.append, encodeRpc, List.append_assoc, List.nil_append]
  simp only [getElements_number 4 _ (by decide) (by decide),
    getElements_number 8 _ (by decide) (by decide), getElements_byte,
    Option.bind_eq_bind, Option.bind_some, protocol, requestId, isRequest, rpcNumber]
  by_cases response : rpc.isRequest = 0
  · simp only [response, if_true, getElements_number 4 _ (by decide) (by decide),
      Option.bind_some, result]
    rw [← response]
    rfl
  · simp only [response, if_false, List.nil_append]
    rfl

end Reading

end NativeClient.Srpc
