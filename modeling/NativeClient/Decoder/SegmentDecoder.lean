import NativeClient.Decoder.OpcodeTables
import NativeClient.Library.Bytes
import NativeClient.Library.Loop
import NativeClient.Library.Ring
import Mathlib.Logic.Function.Iterate

/-!
# The 32 bit segment decoder

`ncdecode.c` for `NACL_TARGET_SUBARCH == 32`.  Pointers into the text are
offsets from the base of the segment, and virtual addresses are natural numbers
reduced modulo `2 ^ 32` wherever the C code adds to them.
-/

namespace NativeClient.Decoder

open NativeClient.Library

def kTwoByteOpcodeByte1 : UInt8 := 0x0f
def k3DNowOpcodeByte2 : UInt8 := 0x0f
def kMaxPrefixBytes : Nat := 4
def kDecodeBufferSize : Nat := 4

structure InstInfo where
  vaddr : Nat
  maddr : Nat
  prefixbytes : Nat
  hasopbyte2 : Bool
  hasopbyte3 : Bool
  hassibbyte : Bool
  mrm : UInt8
  immtype : NCDecodeImmediateType
  dispbytes : Nat
  length : Nat
  prefixmask : Nat
  deriving DecidableEq, Repr

/-- One slot of the decode buffer.  `internalErrors` counts the calls of
`ErrorInternal` made while the instruction was decoded. -/
structure NCDecoderState where
  mpc : Nat
  nextbyte : Nat
  vpc : Nat
  opinfo : OpInfo
  inst : InstInfo
  internalErrors : Nat
  deriving DecidableEq, Repr

def modrmMod (modrm : UInt8) : Nat := ((modrm >>> 6) &&& 0x03).toNat
def modrmRm (modrm : UInt8) : Nat := (modrm &&& 0x07).toNat
def modrmReg (modrm : UInt8) : Nat := ((modrm >>> 3) &&& 0x07).toNat
def modrmOpcode (modrm : UInt8) : Nat := modrmReg modrm
def sibBase (sib : UInt8) : Nat := (sib &&& 0x07).toNat

def errorInternal (mstate : NCDecoderState) : NCDecoderState :=
  { mstate with internalErrors := mstate.internalErrors + 1 }

/-- The instruction record as `InitDecoder` resets it. -/
def initInst (vpc mpc : Nat) : InstInfo :=
  { vaddr := vpc
    maddr := mpc
    prefixbytes := 0
    hasopbyte2 := false
    hasopbyte3 := false
    hassibbyte := false
    mrm := 0
    immtype := .unknown
    dispbytes := 0
    length := 0
    prefixmask := 0 }

def initDecoder (mstate : NCDecoderState) : NCDecoderState :=
  { mstate with
    inst := initInst mstate.vpc mstate.mpc
    opinfo := decodeUndefinedInstInfo
    internalErrors := 0 }

def extractOperandSize (mstate : NCDecoderState) : Nat :=
  if mstate.inst.prefixmask &&& kPrefixDATA16 ≠ 0 then 2 else 4

def consumePrefixByte (form : Nat) (mstate : NCDecoderState) :
    NCDecoderState :=
  { mstate with
    inst :=
      { mstate.inst with
        prefixmask := mstate.inst.prefixmask ||| form
        prefixbytes := mstate.inst.prefixbytes + 1 }
    nextbyte := mstate.nextbyte + 1 }

def consumePrefixLoop (buffer : Buffer) :
    Nat → NCDecoderState → NCDecoderState
  | 0, mstate => mstate
  | left + 1, mstate =>
      let form := kPrefixTable (buffer mstate.nextbyte)
      if form = 0 then mstate
      else consumePrefixLoop buffer left (consumePrefixByte form mstate)

def consumePrefixBytes (buffer : Buffer) (mstate : NCDecoderState) :
    NCDecoderState :=
  consumePrefixLoop buffer kMaxPrefixBytes mstate

def getExtendedOpInfo (mstate : NCDecoderState) (opbyte2 : UInt8) :
    NCDecoderState :=
  let pm := mstate.inst.prefixmask
  if pm &&& (kPrefixDATA16 ||| kPrefixREPNE ||| kPrefixREP) = 0 then
    { mstate with opinfo := kDecode0FXXOp.entry opbyte2 }
  else if pm &&& kPrefixDATA16 ≠ 0 then
    { mstate with opinfo := kDecode660FXXOp.entry opbyte2 }
  else if pm &&& kPrefixREPNE ≠ 0 then
    { mstate with opinfo := kDecodeF20FXXOp.entry opbyte2 }
  else if pm &&& kPrefixREP ≠ 0 then
    { mstate with opinfo := kDecodeF30FXXOp.entry opbyte2 }
  else
    errorInternal mstate

def kDecodeX87Op (index : Nat) : DecodeTable :=
  [kDecode87D8, kDecode87D9, kDecode87DA, kDecode87DB,
    kDecode87DC, kDecode87DD, kDecode87DE, kDecode87DF].getD index []

def getX87OpInfo (buffer : Buffer) (mstate : NCDecoderState) :
    NCDecoderState :=
  let op1 := buffer (mstate.inst.maddr + mstate.inst.prefixbytes)
  if op1 < 0xd8 ∨ 0xdf < op1 then
    -- WAIT is an x87 instruction outside the coprocessor opcode space.
    if op1 ≠ 0x9b then errorInternal mstate else mstate
  else
    { mstate with
      opinfo := (kDecodeX87Op (op1.toNat - 0xd8)).entry mstate.inst.mrm }

/-- The table switch of `ConsumeOpcodeBytes` on a third opcode byte. -/
def getThreeByteOpInfo (mstate : NCDecoderState) (opcode2 opcode3 : UInt8) :
    NCDecoderState :=
  let pm := mstate.inst.prefixmask
  if opcode2 = 0x38 then
    if pm &&& kPrefixDATA16 ≠ 0 then
      { mstate with opinfo := kDecode660F38Op.entry opcode3 }
    else if pm &&& kPrefixREPNE ≠ 0 then
      { mstate with opinfo := kDecodeF20F38Op.entry opcode3 }
    else if pm = 0 then
      { mstate with opinfo := kDecode0F38Op.entry opcode3 }
    else
      errorInternal mstate
  else if opcode2 = 0x3a then
    if pm &&& kPrefixDATA16 ≠ 0 then
      { mstate with opinfo := kDecode660F3AOp.entry opcode3 }
    else if pm = 0 then
      { mstate with opinfo := kDecode0F3AOp.entry opcode3 }
    else
      errorInternal mstate
  else
    errorInternal mstate

def takeOpbyte3 (mstate : NCDecoderState) : NCDecoderState :=
  { mstate with
    nextbyte := mstate.nextbyte + 1
    inst := { mstate.inst with hasopbyte3 := true } }

/-- The third opcode byte, read only for the `NACLi_3BYTE` escapes. -/
def consumeOpcodeByte3 (buffer : Buffer) (opcode2 : UInt8)
    (mstate : NCDecoderState) : NCDecoderState :=
  if mstate.opinfo.insttype = .threeByte then
    getThreeByteOpInfo (takeOpbyte3 mstate) opcode2 (buffer mstate.nextbyte)
  else
    mstate

def takeOpbyte2 (mstate : NCDecoderState) : NCDecoderState :=
  { mstate with
    nextbyte := mstate.nextbyte + 1
    inst := { mstate.inst with hasopbyte2 := true } }

def consumeOpcodeByte2 (buffer : Buffer) (mstate : NCDecoderState) :
    NCDecoderState :=
  consumeOpcodeByte3 buffer (buffer mstate.nextbyte)
    (takeOpbyte2 (getExtendedOpInfo mstate (buffer mstate.nextbyte)))

def takeOpcode (opcode : UInt8) (mstate : NCDecoderState) : NCDecoderState :=
  { mstate with
    opinfo := kDecode1ByteOp.entry opcode
    nextbyte := mstate.nextbyte + 1 }

def setImmtype (immtype : NCDecodeImmediateType) (mstate : NCDecoderState) :
    NCDecoderState :=
  { mstate with inst := { mstate.inst with immtype := immtype } }

def consumeOpcodeBytes (buffer : Buffer) (mstate : NCDecoderState) :
    NCDecoderState :=
  let opcode := buffer mstate.nextbyte
  let last :=
    if opcode = kTwoByteOpcodeByte1 then
      consumeOpcodeByte2 buffer (takeOpcode opcode mstate)
    else
      takeOpcode opcode mstate
  setImmtype last.opinfo.immtype last

/-- The instruction that a group selects by the ModRM opcode field, with the
odd immediate of `TEST` in group 3. -/
def selectOpInMrm (mrm : UInt8) (mstate : NCDecoderState) : NCDecoderState :=
  if mstate.opinfo.opinmrm ≠ 0 then
    let mopinfo := kDecodeModRMOp mstate.opinfo.opinmrm (modrmOpcode mrm)
    let immtype :=
      if mstate.inst.immtype = .unknown then mopinfo.immtype
      else mstate.inst.immtype
    let immtype :=
      if modrmOpcode mrm = 0 then
        match immtype with
        | .group3F6 => .fixed1
        | .group3F7 => .datav
        | other => other
      else
        immtype
    setImmtype immtype { mstate with opinfo := mopinfo }
  else
    mstate

def dispbytes16 (mrm : UInt8) : Option Nat :=
  match modrmMod mrm with
  | 0 => if modrmRm mrm = 0x06 then some 2 else some 0
  | 1 => some 1
  | 2 => some 2
  | 3 => some 0
  | _ => none

def dispbytes32 (mrm : UInt8) : Option Nat :=
  match modrmMod mrm with
  | 0 => if modrmRm mrm = 0x05 then some 4 else some 0
  | 1 => some 1
  | 2 => some 4
  | 3 => some 0
  | _ => none

def setDispbytes (dispbytes : Option Nat) (mstate : NCDecoderState) :
    NCDecoderState :=
  match dispbytes with
  | some count =>
      { mstate with inst := { mstate.inst with dispbytes := count } }
  | none => errorInternal mstate

def setHassibbyte (hassibbyte : Bool) (mstate : NCDecoderState) :
    NCDecoderState :=
  { mstate with inst := { mstate.inst with hassibbyte := hassibbyte } }

def readModRM (buffer : Buffer) (mstate : NCDecoderState) :
    NCDecoderState :=
  { mstate with
    inst := { mstate.inst with mrm := buffer mstate.nextbyte }
    nextbyte := mstate.nextbyte + 1 }

def selectX87 (buffer : Buffer) (mstate : NCDecoderState) :
    NCDecoderState :=
  if mstate.opinfo.insttype = .x87 then getX87OpInfo buffer mstate else mstate

def addressModRM (mrm : UInt8) (mstate : NCDecoderState) : NCDecoderState :=
  if mstate.inst.prefixmask &&& kPrefixADDR16 ≠ 0 then
    setHassibbyte false (setDispbytes (dispbytes16 mrm) mstate)
  else
    setHassibbyte (modrmRm mrm = 0x04 ∧ modrmMod mrm ≠ 3)
      (setDispbytes (dispbytes32 mrm) mstate)

def consumeModRM (buffer : Buffer) (mstate : NCDecoderState) :
    NCDecoderState :=
  if mstate.opinfo.hasmrmbyte then
    let mrm := buffer mstate.nextbyte
    addressModRM mrm <| selectOpInMrm mrm <| selectX87 buffer <|
      readModRM buffer mstate
  else
    mstate

def dispbytesSib (mrm : UInt8) : Option Nat :=
  match modrmMod mrm with
  | 0 => some 4
  | 1 => some 1
  | 2 => some 4
  | _ => none

def consumeSIB (buffer : Buffer) (mstate : NCDecoderState) :
    NCDecoderState :=
  if mstate.inst.hassibbyte then
    let sib := buffer mstate.nextbyte
    let read := { mstate with nextbyte := mstate.nextbyte + 1 }
    if sibBase sib = 0x05 then setDispbytes (dispbytesSib read.inst.mrm) read
    else read
  else
    mstate

def immediateBytes (mstate : NCDecoderState) : Nat :=
  if mstate.inst.immtype = .movDatav then
    extractOperandSize mstate
  else if mstate.inst.prefixmask &&& kPrefixDATA16 ≠ 0 then
    kImmTypeToSize66 mstate.inst.immtype
  else if mstate.inst.prefixmask &&& kPrefixADDR16 ≠ 0 then
    kImmTypeToSize67 mstate.inst.immtype
  else
    kImmTypeToSize mstate.inst.immtype

/-- The length as the `uint8_t` field stores it. -/
def setLength (mstate : NCDecoderState) : NCDecoderState :=
  let instLength := mstate.nextbyte - mstate.mpc
  let stored :=
    { mstate with inst := { mstate.inst with length := instLength &&& 0xff } }
  if stored.inst.length ≠ instLength then errorInternal stored else stored

def checkImmtype (mstate : NCDecoderState) : NCDecoderState :=
  if mstate.inst.immtype = .unknown then errorInternal mstate else mstate

def skipImmediateAndDisplacement (mstate : NCDecoderState) : NCDecoderState :=
  { mstate with
    nextbyte :=
      mstate.nextbyte + (immediateBytes mstate + mstate.inst.dispbytes) }

def consumeID (mstate : NCDecoderState) : NCDecoderState :=
  setLength (skipImmediateAndDisplacement (checkImmtype mstate))

def maybeGet3ByteOpInfo (buffer : Buffer) (mstate : NCDecoderState) :
    NCDecoderState :=
  if mstate.opinfo.insttype = .threeDNow then
    let opbyte1 := buffer (mstate.mpc + mstate.inst.prefixbytes)
    let opbyte2 := buffer (mstate.mpc + (mstate.inst.prefixbytes + 1))
    let immbyte := buffer (mstate.mpc + (mstate.inst.length - 1))
    if opbyte1 = kTwoByteOpcodeByte1 ∧ opbyte2 = k3DNowOpcodeByte2 then
      { mstate with opinfo := kDecode0F0FOp.entry immbyte }
    else
      mstate
  else
    mstate

def consumeNextInstruction (buffer : Buffer) (mstate : NCDecoderState) :
    NCDecoderState :=
  maybeGet3ByteOpInfo buffer <| consumeID <| consumeSIB buffer <|
    consumeModRM buffer <| consumeOpcodeBytes buffer <|
      consumePrefixBytes buffer <| initDecoder mstate

def newpc (mstate : NCDecoderState) : Nat :=
  wrap32 (mstate.vpc + mstate.inst.length)

/-! ## The decode buffer -/

abbrev DecodeBuffer := Ring NCDecoderState kDecodeBufferSize

def DecodeBuffer.mstate (decodebuffer : DecodeBuffer) : NCDecoderState :=
  decodebuffer.slots decodebuffer.current

def previousInst (decodebuffer : DecodeBuffer) (nindex : Int) :
    NCDecoderState :=
  decodebuffer.slots
    ((decodebuffer.current + nindex + kDecodeBufferSize).toNat &&&
      (kDecodeBufferSize - 1))

theorem previousInst_eq_back
    (decodebuffer : DecodeBuffer) {distance : Nat}
    (small : distance < kDecodeBufferSize) :
    previousInst decodebuffer (-distance) = decodebuffer.back distance := by
  unfold previousInst Ring.back
  have index : ((decodebuffer.current : Int) + -distance +
      (kDecodeBufferSize : Nat)).toNat =
        decodebuffer.current + kDecodeBufferSize - distance := by
    omega
  rw [index]
  exact congrArg decodebuffer.slots (Nat.and_two_pow_sub_one_eq_mod _ 2)

theorem previousInst_one (decodebuffer : DecodeBuffer) :
    previousInst decodebuffer (-1) = decodebuffer.back 1 :=
  @previousInst_eq_back decodebuffer 1 (by decide)

theorem mstate_eq_back (decodebuffer : DecodeBuffer) :
    decodebuffer.mstate = decodebuffer.back 0 :=
  decodebuffer.back_zero.symm

theorem mstate_setCurrent
    (decodebuffer : DecodeBuffer) (mstate : NCDecoderState) :
    DecodeBuffer.mstate (decodebuffer.setCurrent mstate) = mstate := by
  rw [mstate_eq_back, Ring.back_setCurrent_zero]

theorem previousInst_setCurrent
    (decodebuffer : DecodeBuffer) (mstate : NCDecoderState) :
    previousInst (decodebuffer.setCurrent mstate) (-1) =
      previousInst decodebuffer (-1) := by
  rw [previousInst_one, previousInst_one]
  exact decodebuffer.back_setCurrent mstate (by decide) (by decide)

def emptySlot (vpc mpc : Nat) : NCDecoderState :=
  { mpc := mpc
    nextbyte := mpc
    vpc := vpc
    opinfo := decodeUndefinedInstInfo
    inst := initInst vpc mpc
    internalErrors := 0 }

def initDecodeBuffer (vbase : Nat) : DecodeBuffer :=
  { slots := fun index => if index = 0 then emptySlot vbase 0 else emptySlot 0 0
    current := 0
    inRange := by decide }

def incrementDecodeBuffer (decodebuffer : DecodeBuffer) : DecodeBuffer :=
  let mstate := decodebuffer.mstate
  decodebuffer.advance
    { previousInst decodebuffer 1 with
      vpc := newpc mstate
      mpc := mstate.mpc + mstate.inst.length
      nextbyte := mstate.nextbyte }

theorem mstate_increment (decodebuffer : DecodeBuffer) :
    (incrementDecodeBuffer decodebuffer).mstate =
      { previousInst decodebuffer 1 with
        vpc := newpc decodebuffer.mstate
        mpc := decodebuffer.mstate.mpc + decodebuffer.mstate.inst.length
        nextbyte := decodebuffer.mstate.nextbyte } := by
  rw [mstate_eq_back]
  exact decodebuffer.back_advance_zero _

theorem previousInst_increment (decodebuffer : DecodeBuffer) :
    previousInst (incrementDecodeBuffer decodebuffer) (-1) =
      decodebuffer.mstate := by
  rw [previousInst_one, mstate_eq_back]
  exact decodebuffer.back_advance_succ _ (by decide)

/-- The handlers that `NCDecodeRegisterCallbacks` installs, over the state of
the client. -/
structure DecoderStats (σ : Type) where
  newSegment : σ → σ
  segFault : σ → σ
  internalError : σ → σ

/-- One turn of the loop of `NCDecodeSegment`. -/
def decodeSegmentTurn {σ : Type} (memory : σ → Buffer)
    (stats : DecoderStats σ) (action : DecodeBuffer → σ → σ) (vlimit : Nat)
    (state : DecodeBuffer × σ) : Turn (DecodeBuffer × σ) σ :=
  let (decodebuffer, client) := state
  if decodebuffer.mstate.vpc < vlimit then
    let mstate := consumeNextInstruction (memory client) decodebuffer.mstate
    let decodebuffer := decodebuffer.setCurrent mstate
    let client := stats.internalError^[mstate.internalErrors] client
    if newpc mstate > vlimit then
      .leave (stats.segFault client)
    else
      .again (incrementDecodeBuffer decodebuffer, action decodebuffer client)
  else
    .leave client

def ncDecodeSegment {σ : Type} (memory : σ → Buffer)
    (stats : DecoderStats σ) (action : DecodeBuffer → σ → σ)
    (vbase size : Nat) (client : σ) (fuel : Nat) : Option σ :=
  runLoop (decodeSegmentTurn memory stats action (wrap32 (vbase + size))) fuel
    (initDecodeBuffer vbase, stats.newSegment client)

/-- One turn of the loop of `NCDecodeSegmentPair`. -/
def decodeSegmentPairTurn {σ : Type} (memoryOld memoryNew : σ → Buffer)
    (stats : DecoderStats σ) (action : DecodeBuffer → DecodeBuffer → σ → σ)
    (vlimit : Nat) (state : DecodeBuffer × DecodeBuffer × σ) :
    Turn (DecodeBuffer × DecodeBuffer × σ) σ :=
  let (bufferOld, bufferNew, client) := state
  if bufferOld.mstate.vpc < vlimit ∧ bufferNew.mstate.vpc < vlimit then
    let mstateOld := consumeNextInstruction (memoryOld client) bufferOld.mstate
    let mstateNew := consumeNextInstruction (memoryNew client) bufferNew.mstate
    let bufferOld := bufferOld.setCurrent mstateOld
    let bufferNew := bufferNew.setCurrent mstateNew
    let client := stats.internalError^[mstateOld.internalErrors] client
    let client := stats.internalError^[mstateNew.internalErrors] client
    if newpc mstateOld ≠ newpc mstateNew then
      .leave (stats.segFault client)
    else if newpc mstateNew > vlimit then
      .leave (stats.segFault client)
    else
      .again (incrementDecodeBuffer bufferOld, incrementDecodeBuffer bufferNew,
        action bufferOld bufferNew client)
  else
    .leave client

def ncDecodeSegmentPair {σ : Type} (memoryOld memoryNew : σ → Buffer)
    (stats : DecoderStats σ) (action : DecodeBuffer → DecodeBuffer → σ → σ)
    (vbase size : Nat) (client : σ) (fuel : Nat) : Option σ :=
  runLoop
    (decodeSegmentPairTurn memoryOld memoryNew stats action
      (wrap32 (vbase + size)))
    fuel (initDecodeBuffer vbase, initDecodeBuffer vbase, stats.newSegment client)

end NativeClient.Decoder
