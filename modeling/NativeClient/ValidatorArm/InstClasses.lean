import Mathlib.Logic.Basic
import Mathlib.Algebra.Group.Nat.Defs
import Mathlib.Algebra.GroupWithZero.Nat

/-!
# ARM instruction classes

An instruction word, the registers that it names, and the classes that the
generated decoder sorts it into.  A class says what the validator may rely on:
the registers that an instruction changes, the base of a store, the target of
a branch, the bits that are clear in the result.
-/

namespace NativeClient.ValidatorArm

/-- A register by its number.  Shifts by more than 31 have no meaning, so no
other number is ever used. -/
abbrev Register := Fin 32

instance neZeroRegisters : NeZero 32 := ⟨by decide⟩

def kRegisterNone : Register := 31

def kRegisterFlags : Register := 16

def kRegisterPc : Register := 15

def kRegisterLink : Register := 14

def kRegisterStack : Register := 13

abbrev RegisterList := BitVec 32

def Register.bitmask (register : Register) : RegisterList :=
  if register = kRegisterNone then 0 else 1#32 <<< register.val

namespace RegisterList

def everything : RegisterList := BitVec.allOnes 32

def containsAll (list other : RegisterList) : Bool :=
  list &&& other == other

def containsAny (list other : RegisterList) : Bool :=
  list &&& other != 0

def contains (list : RegisterList) (register : Register) : Bool :=
  list &&& register.bitmask != 0

def union (list other : RegisterList) : RegisterList :=
  list ||| other

def inter (list other : RegisterList) : RegisterList :=
  list &&& other

end RegisterList

abbrev Instruction := BitVec 32

/-- `UNCONDITIONAL` does not occur: it is converted to `AL`. -/
inductive Condition where
  | eq | ne | cs | cc | mi | pl | vs | vc | hi | ls | ge | lt | gt | le | al
deriving DecidableEq

namespace Instruction

def bits (i : Instruction) (hi lo : Nat) : Nat :=
  (i >>> lo).toNat % 2 ^ (hi - lo + 1)

def reg (i : Instruction) (hi lo : Nat) : Register :=
  Fin.ofNat 32 (i.bits hi lo)

def bit (i : Instruction) (index : Nat) : Bool :=
  i.getLsbD index

def condition (i : Instruction) : Condition :=
  match i.bits 31 28 with
  | 0 => .eq
  | 1 => .ne
  | 2 => .cs
  | 3 => .cc
  | 4 => .mi
  | 5 => .pl
  | 6 => .vs
  | 7 => .vc
  | 8 => .hi
  | 9 => .ls
  | 10 => .ge
  | 11 => .lt
  | 12 => .gt
  | 13 => .le
  | _ => .al

end Instruction

inductive SafetyLevel where
  | unknown
  | undefined
  | unpredictable
  | deprecated
  | forbidden
  | forbiddenOperands
  | mayBeSafe
deriving DecidableEq

structure ClassDecoder where
  safety : Instruction → SafetyLevel
  defs : Instruction → RegisterList := fun _ => RegisterList.everything
  immediateAddressingDefs : Instruction → RegisterList :=
    fun _ => kRegisterNone.bitmask
  baseAddressRegister : Instruction → Register := fun _ => kRegisterNone
  branchTargetRegister : Instruction → Register := fun _ => kRegisterNone
  isRelativeBranch : Instruction → Bool := fun _ => false
  /-- As a difference of 32 bit addresses. -/
  branchTargetOffset : Instruction → BitVec 32 := fun _ => 0
  isLiteralPoolHead : Instruction → Bool := fun _ => false
  clearsBits : Instruction → BitVec 32 → Bool := fun _ _ => false
  setsZIfBitsClear : Instruction → Register → BitVec 32 → Bool :=
    fun _ _ _ => false

def getModifiedImmediate (i : Instruction) : BitVec 32 :=
  let rotation := i.bits 11 8 * 2
  let value := BitVec.ofNat 32 (i.bits 7 0)
  if rotation = 0 then value
  else value >>> rotation ||| value <<< (32 - rotation)

def optionalRegister (changed : Bool) (register : Register) : RegisterList :=
  if changed then register.bitmask else kRegisterNone.bitmask

/-- The check that most classes make: r15 is not among the registers that the
instruction changes. -/
def safetyUnlessPc (defs : Instruction → RegisterList) (i : Instruction) :
    SafetyLevel :=
  if (defs i).contains kRegisterPc then .forbiddenOperands else .mayBeSafe

namespace ClassDecoder

def rejected (level : SafetyLevel) : ClassDecoder where
  safety _ := level
  defs _ := kRegisterNone.bitmask

def forbidden : ClassDecoder := rejected .forbidden

def undefined : ClassDecoder := rejected .undefined

def deprecated : ClassDecoder := rejected .deprecated

def unpredictable : ClassDecoder := rejected .unpredictable

def effectiveNoOp : ClassDecoder where
  safety _ := .mayBeSafe
  defs _ := kRegisterNone.bitmask

def roadblock : ClassDecoder where
  safety _ := .mayBeSafe
  defs _ := kRegisterNone.bitmask

def breakpoint : ClassDecoder :=
  { roadblock with
    isLiteralPoolHead := fun i =>
      i.condition = .al && i.bits 19 8 = 0x777 && i.bits 3 0 = 7 }

def dataProcDefs (i : Instruction) : RegisterList :=
  (i.reg 15 12).bitmask.union (optionalRegister (i.bit 20) kRegisterFlags)

def dataProc : ClassDecoder where
  safety := safetyUnlessPc dataProcDefs
  defs := dataProcDefs

def testDefs (i : Instruction) : RegisterList :=
  optionalRegister (i.bit 20) kRegisterFlags

def test : ClassDecoder where
  safety := safetyUnlessPc testDefs
  defs := testDefs

def testImmediate : ClassDecoder :=
  { test with
    setsZIfBitsClear := fun i register mask =>
      i.reg 19 16 = register &&
        (getModifiedImmediate i &&& mask) = mask &&
        (testDefs i).contains kRegisterFlags }

def immediateBic : ClassDecoder where
  safety _ := .mayBeSafe
  defs := dataProcDefs
  clearsBits i mask := (getModifiedImmediate i &&& mask) = mask

def packSatRevDefs (i : Instruction) : RegisterList :=
  (i.reg 15 12).bitmask.union kRegisterFlags.bitmask

def packSatRev : ClassDecoder where
  safety := safetyUnlessPc packSatRevDefs
  defs := packSatRevDefs

def multiplyDefs (i : Instruction) : RegisterList :=
  kRegisterFlags.bitmask.union (i.reg 19 16).bitmask

def multiply : ClassDecoder where
  safety := safetyUnlessPc multiplyDefs
  defs := multiplyDefs

def longMultiplyDefs (i : Instruction) : RegisterList :=
  (multiplyDefs i).union (i.reg 15 12).bitmask

def longMultiply : ClassDecoder where
  safety := safetyUnlessPc longMultiplyDefs
  defs := longMultiplyDefs

def longMultiply15_8Defs (i : Instruction) : RegisterList :=
  (kRegisterFlags.bitmask.union (i.reg 15 12).bitmask).union (i.reg 11 8).bitmask

def longMultiply15_8 : ClassDecoder where
  safety := safetyUnlessPc longMultiply15_8Defs
  defs := longMultiply15_8Defs

def satAddSubDefs (i : Instruction) : RegisterList :=
  (dataProcDefs i).union kRegisterFlags.bitmask

def satAddSub : ClassDecoder where
  safety := safetyUnlessPc satAddSubDefs
  defs := satAddSubDefs

def moveToStatusRegister : ClassDecoder where
  safety _ := .mayBeSafe
  defs _ := kRegisterFlags.bitmask

def storeImmediateDefs (i : Instruction) : RegisterList :=
  if !i.bit 24 then (i.reg 19 16).bitmask
  else optionalRegister (i.bit 21) (i.reg 19 16)

def storeImmediate : ClassDecoder where
  safety := safetyUnlessPc storeImmediateDefs
  defs := storeImmediateDefs
  immediateAddressingDefs := storeImmediateDefs
  baseAddressRegister i := i.reg 19 16

def storeRegisterDefs (i : Instruction) : RegisterList :=
  (i.reg 19 16).bitmask

def storeRegister : ClassDecoder where
  safety i := if i.bit 24 then .forbidden else safetyUnlessPc storeRegisterDefs i
  defs := storeRegisterDefs
  baseAddressRegister i := i.reg 19 16

def storeExclusiveDefs (i : Instruction) : RegisterList :=
  (i.reg 15 12).bitmask

def storeExclusive : ClassDecoder where
  safety := safetyUnlessPc storeExclusiveDefs
  defs := storeExclusiveDefs
  baseAddressRegister i := i.reg 19 16

def writeback (i : Instruction) : Bool := !i.bit 24 || i.bit 21

def abstractLoadDefs (immediateAddressingDefs : Instruction → RegisterList)
    (i : Instruction) : RegisterList :=
  (i.reg 15 12).bitmask.union (immediateAddressingDefs i)

def noImmediateAddressing (_ : Instruction) : RegisterList :=
  kRegisterNone.bitmask

def secondRegister (i : Instruction) : Register :=
  Fin.ofNat 32 (i.bits 15 12 + 1)

def loadRegisterDefs (i : Instruction) : RegisterList :=
  if writeback i then
    (abstractLoadDefs noImmediateAddressing i).union (i.reg 19 16).bitmask
  else
    abstractLoadDefs noImmediateAddressing i

def loadRegister : ClassDecoder where
  safety := safetyUnlessPc loadRegisterDefs
  defs := loadRegisterDefs

def loadImmediateAddressingDefs (i : Instruction) : RegisterList :=
  optionalRegister (writeback i) (i.reg 19 16)

def loadImmediateDefs : Instruction → RegisterList :=
  abstractLoadDefs loadImmediateAddressingDefs

def loadImmediate : ClassDecoder where
  safety := safetyUnlessPc loadImmediateDefs
  defs := loadImmediateDefs
  immediateAddressingDefs := loadImmediateAddressingDefs

def loadDoubleIDefs (i : Instruction) : RegisterList :=
  (loadImmediateDefs i).union (secondRegister i).bitmask

def loadDoubleI : ClassDecoder where
  safety := safetyUnlessPc loadDoubleIDefs
  defs := loadDoubleIDefs
  immediateAddressingDefs := loadImmediateAddressingDefs

def loadDoubleRDefs (i : Instruction) : RegisterList :=
  (loadRegisterDefs i).union (secondRegister i).bitmask

def loadDoubleR : ClassDecoder where
  safety := safetyUnlessPc loadDoubleRDefs
  defs := loadDoubleRDefs

def loadExclusiveDefs : Instruction → RegisterList :=
  abstractLoadDefs noImmediateAddressing

def loadExclusive : ClassDecoder where
  safety := safetyUnlessPc loadExclusiveDefs
  defs := loadExclusiveDefs

def loadDoubleExclusiveDefs (i : Instruction) : RegisterList :=
  (loadExclusiveDefs i).union (secondRegister i).bitmask

def loadDoubleExclusive : ClassDecoder where
  safety := safetyUnlessPc loadDoubleExclusiveDefs
  defs := loadDoubleExclusiveDefs

def loadMultipleList (i : Instruction) : RegisterList :=
  BitVec.ofNat 32 (i.bits 15 0)

def loadMultipleAddressingDefs (i : Instruction) : RegisterList :=
  optionalRegister (i.bit 21) (i.reg 19 16)

def loadMultipleDefs (i : Instruction) : RegisterList :=
  (loadMultipleList i).union (loadMultipleAddressingDefs i)

def loadMultiple : ClassDecoder where
  safety i :=
    if i.bit 21 && i.bit (i.bits 19 16) then .unpredictable
    else safetyUnlessPc loadMultipleDefs i
  defs := loadMultipleDefs
  immediateAddressingDefs := loadMultipleAddressingDefs

def vectorDefs (i : Instruction) : RegisterList :=
  optionalRegister (i.reg 3 0 != kRegisterPc) (i.reg 19 16)

def vectorAddressingDefs (i : Instruction) : RegisterList :=
  optionalRegister (i.reg 3 0 == kRegisterStack) (i.reg 19 16)

def vectorLoad : ClassDecoder where
  safety := safetyUnlessPc vectorDefs
  defs := vectorDefs
  immediateAddressingDefs := vectorAddressingDefs

def vectorStore : ClassDecoder where
  safety := safetyUnlessPc vectorDefs
  defs := vectorDefs
  immediateAddressingDefs := vectorAddressingDefs
  baseAddressRegister i := i.reg 19 16

def coprocessorSafety (defs : Instruction → RegisterList) (i : Instruction) :
    SafetyLevel :=
  if (defs i).contains kRegisterPc then .forbiddenOperands
  else if i.bits 11 8 = 10 ∨ i.bits 11 8 = 11 then .mayBeSafe
  else .forbidden

def coprocessorOp : ClassDecoder where
  safety := coprocessorSafety fun _ => kRegisterNone.bitmask
  defs _ := kRegisterNone.bitmask

def coprocessorAddressingDefs (i : Instruction) : RegisterList :=
  optionalRegister (i.bit 21) (i.reg 19 16)

def loadCoprocessor : ClassDecoder where
  safety := coprocessorSafety coprocessorAddressingDefs
  defs := coprocessorAddressingDefs
  immediateAddressingDefs := coprocessorAddressingDefs

def storeCoprocessor : ClassDecoder where
  safety := coprocessorSafety coprocessorAddressingDefs
  defs := coprocessorAddressingDefs
  immediateAddressingDefs := coprocessorAddressingDefs
  baseAddressRegister i := i.reg 19 16

def moveFromCoprocessorDefs (i : Instruction) : RegisterList :=
  if i.reg 15 12 = kRegisterPc then kRegisterFlags.bitmask
  else (i.reg 15 12).bitmask

def moveFromCoprocessor : ClassDecoder where
  safety := coprocessorSafety moveFromCoprocessorDefs
  defs := moveFromCoprocessorDefs

def moveDoubleFromCoprocessorDefs (i : Instruction) : RegisterList :=
  (i.reg 15 12).bitmask.union (i.reg 19 16).bitmask

def moveDoubleFromCoprocessor : ClassDecoder where
  safety := coprocessorSafety moveDoubleFromCoprocessorDefs
  defs := moveDoubleFromCoprocessorDefs

def bxBlx : ClassDecoder where
  safety _ := .mayBeSafe
  defs i := kRegisterPc.bitmask.union (optionalRegister (i.bit 5) kRegisterLink)
  branchTargetRegister i := i.reg 3 0

def branch : ClassDecoder where
  safety _ := .mayBeSafe
  defs i := kRegisterPc.bitmask.union (optionalRegister (i.bit 24) kRegisterLink)
  isRelativeBranch _ := true
  branchTargetOffset i :=
    (BitVec.ofNat 32 (i.bits 23 0) <<< 8).sshiftRight 6 + 8

end ClassDecoder

inductive InstClass where
  | forbidden | undefined | deprecated | unpredictable
  | effectiveNoOp | roadblock | breakpoint
  | dataProc | test | testImmediate | immediateBic | packSatRev
  | multiply | longMultiply | longMultiply15_8 | satAddSub
  | moveToStatusRegister
  | storeImmediate | storeRegister | storeExclusive
  | loadRegister | loadImmediate | loadDoubleI | loadDoubleR
  | loadExclusive | loadDoubleExclusive | loadMultiple
  | vectorLoad | vectorStore
  | coprocessorOp | loadCoprocessor | storeCoprocessor
  | moveFromCoprocessor | moveDoubleFromCoprocessor
  | bxBlx | branch
deriving DecidableEq

def InstClass.decoder : InstClass → ClassDecoder
  | forbidden => .forbidden
  | undefined => .undefined
  | deprecated => .deprecated
  | unpredictable => .unpredictable
  | effectiveNoOp => .effectiveNoOp
  | roadblock => .roadblock
  | breakpoint => .breakpoint
  | dataProc => .dataProc
  | test => .test
  | testImmediate => .testImmediate
  | immediateBic => .immediateBic
  | packSatRev => .packSatRev
  | multiply => .multiply
  | longMultiply => .longMultiply
  | longMultiply15_8 => .longMultiply15_8
  | satAddSub => .satAddSub
  | moveToStatusRegister => .moveToStatusRegister
  | storeImmediate => .storeImmediate
  | storeRegister => .storeRegister
  | storeExclusive => .storeExclusive
  | loadRegister => .loadRegister
  | loadImmediate => .loadImmediate
  | loadDoubleI => .loadDoubleI
  | loadDoubleR => .loadDoubleR
  | loadExclusive => .loadExclusive
  | loadDoubleExclusive => .loadDoubleExclusive
  | loadMultiple => .loadMultiple
  | vectorLoad => .vectorLoad
  | vectorStore => .vectorStore
  | coprocessorOp => .coprocessorOp
  | loadCoprocessor => .loadCoprocessor
  | storeCoprocessor => .storeCoprocessor
  | moveFromCoprocessor => .moveFromCoprocessor
  | moveDoubleFromCoprocessor => .moveDoubleFromCoprocessor
  | bxBlx => .bxBlx
  | branch => .branch

end NativeClient.ValidatorArm
