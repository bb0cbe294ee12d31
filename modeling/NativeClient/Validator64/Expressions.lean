import NativeClient.Decoder64.InstIter

/-!
# Registers and expressions of the 64 bit validator

The functions of `ncop_exps.c` that walk the flattened expression trees, the
register tables of `nc_inst_trans.c`, and the patterns of
`ncvalidate_utils.c`.
-/

namespace NativeClient.Validator64

open NativeClient.Library
open NativeClient.Decoder64

/-! ## Expression trees -/

def naclMaxExps : Nat := 30

def naClExpKindRank : NaClExpKind → Nat
  | .undefinedExp => 0
  | .exprRegister => 0
  | .operandReference => 1
  | .exprConstant => 0
  | .exprConstant64 => 2
  | .exprSegmentAddress => 2
  | .exprMemOffset => 4

def naClGetExpRegister (node : NaClExp) : NaClOpKind :=
  NaClOpKind.ofNat node.value.toInt.toNat

def naClGetExpVectorRegister (vector : NaClExpVector) (index : Nat) :
    NaClOpKind :=
  naClGetExpRegister (vector.node index)

def expWidth (vector : NaClExpVector) : Nat → Nat → Nat
  | 0, _ => 1
  | fuel + 1, index =>
      (List.range (naClExpKindRank (vector.node index).kind)).foldl
        (fun count _ => count + expWidth vector fuel (index + count)) 1

def naClExpWidth (vector : NaClExpVector) (index : Nat) : Nat :=
  expWidth vector naclMaxExps index

/-- The node may be the `-1` of a failed search: then the first kid is the
first node of the vector. -/
def naClGetExpKidIndex (vector : NaClExpVector) (index : Int) (kid : Nat) :
    Nat :=
  (List.range kid).foldl (fun next _ => next + naClExpWidth vector next)
    (index + 1).toNat

def parentIndex (vector : NaClExpVector) : Nat → Nat → Option Nat
  | 0, _ => none
  | index + 1, numKids =>
      let rank := naClExpKindRank (vector.node index).kind
      if numKids ≤ rank then
        some index
      else
        parentIndex vector index (numKids + 1 - rank)

def naClGetExpParentIndex (vector : NaClExpVector) (index : Nat) :
    Option Nat :=
  parentIndex vector index 1

def expsOfKind (vector : NaClExpVector) (kind : NaClExpKind) : List Nat :=
  (List.range vector.numberExprNodes).filter fun index =>
    (vector.node index).kind == kind

/-- The `n`-th node of a kind, counted from one, or `-1`. -/
def naClGetNthExpKind (vector : NaClExpVector) (kind : NaClExpKind)
    (n : Nat) : Int :=
  match (expsOfKind vector kind)[n - 1]? with
  | some index => index
  | none => -1

def naClGetExpConstant (vector : NaClExpVector) (index : Nat) : Nat :=
  match (vector.node index).kind with
  | .exprConstant => ((vector.node index).value.toInt % 2 ^ 64).toNat
  | .exprConstant64 =>
      ((vector.node (index + 1)).value.toInt % 2 ^ 32).toNat +
        ((vector.node (index + 2)).value.toInt % 2 ^ 32).toNat * 2 ^ 32
  | _ => 0

def naClExtractBinaryOperandIndices (vector : NaClExpVector) :
    Option (Nat × Nat) :=
  match expsOfKind vector .operandReference with
  | first :: second :: _ => some (first + 1, second + 1)
  | _ => none

def vectorOf (state : NaClInstState) : NaClExpVector :=
  state.nodes.getD ⟨0, fun _ => ⟨.undefinedExp, 0, []⟩⟩

/-! ## Registers -/

def naClRegTable8NoRex : List NaClOpKind :=
  [.regAL, .regCL, .regDL, .regBL, .regAH, .regCH, .regDH, .regBH,
    .regUnknown, .regUnknown, .regUnknown, .regUnknown,
    .regUnknown, .regUnknown, .regUnknown, .regUnknown]

def naClRegTable8NoRexTo64 : List Nat :=
  [0, 1, 2, 3, 0, 1, 2, 3, 0, 0, 0, 0, 0, 0, 0, 0]

def naClRegTable8Rex : List NaClOpKind :=
  [.regAL, .regCL, .regDL, .regBL, .regSPL, .regBPL, .regSIL, .regDIL,
    .regR8B, .regR9B, .regR10B, .regR11B,
    .regR12B, .regR13B, .regR14B, .regR15B]

def naClRegTable8RexTo64 : List Nat :=
  List.range 16

def naClRegTable16 : List NaClOpKind :=
  [.regAX, .regCX, .regDX, .regBX, .regSP, .regBP, .regSI, .regDI,
    .regR8W, .regR9W, .regR10W, .regR11W,
    .regR12W, .regR13W, .regR14W, .regR15W]

def naClRegTable32 : List NaClOpKind :=
  [.regEAX, .regECX, .regEDX, .regEBX, .regESP, .regEBP, .regESI, .regEDI,
    .regR8D, .regR9D, .regR10D, .regR11D,
    .regR12D, .regR13D, .regR14D, .regR15D]

def naClRegTable64 : List NaClOpKind :=
  [.regRAX, .regRCX, .regRDX, .regRBX, .regRSP, .regRBP, .regRSI, .regRDI,
    .regR8, .regR9, .regR10, .regR11, .regR12, .regR13, .regR14, .regR15]

def naClGet64For32BitReg (reg32 : NaClOpKind) : NaClOpKind :=
  ((naClRegTable32.zip naClRegTable64).lookup reg32).getD .regUnknown

def naClGet32For64BitReg (reg64 : NaClOpKind) : NaClOpKind :=
  ((naClRegTable64.zip naClRegTable32).lookup reg64).getD .regUnknown

def naClAddSubRegsFold (subtable table : List NaClOpKind)
    (indexFold : List Nat) (subregTable : NaClOpKind → NaClOpKind) :
    NaClOpKind → NaClOpKind :=
  (subtable.zip indexFold).foldl
    (fun built entry =>
      if entry.1 ≠ .regUnknown then
        Function.update built entry.1 (table.getD entry.2 .regUnknown)
      else
        built)
    subregTable

def naClAddSubRegs (subtable table : List NaClOpKind) :
    (NaClOpKind → NaClOpKind) → NaClOpKind → NaClOpKind :=
  naClAddSubRegsFold subtable table (List.range 16)

/-- The 16, 32 and 64 bit registers of both maps to 64 bit registers. -/
def addWideRegs (subregTable : NaClOpKind → NaClOpKind) :
    NaClOpKind → NaClOpKind :=
  naClAddSubRegs naClRegTable64 naClRegTable64
    (naClAddSubRegs naClRegTable32 naClRegTable64
      (naClAddSubRegs naClRegTable16 naClRegTable64 subregTable))

def naClSubreg64RegNoRex : NaClOpKind → NaClOpKind :=
  addWideRegs (naClAddSubRegsFold naClRegTable8NoRex naClRegTable64
    naClRegTable8NoRexTo64 fun _ => .regUnknown)

def naClSubreg64RegRex : NaClOpKind → NaClOpKind :=
  addWideRegs (naClAddSubRegsFold naClRegTable8Rex naClRegTable64
    naClRegTable8RexTo64 fun _ => .regUnknown)

def subreg64 (state : NaClInstState) (subreg : NaClOpKind) : NaClOpKind :=
  if state.rexPrefix ≠ 0 then naClSubreg64RegRex subreg
  else naClSubreg64RegNoRex subreg

/-- The word at an index of `NaClRegTable64`, which has sixteen entries; other
memory comes after them. -/
def regTable64Word (pastRegTable64 : Nat → Nat) (index : Nat) : Nat :=
  match naClRegTable64[index]? with
  | some reg => reg.number
  | none => pastRegTable64 index

def naClIs64Subreg (pastRegTable64 : Nat → Nat) (state : NaClInstState)
    (subreg reg64 : NaClOpKind) : Bool :=
  (subreg64 state subreg).number ==
    regTable64Word pastRegTable64 reg64.number

/-! ## Patterns -/

/-- Operand flags that are `OpSet` and not `OpUse`. -/
def onlySets (inst : NaClInst) (index : Nat) : Bool :=
  inst.operandHas index .opSet && !inst.operandHas index .opUse

def onlyUses (inst : NaClInst) (index : Nat) : Bool :=
  inst.operandHas index .opUse && !inst.operandHas index .opSet

def setsAndUses (inst : NaClInst) (index : Nat) : Bool :=
  inst.operandHas index .opUse && inst.operandHas index .opSet

def isRegisterNode (vector : NaClExpVector) (index : Nat)
    (reg : NaClOpKind) : Bool :=
  (vector.node index).kind == .exprRegister &&
    reg == naClGetExpVectorRegister vector index

def naClIsBinaryUsingRegisters (inst : NaClInst) (name : NaClMnemonic)
    (vector : NaClExpVector) (reg1 reg2 : NaClOpKind) : Bool :=
  name == inst.name && inst.numberOperands == 2 &&
    isRegisterNode vector 1 reg1 && isRegisterNode vector 3 reg2

def naClIsMovUsingRegisters (inst : NaClInst) (vector : NaClExpVector)
    (regSet regUse : NaClOpKind) : Bool :=
  naClIsBinaryUsingRegisters inst .instMov vector regSet regUse &&
    onlySets inst 0 && onlyUses inst 1

def naClIsBinarySetUsingRegisters (inst : NaClInst) (name : NaClMnemonic)
    (vector : NaClExpVector) (reg1 reg2 : NaClOpKind) : Bool :=
  naClIsBinaryUsingRegisters inst name vector reg1 reg2 &&
    setsAndUses inst 0 && onlyUses inst 1

def naClOperandOneIsRegisterSet (state : NaClInstState)
    (reg : NaClOpKind) : Bool :=
  decide (2 ≤ (vectorOf state).numberExprNodes) &&
    isRegisterNode (vectorOf state) 1 reg &&
    ((vectorOf state).node 1).has .exprSet

def naClOperandOneZeroExtends (state : NaClInstState) : Bool :=
  decide (1 ≤ state.inst.numberOperands) &&
    state.inst.operandHas 0 .operandZeroExtendsV && state.operandSize == 4

def naClAssignsRegisterWithZeroExtends (state : NaClInstState)
    (reg : NaClOpKind) : Bool :=
  naClOperandOneIsRegisterSet state reg && naClOperandOneZeroExtends state

/-- `add` or `sub` of a 32 bit constant and `%esp`. -/
def naClIsAddOrSubBoundedConstFromEsp (state : NaClInstState) : Bool :=
  (state.inst.name == .instAdd || state.inst.name == .instSub) &&
    state.inst.numberOperands == 2 &&
    isRegisterNode (vectorOf state) 1 .regESP &&
    ((vectorOf state).node 3).kind == .exprConstant

def memOffsetPart (vector : NaClExpVector) (memOffset part : Nat) : Nat :=
  naClGetExpKidIndex vector memOffset part

def isConstantNode (vector : NaClExpVector) (index value : Nat) : Bool :=
  (vector.node index).kind == .exprConstant &&
    naClGetExpConstant vector index == value

def naClIsLeaAddressRegPlusRbase (baseRegister : NaClOpKind)
    (state : NaClInstState) (reg : NaClOpKind) : Bool :=
  let vector := vectorOf state
  let op2 := naClGetExpKidIndex vector
    (naClGetNthExpKind vector .operandReference 2) 0
  state.inst.name == .instLea && state.inst.numberOperands == 2 &&
    (vector.node op2).kind == .exprMemOffset &&
    (vector.node op2).has .exprSize64 &&
    naClGetExpVectorRegister vector (memOffsetPart vector op2 0) == reg &&
    naClGetExpVectorRegister vector (memOffsetPart vector op2 1) ==
      baseRegister &&
    isConstantNode vector (memOffsetPart vector op2 2) 1 &&
    isConstantNode vector (memOffsetPart vector op2 3) 0

def naClMemOffsetMatchesBaseIndex (vector : NaClExpVector) (memOffset : Nat)
    (baseRegister indexRegister : NaClOpKind) : Bool :=
  naClGetExpVectorRegister vector (memOffsetPart vector memOffset 0) ==
      baseRegister &&
    naClGetExpVectorRegister vector (memOffsetPart vector memOffset 1) ==
      indexRegister &&
    naClGetExpConstant vector (memOffsetPart vector memOffset 2) == 1 &&
    naClGetExpConstant vector (memOffsetPart vector memOffset 3) == 0

end NativeClient.Validator64
