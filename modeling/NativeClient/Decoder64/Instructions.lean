import NativeClient.Decoder.OpcodeTables
import NativeClient.Library.Bytes

/-!
# Instructions of the 64 bit decoder

The types of `ncopcode_desc.h`, `ncop_exps.h` and `nc_inst_state_internal.h`.
`g_OpcodeTable` is generated, and `NaClBuildExpVector` translates each of its
operands, so both are parameters here: a `Tables`.
-/

namespace NativeClient.Decoder64

open NativeClient.Library
open NativeClient.Decoder (NaClInstType)

inductive NaClOpKind where
  | unknownOperand | aOperand | awOperand | avOperand | aoOperand | eOperand
  | ebOperand | ewOperand | evOperand | eoOperand | edqOperand | gOperand
  | gbOperand | gwOperand | gvOperand | goOperand | gdqOperand | segGOperand
  | gOpcodeBase | iOperand | ibOperand | iwOperand | ivOperand | ioOperand
  | i2Operand | jOperand | jbOperand | jwOperand | jvOperand | mOperand
  | mbOperand | mwOperand | mvOperand | moOperand | mdqOperand | mpwOperand
  | mpvOperand | mpoOperand | mmxEOperand | mmxNOperand | mmxGOperand
  | mmxGdOperand | xmmEOperand | xmmEoOperand | xmmGOperand | xmmGoOperand
  | cOperand | dOperand | oOperand | obOperand | owOperand | ovOperand
  | ooOperand | sOperand | stOperand | regUnknown | regAL | regBL | regCL
  | regDL | regAH | regBH | regCH | regDH | regDIL | regSIL | regBPL | regSPL
  | regR8B | regR9B | regR10B | regR11B | regR12B | regR13B | regR14B
  | regR15B | regAX | regBX | regCX | regDX | regSI | regDI | regBP | regSP
  | regR8W | regR9W | regR10W | regR11W | regR12W | regR13W | regR14W
  | regR15W | regEAX | regEBX | regECX | regEDX | regESI | regEDI | regEBP
  | regESP | regR8D | regR9D | regR10D | regR11D | regR12D | regR13D
  | regR14D | regR15D | regCS | regDS | regSS | regES | regFS | regGS
  | regCR0 | regCR1 | regCR2 | regCR3 | regCR4 | regCR5 | regCR6 | regCR7
  | regCR8 | regCR9 | regCR10 | regCR11 | regCR12 | regCR13 | regCR14
  | regCR15 | regDR0 | regDR1 | regDR2 | regDR3 | regDR4 | regDR5 | regDR6
  | regDR7 | regDR8 | regDR9 | regDR10 | regDR11 | regDR12 | regDR13
  | regDR14 | regDR15 | regEFLAGS | regRFLAGS | regEIP | regRIP | regRAX
  | regRBX | regRCX | regRDX | regRSI | regRDI | regRBP | regRSP | regR8
  | regR9 | regR10 | regR11 | regR12 | regR13 | regR14 | regR15 | regREIP
  | regREAX | regREBX | regRECX | regREDX | regRESP | regREBP | regRESI
  | regREDI | regREAXa | regDSEDI | regESEDI | regDSEBX | regST0 | regST1
  | regST2 | regST3 | regST4 | regST5 | regST6 | regST7 | regMMX0 | regMMX1
  | regMMX2 | regMMX3 | regMMX4 | regMMX5 | regMMX6 | regMMX7 | regXMM0
  | regXMM1 | regXMM2 | regXMM3 | regXMM4 | regXMM5 | regXMM6 | regXMM7
  | regXMM8 | regXMM9 | regXMM10 | regXMM11 | regXMM12 | regXMM13 | regXMM14
  | regXMM15 | regGP7 | const1
  deriving DecidableEq

def NaClOpKind.number (kind : NaClOpKind) : Nat :=
  kind.ctorIdx

inductive NaClMnemonic where
  | instInvalid | instNop | instPause | instUd2
  | instAdd | instAnd | instLea | instMov | instOr | instPop | instPush
  | instSub | instCall | instJmp
  | instJb | instJbe | instJcxz | instJecxz | instJrcxz | instJnl | instJnle
  | instJl | instJle | instJnb | instJnbe | instJno | instJnp | instJns
  | instJnz | instJo | instJp | instJs | instJz
  | instLoop | instLoope | instLoopne
  | other (number : Nat)
  deriving DecidableEq

inductive NaClIFlag where
  | opcodeUsesRexW | opcodeHasRexR | opcodeInModRm | opcode0F0F
  | opcodeInModRmRm | modRmModIs0x3 | modRmModIsnt0x3 | modRmRegSOperand
  | opcodeUsesModRm | opcodeHasImmed | opcodeHasImmedB | opcodeHasImmedW
  | opcodeHasImmedV | opcodeHasImmedO | opcodeHasImmedZ | opcodeHasImmedAddr
  | opcodeHasImmed2B | opcodeHasImmed2W | opcodeHasImmed2V
  | opcodeRex | opcodeLockable | opcodeAllowsRep | opcodeAllowsRepne
  | opcodeAllowsData16 | sizeIgnoresData16
  | operandSizeB | operandSizeW | operandSizeV | operandSizeO
  | addressSizeW | addressSizeV | addressSizeO
  | naClIllegal | operandSizeDefaultIs64 | operandSizeForce64 | longMode
  | ignorePrefixSEGCS
  deriving DecidableEq

inductive NaClOpFlag where
  | opUse | opSet | opDest | opAddress | opImplicit | operandNear | operandFar
  | operandRelative | operandZeroExtendsV | operandSignExtendsV
  | allowGOperandWithOpcodeInModRm
  deriving DecidableEq

structure NaClOp where
  kind : NaClOpKind
  flags : List NaClOpFlag
  deriving DecidableEq

structure NaClInst where
  name : NaClMnemonic
  insttype : NaClInstType
  flags : List NaClIFlag
  opcode : List UInt8
  numOpcodeBytes : Nat
  operands : List NaClOp
  deriving DecidableEq

namespace NaClInst

def has (inst : NaClInst) (flag : NaClIFlag) : Bool :=
  inst.flags.contains flag

def opcodeByte (inst : NaClInst) (index : Nat) : UInt8 :=
  inst.opcode.getD index 0

def numberOperands (inst : NaClInst) : Nat :=
  inst.operands.length

/-- `NaClGetInstOperand(inst, index)->flags & flag`. -/
def operandHas (inst : NaClInst) (index : Nat) (flag : NaClOpFlag) : Bool :=
  (inst.operands.getD index ⟨.unknownOperand, []⟩).flags.contains flag

end NaClInst

def gUndefinedOpcode : NaClInst :=
  ⟨.instInvalid, .invalid, [], [0], 1, []⟩

inductive NaClInstPrefix where
  | noPrefix | prefix0F | prefixF20F | prefixF30F | prefix660F | prefix0F0F
  | prefix0F38 | prefix660F38 | prefixF20F38 | prefix0F3A | prefix660F3A
  | prefixD8 | prefixD9 | prefixDA | prefixDB
  | prefixDC | prefixDD | prefixDE | prefixDF
  deriving DecidableEq

inductive NaClExpKind where
  | undefinedExp | exprRegister | operandReference | exprConstant
  | exprConstant64 | exprSegmentAddress | exprMemOffset
  deriving DecidableEq

inductive NaClExpFlag where
  | exprSet | exprUsed | exprAddress | exprDest
  | exprSize8 | exprSize16 | exprSize32 | exprSize64
  | exprUnsignedHex | exprSignedHex | exprUnsignedInt | exprSignedInt
  | exprImplicit | exprJumpTarget | exprDSrDICase | exprESrDICase
  deriving DecidableEq

structure NaClExp where
  kind : NaClExpKind
  value : Int32
  flags : List NaClExpFlag
  deriving DecidableEq

def NaClExp.has (node : NaClExp) (flag : NaClExpFlag) : Bool :=
  node.flags.contains flag

/-- The expression trees of the operands, flattened in preorder.  The cells
past the last node are there too. -/
structure NaClExpVector where
  numberExprNodes : Nat
  node : Nat → NaClExp

structure NaClInstState where
  /-- The offset of the instruction in the segment. -/
  mpc : Nat
  vpc : Nat
  length : Nat
  lengthLimit : Nat
  numPrefixBytes : Nat
  rexPrefix : UInt8
  numRexPrefixes : Nat
  modrm : UInt8
  hasSib : Bool
  sib : UInt8
  numDispBytes : Nat
  firstDispByte : Nat
  numImmBytes : Nat
  firstImmByte : Nat
  numImm2Bytes : Nat
  operandSize : Nat
  addressSize : Nat
  prefixMask : Nat
  inst : NaClInst
  nodes : Option NaClExpVector

/-- The generated tables, and the translation of operands.  A translation
looks at the bytes of its instruction only. -/
structure Tables where
  gOpcodeTable : NaClInstPrefix → UInt8 → List NaClInst
  naClBuildExpVector : Buffer → NaClInstState → NaClExpVector
  reads : ∀ (bytes other : Buffer) (state : NaClInstState),
    (∀ offset < state.length, bytes offset = other offset) →
      naClBuildExpVector bytes state = naClBuildExpVector other state

/-- `NaClInstStateExpVector`: built once. -/
def NaClInstState.expVector (tables : Tables) (bytes : Buffer)
    (state : NaClInstState) : NaClExpVector :=
  state.nodes.getD (tables.naClBuildExpVector bytes state)

end NativeClient.Decoder64
