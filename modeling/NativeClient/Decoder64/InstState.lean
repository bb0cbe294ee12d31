import NativeClient.Decoder.SegmentDecoder
import NativeClient.Decoder64.Instructions

/-!
# Decoding one instruction

`NaClDecodeInst` of `nc_inst_state.c`.  `bytes` is the memory from `mpc` on; it
goes on past the end of the segment, and only `length_limit` says where that
is.  A step that fails leaves nothing behind, so it returns `none`.
-/

namespace NativeClient.Decoder64

open NativeClient.Library
open NativeClient.Decoder (modrmMod modrmRm modrmReg modrmOpcode sibBase
  kPrefixSEGCS kPrefixSEGSS kPrefixSEGFS kPrefixSEGGS kPrefixDATA16
  kPrefixADDR16 kPrefixREPNE kPrefixREP kPrefixLOCK kPrefixSEGES kPrefixSEGDS)

def naclMaxBytesPerX86Instruction : Nat := 15

def kPrefixREX : Nat := 0x1000

def kNaClMaximumPrefixBytes : Nat := naclMaxBytesPerX86Instruction - 1

def kNaClPrefixTable (byte : UInt8) : Nat :=
  match byte with
  | 0x26 => kPrefixSEGES
  | 0x2e => kPrefixSEGCS
  | 0x36 => kPrefixSEGSS
  | 0x3e => kPrefixSEGDS
  | 0x64 => kPrefixSEGFS
  | 0x65 => kPrefixSEGGS
  | 0x66 => kPrefixDATA16
  | 0x67 => kPrefixADDR16
  | 0xf0 => kPrefixLOCK
  | 0xf2 => kPrefixREPNE
  | 0xf3 => kPrefixREP
  | _ => if 0x40 ≤ byte ∧ byte ≤ 0x4f then kPrefixREX else 0

def NaClInstState.masked (state : NaClInstState) (form : Nat) : Bool :=
  state.prefixMask &&& form != 0

/-- `size` bytes of a segment, of which `index` are behind. -/
def naClInstStateInit (vbase size index : Nat) : NaClInstState where
  mpc := index
  vpc := vbase + index
  length := 0
  lengthLimit := min (size - index) naclMaxBytesPerX86Instruction
  numPrefixBytes := 0
  rexPrefix := 0
  numRexPrefixes := 0
  modrm := 0
  hasSib := false
  sib := 0
  numDispBytes := 0
  firstDispByte := 0
  numImmBytes := 0
  firstImmByte := 0
  numImm2Bytes := 0
  operandSize := 0
  addressSize := 0
  prefixMask := 0
  inst := gUndefinedOpcode
  nodes := none

def naClClearInstState (state : NaClInstState) (opcodeLength : Nat) :
    NaClInstState :=
  { state with
    length := opcodeLength
    modrm := 0
    hasSib := false
    sib := 0
    numDispBytes := 0
    firstDispByte := 0
    numImmBytes := 0
    firstImmByte := 0
    numImm2Bytes := 0
    operandSize := 32
    addressSize := 32
    nodes := none }

/-! ## Opcode sequences -/

/-- A sequence that `NaClDefNopLikeSeq` defines. -/
structure OpcodeSequence where
  bytes : List UInt8
  opcode : UInt8
  name : NaClMnemonic

def OpcodeSequence.inst (sequence : OpcodeSequence) : NaClInst :=
  ⟨sequence.name, .i386, [], [sequence.opcode], 1, []⟩

/-- `NaClDefNops`. -/
def opcodeSequences : List OpcodeSequence :=
  [ ⟨[0x90], 0x90, .instNop⟩,
    ⟨[0x66, 0x90], 0x90, .instNop⟩,
    ⟨[0xf3, 0x90], 0x90, .instPause⟩,
    ⟨[0x0f, 0x1f, 0x00], 0x1f, .instNop⟩,
    ⟨[0x0f, 0x1f, 0x40, 0x00], 0x1f, .instNop⟩,
    ⟨[0x0f, 0x1f, 0x44, 0x00, 0x00], 0x1f, .instNop⟩,
    ⟨[0x66, 0x0f, 0x1f, 0x44, 0x00, 0x00], 0x1f, .instNop⟩,
    ⟨[0x0f, 0x1f, 0x80, 0x00, 0x00, 0x00, 0x00], 0x1f, .instNop⟩,
    ⟨[0x0f, 0x1f, 0x84, 0x00, 0x00, 0x00, 0x00, 0x00], 0x1f, .instNop⟩,
    ⟨[0x66, 0x0f, 0x1f, 0x84, 0x00, 0x00, 0x00, 0x00, 0x00], 0x1f, .instNop⟩,
    ⟨[0x66, 0x2e, 0x0f, 0x1f, 0x84, 0x00, 0x00, 0x00, 0x00, 0x00], 0x1f,
      .instNop⟩,
    ⟨[0x66, 0x66, 0x2e, 0x0f, 0x1f, 0x84, 0x00, 0x00, 0x00, 0x00, 0x00], 0x1f,
      .instNop⟩,
    ⟨[0x66, 0x66, 0x66, 0x2e, 0x0f, 0x1f, 0x84, 0x00, 0x00, 0x00, 0x00, 0x00],
      0x1f, .instNop⟩,
    ⟨[0x66, 0x66, 0x66, 0x66, 0x2e, 0x0f, 0x1f, 0x84, 0x00, 0x00, 0x00, 0x00,
      0x00], 0x1f, .instNop⟩,
    ⟨[0x66, 0x66, 0x66, 0x66, 0x66, 0x2e, 0x0f, 0x1f, 0x84, 0x00, 0x00, 0x00,
      0x00, 0x00], 0x1f, .instNop⟩,
    ⟨[0x66, 0x66, 0x66, 0x66, 0x66, 0x66, 0x2e, 0x0f, 0x1f, 0x84, 0x00, 0x00,
      0x00, 0x00, 0x00], 0x1f, .instNop⟩,
    ⟨[0x0f, 0x0b], 0x0b, .instUd2⟩ ]

/-- A node of the trie `g_OpcodeSeq` is named by the bytes that lead to it;
this is its `matching_inst`. -/
def matchingInst (path : List UInt8) : Option NaClInst :=
  (opcodeSequences.find? fun sequence => sequence.bytes == path).map
    OpcodeSequence.inst

/-- The trie has a node at the end of `path`. -/
def isTrieNode (path : List UInt8) : Bool :=
  opcodeSequences.any fun sequence => path.isPrefixOf sequence.bytes

/-- The `do` loop of `NaClConsumeOpcodeSequence`, at a node of the trie.  The
length of the path is `state->length` after the increment, and the trie is not
deeper than the fuel. -/
def consumeSequenceFrom (bytes : Buffer) (limit : Nat) :
    Nat → List UInt8 → Option (NaClInst × Nat)
  | 0, _ => none
  | fuel + 1, path =>
      match matchingInst path with
      | some inst => some (inst, path.length)
      | none =>
          if isTrieNode (path ++ [bytes path.length]) then
            if path.length ≤ limit then
              consumeSequenceFrom bytes limit fuel
                (path ++ [bytes path.length])
            else
              none
          else
            none

def trieDepth : Nat := 16

def naClConsumeOpcodeSequence (bytes : Buffer) (limit : Nat) :
    Option (NaClInst × Nat) :=
  if limit = 0 then
    none
  else if isTrieNode [bytes 0] then
    consumeSequenceFrom bytes limit trieDepth [bytes 0]
  else
    none

/-! ## Prefix and opcode bytes -/

def takePrefixByte (byte : UInt8) (state : NaClInstState) : NaClInstState :=
  let taken := { state with
    prefixMask := state.prefixMask ||| kNaClPrefixTable byte
    numPrefixBytes := state.numPrefixBytes + 1
    length := state.length + 1 }
  if kNaClPrefixTable byte = kPrefixREX then
    { taken with
      rexPrefix := byte
      numRexPrefixes := state.numRexPrefixes + 1 }
  else
    taken

/-- The loop over at most `left` more prefix bytes; `rexIndex` is the index of
the last `REX` prefix. -/
def consumePrefixLoop (bytes : Buffer) :
    Nat → Option Nat → NaClInstState → Option Nat × NaClInstState
  | 0, rexIndex, state => (rexIndex, state)
  | left + 1, rexIndex, state =>
      if state.lengthLimit ≤ state.length then
        (rexIndex, state)
      else if kNaClPrefixTable (bytes state.length) = 0 then
        (rexIndex, state)
      else
        consumePrefixLoop bytes left
          (if kNaClPrefixTable (bytes state.length) = kPrefixREX then
            some state.numPrefixBytes
          else
            rexIndex)
          (takePrefixByte (bytes state.length) state)

/-- Fails when a `REX` prefix is not the last prefix. -/
def naClConsumePrefixBytes (bytes : Buffer) (state : NaClInstState) :
    Bool × NaClInstState :=
  match consumePrefixLoop bytes kNaClMaximumPrefixBytes none state with
  | (none, consumed) => (true, consumed)
  | (some rexIndex, consumed) =>
      (rexIndex + 1 == consumed.numPrefixBytes, consumed)

/-- No `matched_prefix` stands for `NaClInstPrefixEnumSize`. -/
structure NaClInstPrefixDescriptor where
  opcodeByte : UInt8
  matchedPrefix : Option NaClInstPrefix
  /-- The next lookup is with one opcode byte less. -/
  nextLengthAdjustment : Bool

def takeOpcodeByte (state : NaClInstState) : NaClInstState :=
  { state with length := state.length + 1 }

def naClConsume0F38XXNaClInstBytes (bytes : Buffer) (state : NaClInstState) :
    NaClInstPrefixDescriptor × NaClInstState :=
  if state.lengthLimit ≤ state.length then
    (⟨0x38, none, false⟩, state)
  else
    (⟨bytes state.length,
      if state.masked kPrefixREPNE then some .prefixF20F38
      else if state.masked kPrefixDATA16 then some .prefix660F38
      else if state.prefixMask ||| kPrefixREX = kPrefixREX then
        some .prefix0F38
      else none, false⟩, takeOpcodeByte state)

def naClConsume0F3AXXNaClInstBytes (bytes : Buffer) (state : NaClInstState) :
    NaClInstPrefixDescriptor × NaClInstState :=
  if state.lengthLimit ≤ state.length then
    (⟨0x3a, none, false⟩, state)
  else
    (⟨bytes state.length,
      if state.masked kPrefixDATA16 then some .prefix660F3A
      else if state.prefixMask ||| kPrefixREX = kPrefixREX then
        some .prefix0F3A
      else none, false⟩, takeOpcodeByte state)

def naClConsume0FXXNaClInstBytes (opcodeByte : UInt8) (state : NaClInstState) :
    NaClInstPrefixDescriptor × NaClInstState :=
  (⟨opcodeByte,
    if state.masked kPrefixREPNE then some .prefixF20F
    else if state.masked kPrefixREP then some .prefixF30F
    else if state.masked kPrefixDATA16 then some .prefix660F
    else some .prefix0F, false⟩, state)

/-- `PrefixD8 + (opcode_byte - 0xD8)`, for the opcode bytes of the x87. -/
def x87Prefix (opcodeByte : UInt8) : Option NaClInstPrefix :=
  match opcodeByte with
  | 0xd8 => some .prefixD8
  | 0xd9 => some .prefixD9
  | 0xda => some .prefixDA
  | 0xdb => some .prefixDB
  | 0xdc => some .prefixDC
  | 0xdd => some .prefixDD
  | 0xde => some .prefixDE
  | 0xdf => some .prefixDF
  | _ => none

def naClConsumeX87NaClInstBytes (bytes : Buffer) (opcodeByte : UInt8)
    (matched : NaClInstPrefix) (state : NaClInstState) :
    NaClInstPrefixDescriptor × NaClInstState :=
  if state.length < state.lengthLimit then
    (⟨bytes state.length, some matched, false⟩, takeOpcodeByte state)
  else
    (⟨opcodeByte, some .noPrefix, false⟩, state)

def consumeSecondOpcodeByte (bytes : Buffer) (state : NaClInstState) :
    NaClInstPrefixDescriptor × NaClInstState :=
  if state.lengthLimit ≤ state.length then
    (⟨0x0f, none, false⟩, state)
  else if bytes state.length = 0x38 then
    naClConsume0F38XXNaClInstBytes bytes (takeOpcodeByte state)
  else if bytes state.length = 0x3a then
    naClConsume0F3AXXNaClInstBytes bytes (takeOpcodeByte state)
  else
    naClConsume0FXXNaClInstBytes (bytes state.length) (takeOpcodeByte state)

def naClConsumeInstBytes (bytes : Buffer) (state : NaClInstState) :
    NaClInstPrefixDescriptor × NaClInstState :=
  if state.lengthLimit ≤ state.length then
    (⟨0, none, false⟩, state)
  else if bytes state.length = 0x0f then
    consumeSecondOpcodeByte bytes (takeOpcodeByte state)
  else
    match x87Prefix (bytes state.length) with
    | some matched =>
        naClConsumeX87NaClInstBytes bytes (bytes state.length) matched
          (takeOpcodeByte state)
    | none =>
        (⟨bytes state.length, some .noPrefix, false⟩, takeOpcodeByte state)

/-! ## Matching one candidate -/

def naClExtractOpSize (state : NaClInstState) : Nat :=
  if state.inst.has .operandSizeB then
    1
  else if state.rexPrefix &&& 0x8 ≠ 0 ∨ state.inst.has .operandSizeForce64 then
    8
  else if state.masked kPrefixDATA16 ∧
      state.inst.has .sizeIgnoresData16 = false then
    2
  else if state.inst.has .operandSizeDefaultIs64 then
    8
  else
    4

def naClExtractAddressSize (state : NaClInstState) : Nat :=
  if state.masked kPrefixADDR16 then 32 else 64

def allowsSize (inst : NaClInst) (narrow middle wide : NaClIFlag)
    (unit size : Nat) : Bool :=
  if inst.has narrow || inst.has middle || inst.has wide then
    if size = unit then inst.has narrow
    else if size = 2 * unit then inst.has middle
    else if size = 4 * unit then inst.has wide
    else false
  else
    true

def naClConsumeAndCheckOperandSize (state : NaClInstState) :
    Option NaClInstState :=
  if allowsSize state.inst .operandSizeW .operandSizeV .operandSizeO 2
      (naClExtractOpSize state) then
    some { state with operandSize := naClExtractOpSize state }
  else
    none

def naClConsumeAndCheckAddressSize (state : NaClInstState) :
    Option NaClInstState :=
  if allowsSize state.inst .addressSizeW .addressSizeV .addressSizeO 16
      (naClExtractAddressSize state) then
    some { state with addressSize := naClExtractAddressSize state }
  else
    none

def allowsModRm (inst : NaClInst) (byte : UInt8) : Bool :=
  !(modrmMod byte == 3 && inst.has .modRmModIsnt0x3) &&
    !(modrmMod byte != 3 && inst.has .modRmModIs0x3) &&
    !(inst.has .modRmRegSOperand && decide (5 < modrmReg byte))

def matchesModRm (inst : NaClInst) (byte : UInt8) : Bool :=
  !inst.has .opcodeInModRm ||
    (modrmOpcode byte == (inst.opcodeByte inst.numOpcodeBytes).toNat &&
      (!inst.has .opcodeInModRmRm ||
        modrmRm byte == (inst.opcodeByte (inst.numOpcodeBytes + 1)).toNat))

def naClConsumeModRm (bytes : Buffer) (state : NaClInstState) :
    Option NaClInstState :=
  if state.inst.has .opcodeUsesModRm then
    if state.lengthLimit ≤ state.length then
      none
    else if allowsModRm state.inst (bytes state.length) &&
        matchesModRm state.inst (bytes state.length) then
      some { state with
        modrm := bytes state.length
        length := state.length + 1
        numDispBytes := 0
        firstDispByte := 0
        sib := 0
        hasSib := false }
    else
      none
  else
    some state

def naClInstRequiresSib (state : NaClInstState) : Bool :=
  state.inst.has .opcodeUsesModRm && state.addressSize != 16 &&
    modrmRm state.modrm == 4 && modrmMod state.modrm != 3

def naClConsumeSib (bytes : Buffer) (state : NaClInstState) :
    Option NaClInstState :=
  if naClInstRequiresSib state then
    if state.lengthLimit ≤ state.length then
      none
    else if sibBase (bytes state.length) = 5 ∧ 2 < modrmMod state.modrm then
      none
    else
      some { state with
        hasSib := true
        sib := bytes state.length
        length := state.length + 1 }
  else
    some { state with hasSib := false, sib := 0 }

def naClGetNumDispBytes (state : NaClInstState) : Nat :=
  if state.inst.has .opcodeUsesModRm then
    if state.addressSize = 16 then
      match modrmMod state.modrm with
      | 0 => if modrmRm state.modrm = 6 then 4 else 0
      | 1 => 1
      | 2 => 2
      | _ => 0
    else
      match modrmMod state.modrm with
      | 0 =>
          if modrmRm state.modrm = 5 then 4
          else if state.hasSib ∧ sibBase state.sib = 5 then 4
          else 0
      | 1 => 1
      | 2 => 4
      | _ => 0
  else
    0

def naClConsumeDispBytes (state : NaClInstState) : Option NaClInstState :=
  let consumed := { state with
    numDispBytes := naClGetNumDispBytes state
    firstDispByte := state.length
    length := state.length + naClGetNumDispBytes state }
  if naClGetNumDispBytes state ≠ 0 ∧ state.lengthLimit < consumed.length then
    none
  else
    some consumed

def naClGetNumImmedBytes (state : NaClInstState) : Nat :=
  if state.inst.has .opcodeHasImmed then state.operandSize
  else if state.inst.has .opcodeHasImmedV then 4
  else if state.inst.has .opcodeHasImmedB then 1
  else if state.inst.has .opcodeHasImmedW then 2
  else if state.inst.has .opcodeHasImmedO then 8
  else if state.inst.has .opcodeHasImmedAddr then
    naClExtractAddressSize state / 8
  else if state.inst.has .opcodeHasImmedZ then
    if state.operandSize = 2 then 2 else 4
  else 0

def naClGetNumImmed2Bytes (state : NaClInstState) : Nat :=
  if state.inst.has .opcodeHasImmed2B then 1
  else if state.inst.has .opcodeHasImmed2W then 2
  else if state.inst.has .opcodeHasImmed2V then 4
  else 0

def consumeImmediate (state : NaClInstState) : Option NaClInstState :=
  let count := naClGetNumImmedBytes state
  if count = 0 then
    some { state with numImmBytes := 0, firstImmByte := 0 }
  else if state.lengthLimit < state.length + count then
    none
  else
    some { state with
      numImmBytes := count
      firstImmByte := state.length
      length := state.length + count }

def consumeImmediate2 (state : NaClInstState) : Option NaClInstState :=
  let count := naClGetNumImmed2Bytes state
  if count ≠ 0 ∧ state.lengthLimit < state.length + count then
    none
  else
    some { state with numImm2Bytes := count, length := state.length + count }

def naClConsumeImmediateBytes (state : NaClInstState) :
    Option NaClInstState :=
  (consumeImmediate state).bind consumeImmediate2

def hasLockableDest (vector : NaClExpVector) : Bool :=
  (List.range vector.numberExprNodes).any fun index =>
    (vector.node index).has .exprDest &&
      (vector.node index).kind == .exprMemOffset

/-- The `REX` prefix has the bits that the instruction needs. -/
def validRexPrefix (state : NaClInstState) : Bool :=
  !state.masked kPrefixREX ||
    (!(state.inst.has .opcodeUsesRexW && state.rexPrefix &&& 0x8 == 0) &&
      !(state.inst.has .opcodeHasRexR && state.rexPrefix &&& 0x4 == 0))

/-- A `LOCK` prefix is for the lockable instructions, which have their operands
translated here. -/
def naClValidatePrefixFlags (tables : Tables) (bytes : Buffer)
    (state : NaClInstState) : Option NaClInstState :=
  if state.masked kPrefixLOCK then
    if state.inst.has .opcodeLockable &&
        hasLockableDest (state.expVector tables bytes) &&
        validRexPrefix state then
      some { state with nodes := some (state.expVector tables bytes) }
    else
      none
  else if validRexPrefix state then
    some state
  else
    none

def replace3DNow (tables : Tables) (bytes : Buffer) (state : NaClInstState) :
    NaClInstState :=
  if state.inst.has .opcode0F0F ∧ state.numImmBytes = 1 then
    match tables.gOpcodeTable .prefix0F0F (bytes state.firstImmByte) with
    | inst :: _ => { state with inst := inst }
    | [] => state
  else
    state

def matchInst (tables : Tables) (bytes : Buffer) (state : NaClInstState) :
    Option NaClInstState := do
  let sized ← naClConsumeAndCheckOperandSize state
  let addressed ← naClConsumeAndCheckAddressSize sized
  let modrm ← naClConsumeModRm bytes addressed
  let sib ← naClConsumeSib bytes modrm
  let disp ← naClConsumeDispBytes sib
  let immediate ← naClConsumeImmediateBytes disp
  naClValidatePrefixFlags tables bytes immediate

/-! ## The search for a match -/

def tryInst (state : NaClInstState) (opcodeLength : Nat) (inst : NaClInst) :
    NaClInstState :=
  { naClClearInstState state opcodeLength with inst := inst }

def matchCandidates (tables : Tables) (bytes : Buffer)
    (state : NaClInstState) (opcodeLength : Nat) :
    List NaClInst → Option NaClInstState
  | [] => none
  | inst :: rest =>
      match matchInst tables bytes (tryInst state opcodeLength inst) with
      | some found => some (replace3DNow tables bytes found)
      | none => matchCandidates tables bytes state opcodeLength rest

def simplerPrefix : NaClInstPrefix → Option NaClInstPrefix
  | .prefix660F => some .prefix0F
  | .prefix660F38 => some .prefix0F38
  | .prefix660F3A => some .prefix0F3A
  | .prefixD8 | .prefixD9 | .prefixDA | .prefixDB
  | .prefixDC | .prefixDD | .prefixDE | .prefixDF => some .noPrefix
  | _ => none

def adjustsLength : NaClInstPrefix → Bool
  | .prefixD8 | .prefixD9 | .prefixDA | .prefixDB
  | .prefixDC | .prefixDD | .prefixDE | .prefixDF => true
  | _ => false

/-- `NaClGetNextInstCandidates` and the loop around it: the match, if there is
one, and the opcode length of the last lookup.  No prefix has more simpler ones
than the fuel. -/
def searchCandidates (tables : Tables) (bytes : Buffer)
    (state : NaClInstState) :
    Nat → NaClInstPrefixDescriptor → Nat → Option NaClInstState × Nat
  | 0, _, opcodeLength => (none, opcodeLength)
  | fuel + 1, desc, opcodeLength =>
      match desc.matchedPrefix with
      | none => (none, opcodeLength)
      | some matched =>
          let length :=
            if desc.nextLengthAdjustment then opcodeLength - 1
            else opcodeLength
          let byte :=
            if desc.nextLengthAdjustment then bytes (length - 1)
            else desc.opcodeByte
          match matchCandidates tables bytes state length
              (tables.gOpcodeTable matched byte) with
          | some found => (some found, length)
          | none =>
              searchCandidates tables bytes state fuel
                ⟨byte, simplerPrefix matched,
                  desc.nextLengthAdjustment || adjustsLength matched⟩ length

def searchFuel : Nat := 3

def undefinedInst (state : NaClInstState) (opcodeLength : Nat) :
    NaClInstState :=
  { naClClearInstState state opcodeLength with
    inst := gUndefinedOpcode
    length :=
      if opcodeLength = 0 ∧ 0 < state.lengthLimit then 1 else opcodeLength }

def decodeByOpcode (tables : Tables) (bytes : Buffer)
    (state : NaClInstState) : NaClInstState :=
  match naClConsumePrefixBytes bytes state with
  | (false, prefixed) => undefinedInst prefixed 0
  | (true, prefixed) =>
      match naClConsumeInstBytes bytes prefixed with
      | (desc, opened) =>
          match searchCandidates tables bytes opened searchFuel desc
              opened.length with
          | (some found, _) => found
          | (none, opcodeLength) => undefinedInst opened opcodeLength

def naClDecodeInst (tables : Tables) (text : Buffer)
    (vbase size index : Nat) : NaClInstState :=
  let bytes := text.shift index
  let state := naClInstStateInit vbase size index
  match naClConsumeOpcodeSequence bytes state.lengthLimit with
  | some (inst, length) => { state with inst := inst, length := length }
  | none => decodeByOpcode tables bytes state

end NativeClient.Decoder64
