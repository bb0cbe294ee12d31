import Mathlib.Data.Nat.Basic

/-!
# Opcode tables of the 32 bit decoder

The contents of `ncdecodetab.h` as `ncdecode_table.c -m32` generates it.  A
table lists its defined opcodes as ranges of equal entries; every byte outside
the ranges is an undefined instruction.
-/

namespace NativeClient.Decoder

/-- How the validator treats an instruction, `NACLi_*`. -/
inductive NaClInstType where
  | undefined | illegal | invalid | system
  | i386 | i386L | i386R | i386RE
  | jmp8 | jmpz | indirect | opInMrm | returns
  | sfenceClflush | cmpxchg8b | cmpxchg16b | cmov
  | rdmsr | rdtsc | rdtscp | syscall | sysenter
  | x87 | mmx | mmxsse2 | threeDNow | emmx | e3dnow
  | sse | sse2 | sse2x | sse3 | sse4a | sse41 | sse42
  | movbe | popcnt | lzcnt | longmode | svm | ssse3
  | threeByte | fcmov | vmx | fxsave
  deriving DecidableEq, Repr

/-- How long the immediate of an instruction is, `IMM_*`. -/
inductive NCDecodeImmediateType where
  | unknown | none | fixed1 | fixed2 | fixed3 | fixed4
  | datav | addrv | group3F6 | group3F7 | farptr | movDatav
  deriving DecidableEq, Repr

/-- What the opcode says about the rest of the instruction.  A non-zero
`opinmrm` is the group in which the ModRM byte selects the instruction. -/
structure OpInfo where
  insttype : NaClInstType
  hasmrmbyte : Bool
  immtype : NCDecodeImmediateType
  opinmrm : Nat
  deriving DecidableEq, Repr

structure OpRange where
  first : Nat
  last : Nat
  info : OpInfo

abbrev DecodeTable := List OpRange

def decodeUndefinedInstInfo : OpInfo :=
  ⟨.undefined, false, .none, 0⟩

def DecodeTable.entry (table : DecodeTable) (opcode : UInt8) : OpInfo :=
  match table.find? fun range =>
      range.first ≤ opcode.toNat && opcode.toNat ≤ range.last with
  | some range => range.info
  | none => decodeUndefinedInstInfo

def kDecode1ByteOp : DecodeTable :=
  [ ⟨0x00, 0x03, .i386L, true, .none, 0⟩,
    ⟨0x04, 0x04, .i386L, false, .fixed1, 0⟩,
    ⟨0x05, 0x05, .i386L, false, .datav, 0⟩,
    ⟨0x06, 0x07, .illegal, false, .none, 0⟩,
    ⟨0x08, 0x0b, .i386L, true, .none, 0⟩,
    ⟨0x0c, 0x0c, .i386L, false, .fixed1, 0⟩,
    ⟨0x0d, 0x0d, .i386L, false, .datav, 0⟩,
    ⟨0x0e, 0x0e, .illegal, false, .none, 0⟩,
    ⟨0x10, 0x13, .i386L, true, .none, 0⟩,
    ⟨0x14, 0x14, .i386L, false, .fixed1, 0⟩,
    ⟨0x15, 0x15, .i386L, false, .datav, 0⟩,
    ⟨0x16, 0x17, .illegal, false, .none, 0⟩,
    ⟨0x18, 0x1b, .i386L, true, .none, 0⟩,
    ⟨0x1c, 0x1c, .i386L, false, .fixed1, 0⟩,
    ⟨0x1d, 0x1d, .i386L, false, .datav, 0⟩,
    ⟨0x1e, 0x1f, .illegal, false, .none, 0⟩,
    ⟨0x20, 0x23, .i386L, true, .none, 0⟩,
    ⟨0x24, 0x24, .i386L, false, .fixed1, 0⟩,
    ⟨0x25, 0x25, .i386L, false, .datav, 0⟩,
    ⟨0x26, 0x27, .illegal, false, .none, 0⟩,
    ⟨0x28, 0x2b, .i386L, true, .none, 0⟩,
    ⟨0x2c, 0x2c, .i386L, false, .fixed1, 0⟩,
    ⟨0x2d, 0x2d, .i386L, false, .datav, 0⟩,
    ⟨0x2e, 0x2f, .illegal, false, .none, 0⟩,
    ⟨0x30, 0x33, .i386L, true, .none, 0⟩,
    ⟨0x34, 0x34, .i386L, false, .fixed1, 0⟩,
    ⟨0x35, 0x35, .i386L, false, .datav, 0⟩,
    ⟨0x36, 0x37, .illegal, false, .none, 0⟩,
    ⟨0x38, 0x3b, .i386, true, .none, 0⟩,
    ⟨0x3c, 0x3c, .i386, false, .fixed1, 0⟩,
    ⟨0x3d, 0x3d, .i386, false, .datav, 0⟩,
    ⟨0x3e, 0x3f, .illegal, false, .none, 0⟩,
    ⟨0x40, 0x4f, .i386L, false, .none, 0⟩,
    ⟨0x50, 0x5f, .i386, false, .none, 0⟩,
    ⟨0x60, 0x61, .illegal, false, .none, 0⟩,
    ⟨0x62, 0x62, .illegal, true, .none, 0⟩,
    ⟨0x63, 0x63, .system, true, .none, 0⟩,
    ⟨0x64, 0x67, .illegal, false, .none, 0⟩,
    ⟨0x68, 0x68, .i386, false, .datav, 0⟩,
    ⟨0x69, 0x69, .i386, true, .datav, 0⟩,
    ⟨0x6a, 0x6a, .i386, false, .fixed1, 0⟩,
    ⟨0x6b, 0x6b, .i386, true, .fixed1, 0⟩,
    ⟨0x6c, 0x6f, .illegal, false, .none, 0⟩,
    ⟨0x70, 0x7f, .jmp8, false, .fixed1, 0⟩,
    ⟨0x80, 0x80, .opInMrm, true, .fixed1, 1⟩,
    ⟨0x81, 0x81, .opInMrm, true, .datav, 1⟩,
    ⟨0x82, 0x82, .illegal, true, .fixed1, 0⟩,
    ⟨0x83, 0x83, .opInMrm, true, .fixed1, 1⟩,
    ⟨0x84, 0x85, .i386, true, .none, 0⟩, ⟨0x86, 0x87, .i386L, true, .none, 0⟩,
    ⟨0x88, 0x8b, .i386, true, .none, 0⟩,
    ⟨0x8c, 0x8c, .illegal, true, .none, 0⟩,
    ⟨0x8d, 0x8d, .i386, true, .none, 0⟩,
    ⟨0x8e, 0x8e, .illegal, true, .none, 0⟩,
    ⟨0x8f, 0x8f, .opInMrm, true, .none, 18⟩,
    ⟨0x90, 0x90, .i386R, false, .none, 0⟩,
    ⟨0x91, 0x97, .i386L, false, .none, 0⟩,
    ⟨0x98, 0x99, .i386, false, .none, 0⟩,
    ⟨0x9a, 0x9a, .illegal, false, .farptr, 0⟩,
    ⟨0x9b, 0x9b, .x87, false, .none, 0⟩,
    ⟨0x9c, 0x9d, .illegal, false, .none, 0⟩,
    ⟨0x9e, 0x9f, .i386, false, .none, 0⟩,
    ⟨0xa0, 0xa3, .i386, false, .addrv, 0⟩,
    ⟨0xa4, 0xa5, .i386R, false, .none, 0⟩,
    ⟨0xa6, 0xa7, .i386RE, false, .none, 0⟩,
    ⟨0xa8, 0xa8, .i386, false, .fixed1, 0⟩,
    ⟨0xa9, 0xa9, .i386, false, .datav, 0⟩,
    ⟨0xaa, 0xab, .i386R, false, .none, 0⟩,
    ⟨0xac, 0xad, .illegal, false, .none, 0⟩,
    ⟨0xae, 0xaf, .i386RE, false, .none, 0⟩,
    ⟨0xb0, 0xb7, .i386, false, .fixed1, 0⟩,
    ⟨0xb8, 0xbf, .i386, false, .movDatav, 0⟩,
    ⟨0xc0, 0xc1, .opInMrm, true, .fixed1, 2⟩,
    ⟨0xc2, 0xc2, .returns, false, .fixed2, 0⟩,
    ⟨0xc3, 0xc3, .returns, false, .none, 0⟩,
    ⟨0xc4, 0xc5, .illegal, true, .none, 0⟩,
    ⟨0xc6, 0xc6, .opInMrm, true, .fixed1, 11⟩,
    ⟨0xc7, 0xc7, .opInMrm, true, .datav, 11⟩,
    ⟨0xc8, 0xc8, .illegal, false, .fixed3, 0⟩,
    ⟨0xc9, 0xc9, .i386, false, .none, 0⟩,
    ⟨0xca, 0xca, .returns, false, .fixed2, 0⟩,
    ⟨0xcb, 0xcb, .returns, false, .none, 0⟩,
    ⟨0xcc, 0xcc, .illegal, false, .none, 0⟩,
    ⟨0xcd, 0xcd, .illegal, false, .fixed1, 0⟩,
    ⟨0xce, 0xce, .illegal, false, .none, 0⟩,
    ⟨0xcf, 0xcf, .system, false, .none, 0⟩,
    ⟨0xd0, 0xd3, .opInMrm, true, .none, 2⟩,
    ⟨0xd4, 0xd5, .illegal, false, .fixed1, 0⟩,
    ⟨0xd6, 0xd7, .illegal, false, .none, 0⟩,
    ⟨0xd8, 0xdf, .x87, true, .none, 0⟩,
    ⟨0xe0, 0xe7, .illegal, false, .fixed1, 0⟩,
    ⟨0xe8, 0xe9, .jmpz, false, .datav, 0⟩,
    ⟨0xea, 0xea, .illegal, false, .farptr, 0⟩,
    ⟨0xeb, 0xeb, .jmp8, false, .fixed1, 0⟩,
    ⟨0xec, 0xf3, .illegal, false, .none, 0⟩,
    ⟨0xf4, 0xf5, .i386, false, .none, 0⟩,
    ⟨0xf6, 0xf6, .opInMrm, true, .group3F6, 3⟩,
    ⟨0xf7, 0xf7, .opInMrm, true, .group3F7, 3⟩,
    ⟨0xf8, 0xf9, .i386, false, .none, 0⟩,
    ⟨0xfa, 0xfb, .system, false, .none, 0⟩,
    ⟨0xfc, 0xfd, .i386, false, .none, 0⟩,
    ⟨0xfe, 0xfe, .opInMrm, true, .none, 4⟩,
    ⟨0xff, 0xff, .opInMrm, true, .none, 5⟩ ]

def kDecode0FXXOp : DecodeTable :=
  [ ⟨0x00, 0x00, .opInMrm, true, .none, 6⟩,
    ⟨0x01, 0x01, .opInMrm, true, .none, 7⟩,
    ⟨0x02, 0x02, .system, true, .none, 0⟩,
    ⟨0x03, 0x03, .illegal, true, .none, 0⟩,
    ⟨0x06, 0x06, .system, false, .none, 0⟩,
    ⟨0x08, 0x09, .system, false, .none, 0⟩,
    ⟨0x0b, 0x0b, .illegal, false, .none, 0⟩,
    ⟨0x0d, 0x0d, .opInMrm, true, .none, 19⟩,
    ⟨0x0e, 0x0e, .threeDNow, false, .none, 0⟩,
    ⟨0x0f, 0x0f, .threeDNow, true, .fixed1, 0⟩,
    ⟨0x10, 0x17, .sse, true, .none, 0⟩,
    ⟨0x18, 0x18, .opInMrm, true, .none, 16⟩,
    ⟨0x1f, 0x1f, .i386, true, .none, 0⟩, ⟨0x20, 0x23, .system, true, .none, 0⟩,
    ⟨0x28, 0x2f, .sse, true, .none, 0⟩, ⟨0x30, 0x30, .rdmsr, false, .none, 0⟩,
    ⟨0x31, 0x31, .rdtsc, false, .none, 0⟩,
    ⟨0x32, 0x32, .rdmsr, false, .none, 0⟩,
    ⟨0x33, 0x33, .system, false, .none, 0⟩,
    ⟨0x34, 0x35, .sysenter, false, .none, 0⟩,
    ⟨0x37, 0x37, .illegal, false, .none, 0⟩,
    ⟨0x38, 0x38, .threeByte, true, .none, 0⟩,
    ⟨0x3a, 0x3a, .threeByte, true, .fixed1, 0⟩,
    ⟨0x40, 0x4f, .cmov, true, .none, 0⟩, ⟨0x50, 0x59, .sse, true, .none, 0⟩,
    ⟨0x5a, 0x5b, .sse2, true, .none, 0⟩, ⟨0x5c, 0x5f, .sse, true, .none, 0⟩,
    ⟨0x60, 0x6b, .mmx, true, .none, 0⟩,
    ⟨0x6c, 0x6d, .invalid, false, .none, 0⟩,
    ⟨0x6e, 0x6f, .mmx, true, .none, 0⟩, ⟨0x70, 0x70, .sse, true, .fixed1, 0⟩,
    ⟨0x71, 0x71, .opInMrm, true, .fixed1, 12⟩,
    ⟨0x72, 0x72, .opInMrm, true, .fixed1, 13⟩,
    ⟨0x73, 0x73, .opInMrm, true, .fixed1, 14⟩,
    ⟨0x74, 0x76, .mmx, true, .none, 0⟩, ⟨0x77, 0x77, .mmx, false, .none, 0⟩,
    ⟨0x78, 0x7d, .invalid, false, .none, 0⟩,
    ⟨0x7e, 0x7f, .mmx, true, .none, 0⟩, ⟨0x80, 0x8f, .jmpz, false, .datav, 0⟩,
    ⟨0x90, 0x9f, .i386, true, .none, 0⟩,
    ⟨0xa0, 0xa1, .illegal, false, .none, 0⟩,
    ⟨0xa2, 0xa2, .i386, false, .none, 0⟩,
    ⟨0xa3, 0xa3, .illegal, true, .none, 0⟩,
    ⟨0xa4, 0xa4, .i386, true, .fixed1, 0⟩, ⟨0xa5, 0xa5, .i386, true, .none, 0⟩,
    ⟨0xa6, 0xa7, .invalid, false, .none, 0⟩,
    ⟨0xa8, 0xa9, .illegal, false, .none, 0⟩,
    ⟨0xaa, 0xaa, .system, false, .none, 0⟩,
    ⟨0xab, 0xab, .illegal, true, .none, 0⟩,
    ⟨0xac, 0xac, .i386, true, .fixed1, 0⟩, ⟨0xad, 0xad, .i386, true, .none, 0⟩,
    ⟨0xae, 0xae, .opInMrm, true, .none, 15⟩,
    ⟨0xaf, 0xaf, .i386, true, .none, 0⟩, ⟨0xb0, 0xb1, .i386L, true, .none, 0⟩,
    ⟨0xb2, 0xb5, .illegal, true, .none, 0⟩,
    ⟨0xb6, 0xb7, .i386, true, .none, 0⟩,
    ⟨0xb8, 0xb8, .invalid, false, .none, 0⟩,
    ⟨0xb9, 0xb9, .opInMrm, true, .none, 0⟩,
    ⟨0xba, 0xba, .opInMrm, true, .fixed1, 8⟩,
    ⟨0xbb, 0xbb, .illegal, true, .none, 0⟩,
    ⟨0xbc, 0xbf, .i386, true, .none, 0⟩, ⟨0xc0, 0xc1, .i386L, true, .none, 0⟩,
    ⟨0xc2, 0xc2, .sse, true, .fixed1, 0⟩, ⟨0xc3, 0xc3, .sse2, true, .none, 0⟩,
    ⟨0xc4, 0xc6, .sse, true, .fixed1, 0⟩,
    ⟨0xc7, 0xc7, .opInMrm, true, .none, 9⟩,
    ⟨0xc8, 0xcf, .i386, false, .none, 0⟩,
    ⟨0xd0, 0xd0, .invalid, false, .none, 0⟩,
    ⟨0xd1, 0xd3, .mmx, true, .none, 0⟩, ⟨0xd4, 0xd4, .sse2, true, .none, 0⟩,
    ⟨0xd5, 0xd5, .mmx, true, .none, 0⟩,
    ⟨0xd6, 0xd6, .invalid, false, .none, 0⟩,
    ⟨0xd7, 0xd7, .sse, true, .none, 0⟩, ⟨0xd8, 0xd9, .mmx, true, .none, 0⟩,
    ⟨0xda, 0xda, .sse, true, .none, 0⟩, ⟨0xdb, 0xdd, .mmx, true, .none, 0⟩,
    ⟨0xde, 0xde, .sse, true, .none, 0⟩, ⟨0xdf, 0xdf, .mmx, true, .none, 0⟩,
    ⟨0xe0, 0xe0, .sse, true, .none, 0⟩, ⟨0xe1, 0xe2, .mmx, true, .none, 0⟩,
    ⟨0xe3, 0xe4, .sse, true, .none, 0⟩, ⟨0xe5, 0xe5, .mmx, true, .none, 0⟩,
    ⟨0xe6, 0xe6, .invalid, false, .none, 0⟩,
    ⟨0xe7, 0xe7, .sse, true, .none, 0⟩, ⟨0xe8, 0xe9, .mmx, true, .none, 0⟩,
    ⟨0xea, 0xea, .sse, true, .none, 0⟩, ⟨0xeb, 0xed, .mmx, true, .none, 0⟩,
    ⟨0xee, 0xee, .sse, true, .none, 0⟩, ⟨0xef, 0xef, .mmx, true, .none, 0⟩,
    ⟨0xf0, 0xf0, .invalid, false, .none, 0⟩,
    ⟨0xf1, 0xf3, .mmx, true, .none, 0⟩, ⟨0xf4, 0xf4, .sse2, true, .none, 0⟩,
    ⟨0xf5, 0xf5, .mmx, true, .none, 0⟩, ⟨0xf6, 0xf7, .sse, true, .none, 0⟩,
    ⟨0xf8, 0xfa, .mmx, true, .none, 0⟩, ⟨0xfb, 0xfb, .sse2, true, .none, 0⟩,
    ⟨0xfc, 0xfe, .mmx, true, .none, 0⟩,
    ⟨0xff, 0xff, .invalid, false, .none, 0⟩ ]

def kDecode660FXXOp : DecodeTable :=
  [ ⟨0x10, 0x17, .sse2, true, .none, 0⟩, ⟨0x28, 0x2f, .sse2, true, .none, 0⟩,
    ⟨0x38, 0x38, .threeByte, true, .none, 0⟩,
    ⟨0x3a, 0x3a, .threeByte, true, .fixed1, 0⟩,
    ⟨0x40, 0x4f, .cmov, true, .none, 0⟩, ⟨0x50, 0x51, .sse2, true, .none, 0⟩,
    ⟨0x52, 0x53, .invalid, false, .none, 0⟩,
    ⟨0x54, 0x6f, .sse2, true, .none, 0⟩, ⟨0x70, 0x70, .sse2, true, .fixed1, 0⟩,
    ⟨0x71, 0x71, .opInMrm, true, .fixed1, 12⟩,
    ⟨0x72, 0x72, .opInMrm, true, .fixed1, 13⟩,
    ⟨0x73, 0x73, .opInMrm, true, .fixed1, 14⟩,
    ⟨0x74, 0x76, .sse2, true, .none, 0⟩,
    ⟨0x77, 0x77, .invalid, false, .none, 0⟩,
    ⟨0x78, 0x78, .opInMrm, true, .fixed1, 17⟩,
    ⟨0x79, 0x79, .sse4a, true, .none, 0⟩,
    ⟨0x7a, 0x7b, .invalid, false, .none, 0⟩,
    ⟨0x7c, 0x7d, .sse3, true, .none, 0⟩, ⟨0x7e, 0x7f, .sse2, true, .none, 0⟩,
    ⟨0xaf, 0xaf, .i386, true, .none, 0⟩, ⟨0xb6, 0xb7, .i386, true, .none, 0⟩,
    ⟨0xbe, 0xbf, .i386, true, .none, 0⟩, ⟨0xc2, 0xc2, .sse2, true, .fixed1, 0⟩,
    ⟨0xc3, 0xc3, .invalid, false, .none, 0⟩,
    ⟨0xc4, 0xc6, .sse2, true, .fixed1, 0⟩, ⟨0xd0, 0xd0, .sse3, true, .none, 0⟩,
    ⟨0xd1, 0xef, .sse2, true, .none, 0⟩,
    ⟨0xf0, 0xf0, .invalid, false, .none, 0⟩,
    ⟨0xf1, 0xfe, .sse2, true, .none, 0⟩,
    ⟨0xff, 0xff, .invalid, false, .none, 0⟩ ]

def kDecodeF20FXXOp : DecodeTable :=
  [ ⟨0x10, 0x11, .sse2, true, .none, 0⟩, ⟨0x12, 0x12, .sse3, true, .none, 0⟩,
    ⟨0x13, 0x17, .invalid, false, .none, 0⟩,
    ⟨0x28, 0x29, .invalid, false, .none, 0⟩,
    ⟨0x2a, 0x2a, .sse2, true, .none, 0⟩, ⟨0x2b, 0x2b, .sse4a, true, .none, 0⟩,
    ⟨0x2c, 0x2d, .sse2, true, .none, 0⟩,
    ⟨0x2e, 0x2f, .invalid, false, .none, 0⟩,
    ⟨0x38, 0x38, .threeByte, false, .none, 0⟩,
    ⟨0x50, 0x50, .invalid, false, .none, 0⟩,
    ⟨0x51, 0x51, .sse2, true, .none, 0⟩,
    ⟨0x52, 0x57, .invalid, false, .none, 0⟩,
    ⟨0x58, 0x5a, .sse2, true, .none, 0⟩,
    ⟨0x5b, 0x5b, .invalid, false, .none, 0⟩,
    ⟨0x5c, 0x5f, .sse2, true, .none, 0⟩,
    ⟨0x60, 0x6f, .invalid, false, .none, 0⟩,
    ⟨0x70, 0x70, .sse2, true, .fixed1, 0⟩,
    ⟨0x71, 0x77, .invalid, false, .none, 0⟩,
    ⟨0x78, 0x78, .sse4a, true, .fixed2, 0⟩,
    ⟨0x79, 0x79, .sse4a, true, .none, 0⟩,
    ⟨0x7a, 0x7b, .invalid, false, .none, 0⟩,
    ⟨0x7c, 0x7d, .sse3, true, .none, 0⟩,
    ⟨0x7e, 0x7f, .invalid, false, .none, 0⟩,
    ⟨0xb8, 0xbd, .invalid, false, .none, 0⟩,
    ⟨0xbe, 0xbe, .invalid, true, .none, 0⟩,
    ⟨0xbf, 0xbf, .invalid, false, .none, 0⟩,
    ⟨0xc2, 0xc2, .sse2, true, .fixed1, 0⟩,
    ⟨0xc3, 0xc6, .invalid, false, .none, 0⟩,
    ⟨0xd0, 0xd0, .sse3, true, .none, 0⟩,
    ⟨0xd1, 0xd5, .invalid, false, .none, 0⟩,
    ⟨0xd6, 0xd6, .sse2, true, .none, 0⟩,
    ⟨0xd7, 0xe5, .invalid, false, .none, 0⟩,
    ⟨0xe6, 0xe6, .sse2, true, .none, 0⟩,
    ⟨0xe7, 0xef, .invalid, false, .none, 0⟩,
    ⟨0xf0, 0xf0, .sse3, true, .none, 0⟩,
    ⟨0xf1, 0xff, .invalid, false, .none, 0⟩ ]

def kDecodeF30FXXOp : DecodeTable :=
  [ ⟨0x10, 0x11, .sse, true, .none, 0⟩, ⟨0x12, 0x12, .sse3, true, .none, 0⟩,
    ⟨0x13, 0x15, .invalid, false, .none, 0⟩,
    ⟨0x16, 0x16, .sse3, true, .none, 0⟩,
    ⟨0x17, 0x17, .invalid, false, .none, 0⟩,
    ⟨0x28, 0x29, .invalid, false, .none, 0⟩,
    ⟨0x2a, 0x2a, .sse, true, .none, 0⟩, ⟨0x2b, 0x2b, .sse4a, true, .none, 0⟩,
    ⟨0x2c, 0x2d, .sse, true, .none, 0⟩,
    ⟨0x2e, 0x2f, .invalid, false, .none, 0⟩,
    ⟨0x50, 0x50, .invalid, false, .none, 0⟩,
    ⟨0x51, 0x53, .sse, true, .none, 0⟩,
    ⟨0x54, 0x55, .invalid, false, .none, 0⟩,
    ⟨0x56, 0x56, .invalid, true, .none, 0⟩,
    ⟨0x57, 0x57, .invalid, false, .none, 0⟩,
    ⟨0x58, 0x59, .sse, true, .none, 0⟩, ⟨0x5a, 0x5b, .sse2, true, .none, 0⟩,
    ⟨0x5c, 0x5f, .sse, true, .none, 0⟩,
    ⟨0x60, 0x6e, .invalid, false, .none, 0⟩,
    ⟨0x6f, 0x6f, .sse2, true, .none, 0⟩, ⟨0x70, 0x70, .sse2, true, .fixed1, 0⟩,
    ⟨0x71, 0x75, .invalid, false, .none, 0⟩,
    ⟨0x76, 0x76, .invalid, true, .none, 0⟩,
    ⟨0x77, 0x7d, .invalid, false, .none, 0⟩,
    ⟨0x7e, 0x7f, .sse2, true, .none, 0⟩, ⟨0xb8, 0xb8, .popcnt, true, .none, 0⟩,
    ⟨0xb9, 0xb9, .invalid, false, .none, 0⟩,
    ⟨0xba, 0xba, .invalid, false, .fixed1, 0⟩,
    ⟨0xbb, 0xbc, .invalid, false, .none, 0⟩,
    ⟨0xbd, 0xbd, .lzcnt, true, .none, 0⟩,
    ⟨0xbe, 0xbe, .invalid, true, .none, 0⟩,
    ⟨0xbf, 0xbf, .invalid, false, .none, 0⟩,
    ⟨0xc2, 0xc2, .sse, true, .fixed1, 0⟩,
    ⟨0xc3, 0xc6, .invalid, false, .none, 0⟩,
    ⟨0xd0, 0xd5, .invalid, false, .none, 0⟩,
    ⟨0xd6, 0xd6, .sse2, true, .none, 0⟩,
    ⟨0xd7, 0xe5, .invalid, false, .none, 0⟩,
    ⟨0xe6, 0xe6, .sse2, true, .none, 0⟩,
    ⟨0xe7, 0xff, .invalid, false, .none, 0⟩ ]

/-- 3DNow! opcodes, named by the immediate byte after `0f 0f`. -/
def kDecode0F0FOp : DecodeTable :=
  [ ⟨0x0c, 0x0c, .e3dnow, true, .none, 0⟩,
    ⟨0x0d, 0x0d, .threeDNow, true, .none, 0⟩,
    ⟨0x1c, 0x1c, .e3dnow, true, .none, 0⟩,
    ⟨0x1d, 0x1d, .threeDNow, true, .none, 0⟩,
    ⟨0x8a, 0x8a, .e3dnow, true, .none, 0⟩,
    ⟨0x8e, 0x8e, .e3dnow, true, .none, 0⟩,
    ⟨0x90, 0x90, .threeDNow, true, .none, 0⟩,
    ⟨0x94, 0x94, .threeDNow, true, .none, 0⟩,
    ⟨0x96, 0x97, .threeDNow, true, .none, 0⟩,
    ⟨0x9a, 0x9a, .threeDNow, true, .none, 0⟩,
    ⟨0x9e, 0x9e, .threeDNow, true, .none, 0⟩,
    ⟨0xa0, 0xa0, .threeDNow, true, .none, 0⟩,
    ⟨0xa4, 0xa4, .threeDNow, true, .none, 0⟩,
    ⟨0xa6, 0xa7, .threeDNow, true, .none, 0⟩,
    ⟨0xaa, 0xaa, .threeDNow, true, .none, 0⟩,
    ⟨0xae, 0xae, .threeDNow, true, .none, 0⟩,
    ⟨0xb0, 0xb0, .threeDNow, true, .none, 0⟩,
    ⟨0xb4, 0xb4, .threeDNow, true, .none, 0⟩,
    ⟨0xb6, 0xb7, .threeDNow, true, .none, 0⟩,
    ⟨0xbb, 0xbb, .e3dnow, true, .none, 0⟩,
    ⟨0xbf, 0xbf, .threeDNow, true, .none, 0⟩ ]

def kDecode0F38Op : DecodeTable :=
  [ ⟨0x00, 0x0b, .ssse3, true, .none, 0⟩, ⟨0x1c, 0x1e, .ssse3, true, .none, 0⟩,
    ⟨0xf0, 0xf1, .movbe, true, .none, 0⟩ ]

def kDecode660F38Op : DecodeTable :=
  [ ⟨0x00, 0x0b, .ssse3, true, .none, 0⟩, ⟨0x10, 0x10, .sse41, true, .none, 0⟩,
    ⟨0x14, 0x15, .sse41, true, .none, 0⟩, ⟨0x17, 0x17, .sse41, true, .none, 0⟩,
    ⟨0x1c, 0x1e, .ssse3, true, .none, 0⟩, ⟨0x20, 0x25, .sse41, true, .none, 0⟩,
    ⟨0x28, 0x2b, .sse41, true, .none, 0⟩, ⟨0x30, 0x35, .sse41, true, .none, 0⟩,
    ⟨0x37, 0x37, .sse42, true, .none, 0⟩, ⟨0x38, 0x41, .sse41, true, .none, 0⟩,
    ⟨0x80, 0x81, .invalid, true, .none, 0⟩ ]

def kDecodeF20F38Op : DecodeTable :=
  [ ⟨0xf0, 0xf1, .sse42, true, .none, 0⟩ ]

def kDecode0F3AOp : DecodeTable :=
  [ ⟨0x0f, 0x0f, .ssse3, true, .fixed1, 0⟩ ]

def kDecode660F3AOp : DecodeTable :=
  [ ⟨0x08, 0x0e, .sse41, true, .fixed1, 0⟩,
    ⟨0x0f, 0x0f, .ssse3, true, .fixed1, 0⟩,
    ⟨0x14, 0x17, .sse41, true, .fixed1, 0⟩,
    ⟨0x20, 0x22, .sse41, true, .fixed1, 0⟩,
    ⟨0x40, 0x42, .sse41, true, .fixed1, 0⟩,
    ⟨0x60, 0x63, .sse42, true, .fixed1, 0⟩ ]

def kDecode87D8 : DecodeTable :=
  [ ⟨0x00, 0xff, .x87, true, .none, 0⟩ ]

def kDecode87D9 : DecodeTable :=
  [ ⟨0x00, 0x07, .x87, true, .none, 0⟩, ⟨0x08, 0x0f, .invalid, true, .none, 0⟩,
    ⟨0x10, 0x47, .x87, true, .none, 0⟩, ⟨0x48, 0x4f, .invalid, true, .none, 0⟩,
    ⟨0x50, 0x87, .x87, true, .none, 0⟩, ⟨0x88, 0x8f, .invalid, true, .none, 0⟩,
    ⟨0x90, 0xd0, .x87, true, .none, 0⟩, ⟨0xd1, 0xdf, .invalid, true, .none, 0⟩,
    ⟨0xe0, 0xe1, .x87, true, .none, 0⟩, ⟨0xe2, 0xe3, .invalid, true, .none, 0⟩,
    ⟨0xe4, 0xe5, .x87, true, .none, 0⟩, ⟨0xe6, 0xe7, .invalid, true, .none, 0⟩,
    ⟨0xe8, 0xee, .x87, true, .none, 0⟩, ⟨0xef, 0xef, .invalid, true, .none, 0⟩,
    ⟨0xf0, 0xff, .x87, true, .none, 0⟩ ]

def kDecode87DA : DecodeTable :=
  [ ⟨0x00, 0xbf, .x87, true, .none, 0⟩, ⟨0xc0, 0xdf, .fcmov, true, .none, 0⟩,
    ⟨0xe0, 0xe8, .invalid, true, .none, 0⟩, ⟨0xe9, 0xe9, .x87, true, .none, 0⟩,
    ⟨0xea, 0xff, .invalid, true, .none, 0⟩ ]

def kDecode87DB : DecodeTable :=
  [ ⟨0x00, 0x1f, .x87, true, .none, 0⟩, ⟨0x20, 0x27, .invalid, true, .none, 0⟩,
    ⟨0x28, 0x2f, .x87, true, .none, 0⟩, ⟨0x30, 0x37, .invalid, true, .none, 0⟩,
    ⟨0x38, 0x5f, .x87, true, .none, 0⟩, ⟨0x60, 0x67, .invalid, true, .none, 0⟩,
    ⟨0x68, 0x6f, .x87, true, .none, 0⟩, ⟨0x70, 0x77, .invalid, true, .none, 0⟩,
    ⟨0x78, 0x9f, .x87, true, .none, 0⟩, ⟨0xa0, 0xa7, .invalid, true, .none, 0⟩,
    ⟨0xa8, 0xaf, .x87, true, .none, 0⟩, ⟨0xb0, 0xb7, .invalid, true, .none, 0⟩,
    ⟨0xb8, 0xbf, .x87, true, .none, 0⟩, ⟨0xc0, 0xdf, .fcmov, true, .none, 0⟩,
    ⟨0xe0, 0xe1, .invalid, true, .none, 0⟩, ⟨0xe2, 0xe3, .x87, true, .none, 0⟩,
    ⟨0xe4, 0xe7, .invalid, true, .none, 0⟩, ⟨0xe8, 0xf7, .x87, true, .none, 0⟩,
    ⟨0xf8, 0xff, .invalid, true, .none, 0⟩ ]

def kDecode87DC : DecodeTable :=
  [ ⟨0x00, 0xcf, .x87, true, .none, 0⟩, ⟨0xd0, 0xdf, .invalid, true, .none, 0⟩,
    ⟨0xe0, 0xff, .x87, true, .none, 0⟩ ]

def kDecode87DD : DecodeTable :=
  [ ⟨0x00, 0x27, .x87, true, .none, 0⟩, ⟨0x28, 0x2f, .invalid, true, .none, 0⟩,
    ⟨0x30, 0x67, .x87, true, .none, 0⟩, ⟨0x68, 0x6f, .invalid, true, .none, 0⟩,
    ⟨0x70, 0xa7, .x87, true, .none, 0⟩, ⟨0xa8, 0xaf, .invalid, true, .none, 0⟩,
    ⟨0xb0, 0xc7, .x87, true, .none, 0⟩, ⟨0xc8, 0xcf, .invalid, true, .none, 0⟩,
    ⟨0xd0, 0xef, .x87, true, .none, 0⟩,
    ⟨0xf0, 0xff, .invalid, true, .none, 0⟩ ]

def kDecode87DE : DecodeTable :=
  [ ⟨0x00, 0xcf, .x87, true, .none, 0⟩, ⟨0xd0, 0xd8, .invalid, true, .none, 0⟩,
    ⟨0xd9, 0xd9, .x87, true, .none, 0⟩, ⟨0xda, 0xdf, .invalid, true, .none, 0⟩,
    ⟨0xe0, 0xff, .x87, true, .none, 0⟩ ]

def kDecode87DF : DecodeTable :=
  [ ⟨0x00, 0xbf, .x87, true, .none, 0⟩, ⟨0xc0, 0xdf, .invalid, true, .none, 0⟩,
    ⟨0xe0, 0xe0, .x87, true, .none, 0⟩, ⟨0xe1, 0xe7, .invalid, true, .none, 0⟩,
    ⟨0xe8, 0xf7, .x87, true, .none, 0⟩,
    ⟨0xf8, 0xff, .invalid, true, .none, 0⟩ ]

/-- The instruction types named by the opcode field of the ModRM byte, group by
group; a group of undefined instructions only is empty. -/
def kDecodeModRMType : List (List NaClInstType) :=
  [ [],
    [.i386L, .i386L, .i386L, .i386L, .i386L, .i386L, .i386L, .i386],
    [.i386, .i386, .i386, .i386, .i386, .i386, .undefined, .i386],
    [.i386, .undefined, .i386L, .i386L, .i386, .i386, .i386, .i386],
    [.i386L, .i386L, .undefined, .undefined, .undefined, .undefined,
      .undefined, .undefined],
    [.i386L, .i386L, .indirect, .illegal, .indirect, .illegal, .i386,
      .undefined],
    [.system, .system, .system, .system, .system, .system, .undefined,
      .undefined],
    [.system, .system, .system, .system, .system, .undefined, .system, .system],
    [.undefined, .undefined, .undefined, .undefined, .illegal, .illegal,
      .illegal, .illegal],
    [.undefined, .cmpxchg8b, .undefined, .undefined, .undefined, .undefined,
      .undefined, .undefined],
    [],
    [.i386, .undefined, .undefined, .undefined, .undefined, .undefined,
      .undefined, .undefined],
    [.undefined, .undefined, .mmxsse2, .undefined, .mmxsse2, .undefined,
      .mmxsse2, .undefined],
    [.undefined, .undefined, .mmxsse2, .undefined, .mmxsse2, .undefined,
      .mmxsse2, .undefined],
    [.undefined, .undefined, .mmxsse2, .sse2x, .undefined, .undefined,
      .mmxsse2, .sse2x],
    [.illegal, .illegal, .illegal, .illegal, .illegal, .sse2, .sse2,
      .sfenceClflush],
    [.sse, .sse, .sse, .sse, .illegal, .illegal, .illegal, .illegal],
    [],
    [.i386, .undefined, .undefined, .undefined, .undefined, .undefined,
      .undefined, .undefined],
    [.threeDNow, .threeDNow, .illegal, .illegal, .illegal, .illegal, .illegal,
      .illegal] ]

/-- The entry that `opcode`, the opcode field of a ModRM byte, has in a group. -/
def kDecodeModRMOp (group opcode : Nat) : OpInfo :=
  match (kDecodeModRMType.getD group []).getD opcode .undefined with
  | .undefined => decodeUndefinedInstInfo
  | insttype => ⟨insttype, true, .none, 0⟩

def kPrefixSEGCS : Nat := 0x0001
def kPrefixSEGSS : Nat := 0x0002
def kPrefixSEGFS : Nat := 0x0004
def kPrefixSEGGS : Nat := 0x0008
def kPrefixDATA16 : Nat := 0x0010
def kPrefixADDR16 : Nat := 0x0020
def kPrefixREPNE : Nat := 0x0040
def kPrefixREP : Nat := 0x0080
def kPrefixLOCK : Nat := 0x0100
def kPrefixSEGES : Nat := 0x0200
def kPrefixSEGDS : Nat := 0x0400

def kPrefixTable (byte : UInt8) : Nat :=
  match byte.toNat with
  | 0x26 => kPrefixSEGES
  | 0x2e => kPrefixSEGCS
  | 0x36 => kPrefixSEGSS
  | 0x3e => kPrefixSEGDS
  | 0x64 => kPrefixSEGFS
  | 0x65 => kPrefixSEGGS
  | 0x66 => kPrefixDATA16
  | 0x67 => kPrefixADDR16
  | 0xf0 => kPrefixLOCK
  | 0xf2 => kPrefixREPNE
  | 0xf3 => kPrefixREP
  | _ => 0

def kImmTypeToSize66 : NCDecodeImmediateType → Nat
  | .unknown | .none | .group3F6 | .group3F7 => 0
  | .fixed1 => 1
  | .fixed2 | .datav | .movDatav => 2
  | .fixed3 => 3
  | .fixed4 | .addrv => 4
  | .farptr => 6

def kImmTypeToSize67 : NCDecodeImmediateType → Nat
  | .unknown | .none | .group3F6 | .group3F7 => 0
  | .fixed1 => 1
  | .fixed2 | .addrv => 2
  | .fixed3 => 3
  | .fixed4 | .datav | .farptr | .movDatav => 4

def kImmTypeToSize : NCDecodeImmediateType → Nat
  | .unknown | .none | .group3F6 | .group3F7 => 0
  | .fixed1 => 1
  | .fixed2 => 2
  | .fixed3 => 3
  | .fixed4 | .datav | .addrv | .movDatav => 4
  | .farptr => 6

end NativeClient.Decoder
