import NativeClient.Decoder.SegmentDecoder

/-!
# Length and locality of decoded instructions

The decoder looks at an instruction through its own bytes only: where it
stands, what is stored in its slot of the decode buffer and every byte after
its last one are irrelevant.  `instAt` is the instruction seen from its own
first byte, and `consumeNextInstruction_eq` moves it to its place.
-/

namespace NativeClient.Decoder

open NativeClient.Library

/-! ## Relocation -/

/-- The same instruction `distance` bytes further on, at address `vpc`. -/
def relocate (distance vpc : Nat) (mstate : NCDecoderState) :
    NCDecoderState :=
  { mstate with
    mpc := distance + mstate.mpc
    nextbyte := distance + mstate.nextbyte
    vpc := vpc
    inst :=
      { mstate.inst with
        vaddr := vpc
        maddr := distance + mstate.inst.maddr } }

section Relocation

variable (buffer : Buffer) (distance vpc : Nat)

private theorem consumePrefixLoop_relocate
    (left : Nat) (mstate : NCDecoderState) :
    consumePrefixLoop buffer left (relocate distance vpc mstate) =
      relocate distance vpc
        (consumePrefixLoop (buffer.shift distance) left mstate) := by
  induction left generalizing mstate with
  | zero => rfl
  | succ left ih =>
      have moved (form : Nat) :
          consumePrefixByte form (relocate distance vpc mstate) =
            relocate distance vpc (consumePrefixByte form mstate) := rfl
      rw [consumePrefixLoop, consumePrefixLoop]
      simp only [moved, ih, apply_ite (relocate distance vpc)]
      rfl

private theorem getExtendedOpInfo_relocate
    (mstate : NCDecoderState) (opbyte2 : UInt8) :
    getExtendedOpInfo (relocate distance vpc mstate) opbyte2 =
      relocate distance vpc (getExtendedOpInfo mstate opbyte2) := by
  unfold getExtendedOpInfo
  simp only [apply_ite (relocate distance vpc)]
  rfl

private theorem getThreeByteOpInfo_relocate
    (mstate : NCDecoderState) (opcode2 opcode3 : UInt8) :
    getThreeByteOpInfo (relocate distance vpc mstate) opcode2 opcode3 =
      relocate distance vpc (getThreeByteOpInfo mstate opcode2 opcode3) := by
  unfold getThreeByteOpInfo
  simp only [apply_ite (relocate distance vpc)]
  rfl

private theorem consumeOpcodeByte3_relocate
    (opcode2 : UInt8) (mstate : NCDecoderState) :
    consumeOpcodeByte3 buffer opcode2 (relocate distance vpc mstate) =
      relocate distance vpc
        (consumeOpcodeByte3 (buffer.shift distance) opcode2 mstate) := by
  unfold consumeOpcodeByte3
  rw [apply_ite (relocate distance vpc), ← getThreeByteOpInfo_relocate]
  rfl

private theorem consumeOpcodeByte2_relocate (mstate : NCDecoderState) :
    consumeOpcodeByte2 buffer (relocate distance vpc mstate) =
      relocate distance vpc
        (consumeOpcodeByte2 (buffer.shift distance) mstate) := by
  unfold consumeOpcodeByte2
  simp only [getExtendedOpInfo_relocate, ← consumeOpcodeByte3_relocate]
  rfl

private theorem consumeOpcodeBytes_relocate (mstate : NCDecoderState) :
    consumeOpcodeBytes buffer (relocate distance vpc mstate) =
      relocate distance vpc
        (consumeOpcodeBytes (buffer.shift distance) mstate) := by
  have moved (last : NCDecoderState) :
      relocate distance vpc (setImmtype last.opinfo.immtype last) =
        setImmtype (relocate distance vpc last).opinfo.immtype
          (relocate distance vpc last) := rfl
  unfold consumeOpcodeBytes
  simp only [moved, apply_ite (relocate distance vpc),
    ← consumeOpcodeByte2_relocate]
  rfl

private theorem getX87OpInfo_relocate (mstate : NCDecoderState) :
    getX87OpInfo buffer (relocate distance vpc mstate) =
      relocate distance vpc (getX87OpInfo (buffer.shift distance) mstate) := by
  have opcode : buffer ((relocate distance vpc mstate).inst.maddr +
      (relocate distance vpc mstate).inst.prefixbytes) =
        buffer.shift distance
          (mstate.inst.maddr + mstate.inst.prefixbytes) := by
    simp [relocate, Nat.add_assoc]
  unfold getX87OpInfo
  simp only [opcode]
  split_ifs <;> simp only [relocate, errorInternal]

private theorem selectOpInMrm_relocate
    (mrm : UInt8) (mstate : NCDecoderState) :
    selectOpInMrm mrm (relocate distance vpc mstate) =
      relocate distance vpc (selectOpInMrm mrm mstate) := by
  unfold selectOpInMrm
  rw [apply_ite (relocate distance vpc)]
  rfl

private theorem setDispbytes_relocate
    (dispbytes : Option Nat) (mstate : NCDecoderState) :
    setDispbytes dispbytes (relocate distance vpc mstate) =
      relocate distance vpc (setDispbytes dispbytes mstate) := by
  cases dispbytes <;> rfl

private theorem addressModRM_relocate
    (mrm : UInt8) (mstate : NCDecoderState) :
    addressModRM mrm (relocate distance vpc mstate) =
      relocate distance vpc (addressModRM mrm mstate) := by
  have moved (hassibbyte : Bool) (inner : NCDecoderState) :
      relocate distance vpc (setHassibbyte hassibbyte inner) =
        setHassibbyte hassibbyte (relocate distance vpc inner) := rfl
  unfold addressModRM
  simp only [apply_ite (relocate distance vpc), moved,
    ← setDispbytes_relocate]
  rfl

private theorem consumeModRM_relocate (mstate : NCDecoderState) :
    consumeModRM buffer (relocate distance vpc mstate) =
      relocate distance vpc (consumeModRM (buffer.shift distance) mstate) := by
  have named (inner : NCDecoderState) :
      selectX87 buffer (relocate distance vpc inner) =
        relocate distance vpc (selectX87 (buffer.shift distance) inner) := by
    unfold selectX87
    rw [apply_ite (relocate distance vpc), ← getX87OpInfo_relocate]
    rfl
  unfold consumeModRM
  simp only [apply_ite (relocate distance vpc), ← addressModRM_relocate,
    ← selectOpInMrm_relocate, ← named]
  rfl

private theorem consumeSIB_relocate (mstate : NCDecoderState) :
    consumeSIB buffer (relocate distance vpc mstate) =
      relocate distance vpc (consumeSIB (buffer.shift distance) mstate) := by
  unfold consumeSIB
  simp only [apply_ite (relocate distance vpc), ← setDispbytes_relocate]
  rfl

private theorem setLength_relocate (mstate : NCDecoderState) :
    setLength (relocate distance vpc mstate) =
      relocate distance vpc (setLength mstate) := by
  have same : (relocate distance vpc mstate).nextbyte -
      (relocate distance vpc mstate).mpc =
        mstate.nextbyte - mstate.mpc := by
    simp only [relocate]
    omega
  unfold setLength
  rw [same]
  simp only [apply_ite (relocate distance vpc)]
  rfl

private theorem consumeID_relocate (mstate : NCDecoderState) :
    consumeID (relocate distance vpc mstate) =
      relocate distance vpc (consumeID mstate) := by
  have checked : checkImmtype (relocate distance vpc mstate) =
      relocate distance vpc (checkImmtype mstate) := by
    unfold checkImmtype
    rw [apply_ite (relocate distance vpc)]
    rfl
  have skipped (inner : NCDecoderState) :
      skipImmediateAndDisplacement (relocate distance vpc inner) =
        relocate distance vpc (skipImmediateAndDisplacement inner) := by
    have same : immediateBytes (relocate distance vpc inner) =
        immediateBytes inner := rfl
    unfold skipImmediateAndDisplacement
    rw [same]
    simp only [relocate, Nat.add_assoc]
  unfold consumeID
  rw [checked, skipped, setLength_relocate]

private theorem maybeGet3ByteOpInfo_relocate (mstate : NCDecoderState) :
    maybeGet3ByteOpInfo buffer (relocate distance vpc mstate) =
      relocate distance vpc
        (maybeGet3ByteOpInfo (buffer.shift distance) mstate) := by
  have moved (offset : Nat) :
      buffer ((relocate distance vpc mstate).mpc + offset) =
        buffer.shift distance (mstate.mpc + offset) := by
    simp [relocate, Nat.add_assoc]
  unfold maybeGet3ByteOpInfo
  simp only [moved, apply_ite (relocate distance vpc)]
  rfl

end Relocation

/-- The instruction at `offset`, seen from its own first byte. -/
def instAt (buffer : Buffer) (offset : Nat) : NCDecoderState :=
  consumeNextInstruction (buffer.shift offset) (emptySlot 0 0)

theorem instAt_shift (buffer : Buffer) (start offset : Nat) :
    instAt (buffer.shift start) offset = instAt buffer (start + offset) := by
  unfold instAt
  congr 1
  funext position
  simp [Nat.add_assoc]

variable {mstate : NCDecoderState} {buffer other : Buffer}

theorem consumeNextInstruction_eq
    (buffer : Buffer)
    (fresh : mstate.nextbyte = mstate.mpc) :
    consumeNextInstruction buffer mstate =
      relocate mstate.mpc mstate.vpc (instAt buffer mstate.mpc) := by
  have start : initDecoder mstate =
      relocate mstate.mpc mstate.vpc (initDecoder (emptySlot 0 0)) := by
    simp [initDecoder, relocate, emptySlot, initInst, fresh]
  unfold instAt consumeNextInstruction consumePrefixBytes
  rw [start, consumePrefixLoop_relocate, consumeOpcodeBytes_relocate,
    consumeModRM_relocate, consumeSIB_relocate, consumeID_relocate,
    maybeGet3ByteOpInfo_relocate]

/-! ## Length -/

/-- A stage of the decoder that takes between `least` and `most` bytes and
leaves the prefixes alone. -/
structure Consumes (least most : Nat) (before after : NCDecoderState) :
    Prop where
  mpc : after.mpc = before.mpc
  maddr : after.inst.maddr = before.inst.maddr
  prefixbytes : after.inst.prefixbytes = before.inst.prefixbytes
  prefixmask : after.inst.prefixmask = before.inst.prefixmask
  dispbytes : before.inst.dispbytes ≤ 4 → after.inst.dispbytes ≤ 4
  least : before.nextbyte + least ≤ after.nextbyte
  most : after.nextbyte ≤ before.nextbyte + most

theorem Consumes.trans
    {least most least' most' : Nat} {first second third : NCDecoderState}
    (left : Consumes least most first second)
    (right : Consumes least' most' second third) :
    Consumes (least + least') (most + most') first third where
  mpc := right.mpc.trans left.mpc
  maddr := right.maddr.trans left.maddr
  prefixbytes := right.prefixbytes.trans left.prefixbytes
  prefixmask := right.prefixmask.trans left.prefixmask
  dispbytes := right.dispbytes ∘ left.dispbytes
  least := by
    have := left.least
    have := right.least
    omega
  most := by
    have := left.most
    have := right.most
    omega

theorem Consumes.mono
    {least most least' most' : Nat} {before after : NCDecoderState}
    (consumes : Consumes least most before after)
    (fewer : least' ≤ least) (more : most ≤ most') :
    Consumes least' most' before after where
  mpc := consumes.mpc
  maddr := consumes.maddr
  prefixbytes := consumes.prefixbytes
  prefixmask := consumes.prefixmask
  dispbytes := consumes.dispbytes
  least := by
    have := consumes.least
    omega
  most := by
    have := consumes.most
    omega

private theorem consumes_refl (mstate : NCDecoderState) :
    Consumes 0 0 mstate mstate :=
  ⟨rfl, rfl, rfl, rfl, id, Nat.le_refl _, Nat.le_refl _⟩

private theorem errorInternal_consumes (mstate : NCDecoderState) :
    Consumes 0 0 mstate (errorInternal mstate) :=
  ⟨rfl, rfl, rfl, rfl, id, Nat.le_refl _, Nat.le_refl _⟩

private theorem getExtendedOpInfo_consumes
    (mstate : NCDecoderState) (opbyte2 : UInt8) :
    Consumes 0 0 mstate (getExtendedOpInfo mstate opbyte2) := by
  unfold getExtendedOpInfo
  simp only
  split_ifs
  all_goals exact ⟨rfl, rfl, rfl, rfl, id, Nat.le_refl _, Nat.le_refl _⟩

private theorem getThreeByteOpInfo_consumes
    (mstate : NCDecoderState) (opcode2 opcode3 : UInt8) :
    Consumes 0 0 mstate (getThreeByteOpInfo mstate opcode2 opcode3) := by
  unfold getThreeByteOpInfo
  simp only
  split_ifs
  all_goals exact ⟨rfl, rfl, rfl, rfl, id, Nat.le_refl _, Nat.le_refl _⟩

private theorem consumeOpcodeByte3_consumes
    (buffer : Buffer) (opcode2 : UInt8) (mstate : NCDecoderState) :
    Consumes 0 1 mstate (consumeOpcodeByte3 buffer opcode2 mstate) := by
  unfold consumeOpcodeByte3
  split_ifs
  · have read : Consumes 0 1 mstate (takeOpbyte3 mstate) :=
      ⟨rfl, rfl, rfl, rfl, id, Nat.le_succ _, Nat.le_refl _⟩
    exact read.trans (getThreeByteOpInfo_consumes _ _ _)
  · exact (consumes_refl mstate).mono (Nat.le_refl _) (Nat.zero_le _)

private theorem consumeOpcodeByte2_consumes
    (buffer : Buffer) (mstate : NCDecoderState) :
    Consumes 1 2 mstate (consumeOpcodeByte2 buffer mstate) := by
  unfold consumeOpcodeByte2
  have extended :=
    getExtendedOpInfo_consumes mstate (buffer mstate.nextbyte)
  have read (inner : NCDecoderState) : Consumes 1 1 inner (takeOpbyte2 inner) :=
    ⟨rfl, rfl, rfl, rfl, id, Nat.le_refl _, Nat.le_refl _⟩
  exact (extended.trans (read _)).trans (consumeOpcodeByte3_consumes _ _ _)

theorem consumeOpcodeBytes_consumes
    (buffer : Buffer) (mstate : NCDecoderState) :
    Consumes 1 3 mstate (consumeOpcodeBytes buffer mstate) := by
  have named (immtype : NCDecodeImmediateType) (inner : NCDecoderState) :
      Consumes 0 0 inner (setImmtype immtype inner) :=
    ⟨rfl, rfl, rfl, rfl, id, Nat.le_refl _, Nat.le_refl _⟩
  have first (opcode : UInt8) : Consumes 1 1 mstate (takeOpcode opcode mstate) :=
    ⟨rfl, rfl, rfl, rfl, id, Nat.le_refl _, Nat.le_refl _⟩
  unfold consumeOpcodeBytes
  simp only
  split_ifs
  · exact ((first _).trans (consumeOpcodeByte2_consumes _ _)).trans
      (named _ _) |>.mono (by omega) (by omega)
  · exact ((first _).trans (named _ _)).mono (by omega) (by omega)

private theorem getX87OpInfo_consumes
    (buffer : Buffer) (mstate : NCDecoderState) :
    Consumes 0 0 mstate (getX87OpInfo buffer mstate) := by
  unfold getX87OpInfo
  simp only
  split_ifs
  all_goals exact ⟨rfl, rfl, rfl, rfl, id, Nat.le_refl _, Nat.le_refl _⟩

private theorem selectX87_consumes
    (buffer : Buffer) (mstate : NCDecoderState) :
    Consumes 0 0 mstate (selectX87 buffer mstate) := by
  unfold selectX87
  split_ifs
  · exact getX87OpInfo_consumes buffer mstate
  · exact consumes_refl mstate

private theorem selectOpInMrm_consumes
    (mrm : UInt8) (mstate : NCDecoderState) :
    Consumes 0 0 mstate (selectOpInMrm mrm mstate) := by
  unfold selectOpInMrm
  split_ifs
  all_goals exact ⟨rfl, rfl, rfl, rfl, id, Nat.le_refl _, Nat.le_refl _⟩

private theorem setDispbytes_consumes
    {dispbytes : Option Nat} (small : ∀ count ∈ dispbytes, count ≤ 4)
    (mstate : NCDecoderState) :
    Consumes 0 0 mstate (setDispbytes dispbytes mstate) := by
  cases dispbytes with
  | none => exact errorInternal_consumes mstate
  | some count =>
      exact ⟨rfl, rfl, rfl, rfl, fun _ => small count rfl, Nat.le_refl _,
        Nat.le_refl _⟩

private theorem dispbytes16_le (mrm : UInt8) :
    ∀ count ∈ dispbytes16 mrm, count ≤ 4 := by
  unfold dispbytes16
  split <;> (try split_ifs) <;> simp

private theorem dispbytes32_le (mrm : UInt8) :
    ∀ count ∈ dispbytes32 mrm, count ≤ 4 := by
  unfold dispbytes32
  split <;> (try split_ifs) <;> simp

private theorem dispbytesSib_le (mrm : UInt8) :
    ∀ count ∈ dispbytesSib mrm, count ≤ 4 := by
  unfold dispbytesSib
  split <;> simp

private theorem addressModRM_consumes
    (mrm : UInt8) (mstate : NCDecoderState) :
    Consumes 0 0 mstate (addressModRM mrm mstate) := by
  have marked (hassibbyte : Bool) (inner : NCDecoderState) :
      Consumes 0 0 inner (setHassibbyte hassibbyte inner) :=
    ⟨rfl, rfl, rfl, rfl, id, Nat.le_refl _, Nat.le_refl _⟩
  unfold addressModRM
  split_ifs
  · exact (setDispbytes_consumes (dispbytes16_le mrm) mstate).trans (marked _ _)
  · exact (setDispbytes_consumes (dispbytes32_le mrm) mstate).trans (marked _ _)

private theorem consumeModRM_consumes_modrm
    (hasModRM : mstate.opinfo.hasmrmbyte = true)
    (buffer : Buffer) :
    Consumes 1 1 mstate (consumeModRM buffer mstate) := by
  have read : Consumes 1 1 mstate (readModRM buffer mstate) :=
    ⟨rfl, rfl, rfl, rfl, id, Nat.le_refl _, Nat.le_refl _⟩
  have named := read.trans (selectX87_consumes buffer _)
  have selected :=
    named.trans (selectOpInMrm_consumes (buffer mstate.nextbyte) _)
  rw [consumeModRM, if_pos hasModRM]
  exact selected.trans (addressModRM_consumes _ _)

theorem consumeModRM_consumes
    (buffer : Buffer) (mstate : NCDecoderState) :
    Consumes 0 1 mstate (consumeModRM buffer mstate) := by
  by_cases hasModRM : mstate.opinfo.hasmrmbyte = true
  · exact (consumeModRM_consumes_modrm hasModRM buffer).mono (by omega)
      (by omega)
  · rw [consumeModRM, if_neg hasModRM]
    exact (consumes_refl mstate).mono (by omega) (by omega)

theorem consumeSIB_consumes
    (buffer : Buffer) (mstate : NCDecoderState) :
    Consumes 0 1 mstate (consumeSIB buffer mstate) := by
  have read : Consumes 0 1 mstate
      { mstate with nextbyte := mstate.nextbyte + 1 } :=
    ⟨rfl, rfl, rfl, rfl, id, Nat.le_succ _, Nat.le_refl _⟩
  unfold consumeSIB
  simp only
  split_ifs
  · exact read.trans (setDispbytes_consumes (dispbytesSib_le _) _)
  · exact read
  · exact (consumes_refl mstate).mono (by omega) (by omega)

private theorem immediateBytes_le (mstate : NCDecoderState) :
    immediateBytes mstate ≤ 6 := by
  unfold immediateBytes extractOperandSize
  split_ifs <;>
    cases mstate.inst.immtype <;>
    simp [kImmTypeToSize66, kImmTypeToSize67, kImmTypeToSize]

private theorem checkImmtype_consumes (mstate : NCDecoderState) :
    Consumes 0 0 mstate (checkImmtype mstate) := by
  unfold checkImmtype
  split_ifs
  · exact errorInternal_consumes mstate
  · exact consumes_refl mstate

theorem consumeID_consumes
    (small : mstate.inst.dispbytes ≤ 4) :
    Consumes 0 10 mstate (consumeID mstate) := by
  have skipped (inner : NCDecoderState) (short : inner.inst.dispbytes ≤ 4) :
      Consumes 0 10 inner (skipImmediateAndDisplacement inner) := by
    have bound := immediateBytes_le inner
    refine ⟨rfl, rfl, rfl, rfl, id, ?_, ?_⟩
    · exact Nat.le_add_right _ _
    · exact Nat.add_le_add_left (by omega) _
  have stored (inner : NCDecoderState) :
      Consumes 0 0 inner (setLength inner) := by
    unfold setLength
    simp only
    split_ifs
    all_goals exact ⟨rfl, rfl, rfl, rfl, id, Nat.le_refl _, Nat.le_refl _⟩
  have checked := checkImmtype_consumes mstate
  exact ((checked.trans (skipped _ (checked.dispbytes small))).trans
    (stored _)).mono (by omega) (by omega)

private theorem setLength_length
    (small : mstate.nextbyte - mstate.mpc < 256) :
    (setLength mstate).inst.length = mstate.nextbyte - mstate.mpc := by
  have kept : (mstate.nextbyte - mstate.mpc) &&& 0xff =
      mstate.nextbyte - mstate.mpc := by
    rw [show (0xff : Nat) = 2 ^ 8 - 1 from rfl, Nat.and_two_pow_sub_one_eq_mod]
    exact Nat.mod_eq_of_lt small
  unfold setLength
  simp only
  split_ifs <;> exact kept

private theorem setLength_nextbyte (mstate : NCDecoderState) :
    (setLength mstate).nextbyte = mstate.nextbyte ∧
      (setLength mstate).mpc = mstate.mpc := by
  unfold setLength
  simp only
  split_ifs <;> exact ⟨rfl, rfl⟩

theorem consumeID_length
    (mstate : NCDecoderState)
    (small : (consumeID mstate).nextbyte - (consumeID mstate).mpc < 256) :
    (consumeID mstate).inst.length =
      (consumeID mstate).nextbyte - (consumeID mstate).mpc := by
  unfold consumeID at small ⊢
  obtain ⟨nextKept, mpcKept⟩ := setLength_nextbyte
    (skipImmediateAndDisplacement (checkImmtype mstate))
  rw [nextKept, mpcKept] at small ⊢
  exact setLength_length small

private theorem consumePrefixLoop_spec
    (buffer : Buffer) (left : Nat) (mstate : NCDecoderState) :
    ∃ count ≤ left,
      (consumePrefixLoop buffer left mstate).nextbyte =
          mstate.nextbyte + count ∧
        (consumePrefixLoop buffer left mstate).inst.prefixbytes =
          mstate.inst.prefixbytes + count ∧
        (consumePrefixLoop buffer left mstate).mpc = mstate.mpc ∧
        (consumePrefixLoop buffer left mstate).inst.maddr =
          mstate.inst.maddr ∧
        (consumePrefixLoop buffer left mstate).inst.dispbytes =
          mstate.inst.dispbytes := by
  induction left generalizing mstate with
  | zero => exact ⟨0, Nat.le_refl _, rfl, rfl, rfl, rfl, rfl⟩
  | succ left ih =>
      rw [consumePrefixLoop]
      split_ifs with plain
      · exact ⟨0, Nat.zero_le _, rfl, rfl, rfl, rfl, rfl⟩
      · obtain ⟨count, small, next, prefixes, mpc, maddr, disp⟩ :=
          ih (consumePrefixByte (kPrefixTable (buffer mstate.nextbyte)) mstate)
        refine ⟨count + 1, by omega, ?_, ?_, mpc, maddr, disp⟩
        · rw [next]
          simp only [consumePrefixByte]
          omega
        · rw [prefixes]
          simp only [consumePrefixByte]
          omega

theorem maybeGet3ByteOpInfo_keeps
    (buffer : Buffer) (mstate : NCDecoderState) :
    (maybeGet3ByteOpInfo buffer mstate).mpc = mstate.mpc ∧
      (maybeGet3ByteOpInfo buffer mstate).nextbyte = mstate.nextbyte ∧
      (maybeGet3ByteOpInfo buffer mstate).inst = mstate.inst ∧
      (maybeGet3ByteOpInfo buffer mstate).internalErrors =
        mstate.internalErrors := by
  unfold maybeGet3ByteOpInfo
  simp only
  split_ifs <;> exact ⟨rfl, rfl, rfl, rfl⟩

/-! ## The stages of one instruction -/

def prefixStage (buffer : Buffer) : NCDecoderState :=
  consumePrefixBytes buffer (initDecoder (emptySlot 0 0))

def opcodeStage (buffer : Buffer) : NCDecoderState :=
  consumeOpcodeBytes buffer (prefixStage buffer)

def modrmStage (buffer : Buffer) : NCDecoderState :=
  consumeModRM buffer (opcodeStage buffer)

def sibStage (buffer : Buffer) : NCDecoderState :=
  consumeSIB buffer (modrmStage buffer)

def lengthStage (buffer : Buffer) : NCDecoderState :=
  consumeID (sibStage buffer)

theorem instAt_eq_stages (buffer : Buffer) (offset : Nat) :
    instAt buffer offset =
      maybeGet3ByteOpInfo (buffer.shift offset)
        (lengthStage (buffer.shift offset)) := rfl

private theorem prefixStage_spec (buffer : Buffer) :
    (prefixStage buffer).mpc = 0 ∧
      (prefixStage buffer).inst.maddr = 0 ∧
      (prefixStage buffer).inst.dispbytes = 0 ∧
      (prefixStage buffer).inst.prefixbytes = (prefixStage buffer).nextbyte ∧
      (prefixStage buffer).nextbyte ≤ 4 := by
  obtain ⟨count, small, next, prefixes, mpc, maddr, disp⟩ :=
    consumePrefixLoop_spec buffer kMaxPrefixBytes (initDecoder (emptySlot 0 0))
  have nextCount : (prefixStage buffer).nextbyte = count := by
    simpa [prefixStage, consumePrefixBytes, initDecoder, emptySlot] using next
  have prefixCount : (prefixStage buffer).inst.prefixbytes = count := by
    simpa [prefixStage, consumePrefixBytes, initDecoder, emptySlot, initInst]
      using prefixes
  exact ⟨mpc, maddr, disp, prefixCount.trans nextCount.symm,
    nextCount ▸ small⟩

theorem opcodeStage_consumes (buffer : Buffer) :
    Consumes 1 3 (prefixStage buffer) (opcodeStage buffer) :=
  consumeOpcodeBytes_consumes _ _

private theorem modrmStage_consumes (buffer : Buffer) :
    Consumes 1 4 (prefixStage buffer) (modrmStage buffer) :=
  (opcodeStage_consumes buffer).trans (consumeModRM_consumes _ _)

private theorem sibStage_consumes (buffer : Buffer) :
    Consumes 1 5 (prefixStage buffer) (sibStage buffer) :=
  (modrmStage_consumes buffer).trans (consumeSIB_consumes _ _)

private theorem lengthStage_consumes (buffer : Buffer) :
    Consumes 1 15 (prefixStage buffer) (lengthStage buffer) := by
  have sib := sibStage_consumes buffer
  have small := sib.dispbytes (by simp [prefixStage_spec buffer])
  exact sib.trans (consumeID_consumes small)

private theorem lengthStage_length (buffer : Buffer) :
    (lengthStage buffer).inst.length = (lengthStage buffer).nextbyte := by
  obtain ⟨mpc, -, -, -, small⟩ := prefixStage_spec buffer
  have all := lengthStage_consumes buffer
  have mpcZero : (lengthStage buffer).mpc = 0 := all.mpc.trans mpc
  have most := all.most
  have measured := consumeID_length (sibStage buffer) (by
    change (lengthStage buffer).nextbyte - (lengthStage buffer).mpc < 256
    omega)
  change (lengthStage buffer).inst.length =
    (lengthStage buffer).nextbyte - (lengthStage buffer).mpc at measured
  rw [measured, mpcZero, Nat.sub_zero]

section InstAt

variable (buffer : Buffer) (offset : Nat)

theorem instAt_mpc : (instAt buffer offset).mpc = 0 := by
  rw [instAt_eq_stages, (maybeGet3ByteOpInfo_keeps _ _).1,
    (lengthStage_consumes _).mpc]
  exact (prefixStage_spec _).1

theorem instAt_maddr : (instAt buffer offset).inst.maddr = 0 := by
  rw [instAt_eq_stages, (maybeGet3ByteOpInfo_keeps _ _).2.2.1,
    (lengthStage_consumes _).maddr]
  exact (prefixStage_spec _).2.1

theorem instAt_nextbyte :
    (instAt buffer offset).nextbyte = (instAt buffer offset).inst.length := by
  rw [instAt_eq_stages, (maybeGet3ByteOpInfo_keeps _ _).2.1,
    (maybeGet3ByteOpInfo_keeps _ _).2.2.1, lengthStage_length]

theorem instAt_prefixbytes :
    (instAt buffer offset).inst.prefixbytes =
      (prefixStage (buffer.shift offset)).nextbyte := by
  rw [instAt_eq_stages, (maybeGet3ByteOpInfo_keeps _ _).2.2.1,
    (lengthStage_consumes _).prefixbytes]
  exact (prefixStage_spec _).2.2.2.1

theorem instAt_prefixmask :
    (instAt buffer offset).inst.prefixmask =
      (prefixStage (buffer.shift offset)).inst.prefixmask := by
  rw [instAt_eq_stages, (maybeGet3ByteOpInfo_keeps _ _).2.2.1,
    (lengthStage_consumes _).prefixmask]

theorem instAt_prefixmask_of_unprefixed
    (unprefixed : (instAt buffer offset).inst.prefixbytes = 0) :
    (instAt buffer offset).inst.prefixmask = 0 := by
  rw [instAt_prefixbytes] at unprefixed
  rw [instAt_prefixmask]
  unfold prefixStage consumePrefixBytes at unprefixed ⊢
  rw [kMaxPrefixBytes, consumePrefixLoop] at unprefixed ⊢
  split_ifs at unprefixed ⊢
  · rfl
  · obtain ⟨count, -, next, -⟩ := consumePrefixLoop_spec (buffer.shift offset) 3
      (consumePrefixByte (kPrefixTable (buffer.shift offset
        (initDecoder (emptySlot 0 0)).nextbyte)) (initDecoder (emptySlot 0 0)))
    rw [next] at unprefixed
    simp only [consumePrefixByte] at unprefixed
    omega

theorem instAt_prefixbytes_le : (instAt buffer offset).inst.prefixbytes ≤ 4 := by
  rw [instAt_prefixbytes]
  exact (prefixStage_spec _).2.2.2.2

theorem instAt_length_eq :
    (instAt buffer offset).inst.length =
      (lengthStage (buffer.shift offset)).nextbyte := by
  rw [instAt_eq_stages, (maybeGet3ByteOpInfo_keeps _ _).2.2.1,
    lengthStage_length]

theorem instAt_prefixbytes_lt :
    (instAt buffer offset).inst.prefixbytes <
      (instAt buffer offset).inst.length := by
  rw [instAt_prefixbytes, instAt_length_eq]
  exact (lengthStage_consumes _).least

theorem instAt_length_after_modrm
    {buffer : Buffer} {offset : Nat}
    (hasModRM :
      (opcodeStage (buffer.shift offset)).opinfo.hasmrmbyte = true) :
    (opcodeStage (buffer.shift offset)).nextbyte + 1 ≤
      (instAt buffer offset).inst.length := by
  have sib := (consumeSIB_consumes (buffer.shift offset)
    (modrmStage (buffer.shift offset))).least
  have small := (sibStage_consumes (buffer.shift offset)).dispbytes
    (by simp [prefixStage_spec (buffer.shift offset)])
  have rest := (consumeID_consumes small).least
  have modrm :=
    (consumeModRM_consumes_modrm hasModRM (buffer.shift offset)).least
  rw [instAt_length_eq]
  change _ ≤ (modrmStage (buffer.shift offset)).nextbyte at modrm
  change _ ≤ (sibStage (buffer.shift offset)).nextbyte at sib
  change _ ≤ (lengthStage (buffer.shift offset)).nextbyte at rest
  omega

theorem instAt_length_of_modrm
    {buffer : Buffer} {offset : Nat}
    (hasModRM :
      (opcodeStage (buffer.shift offset)).opinfo.hasmrmbyte = true) :
    (prefixStage (buffer.shift offset)).nextbyte + 2 ≤
      (instAt buffer offset).inst.length := by
  have opcode := (opcodeStage_consumes (buffer.shift offset)).least
  have rest := instAt_length_after_modrm hasModRM
  omega

theorem instAt_length_le :
    (instAt buffer offset).inst.length ≤
      (instAt buffer offset).inst.prefixbytes + 15 := by
  rw [instAt_prefixbytes, instAt_length_eq]
  exact (lengthStage_consumes _).most

theorem instAt_length_pos : 0 < (instAt buffer offset).inst.length :=
  Nat.lt_of_le_of_lt (Nat.zero_le _) (instAt_prefixbytes_lt buffer offset)

end InstAt

/-! ## Locality -/

private theorem consumePrefixLoop_congr
    (left : Nat) (mstate : NCDecoderState)
    (agree : buffer.AgreeOn other mstate.nextbyte
      ((consumePrefixLoop buffer left mstate).nextbyte + 1)) :
    consumePrefixLoop other left mstate =
      consumePrefixLoop buffer left mstate := by
  induction left generalizing mstate with
  | zero => rfl
  | succ left ih =>
      obtain ⟨count, -, next, -⟩ :=
        consumePrefixLoop_spec buffer (left + 1) mstate
      have same := agree mstate.nextbyte (Nat.le_refl _) (by omega)
      rw [consumePrefixLoop] at agree ⊢
      rw [consumePrefixLoop, ← same]
      split_ifs at agree ⊢ with plain
      · rfl
      · exact ih _ (agree.mono (Nat.le_succ _) (Nat.le_refl _))

private theorem consumeOpcodeByte3_congr
    {opcode2 : UInt8}
    (agree : buffer.AgreeOn other mstate.nextbyte
      (consumeOpcodeByte3 buffer opcode2 mstate).nextbyte) :
    consumeOpcodeByte3 other opcode2 mstate =
      consumeOpcodeByte3 buffer opcode2 mstate := by
  unfold consumeOpcodeByte3 at agree ⊢
  split_ifs at agree ⊢ with escape
  · have least := (getThreeByteOpInfo_consumes (takeOpbyte3 mstate)
      opcode2 (buffer mstate.nextbyte)).least
    rw [agree mstate.nextbyte (Nat.le_refl _) (by exact least)]
  · rfl

private theorem consumeOpcodeByte2_congr
    (agree : buffer.AgreeOn other mstate.nextbyte
      (consumeOpcodeByte2 buffer mstate).nextbyte) :
    consumeOpcodeByte2 other mstate = consumeOpcodeByte2 buffer mstate := by
  have least := (consumeOpcodeByte2_consumes buffer mstate).least
  have same := agree mstate.nextbyte (Nat.le_refl _) (by omega)
  unfold consumeOpcodeByte2 at agree ⊢
  rw [← same]
  have extended :=
    (getExtendedOpInfo_consumes mstate (buffer mstate.nextbyte)).least
  exact consumeOpcodeByte3_congr
    (agree.mono (by simp only [takeOpbyte2]; omega) (Nat.le_refl _))

private theorem consumeOpcodeBytes_congr
    (agree : buffer.AgreeOn other mstate.nextbyte
      (consumeOpcodeBytes buffer mstate).nextbyte) :
    consumeOpcodeBytes other mstate = consumeOpcodeBytes buffer mstate := by
  have least := (consumeOpcodeBytes_consumes buffer mstate).least
  have same := agree mstate.nextbyte (Nat.le_refl _) (by omega)
  unfold consumeOpcodeBytes at agree ⊢
  simp only [← same] at agree ⊢
  by_cases escape : buffer mstate.nextbyte = kTwoByteOpcodeByte1
  · simp only [if_pos escape] at agree ⊢
    rw [consumeOpcodeByte2_congr
      (agree.mono (Nat.le_succ _) (Nat.le_refl _))]
  · simp only [if_neg escape]

private theorem getX87OpInfo_congr
    (mstate : NCDecoderState)
    (opcode : buffer (mstate.inst.maddr + mstate.inst.prefixbytes) =
      other (mstate.inst.maddr + mstate.inst.prefixbytes)) :
    getX87OpInfo other mstate = getX87OpInfo buffer mstate := by
  unfold getX87OpInfo
  rw [opcode]

private theorem consumeModRM_congr
    (inside : mstate.inst.maddr + mstate.inst.prefixbytes < mstate.nextbyte)
    (agree : buffer.AgreeOn other mstate.inst.maddr
      (consumeModRM buffer mstate).nextbyte) :
    consumeModRM other mstate = consumeModRM buffer mstate := by
  by_cases hasModRM : mstate.opinfo.hasmrmbyte = true
  · have read := (consumeModRM_consumes_modrm hasModRM buffer).least
    have byte := agree mstate.nextbyte (by omega) (by omega)
    have opcode := agree (mstate.inst.maddr + mstate.inst.prefixbytes)
      (by omega) (by omega)
    have named : selectX87 other (readModRM other mstate) =
        selectX87 buffer (readModRM buffer mstate) := by
      have sameRead : readModRM other mstate = readModRM buffer mstate := by
        simp only [readModRM, byte]
      unfold selectX87
      rw [sameRead, getX87OpInfo_congr (readModRM buffer mstate) opcode]
    rw [consumeModRM, consumeModRM, if_pos hasModRM, if_pos hasModRM]
    simp only [named, byte]
  · rw [consumeModRM, consumeModRM, if_neg hasModRM, if_neg hasModRM]

private theorem consumeSIB_congr
    (agree : buffer.AgreeOn other mstate.nextbyte
      (consumeSIB buffer mstate).nextbyte) :
    consumeSIB other mstate = consumeSIB buffer mstate := by
  unfold consumeSIB at agree ⊢
  by_cases hasSib : mstate.inst.hassibbyte = true
  · have read : mstate.nextbyte + 1 ≤ (consumeSIB buffer mstate).nextbyte := by
      unfold consumeSIB
      rw [if_pos hasSib]
      simp only
      split_ifs
      · exact (setDispbytes_consumes (dispbytesSib_le _)
          { mstate with nextbyte := mstate.nextbyte + 1 }).least
      · exact Nat.le_refl _
    unfold consumeSIB at read
    rw [agree mstate.nextbyte (Nat.le_refl _) (by omega)]
  · rw [if_neg hasSib, if_neg hasSib]

theorem opcodeStage_escape
    (escape : buffer (prefixStage buffer).nextbyte = kTwoByteOpcodeByte1) :
    (prefixStage buffer).nextbyte + 2 ≤ (opcodeStage buffer).nextbyte := by
  unfold opcodeStage consumeOpcodeBytes
  simp only [if_pos escape]
  exact (consumeOpcodeByte2_consumes buffer
    (takeOpcode (buffer (prefixStage buffer).nextbyte)
      (prefixStage buffer))).least

private theorem maybeGet3ByteOpInfo_congr
    (opbyte1 : buffer (mstate.mpc + mstate.inst.prefixbytes) =
      other (mstate.mpc + mstate.inst.prefixbytes))
    (opbyte2 : buffer (mstate.mpc + mstate.inst.prefixbytes) =
        kTwoByteOpcodeByte1 →
      buffer (mstate.mpc + (mstate.inst.prefixbytes + 1)) =
        other (mstate.mpc + (mstate.inst.prefixbytes + 1)))
    (immbyte : buffer (mstate.mpc + (mstate.inst.length - 1)) =
      other (mstate.mpc + (mstate.inst.length - 1))) :
    maybeGet3ByteOpInfo other mstate = maybeGet3ByteOpInfo buffer mstate := by
  unfold maybeGet3ByteOpInfo
  simp only [← opbyte1, ← immbyte]
  by_cases escape : buffer (mstate.mpc + mstate.inst.prefixbytes) =
      kTwoByteOpcodeByte1
  · rw [opbyte2 escape]
  · simp [escape]

theorem instAt_congr
    {offset : Nat}
    (agree : buffer.AgreeOn other offset
      (offset + (instAt buffer offset).inst.length)) :
    instAt other offset = instAt buffer offset := by
  have moved : (buffer.shift offset).AgreeOn (other.shift offset) 0
      (lengthStage (buffer.shift offset)).nextbyte := by
    intro position _ below
    rw [← instAt_length_eq] at below
    exact agree (offset + position) (by omega) (by omega)
  have atLength := instAt_length_eq buffer offset
  rw [instAt_eq_stages, instAt_eq_stages]
  generalize buffer.shift offset = here at moved
  generalize other.shift offset = there at moved
  obtain ⟨mpc, maddr, -, prefixes, -⟩ := prefixStage_spec here
  have opcodeMore := (opcodeStage_consumes here).least
  have modrmMore := (consumeModRM_consumes here (opcodeStage here)).least
  have sibMore := (consumeSIB_consumes here (modrmStage here)).least
  have sibSmall := (sibStage_consumes here).dispbytes
    (by simp [prefixStage_spec here])
  have lengthMore := (consumeID_consumes sibSmall).least
  change _ ≤ (modrmStage here).nextbyte at modrmMore
  change _ ≤ (sibStage here).nextbyte at sibMore
  change _ ≤ (lengthStage here).nextbyte at lengthMore
  have prefixSame : prefixStage there = prefixStage here :=
    consumePrefixLoop_congr _ _
      (moved.mono (Nat.zero_le _) (by
        change (prefixStage here).nextbyte + 1 ≤ _
        omega))
  have opcodeSame : opcodeStage there = opcodeStage here := by
    unfold opcodeStage
    rw [prefixSame]
    exact consumeOpcodeBytes_congr
      (moved.mono (Nat.zero_le _) (by
        change (opcodeStage here).nextbyte ≤ _
        omega))
  have opcodeKeeps := opcodeStage_consumes here
  have modrmSame : modrmStage there = modrmStage here := by
    unfold modrmStage
    rw [opcodeSame]
    refine consumeModRM_congr ?_ (moved.mono (Nat.zero_le _) ?_)
    · rw [opcodeKeeps.maddr, opcodeKeeps.prefixbytes, maddr, prefixes]
      omega
    · change (modrmStage here).nextbyte ≤ _
      omega
  have sibSame : sibStage there = sibStage here := by
    unfold sibStage
    rw [modrmSame]
    exact consumeSIB_congr
      (moved.mono (Nat.zero_le _) (by
        change (sibStage here).nextbyte ≤ _
        omega))
  have lengthSame : lengthStage there = lengthStage here := by
    unfold lengthStage
    rw [sibSame]
  rw [lengthSame]
  have keeps := lengthStage_consumes here
  have mpcZero : (lengthStage here).mpc = 0 := keeps.mpc.trans mpc
  have prefixCount : (lengthStage here).inst.prefixbytes =
      (prefixStage here).nextbyte := keeps.prefixbytes.trans prefixes
  have measured := lengthStage_length here
  apply maybeGet3ByteOpInfo_congr
  · exact moved _ (Nat.zero_le _) (by omega)
  · intro escape
    rw [mpcZero, prefixCount, Nat.zero_add] at escape
    have second := opcodeStage_escape escape
    exact moved _ (Nat.zero_le _) (by omega)
  · exact moved _ (Nat.zero_le _) (by omega)

end NativeClient.Decoder
