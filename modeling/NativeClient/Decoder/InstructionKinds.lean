import NativeClient.Decoder.InstructionLength
import Mathlib.Data.List.GetD
import Mathlib.Tactic.IntervalCases

/-!
# Control transfers in the opcode tables

Which instructions the tables call direct or indirect transfers, and what the
bytes of such an instruction are.  Every fact about the tables is decided over
their entries here, and only here.
-/

namespace NativeClient.Decoder

open NativeClient.Library

def OpInfo.Plain (info : OpInfo) : Prop :=
  info.insttype ≠ .jmp8 ∧ info.insttype ≠ .jmpz ∧
    info.insttype ≠ .indirect ∧ info.opinmrm ≠ 5

instance (info : OpInfo) : Decidable info.Plain :=
  inferInstanceAs (Decidable (_ ∧ _ ∧ _ ∧ _))

theorem DecodeTable.entry_of_ranges
    (property : OpInfo → Prop) {table : DecodeTable}
    (undefined : property decodeUndefinedInstInfo)
    (ranges : ∀ range ∈ table, property range.info) (opcode : UInt8) :
    property (table.entry opcode) := by
  unfold DecodeTable.entry
  split
  · rename_i range found
    exact ranges range (List.mem_of_find?_eq_some found)
  · exact undefined

private theorem getD_of_forall {α : Type} (property : α → Prop) (default : α)
    {list : List α} (outside : property default)
    (inside : ∀ value ∈ list, property value) (index : Nat) :
    property (list.getD index default) := by
  by_cases short : index < list.length
  · rw [List.getD_eq_getElem _ _ short]
    exact inside _ (List.getElem_mem short)
  · rw [List.getD_eq_default _ _ (by omega)]
    exact outside

private def prefixedTables : List DecodeTable :=
  [kDecode660FXXOp, kDecodeF20FXXOp, kDecodeF30FXXOp, kDecode0F0FOp,
    kDecode0F38Op, kDecode660F38Op, kDecodeF20F38Op, kDecode0F3AOp,
    kDecode660F3AOp]

private theorem prefixed_plain :
    ∀ table ∈ prefixedTables, ∀ range ∈ table, range.info.Plain := by
  decide +kernel

private theorem x87_plain :
    ∀ table ∈ [kDecode87D8, kDecode87D9, kDecode87DA, kDecode87DB,
      kDecode87DC, kDecode87DD, kDecode87DE, kDecode87DF],
    ∀ range ∈ table, range.info.Plain := by
  decide +kernel

private theorem x87_entry_plain (index : Nat) (opcode : UInt8) :
    ((kDecodeX87Op index).entry opcode).Plain := by
  have ranges := getD_of_forall
    (fun table : DecodeTable => ∀ range ∈ table, range.info.Plain)
    [] (by simp) x87_plain index
  exact DecodeTable.entry_of_ranges OpInfo.Plain (by decide) ranges opcode

theorem oneByte_transfer (opcode : UInt8) :
    ((kDecode1ByteOp.entry opcode).insttype = .jmp8 →
      (kDecode1ByteOp.entry opcode).hasmrmbyte = false ∧
      (kDecode1ByteOp.entry opcode).immtype = .fixed1 ∧
      (opcode &&& 0xf0 = 0x70 ∨ opcode = 0xeb)) ∧
    ((kDecode1ByteOp.entry opcode).insttype = .jmpz →
      (kDecode1ByteOp.entry opcode).hasmrmbyte = false ∧
      (kDecode1ByteOp.entry opcode).immtype = .datav ∧
      (opcode = 0xe8 ∨ opcode = 0xe9)) ∧
    (kDecode1ByteOp.entry opcode).insttype ≠ .indirect ∧
    (kDecode1ByteOp.entry opcode).insttype ≠ .threeDNow := by
  obtain ⟨value⟩ := opcode
  revert value
  decide +kernel

theorem twoByte_transfer (opcode : UInt8) :
    (kDecode0FXXOp.entry opcode).insttype ≠ .jmp8 ∧
    ((kDecode0FXXOp.entry opcode).insttype = .jmpz →
      (kDecode0FXXOp.entry opcode).hasmrmbyte = false ∧
      (kDecode0FXXOp.entry opcode).immtype = .datav ∧
      opcode &&& 0xf0 = 0x80) ∧
    (kDecode0FXXOp.entry opcode).insttype ≠ .indirect ∧
    (kDecode0FXXOp.entry opcode).opinmrm ≠ 5 := by
  obtain ⟨value⟩ := opcode
  revert value
  decide +kernel

theorem modrm_transfer (group opcode : Nat) :
    (kDecodeModRMOp group opcode).insttype ≠ .jmp8 ∧
      (kDecodeModRMOp group opcode).insttype ≠ .jmpz := by
  have rows : ∀ row ∈ kDecodeModRMType, ∀ insttype ∈ row,
      insttype ≠ .jmp8 ∧ insttype ≠ .jmpz := by
    decide +kernel
  have row := getD_of_forall
    (fun row : List NaClInstType =>
      ∀ insttype ∈ row, insttype ≠ .jmp8 ∧ insttype ≠ .jmpz)
    [] (by simp) rows group
  have selected := getD_of_forall
    (fun insttype : NaClInstType => insttype ≠ .jmp8 ∧ insttype ≠ .jmpz)
    .undefined (by decide) row opcode
  unfold kDecodeModRMOp
  split
  · decide
  · exact selected

/-! ## Kinds of decoded instructions -/

private theorem prefixStage_fresh (buffer : Buffer) :
    (prefixStage buffer).inst.hasopbyte2 = false ∧
      (prefixStage buffer).inst.hassibbyte = false ∧
      (prefixStage buffer).inst.dispbytes = 0 := by
  have loop (left : Nat) (mstate : NCDecoderState) :
      (consumePrefixLoop buffer left mstate).inst.hasopbyte2 =
          mstate.inst.hasopbyte2 ∧
        (consumePrefixLoop buffer left mstate).inst.hassibbyte =
          mstate.inst.hassibbyte ∧
        (consumePrefixLoop buffer left mstate).inst.dispbytes =
          mstate.inst.dispbytes := by
    induction left generalizing mstate with
    | zero => exact ⟨rfl, rfl, rfl⟩
    | succ left ih =>
        rw [consumePrefixLoop]
        split_ifs
        · exact ⟨rfl, rfl, rfl⟩
        · exact ih _
  exact loop kMaxPrefixBytes (initDecoder (emptySlot 0 0))

inductive OpcodeKind (buffer : Buffer) : Prop where
  | oneByte
      (info : (opcodeStage buffer).opinfo =
        kDecode1ByteOp.entry (buffer (prefixStage buffer).nextbyte))
      (next : (opcodeStage buffer).nextbyte =
        (prefixStage buffer).nextbyte + 1)
      (second : (opcodeStage buffer).inst.hasopbyte2 = false)
  | twoByte
      (escape : buffer (prefixStage buffer).nextbyte = kTwoByteOpcodeByte1)
      (unprefixed : (prefixStage buffer).inst.prefixmask &&& kPrefixDATA16 = 0)
      (info : (opcodeStage buffer).opinfo =
        kDecode0FXXOp.entry (buffer ((prefixStage buffer).nextbyte + 1)))
      (next : (opcodeStage buffer).nextbyte =
        (prefixStage buffer).nextbyte + 2)
  | plain (info : (opcodeStage buffer).opinfo.Plain)

private theorem table_plain
    {table : DecodeTable} (member : table ∈ prefixedTables)
    (opcode : UInt8) : (table.entry opcode).Plain :=
  DecodeTable.entry_of_ranges OpInfo.Plain (by decide)
    (prefixed_plain table member) opcode

section Prefixed

/-! What holds of every entry of these tables, and of the entry found so far,
holds of the entry that a third opcode byte leads to. -/

variable {property : OpInfo → Prop}
  (tables : ∀ table ∈ prefixedTables, ∀ opcode, property (table.entry opcode))
  {mstate : NCDecoderState} (here : property mstate.opinfo)

include tables here

private theorem getThreeByteOpInfo_property (opcode2 opcode3 : UInt8) :
    property (getThreeByteOpInfo mstate opcode2 opcode3).opinfo := by
  unfold getThreeByteOpInfo
  simp only
  split_ifs
  case pos => exact tables _ (by simp [prefixedTables]) opcode3
  case pos => exact tables _ (by simp [prefixedTables]) opcode3
  case pos => exact tables _ (by simp [prefixedTables]) opcode3
  case neg => exact here
  case pos => exact tables _ (by simp [prefixedTables]) opcode3
  case pos => exact tables _ (by simp [prefixedTables]) opcode3
  case neg => exact here
  case neg => exact here

private theorem consumeOpcodeByte3_property
    (buffer : Buffer) (opcode2 : UInt8) :
    property (consumeOpcodeByte3 buffer opcode2 mstate).opinfo := by
  unfold consumeOpcodeByte3
  split_ifs
  · have taken : property (takeOpbyte3 mstate).opinfo := here
    exact getThreeByteOpInfo_property tables taken opcode2 _
  · exact here

end Prefixed

variable {mstate : NCDecoderState} {buffer : Buffer} {offset : Nat}

private theorem getExtendedOpInfo_cases
    (plain : mstate.opinfo.Plain)
    (opbyte2 : UInt8) :
    (mstate.inst.prefixmask &&& kPrefixDATA16 = 0 ∧
        getExtendedOpInfo mstate opbyte2 =
          { mstate with opinfo := kDecode0FXXOp.entry opbyte2 }) ∨
      (getExtendedOpInfo mstate opbyte2).opinfo.Plain := by
  unfold getExtendedOpInfo
  simp only
  split_ifs with unprefixed
  · left
    rw [Nat.and_or_distrib_left, Nat.and_or_distrib_left,
      Nat.or_eq_zero_iff, Nat.or_eq_zero_iff] at unprefixed
    exact ⟨unprefixed.1.1, rfl⟩
  · exact .inr (table_plain (by simp [prefixedTables]) opbyte2)
  · exact .inr (table_plain (by simp [prefixedTables]) opbyte2)
  · exact .inr (table_plain (by simp [prefixedTables]) opbyte2)
  · exact .inr plain

theorem opcodeKind (buffer : Buffer) : OpcodeKind buffer := by
  by_cases escape : buffer (prefixStage buffer).nextbyte = kTwoByteOpcodeByte1
  · let first := takeOpcode kTwoByteOpcodeByte1 (prefixStage buffer)
    have second : opcodeStage buffer =
        setImmtype (consumeOpcodeByte2 buffer first).opinfo.immtype
          (consumeOpcodeByte2 buffer first) := by
      unfold opcodeStage consumeOpcodeBytes
      simp only [escape, if_true, first]
    have firstPlain : first.opinfo.Plain := by
      change (kDecode1ByteOp.entry kTwoByteOpcodeByte1).Plain
      decide +kernel
    rcases getExtendedOpInfo_cases firstPlain (buffer first.nextbyte) with
      ⟨unprefixed, extended⟩ | extended
    · by_cases third : (kDecode0FXXOp.entry (buffer first.nextbyte)).insttype =
          .threeByte
      · have group := (twoByte_transfer (buffer first.nextbyte)).2.2.2
        refine .plain ?_
        rw [second, consumeOpcodeByte2, extended]
        refine consumeOpcodeByte3_property
          (fun _ member opcode => table_plain member opcode) ?_ buffer _
        simp [OpInfo.Plain, takeOpbyte2, third, group]
      · have found : consumeOpcodeByte2 buffer first =
            takeOpbyte2
              { first with
                opinfo := kDecode0FXXOp.entry (buffer first.nextbyte) } := by
          rw [consumeOpcodeByte2, extended, consumeOpcodeByte3]
          exact if_neg third
        refine .twoByte escape unprefixed ?_ ?_
        · rw [second, found]
          rfl
        · rw [second, found]
          rfl
    · refine .plain ?_
      rw [second, consumeOpcodeByte2]
      have taken : (takeOpbyte2 (getExtendedOpInfo first
          (buffer first.nextbyte))).opinfo.Plain := extended
      exact consumeOpcodeByte3_property
        (fun _ member opcode => table_plain member opcode) taken buffer _
  · have first : opcodeStage buffer =
        setImmtype
          (kDecode1ByteOp.entry (buffer (prefixStage buffer).nextbyte)).immtype
          (takeOpcode (buffer (prefixStage buffer).nextbyte)
            (prefixStage buffer)) := by
      unfold opcodeStage consumeOpcodeBytes
      simp only [escape, if_false]
      rfl
    refine .oneByte ?_ ?_ ?_
    · rw [first]
      rfl
    · rw [first]
      rfl
    · rw [first]
      exact (prefixStage_fresh buffer).1

private theorem opcodeStage_fresh (buffer : Buffer) :
    (opcodeStage buffer).inst.hassibbyte = false ∧
      (opcodeStage buffer).inst.dispbytes = 0 ∧
      (opcodeStage buffer).inst.immtype =
        (opcodeStage buffer).opinfo.immtype := by
  obtain ⟨-, noSib, noDisp⟩ := prefixStage_fresh buffer
  have third (mstate : NCDecoderState) (opcode2 opcode3 : UInt8) :
      (getThreeByteOpInfo mstate opcode2 opcode3).inst = mstate.inst := by
    unfold getThreeByteOpInfo
    simp only
    split_ifs <;> rfl
  have second (mstate : NCDecoderState) (opbyte2 : UInt8) :
      (getExtendedOpInfo mstate opbyte2).inst = mstate.inst := by
    unfold getExtendedOpInfo
    simp only
    split_ifs <;> rfl
  have kept : (consumeOpcodeByte2 buffer (takeOpcode
        (buffer (prefixStage buffer).nextbyte)
        (prefixStage buffer))).inst.hassibbyte = false ∧
      (consumeOpcodeByte2 buffer (takeOpcode
        (buffer (prefixStage buffer).nextbyte)
        (prefixStage buffer))).inst.dispbytes = 0 := by
    unfold consumeOpcodeByte2 consumeOpcodeByte3
    split_ifs
    · rw [third]
      simp only [takeOpbyte3, takeOpbyte2, second]
      exact ⟨noSib, noDisp⟩
    · simp only [takeOpbyte2, second]
      exact ⟨noSib, noDisp⟩
  unfold opcodeStage consumeOpcodeBytes
  simp only
  split_ifs
  · exact ⟨kept.1, kept.2, rfl⟩
  · exact ⟨noSib, noDisp, rfl⟩

private theorem maybeGet3ByteOpInfo_cases
    (buffer : Buffer) (mstate : NCDecoderState) :
    (maybeGet3ByteOpInfo buffer mstate).opinfo = mstate.opinfo ∨
      (maybeGet3ByteOpInfo buffer mstate).opinfo.Plain := by
  unfold maybeGet3ByteOpInfo
  simp only
  split_ifs
  · exact .inr (table_plain (by simp [prefixedTables]) _)
  · exact .inl rfl
  · exact .inl rfl

private theorem setDispbytes_opinfo
    (dispbytes : Option Nat) (mstate : NCDecoderState) :
    (setDispbytes dispbytes mstate).opinfo = mstate.opinfo := by
  cases dispbytes <;> rfl

private theorem consumeSIB_opinfo (buffer : Buffer) (mstate : NCDecoderState) :
    (consumeSIB buffer mstate).opinfo = mstate.opinfo := by
  unfold consumeSIB
  simp only
  split_ifs
  · exact setDispbytes_opinfo _ _
  · rfl
  · rfl

private theorem consumeID_opinfo (mstate : NCDecoderState) :
    (consumeID mstate).opinfo = mstate.opinfo := by
  unfold consumeID setLength checkImmtype
  simp only
  split_ifs <;> rfl

private theorem consumeModRM_direct
    (buffer : Buffer) {insttype : NaClInstType}
    (direct : insttype = .jmp8 ∨ insttype = .jmpz)
    (found : (consumeModRM buffer mstate).opinfo.insttype = insttype) :
    mstate.opinfo.insttype = insttype := by
  have address (mrm : UInt8) (inner : NCDecoderState) :
      (addressModRM mrm inner).opinfo = inner.opinfo := by
    unfold addressModRM
    split_ifs <;> exact setDispbytes_opinfo _ _
  have selected (mrm : UInt8) (inner : NCDecoderState)
      (same : (selectOpInMrm mrm inner).opinfo.insttype = insttype) :
      inner.opinfo.insttype = insttype := by
    unfold selectOpInMrm at same
    by_cases grouped : inner.opinfo.opinmrm ≠ 0
    · rw [if_pos grouped] at same
      have group := modrm_transfer inner.opinfo.opinmrm (modrmOpcode mrm)
      rcases direct with rfl | rfl
      · exact (group.1 same).elim
      · exact (group.2 same).elim
    · rwa [if_neg grouped] at same
  have named (inner : NCDecoderState)
      (same : (selectX87 buffer inner).opinfo.insttype = insttype) :
      inner.opinfo.insttype = insttype := by
    unfold selectX87 getX87OpInfo at same
    simp only at same
    split_ifs at same
    · exact same
    · exact same
    · have plain := x87_entry_plain
        ((buffer (inner.inst.maddr + inner.inst.prefixbytes)).toNat - 0xd8)
        inner.inst.mrm
      rcases direct with rfl | rfl
      · exact (plain.1 same).elim
      · exact (plain.2.1 same).elim
    · exact same
  unfold consumeModRM at found
  simp only at found
  split_ifs at found
  · rw [address] at found
    exact named (readModRM buffer mstate) (selected _ _ found)
  · exact found

private theorem instAt_direct
    {insttype : NaClInstType}
    (direct : insttype = .jmp8 ∨ insttype = .jmpz)
    (found : (instAt buffer offset).opinfo.insttype = insttype) :
    (opcodeStage (buffer.shift offset)).opinfo.insttype = insttype := by
  rw [instAt_eq_stages] at found
  rcases maybeGet3ByteOpInfo_cases (buffer.shift offset)
    (lengthStage (buffer.shift offset)) with same | plain
  · rw [same, lengthStage, consumeID_opinfo, sibStage,
      consumeSIB_opinfo] at found
    exact consumeModRM_direct _ direct found
  · rcases direct with rfl | rfl
    · exact (plain.1 found).elim
    · exact (plain.2.1 found).elim

private theorem lengthStage_of_no_modrm
    (noModRM : (opcodeStage buffer).opinfo.hasmrmbyte = false) :
    lengthStage buffer = consumeID (opcodeStage buffer) := by
  have modrm : modrmStage buffer = opcodeStage buffer := by
    simp [modrmStage, consumeModRM, noModRM]
  have sib : sibStage buffer = opcodeStage buffer := by
    simp [sibStage, modrm, consumeSIB, (opcodeStage_fresh buffer).1]
  rw [lengthStage, sib]

private theorem consumeID_nextbyte (mstate : NCDecoderState) :
    (consumeID mstate).nextbyte =
      mstate.nextbyte + (immediateBytes mstate + mstate.inst.dispbytes) := by
  unfold consumeID setLength checkImmtype
  simp only
  split_ifs <;> rfl

private theorem consumeID_hasopbyte2 (mstate : NCDecoderState) :
    (consumeID mstate).inst.hasopbyte2 = mstate.inst.hasopbyte2 := by
  unfold consumeID setLength checkImmtype
  simp only
  split_ifs <;> rfl

private theorem instAt_length_of_no_modrm
    (noModRM :
      (opcodeStage (buffer.shift offset)).opinfo.hasmrmbyte = false) :
    (instAt buffer offset).inst.length =
      (opcodeStage (buffer.shift offset)).nextbyte +
        immediateBytes (opcodeStage (buffer.shift offset)) := by
  rw [instAt_length_eq, lengthStage_of_no_modrm noModRM, consumeID_nextbyte,
    (opcodeStage_fresh _).2.1, Nat.add_zero]

private theorem immediateBytes_of_fixed1
    (immtype : mstate.inst.immtype = .fixed1) :
    immediateBytes mstate = 1 := by
  unfold immediateBytes
  rw [immtype]
  simp only [reduceCtorEq, if_false]
  split_ifs <;> rfl

private theorem immediateBytes_of_datav
    (immtype : mstate.inst.immtype = .datav)
    (wide : mstate.inst.prefixmask &&& kPrefixDATA16 = 0) :
    immediateBytes mstate = 4 := by
  unfold immediateBytes
  rw [immtype]
  simp only [reduceCtorEq, if_false, wide, ne_eq, not_true_eq_false]
  split_ifs <;> rfl

theorem instAt_jmp8
    (found : (instAt buffer offset).opinfo.insttype = .jmp8) :
    (instAt buffer offset).inst.length =
        (instAt buffer offset).inst.prefixbytes + 2 ∧
      (buffer (offset + (instAt buffer offset).inst.prefixbytes) &&& 0xf0 =
          0x70 ∨
        buffer (offset + (instAt buffer offset).inst.prefixbytes) = 0xeb) := by
  have opcode := instAt_direct (.inl rfl) found
  have prefixes := instAt_prefixbytes buffer offset
  cases opcodeKind (buffer.shift offset) with
  | oneByte info next second =>
      rw [info] at opcode
      obtain ⟨noModRM, immtype, named⟩ := (oneByte_transfer _).1 opcode
      rw [← info] at noModRM immtype
      rw [instAt_length_of_no_modrm noModRM, next, immediateBytes_of_fixed1
        ((opcodeStage_fresh _).2.2.trans immtype), prefixes]
      exact ⟨rfl, named⟩
  | twoByte escape unprefixed info next =>
      rw [info] at opcode
      exact ((twoByte_transfer _).1 opcode).elim
  | plain info => exact (info.1 opcode).elim

theorem instAt_jmpz
    (found : (instAt buffer offset).opinfo.insttype = .jmpz) :
    ((buffer (offset + (instAt buffer offset).inst.prefixbytes) = 0xe8 ∨
          buffer (offset + (instAt buffer offset).inst.prefixbytes) = 0xe9) ∧
        (instAt buffer offset).inst.hasopbyte2 = false ∧
        ((instAt buffer offset).inst.prefixmask &&& kPrefixDATA16 = 0 →
          (instAt buffer offset).inst.length =
            (instAt buffer offset).inst.prefixbytes + 5)) ∨
      (buffer (offset + (instAt buffer offset).inst.prefixbytes) = 0x0f ∧
        buffer (offset + (instAt buffer offset).inst.prefixbytes + 1) &&& 0xf0 =
          0x80 ∧
        (instAt buffer offset).inst.length =
          (instAt buffer offset).inst.prefixbytes + 6) := by
  have opcode := instAt_direct (.inr rfl) found
  have prefixes := instAt_prefixbytes buffer offset
  have keeps := opcodeStage_consumes (buffer.shift offset)
  have masks : (instAt buffer offset).inst.prefixmask =
      (prefixStage (buffer.shift offset)).inst.prefixmask :=
    instAt_prefixmask buffer offset
  cases opcodeKind (buffer.shift offset) with
  | oneByte info next second =>
      left
      rw [info] at opcode
      obtain ⟨noModRM, immtype, named⟩ := (oneByte_transfer _).2.1 opcode
      rw [← info] at noModRM immtype
      refine ⟨by rw [prefixes]; exact named, ?_, ?_⟩
      · rw [instAt_eq_stages, (maybeGet3ByteOpInfo_keeps _ _).2.2.1,
          lengthStage_of_no_modrm noModRM, consumeID_hasopbyte2, second]
      · intro wide
        rw [masks, ← keeps.prefixmask] at wide
        rw [instAt_length_of_no_modrm noModRM, next, immediateBytes_of_datav
          ((opcodeStage_fresh _).2.2.trans immtype) wide, prefixes]
  | twoByte escape unprefixed info next =>
      right
      rw [info] at opcode
      obtain ⟨noModRM, immtype, named⟩ := (twoByte_transfer _).2.1 opcode
      rw [← info] at noModRM immtype
      rw [← keeps.prefixmask] at unprefixed
      rw [instAt_length_of_no_modrm noModRM, next, immediateBytes_of_datav
        ((opcodeStage_fresh _).2.2.trans immtype) unprefixed, prefixes]
      exact ⟨escape, named, rfl⟩
  | plain info => exact (info.2.1 opcode).elim

theorem instAt_indirect
    (found : (instAt buffer offset).opinfo.insttype = .indirect) :
    (instAt buffer offset).inst.prefixbytes + 2 ≤
      (instAt buffer offset).inst.length := by
  have notOpcode : (opcodeStage (buffer.shift offset)).opinfo.insttype ≠
      .indirect := by
    cases opcodeKind (buffer.shift offset) with
    | oneByte info next second =>
        rw [info]
        exact (oneByte_transfer _).2.2.1
    | twoByte escape unprefixed info next =>
        rw [info]
        exact (twoByte_transfer _).2.2.1
    | plain info => exact info.2.2.1
  have hasModRM : (opcodeStage (buffer.shift offset)).opinfo.hasmrmbyte =
      true := by
    by_contra noModRM
    rw [Bool.not_eq_true] at noModRM
    rw [instAt_eq_stages, lengthStage_of_no_modrm noModRM] at found
    rcases maybeGet3ByteOpInfo_cases (buffer.shift offset)
      (consumeID (opcodeStage (buffer.shift offset))) with same | plain
    · rw [same, consumeID_opinfo] at found
      exact notOpcode found
    · exact plain.2.2.1 found
  rw [instAt_prefixbytes]
  exact instAt_length_of_modrm hasModRM

/-! ## The fence instructions -/

private def OpInfo.Unfenced (info : OpInfo) : Prop :=
  info.insttype ≠ .sfenceClflush ∧ info.opinmrm ≠ 15

private instance (info : OpInfo) : Decidable info.Unfenced :=
  inferInstanceAs (Decidable (_ ∧ _))

private theorem tables_unfenced :
    ∀ table ∈ kDecode0FXXOp :: prefixedTables,
      ∀ range ∈ table, range.info.insttype ≠ .sfenceClflush := by
  decide +kernel

private theorem oneByte_unfenced (opcode : UInt8) :
    (kDecode1ByteOp.entry opcode).Unfenced := by
  refine DecodeTable.entry_of_ranges OpInfo.Unfenced (by decide) ?_ opcode
  decide +kernel

private theorem x87_unfenced :
    ∀ table ∈ [kDecode87D8, kDecode87D9, kDecode87DA, kDecode87DB,
      kDecode87DC, kDecode87DD, kDecode87DE, kDecode87DF],
    ∀ range ∈ table, range.info.Unfenced := by
  decide +kernel

private theorem x87_entry_unfenced (index : Nat) (opcode : UInt8) :
    ((kDecodeX87Op index).entry opcode).Unfenced := by
  have ranges := getD_of_forall
    (fun table : DecodeTable => ∀ range ∈ table, range.info.Unfenced)
    [] (by simp) x87_unfenced index
  exact DecodeTable.entry_of_ranges OpInfo.Unfenced (by decide) ranges opcode

private theorem modrm_sfenceClflush
    {group opcode : Nat}
    (found : (kDecodeModRMOp group opcode).insttype = .sfenceClflush) :
    group = 15 := by
  have rows : ∀ group < kDecodeModRMType.length,
      ∀ insttype ∈ kDecodeModRMType.getD group [],
        insttype = .sfenceClflush → group = 15 := by
    decide +kernel
  have entry : (kDecodeModRMType.getD group []).getD opcode .undefined =
      .sfenceClflush := by
    unfold kDecodeModRMOp at found
    split at found
    next => exact absurd found (by decide)
    next => exact found
  by_cases known : group < kDecodeModRMType.length
  · refine rows group known .sfenceClflush ?_ rfl
    by_cases short : opcode < (kDecodeModRMType.getD group []).length
    · rw [List.getD_eq_getElem _ _ short] at entry
      rw [← entry]
      exact List.getElem_mem short
    · rw [List.getD_eq_default _ _ (Nat.not_lt.mp short)] at entry
      cases entry
  · rw [List.getD_eq_default kDecodeModRMType [] (Nat.not_lt.mp known)] at entry
    simp at entry

private theorem opcodeStage_unfenced (buffer : Buffer) :
    (opcodeStage buffer).opinfo.insttype ≠ .sfenceClflush := by
  have entry {table : DecodeTable}
      (member : table ∈ kDecode0FXXOp :: prefixedTables) (opcode : UInt8) :
      (table.entry opcode).insttype ≠ .sfenceClflush :=
    DecodeTable.entry_of_ranges (fun info => info.insttype ≠ .sfenceClflush)
      (by decide) (tables_unfenced table member) opcode
  have first (opcode : UInt8) (mstate : NCDecoderState) :
      (takeOpcode opcode mstate).opinfo.insttype ≠ .sfenceClflush :=
    (oneByte_unfenced opcode).1
  have second {mstate : NCDecoderState} (opbyte2 : UInt8)
      (here : mstate.opinfo.insttype ≠ .sfenceClflush) :
      (takeOpbyte2 (getExtendedOpInfo mstate opbyte2)).opinfo.insttype ≠
        .sfenceClflush := by
    unfold getExtendedOpInfo
    simp only
    split_ifs
    · exact entry (by simp) opbyte2
    · exact entry (by simp [prefixedTables]) opbyte2
    · exact entry (by simp [prefixedTables]) opbyte2
    · exact entry (by simp [prefixedTables]) opbyte2
    · exact here
  unfold opcodeStage consumeOpcodeBytes
  simp only
  split_ifs
  · exact @consumeOpcodeByte3_property
      (fun info => info.insttype ≠ .sfenceClflush)
      (fun _ member => entry (List.mem_cons_of_mem _ member)) _
      (second _ (first _ _)) buffer _
  · exact first (buffer (prefixStage buffer).nextbyte) (prefixStage buffer)

private theorem consumeModRM_unfenced
    (buffer : Buffer)
    (unfenced : mstate.opinfo.Unfenced) :
    (consumeModRM buffer mstate).opinfo.insttype ≠ .sfenceClflush := by
  have address (mrm : UInt8) (inner : NCDecoderState) :
      (addressModRM mrm inner).opinfo = inner.opinfo := by
    unfold addressModRM
    split_ifs <;> exact setDispbytes_opinfo _ _
  have selected (mrm : UInt8) (inner : NCDecoderState)
      (same : inner.opinfo.Unfenced) :
      (selectOpInMrm mrm inner).opinfo.insttype ≠ .sfenceClflush := by
    unfold selectOpInMrm
    by_cases grouped : inner.opinfo.opinmrm ≠ 0
    · rw [if_pos grouped]
      exact fun found => same.2 (modrm_sfenceClflush found)
    · rw [if_neg grouped]
      exact same.1
  have named (inner : NCDecoderState) (same : inner.opinfo.Unfenced) :
      (selectX87 buffer inner).opinfo.Unfenced := by
    unfold selectX87 getX87OpInfo
    simp only
    split_ifs
    · exact same
    · exact same
    · have plain := x87_entry_unfenced
        ((buffer (inner.inst.maddr + inner.inst.prefixbytes)).toNat - 0xd8)
        inner.inst.mrm
      simpa only using plain
    · exact same
  unfold consumeModRM
  simp only
  split_ifs
  · rw [address]
    exact selected _ _ (named (readModRM buffer mstate) unfenced)
  · exact unfenced.1

theorem instAt_sfenceClflush
    (found : (instAt buffer offset).opinfo.insttype = .sfenceClflush) :
    3 ≤ (instAt buffer offset).inst.length := by
  have modrm : (modrmStage (buffer.shift offset)).opinfo.insttype =
      .sfenceClflush := by
    rw [instAt_eq_stages] at found
    unfold maybeGet3ByteOpInfo at found
    simp only at found
    have last (immbyte : UInt8) :
        (kDecode0F0FOp.entry immbyte).insttype ≠ .sfenceClflush :=
      DecodeTable.entry_of_ranges (fun info => info.insttype ≠ .sfenceClflush)
        (by decide) (tables_unfenced _ (by simp [prefixedTables])) immbyte
    split_ifs at found
    · exact absurd found (last _)
    · rwa [lengthStage, consumeID_opinfo, sibStage, consumeSIB_opinfo] at found
    · rwa [lengthStage, consumeID_opinfo, sibStage, consumeSIB_opinfo] at found
  have hasModRM :
      (opcodeStage (buffer.shift offset)).opinfo.hasmrmbyte = true := by
    by_contra noModRM
    rw [modrmStage, consumeModRM, if_neg noModRM] at modrm
    exact opcodeStage_unfenced _ modrm
  have escape : (buffer.shift offset)
      (prefixStage (buffer.shift offset)).nextbyte = kTwoByteOpcodeByte1 := by
    by_contra oneByte
    refine consumeModRM_unfenced _ ?_ modrm
    unfold opcodeStage consumeOpcodeBytes
    simp only [if_neg oneByte]
    exact oneByte_unfenced _
  have opcode := opcodeStage_escape escape
  have rest := instAt_length_after_modrm hasModRM
  omega

/-! ## Two encodings the validator writes or asks for -/

theorem instAt_of_bytes
    (buffer : Buffer) (offset : Nat) (bytes : List UInt8)
    (whole : (instAt (Buffer.ofList bytes) 0).inst.length = bytes.length)
    (stored : ∀ index < bytes.length,
      buffer (offset + index) = bytes.getD index 0) :
    instAt buffer offset = instAt (Buffer.ofList bytes) 0 := by
  have here := instAt_shift buffer offset 0
  rw [Nat.add_zero] at here
  rw [← here]
  apply instAt_congr
  intro position _ below
  rw [whole, Nat.zero_add] at below
  exact (stored position below).symm

theorem instAt_hlt
    (stored : buffer offset = 0xf4) :
    (instAt buffer offset).inst.length = 1 ∧
      (instAt buffer offset).inst.prefixbytes = 0 ∧
      (instAt buffer offset).opinfo.insttype = .i386 ∧
      (instAt buffer offset).internalErrors = 0 := by
  have found := instAt_of_bytes buffer offset [0xf4] (by decide +kernel)
    (by simpa using stored)
  rw [found]
  decide +kernel

/-- `and $imm8, %reg` with either bundle mask, the first half of a guarded
indirect jump. -/
theorem instAt_and
    {reg : Nat} (register : reg < 8)
    (opcode : buffer offset = 0x83)
    (modrm : (buffer (offset + 1)).toNat = 0xe0 ||| reg)
    (mask : (buffer (offset + 2)).toNat = 0xf0 ∨
      (buffer (offset + 2)).toNat = 0xe0) :
    (instAt buffer offset).inst.length = 3 ∧
      (instAt buffer offset).inst.prefixbytes = 0 ∧
      (instAt buffer offset).opinfo.insttype = .i386L ∧
      (instAt buffer offset).internalErrors = 0 := by
  have known : ∀ reg < 8, ∀ mask ∈ [(0xf0 : Nat), 0xe0],
      let bytes := [0x83, UInt8.ofNat (0xe0 ||| reg), UInt8.ofNat mask]
      (instAt (Buffer.ofList bytes) 0).inst.length = 3 ∧
        (instAt (Buffer.ofList bytes) 0).inst.prefixbytes = 0 ∧
        (instAt (Buffer.ofList bytes) 0).opinfo.insttype = .i386L ∧
        (instAt (Buffer.ofList bytes) 0).internalErrors = 0 := by
    decide +kernel
  have fixed := known reg register (buffer (offset + 2)).toNat (by simpa using mask)
  have found := instAt_of_bytes buffer offset
    [0x83, UInt8.ofNat (0xe0 ||| reg), UInt8.ofNat (buffer (offset + 2)).toNat]
    fixed.1 (by
      intro index small
      simp only [List.length_cons, List.length_nil] at small
      interval_cases index
      · exact opcode
      · rw [← modrm]
        simp
      · simp)
  rw [found]
  exact fixed

end NativeClient.Decoder
