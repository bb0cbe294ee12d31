import NativeClient.ValidatorArm.InstClasses
import Mathlib.Data.Nat.Basic

/-!
# How an instruction changes a register

The registers that an instruction changes are of two kinds: those that it
loads or computes, and those that it moves by the immediate offset of its
address.  The classes report the second kind apart from the whole.
-/

namespace NativeClient.ValidatorArm

theorem kRegisterNone_bitmask : kRegisterNone.bitmask = 0 := by
  decide

namespace RegisterList

private theorem shifted_ne_zero (register : Register) :
    1#32 <<< register.val ≠ 0 := by
  revert register
  decide

theorem contains_iff (list : RegisterList) (register : Register) :
    list.contains register = true ↔
      register ≠ kRegisterNone ∧ list.getLsbD register.val = true := by
  unfold contains Register.bitmask
  by_cases none : register = kRegisterNone
  · simp [none]
  · have differs := shifted_ne_zero register
    rw [if_neg none, ← BitVec.twoPow_eq, BitVec.and_twoPow]
    rw [← BitVec.twoPow_eq] at differs
    cases list.getLsbD register.val with
    | true => simpa [none] using differs
    | false => simp

theorem contains_union (list other : RegisterList) (register : Register) :
    (list.union other).contains register = true ↔
      list.contains register = true ∨ other.contains register = true := by
  rw [contains_iff, contains_iff, contains_iff, union, BitVec.getLsbD_or,
    Bool.or_eq_true, and_or_left]

theorem contains_bitmask (changed register : Register) :
    (changed.bitmask).contains register = true ↔
      changed = register ∧ register ≠ kRegisterNone := by
  revert changed register
  decide +kernel

theorem contains_inter (list other : RegisterList) (register : Register) :
    (list.inter other).contains register = true ↔
      list.contains register = true ∧ other.contains register = true := by
  rw [contains_iff, contains_iff, contains_iff, inter, BitVec.getLsbD_and,
    Bool.and_eq_true, and_and_left]

theorem contains_of_containsAll
    {list other : RegisterList} {register : Register}
    (all : list.containsAll other = true)
    (member : other.contains register = true) :
    list.contains register = true := by
  have same : list.inter other = other := beq_iff_eq.mp all
  rw [← same] at member
  exact ((contains_inter list other register).mp member).1

theorem containsAny_of_contains
    {list other : RegisterList} {register : Register}
    (left : list.contains register = true)
    (right : other.contains register = true) :
    list.containsAny other = true := by
  have member := (contains_inter list other register).mpr ⟨left, right⟩
  obtain ⟨-, set⟩ := (contains_iff _ _).mp member
  unfold containsAny
  rw [bne_iff_ne]
  intro empty
  unfold inter at set
  rw [empty] at set
  simp at set

theorem containsAll_bitmask
    {list : RegisterList} {register : Register}
    (named : register ≠ kRegisterNone) :
    list.containsAll register.bitmask = true ↔
      list.contains register = true := by
  constructor
  · intro all
    exact contains_of_containsAll all
      ((contains_bitmask register register).mpr ⟨rfl, named⟩)
  · intro member
    obtain ⟨-, set⟩ := (contains_iff _ _).mp member
    unfold containsAll Register.bitmask
    rw [if_neg named, ← BitVec.twoPow_eq, BitVec.and_twoPow, if_pos set]
    exact beq_self_eq_true _

def Named (list : RegisterList) : Prop :=
  list.getLsbD 31 = false

theorem named_bitmask (register : Register) : register.bitmask.Named := by
  unfold Named
  revert register
  decide +kernel

theorem Named.union
    {list other : RegisterList} (left : list.Named) (right : other.Named) :
    (list.union other).Named := by
  unfold Named RegisterList.union at *
  rw [BitVec.getLsbD_or, left, right, Bool.or_self]

theorem named_optionalRegister (changed : Bool) (register : Register) :
    (optionalRegister changed register).Named := by
  unfold optionalRegister
  split
  next => exact named_bitmask register
  next => exact named_bitmask kRegisterNone

theorem contains_optionalRegister (changed : Bool) (written register : Register) :
    (optionalRegister changed written).contains register = true ↔
      changed = true ∧ written = register ∧ register ≠ kRegisterNone := by
  unfold optionalRegister
  cases changed with
  | true => simp [contains_bitmask]
  | false =>
      rw [if_neg (by simp), contains_bitmask]
      constructor
      · rintro ⟨rfl, differs⟩
        exact absurd rfl differs
      · rintro ⟨impossible, -⟩
        cases impossible

theorem not_contains_none (register : Register) :
    ¬ (kRegisterNone.bitmask).contains register = true := by
  rw [contains_bitmask]
  rintro ⟨rfl, differs⟩
  exact differs rfl

theorem exists_contains
    {added list data : RegisterList} (named : added.Named)
    (differs : list.inter data ≠ (added.union list).inter data) :
    ∃ register, data.contains register = true ∧
      added.contains register = true := by
  by_contra missing
  apply differs
  unfold inter union
  apply BitVec.eq_of_getLsbD_eq
  intro place below
  rw [BitVec.getLsbD_and, BitVec.getLsbD_and, BitVec.getLsbD_or]
  cases set : added.getLsbD place with
  | false => rw [Bool.false_or]
  | true =>
      have register : (⟨place, below⟩ : Register) ≠ kRegisterNone := by
        rintro same
        have last : place = 31 := congrArg Fin.val same
        unfold Named at named
        rw [last, named] at set
        cases set
      have clear : data.getLsbD place = false := by
        by_contra dataSet
        rw [Bool.not_eq_false] at dataSet
        exact missing ⟨⟨place, below⟩,
          (contains_iff _ _).mpr ⟨register, dataSet⟩,
          (contains_iff _ _).mpr ⟨register, set⟩⟩
      rw [clear, Bool.and_false, Bool.and_false]

end RegisterList

namespace InstClass

def vectorResultDefs (i : Instruction) : RegisterList :=
  if i.reg 3 0 = kRegisterStack then kRegisterNone.bitmask
  else ClassDecoder.vectorDefs i

def resultDefs : InstClass → Instruction → RegisterList
  | storeImmediate, _ => kRegisterNone.bitmask
  | loadImmediate, i => (i.reg 15 12).bitmask
  | loadDoubleI, i =>
      (i.reg 15 12).bitmask.union (ClassDecoder.secondRegister i).bitmask
  | loadMultiple, i => ClassDecoder.loadMultipleList i
  | vectorLoad, i | vectorStore, i => vectorResultDefs i
  | loadCoprocessor, _ | storeCoprocessor, _ => kRegisterNone.bitmask
  | other, i => other.decoder.defs i

private theorem union_none (list : RegisterList) :
    list = list.union kRegisterNone.bitmask := by
  rw [kRegisterNone_bitmask, RegisterList.union]
  exact (BitVec.or_zero).symm

private theorem none_union (list : RegisterList) :
    list = RegisterList.union kRegisterNone.bitmask list := by
  rw [kRegisterNone_bitmask, RegisterList.union]
  exact (BitVec.zero_or).symm

private theorem vectorDefs_eq (i : Instruction) :
    ClassDecoder.vectorDefs i =
      (vectorResultDefs i).union (ClassDecoder.vectorAddressingDefs i) := by
  unfold vectorResultDefs ClassDecoder.vectorDefs
    ClassDecoder.vectorAddressingDefs
  by_cases stack : i.reg 3 0 = kRegisterStack
  · rw [if_pos stack, stack]
    exact none_union _
  · have moves : (i.reg 3 0 == kRegisterStack) = false := by simp [stack]
    rw [if_neg stack, moves]
    exact union_none _

theorem defs_eq (kind : InstClass) (i : Instruction) :
    kind.decoder.defs i =
      (kind.resultDefs i).union (kind.decoder.immediateAddressingDefs i) := by
  cases kind with
  | storeImmediate => exact none_union _
  | loadCoprocessor => exact none_union _
  | storeCoprocessor => exact none_union _
  | loadImmediate => rfl
  | loadMultiple => rfl
  | loadDoubleI =>
      show RegisterList.union (RegisterList.union _ _) _ =
        RegisterList.union (RegisterList.union _ _) _
      unfold RegisterList.union
      rw [BitVec.or_assoc, BitVec.or_assoc]
      congr 1
      exact BitVec.or_comm _ _
  | vectorLoad => exact vectorDefs_eq i
  | vectorStore => exact vectorDefs_eq i
  | _ => exact union_none _

open RegisterList in
private theorem named_vectorResult (i : Instruction) :
    (vectorResultDefs i).Named := by
  unfold vectorResultDefs
  split
  next => exact named_bitmask _
  next => exact named_optionalRegister _ _

private theorem bits_lt (i : Instruction) (hi lo : Nat) :
    i.bits hi lo < 2 ^ (hi - lo + 1) :=
  Nat.mod_lt _ (Nat.pow_pos (by decide))

private theorem getLsbD_loadMultipleList (i : Instruction) (place : Nat) :
    (ClassDecoder.loadMultipleList i).getLsbD place =
      (decide (place < 16) && i.getLsbD place) := by
  unfold ClassDecoder.loadMultipleList Instruction.bits
  rw [BitVec.getLsbD_ofNat, Nat.testBit_mod_two_pow, BitVec.ushiftRight_zero]
  by_cases low : place < 16
  · have below : place < 32 := by omega
    simp only [low, below, decide_true, Bool.true_and]
    rfl
  · simp [low]

open RegisterList in
theorem resultDefs_named (kind : InstClass) (i : Instruction) :
    (kind.resultDefs i).Named := by
  have optional := named_optionalRegister
  have single := named_bitmask
  cases kind with
  | dataProc | immediateBic => exact (single _).union (optional _ _)
  | test | testImmediate => exact optional _ _
  | packSatRev | multiply => exact (single _).union (single _)
  | longMultiply | longMultiply15_8 =>
      exact ((single _).union (single _)).union (single _)
  | satAddSub => exact ((single _).union (optional _ _)).union (single _)
  | loadRegister =>
      show (ClassDecoder.loadRegisterDefs i).Named
      unfold ClassDecoder.loadRegisterDefs
      split
      next => exact ((single _).union (single _)).union (single _)
      next => exact (single _).union (single _)
  | loadDoubleR =>
      show (ClassDecoder.loadDoubleRDefs i).Named
      unfold ClassDecoder.loadDoubleRDefs ClassDecoder.loadRegisterDefs
      split
      next =>
        exact (((single _).union (single _)).union (single _)).union (single _)
      next => exact ((single _).union (single _)).union (single _)
  | loadDoubleI | loadExclusive | moveDoubleFromCoprocessor =>
      exact (single _).union (single _)
  | loadDoubleExclusive =>
      exact ((single _).union (single _)).union (single _)
  | loadMultiple =>
      show (ClassDecoder.loadMultipleList i).Named
      rw [Named, getLsbD_loadMultipleList]
      rfl
  | vectorLoad | vectorStore => exact named_vectorResult i
  | moveFromCoprocessor =>
      show (ClassDecoder.moveFromCoprocessorDefs i).Named
      unfold ClassDecoder.moveFromCoprocessorDefs
      split
      next => exact single _
      next => exact single _
  | bxBlx | branch => exact (single _).union (optional _ _)
  | _ => exact single _

def LoadsOwnBase (kind : InstClass) (i : Instruction) (register : Register) :
    Prop :=
  (kind = loadImmediate ∨ kind = loadDoubleI) ∧
    ClassDecoder.writeback i = true ∧ i.reg 19 16 = register ∧
    (kind.resultDefs i).contains register = true

open RegisterList in
private theorem unpredictable_of_popped
    {i : Instruction} {register : Register}
    (popped : (ClassDecoder.loadMultipleList i).contains register = true)
    (moved :
      (ClassDecoder.loadMultipleAddressingDefs i).contains register = true) :
    ClassDecoder.loadMultiple.safety i = .unpredictable := by
  obtain ⟨indexed, base, -⟩ := (contains_optionalRegister _ _ _).mp moved
  obtain ⟨-, set⟩ := (contains_iff _ _).mp popped
  have number : register.val = i.bits 19 16 := by
    have small : i.bits 19 16 < 2 ^ (19 - 16 + 1) := bits_lt i 19 16
    rw [← base]
    exact Nat.mod_eq_of_lt (by omega)
  rw [getLsbD_loadMultipleList, number, Bool.and_eq_true] at set
  have both : (i.bit 21 && i.bit (i.bits 19 16)) = true := by
    rw [indexed]
    exact set.2
  show (if (i.bit 21 && i.bit (i.bits 19 16)) = true then
    SafetyLevel.unpredictable else _) = _
  rw [if_pos both]

open RegisterList in
theorem loadsOwnBase_of_both
    {kind : InstClass} {i : Instruction} {register : Register}
    (safe : kind.decoder.safety i = .mayBeSafe)
    (result : (kind.resultDefs i).contains register = true)
    (moved : (kind.decoder.immediateAddressingDefs i).contains register =
      true) :
    kind.LoadsOwnBase i register := by
  have nothing := not_contains_none register
  cases kind with
  | loadImmediate | loadDoubleI =>
      obtain ⟨writes, base, -⟩ := (contains_optionalRegister _ _ _).mp moved
      exact ⟨by simp, writes, base, result⟩
  | loadMultiple =>
      have bad : ClassDecoder.loadMultiple.safety i = .unpredictable :=
        unpredictable_of_popped result moved
      rw [show loadMultiple.decoder = ClassDecoder.loadMultiple from rfl, bad]
        at safe
      cases safe
  | vectorLoad | vectorStore =>
      obtain ⟨stack, -, -⟩ := (contains_optionalRegister _ _ _).mp moved
      have computes : vectorResultDefs i = kRegisterNone.bitmask :=
        if_pos (beq_iff_eq.mp stack)
      exact absurd (computes ▸ result) nothing
  | storeImmediate | loadCoprocessor | storeCoprocessor =>
      exact absurd result nothing
  | _ => exact absurd moved nothing

theorem defs_of_literalPoolHead
    {kind : InstClass} {i : Instruction}
    (head : kind.decoder.isLiteralPoolHead i = true) :
    kind.decoder.defs i = kRegisterNone.bitmask := by
  cases kind with
  | breakpoint => rfl
  | _ => cases head

end InstClass

end NativeClient.ValidatorArm
