import NativeClient.Validator32.SegmentValidator
import NativeClient.Decoder.InstructionKinds

/-!
# The rules for one instruction

`InstAllowed` collects what `ValidateInst` demands of an instruction and of the
one before it.  An instruction that breaks a rule raises the failure flag; one
that keeps them all adds itself and its jump target to the tables and leaves
everything else as it was.
-/

namespace NativeClient.Validator32

open NativeClient.Library
open NativeClient.Decoder

structure SameConfig (before after : NCValidatorState) : Prop where
  cpufeatures : after.cpufeatures = before.cpufeatures
  iadrbase : after.iadrbase = before.iadrbase
  iadrlimit : after.iadrlimit = before.iadrlimit
  alignment : after.alignment = before.alignment
  alignmask : after.alignmask = before.alignmask
  doStubOut : after.doStubOut = before.doStubOut

theorem SameConfig.refl (vstate : NCValidatorState) :
    SameConfig vstate vstate :=
  ⟨rfl, rfl, rfl, rfl, rfl, rfl⟩

theorem SameConfig.trans {first second third : NCValidatorState}
    (left : SameConfig first second) (right : SameConfig second third) :
    SameConfig first third where
  cpufeatures := right.cpufeatures.trans left.cpufeatures
  iadrbase := right.iadrbase.trans left.iadrbase
  iadrlimit := right.iadrlimit.trans left.iadrlimit
  alignment := right.alignment.trans left.alignment
  alignmask := right.alignmask.trans left.alignmask
  doStubOut := right.doStubOut.trans left.doStubOut

def NCValidatorState.Failed (vstate : NCValidatorState) : Prop :=
  vstate.stats.sawfailure = 1

structure Keeps (before after : NCValidatorState) : Prop where
  config : SameConfig before after
  flag : after.Failed ∨ after.stats.sawfailure = before.stats.sawfailure

theorem Keeps.failed {before after : NCValidatorState}
    (keeps : Keeps before after) (failed : before.Failed) : after.Failed :=
  keeps.flag.elim id fun same => same.trans failed

theorem Keeps.refl (vstate : NCValidatorState) : Keeps vstate vstate :=
  ⟨.refl vstate, .inr rfl⟩

theorem Keeps.trans {first second third : NCValidatorState}
    (left : Keeps first second) (right : Keeps second third) :
    Keeps first third := by
  refine ⟨left.config.trans right.config, ?_⟩
  rcases left.flag with failed | same
  · exact .inl (right.failed failed)
  · rw [← same]
    exact right.flag

def Tallies (update : SummaryStats → SummaryStats) : Prop :=
  ∀ stats, (update stats).sawfailure = 1 ∨
    (update stats).sawfailure = stats.sawfailure

def Fails (update : SummaryStats → SummaryStats) : Prop :=
  ∀ stats, (update stats).sawfailure = 1

variable {update : SummaryStats → SummaryStats} {insttype : NaClInstType}
  {target : Nat} {mstate : NCDecoderState} {memory : Buffer}
  {vstate : NCValidatorState} {decodebuffer : DecodeBuffer}
  {validation : Validation}

theorem Fails.tallies
    (fails : Fails update) : Tallies update :=
  fun stats => .inl (fails stats)

theorem fails_statsInternalError : Fails statsInternalError := fun _ => rfl
theorem fails_statsBadAlignment : Fails statsBadAlignment := fun _ => rfl
theorem fails_statsSegFault : Fails statsSegFault := fun _ => rfl
theorem fails_statsBadTarget : Fails statsBadTarget := fun _ => rfl
theorem fails_statsUnsafeIndirect : Fails statsUnsafeIndirect := fun _ => rfl
theorem fails_statsReturn : Fails statsReturn := fun _ => rfl
theorem fails_statsIllegalInst : Fails statsIllegalInst := fun _ => rfl
theorem fails_statsBadPrefix : Fails statsBadPrefix := fun _ => rfl
theorem fails_statsBadInstLength : Fails statsBadInstLength := fun _ => rfl
theorem tallies_statsCheckTarget : Tallies statsCheckTarget :=
  fun _ => .inr rfl

theorem keeps_tally
    (tallies : Tallies update) (vstate : NCValidatorState) :
    Keeps vstate (vstate.tally update) :=
  ⟨⟨rfl, rfl, rfl, rfl, rfl, rfl⟩, tallies vstate.stats⟩

theorem failed_tally
    (fails : Fails update) (vstate : NCValidatorState) :
    (vstate.tally update).Failed :=
  fails vstate.stats

/-! ## What keeps the configuration -/

theorem rememberIP_keeps (ip : Nat) (vstate : NCValidatorState) :
    Keeps vstate (rememberIP ip vstate) := by
  unfold rememberIP
  simp only
  split_ifs
  · exact keeps_tally fails_statsBadTarget.tallies vstate
  · exact keeps_tally fails_statsInternalError.tallies vstate
  · exact ⟨⟨rfl, rfl, rfl, rfl, rfl, rfl⟩, .inr rfl⟩

theorem rememberTP_keeps (target : Nat) (vstate : NCValidatorState) :
    Keeps vstate (rememberTP target vstate) := by
  unfold rememberTP
  split_ifs
  · exact ⟨⟨rfl, rfl, rfl, rfl, rfl, rfl⟩, .inr rfl⟩
  · exact .refl vstate
  · exact keeps_tally fails_statsBadTarget.tallies vstate

theorem forgetIP_keeps (ip : Nat) (vstate : NCValidatorState) :
    Keeps vstate (forgetIP ip vstate) := by
  unfold forgetIP
  split_ifs
  · exact keeps_tally fails_statsBadTarget.tallies vstate
  · exact ⟨⟨rfl, rfl, rfl, rfl, rfl, rfl⟩, .inr rfl⟩

theorem validateCallAlignment_keeps
    (mstate : NCDecoderState) (vstate : NCValidatorState) :
    Keeps vstate (validateCallAlignment mstate vstate) := by
  unfold validateCallAlignment
  simp only
  split_ifs
  · exact keeps_tally fails_statsBadAlignment.tallies vstate
  · exact .refl vstate

theorem validateJmp8_keeps
    (mstate : NCDecoderState) (memory : Buffer) (vstate : NCValidatorState) :
    Keeps vstate (validateJmp8 mstate memory vstate) := by
  have counted := keeps_tally tallies_statsCheckTarget vstate
  unfold validateJmp8
  simp only
  split_ifs
  · exact counted.trans (rememberTP_keeps _ _)
  · exact counted.trans (keeps_tally fails_statsInternalError.tallies _)

theorem validateJmpz_keeps
    (mstate : NCDecoderState) (memory : Buffer) (vstate : NCValidatorState) :
    Keeps vstate (validateJmpz mstate memory vstate) := by
  have counted := keeps_tally tallies_statsCheckTarget vstate
  unfold validateJmpz
  simp only
  split_ifs
  · exact (counted.trans (rememberTP_keeps _ _)).trans
      (validateCallAlignment_keeps _ _)
  · exact counted.trans (rememberTP_keeps _ _)
  · exact counted.trans (rememberTP_keeps _ _)
  · exact counted
  · exact counted.trans (keeps_tally fails_statsInternalError.tallies _)

theorem badInstructionError_vstate
    (mstate : NCDecoderState) (validation : Validation) :
    (badInstructionError mstate validation).vstate = validation.vstate := by
  unfold badInstructionError
  split_ifs <;> rfl

theorem bad_tally_keeps
    (fails : Fails update) (mstate : NCDecoderState)
    (validation : Validation) :
    Keeps validation.vstate
      ((badInstructionError mstate validation).tally update).vstate := by
  unfold Validation.tally
  rw [badInstructionError_vstate]
  exact keeps_tally fails.tallies _

theorem validateIndirect5_keeps
    (decodebuffer : DecodeBuffer) (validation : Validation) :
    Keeps validation.vstate
      (validateIndirect5 decodebuffer validation).vstate := by
  have counted : Keeps validation.vstate
      ((validation.tally statsCheckTarget).tally statsTargetIndirect).vstate :=
    ⟨⟨rfl, rfl, rfl, rfl, rfl, rfl⟩, .inr rfl⟩
  unfold validateIndirect5
  simp only
  split_ifs
  · exact bad_tally_keeps fails_statsUnsafeIndirect _ _
  · exact (counted.trans (forgetIP_keeps _ _)).trans
      (validateCallAlignment_keeps _ _)
  · exact counted.trans (forgetIP_keeps _ _)
  · exact counted.trans (bad_tally_keeps fails_statsUnsafeIndirect _ _)

theorem validateByType_keeps
    (decodebuffer : DecodeBuffer) (validation : Validation) :
    Keeps validation.vstate
      (validateByType decodebuffer validation).1.vstate := by
  unfold validateByType
  simp only
  split
  case h_1 | h_5 | h_6 => exact .refl _
  case h_2 => exact validateJmp8_keeps _ _ _
  case h_3 => exact validateJmpz_keeps _ _ _
  case h_4 => exact validateIndirect5_keeps _ _
  case h_7 =>
    simp only
    split_ifs
    · exact bad_tally_keeps fails_statsBadPrefix _ _
    · exact .refl _
  case h_8 =>
    exact (bad_tally_keeps fails_statsReturn _ _).trans
      (bad_tally_keeps fails_statsIllegalInst _ _)
  case h_9 => exact bad_tally_keeps fails_statsIllegalInst _ _
  case h_10 =>
    exact (bad_tally_keeps fails_statsIllegalInst _ _).trans
      (keeps_tally fails_statsInternalError.tallies _)
  case h_11 => exact bad_tally_keeps fails_statsInternalError _ _

theorem validatePrefixes_keeps
    (mstate : NCDecoderState) (validation : Validation) :
    Keeps validation.vstate (validatePrefixes mstate validation).vstate := by
  unfold validatePrefixes
  split_ifs
  · exact .refl _
  · exact bad_tally_keeps fails_statsBadPrefix _ _

theorem validateLength_keeps
    (mstate : NCDecoderState) (validation : Validation) :
    Keeps validation.vstate (validateLength mstate validation).vstate := by
  unfold validateLength
  split_ifs
  · exact bad_tally_keeps fails_statsBadInstLength _ _
  · exact .refl _

theorem squash_vstate
    (mstate : NCDecoderState) (result : Validation × Bool) :
    (squash mstate result).vstate = result.1.vstate := by
  unfold squash
  split_ifs <;> rfl

theorem validateInst_keeps
    (decodebuffer : DecodeBuffer) (validation : Validation) :
    Keeps validation.vstate (validateInst decodebuffer validation).vstate := by
  have remembered : Keeps validation.vstate
      (rememberInst decodebuffer.mstate validation).vstate :=
    rememberIP_keeps _ _
  unfold validateInst
  simp only [squash_vstate]
  exact remembered.trans <| (validatePrefixes_keeps _ _).trans <|
    (validateLength_keeps _ _).trans (validateByType_keeps _ _)

/-! ## The rules -/

structure Bounds where
  base : Nat
  limit : Nat
  alignmask : Nat

def NCValidatorState.bounds (vstate : NCValidatorState) : Bounds :=
  ⟨vstate.iadrbase, vstate.iadrlimit, vstate.alignmask⟩

def Bounds.Contains (bounds : Bounds) (address : Nat) : Prop :=
  bounds.base ≤ address ∧ address < bounds.limit

instance (bounds : Bounds) (address : Nat) :
    Decidable (bounds.Contains address) :=
  inferInstanceAs (Decidable (_ ∧ _))

def Bounds.Aligned (bounds : Bounds) (address : Nat) : Prop :=
  address &&& bounds.alignmask = 0

def directTarget (mstate : NCDecoderState) (memory : Buffer) : Option Nat :=
  let opcode := mstate.inst.maddr + mstate.inst.prefixbytes
  let target (offset : Int) :=
    wrap32 (mstate.inst.vaddr + mstate.inst.length + offset)
  match mstate.opinfo.insttype with
  | .jmp8 => some (target (signed8 (memory (opcode + 1))))
  | .jmpz =>
      if memory opcode = 0x0f then some (target (signed32 memory (opcode + 2)))
      else some (target (signed32 memory (opcode + 1)))
  | _ => none

def ReturnsToBundle (bounds : Bounds) (mstate : NCDecoderState) : Prop :=
  bounds.Aligned (wrap32 (mstate.inst.vaddr + mstate.inst.length))

def TypeAllowed (bounds : Bounds) (memory : Buffer)
    (andinst mstate : NCDecoderState) : Prop :=
  match treatment mstate.opinfo.insttype with
  | .allowed | .feature _ | .sfenceClflush => True
  | .jmp8 =>
      ∀ target ∈ directTarget mstate memory,
        bounds.Contains target ∨ bounds.Aligned target
  | .jmpz =>
      (∀ target ∈ directTarget mstate memory,
        bounds.Contains target ∨ bounds.Aligned target) ∧
      (memory (mstate.inst.maddr + mstate.inst.prefixbytes) = 0xe8 →
        ReturnsToBundle bounds mstate)
  | .indirect =>
      andinst.inst.length ≠ 0 ∧
        isNaclJmp andinst mstate memory bounds.alignmask ∧
        (modrmReg (memory (mstate.inst.maddr + 1)) = 2 →
          ReturnsToBundle bounds mstate)
  | .sse2x => mstate.inst.prefixmask &&& kPrefixDATA16 ≠ 0
  | .returns | .illegal | .undefined | .unknown => False

structure InstAllowed (bounds : Bounds) (memory : Buffer)
    (andinst mstate : NCDecoderState) : Prop where
  prefixes : prefixAllowed mstate = true
  length : mstate.inst.length - mstate.inst.prefixbytes ≤ kMaxValidInstLength
  type : TypeAllowed bounds memory andinst mstate

structure DirectShape (mstate : NCDecoderState) (memory : Buffer) : Prop where
  jmp8 : mstate.opinfo.insttype = .jmp8 →
    isJmp8Opcode (memory (mstate.inst.maddr + mstate.inst.prefixbytes))
  jmpz : mstate.opinfo.insttype = .jmpz →
    (memory (mstate.inst.maddr + mstate.inst.prefixbytes) = 0xe8 ∨
      memory (mstate.inst.maddr + mstate.inst.prefixbytes) = 0xe9) ∨
    (memory (mstate.inst.maddr + mstate.inst.prefixbytes) = 0x0f ∧
      memory (mstate.inst.maddr + mstate.inst.prefixbytes + 1) &&& 0xf0 = 0x80)

def squashes (cpufeatures : CPUFeatures) (memory : Buffer)
    (mstate : NCDecoderState) : Bool :=
  match treatment mstate.opinfo.insttype with
  | .feature present => !present cpufeatures
  | .sfenceClflush =>
      if modrmMod (memory (mstate.inst.maddr + 2)) = 3 then !cpufeatures.fFXSR
      else !cpufeatures.fCLFLUSH
  | .sse2x => !cpufeatures.fSSE2
  | _ => false

/-- The instruction addresses after an accepted instruction: its own is added,
unless it is the second half of a guarded jump. -/
def startTable (vstate : NCValidatorState) (mstate : NCDecoderState) :
    AddressTable :=
  let offset := mstate.inst.vaddr - vstate.iadrbase
  if mstate.opinfo.insttype = .indirect then
    (vstate.vttable.set offset).clear offset
  else
    vstate.vttable.set offset

def targetTable (vstate : NCValidatorState) (memory : Buffer)
    (mstate : NCDecoderState) : AddressTable :=
  match directTarget mstate memory with
  | some target =>
      if vstate.bounds.Contains target then
        vstate.kttable.set (target - vstate.iadrbase)
      else
        vstate.kttable
  | none => vstate.kttable

theorem treatment_jmp8 :
    treatment insttype = .jmp8 ↔ insttype = .jmp8 := by
  cases insttype <;> simp [treatment]

theorem treatment_jmpz :
    treatment insttype = .jmpz ↔ insttype = .jmpz := by
  cases insttype <;> simp [treatment]

theorem treatment_indirect :
    treatment insttype = .indirect ↔ insttype = .indirect := by
  cases insttype <;> simp [treatment]

/-! ## Jump targets -/

theorem rememberTP_fails
    (vstate : NCValidatorState)
    (outside : ¬ (vstate.bounds.Contains target ∨
      vstate.bounds.Aligned target)) :
    (rememberTP target vstate).Failed := by
  unfold rememberTP
  split_ifs with inside aligned
  · exact (outside (.inl inside)).elim
  · exact (outside (.inr aligned)).elim
  · exact failed_tally fails_statsBadTarget vstate

theorem rememberTP_ok
    (vstate : NCValidatorState)
    (allowed : vstate.bounds.Contains target ∨ vstate.bounds.Aligned target) :
    rememberTP target vstate =
      { vstate with
        kttable :=
          if vstate.bounds.Contains target then
            vstate.kttable.set (target - vstate.iadrbase)
          else
            vstate.kttable } := by
  by_cases inside : vstate.bounds.Contains target
  · simp only [if_pos inside]
    exact if_pos inside
  · simp only [if_neg inside]
    exact (if_neg inside).trans (if_pos (allowed.resolve_left inside))

theorem validateCallAlignment_fails
    (vstate : NCValidatorState)
    (misaligned : ¬ ReturnsToBundle vstate.bounds mstate) :
    (validateCallAlignment mstate vstate).Failed := by
  unfold validateCallAlignment
  simp only
  split_ifs with aligned
  · exact failed_tally fails_statsBadAlignment vstate
  · exact (misaligned (not_not.mp aligned)).elim

theorem validateCallAlignment_ok
    (vstate : NCValidatorState)
    (aligned : ReturnsToBundle vstate.bounds mstate) :
    validateCallAlignment mstate vstate = vstate := by
  unfold validateCallAlignment
  simp only
  exact if_neg (not_not.mpr aligned)

theorem validateJmp8_eq
    (kind : mstate.opinfo.insttype = .jmp8)
    (shape : DirectShape mstate memory) (vstate : NCValidatorState) :
    ∃ target, directTarget mstate memory = some target ∧
      validateJmp8 mstate memory vstate =
        rememberTP target (vstate.tally statsCheckTarget) := by
  refine ⟨wrap32 (mstate.inst.vaddr + mstate.inst.length + signed8
    (memory (mstate.inst.maddr + mstate.inst.prefixbytes + 1))), ?_, ?_⟩
  · simp only [directTarget, kind]
  · simp only [validateJmp8]
    rw [if_pos (shape.jmp8 kind)]

theorem validateJmpz_eq
    (kind : mstate.opinfo.insttype = .jmpz)
    (shape : DirectShape mstate memory) (vstate : NCValidatorState) :
    ∃ target, directTarget mstate memory = some target ∧
      validateJmpz mstate memory vstate =
        if memory (mstate.inst.maddr + mstate.inst.prefixbytes) = 0xe8 then
          validateCallAlignment mstate
            (rememberTP target (vstate.tally statsCheckTarget))
        else
          rememberTP target (vstate.tally statsCheckTarget) := by
  rcases shape.jmpz kind with call | ⟨escape, condition⟩
  · have notEscape :
        memory (mstate.inst.maddr + mstate.inst.prefixbytes) ≠ 0x0f := by
      rcases call with same | same <;> rw [same] <;> decide
    refine ⟨wrap32 (mstate.inst.vaddr + mstate.inst.length + signed32 memory
      (mstate.inst.maddr + mstate.inst.prefixbytes + 1)), ?_, ?_⟩
    · simp only [directTarget, kind, notEscape, if_false]
    · simp only [validateJmpz]
      rw [if_pos call]
  · have notCall : ¬ (memory (mstate.inst.maddr + mstate.inst.prefixbytes) =
          0xe8 ∨
        memory (mstate.inst.maddr + mstate.inst.prefixbytes) = 0xe9) := by
      rw [escape]
      decide
    refine ⟨wrap32 (mstate.inst.vaddr + mstate.inst.length + signed32 memory
      (mstate.inst.maddr + mstate.inst.prefixbytes + 2)), ?_, ?_⟩
    · simp only [directTarget, kind, escape, if_true]
    · simp only [validateJmpz]
      rw [if_neg notCall, if_pos escape, if_pos condition,
        if_neg (fun call => notCall (.inl call))]

/-! ## The switch -/

theorem SameConfig.bounds {before after : NCValidatorState}
    (same : SameConfig before after) : after.bounds = before.bounds := by
  simp only [NCValidatorState.bounds, same.iadrbase, same.iadrlimit,
    same.alignmask]

private theorem jmpz_fails
    (kind : mstate.opinfo.insttype = .jmpz)
    (shape : DirectShape mstate memory)
    (forbidden : ¬ ((∀ target ∈ directTarget mstate memory,
        vstate.bounds.Contains target ∨ vstate.bounds.Aligned target) ∧
      (memory (mstate.inst.maddr + mstate.inst.prefixbytes) = 0xe8 →
        ReturnsToBundle vstate.bounds mstate))) :
    (validateJmpz mstate memory vstate).Failed := by
  obtain ⟨target, named, result⟩ := validateJmpz_eq kind shape vstate
  simp only [named, Option.mem_some_iff, forall_eq'] at forbidden
  rw [not_and_or, Classical.not_imp] at forbidden
  rw [result]
  rcases forbidden with outside | ⟨call, misaligned⟩
  · have failed := rememberTP_fails (vstate.tally statsCheckTarget) outside
    split_ifs
    · exact (validateCallAlignment_keeps _ _).failed failed
    · exact failed
  · rw [if_pos call]
    apply validateCallAlignment_fails
    rw [(rememberTP_keeps _ _).config.bounds]
    exact misaligned

private theorem indirect_fails
    (forbidden : ¬ ((previousInst decodebuffer (-1)).inst.length ≠ 0 ∧
      isNaclJmp (previousInst decodebuffer (-1)) decodebuffer.mstate
        validation.memory validation.vstate.bounds.alignmask ∧
      (modrmReg (validation.memory (decodebuffer.mstate.inst.maddr + 1)) = 2 →
        ReturnsToBundle validation.vstate.bounds decodebuffer.mstate))) :
    (validateIndirect5 decodebuffer validation).vstate.Failed := by
  unfold validateIndirect5
  simp only
  split_ifs with none naclJmp call
  · exact failed_tally fails_statsUnsafeIndirect _
  · apply validateCallAlignment_fails
    rw [(forgetIP_keeps _ _).config.bounds]
    intro aligned
    exact forbidden ⟨none, naclJmp, fun _ => aligned⟩
  · exact (forbidden ⟨none, naclJmp, fun isCall => (call isCall).elim⟩).elim
  · exact failed_tally fails_statsUnsafeIndirect _

theorem validateByType_fails
    (shape : DirectShape decodebuffer.mstate validation.memory)
    (forbidden : ¬ TypeAllowed validation.vstate.bounds validation.memory
      (previousInst decodebuffer (-1)) decodebuffer.mstate) :
    (validateByType decodebuffer validation).1.vstate.Failed := by
  unfold TypeAllowed at forbidden
  unfold validateByType
  simp only
  cases kind : treatment decodebuffer.mstate.opinfo.insttype with
  | allowed => simp [kind] at forbidden
  | feature => simp [kind] at forbidden
  | sfenceClflush => simp [kind] at forbidden
  | jmp8 =>
      obtain ⟨target, named, result⟩ := validateJmp8_eq
        (treatment_jmp8.mp kind) shape validation.vstate
      simp only [kind, named, Option.mem_some_iff, forall_eq'] at forbidden
      simp only [result]
      exact rememberTP_fails (validation.vstate.tally _) forbidden
  | jmpz =>
      simp only [kind] at forbidden
      exact jmpz_fails (treatment_jmpz.mp kind) shape forbidden
  | indirect =>
      simp only [kind] at forbidden
      exact indirect_fails forbidden
  | sse2x =>
      simp only [kind, ne_eq, not_not] at forbidden
      simp only [forbidden, if_true]
      exact failed_tally fails_statsBadPrefix _
  | returns => exact failed_tally fails_statsIllegalInst _
  | illegal => exact failed_tally fails_statsIllegalInst _
  | undefined => exact failed_tally fails_statsInternalError _
  | unknown => exact failed_tally fails_statsInternalError _

structure Records (before after : Validation) (mstate : NCDecoderState) :
    Prop where
  config : SameConfig before.vstate after.vstate
  sawfailure :
    after.vstate.stats.sawfailure = before.vstate.stats.sawfailure
  starts : after.vstate.vttable = startTable before.vstate mstate
  targets :
    after.vstate.kttable = targetTable before.vstate before.memory mstate
  memory : after.memory =
    if squashes before.vstate.cpufeatures before.memory mstate then
      before.memory.fill mstate.inst.maddr mstate.inst.length kNaClFullStop
    else
      before.memory

private structure RecordsType (before : Validation)
    (after : Validation × Bool) (mstate : NCDecoderState) : Prop where
  config : SameConfig before.vstate after.1.vstate
  sawfailure :
    after.1.vstate.stats.sawfailure = before.vstate.stats.sawfailure
  starts : after.1.vstate.vttable =
    if mstate.opinfo.insttype = .indirect then
      before.vstate.vttable.clear (mstate.inst.vaddr - before.vstate.iadrbase)
    else
      before.vstate.vttable
  targets :
    after.1.vstate.kttable = targetTable before.vstate before.memory mstate
  memory : after.1.memory = before.memory
  squash : after.2 = squashes before.vstate.cpufeatures before.memory mstate

theorem directTarget_eq_none
    (mstate : NCDecoderState) (memory : Buffer)
    (notJmp8 : mstate.opinfo.insttype ≠ .jmp8)
    (notJmpz : mstate.opinfo.insttype ≠ .jmpz) :
    directTarget mstate memory = none := by
  unfold directTarget
  split
  · exact (notJmp8 ‹_›).elim
  · exact (notJmpz ‹_›).elim
  · rfl

private theorem RecordsType.of_passive
    (validation : Validation) (mstate : NCDecoderState)
    (notJmp8 : treatment mstate.opinfo.insttype ≠ .jmp8)
    (notJmpz : treatment mstate.opinfo.insttype ≠ .jmpz)
    (notIndirect : treatment mstate.opinfo.insttype ≠ .indirect) :
    RecordsType validation
      (validation,
        squashes validation.vstate.cpufeatures validation.memory mstate)
      mstate := by
  rw [Ne, treatment_jmp8] at notJmp8
  rw [Ne, treatment_jmpz] at notJmpz
  rw [Ne, treatment_indirect] at notIndirect
  refine ⟨.refl _, rfl, by simp only [if_neg notIndirect], ?_, rfl, rfl⟩
  simp only [targetTable, directTarget_eq_none _ _ notJmp8 notJmpz]

private theorem rememberTP_records
    (named : directTarget mstate memory = some target)
    (vstate : NCValidatorState)
    (allowed : vstate.bounds.Contains target ∨ vstate.bounds.Aligned target) :
    (rememberTP target (vstate.tally statsCheckTarget)).stats.sawfailure =
        vstate.stats.sawfailure ∧
      (rememberTP target (vstate.tally statsCheckTarget)).vttable =
        vstate.vttable ∧
      (rememberTP target (vstate.tally statsCheckTarget)).kttable =
        targetTable vstate memory mstate := by
  rw [rememberTP_ok (vstate.tally statsCheckTarget) allowed]
  refine ⟨rfl, rfl, ?_⟩
  simp only [targetTable, named]
  rfl

private theorem jmpz_records
    (kind : mstate.opinfo.insttype = .jmpz)
    (shape : DirectShape mstate memory)
    (allowed : (∀ target ∈ directTarget mstate memory,
        vstate.bounds.Contains target ∨ vstate.bounds.Aligned target) ∧
      (memory (mstate.inst.maddr + mstate.inst.prefixbytes) = 0xe8 →
        ReturnsToBundle vstate.bounds mstate)) :
    (validateJmpz mstate memory vstate).stats.sawfailure =
        vstate.stats.sawfailure ∧
      (validateJmpz mstate memory vstate).vttable = vstate.vttable ∧
      (validateJmpz mstate memory vstate).kttable =
        targetTable vstate memory mstate := by
  obtain ⟨target, named, result⟩ := validateJmpz_eq kind shape vstate
  simp only [named, Option.mem_some_iff, forall_eq'] at allowed
  have recorded := rememberTP_records named vstate allowed.1
  rw [result]
  split_ifs with call
  · rw [validateCallAlignment_ok]
    · exact recorded
    · rw [(rememberTP_keeps _ _).config.bounds]
      exact allowed.2 call
  · exact recorded

private theorem indirect_records
    (inside :
      validation.vstate.bounds.Contains decodebuffer.mstate.inst.vaddr)
    (allowed : (previousInst decodebuffer (-1)).inst.length ≠ 0 ∧
      isNaclJmp (previousInst decodebuffer (-1)) decodebuffer.mstate
        validation.memory validation.vstate.bounds.alignmask ∧
      (modrmReg (validation.memory (decodebuffer.mstate.inst.maddr + 1)) = 2 →
        ReturnsToBundle validation.vstate.bounds decodebuffer.mstate)) :
    validateIndirect5 decodebuffer validation =
      { validation with
        vstate :=
          { (validation.vstate.tally statsCheckTarget).tally
              statsTargetIndirect with
            vttable := validation.vstate.vttable.clear
              (decodebuffer.mstate.inst.vaddr -
                validation.vstate.iadrbase) } } := by
  obtain ⟨preceded, naclJmp, aligned⟩ := allowed
  have forgotten : forgetIP decodebuffer.mstate.inst.vaddr
      ((validation.tally statsCheckTarget).tally statsTargetIndirect).vstate =
      { (validation.vstate.tally statsCheckTarget).tally
          statsTargetIndirect with
        vttable := validation.vstate.vttable.clear
          (decodebuffer.mstate.inst.vaddr -
            validation.vstate.iadrbase) } := by
    apply if_neg
    exact not_or.mpr ⟨Nat.not_lt.mpr inside.1, Nat.not_le.mpr inside.2⟩
  unfold validateIndirect5
  simp only
  rw [if_neg preceded, if_pos (by exact naclJmp), forgotten]
  split_ifs with call
  · rw [validateCallAlignment_ok]
    · rfl
    · exact aligned call
  · rfl

private theorem validateByType_records
    (shape : DirectShape decodebuffer.mstate validation.memory)
    (inside :
      validation.vstate.bounds.Contains decodebuffer.mstate.inst.vaddr)
    (allowed : TypeAllowed validation.vstate.bounds validation.memory
      (previousInst decodebuffer (-1)) decodebuffer.mstate) :
    RecordsType validation (validateByType decodebuffer validation)
      decodebuffer.mstate := by
  have config := (validateByType_keeps decodebuffer validation).config
  unfold TypeAllowed at allowed
  cases kind : treatment decodebuffer.mstate.opinfo.insttype with
  | allowed =>
      have passive := RecordsType.of_passive validation
        decodebuffer.mstate (by simp [kind]) (by simp [kind]) (by simp [kind])
      simpa only [validateByType, squashes, kind] using passive
  | feature present =>
      have passive := RecordsType.of_passive validation
        decodebuffer.mstate (by simp [kind]) (by simp [kind]) (by simp [kind])
      simpa only [validateByType, squashes, kind] using passive
  | sfenceClflush =>
      have passive := RecordsType.of_passive validation
        decodebuffer.mstate (by simp [kind]) (by simp [kind]) (by simp [kind])
      simpa only [validateByType, squashes, kind, sFenceClFlushImplemented,
        apply_ite not] using passive
  | sse2x =>
      have passive := RecordsType.of_passive validation
        decodebuffer.mstate (by simp [kind]) (by simp [kind]) (by simp [kind])
      simp only [kind, ne_eq] at allowed
      simpa only [validateByType, squashes, kind, if_neg allowed] using passive
  | jmp8 =>
      have named := treatment_jmp8.mp kind
      obtain ⟨target, found, result⟩ :=
        validateJmp8_eq named shape validation.vstate
      simp only [kind, found, Option.mem_some_iff, forall_eq'] at allowed
      obtain ⟨failure, starts, targets⟩ :=
        rememberTP_records found validation.vstate allowed
      simp only [validateByType, kind, result] at config ⊢
      exact ⟨config, failure, by simp [starts, named], targets, rfl,
        by simp [squashes, kind]⟩
  | jmpz =>
      have named := treatment_jmpz.mp kind
      simp only [kind] at allowed
      obtain ⟨failure, starts, targets⟩ := jmpz_records named shape allowed
      simp only [validateByType, kind] at config ⊢
      exact ⟨config, failure, by simp [starts, named], targets, rfl,
        by simp [squashes, kind]⟩
  | indirect =>
      have named := treatment_indirect.mp kind
      simp only [kind] at allowed
      have result := indirect_records inside allowed
      simp only [validateByType, kind, result] at config ⊢
      refine ⟨config, rfl, by simp [named], ?_, rfl, by simp [squashes, kind]⟩
      simp only [targetTable,
        directTarget_eq_none decodebuffer.mstate validation.memory
          (by simp [named]) (by simp [named])]
      rfl
  | returns => simp [kind] at allowed
  | illegal => simp [kind] at allowed
  | undefined => simp [kind] at allowed
  | unknown => simp [kind] at allowed

/-! ## The instruction as a whole -/

private theorem rememberIP_ok
    {ip : Nat}
    (inside : vstate.bounds.Contains ip)
    (fresh : vstate.vttable.get (ip - vstate.iadrbase) = false) :
    rememberIP ip vstate =
      { vstate.tally statsInst with
        vttable := vstate.vttable.set (ip - vstate.iadrbase) } := by
  unfold rememberIP
  simp only
  split_ifs with outside twice
  · rcases outside with below | above
    · exact (Nat.not_lt.mpr inside.1 below).elim
    · exact (Nat.not_le.mpr inside.2 above).elim
  · simp [fresh] at twice
  · rfl

private theorem rememberIP_fails
    {ip : Nat}
    (seen : ¬ (vstate.bounds.Contains ip ∧
      vstate.vttable.get (ip - vstate.iadrbase) = false)) :
    (rememberIP ip vstate).Failed := by
  unfold rememberIP
  simp only
  split_ifs with outside twice
  · exact failed_tally fails_statsBadTarget vstate
  · exact failed_tally fails_statsInternalError vstate
  · rw [not_or, Nat.not_lt, ge_iff_le, Nat.not_le] at outside
    exact (seen ⟨outside, by simpa using twice⟩).elim

theorem validateInst_fails_of_seen
    (seen : ¬ (validation.vstate.bounds.Contains
        decodebuffer.mstate.inst.vaddr ∧
      validation.vstate.vttable.get (decodebuffer.mstate.inst.vaddr -
        validation.vstate.iadrbase) = false)) :
    (validateInst decodebuffer validation).vstate.Failed := by
  have failed : (rememberInst decodebuffer.mstate validation).vstate.Failed :=
    rememberIP_fails seen
  unfold validateInst
  simp only [squash_vstate]
  exact (validateByType_keeps _ _).failed ((validateLength_keeps _ _).failed
    ((validatePrefixes_keeps _ _).failed failed))

theorem validateInst_fails_of_forbidden
    (shape : DirectShape decodebuffer.mstate validation.memory)
    (forbidden : ¬ InstAllowed validation.vstate.bounds validation.memory
      (previousInst decodebuffer (-1)) decodebuffer.mstate) :
    (validateInst decodebuffer validation).vstate.Failed := by
  let mstate := decodebuffer.mstate
  let first := rememberInst mstate validation
  let second := validatePrefixes mstate first
  let third := validateLength mstate second
  have firstKeeps : Keeps validation.vstate first.vstate :=
    rememberIP_keeps _ _
  have thirdKeeps : Keeps second.vstate third.vstate := validateLength_keeps _ _
  have lastKeeps := validateByType_keeps decodebuffer third
  unfold validateInst
  simp only [squash_vstate]
  by_cases prefixes : prefixAllowed mstate = true
  · by_cases long :
      mstate.inst.length - mstate.inst.prefixbytes > kMaxValidInstLength
    · have failed : third.vstate.Failed := by
        change (validateLength mstate second).vstate.Failed
        rw [validateLength, if_pos long]
        exact failed_tally fails_statsBadInstLength _
      exact lastKeeps.failed failed
    · -- Neither earlier check touched the text, so the switch sees it as it
      -- was.
      have secondSame : second = first := if_pos prefixes
      have thirdSame : third = first := (if_neg long).trans secondSame
      have bounds := firstKeeps.config.bounds
      change (validateByType decodebuffer third).1.vstate.Failed
      rw [thirdSame]
      refine validateByType_fails shape ?_
      rw [bounds]
      exact fun type => forbidden ⟨prefixes, Nat.not_lt.mp long, type⟩
  · have failed : second.vstate.Failed := by
      change (validatePrefixes mstate first).vstate.Failed
      rw [validatePrefixes, if_neg prefixes]
      exact failed_tally fails_statsBadPrefix _
    exact lastKeeps.failed (thirdKeeps.failed failed)

theorem validateInst_records
    (decodebuffer : DecodeBuffer) (validation : Validation)
    (shape : DirectShape decodebuffer.mstate validation.memory)
    (inside :
      validation.vstate.bounds.Contains decodebuffer.mstate.inst.vaddr)
    (fresh : validation.vstate.vttable.get (decodebuffer.mstate.inst.vaddr -
      validation.vstate.iadrbase) = false)
    (allowed : InstAllowed validation.vstate.bounds validation.memory
      (previousInst decodebuffer (-1)) decodebuffer.mstate) :
    Records validation (validateInst decodebuffer validation)
      decodebuffer.mstate := by
  let mstate := decodebuffer.mstate
  let first : Validation :=
    { validation with
      vstate :=
        { validation.vstate.tally statsInst with
          vttable := validation.vstate.vttable.set
            (mstate.inst.vaddr - validation.vstate.iadrbase) } }
  have config : SameConfig validation.vstate first.vstate :=
    ⟨rfl, rfl, rfl, rfl, rfl, rfl⟩
  have remembered : rememberInst mstate validation = first := by
    unfold rememberInst
    rw [rememberIP_ok inside fresh]
  have prefixed : validatePrefixes mstate first = first :=
    if_pos allowed.prefixes
  have measured : validateLength mstate first = first :=
    if_neg (Nat.not_lt.mpr allowed.length)
  have typed : RecordsType first (validateByType decodebuffer first) mstate :=
    validateByType_records shape inside allowed.type
  have result : validateInst decodebuffer validation =
      squash mstate (validateByType decodebuffer first) := by
    unfold validateInst
    simp only
    rw [remembered, prefixed, measured]
  rw [result]
  refine ⟨?_, ?_, ?_, ?_, ?_⟩
  · rw [squash_vstate]
    exact config.trans typed.config
  · rw [squash_vstate]
    exact typed.sawfailure
  · rw [squash_vstate, typed.starts]
    rfl
  · rw [squash_vstate, typed.targets]
    rfl
  · unfold squash
    rw [typed.memory, typed.squash, apply_ite Validation.memory, typed.memory]
    rfl

end NativeClient.Validator32
