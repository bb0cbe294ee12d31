import NativeClient.ValidatorArm.RegisterDefs
import NativeClient.ValidatorArm.StructuralSafety

/-!
# The discipline of the stack pointer

A data-address register is to hold an address of the data region at all times.
An instruction that loads or computes it must clear the mask, or be followed
by one that does.  The validator looks at such an instruction when it gets to
the next one, so the last of a segment is never looked at; and it exempts an
update by writeback by comparing sets of registers, so a load into its own
base is exempted together with the writeback.
-/

namespace NativeClient.ValidatorArm

open NativeClient.Library

def SfiValidator.classified (sfi : SfiValidator)
    (classOf : Instruction → InstClass) : SfiValidator :=
  { sfi with decode := fun i => (classOf i).decoder }

section

variable (sfi : SfiValidator) (classOf : Instruction → InstClass)
  (segments : List CodeSegment)

def Computes (inst : DecodedInstruction) (register : Register) : Prop :=
  ((classOf inst.inst).resultDefs inst.inst).contains register = true

instance (inst : DecodedInstruction) (register : Register) :
    Decidable (Computes classOf inst register) :=
  inferInstanceAs (Decidable (_ = true))

/-- The next instruction, in the same bundle and under the same condition,
masks the register, and no direct branch goes there. -/
def FollowedByMask (inst : DecodedInstruction) (register : Register) : Prop :=
  ∃ mask, (∃ segment ∈ segments, IsInstruction sfi segment mask) ∧
    inst.addr + 4 = mask.addr ∧
    sfi.sameBundle inst.addr mask.addr = true ∧
    mask.defines register = true ∧
    mask.clearsBits sfi.dataAddressMask = true ∧
    mask.alwaysFollows inst = true ∧
    NotTargeted sfi segments mask.addr

def StackDisciplined : Prop :=
  ∀ segment ∈ segments, ∀ inst, IsInstruction sfi segment inst →
    ∀ register, sfi.isDataAddressRegister register = true →
    inst.defines register = true →
    inst.clearsBits sfi.dataAddressMask = true ∨
      ¬ Computes classOf inst register ∨
      FollowedByMask sfi segments inst register

structure MissedUpdatesMasked : Prop where
  /-- The last instruction of a segment. -/
  trailing : ∀ segment ∈ segments, ∀ inst, IsInstruction sfi segment inst →
    inst.addr + 4 = segment.endAddr →
    ∀ register, sfi.isDataAddressRegister register = true →
    Computes classOf inst register →
    inst.clearsBits sfi.dataAddressMask = false →
    FollowedByMask sfi segments inst register
  /-- A load into its own base. -/
  ownBase : ∀ segment ∈ segments, ∀ inst, IsInstruction sfi segment inst →
    ∀ register, sfi.isDataAddressRegister register = true →
    (classOf inst.inst).LoadsOwnBase inst.inst register →
    FollowedByMask sfi segments inst register
  /-- A branch that is out of sight, or goes out of the range of the sets. -/
  unseen : ∀ segment ∈ segments, ∀ inst mask,
    Precedes sfi segment inst mask →
    checkDataRegisterUpdate sfi inst mask = .patternSafe →
    ∀ branch, DirectBranch sfi segments branch →
    ¬ (InSight segments branch ∧ Covered segments mask.addr) →
    ¬ (mask.addr ≤ branch.branchTarget ∧
      branch.branchTarget < mask.addr + 4)

end

section

variable {sfi : SfiValidator} {segment : CodeSegment}

theorem exists_next_instruction
    {inst : DecodedInstruction} (instruction : IsInstruction sfi segment inst)
    (noPool : ¬ (inst.isLiteralPoolHead = true ∧
      sfi.isBundleHead inst.addr = true))
    (more : inst.addr + 4 ≠ segment.endAddr) :
    ∃ next, IsInstruction sfi segment next ∧ inst.addr + 4 = next.addr := by
  obtain ⟨aligned, found⟩ := instruction.word
  obtain ⟨above, -, upper⟩ := CodeSegment.wordAt_lt found
  have inside := upper aligned
  have startAligned := segment.aligned
  unfold CodeSegment.endAddr at more inside
  obtain ⟨word, hasWord⟩ := @CodeSegment.exists_word segment (inst.addr + 4)
    (by omega) (by omega) (by unfold CodeSegment.endAddr; omega)
  refine ⟨sfi.decoded (inst.addr + 4) word, ⟨hasWord, rfl, ?_⟩, rfl⟩
  apply notPooled_next instruction.word instruction.notPooled
  rw [← instruction.decoder]
  exact noPool

theorem PredOf.eq_of_next
    {inst next pred : DecodedInstruction}
    (predOf : PredOf sfi segment next.addr pred)
    (instruction : IsInstruction sfi segment inst)
    (follows : inst.addr + 4 = next.addr)
    (noPool : ¬ inst.isLiteralPoolHead = true) : pred = inst := by
  cases predOf with
  | first start =>
      have above := (CodeSegment.wordAt_lt instruction.word.2).1
      omega
  | adjacent before sameNext =>
      exact before.unique instruction (by omega)
  | afterPool head reached apart =>
      have headAddr := (sfi.isBundleHead_iff _).mp head.bundleHead
      have positive := sfi.bundle_positive
      obtain ⟨headAligned, headFound⟩ := head.instruction.word
      have aligned := instruction.word.1
      have small : pred.addr < 2 ^ 32 :=
        Nat.lt_trans ((CodeSegment.wordAt_lt headFound).2.2 headAligned)
          segment.fits
      have room := bundle_add_le headAddr small
      have behind : next.addr = pred.addr + sfi.bytesPerBundle := by
        unfold wrap32 at reached
        simp only [Nat.reducePow] at *
        omega
      have base : sfi.bundleBase inst.addr = pred.addr :=
        (sfi.bundleBase_eq_iff inst.addr pred.addr).mpr
          ⟨headAddr, by omega, by omega⟩
      by_cases self : inst.addr = pred.addr
      · have same := instruction.unique head.instruction self
        rw [same] at noPool
        exact absurd head.literalPoolHead noPool
      · apply absurd _ instruction.notPooled
        refine ⟨by omega, pred.inst, ?_, ?_⟩
        · rw [base]
          exact head.instruction.word
        · rw [← head.instruction.decoder]
          exact head.literalPoolHead

end

private theorem checkDataRegisterUpdate_safe
    {sfi : SfiValidator} {inst mask : DecodedInstruction}
    (safe : checkDataRegisterUpdate sfi inst mask = .patternSafe) :
    inst.clearsBits sfi.dataAddressMask = false ∧
      inst.immediateAddressingDefs.inter sfi.dataAddressRegisters ≠
        inst.defs.inter sfi.dataAddressRegisters ∧
      mask.definesAll (inst.defs.inter sfi.dataAddressRegisters) = true ∧
      mask.clearsBits sfi.dataAddressMask = true ∧
      mask.alwaysFollows inst = true := by
  unfold checkDataRegisterUpdate at safe
  split at safe
  next => cases safe
  next =>
    split at safe
    next => cases safe
    next notCleared =>
      simp only at safe
      split at safe
      next => cases safe
      next notExempt =>
        split at safe
        next masked =>
          simp only [Bool.and_eq_true] at masked
          exact ⟨by simpa using notCleared, notExempt, masked.1.1, masked.1.2,
            masked.2⟩
        next => cases safe

private theorem checkDataRegisterUpdate_noMatch
    {sfi : SfiValidator} {inst mask : DecodedInstruction}
    (noMatch : checkDataRegisterUpdate sfi inst mask = .noMatch) :
    inst.definesAny sfi.dataAddressRegisters = false ∨
      inst.clearsBits sfi.dataAddressMask = true ∨
      inst.immediateAddressingDefs.inter sfi.dataAddressRegisters =
        inst.defs.inter sfi.dataAddressRegisters := by
  unfold checkDataRegisterUpdate at noMatch
  split at noMatch
  next nothing =>
    left
    simpa using nothing
  next =>
    split at noMatch
    next cleared => exact .inr (.inl cleared)
    next =>
      simp only at noMatch
      split at noMatch
      next exempt => exact .inr (.inr exempt)
      next =>
        split at noMatch
        next => cases noMatch
        next => cases noMatch

theorem SfiValidator.ne_none_of_isDataAddressRegister
    {sfi : SfiValidator} {register : Register}
    (data : sfi.isDataAddressRegister register = true) :
    register ≠ kRegisterNone :=
  ((RegisterList.contains_iff _ _).mp data).1

section

variable {sfi : SfiValidator} {classOf : Instruction → InstClass}
  {segment : CodeSegment} {segments : List CodeSegment}
  {inst : DecodedInstruction} {register : Register}

private theorem defs_contains
    (decodes : inst.decoder = (classOf inst.inst).decoder)
    (computes : Computes classOf inst register) :
    inst.defs.contains register = true := by
  unfold DecodedInstruction.defs
  rw [decodes, InstClass.defs_eq, RegisterList.contains_union]
  exact .inl computes

private theorem exists_computes
    (decodes : inst.decoder = (classOf inst.inst).decoder)
    {mask : DecodedInstruction}
    (safe : checkDataRegisterUpdate sfi inst mask = .patternSafe) :
    ∃ register, sfi.isDataAddressRegister register = true ∧
      Computes classOf inst register := by
  obtain ⟨-, notExempt, -⟩ := checkDataRegisterUpdate_safe safe
  unfold DecodedInstruction.immediateAddressingDefs
    DecodedInstruction.defs at notExempt
  rw [decodes, InstClass.defs_eq] at notExempt
  exact RegisterList.exists_contains (InstClass.resultDefs_named _ _) notExempt

private theorem StackDisciplined.missedUpdatesMasked
    (decodes : ∀ i, sfi.decode i = (classOf i).decoder)
    (disciplined : StackDisciplined sfi classOf segments) :
    MissedUpdatesMasked sfi classOf segments := by
  have masked : ∀ segment ∈ segments, ∀ inst,
      IsInstruction sfi segment inst →
      ∀ register, sfi.isDataAddressRegister register = true →
      Computes classOf inst register →
      inst.clearsBits sfi.dataAddressMask = false →
      FollowedByMask sfi segments inst register := by
    intro segment member inst instruction register data computes exposed
    have named := sfi.ne_none_of_isDataAddressRegister data
    have decoder := instruction.decoder.trans (decodes inst.inst)
    have defines : inst.defines register = true :=
      (RegisterList.containsAll_bitmask named).mpr
        (defs_contains decoder computes)
    rcases disciplined segment member inst instruction register data defines
      with cleared | writeback | followed
    · rw [exposed] at cleared
      cases cleared
    · exact absurd computes writeback
    · exact followed
  refine ⟨?_, ?_, ?_⟩
  · intro segment member inst instruction _ register data computes exposed
    exact masked segment member inst instruction register data computes exposed
  · intro segment member inst instruction register data own
    apply masked segment member inst instruction register data own.2.2.2
    have decoder := instruction.decoder.trans (decodes inst.inst)
    unfold DecodedInstruction.clearsBits
    rcases own.1 with single | double
    · rw [decoder, single]
      rfl
    · rw [decoder, double]
      rfl
  · intro segment member inst mask precedes safe branch direct _
    have decoder := precedes.before.decoder.trans (decodes inst.inst)
    obtain ⟨register, data, computes⟩ := exists_computes decoder safe
    obtain ⟨other, -, next, -, -, -, -, notTargeted⟩ :=
      masked segment member inst precedes.before register data computes
        (checkDataRegisterUpdate_safe safe).1
    have same : other.addr = mask.addr := next.symm.trans precedes.next
    rw [← same]
    exact notTargeted branch direct

variable {first last : CodeSegment} {branches critical : AddressSet}

private theorem Accepted.followedByMask_of_safe
    (facts : Accepted sfi segments first last branches critical)
    (missed : MissedUpdatesMasked sfi classOf segments)
    (member : segment ∈ segments) {mask : DecodedInstruction}
    (precedes : Precedes sfi segment inst mask)
    (safe : checkDataRegisterUpdate sfi inst mask = .patternSafe)
    (recorded : Recorded critical mask.addr)
    (data : sfi.isDataAddressRegister register = true)
    (changes : inst.defs.contains register = true) :
    FollowedByMask sfi segments inst register := by
  obtain ⟨-, -, all, clears, follows⟩ := checkDataRegisterUpdate_safe safe
  have named := sfi.ne_none_of_isDataAddressRegister data
  refine ⟨mask, ⟨segment, member, precedes.after⟩, precedes.next,
    precedes.sameBundle, ?_, clears, follows, ?_⟩
  · apply (RegisterList.containsAll_bitmask named).mpr
    exact RegisterList.contains_of_containsAll all
      ((RegisterList.contains_inter _ _ _).mpr ⟨changes, data⟩)
  · intro branch direct
    by_cases seen : InSight segments branch ∧ Covered segments mask.addr
    · obtain ⟨sight, first', last', head, tail, inside⟩ := seen
      rw [facts.head, Option.some.injEq] at head
      rw [facts.tail, Option.some.injEq] at tail
      subst head tail
      exact facts.not_target member precedes.after.word inside recorded direct
        sight
    · exact missed.unseen segment member inst mask precedes safe branch direct
        seen

private theorem Accepted.followedByMask
    (facts : Accepted sfi segments first last branches critical)
    (decodes : ∀ i, sfi.decode i = (classOf i).decoder)
    (missed : MissedUpdatesMasked sfi classOf segments)
    (member : segment ∈ segments)
    (instruction : IsInstruction sfi segment inst)
    (data : sfi.isDataAddressRegister register = true)
    (computes : Computes classOf inst register)
    (exposed : inst.clearsBits sfi.dataAddressMask = false)
    (more : inst.addr + 4 ≠ segment.endAddr) :
    FollowedByMask sfi segments inst register := by
  have decoder := instruction.decoder.trans (decodes inst.inst)
  have changes := defs_contains decoder computes
  have noPool : ¬ inst.isLiteralPoolHead = true := by
    intro head
    unfold DecodedInstruction.isLiteralPoolHead at head
    unfold DecodedInstruction.defs at changes
    rw [decoder] at head changes
    rw [InstClass.defs_of_literalPoolHead head] at changes
    exact RegisterList.not_contains_none register changes
  obtain ⟨next, nextInstruction, follows⟩ :=
    exists_next_instruction instruction (fun pool => noPool pool.1) more
  obtain ⟨pred, predOf, allowed⟩ :=
    (facts.checked segment member next nextInstruction).pair
  have same := predOf.eq_of_next instruction follows noPool
  rw [same] at allowed predOf
  have listed : checkDataRegisterUpdate ∈ twoInstPatterns := by
    simp [twoInstPatterns]
  rcases allowed checkDataRegisterUpdate listed with
    noMatch | ⟨safe, sameBundle, recorded⟩
  · rcases checkDataRegisterUpdate_noMatch noMatch with
      nothing | cleared | exempt
    · have some := RegisterList.containsAny_of_contains changes data
      unfold DecodedInstruction.definesAny at nothing
      rw [some] at nothing
      cases nothing
    · rw [exposed] at cleared
      cases cleared
    · -- The whole change of the register passes for a writeback.
      have both := (RegisterList.contains_inter _ _ _).mpr ⟨changes, data⟩
      rw [← exempt, RegisterList.contains_inter] at both
      have safe := (facts.checked segment member inst instruction).safe
      have moved := both.1
      unfold DecodedInstruction.immediateAddressingDefs at moved
      unfold DecodedInstruction.safety at safe
      rw [decoder] at moved safe
      exact missed.ownBase segment member inst instruction register data
        (InstClass.loadsOwnBase_of_both safe computes moved)
  · exact facts.followedByMask_of_safe missed member
      ⟨instruction, nextInstruction, follows, sameBundle⟩ safe recorded data
      changes

end

/-- In accepted segments the stack pointer is disciplined exactly if the
updates that the checks miss are masked all the same. -/
theorem stackDisciplined_iff
    {σ : Type} {sfi : SfiValidator} {classOf : Instruction → InstClass}
    {out : ProblemSink σ} {segments : List CodeSegment} {sink sink' : σ}
    (accepted : validate (sfi.classified classOf) out segments sink =
      some (true, sink')) :
    StackDisciplined (sfi.classified classOf) classOf segments ↔
      MissedUpdatesMasked (sfi.classified classOf) classOf segments := by
  obtain ⟨first, last, branches, critical, facts⟩ :=
    validate_accepted accepted
  have decodes : ∀ i,
      (sfi.classified classOf).decode i = (classOf i).decoder := fun _ => rfl
  constructor
  · exact StackDisciplined.missedUpdatesMasked decodes
  · intro missed segment member inst instruction register data _
    by_cases computes : Computes classOf inst register
    · cases exposed : inst.clearsBits
          (sfi.classified classOf).dataAddressMask with
      | true => exact .inl rfl
      | false =>
          right
          right
          by_cases last : inst.addr + 4 = segment.endAddr
          · exact missed.trailing segment member inst instruction last
              register data computes exposed
          · exact facts.followedByMask decodes missed member instruction data
              computes exposed last
    · exact .inr (.inl computes)

/-- `ldr sp, [r0]; bic sp, sp, #0xC0000000; nop; nop`. -/
def maskedStack : CodeSegment where
  startAddr := 0x20000
  words := [0xE590D000, 0xE3CDD103, 0xE320F000, 0xE320F000]
  aligned := secondPage_aligned
  fits := by decide

theorem stackDisciplined_iff_maskedStack :
    StackDisciplined (sampleValidator.classified decodeSample) decodeSample
        [maskedStack] ↔
      MissedUpdatesMasked (sampleValidator.classified decodeSample)
        decodeSample [maskedStack] :=
  @stackDisciplined_iff Bool sampleValidator decodeSample earlyExitProblemSink
    [maskedStack] false false (by decide +kernel)

/-- `ldr sp, [sp, #4]!; nop; nop; nop`. -/
def ownBaseStack : CodeSegment where
  startAddr := 0x20000
  words := [0xE5BDD004, 0xE320F000, 0xE320F000, 0xE320F000]
  aligned := secondPage_aligned
  fits := by decide

/-- `nop; nop; nop; ldr sp, [r0]`. -/
def trailingStack : CodeSegment where
  startAddr := 0x20000
  words := [0xE320F000, 0xE320F000, 0xE320F000, 0xE590D000]
  aligned := secondPage_aligned
  fits := by decide

private def sampleClassified : SfiValidator :=
  sampleValidator.classified decodeSample

private theorem not_stackDisciplined_of_load
    {segment : CodeSegment} {va : Nat} {word : Instruction}
    (instruction : IsInstruction sampleClassified segment
      (sampleClassified.decoded va word))
    (loads : Computes decodeSample (sampleClassified.decoded va word)
      kRegisterStack)
    (defines :
      (sampleClassified.decoded va word).defines kRegisterStack = true)
    (exposed : (sampleClassified.decoded va word).clearsBits
      sampleClassified.dataAddressMask = false)
    (unmasked : ∀ next, segment.wordAt (va + 4) = some next →
      (sampleClassified.decoded (va + 4) next).defines kRegisterStack =
        false) :
    ¬ StackDisciplined sampleClassified decodeSample [segment] := by
  intro disciplined
  rcases disciplined segment List.mem_cons_self _ instruction kRegisterStack
    (by decide) defines with cleared | writeback | followed
  · rw [exposed] at cleared
    cases cleared
  · exact writeback loads
  · obtain ⟨⟨addr, next, decoder⟩, ⟨other, member, isMask⟩, behind, -, masks,
      -⟩ := followed
    rw [List.mem_singleton.mp member] at isMask
    obtain ⟨⟨-, found⟩, decoded, -⟩ := isMask
    simp only [SfiValidator.decoded] at behind found decoded
    subst behind decoded
    have differs := unmasked next found
    unfold SfiValidator.decoded at differs
    rw [differs] at masks
    cases masks

private theorem isInstruction_of_head
    {segment : CodeSegment} {va : Nat} {word head : Instruction}
    (found : segment.HasWord va word)
    (headFound : segment.HasWord (sampleClassified.bundleBase va) head)
    (noPool : (sampleClassified.decode head).isLiteralPoolHead head = false) :
    IsInstruction sampleClassified segment
      (sampleClassified.decoded va word) := by
  refine ⟨found, rfl, ?_⟩
  rintro ⟨-, other, otherFound, pool⟩
  rw [otherFound.unique headFound, noPool] at pool
  cases pool

/-- Both segments are accepted: a load into its own base passes for a
writeback, and the last instruction is never looked at. -/
theorem not_stackDisciplined :
    (validate (sampleValidator.classified decodeSample) earlyExitProblemSink
        [ownBaseStack] false = some (true, false) ∧
      ¬ StackDisciplined (sampleValidator.classified decodeSample)
        decodeSample [ownBaseStack]) ∧
    (validate (sampleValidator.classified decodeSample) earlyExitProblemSink
        [trailingStack] false = some (true, false) ∧
      ¬ StackDisciplined (sampleValidator.classified decodeSample)
        decodeSample [trailingStack]) := by
  refine ⟨⟨by decide +kernel, ?_⟩, ⟨by decide +kernel, ?_⟩⟩
  · refine @not_stackDisciplined_of_load ownBaseStack 0x20000 0xE5BDD004 ?_
      (by decide +kernel) (by decide +kernel) (by decide +kernel) ?_
    · exact @isInstruction_of_head ownBaseStack 0x20000 0xE5BDD004 0xE5BDD004
        ⟨by decide, by decide⟩ ⟨by decide, by decide⟩ (by decide +kernel)
    · intro next found
      have nop : some 0xE320F000 = some next := found
      cases nop
      decide +kernel
  · refine @not_stackDisciplined_of_load trailingStack 0x2000C 0xE590D000 ?_
      (by decide +kernel) (by decide +kernel) (by decide +kernel) ?_
    · exact @isInstruction_of_head trailingStack 0x2000C 0xE590D000 0xE320F000
        ⟨by decide, by decide⟩ ⟨by decide, by decide⟩ (by decide +kernel)
    · intro next found
      cases found

end NativeClient.ValidatorArm
