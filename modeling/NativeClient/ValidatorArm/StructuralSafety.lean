import NativeClient.ValidatorArm.Acceptance

/-!
# The structure of accepted code

In accepted segments the base of a store and the target of an indirect branch
are masked by the instruction before, no direct branch can come between the
two or into a literal pool, and every direct branch stays inside.  The sets of
the validator cover the range from the first segment to the end of the last
one, so this needs that no segment reaches further, and that segments agree
where they overlap.
-/

namespace NativeClient.ValidatorArm

open NativeClient.Library

section

variable (sfi : SfiValidator) (segment : CodeSegment)
  (segments : List CodeSegment)

structure Precedes (pred inst : DecodedInstruction) : Prop where
  before : IsInstruction sfi segment pred
  after : IsInstruction sfi segment inst
  next : pred.addr + 4 = inst.addr
  sameBundle : sfi.sameBundle pred.addr inst.addr = true

def DirectBranch (branch : DecodedInstruction) : Prop :=
  ∃ segment ∈ segments, IsInstruction sfi segment branch ∧
    branch.isRelativeBranch = true

def NotTargeted (va : Nat) : Prop :=
  ∀ branch, DirectBranch sfi segments branch →
    ¬ (va ≤ branch.branchTarget ∧ branch.branchTarget < va + 4)

def MasksStore (pred inst : DecodedInstruction) : Prop :=
  pred.defines inst.baseAddressRegister = true ∧
    pred.clearsBits sfi.dataAddressMask = true ∧
    pred.alwaysPrecedes inst = true

def GuardsStore (pred inst : DecodedInstruction) : Prop :=
  pred.setsZIfBitsClear inst.baseAddressRegister sfi.dataAddressMask = true ∧
    inst.isConditionalOn pred = true

def MasksBranch (pred inst : DecodedInstruction) : Prop :=
  pred.defines inst.branchTargetRegister = true ∧
    pred.clearsBits sfi.codeAddressMask = true ∧
    pred.alwaysPrecedes inst = true

structure StorePair (pred inst : DecodedInstruction) : Prop where
  precedes : Precedes sfi segment pred inst
  store : inst.baseAddressRegister ≠ kRegisterNone
  arbitrary : sfi.isDataAddressRegister inst.baseAddressRegister = false
  confined : MasksStore sfi pred inst ∨ GuardsStore sfi pred inst

structure BranchPair (pred inst : DecodedInstruction) : Prop where
  precedes : Precedes sfi segment pred inst
  indirect : inst.branchTargetRegister ≠ kRegisterNone
  confined : MasksBranch sfi pred inst

structure StructurallySafe : Prop where
  stores : ∀ segment ∈ segments, ∀ inst, IsInstruction sfi segment inst →
    inst.baseAddressRegister ≠ kRegisterNone →
    sfi.isDataAddressRegister inst.baseAddressRegister = true ∨
      ∃ pred, StorePair sfi segment pred inst
  indirectBranches : ∀ segment ∈ segments, ∀ inst,
    IsInstruction sfi segment inst →
    inst.branchTargetRegister ≠ kRegisterNone →
    ∃ pred, BranchPair sfi segment pred inst
  pcWrites : ∀ segment ∈ segments, ∀ inst, IsInstruction sfi segment inst →
    inst.defines kRegisterPc = true → inst.isRelativeBranch = false →
    inst.branchTargetRegister = kRegisterNone →
    inst.clearsBits sfi.codeAddressMask = true
  storePairs : ∀ segment ∈ segments, ∀ pred inst,
    StorePair sfi segment pred inst → NotTargeted sfi segments inst.addr
  branchPairs : ∀ segment ∈ segments, ∀ pred inst,
    BranchPair sfi segment pred inst → NotTargeted sfi segments inst.addr
  pools : ∀ segment ∈ segments, ∀ head, IsPoolHead sfi segment head →
    ∀ word, 4 * word < sfi.bytesPerBundle →
      NotTargeted sfi segments (head.addr + 4 * word)
  directBranches : ∀ branch, DirectBranch sfi segments branch →
    (∃ segment ∈ segments,
      segment.containsAddress branch.branchTarget = true) ∨
    BitVec.ofNat 32 branch.branchTarget &&& sfi.codeAddressMask = 0

def Sorted : Prop :=
  segments.Pairwise fun earlier later => earlier.beginAddr ≤ later.beginAddr

/-- The segments are sorted, none of them ends behind the last one, and where
two of them overlap they hold the same words. -/
structure Coherent : Prop where
  sorted : Sorted segments
  ends : ∀ last, segments.getLast? = some last →
    ∀ segment ∈ segments, segment.endAddr ≤ last.endAddr
  agree : ∀ segment ∈ segments, ∀ other ∈ segments, ∀ address word word',
    segment.HasWord address word → other.HasWord address word' → word = word'

def Covered (va : Nat) : Prop :=
  ∃ first last, segments.head? = some first ∧
    segments.getLast? = some last ∧ (coveredRange first last).InRange va

def InSight (branch : DecodedInstruction) : Prop :=
  Covered segments branch.addr ∧ ∀ segment ∈ segments, ∀ word,
    segment.HasWord branch.addr word → word = branch.inst

end

variable {sfi : SfiValidator} {segment : CodeSegment}
  {segments : List CodeSegment} {inst pred : DecodedInstruction}
  {word : Instruction}

theorem initialPred_not_safe
    {pattern :
      SfiValidator → DecodedInstruction → DecodedInstruction → PatternMatch}
    (member : pattern ∈ twoInstPatterns) :
    pattern sfi initialPred inst ≠ .patternSafe := by
  have clears : ∀ mask, initialPred.clearsBits mask = false := fun _ => rfl
  have guards : ∀ register mask,
      initialPred.setsZIfBitsClear register mask = false := fun _ _ => rfl
  have nothing : ∀ list, initialPred.definesAny list = false := by
    intro list
    have none : kRegisterNone.bitmask = 0 := by decide
    simp [DecodedInstruction.definesAny, DecodedInstruction.defs, initialPred,
      ClassDecoder.forbidden, ClassDecoder.rejected,
      RegisterList.containsAny, none]
  simp only [twoInstPatterns, List.mem_cons, List.not_mem_nil, or_false]
    at member
  rcases member with rfl | rfl | rfl
  · unfold checkStoreMask
    simp only [clears, guards, Bool.and_false, Bool.false_and]
    split <;> simp
  · unfold checkBranchMask
    simp only [clears, Bool.and_false, Bool.false_and]
    split <;> simp
  · unfold checkDataRegisterUpdate
    simp [nothing]

theorem PredOf.precedes
    {pattern :
      SfiValidator → DecodedInstruction → DecodedInstruction → PatternMatch}
    (predOf : PredOf sfi segment inst.addr pred)
    (instruction : IsInstruction sfi segment inst)
    (member : pattern ∈ twoInstPatterns)
    (safe : pattern sfi pred inst = .patternSafe)
    (same : sfi.sameBundle pred.addr inst.addr = true) :
    Precedes sfi segment pred inst := by
  cases predOf with
  | first => exact absurd safe (initialPred_not_safe member)
  | adjacent before next => exact ⟨before, instruction, next, same⟩
  | afterPool head next apart =>
      rw [same] at apart
      cases apart

theorem Precedes.pred_eq
    {pred' : DecodedInstruction}
    (precedes : Precedes sfi segment pred inst)
    (predOf : PredOf sfi segment inst.addr pred') : pred' = pred := by
  have next := precedes.next
  cases predOf with
  | first start =>
      have above := (CodeSegment.wordAt_lt precedes.before.word.2).1
      omega
  | adjacent before sameNext =>
      exact before.unique precedes.before (by omega)
  | afterPool head reached apart =>
      have headAddr := (sfi.isBundleHead_iff _).mp head.bundleHead
      have boundary : sfi.bytesPerBundle ∣ inst.addr := by
        rw [reached]
        exact bundle_dvd_wrapped headAddr
      have same := (sfi.sameBundle_iff _ _).mp precedes.sameBundle
      rw [SfiValidator.bundleBase_eq_self boundary] at same
      have lower := sfi.bundleBase_le pred.addr
      omega

private theorem contains_byte
    {set : AddressSet} {word address : Nat} (base : set.base % 4 = 0)
    (size : set.size % 4 = 0) (aligned : word % 4 = 0)
    (above : word ≤ address) (below : address < word + 4)
    (member : set.contains word = true) : set.contains address = true := by
  obtain ⟨inside, bit⟩ := (AddressSet.contains_iff set word).mp member
  have places : set.offset address < set.size ∧
      set.offset address / 4 = set.offset word / 4 := by
    unfold AddressSet.InRange AddressSet.offset wrap32 at inside
    unfold AddressSet.offset wrap32
    omega
  apply (AddressSet.contains_iff set address).mpr
  rw [places.2]
  exact ⟨places.1, bit⟩

theorem CodeSegment.containsAddress_of_word
    {va address : Nat}
    (found : segment.HasWord va word)
    (above : va ≤ address) (below : address < va + 4) :
    segment.containsAddress address = true := by
  obtain ⟨aligned, inside⟩ := found
  obtain ⟨lower, -, upper⟩ := wordAt_lt inside
  have startAligned := segment.aligned
  have end4 := upper aligned
  unfold containsAddress beginAddr
  unfold endAddr at *
  simp only [Bool.and_eq_true, decide_eq_true_eq]
  omega

theorem CodeSegment.exists_word
    {va : Nat} (aligned : va % 4 = 0) (above : segment.startAddr ≤ va)
    (below : va < segment.endAddr) : ∃ word, segment.HasWord va word := by
  have startAligned := segment.aligned
  unfold endAddr at below
  have inside : (va - segment.startAddr) / 4 < segment.words.length := by
    omega
  refine ⟨segment.words[(va - segment.startAddr) / 4], aligned, ?_⟩
  rw [wordAt, if_pos above]
  exact List.getElem?_eq_getElem inside

section

variable {first last : CodeSegment} {branches critical : AddressSet}

theorem Accepted.allowed
    (accepted : Accepted sfi segments first last branches critical)
    (member : segment ∈ segments) {pred inst : DecodedInstruction}
    (precedes : Precedes sfi segment pred inst)
    {pattern :
      SfiValidator → DecodedInstruction → DecodedInstruction → PatternMatch}
    (listed : pattern ∈ twoInstPatterns) :
    PairAllowed sfi critical pred inst (pattern sfi pred inst) := by
  obtain ⟨pred', predOf, allowed⟩ :=
    (accepted.checked segment member inst precedes.after).pair
  rw [precedes.pred_eq predOf] at allowed
  exact allowed pattern listed

theorem Accepted.branchProblem_eq_none
    (accepted : Accepted sfi segments first last branches critical)
    {branch : DecodedInstruction} (direct : DirectBranch sfi segments branch)
    (sight : InSight segments branch) :
    branchProblem sfi segments critical branch.branchTarget = none := by
  obtain ⟨segment, member, instruction, relative⟩ := direct
  obtain ⟨⟨first', last', head, tail, inside⟩, agree⟩ := sight
  rw [accepted.head, Option.some.injEq] at head
  rw [accepted.tail, Option.some.injEq] at tail
  subst head tail
  have recorded :=
    (accepted.checked segment member branch instruction).branch relative
  have known := recorded ((accepted.branchesGrown.inRange_iff _).mpr inside)
  have aligned := instruction.word.1
  have small : branch.addr < 2 ^ 32 := by
    have upper := (CodeSegment.wordAt_lt instruction.word.2).2.2 aligned
    exact Nat.lt_trans upper segment.fits
  obtain ⟨other, otherMember, word, found, fine⟩ :=
    accepted.branchChecked branch.addr small aligned known
  have same := agree other otherMember word ⟨aligned, found⟩
  have decoded : sfi.decoded branch.addr word = branch := by
    obtain ⟨addr, inst, decoder⟩ := branch
    have decoderSame := instruction.decoder
    simp only at same decoderSame
    rw [same, decoderSame]
    rfl
  rw [decoded] at fine
  exact fine

theorem Accepted.not_target
    (accepted : Accepted sfi segments first last branches critical)
    (member : segment ∈ segments) {va : Nat} {word : Instruction}
    (found : segment.HasWord va word)
    (inside : (coveredRange first last).InRange va)
    (recorded : Recorded critical va)
    {branch : DecodedInstruction} (direct : DirectBranch sfi segments branch)
    (sight : InSight segments branch) :
    ¬ (va ≤ branch.branchTarget ∧ branch.branchTarget < va + 4) := by
  rintro ⟨above, below⟩
  have fine := accepted.branchProblem_eq_none direct sight
  have contained : addressContained branch.branchTarget segments = true :=
    List.any_eq_true.mpr ⟨segment, member,
      CodeSegment.containsAddress_of_word found above below⟩
  obtain ⟨size, -, -, base⟩ := coveredRange_words first last
  rw [← accepted.criticalGrown.size] at size
  rw [← accepted.criticalGrown.base] at base
  have critical := contains_byte base size found.1 above below
    (recorded ((accepted.criticalGrown.inRange_iff va).mpr inside))
  rw [branchProblem, if_pos contained, if_pos critical] at fine
  cases fine

end

theorem Coherent.inRange
    (coherent : Coherent segments) {first last : CodeSegment}
    (head : segments.head? = some first)
    (tail : segments.getLast? = some last) (member : segment ∈ segments)
    {va : Nat} (found : segment.HasWord va word) :
    (coveredRange first last).InRange va := by
  obtain ⟨lower, -, upper⟩ := CodeSegment.wordAt_lt found.2
  have inside := upper found.1
  have ends := coherent.ends last tail segment member
  have starts : first.beginAddr ≤ segment.beginAddr := by
    obtain ⟨rest, rfl⟩ := List.head?_eq_some_iff.mp head
    rcases List.mem_cons.mp member with rfl | later
    · exact Nat.le_refl _
    · exact (List.pairwise_cons.mp coherent.sorted).1 segment later
  have fits := last.fits
  unfold AddressSet.InRange AddressSet.offset coveredRange AddressSet.empty
    wrap32
  unfold CodeSegment.beginAddr CodeSegment.endAddr at *
  simp only [Nat.reducePow] at *
  omega

theorem Coherent.inSight
    (coherent : Coherent segments) {first last : CodeSegment}
    (head : segments.head? = some first)
    (tail : segments.getLast? = some last) {branch : DecodedInstruction}
    (direct : DirectBranch sfi segments branch) :
    InSight segments branch := by
  obtain ⟨segment, member, instruction, -⟩ := direct
  refine ⟨⟨first, last, head, tail,
    coherent.inRange head tail member instruction.word⟩, ?_⟩
  intro other otherMember word found
  exact coherent.agree other otherMember segment member branch.addr word
    branch.inst found instruction.word

section

variable {first last : CodeSegment} {branches critical : AddressSet}

theorem Accepted.notTargeted
    (accepted : Accepted sfi segments first last branches critical)
    (coherent : Coherent segments) (member : segment ∈ segments)
    {va : Nat} {word : Instruction} (found : segment.HasWord va word)
    (recorded : Recorded critical va) : NotTargeted sfi segments va := by
  intro branch direct
  exact accepted.not_target member found
    (coherent.inRange accepted.head accepted.tail member found) recorded
    direct (coherent.inSight accepted.head accepted.tail direct)

theorem Accepted.notTargeted_of_safe
    (accepted : Accepted sfi segments first last branches critical)
    (coherent : Coherent segments) (member : segment ∈ segments)
    {pred inst : DecodedInstruction}
    (precedes : Precedes sfi segment pred inst)
    {pattern :
      SfiValidator → DecodedInstruction → DecodedInstruction → PatternMatch}
    (listed : pattern ∈ twoInstPatterns)
    (safe : pattern sfi pred inst = .patternSafe) :
    NotTargeted sfi segments inst.addr := by
  rcases accepted.allowed member precedes listed with
    noMatch | ⟨-, -, recorded⟩
  · rw [safe] at noMatch
    cases noMatch
  · exact accepted.notTargeted coherent member precedes.after.word recorded

theorem Accepted.pool_notTargeted
    (accepted : Accepted sfi segments first last branches critical)
    (coherent : Coherent segments) (member : segment ∈ segments)
    {head : DecodedInstruction} (isHead : IsPoolHead sfi segment head)
    {word : Nat} (inside : 4 * word < sfi.bytesPerBundle) :
    NotTargeted sfi segments (head.addr + 4 * word) := by
  have checked := accepted.checked segment member head isHead.instruction
  obtain ⟨words, recorded⟩ := checked.pool isHead
  obtain ⟨aligned, headFound⟩ := isHead.instruction.word
  obtain ⟨above, -, upper⟩ := CodeSegment.wordAt_lt headFound
  have ended := accepted.pools segment member head isHead (upper aligned)
  have fits : segment.endAddr < 2 ^ 32 := segment.fits
  obtain ⟨found, hasWord⟩ := @CodeSegment.exists_word segment
    (head.addr + 4 * word) (by omega) (by omega) (by omega)
  have noWrap : wrap32 (head.addr + 4 * word : Nat) =
      head.addr + 4 * word := wrap32_of_lt (by omega)
  apply accepted.notTargeted coherent member hasWord
  rw [← noWrap]
  exact recorded word (by omega)

private theorem Accepted.exists_safe
    (accepted : Accepted sfi segments first last branches critical)
    (member : segment ∈ segments) {inst : DecodedInstruction}
    (instruction : IsInstruction sfi segment inst)
    {pattern :
      SfiValidator → DecodedInstruction → DecodedInstruction → PatternMatch}
    (listed : pattern ∈ twoInstPatterns)
    (matched : ∀ pred, pattern sfi pred inst ≠ .noMatch) :
    ∃ pred, Precedes sfi segment pred inst ∧
      pattern sfi pred inst = .patternSafe := by
  obtain ⟨pred, predOf, allowed⟩ :=
    (accepted.checked segment member inst instruction).pair
  obtain ⟨safe, same, -⟩ :=
    (allowed pattern listed).resolve_left (matched pred)
  exact ⟨pred, predOf.precedes instruction listed safe same, safe⟩

end

private theorem checkStoreMask_safe_iff
    (store : inst.baseAddressRegister ≠ kRegisterNone)
    (arbitrary : sfi.isDataAddressRegister inst.baseAddressRegister = false) :
    checkStoreMask sfi pred inst = .patternSafe ↔
      MasksStore sfi pred inst ∨ GuardsStore sfi pred inst := by
  unfold checkStoreMask MasksStore GuardsStore
  rw [if_neg (by simp [store, arbitrary])]
  by_cases masks : (pred.defines inst.baseAddressRegister &&
      pred.clearsBits sfi.dataAddressMask && pred.alwaysPrecedes inst) = true
  · rw [if_pos masks]
    simp only [Bool.and_eq_true] at masks
    exact ⟨fun _ => .inl ⟨masks.1.1, masks.1.2, masks.2⟩, fun _ => rfl⟩
  · rw [if_neg masks]
    simp only [Bool.and_eq_true, and_assoc] at masks ⊢
    split
    next guards => exact ⟨fun _ => .inr guards, fun _ => rfl⟩
    next exposed =>
      constructor
      · intro safe
        cases safe
      · rintro (masked | guarded)
        · exact absurd masked masks
        · exact absurd guarded exposed

private theorem checkStoreMask_matches
    (store : inst.baseAddressRegister ≠ kRegisterNone)
    (arbitrary : sfi.isDataAddressRegister inst.baseAddressRegister = false)
    (pred : DecodedInstruction) : checkStoreMask sfi pred inst ≠ .noMatch := by
  unfold checkStoreMask
  rw [if_neg (by simp [store, arbitrary])]
  split
  next => simp
  next =>
    split
    next => simp
    next => simp

private theorem checkBranchMask_safe_iff
    (indirect : inst.branchTargetRegister ≠ kRegisterNone) :
    checkBranchMask sfi pred inst = .patternSafe ↔
      MasksBranch sfi pred inst := by
  unfold checkBranchMask MasksBranch
  rw [if_neg indirect]
  simp only [Bool.and_eq_true, and_assoc]
  split
  next masks => exact ⟨fun _ => masks, fun _ => rfl⟩
  next exposed =>
    constructor
    · intro safe
      cases safe
    · intro masked
      exact absurd masked exposed

private theorem checkBranchMask_matches
    (indirect : inst.branchTargetRegister ≠ kRegisterNone)
    (pred : DecodedInstruction) :
    checkBranchMask sfi pred inst ≠ .noMatch := by
  unfold checkBranchMask
  rw [if_neg indirect]
  split
  next => simp
  next => simp

private theorem clearsBits_of_checkPcWrites
    (allowed : ∀ report, checkPcWrites sfi inst ≠ .patternUnsafe report)
    (writes : inst.defines kRegisterPc = true)
    (notRelative : inst.isRelativeBranch = false)
    (notIndirect : inst.branchTargetRegister = kRegisterNone) :
    inst.clearsBits sfi.codeAddressMask = true := by
  unfold checkPcWrites at allowed
  rw [if_neg (by simp [notRelative, notIndirect]), if_neg (by simp [writes])]
    at allowed
  by_contra exposed
  rw [if_neg exposed] at allowed
  exact allowed _ rfl

theorem Accepted.structurallySafe
    {first last : CodeSegment} {branches critical : AddressSet}
    (facts : Accepted sfi segments first last branches critical)
    (coherent : Coherent segments) : StructurallySafe sfi segments := by
  refine ⟨?_, ?_, ?_, ?_, ?_, ?_, ?_⟩
  · intro segment member inst instruction store
    cases arbitrary : sfi.isDataAddressRegister inst.baseAddressRegister with
    | true => exact .inl rfl
    | false =>
        right
        obtain ⟨pred, precedes, safe⟩ :=
          @Accepted.exists_safe _ _ _ _ _ _ _ facts member _ instruction
            checkStoreMask (by simp [twoInstPatterns])
            (checkStoreMask_matches store arbitrary)
        exact ⟨pred, precedes, store, arbitrary,
          (checkStoreMask_safe_iff store arbitrary).mp safe⟩
  · intro segment member inst instruction indirect
    obtain ⟨pred, precedes, safe⟩ :=
      @Accepted.exists_safe _ _ _ _ _ _ _ facts member _ instruction
        checkBranchMask (by simp [twoInstPatterns])
        (checkBranchMask_matches indirect)
    exact ⟨pred, precedes, indirect, (checkBranchMask_safe_iff indirect).mp safe⟩
  · intro segment member inst instruction writes notRelative notIndirect
    have single := (facts.checked segment member inst instruction).single
    exact clearsBits_of_checkPcWrites
      (single checkPcWrites (by simp [oneInstPatterns])) writes notRelative
      notIndirect
  · rintro segment member pred inst ⟨precedes, store, arbitrary, confined⟩
    exact @Accepted.notTargeted_of_safe _ _ _ _ _ _ _ facts coherent member
      _ _ precedes checkStoreMask (by simp [twoInstPatterns])
      ((checkStoreMask_safe_iff store arbitrary).mpr confined)
  · rintro segment member pred inst ⟨precedes, indirect, confined⟩
    exact @Accepted.notTargeted_of_safe _ _ _ _ _ _ _ facts coherent member
      _ _ precedes checkBranchMask (by simp [twoInstPatterns])
      ((checkBranchMask_safe_iff indirect).mpr confined)
  · intro segment member head isHead word inside
    exact facts.pool_notTargeted coherent member isHead inside
  · intro branch direct
    have fine := facts.branchProblem_eq_none direct
      (coherent.inSight facts.head facts.tail direct)
    unfold branchProblem at fine
    split at fine
    next contained => exact .inl (List.any_eq_true.mp contained)
    next =>
      right
      split at fine
      next aligned => exact aligned
      next => cases fine

/-- Accepted segments are structurally safe, if they are coherent. -/
theorem validate_structurallySafe
    {σ : Type} {out : ProblemSink σ} {sink sink' : σ}
    (coherent : Coherent segments)
    (accepted : validate sfi out segments sink = some (true, sink')) :
    StructurallySafe sfi segments := by
  obtain ⟨first, last, branches, critical, facts⟩ :=
    validate_accepted accepted
  exact facts.structurallySafe coherent

theorem CodeSegment.HasWord.unique
    {address : Nat} {word' : Instruction}
    (left : segment.HasWord address word)
    (right : segment.HasWord address word') : word = word' :=
  Option.some.inj (left.2.symm.trans right.2)

theorem coherent_singleton (segment : CodeSegment) : Coherent [segment] where
  sorted := List.pairwise_singleton _ _
  ends last tail other member := by
    rw [List.getLast?_singleton, Option.some.injEq] at tail
    rw [List.mem_singleton.mp member, tail]
  agree left leftMember right rightMember address word word' found found' := by
    rw [List.mem_singleton.mp leftMember] at found
    rw [List.mem_singleton.mp rightMember] at found'
    exact found.unique found'

/-- What `NCValidateSegment` accepts is structurally safe. -/
theorem structurallySafe_of_ncValidateSegment
    {decode : Instruction → ClassDecoder}
    (accepted : ncValidateSegment decode segment = some 0) :
    StructurallySafe (ncValidator decode) [segment] := by
  unfold ncValidateSegment at accepted
  split at accepted
  next => cases accepted
  next success sink run =>
    cases success with
    | false => cases accepted
    | true =>
        obtain ⟨first, last, branches, critical, facts⟩ := validate_accepted run
        exact facts.structurallySafe (coherent_singleton segment)

def decodeSample (i : Instruction) : InstClass :=
  if i.bits 27 25 = 5 then .branch
  else if i.bits 27 16 = 0x320 then .effectiveNoOp
  else if i.bits 27 21 = 0x1E then .immediateBic
  else if i.bits 27 25 = 2 then
    if i.bit 20 then .loadImmediate else .storeImmediate
  else .undefined

def sampleValidator : SfiValidator :=
  ncValidator fun i => (decodeSample i).decoder

/-- `bic r0, r0, #0xC0000000; str r1, [r0]; nop; nop`. -/
def maskedStore : CodeSegment where
  startAddr := 0x20000
  words := [0xE3C00103, 0xE5801000, 0xE320F000, 0xE320F000]
  aligned := secondPage_aligned
  fits := by decide

theorem structurallySafe_maskedStore :
    StructurallySafe sampleValidator [maskedStore] :=
  @validate_structurallySafe sampleValidator [maskedStore] Bool
    earlyExitProblemSink false false (coherent_singleton maskedStore)
    (by decide +kernel)

/-- `nop; nop; b 0x1020014`. -/
def outerSegment : CodeSegment where
  startAddr := 0x20000
  words := [0xE320F000, 0xE320F000, 0xEA400001]
  aligned := secondPage_aligned
  fits := by decide

def innerSegment : CodeSegment where
  startAddr := 0x20004
  words := [0xE320F000]
  aligned := by decide
  fits := by decide

private def outerBranch : DecodedInstruction :=
  sampleValidator.decoded 0x20008 0xEA400001

private theorem directBranch_outerBranch :
    DirectBranch sampleValidator [outerSegment, innerSegment] outerBranch := by
  refine ⟨outerSegment, List.mem_cons_self, ⟨?_, rfl, ?_⟩, by decide +kernel⟩
  · exact ⟨by decide, by decide⟩
  · rintro ⟨-, word, found, pool⟩
    have head : outerSegment.HasWord 0x20000 0xE320F000 :=
      ⟨by decide, by decide⟩
    have base : sampleValidator.bundleBase outerBranch.addr = 0x20000 := by
      decide
    rw [base] at found
    rw [found.unique head] at pool
    exact absurd pool (by decide +kernel)

/-- The sets stop where the last segment does, although the list is sorted:
the branch behind it is never looked at. -/
theorem not_structurallySafe_nested :
    ¬ ∀ segments : List CodeSegment, Sorted segments →
      validate sampleValidator earlyExitProblemSink segments false =
        some (true, false) →
      StructurallySafe sampleValidator segments := by
  intro sortedSafe
  have sorted : Sorted [outerSegment, innerSegment] := by
    unfold Sorted
    decide
  have safe := sortedSafe [outerSegment, innerSegment] sorted (by decide +kernel)
  rcases safe.directBranches outerBranch directBranch_outerBranch with
    ⟨segment, member, inside⟩ | aligned
  · simp only [List.mem_cons, List.not_mem_nil, or_false] at member
    rcases member with rfl | rfl
    · exact absurd inside (by decide +kernel)
    · exact absurd inside (by decide +kernel)
  · exact absurd aligned (by decide +kernel)

end NativeClient.ValidatorArm
