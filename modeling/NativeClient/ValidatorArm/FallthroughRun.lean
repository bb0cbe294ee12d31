import NativeClient.ValidatorArm.SfiValidator
import Mathlib.Data.Nat.Basic

/-!
# The walk of the first pass

Which words of a segment are instructions, what the first pass has checked
about each of them when it succeeds, and what it has put into the two sets.
A word is no instruction if it lies in a literal pool, behind the head.
-/

namespace NativeClient.ValidatorArm

open NativeClient.Library

namespace SfiValidator

def bundleBase (sfi : SfiValidator) (address : Nat) : Nat :=
  (sfi.bundleForAddress address).virtualBase

theorem bundle_positive (sfi : SfiValidator) : 0 < sfi.bytesPerBundle := by
  obtain ⟨log, -, same⟩ := sfi.bundlePower
  rw [same]
  exact Nat.pow_pos (by decide)

theorem bundle_lt (sfi : SfiValidator) : sfi.bytesPerBundle < 2 ^ 32 := by
  obtain ⟨log, small, same⟩ := sfi.bundlePower
  rw [same]
  exact Nat.pow_lt_pow_right (by decide) small

theorem bundle_dvd (sfi : SfiValidator) : sfi.bytesPerBundle ∣ 2 ^ 32 := by
  obtain ⟨log, small, same⟩ := sfi.bundlePower
  rw [same]
  exact Nat.pow_dvd_pow 2 (Nat.le_of_lt small)

theorem bundleBase_eq_iff (sfi : SfiValidator) (address base : Nat) :
    sfi.bundleBase address = base ↔
      sfi.bytesPerBundle ∣ base ∧ base ≤ address ∧
        address < base + sfi.bytesPerBundle := by
  have positive := sfi.bundle_positive
  have rest := Nat.mod_lt address positive
  have lower := Nat.mod_le address sfi.bytesPerBundle
  unfold bundleBase bundleForAddress
  simp only
  constructor
  · intro same
    refine ⟨?_, by omega, by omega⟩
    rw [← same]
    exact Nat.dvd_sub_mod address
  · rintro ⟨⟨count, rfl⟩, above, below⟩
    have split : address =
        sfi.bytesPerBundle * count +
          (address - sfi.bytesPerBundle * count) := by omega
    have remainder : address % sfi.bytesPerBundle =
        address - sfi.bytesPerBundle * count := by
      rw [split, Nat.mul_add_mod, Nat.mod_eq_of_lt (by omega)]
      omega
    omega

theorem bundleBase_dvd (sfi : SfiValidator) (address : Nat) :
    sfi.bytesPerBundle ∣ sfi.bundleBase address :=
  ((sfi.bundleBase_eq_iff address _).mp rfl).1

theorem bundleBase_le (sfi : SfiValidator) (address : Nat) :
    sfi.bundleBase address ≤ address :=
  ((sfi.bundleBase_eq_iff address _).mp rfl).2.1

theorem lt_bundleBase_add (sfi : SfiValidator) (address : Nat) :
    address < sfi.bundleBase address + sfi.bytesPerBundle :=
  ((sfi.bundleBase_eq_iff address _).mp rfl).2.2

theorem bundleBase_eq_self
    {sfi : SfiValidator} {address : Nat} (head : sfi.bytesPerBundle ∣ address) :
    sfi.bundleBase address = address := by
  have positive := sfi.bundle_positive
  exact (sfi.bundleBase_eq_iff address address).mpr
    ⟨head, Nat.le_refl _, by omega⟩

theorem isBundleHead_iff (sfi : SfiValidator) (address : Nat) :
    sfi.isBundleHead address = true ↔ sfi.bytesPerBundle ∣ address := by
  unfold isBundleHead
  rw [beq_iff_eq]
  exact Nat.dvd_iff_mod_eq_zero.symm

theorem sameBundle_iff (sfi : SfiValidator) (first second : Nat) :
    sfi.sameBundle first second = true ↔
      sfi.bundleBase first = sfi.bundleBase second := by
  unfold sameBundle bundleBase
  rw [beq_iff_eq]

end SfiValidator

def CodeSegment.HasWord (segment : CodeSegment) (address : Nat)
    (word : Instruction) : Prop :=
  address % 4 = 0 ∧ segment.wordAt address = some word

theorem CodeSegment.wordAt_lt
    {segment : CodeSegment} {address : Nat} {word : Instruction}
    (found : segment.wordAt address = some word) :
    segment.startAddr ≤ address ∧ address < segment.endAddr + 4 ∧
      (address % 4 = 0 → address < segment.endAddr) := by
  have aligned := segment.aligned
  unfold wordAt at found
  split at found
  next above =>
    have inside : (address - segment.startAddr) / 4 < segment.words.length :=
      (List.getElem?_eq_some_iff.mp found).1
    unfold endAddr
    refine ⟨above, by omega, ?_⟩
    intro word
    omega
  next => cases found

section

variable (sfi : SfiValidator) (segment : CodeSegment)

def InPool (address : Nat) : Prop :=
  sfi.bundleBase address ≠ address ∧
    ∃ word, segment.HasWord (sfi.bundleBase address) word ∧
      (sfi.decode word).isLiteralPoolHead word = true

structure IsInstruction (inst : DecodedInstruction) : Prop where
  word : segment.HasWord inst.addr inst.inst
  decoder : inst.decoder = sfi.decode inst.inst
  notPooled : ¬ InPool sfi segment inst.addr

structure IsPoolHead (head : DecodedInstruction) : Prop where
  instruction : IsInstruction sfi segment head
  literalPoolHead : head.isLiteralPoolHead = true
  bundleHead : sfi.isBundleHead head.addr = true

/-- No literal pool that starts below `va` reaches past it. -/
def PoolsEndBy (va : Nat) : Prop :=
  ∀ head, IsPoolHead sfi segment head → head.addr < va →
    head.addr + sfi.bytesPerBundle ≤ va

/-- What the first pass uses as the predecessor of the word at `va`. -/
inductive PredOf (va : Nat) : DecodedInstruction → Prop where
  | first (start : va = segment.startAddr) : PredOf va initialPred
  | adjacent {pred : DecodedInstruction}
      (instruction : IsInstruction sfi segment pred)
      (next : pred.addr + 4 = va) : PredOf va pred
  | afterPool {pred : DecodedInstruction}
      (head : IsPoolHead sfi segment pred)
      (next : va = wrap32 (pred.addr + sfi.bytesPerBundle : Nat))
      (apart : sfi.sameBundle pred.addr va = false) : PredOf va pred

end

structure Grown (before after : AddressSet) : Prop where
  base : after.base = before.base
  size : after.size = before.size
  keeps : ∀ address, before.contains address = true →
    after.contains address = true

theorem Grown.refl (set : AddressSet) : Grown set set :=
  ⟨rfl, rfl, fun _ member => member⟩

theorem Grown.trans
    {first second third : AddressSet}
    (left : Grown first second) (right : Grown second third) :
    Grown first third where
  base := right.base.trans left.base
  size := right.size.trans left.size
  keeps address member := right.keeps address (left.keeps address member)

theorem Grown.add (set : AddressSet) (address : Nat) :
    Grown set (set.add address) where
  base := set.base_add address
  size := set.size_add address
  keeps _ member := AddressSet.contains_add_of_contains address member

theorem Grown.inRange_iff
    {before after : AddressSet} (grown : Grown before after) (address : Nat) :
    after.InRange address ↔ before.InRange address := by
  unfold AddressSet.InRange AddressSet.offset
  rw [grown.base, grown.size]

def Recorded (set : AddressSet) (address : Nat) : Prop :=
  set.InRange address → set.contains address = true

theorem Recorded.grown
    {before after : AddressSet} {address : Nat}
    (recorded : Recorded before address) (grown : Grown before after) :
    Recorded after address := by
  intro inside
  exact grown.keeps address (recorded ((grown.inRange_iff address).mp inside))

theorem recorded_add (set : AddressSet) (address : Nat) :
    Recorded (set.add address) address := by
  intro inside
  apply AddressSet.contains_add_self
  exact ((Grown.add set address).inRange_iff address).mp inside

def PairAllowed (sfi : SfiValidator) (critical : AddressSet)
    (first second : DecodedInstruction) (answer : PatternMatch) : Prop :=
  answer = .noMatch ∨
    (answer = .patternSafe ∧
      sfi.sameBundle first.addr second.addr = true ∧
      Recorded critical second.addr)

theorem PairAllowed.grown
    {sfi : SfiValidator} {before after : AddressSet}
    {first second : DecodedInstruction} {answer : PatternMatch}
    (allowed : PairAllowed sfi before first second answer)
    (grown : Grown before after) :
    PairAllowed sfi after first second answer := by
  rcases allowed with noMatch | ⟨safe, same, recorded⟩
  · exact .inl noMatch
  · exact .inr ⟨safe, same, recorded.grown grown⟩

structure Checked (sfi : SfiValidator) (segment : CodeSegment)
    (branches critical : AddressSet) (inst : DecodedInstruction) : Prop where
  safe : inst.safety = .mayBeSafe
  single : ∀ pattern ∈ oneInstPatterns, ∀ report,
    pattern sfi inst ≠ .patternUnsafe report
  pair : ∃ pred, PredOf sfi segment inst.addr pred ∧
    ∀ pattern ∈ twoInstPatterns,
      PairAllowed sfi critical pred inst (pattern sfi pred inst)
  branch : inst.isRelativeBranch = true → Recorded branches inst.addr
  pool : IsPoolHead sfi segment inst →
    sfi.bytesPerBundle % 4 = 0 ∧
      ∀ word < sfi.bytesPerBundle / 4,
        Recorded critical (wrap32 (inst.addr + 4 * word : Nat))

theorem Checked.grown
    {sfi : SfiValidator} {segment : CodeSegment}
    {branches branches' critical critical' : AddressSet}
    {inst : DecodedInstruction}
    (checked : Checked sfi segment branches critical inst)
    (branchesGrown : Grown branches branches')
    (criticalGrown : Grown critical critical') :
    Checked sfi segment branches' critical' inst where
  safe := checked.safe
  single := checked.single
  pair := by
    obtain ⟨pred, predOf, allowed⟩ := checked.pair
    refine ⟨pred, predOf, ?_⟩
    intro pattern member
    exact (allowed pattern member).grown criticalGrown
  branch relative := (checked.branch relative).grown branchesGrown
  pool head := by
    obtain ⟨words, recorded⟩ := checked.pool head
    exact ⟨words, fun word below => (recorded word below).grown criticalGrown⟩

section

variable {σ : Type} {sfi : SfiValidator} {out : ProblemSink σ}
  {inst first second : DecodedInstruction} {result : PassResult σ}
  {critical branches : AddressSet} {next state : FallthroughState σ}
  {segment : CodeSegment}

private theorem foldl_applyOnePattern
    (patterns : List (SfiValidator → DecodedInstruction → PatternMatch))
    (result : Bool × σ)
    (success :
      (patterns.foldl (applyOnePattern sfi out inst) result).1 = true) :
    result.1 = true ∧ ∀ pattern ∈ patterns, ∀ report,
      pattern sfi inst ≠ .patternUnsafe report := by
  induction patterns generalizing result with
  | nil => exact ⟨success, fun _ member => absurd member List.not_mem_nil⟩
  | cons pattern patterns ih =>
      obtain ⟨here, rest⟩ := ih _ success
      unfold applyOnePattern at here
      split at here
      next => cases here
      next answered =>
        refine ⟨here, ?_⟩
        intro other member
        rcases List.mem_cons.mp member with rfl | later
        · exact answered
        · exact rest other later

theorem applyPatterns_success
    {sink : σ}
    (success : (applyPatterns sfi out inst sink).1 = true) :
    ∀ pattern ∈ oneInstPatterns, ∀ report,
      pattern sfi inst ≠ .patternUnsafe report :=
  (foldl_applyOnePattern oneInstPatterns _ success).2

private theorem applyTwoPattern_success
    {result : Bool × AddressSet × σ}
    {pattern :
      SfiValidator → DecodedInstruction → DecodedInstruction → PatternMatch}
    (success :
      (applyTwoPattern sfi out first second result pattern).1 = true) :
    result.1 = true ∧
      Grown result.2.1
        (applyTwoPattern sfi out first second result pattern).2.1 ∧
      PairAllowed sfi
        (applyTwoPattern sfi out first second result pattern).2.1
        first second (pattern sfi first second) := by
  obtain ⟨old, critical, sink⟩ := result
  unfold applyTwoPattern at success ⊢
  simp only at success ⊢
  cases answer : pattern sfi first second with
  | noMatch =>
      rw [answer] at success
      exact ⟨success, .refl critical, .inl rfl⟩
  | patternUnsafe report =>
      rw [answer] at success
      cases success
  | patternSafe =>
      rw [answer] at success
      simp only at success ⊢
      by_cases same : sfi.sameBundle first.addr second.addr = true
      · rw [if_pos same] at success ⊢
        exact ⟨success, .add critical second.addr,
          .inr ⟨rfl, same, recorded_add critical second.addr⟩⟩
      · rw [if_neg same] at success
        cases success

private theorem foldl_applyTwoPattern
    (patterns : List
      (SfiValidator → DecodedInstruction → DecodedInstruction → PatternMatch))
    (result : Bool × AddressSet × σ)
    (success : (patterns.foldl (applyTwoPattern sfi out first second)
      result).1 = true) :
    result.1 = true ∧
      Grown result.2.1 (patterns.foldl (applyTwoPattern sfi out first second)
        result).2.1 ∧
      ∀ pattern ∈ patterns, PairAllowed sfi
        (patterns.foldl (applyTwoPattern sfi out first second) result).2.1
        first second (pattern sfi first second) := by
  induction patterns generalizing result with
  | nil =>
      exact ⟨success, .refl _, fun _ member => absurd member List.not_mem_nil⟩
  | cons pattern patterns ih =>
      obtain ⟨step, grown, rest⟩ := ih _ success
      obtain ⟨old, stepGrown, allowed⟩ := applyTwoPattern_success step
      refine ⟨old, stepGrown.trans grown, ?_⟩
      intro other member
      rcases List.mem_cons.mp member with rfl | later
      · exact allowed.grown grown
      · exact rest other later

theorem applyPairPatterns_success
    {sink : σ}
    (success :
      (applyPairPatterns sfi out first second critical sink).1 = true) :
    Grown critical
        (applyPairPatterns sfi out first second critical sink).2.1 ∧
      ∀ pattern ∈ twoInstPatterns, PairAllowed sfi
        (applyPairPatterns sfi out first second critical sink).2.1
        first second (pattern sfi first second) :=
  (foldl_applyTwoPattern twoInstPatterns (true, critical, sink) success).2

theorem addDataWords_some
    {critical' : AddressSet} {va lastDataAddr : Nat}
    (ran : addDataWords critical va lastDataAddr = some critical') :
    wrap32 ((lastDataAddr : Int) - va) % 4 = 0 ∧ Grown critical critical' ∧
      ∀ word < wrap32 ((lastDataAddr : Int) - va) / 4,
        Recorded critical' (wrap32 (va + 4 * word : Nat)) := by
  unfold addDataWords at ran
  simp only at ran
  split at ran
  next words =>
    cases ran
    refine ⟨words, ?_⟩
    refine foldl_range_invariant
      (fun count set => Grown critical set ∧
        ∀ word < count, Recorded set (wrap32 (va + 4 * word : Nat))) ?_ ?_
    · rintro index set - ⟨grown, recorded⟩
      have more := Grown.add set (wrap32 (va + 4 * index : Nat))
      refine ⟨grown.trans more, ?_⟩
      intro word below
      rcases Nat.lt_succ_iff_lt_or_eq.mp below with earlier | rfl
      · exact (recorded word earlier).grown more
      · exact recorded_add set _
    · exact ⟨.refl critical, fun word below => absurd below (Nat.not_lt_zero _)⟩
  next => cases ran

structure Advanced (sfi : SfiValidator) (inst : DecodedInstruction)
    (result : PassResult σ) (next : FallthroughState σ) : Prop where
  success : next.completeSuccess = result.completeSuccess
  pred : next.pred = inst
  branchesGrown : Grown result.branches next.branches
  criticalGrown : Grown result.critical next.critical
  branch : inst.isRelativeBranch = true → Recorded next.branches inst.addr
  moves :
    (¬ (inst.isLiteralPoolHead = true ∧
        sfi.isBundleHead inst.addr = true) ∧
      next.va = wrap32 (inst.addr + 4 : Nat)) ∨
    ((inst.isLiteralPoolHead = true ∧ sfi.isBundleHead inst.addr = true) ∧
      sfi.bytesPerBundle % 4 = 0 ∧
      next.va = wrap32 (inst.addr + sfi.bytesPerBundle : Nat) ∧
      ∀ word < sfi.bytesPerBundle / 4,
        Recorded next.critical (wrap32 (inst.addr + 4 * word : Nat)))

theorem endAddr_of_bundleHead
    (head : sfi.isBundleHead inst.addr = true) :
    (sfi.bundleForAddress inst.addr).endAddr =
      wrap32 (inst.addr + sfi.bytesPerBundle : Nat) := by
  have base := SfiValidator.bundleBase_eq_self
    ((sfi.isBundleHead_iff inst.addr).mp head)
  unfold SfiValidator.bundleBase at base
  unfold Bundle.endAddr
  rw [base]
  rfl

theorem bundle_distance (sfi : SfiValidator) (address : Nat) :
    wrap32 ((wrap32 (address + sfi.bytesPerBundle : Nat) : Int) - address) =
      sfi.bytesPerBundle := by
  have small := sfi.bundle_lt
  unfold wrap32
  simp only [Nat.reducePow] at *
  omega

theorem advanceFallthrough_some
    (ran : advanceFallthrough sfi inst result = some next) :
    Advanced sfi inst result next := by
  unfold advanceFallthrough at ran
  have noted : Grown result.branches
        (if inst.isRelativeBranch then result.branches.add inst.addr
          else result.branches) ∧
      (inst.isRelativeBranch = true → Recorded
        (if inst.isRelativeBranch then result.branches.add inst.addr
          else result.branches) inst.addr) := by
    by_cases relative : inst.isRelativeBranch = true
    · rw [if_pos relative]
      exact ⟨.add _ _, fun _ => recorded_add _ _⟩
    · rw [if_neg relative]
      exact ⟨.refl _, fun claimed => absurd claimed relative⟩
  simp only at ran
  split at ran
  next pool =>
    rw [Bool.and_eq_true] at pool
    rw [endAddr_of_bundleHead pool.2] at ran
    split at ran
    next => cases ran
    next critical added =>
      cases ran
      obtain ⟨words, grown, recorded⟩ := addDataWords_some added
      rw [bundle_distance] at words recorded
      exact ⟨rfl, rfl, noted.1, grown, noted.2,
        .inr ⟨pool, words, rfl, recorded⟩⟩
  next noPool =>
    cases ran
    rw [Bool.and_eq_true] at noPool
    exact ⟨rfl, rfl, noted.1, .refl _, noted.2, .inl ⟨noPool, rfl⟩⟩

theorem fallthroughTurn_again
    (turn : fallthroughTurn sfi out segment state = .again next)
    (success : next.completeSuccess = true) :
    ∃ word, ∃ result : PassResult σ,
      Advanced sfi (sfi.decoded state.va word) result next ∧
      segment.wordAt state.va = some word ∧
      state.va ≠ segment.endAddr ∧
      state.completeSuccess = true ∧
      (sfi.decoded state.va word).safety = .mayBeSafe ∧
      (∀ pattern ∈ oneInstPatterns, ∀ report,
        pattern sfi (sfi.decoded state.va word) ≠ .patternUnsafe report) ∧
      result.branches = state.branches ∧
      Grown state.critical result.critical ∧
      ∀ pattern ∈ twoInstPatterns, PairAllowed sfi result.critical state.pred
        (sfi.decoded state.va word)
        (pattern sfi state.pred (sfi.decoded state.va word)) := by
  unfold fallthroughTurn at turn
  split at turn
  next => cases turn
  next notEnd =>
    cases found : segment.wordAt state.va with
    | none =>
        rw [found] at turn
        cases turn
    | some word =>
        rw [found] at turn
        simp only at turn
        split at turn
        next => cases turn
        next =>
          split at turn
          next => cases turn
          next =>
            split at turn
            next => cases turn
            next =>
              split at turn
              next => cases turn
              next advanced =>
                cases turn
                have moved := advanceFallthrough_some advanced
                rw [moved.success] at success
                simp only [Bool.and_eq_true] at success
                obtain ⟨⟨⟨old, safe⟩, single⟩, pair⟩ := success
                obtain ⟨grown, allowed⟩ := applyPairPatterns_success pair
                refine ⟨word, _, moved, rfl, notEnd, old, ?_,
                  applyPatterns_success single, rfl, grown, allowed⟩
                unfold applySafety at safe
                split at safe
                next level => exact level
                next => cases safe

theorem fallthroughTurn_leave
    (turn : fallthroughTurn sfi out segment state = .leave (some result))
    (success : result.completeSuccess = true) :
    state.va = segment.endAddr ∧ result = state.toPassResult := by
  unfold fallthroughTurn at turn
  split at turn
  next atEnd =>
    cases turn
    exact ⟨atEnd, rfl⟩
  next =>
    split at turn
    next => cases turn
    next =>
      simp only at turn
      split at turn
      next =>
        cases turn
        cases success
      next =>
        split at turn
        next =>
          cases turn
          cases success
        next =>
          split at turn
          next =>
            cases turn
            cases success
          next =>
            split at turn
            next => cases turn
            next => cases turn

/-- Everything below `va` is checked, and `va` itself is no data. -/
structure Walked (sfi : SfiValidator) (segment : CodeSegment)
    (branches critical : AddressSet) (state : FallthroughState σ) : Prop where
  aligned : state.va % 4 = 0
  notPooled : ¬ InPool sfi segment state.va
  pools : PoolsEndBy sfi segment state.va
  pred : PredOf sfi segment state.va state.pred
  branchesGrown : Grown branches state.branches
  criticalGrown : Grown critical state.critical
  checked : ∀ inst, IsInstruction sfi segment inst → inst.addr < state.va →
    Checked sfi segment state.branches state.critical inst

theorem notPooled_next
    {va : Nat} {word : Instruction}
    (found : segment.HasWord va word) (here : ¬ InPool sfi segment va)
    (noPool : ¬ ((sfi.decode word).isLiteralPoolHead word = true ∧
      sfi.isBundleHead va = true)) :
    ¬ InPool sfi segment (va + 4) := by
  rintro ⟨behind, head, ⟨headAligned, headFound⟩, poolHead⟩
  have aligned := found.1
  have lower := sfi.bundleBase_le (va + 4)
  have upper := sfi.lt_bundleBase_add (va + 4)
  -- The head is not behind `va`, so `va` is in the same bundle.
  have same : sfi.bundleBase va = sfi.bundleBase (va + 4) :=
    (sfi.bundleBase_eq_iff va _).mpr
      ⟨sfi.bundleBase_dvd (va + 4), by omega, by omega⟩
  rw [← same] at headAligned headFound
  by_cases self : sfi.bundleBase va = va
  · rw [self, found.2] at headFound
    cases headFound
    apply noPool
    refine ⟨poolHead, (sfi.isBundleHead_iff va).mpr ?_⟩
    rw [← self]
    exact sfi.bundleBase_dvd va
  · exact here ⟨self, head, ⟨headAligned, headFound⟩, poolHead⟩

theorem bundle_dvd_wrapped
    {address : Nat} (head : sfi.bytesPerBundle ∣ address) :
    sfi.bytesPerBundle ∣ wrap32 (address + sfi.bytesPerBundle : Nat) := by
  have sum : sfi.bytesPerBundle ∣ address + sfi.bytesPerBundle :=
    Nat.dvd_add head (Nat.dvd_refl _)
  have wrapped : wrap32 (address + sfi.bytesPerBundle : Nat) =
      (address + sfi.bytesPerBundle) % 2 ^ 32 := by
    unfold wrap32
    simp only [Nat.reducePow]
    omega
  rw [wrapped]
  exact (Nat.dvd_mod_iff sfi.bundle_dvd).mpr sum

theorem bundle_add_le
    {address : Nat} (head : sfi.bytesPerBundle ∣ address)
    (small : address < 2 ^ 32) :
    address + sfi.bytesPerBundle ≤ 2 ^ 32 := by
  obtain ⟨count, rfl⟩ := head
  obtain ⟨total, all⟩ := sfi.bundle_dvd
  rw [all] at small ⊢
  have fewer : count < total := Nat.lt_of_mul_lt_mul_left small
  calc
    sfi.bytesPerBundle * count + sfi.bytesPerBundle =
        sfi.bytesPerBundle * (count + 1) := (Nat.mul_succ _ _).symm
    _ ≤ sfi.bytesPerBundle * total := Nat.mul_le_mul_left _ fewer

theorem notPooled_of_dvd
    {va : Nat} (head : sfi.bytesPerBundle ∣ va) :
    ¬ InPool sfi segment va := by
  rintro ⟨behind, -⟩
  exact behind (SfiValidator.bundleBase_eq_self head)

theorem IsInstruction.unique
    {other : DecodedInstruction}
    (left : IsInstruction sfi segment inst)
    (right : IsInstruction sfi segment other)
    (same : inst.addr = other.addr) : inst = other := by
  obtain ⟨addr, word, decoder⟩ := inst
  obtain ⟨addr', word', decoder'⟩ := other
  obtain ⟨⟨-, found⟩, decoded, -⟩ := left
  obtain ⟨⟨-, found'⟩, decoded', -⟩ := right
  simp only at same found found' decoded decoded'
  subst same
  rw [found] at found'
  cases found'
  rw [decoded, decoded']

private theorem Walked.checked_here
    (walked : Walked sfi segment branches critical state)
    (here : inst.addr = state.va) (safe : inst.safety = .mayBeSafe)
    (single : ∀ pattern ∈ oneInstPatterns, ∀ report,
      pattern sfi inst ≠ .patternUnsafe report)
    (allowed : ∀ pattern ∈ twoInstPatterns, PairAllowed sfi result.critical
      state.pred inst (pattern sfi state.pred inst))
    (advanced : Advanced sfi inst result next) :
    Checked sfi segment next.branches next.critical inst where
  safe := safe
  single := single
  pair := by
    refine ⟨state.pred, here ▸ walked.pred, ?_⟩
    intro pattern member
    exact (allowed pattern member).grown advanced.criticalGrown
  branch := advanced.branch
  pool head := by
    rcases advanced.moves with ⟨noPool, -⟩ | ⟨-, words, -, recorded⟩
    · exact absurd ⟨head.literalPoolHead, head.bundleHead⟩ noPool
    · exact ⟨words, recorded⟩

theorem Walked.again
    (walked : Walked sfi segment branches critical state)
    (turn : fallthroughTurn sfi out segment state = .again next)
    (success : next.completeSuccess = true) :
    Walked sfi segment branches critical next := by
  obtain ⟨word, result, advanced, found, notEnd, -, safe, single, sameBranches,
    grown, allowed⟩ := fallthroughTurn_again turn success
  have aligned := walked.aligned
  have fits := segment.fits
  have inside := (CodeSegment.wordAt_lt found).2.2 aligned
  have upper : state.va + 4 < 2 ^ 32 := by
    have startAligned := segment.aligned
    unfold CodeSegment.endAddr at inside
    simp only [Nat.reducePow] at *
    omega
  have instruction :
      IsInstruction sfi segment (sfi.decoded state.va word) :=
    ⟨⟨aligned, found⟩, rfl, walked.notPooled⟩
  have checkedHere := walked.checked_here rfl safe single allowed advanced
  have branchesGrown : Grown state.branches next.branches :=
    sameBranches ▸ advanced.branchesGrown
  have criticalGrown : Grown state.critical next.critical :=
    grown.trans advanced.criticalGrown
  -- What lies below the new address is old, or the instruction itself.
  have checkedBelow : ∀ inst, IsInstruction sfi segment inst →
      inst.addr ≤ state.va →
      Checked sfi segment next.branches next.critical inst := by
    intro inst member below
    rcases Nat.lt_or_eq_of_le below with earlier | here
    · exact (walked.checked inst member earlier).grown branchesGrown
        criticalGrown
    · rw [member.unique instruction here]
      exact checkedHere
  have branchesAll := walked.branchesGrown.trans branchesGrown
  have criticalAll := walked.criticalGrown.trans criticalGrown
  rcases advanced.moves with ⟨noPool, moved⟩ | ⟨pool, words, moved, -⟩
  · have step : next.va = state.va + 4 := by
      rw [moved]
      exact wrap32_of_lt upper
    refine ⟨by omega, ?_, ?_, ?_, branchesAll, criticalAll, ?_⟩
    · rw [step]
      exact notPooled_next ⟨aligned, found⟩ walked.notPooled noPool
    · intro head isHead below
      have headAligned := isHead.instruction.word.1
      have other : head.addr ≠ state.va := by
        intro same
        have here := isHead.instruction.unique instruction same
        exact noPool (here ▸ ⟨isHead.literalPoolHead, isHead.bundleHead⟩)
      have ended := walked.pools head isHead (by omega)
      omega
    · rw [advanced.pred]
      exact .adjacent instruction step.symm
    · intro inst member below
      have instAligned := member.word.1
      exact checkedBelow inst member (by omega)
  · have head := (sfi.isBundleHead_iff _).mp pool.2
    have positive := sfi.bundle_positive
    have small := sfi.bundle_lt
    have movedHead : sfi.bytesPerBundle ∣ next.va := by
      rw [moved]
      exact bundle_dvd_wrapped head
    have movedValue : next.va = (state.va + sfi.bytesPerBundle) % 2 ^ 32 := by
      rw [moved]
      unfold wrap32 SfiValidator.decoded
      simp only [Nat.reducePow]
      omega
    refine ⟨?_, notPooled_of_dvd movedHead, ?_, ?_, branchesAll, criticalAll,
      ?_⟩
    · simp only [Nat.reducePow] at movedValue
      omega
    · intro other isHead below
      have otherHead := (sfi.isBundleHead_iff _).mp isHead.bundleHead
      have room : state.va + sfi.bytesPerBundle ≤ 2 ^ 32 :=
        bundle_add_le head (by omega)
      -- No bundle starts inside of the one that was skipped.
      have outside : ¬ (state.va < other.addr ∧
          other.addr < state.va + sfi.bytesPerBundle) := by
        rintro ⟨after, before⟩
        have base : sfi.bundleBase other.addr = state.va :=
          (sfi.bundleBase_eq_iff other.addr state.va).mpr
            ⟨head, by omega, before⟩
        rw [SfiValidator.bundleBase_eq_self otherHead] at base
        omega
      simp only [Nat.reducePow] at *
      rcases Nat.lt_trichotomy other.addr state.va with
        earlier | same | later
      · have ended := walked.pools other isHead earlier
        omega
      · omega
      · omega
    · rw [advanced.pred]
      refine .afterPool ⟨instruction, pool.1, pool.2⟩ moved ?_
      rw [← Bool.not_eq_true, sfi.sameBundle_iff,
        SfiValidator.bundleBase_eq_self head,
        SfiValidator.bundleBase_eq_self movedHead]
      unfold SfiValidator.decoded
      simp only [Nat.reducePow] at *
      omega
    · intro inst member below
      by_cases past : inst.addr ≤ state.va
      · exact checkedBelow inst member past
      · have base : sfi.bundleBase inst.addr = state.va := by
          apply (sfi.bundleBase_eq_iff inst.addr state.va).mpr
          refine ⟨head, by omega, ?_⟩
          simp only [Nat.reducePow] at movedValue
          omega
        apply absurd _ member.notPooled
        refine ⟨by omega, word, ?_, pool.1⟩
        rw [base]
        exact ⟨aligned, found⟩

theorem validateFallthrough_success
    {sink : σ}
    (ran : validateFallthrough sfi out segment sink branches critical =
      some result)
    (success : result.completeSuccess = true) :
    Grown branches result.branches ∧ Grown critical result.critical ∧
      PoolsEndBy sfi segment segment.endAddr ∧
      ∀ inst, IsInstruction sfi segment inst →
        Checked sfi segment result.branches result.critical inst := by
  unfold validateFallthrough at ran
  rw [Option.join_eq_some_iff] at ran
  refine Returns.invariant
    (fun state => state.completeSuccess = true →
      Walked sfi segment branches critical state)
    (fun answer => ∀ result, answer = some result →
      result.completeSuccess = true →
      Grown branches result.branches ∧ Grown critical result.critical ∧
        PoolsEndBy sfi segment segment.endAddr ∧
        ∀ inst, IsInstruction sfi segment inst →
          Checked sfi segment result.branches result.critical inst)
    ?_ ?_ ?_ ⟨_, ran⟩ result rfl success
  · intro state next holds turn nextSuccess
    obtain ⟨_, _, -, -, -, old, -⟩ := fallthroughTurn_again turn nextSuccess
    exact (holds old).again turn nextSuccess
  · intro state answer holds turn result same succeeded
    rw [same] at turn
    obtain ⟨atEnd, rfl⟩ := fallthroughTurn_leave turn succeeded
    have walked := holds succeeded
    refine ⟨walked.branchesGrown, walked.criticalGrown,
      atEnd ▸ walked.pools, ?_⟩
    intro inst member
    apply walked.checked inst member
    rw [atEnd]
    exact (CodeSegment.wordAt_lt member.word.2).2.2 member.word.1
  · intro _
    refine ⟨segment.aligned, ?_, ?_, .first rfl, .refl _, .refl _, ?_⟩
    · rintro ⟨behind, word, ⟨-, found⟩, -⟩
      have above := (CodeSegment.wordAt_lt found).1
      have lower := sfi.bundleBase_le segment.beginAddr
      unfold CodeSegment.beginAddr at behind lower
      exact behind (Nat.le_antisymm lower above)
    · intro head isHead below
      have above := (CodeSegment.wordAt_lt isHead.instruction.word.2).1
      exact absurd below (Nat.not_lt.mpr above)
    · intro inst member below
      have above := (CodeSegment.wordAt_lt member.word.2).1
      exact absurd below (Nat.not_lt.mpr above)

end

end NativeClient.ValidatorArm
