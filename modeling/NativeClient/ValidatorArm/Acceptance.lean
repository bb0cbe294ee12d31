import NativeClient.ValidatorArm.FallthroughRun

/-!
# What acceptance means

The two passes put together: the facts about every instruction and every
recorded branch of a list of segments that `validate` accepts.
-/

namespace NativeClient.ValidatorArm

open NativeClient.Library

variable {σ : Type} {sfi : SfiValidator} {out : ProblemSink σ}
  {segments : List CodeSegment} {branches critical : AddressSet}

theorem fallthroughSegments_success
    {start result : PassResult σ}
    (ran : fallthroughSegments sfi out segments start = some (true, result))
    (success : result.completeSuccess = true) :
    start.completeSuccess = true ∧ Grown start.branches result.branches ∧
      Grown start.critical result.critical ∧
      (∀ segment ∈ segments, PoolsEndBy sfi segment segment.endAddr) ∧
      ∀ segment ∈ segments, ∀ inst, IsInstruction sfi segment inst →
        Checked sfi segment result.branches result.critical inst := by
  induction segments generalizing start with
  | nil =>
      simp only [fallthroughSegments, Option.some.injEq, Prod.mk.injEq,
        true_and] at ran
      subst ran
      exact ⟨success, .refl _, .refl _,
        fun _ member => absurd member List.not_mem_nil,
        fun _ member => absurd member List.not_mem_nil⟩
  | cons segment segments ih =>
      unfold fallthroughSegments at ran
      split at ran
      next => cases ran
      next pass passed =>
        simp only at ran
        split at ran
        next =>
          obtain ⟨joined, branchesGrown, criticalGrown, restPools, rest⟩ :=
            ih ran
          simp only [Bool.and_eq_true] at joined
          obtain ⟨branchesPass, criticalPass, pools, checked⟩ :=
            validateFallthrough_success passed joined.2
          refine ⟨joined.1, branchesPass.trans branchesGrown,
            criticalPass.trans criticalGrown, ?_, ?_⟩
          · intro other member
            rcases List.mem_cons.mp member with rfl | later
            · exact pools
            · exact restPools other later
          · intro other member inst instruction
            rcases List.mem_cons.mp member with rfl | later
            · exact (checked inst instruction).grown branchesGrown
                criticalGrown
            · exact rest other later inst instruction
        next =>
          simp only [Option.some.injEq, Prod.mk.injEq, Bool.false_eq_true,
            false_and] at ran

/-- The second pass has looked at the branch at `va`: at the word of some
segment there, and at its target. -/
def BranchChecked (sfi : SfiValidator) (segments : List CodeSegment)
    (critical : AddressSet) (va : Nat) : Prop :=
  ∃ segment ∈ segments, ∃ word, segment.wordAt va = some word ∧
    branchProblem sfi segments critical (sfi.decoded va word).branchTarget =
      none

theorem branchTurn_again
    {state next : BranchState σ}
    (turn : branchTurn sfi out segments branches critical state = .again next)
    (success : next.completeSuccess = true) :
    state.it ≠ branches.finish ∧ state.completeSuccess = true ∧
      next.it = branches.next state.it ∧
      (∀ segment ∈ next.segIt, segment ∈ state.segIt) ∧
      ∃ segment ∈ state.segIt, ∃ word,
        segment.wordAt (branches.deref state.it) = some word ∧
        branchProblem sfi segments critical
          (sfi.decoded (branches.deref state.it) word).branchTarget =
            none := by
  unfold branchTurn at turn
  split at turn
  next => cases turn
  next more =>
    simp only at turn
    split at turn
    next => cases turn
    next segment later dropped =>
      have among : ∀ other ∈ segment :: later, other ∈ state.segIt := by
        intro other member
        rw [← dropped] at member
        exact (List.dropWhile_suffix _).subset member
      split at turn
      next => cases turn
      next word found =>
        split at turn
        next noProblem =>
          cases turn
          exact ⟨more, success, rfl, among, segment,
            among segment List.mem_cons_self, word, found, noProblem⟩
        next =>
          split at turn
          next =>
            cases turn
            cases success
          next => cases turn

theorem branchTurn_leave
    {state : BranchState σ} {sink : σ}
    (turn : branchTurn sfi out segments branches critical state =
      .leave (some (true, sink))) :
    state.it = branches.finish ∧ state.completeSuccess = true := by
  unfold branchTurn at turn
  split at turn
  next atEnd =>
    simp only [Turn.leave.injEq, Option.some.injEq, Prod.mk.injEq] at turn
    exact ⟨atEnd, turn.1⟩
  next =>
    simp only at turn
    split at turn
    next => cases turn
    next =>
      split at turn
      next => cases turn
      next =>
        split at turn
        next => cases turn
        next =>
          split at turn
          next => cases turn
          next => cases turn

structure Iterated (sfi : SfiValidator) (segments : List CodeSegment)
    (branches critical : AddressSet) (state : BranchState σ) : Prop where
  valid : branches.Valid state.it
  among : ∀ segment ∈ state.segIt, segment ∈ segments
  checked : state.completeSuccess = true →
    ∀ it : AddressSet.Iterator, it.place < state.it.place →
      branches.bits.get it.place = true →
      BranchChecked sfi segments critical (branches.deref it)

private theorem deref_congr
    {it other : AddressSet.Iterator}
    (same : it.place = other.place) :
    branches.deref it = branches.deref other := by
  unfold AddressSet.Iterator.place at same
  unfold AddressSet.deref
  rw [show it.index * 32 + it.shift = other.index * 32 + other.shift by omega]

theorem Iterated.again
    {state next : BranchState σ}
    (iterated : Iterated sfi segments branches critical state)
    (turn : branchTurn sfi out segments branches critical state = .again next)
    (success : next.completeSuccess = true) :
    Iterated sfi segments branches critical next := by
  obtain ⟨more, old, moved, among, segment, member, here⟩ :=
    branchTurn_again turn success
  obtain ⟨valid, skipped⟩ := AddressSet.next_spec iterated.valid more
  refine ⟨moved ▸ valid,
    fun other left => iterated.among other (among other left), ?_⟩
  intro _ it below set
  rw [moved] at below
  rcases Nat.lt_trichotomy it.place state.it.place with
    earlier | same | later
  · exact iterated.checked old it earlier set
  · rw [deref_congr same]
    exact ⟨segment, iterated.among segment member, here⟩
  · rw [skipped it.place later below] at set
    cases set

theorem validateBranches_success
    {sink sink' : σ}
    (ran : validateBranches sfi out segments branches critical sink =
      some (true, sink')) :
    ∀ it : AddressSet.Iterator, it.place < branches.finish.place →
      branches.bits.get it.place = true →
      BranchChecked sfi segments critical (branches.deref it) := by
  unfold validateBranches at ran
  rw [Option.join_eq_some_iff] at ran
  refine Returns.invariant
    (fun state => state.completeSuccess = true →
      Iterated sfi segments branches critical state)
    (fun answer => ∀ sink, answer = some (true, sink) →
      ∀ it : AddressSet.Iterator, it.place < branches.finish.place →
        branches.bits.get it.place = true →
        BranchChecked sfi segments critical (branches.deref it))
    ?_ ?_ ?_ ⟨_, ran⟩ sink' rfl
  · intro state next holds turn success
    obtain ⟨-, old, -⟩ := branchTurn_again turn success
    exact (holds old).again turn success
  · intro state answer holds turn sink same
    rw [same] at turn
    obtain ⟨atEnd, success⟩ := branchTurn_leave turn
    rw [← atEnd]
    exact (holds success).checked success
  · intro _
    obtain ⟨valid, skipped⟩ := branches.begin_spec
    refine ⟨valid, fun _ member => member, ?_⟩
    intro _ it below member
    rw [skipped it.place below] at member
    cases member

/-- Everything that the two passes establish: `first` and `last` are the ends
of the list, and the sets cover the range from the one to the other. -/
structure Accepted (sfi : SfiValidator) (segments : List CodeSegment)
    (first last : CodeSegment) (branches critical : AddressSet) : Prop where
  head : segments.head? = some first
  tail : segments.getLast? = some last
  branchesGrown : Grown (coveredRange first last) branches
  criticalGrown : Grown (coveredRange first last) critical
  pools : ∀ segment ∈ segments, PoolsEndBy sfi segment segment.endAddr
  checked : ∀ segment ∈ segments, ∀ inst, IsInstruction sfi segment inst →
    Checked sfi segment branches critical inst
  branchChecked : ∀ va < 2 ^ 32, va % 4 = 0 → branches.contains va = true →
    BranchChecked sfi segments critical va

theorem coveredRange_words (first last : CodeSegment) :
    (coveredRange first last).size % 4 = 0 ∧
      (coveredRange first last).size < 2 ^ 32 ∧
      (coveredRange first last).base < 2 ^ 32 ∧
      (coveredRange first last).base % 4 = 0 := by
  have firstAligned := first.aligned
  have lastAligned := last.aligned
  have firstFits := first.fits
  unfold coveredRange AddressSet.empty CodeSegment.beginAddr
    CodeSegment.endAddr wrap32
  simp only [Nat.reducePow] at *
  omega

theorem validate_accepted
    {sink sink' : σ}
    (accepted : validate sfi out segments sink = some (true, sink')) :
    ∃ first last branches critical,
      Accepted sfi segments first last branches critical := by
  unfold validate at accepted
  split at accepted
  next first last head tail =>
    split at accepted
    next => cases accepted
    next => simp at accepted
    next result firstPass =>
      split at accepted
      next => cases accepted
      next success final secondPass =>
        simp only [Option.some.injEq, Prod.mk.injEq, Bool.and_eq_true]
          at accepted
        obtain ⟨⟨firstSuccess, rfl⟩, rfl⟩ := accepted
        obtain ⟨-, branchesGrown, criticalGrown, pools, checked⟩ :=
          fallthroughSegments_success firstPass firstSuccess
        refine ⟨first, last, result.branches, result.critical, head, tail,
          branchesGrown, criticalGrown, pools, checked, ?_⟩
        intro va small aligned member
        obtain ⟨words, sizeSmall, baseSmall, baseAligned⟩ :=
          coveredRange_words first last
        simp only at branchesGrown
        rw [← branchesGrown.size] at words sizeSmall
        rw [← branchesGrown.base] at baseSmall baseAligned
        obtain ⟨inside, set⟩ :=
          (AddressSet.contains_iff result.branches va).mp member
        -- The iterator that stands at the bit of `va`.
        have here : (⟨0, result.branches.offset va / 4⟩ :
            AddressSet.Iterator).place = result.branches.offset va / 4 := by
          unfold AddressSet.Iterator.place
          simp
        have before :=
          AddressSet.place_lt_finish words sizeSmall inside
        rw [← here] at before set
        have reached := validateBranches_success secondPass _ before set
        rw [AddressSet.deref_of_place baseSmall small
          (aligned.trans baseAligned.symm) here] at reached
        exact reached
  next => cases accepted

end NativeClient.ValidatorArm
