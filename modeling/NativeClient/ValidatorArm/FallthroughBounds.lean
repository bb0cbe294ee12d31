import NativeClient.ValidatorArm.FallthroughRun

/-!
# The words that the first pass reads

The loop of the first pass ends only at the end of the segment, and leaps over
the bundle of a literal pool.  The turns of the loop are compared with the
words of the segment that lie in no pool: it decodes these and nothing else,
exactly if each pool ends inside of the segment.
-/

namespace NativeClient.ValidatorArm

open NativeClient.Library

instance (sfi : SfiValidator) (segment : CodeSegment) (address : Nat) :
    Decidable (InPool sfi segment address) :=
  match found : segment.wordAt (sfi.bundleBase address) with
  | none => .isFalse fun inPool => by
      obtain ⟨-, word, ⟨-, other⟩, -⟩ := inPool
      rw [found] at other
      cases other
  | some word =>
      decidable_of_iff
        (sfi.bundleBase address ≠ address ∧ sfi.bundleBase address % 4 = 0 ∧
          (sfi.decode word).isLiteralPoolHead word = true) <| by
        constructor
        · rintro ⟨behind, aligned, head⟩
          exact ⟨behind, word, ⟨aligned, found⟩, head⟩
        · rintro ⟨behind, other, ⟨aligned, otherFound⟩, head⟩
          rw [found] at otherFound
          cases otherFound
          exact ⟨behind, aligned, head⟩

def instructionWords (sfi : SfiValidator) (segment : CodeSegment) : List Nat :=
  (List.range' segment.beginAddr segment.words.length 4).filter
    fun va => ¬ InPool sfi segment va

section

variable {σ : Type} (segment : CodeSegment)

def fallthroughStart (sink : σ) (branches critical : AddressSet) :
    FallthroughState σ where
  completeSuccess := true
  sink := sink
  branches := branches
  critical := critical
  va := segment.beginAddr
  pred := initialPred

def decodedWords (states : List (FallthroughState σ)) : List Nat :=
  (states.map FallthroughState.va).filter fun va => va ≠ segment.endAddr

end

/-- The first pass over a segment ends, decodes the words in no pool one after
the other, all of them if the sink never tells it to stop, and reads nothing
outside of the segment. -/
def WalksSegment (sfi : SfiValidator) (segment : CodeSegment) : Prop :=
  ∀ (σ : Type) (out : ProblemSink σ) (sink : σ)
    (branches critical : AddressSet),
    ∃ states result,
      Passes (fallthroughTurn sfi out segment)
        (fallthroughStart segment sink branches critical) states
        (some result) ∧
      validateFallthrough sfi out segment sink branches critical =
        some result ∧
      decodedWords segment states <+: instructionWords sfi segment ∧
      ((∀ state, (out.shouldContinue state).1 = true) →
        decodedWords segment states = instructionWords sfi segment) ∧
      ∀ va ∈ decodedWords segment states, segment.containsAddress va = true

def PoolsInside (sfi : SfiValidator) (segment : CodeSegment) : Prop :=
  ∀ head, IsPoolHead sfi segment head →
    4 ≤ sfi.bytesPerBundle ∧
      head.addr + sfi.bytesPerBundle ≤ segment.endAddr

section

variable {sfi : SfiValidator} {segment : CodeSegment}

theorem mem_instructionWords (va : Nat) :
    va ∈ instructionWords sfi segment ↔
      (∃ word, segment.HasWord va word) ∧ ¬ InPool sfi segment va := by
  have aligned := segment.aligned
  unfold instructionWords CodeSegment.HasWord CodeSegment.wordAt
    CodeSegment.beginAddr
  rw [List.mem_filter, decide_eq_true_eq, List.mem_range']
  refine and_congr_left fun _ => ?_
  constructor
  · rintro ⟨index, below, rfl⟩
    refine ⟨segment.words[index], by omega, ?_⟩
    rw [if_pos (Nat.le_add_right _ _), Nat.add_sub_cancel_left,
      Nat.mul_div_cancel_left index (by decide), List.getElem?_eq_getElem below]
  · rintro ⟨word, onWord, found⟩
    split at found
    next above =>
      have inside := (List.getElem?_eq_some_iff.mp found).1
      exact ⟨(va - segment.startAddr) / 4, inside, by omega⟩
    next => cases found

theorem instructionWords_pairwise :
    (instructionWords sfi segment).Pairwise (· < ·) := by
  apply List.Pairwise.filter
  exact List.pairwise_lt_range' 4

theorem fallthroughTurn_of_word
    {σ : Type} {out : ProblemSink σ} {state : FallthroughState σ}
    {word : Instruction} (notEnd : state.va ≠ segment.endAddr)
    (found : segment.wordAt state.va = some word) :
    (∃ result, fallthroughTurn sfi out segment state = .leave (some result) ∧
        ¬ ∀ sink, (out.shouldContinue sink).1 = true) ∨
      ∃ result : PassResult σ, fallthroughTurn sfi out segment state =
        match advanceFallthrough sfi (sfi.decoded state.va word) result with
        | none => .leave none
        | some next => .again next := by
  have stopped : ∀ sink, ¬ (out.shouldContinue sink).1 = true →
      ¬ ∀ sink, (out.shouldContinue sink).1 = true :=
    fun sink stops never => stops (never sink)
  unfold fallthroughTurn
  rw [if_neg notEnd, found]
  dsimp only
  split
  next halted =>
    refine .inl ⟨_, rfl, ?_⟩
    unfold applySafety at halted
    split at halted
    next => simp at halted
    next => exact stopped _ (by simpa using halted)
  next =>
    split
    next halted => exact .inl ⟨_, rfl, stopped _ (by simpa using halted)⟩
    next =>
      split
      next halted => exact .inl ⟨_, rfl, stopped _ (by simpa using halted)⟩
      next => exact .inr ⟨_, rfl⟩

theorem SfiValidator.four_le_bundle_iff (sfi : SfiValidator) :
    4 ≤ sfi.bytesPerBundle ↔ sfi.bytesPerBundle % 4 = 0 := by
  obtain ⟨log, -, same⟩ := sfi.bundlePower
  rw [same]
  match log with
  | 0 => decide
  | 1 => decide
  | log + 2 =>
      have positive := Nat.pow_pos (n := log) (show 0 < 2 by decide)
      rw [Nat.pow_add]
      omega

theorem advanceFallthrough_isSome_iff
    {σ : Type} {inst : DecodedInstruction} {result : PassResult σ} :
    (advanceFallthrough sfi inst result).isSome = true ↔
      (inst.isLiteralPoolHead = true ∧ sfi.isBundleHead inst.addr = true →
        4 ≤ sfi.bytesPerBundle) := by
  unfold advanceFallthrough
  simp only
  by_cases pool : (inst.isLiteralPoolHead && sfi.isBundleHead inst.addr) = true
  · have heads := (Bool.and_eq_true _ _).mp pool
    rw [if_pos pool, endAddr_of_bundleHead heads.2]
    unfold addDataWords
    rw [bundle_distance, imp_iff_right heads, sfi.four_le_bundle_iff]
    by_cases words : sfi.bytesPerBundle % 4 = 0
    · rw [if_pos words]
      exact iff_of_true rfl words
    · rw [if_neg words]
      exact iff_of_false Bool.false_ne_true words
  · rw [if_neg pool]
    refine iff_of_true rfl ?_
    intro heads
    exact absurd ((Bool.and_eq_true _ _).mpr heads) pool

def wordsFrom (sfi : SfiValidator) (segment : CodeSegment)
    (va count : Nat) : List Nat :=
  (List.range' va count 4).filter fun va => ¬ InPool sfi segment va

theorem wordsFrom_succ
    {va : Nat} (here : ¬ InPool sfi segment va) (count : Nat) :
    wordsFrom sfi segment va (count + 1) =
      va :: wordsFrom sfi segment (va + 4) count := by
  unfold wordsFrom
  rw [List.range'_succ, List.filter_cons_of_pos (by simpa using here)]

theorem wordsFrom_pool
    {va : Nat} {word : Instruction} (found : segment.HasWord va word)
    (poolHead : (sfi.decode word).isLiteralPoolHead word = true)
    (bundleHead : sfi.bytesPerBundle ∣ va)
    (words : sfi.bytesPerBundle % 4 = 0) (count : Nat) :
    wordsFrom sfi segment va (sfi.bytesPerBundle / 4 + count) =
      va :: wordsFrom sfi segment (va + sfi.bytesPerBundle) count := by
  have positive := sfi.bundle_positive
  obtain ⟨behind, size⟩ : ∃ behind, sfi.bytesPerBundle / 4 = behind + 1 :=
    ⟨sfi.bytesPerBundle / 4 - 1, by omega⟩
  have next : va + sfi.bytesPerBundle = va + 4 + 4 * behind := by omega
  rw [size, Nat.add_right_comm, wordsFrom_succ (notPooled_of_dvd bundleHead),
    next]
  unfold wordsFrom
  rw [← List.range'_append, List.filter_append]
  have pooled : (List.range' (va + 4) behind 4).filter
      (fun va => ¬ InPool sfi segment va) = [] := by
    rw [List.filter_eq_nil_iff]
    intro address member
    obtain ⟨index, below, rfl⟩ := List.mem_range'.mp member
    have base : sfi.bundleBase (va + 4 + 4 * index) = va :=
      (sfi.bundleBase_eq_iff _ _).mpr ⟨bundleHead, by omega, by omega⟩
    simp only [decide_not, Bool.not_eq_eq_eq_not, Bool.not_true,
      decide_eq_false_iff_not, not_not]
    refine ⟨by omega, word, ?_, poolHead⟩
    rw [base]
    exact found
  rw [pooled, List.nil_append]

@[simp] theorem decoded_addr (va : Nat) (word : Instruction) :
    (sfi.decoded va word).addr = va := rfl

/-- What the loop does from a word on, with `count` words to go. -/
structure WalksFrom {σ : Type} (sfi : SfiValidator) (segment : CodeSegment)
    (out : ProblemSink σ) (state : FallthroughState σ) (count : Nat)
    (states : List (FallthroughState σ)) (result : PassResult σ) : Prop where
  passes : Passes (fallthroughTurn sfi out segment) state states (some result)
  decoded : decodedWords segment states <+: wordsFrom sfi segment state.va count
  complete : (∀ sink, (out.shouldContinue sink).1 = true) →
    decodedWords segment states = wordsFrom sfi segment state.va count
  turns : states.length ≤ count + 1

theorem decodedWords_cons
    {σ : Type} {state : FallthroughState σ}
    (notEnd : state.va ≠ segment.endAddr)
    (states : List (FallthroughState σ)) :
    decodedWords segment (state :: states) =
      state.va :: decodedWords segment states := by
  unfold decodedWords
  rw [List.map_cons, List.filter_cons_of_pos (by simpa using notEnd)]

theorem WalksFrom.again
    {σ : Type} {out : ProblemSink σ} {state next : FallthroughState σ}
    {count left : Nat} {states : List (FallthroughState σ)}
    {result : PassResult σ}
    (walks : WalksFrom sfi segment out next left states result)
    (notEnd : state.va ≠ segment.endAddr)
    (action : fallthroughTurn sfi out segment state = .again next)
    (words : wordsFrom sfi segment state.va count =
      state.va :: wordsFrom sfi segment next.va left)
    (fewer : left < count) :
    WalksFrom sfi segment out state count (state :: states) result where
  passes := .again action walks.passes
  decoded := by
    rw [decodedWords_cons notEnd, words]
    exact (List.cons_prefix_cons).mpr ⟨rfl, walks.decoded⟩
  complete never := by
    rw [decodedWords_cons notEnd, words, walks.complete never]
  turns := by
    have shorter := walks.turns
    rw [List.length_cons]
    omega

theorem walksFrom_of_poolsInside
    {σ : Type} {out : ProblemSink σ} (inside : PoolsInside sfi segment)
    (count : Nat) (state : FallthroughState σ)
    (above : segment.startAddr ≤ state.va) (aligned : state.va % 4 = 0)
    (left : state.va + 4 * count = segment.endAddr)
    (here : ¬ InPool sfi segment state.va) :
    ∃ states result, WalksFrom sfi segment out state count states result := by
  have fits : segment.endAddr < 2 ^ 32 := segment.fits
  induction count using Nat.strongRecOn generalizing state with
  | ind count ih =>
      match count with
      | 0 =>
          have atEnd : state.va = segment.endAddr := left
          have action : fallthroughTurn sfi out segment state =
              .leave (some state.toPassResult) := by
            unfold fallthroughTurn
            rw [if_pos atEnd]
          have nothing : decodedWords segment [state] = [] := by
            unfold decodedWords
            simp [atEnd]
          exact ⟨[state], state.toPassResult, .leave action,
            nothing ▸ List.nil_prefix, fun _ => nothing, Nat.le_refl _⟩
      | rest + 1 =>
          have notEnd : state.va ≠ segment.endAddr := by omega
          have index : (state.va - segment.startAddr) / 4 <
              segment.words.length := by
            unfold CodeSegment.endAddr at left
            omega
          have found : segment.wordAt state.va =
              some segment.words[(state.va - segment.startAddr) / 4] := by
            unfold CodeSegment.wordAt
            rw [if_pos above, List.getElem?_eq_getElem index]
          generalize segment.words[(state.va - segment.startAddr) / 4] = word
            at found
          have hasWord : segment.HasWord state.va word := ⟨aligned, found⟩
          rcases fallthroughTurn_of_word notEnd found with
            ⟨result, action, stops⟩ | ⟨result, action⟩
          · refine ⟨[state], result, .leave action, ?_,
              fun never => absurd never stops, by simp⟩
            rw [decodedWords_cons notEnd, wordsFrom_succ here]
            exact (List.cons_prefix_cons).mpr ⟨rfl, List.nil_prefix⟩
          · have poolInside :
                (sfi.decoded state.va word).isLiteralPoolHead = true ∧
                  sfi.isBundleHead state.va = true →
                4 ≤ sfi.bytesPerBundle ∧
                  state.va + sfi.bytesPerBundle ≤ segment.endAddr :=
              fun heads => inside (sfi.decoded state.va word)
                ⟨⟨hasWord, rfl, here⟩, heads.1, heads.2⟩
            obtain ⟨next, advanced⟩ := Option.isSome_iff_exists.mp
              ((@advanceFallthrough_isSome_iff sfi σ
                (sfi.decoded state.va word) result).mpr
                fun heads => (poolInside heads).1)
            rw [advanced] at action
            rcases (advanceFallthrough_some advanced).moves with
              ⟨noPool, moved⟩ | ⟨pool, words, moved, -⟩
            · have nextVa : next.va = state.va + 4 := by
                rw [moved]
                exact wrap32_of_lt (by simp only [decoded_addr]; omega)
              obtain ⟨states, final, walks⟩ := ih rest (by omega) next
                (by omega) (by omega) (by omega)
                (nextVa ▸ notPooled_next hasWord here noPool)
              refine ⟨_, final, walks.again notEnd action ?_ (by omega)⟩
              rw [wordsFrom_succ here, nextVa]
            · obtain ⟨large, ends⟩ := poolInside pool
              have nextVa : next.va = state.va + sfi.bytesPerBundle := by
                rw [moved]
                exact wrap32_of_lt (by simp only [decoded_addr]; omega)
              have head := (sfi.isBundleHead_iff _).mp pool.2
              have nextHead : sfi.bytesPerBundle ∣ next.va :=
                nextVa ▸ Nat.dvd_add head (Nat.dvd_refl _)
              obtain ⟨states, final, walks⟩ :=
                ih (rest + 1 - sfi.bytesPerBundle / 4) (by omega) next
                  (by omega) (by omega) (by omega) (notPooled_of_dvd nextHead)
              refine ⟨_, final, walks.again notEnd action ?_ (by omega)⟩
              have split : rest + 1 = sfi.bytesPerBundle / 4 +
                  (rest + 1 - sfi.bytesPerBundle / 4) := by omega
              rw [nextVa, ← wordsFrom_pool hasWord pool.1 head words, ← split]

theorem notPooled_begin (sfi : SfiValidator) (segment : CodeSegment) :
    ¬ InPool sfi segment segment.beginAddr := by
  rintro ⟨behind, word, ⟨-, found⟩, -⟩
  have above := (CodeSegment.wordAt_lt found).1
  exact behind (Nat.le_antisymm (sfi.bundleBase_le segment.beginAddr) above)

theorem walksSegment_of_poolsInside
    (inside : PoolsInside sfi segment) : WalksSegment sfi segment := by
  intro σ out sink branches critical
  obtain ⟨states, result, walks⟩ := walksFrom_of_poolsInside inside
    segment.words.length (fallthroughStart segment sink branches critical)
    (Nat.le_refl _) segment.aligned rfl (notPooled_begin sfi segment)
  refine ⟨states, result, walks.passes, ?_, walks.decoded, walks.complete, ?_⟩
  · unfold validateFallthrough
    rw [Option.join_eq_some_iff]
    exact runLoop_mono walks.passes.runLoop_eq walks.turns
  · intro va member
    obtain ⟨⟨word, onWord, found⟩, -⟩ := (mem_instructionWords va).mp
      (walks.decoded.subset member)
    obtain ⟨above, -, below⟩ := CodeSegment.wordAt_lt found
    unfold CodeSegment.containsAddress CodeSegment.beginAddr
    simp [above, below onWord]

def patientSink : ProblemSink Unit where
  reportProblem _ _ := ()
  shouldContinue _ := (true, ())

theorem poolsInside_of_walksSegment
    (walks : WalksSegment sfi segment) : PoolsInside sfi segment := by
  intro head isHead
  obtain ⟨states, result, passes, -, -, complete, -⟩ :=
    walks Unit patientSink () (.empty 0 0) (.empty 0 0)
  have every := complete fun _ => rfl
  have onWord := isHead.instruction.word
  obtain ⟨above, -, below⟩ := CodeSegment.wordAt_lt onWord.2
  have fits : segment.endAddr < 2 ^ 32 := segment.fits
  have headBelow := below onWord.1
  have member : head.addr ∈ decodedWords segment states := by
    rw [every, mem_instructionWords]
    exact ⟨⟨_, onWord⟩, isHead.instruction.notPooled⟩
  have bundleHead := (sfi.isBundleHead_iff _).mp isHead.bundleHead
  -- The state in which the loop comes to the head.
  obtain ⟨visited, notEnd⟩ := List.mem_filter.mp member
  obtain ⟨here, visitedHere, hereVa⟩ := List.mem_map.mp visited
  obtain ⟨front, back, parts⟩ := List.append_of_mem visitedHere
  have rest := passes.from parts
  have hereNotEnd : here.va ≠ segment.endAddr := by omega
  have found : segment.wordAt here.va = some head.inst := hereVa ▸ onWord.2
  have same : sfi.decoded here.va head.inst = head := by
    unfold SfiValidator.decoded
    rw [hereVa, ← isHead.instruction.decoder]
  rcases @fallthroughTurn_of_word sfi segment Unit patientSink here head.inst
      hereNotEnd found with
    ⟨_, -, stops⟩ | ⟨after, action⟩
  · exact absurd (fun _ => rfl) stops
  · rw [same] at action
    cases advanced : advanceFallthrough sfi head after with
    | none =>
        rw [advanced] at action
        cases rest with
        | leave left =>
            rw [action] at left
            cases left
        | again went =>
            rw [action] at went
            cases went
    | some next =>
        rw [advanced] at action
        have large := advanceFallthrough_isSome_iff.mp
          (Option.isSome_iff_exists.mpr ⟨next, advanced⟩)
          ⟨isHead.literalPoolHead, isHead.bundleHead⟩
        refine ⟨large, ?_⟩
        obtain ⟨later, rfl⟩ := rest.next action
        have moved : next.va =
            wrap32 (head.addr + sfi.bytesPerBundle : Nat) := by
          rcases (advanceFallthrough_some advanced).moves with
            ⟨noPool, -⟩ | ⟨-, -, moved, -⟩
          · exact absurd ⟨isHead.literalPoolHead, isHead.bundleHead⟩ noPool
          · exact moved
        have last := bundle_add_le bundleHead (Nat.lt_trans headBelow fits)
        by_cases atEnd : next.va = segment.endAddr
        · unfold wrap32 at moved
          simp only [Nat.reducePow] at *
          omega
        · -- The words are decoded in order, so that the next one is not below.
          have ordered := @instructionWords_pairwise sfi segment
          rw [← every, parts] at ordered
          unfold decodedWords at ordered
          rw [List.map_append, List.filter_append, List.map_cons,
            List.map_cons, List.filter_cons_of_pos (by simpa using hereNotEnd),
            List.filter_cons_of_pos (by simpa using atEnd)] at ordered
          have increases : here.va < next.va :=
            (List.pairwise_cons.mp (List.pairwise_append.mp ordered).2.1).1 _
              List.mem_cons_self
          have nextMember : next.va ∈ decodedWords segment states := by
            rw [parts]
            unfold decodedWords
            refine List.mem_filter.mpr ⟨?_, by simpa using atEnd⟩
            simp
          rw [every, mem_instructionWords] at nextMember
          obtain ⟨⟨word, nextWord⟩, -⟩ := nextMember
          have nextBelow := (CodeSegment.wordAt_lt nextWord.2).2.2 nextWord.1
          unfold wrap32 at moved
          simp only [Nat.reducePow] at *
          omega

/-- The first pass stays inside of exactly those segments that hold their
literal pools as a whole. -/
theorem walksSegment_iff_poolsInside
    (sfi : SfiValidator) (segment : CodeSegment) :
    WalksSegment sfi segment ↔ PoolsInside sfi segment :=
  ⟨poolsInside_of_walksSegment, walksSegment_of_poolsInside⟩

def breakpointSfi : SfiValidator where
  bytesPerBundle := 16
  codeRegionBytes := 0x40000000
  dataRegionBytes := 0x40000000
  readOnlyRegisters := ⟨0⟩
  dataAddressRegisters := ⟨0⟩
  decode _ := .breakpoint
  bundlePower := sixteen_bundlePower

def cutPool : CodeSegment where
  startAddr := 0x20000
  words := [0xE1277777]
  aligned := secondPage_aligned
  fits := by decide

theorem cutPool_not_walked : ¬ WalksSegment breakpointSfi cutPool := by
  intro walks
  have inside := poolsInside_of_walksSegment walks
    (breakpointSfi.decoded 0x20000 0xE1277777)
    ⟨⟨⟨by decide, by decide⟩, rfl, by decide⟩, by decide, by decide⟩
  exact absurd inside.2 (by decide)

end

end NativeClient.ValidatorArm
