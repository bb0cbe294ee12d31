import NativeClient.DecoderGenerator.Tables

/-!
# Minimising a table

A merge of two `'=='` patterns matches what either of them matches, and so
does a merge of a pattern and its complement.  A merge of two `'!='` patterns
matches what both of them match: of two disjoint rows that is nothing, so the
words of both are lost.  The generated code decodes every word as the table
does exactly if no such merge happens on the way.
-/

namespace NativeClient.DecoderGenerator

open NativeClient.Library

private theorem mem_setBits (bits : BitVec 32) (bit : Nat) :
    bit ∈ ((List.range 32).filter fun bit => bits.getLsbD bit) ↔
      bits.getLsbD bit = true := by
  rw [List.mem_filter, List.mem_range]
  constructor
  · exact fun both => both.2
  · exact fun set => ⟨BitVec.lt_of_getLsbD set, set⟩

theorem popcount_eq_one
    {bits : BitVec 32} (single : popcount bits = 1) :
    ∃ bit < 32, ∀ place, bits.getLsbD place = decide (place = bit) := by
  obtain ⟨bit, only⟩ := List.length_eq_one_iff.mp single
  have same : ∀ place, bits.getLsbD place = true ↔ place = bit := by
    intro place
    rw [← mem_setBits, only, List.mem_singleton]
  refine ⟨bit, BitVec.lt_of_getLsbD ((same bit).mpr rfl), ?_⟩
  intro place
  rw [Bool.eq_iff_iff, same, decide_eq_true_iff]

private theorem popcount_pos
    {bits : BitVec 32} {bit : Nat} (set : bits.getLsbD bit = true) :
    0 < popcount bits :=
  List.length_pos_of_mem ((mem_setBits bits bit).mpr set)

private theorem masked_eq_iff
    {mask first second : BitVec 32} {bit : Nat} (word : BitVec 32)
    (firstWithin : first &&& mask = first)
    (secondWithin : second &&& mask = second)
    (differ : ∀ place, (first ^^^ second).getLsbD place =
      decide (place = bit)) :
    word &&& (mask ^^^ (first ^^^ second)) =
        (first ||| second) ^^^ (first ^^^ second) ↔
      word &&& mask = first ∨ word &&& mask = second := by
  have bits : ∀ place,
      (first.getLsbD place && mask.getLsbD place) = first.getLsbD place ∧
      (second.getLsbD place && mask.getLsbD place) = second.getLsbD place ∧
      (first.getLsbD place ^^ second.getLsbD place) =
        decide (place = bit) := by
    intro place
    refine ⟨?_, ?_, ?_⟩
    · rw [← BitVec.getLsbD_and, firstWithin]
    · rw [← BitVec.getLsbD_and, secondWithin]
    · rw [← BitVec.getLsbD_xor, differ]
  constructor
  · intro same
    have sameBit : ∀ place, place ≠ bit →
        (word.getLsbD place && mask.getLsbD place) = first.getLsbD place ∧
        (word.getLsbD place && mask.getLsbD place) =
          second.getLsbD place := by
      intro place other
      have here := congrArg (BitVec.getLsbD · place) same
      obtain ⟨inFirst, inSecond, difference⟩ := bits place
      rw [decide_eq_false other] at difference
      simp only [BitVec.getLsbD_and, BitVec.getLsbD_or, BitVec.getLsbD_xor,
        difference, Bool.xor_false] at here
      have equal : first.getLsbD place = second.getLsbD place := by
        simpa using difference
      rw [equal, Bool.or_self] at here
      exact ⟨equal ▸ here, here⟩
    obtain ⟨inFirst, inSecond, difference⟩ := bits bit
    by_cases atBit : (word.getLsbD bit && mask.getLsbD bit) =
        first.getLsbD bit
    · left
      apply BitVec.eq_of_getLsbD_eq
      intro place _
      rw [BitVec.getLsbD_and]
      by_cases here : place = bit
      · rw [here]
        exact atBit
      · exact (sameBit place here).1
    · right
      apply BitVec.eq_of_getLsbD_eq
      intro place _
      rw [BitVec.getLsbD_and]
      by_cases here : place = bit
      · rw [here]
        simp only [decide_true] at difference
        revert atBit difference
        generalize first.getLsbD bit = left
        generalize second.getLsbD bit = right
        generalize (word.getLsbD bit && mask.getLsbD bit) = masked
        revert left right masked
        decide
      · exact (sameBit place here).2
  · intro either
    apply BitVec.eq_of_getLsbD_eq
    intro place _
    obtain ⟨inFirst, inSecond, difference⟩ := bits place
    have here : (word.getLsbD place && mask.getLsbD place) =
          first.getLsbD place ∨
        (word.getLsbD place && mask.getLsbD place) =
          second.getLsbD place := by
      rw [← BitVec.getLsbD_and]
      exact either.imp (fun same => by rw [same]) (fun same => by rw [same])
    simp only [BitVec.getLsbD_and, BitVec.getLsbD_or, BitVec.getLsbD_xor]
    revert inFirst inSecond here
    generalize first.getLsbD place = left
    generalize second.getLsbD place = right
    generalize word.getLsbD place = wordBit
    generalize mask.getLsbD place = maskBit
    revert left right wordBit maskBit
    decide

namespace BitPattern

/-- Two different `'!='` patterns with more than one significant bit. -/
def NegatedPair (pattern other : BitPattern) : Prop :=
  pattern ≠ other ∧ pattern.op = .ne ∧ other.op = .ne ∧
    1 < pattern.significantBits

def AddMatchesUnion (pattern other : BitPattern) : Prop :=
  ∀ word, (pattern.add other).matchesWord word =
    (pattern.matchesWord word || other.matchesWord word)

theorem add_self (pattern : BitPattern) : pattern.add pattern = pattern := by
  obtain ⟨mask, value, op, within⟩ := pattern
  simp [add, conflicts]

theorem conflicts_eq (pattern other : BitPattern) :
    pattern.conflicts other = pattern.value ^^^ other.value := by
  unfold conflicts
  rw [BitVec.and_comm pattern.mask, BitVec.and_comm other.mask, pattern.within,
    other.within]

theorem isStrictlyCompatible_cases
    {pattern other : BitPattern}
    (compatible : pattern.isStrictlyCompatible other = true) :
    (pattern.op ≠ other.op ∧ pattern.mask = other.mask ∧
        pattern.value = other.value) ∨
      (pattern.op = other.op ∧ pattern.mask = other.mask ∧
        popcount (pattern.value ^^^ other.value) = 1) := by
  unfold isStrictlyCompatible isComplement at compatible
  split at compatible
  next complement =>
    left
    simp only [Bool.and_eq_true, bne_iff_ne, beq_iff_eq] at complement
    exact ⟨complement.1.1, complement.1.2, complement.2⟩
  next =>
    split at compatible
    next sameOp =>
      right
      rw [Bool.and_eq_true, beq_iff_eq, beq_iff_eq, conflicts_eq]
        at compatible
      exact ⟨sameOp, compatible⟩
    next => cases compatible

private theorem matchesWord_ne_iff
    {pattern : BitPattern} (significant : pattern.mask ≠ 0#32)
    (op : pattern.op = .ne) (word : BitVec 32) :
    pattern.matchesWord word = true ↔
      word &&& pattern.mask ≠ pattern.value := by
  unfold matchesWord
  rw [if_neg significant, op]
  exact bne_iff_ne

private theorem matchesWord_eq_iff
    {pattern : BitPattern} (op : pattern.op = .eq) (word : BitVec 32) :
    pattern.matchesWord word = true ↔
      word &&& pattern.mask = pattern.value := by
  unfold matchesWord
  by_cases none : pattern.mask = 0#32
  · have zero : pattern.value = 0#32 := by
      have within := pattern.within
      rw [none, BitVec.and_zero] at within
      exact within.symm
    simp [none, zero]
  · rw [if_neg none, op]
    exact beq_iff_eq

section

variable {pattern other : BitPattern}

private theorem add_eq
    (sameMask : pattern.mask = other.mask) (sameOp : pattern.op = other.op) :
    (pattern.add other).mask =
        pattern.mask ^^^ (pattern.value ^^^ other.value) ∧
      (pattern.add other).value =
        (pattern.value ||| other.value) ^^^ (pattern.value ^^^ other.value) ∧
      (pattern.add other).op = pattern.op := by
  unfold add
  rw [if_pos sameOp]
  simp only [conflicts_eq, ← sameMask, BitVec.or_self, and_self]

private theorem value_ne
    (single : popcount (pattern.value ^^^ other.value) = 1) :
    pattern.value ≠ other.value := by
  intro same
  rw [same, BitVec.xor_self] at single
  exact absurd single (by decide)

variable (sameMask : pattern.mask = other.mask)
  (single : popcount (pattern.value ^^^ other.value) = 1)

include sameMask single

private theorem masked_add_iff (word : BitVec 32)
    (sameOp : pattern.op = other.op) :
    word &&& (pattern.add other).mask = (pattern.add other).value ↔
      word &&& pattern.mask = pattern.value ∨
        word &&& other.mask = other.value := by
  obtain ⟨mask, value, -⟩ := add_eq sameMask sameOp
  obtain ⟨bit, -, differ⟩ := popcount_eq_one single
  rw [mask, value, ← sameMask]
  exact masked_eq_iff word pattern.within (sameMask ▸ other.within) differ

private theorem mask_ne_zero : pattern.mask ≠ 0#32 := by
  intro none
  have left := pattern.within
  have right := other.within
  rw [none, BitVec.and_zero] at left
  rw [← sameMask, none, BitVec.and_zero] at right
  exact value_ne single (left.symm.trans right)

private theorem add_mask_eq_zero_iff (sameOp : pattern.op = other.op) :
    (pattern.add other).mask = 0#32 ↔ ¬ 1 < pattern.significantBits := by
  obtain ⟨mask, -, -⟩ := add_eq sameMask sameOp
  rw [mask]
  constructor
  · intro zero
    have same : pattern.mask = pattern.value ^^^ other.value := by
      rwa [BitVec.xor_eq_zero_iff] at zero
    unfold significantBits
    rw [same, single]
    decide
  · intro few
    obtain ⟨bit, -, differ⟩ := popcount_eq_one single
    have inMask : pattern.mask.getLsbD bit = true := by
      have left := congrArg (BitVec.getLsbD · bit) pattern.within
      have right := congrArg (BitVec.getLsbD · bit) other.within
      have here := differ bit
      rw [← sameMask] at right
      simp only [BitVec.getLsbD_and, BitVec.getLsbD_xor, decide_true]
        at left right here
      revert left right here
      generalize pattern.value.getLsbD bit = leftValue
      generalize other.value.getLsbD bit = rightValue
      generalize pattern.mask.getLsbD bit = maskBit
      revert leftValue rightValue maskBit
      decide
    have one : popcount pattern.mask = 1 := by
      have positive := popcount_pos inMask
      unfold significantBits at few
      omega
    obtain ⟨only, -, maskBits⟩ := popcount_eq_one one
    rw [maskBits bit, decide_eq_true_iff] at inMask
    rw [BitVec.xor_eq_zero_iff]
    apply BitVec.eq_of_getLsbD_eq
    intro place _
    rw [maskBits, differ, inMask]

end

def Compatible (pattern other : BitPattern) : Prop :=
  pattern = other ∨ pattern.isStrictlyCompatible other = true

section

variable {pattern other : BitPattern}

private theorem addMatchesUnion_of_complement
    (opposite : pattern.op ≠ other.op) (sameMask : pattern.mask = other.mask)
    (sameValue : pattern.value = other.value) :
    pattern.AddMatchesUnion other := by
  intro word
  have anything : (pattern.add other).matchesWord word = true := by
    unfold add matchesWord
    rw [if_neg opposite]
    rfl
  rw [anything]
  unfold matchesWord
  by_cases none : pattern.mask = 0#32
  · rw [if_pos none, Bool.true_or]
  · rw [if_neg none, if_neg (sameMask ▸ none), ← sameMask, ← sameValue]
    cases leftOp : pattern.op with
    | eq =>
        cases rightOp : other.op with
        | eq => exact absurd (leftOp.trans rightOp.symm) opposite
        | ne => simp [bne]
    | ne =>
        cases rightOp : other.op with
        | eq => simp [bne]
        | ne => exact absurd (leftOp.trans rightOp.symm) opposite

theorem addMatchesUnion_of_not_negatedPair
    (compatible : pattern.Compatible other)
    (notNegated : ¬ pattern.NegatedPair other) :
    pattern.AddMatchesUnion other := by
  rcases compatible with rfl | compatible
  · intro word
    rw [add_self, Bool.or_self]
  · rcases isStrictlyCompatible_cases compatible with
      ⟨opposite, sameMask, sameValue⟩ | ⟨sameOp, sameMask, single⟩
    · exact addMatchesUnion_of_complement opposite sameMask sameValue
    · intro word
      obtain ⟨-, -, addOp⟩ := add_eq sameMask sameOp
      rw [Bool.eq_iff_iff, Bool.or_eq_true]
      cases op : pattern.op with
      | eq =>
          rw [matchesWord_eq_iff (addOp.trans op), matchesWord_eq_iff op,
            matchesWord_eq_iff (sameOp ▸ op)]
          exact masked_add_iff sameMask single word sameOp
      | ne =>
          have differs := value_ne single
          have few : ¬ 1 < pattern.significantBits := by
            intro many
            apply notNegated
            refine ⟨?_, op, sameOp ▸ op, many⟩
            intro same
            exact differs (congrArg BitPattern.value same)
          have none := (add_mask_eq_zero_iff sameMask single sameOp).mpr few
          have significant := mask_ne_zero sameMask single
          have anything : (pattern.add other).matchesWord word = true := by
            unfold matchesWord
            rw [if_pos none]
          rw [anything, matchesWord_ne_iff significant op,
            matchesWord_ne_iff (sameMask ▸ significant) (sameOp ▸ op),
            ← sameMask]
          refine ⟨fun _ => ?_, fun _ => rfl⟩
          by_contra neither
          rw [not_or, not_ne_iff, not_ne_iff] at neither
          exact differs (neither.1.symm.trans neither.2)

theorem matchesWord_add_of_negatedPair
    (compatible : pattern.Compatible other)
    (negated : pattern.NegatedPair other) (word : BitVec 32) :
    (pattern.add other).matchesWord word =
      (pattern.matchesWord word && other.matchesWord word) := by
  obtain ⟨different, op, otherOp, many⟩ := negated
  rcases compatible with same | compatible
  · exact absurd same different
  · rcases isStrictlyCompatible_cases compatible with
      ⟨opposite, -, -⟩ | ⟨sameOp, sameMask, single⟩
    · exact absurd (op.trans otherOp.symm) opposite
    · have significant := mask_ne_zero sameMask single
      have addSignificant : (pattern.add other).mask ≠ 0#32 := by
        intro zero
        exact (add_mask_eq_zero_iff sameMask single sameOp).mp zero many
      obtain ⟨-, -, addOp⟩ := add_eq sameMask sameOp
      rw [Bool.eq_iff_iff, Bool.and_eq_true,
        matchesWord_ne_iff addSignificant (addOp.trans op),
        matchesWord_ne_iff significant op,
        matchesWord_ne_iff (sameMask ▸ significant) otherOp, ne_eq,
        masked_add_iff sameMask single word sameOp, not_or]

theorem matchesWord_of_add
    (compatible : pattern.Compatible other) {word : BitVec 32}
    (held : (pattern.add other).matchesWord word = true) :
    pattern.matchesWord word = true ∨ other.matchesWord word = true := by
  by_cases negated : pattern.NegatedPair other
  · rw [matchesWord_add_of_negatedPair compatible negated, Bool.and_eq_true]
      at held
    exact .inl held.1
  · rw [addMatchesUnion_of_not_negatedPair compatible negated,
      Bool.or_eq_true] at held
    exact held

theorem addMatchesUnion_iff (compatible : pattern.Compatible other) :
    pattern.AddMatchesUnion other ↔ ¬ pattern.NegatedPair other := by
  refine ⟨?_, addMatchesUnion_of_not_negatedPair compatible⟩
  intro union negated
  -- The value of the first pattern is a word that only the second matches.
  have here := union pattern.value
  rw [matchesWord_add_of_negatedPair compatible negated] at here
  obtain ⟨different, op, otherOp, -⟩ := negated
  rcases compatible with same | compatible
  · exact different same
  · rcases isStrictlyCompatible_cases compatible with
      ⟨opposite, -, -⟩ | ⟨sameOp, sameMask, single⟩
    · exact opposite (op.trans otherOp.symm)
    · have significant := mask_ne_zero sameMask single
      have missed : pattern.matchesWord pattern.value = false := by
        rw [← Bool.not_eq_true, matchesWord_ne_iff significant op, not_ne_iff]
        exact pattern.within
      have found : other.matchesWord pattern.value = true := by
        rw [matchesWord_ne_iff (sameMask ▸ significant) otherOp, ← sameMask,
          pattern.within]
        exact value_ne single
      rw [missed, found] at here
      cases here

end

end BitPattern

private theorem not_strictlyCompatible_self (pattern : BitPattern) :
    pattern.isStrictlyCompatible pattern = false := by
  rw [← Bool.not_eq_true]
  intro compatible
  rcases BitPattern.isStrictlyCompatible_cases compatible with
    ⟨opposite, -⟩ | ⟨-, -, single⟩
  · exact opposite rfl
  · exact BitPattern.value_ne single rfl

private theorem equal_of_countP
    {first second : List BitPattern} (sameLength : first.length = second.length)
    (all : (first.zip second).countP (fun pair => pair.1 = pair.2) =
      first.length) : first = second := by
  have zipped : (first.zip second).length = first.length := by
    rw [List.length_zip, sameLength, Nat.min_self]
  rw [← zipped, List.countP_eq_length] at all
  apply List.ext_getElem sameLength
  intro index below other
  have member : (first[index], second[index]) ∈ first.zip second := by
    rw [← List.getElem_zip]
    exact List.getElem_mem (by omega)
  simpa using all _ member

private theorem split_of_countP
    {first second : List BitPattern} (sameLength : first.length = second.length)
    (equal : (first.zip second).countP (fun pair => pair.1 = pair.2) + 1 =
      first.length)
    (compatible : (first.zip second).countP
      (fun pair => pair.1.isStrictlyCompatible pair.2) = 1) :
    ∃ front pattern other back, first = front ++ pattern :: back ∧
      second = front ++ other :: back ∧ pattern.Compatible other := by
  induction first generalizing second with
  | nil => simp at equal
  | cons pattern first ih =>
      cases second with
      | nil => simp at sameLength
      | cons other second =>
          simp only [List.length_cons, Nat.add_right_cancel_iff] at sameLength
          rw [List.zip_cons_cons, List.countP_cons] at equal compatible
          rw [List.length_cons] at equal
          by_cases same : pattern = other
          · subst same
            rw [if_pos (by simp)] at equal
            rw [if_neg (by simp [not_strictlyCompatible_self])] at compatible
            obtain ⟨front, left, right, back, rfl, rfl, merges⟩ :=
              ih sameLength (by omega) compatible
            exact ⟨pattern :: front, left, right, back, rfl, rfl, merges⟩
          · rw [if_neg (by simpa using same)] at equal
            have rest := equal_of_countP sameLength (by omega)
            subst rest
            have none : (first.zip first).countP
                (fun pair => pair.1.isStrictlyCompatible pair.2) = 0 := by
              rw [List.countP_eq_zero]
              intro pair member
              have twice : pair.1 = pair.2 := by
                obtain ⟨index, below, rfl⟩ := List.mem_iff_getElem.mp member
                simp
              rw [twice, not_strictlyCompatible_self]
              exact Bool.false_ne_true
            rw [none] at compatible
            refine ⟨[], pattern, other, first, rfl, rfl, .inr ?_⟩
            by_contra incompatible
            rw [if_neg incompatible] at compatible
            cases compatible

namespace Row

theorem canMerge_cases
    {row other : Row} (sameWidth : row.patterns.length = other.patterns.length)
    (some : 0 < row.patterns.length) (merges : row.canMerge other = true) :
    row.key = other.key ∧ ∃ front pattern otherPattern back,
      row.patterns = front ++ pattern :: back ∧
      other.patterns = front ++ otherPattern :: back ∧
      pattern.Compatible otherPattern := by
  unfold canMerge at merges
  split at merges
  next => cases merges
  next sameKey =>
    rw [not_or, not_ne_iff, not_ne_iff] at sameKey
    refine ⟨Prod.ext sameKey.1 sameKey.2, ?_⟩
    simp only [Bool.or_eq_true, Bool.and_eq_true, beq_iff_eq] at merges
    rcases merges with equal | ⟨equal, compatible⟩
    · have same := equal_of_countP sameWidth equal
      obtain ⟨pattern, back, split⟩ := List.exists_cons_of_length_pos some
      exact ⟨[], pattern, pattern, back, split, same ▸ split, .inl rfl⟩
    · exact split_of_countP sameWidth (by omega) compatible

/-- Some column of the rows holds two `'!='` patterns. -/
def NegatedPair (row other : Row) : Prop :=
  ∃ pair ∈ row.patterns.zip other.patterns, pair.1.NegatedPair pair.2

def LosesWords (row other : Row) : Prop :=
  row.NegatedPair other ∧
    ∃ word, row.matchesWord word = true ∨ other.matchesWord word = true

section

variable {row other : Row} {front back : List BitPattern}
  {pattern otherPattern : BitPattern}

private theorem matchesWord_split
    (split : row.patterns = front ++ pattern :: back) (word : BitVec 32) :
    row.matchesWord word =
      (pattern.matchesWord word &&
        (front.all (fun other => other.matchesWord word) &&
          back.all (fun other => other.matchesWord word))) := by
  unfold matchesWord
  rw [split, List.all_append, List.all_cons, Bool.and_left_comm]

private theorem zipWith_add_self (patterns : List BitPattern) :
    List.zipWith BitPattern.add patterns patterns = patterns := by
  induction patterns with
  | nil => rfl
  | cons pattern patterns ih =>
      rw [List.zipWith_cons_cons, BitPattern.add_self, ih]

private theorem add_split
    (split : row.patterns = front ++ pattern :: back)
    (otherSplit : other.patterns = front ++ otherPattern :: back) :
    (row.add other).patterns =
      front ++ pattern.add otherPattern :: back := by
  unfold add
  simp only
  rw [split, otherSplit, List.zipWith_append rfl, List.zipWith_cons_cons,
    zipWith_add_self, zipWith_add_self]

private theorem negatedPair_split
    (split : row.patterns = front ++ pattern :: back)
    (otherSplit : other.patterns = front ++ otherPattern :: back) :
    row.NegatedPair other ↔ pattern.NegatedPair otherPattern := by
  have same : ∀ patterns : List BitPattern,
      ¬ ∃ pair ∈ patterns.zip patterns, pair.1.NegatedPair pair.2 := by
    rintro patterns ⟨pair, member, different, -⟩
    obtain ⟨index, below, rfl⟩ := List.mem_iff_getElem.mp member
    simp at different
  unfold NegatedPair
  rw [split, otherSplit, List.zip_append rfl, List.zip_cons_cons]
  constructor
  · rintro ⟨pair, member, negated⟩
    rcases List.mem_append.mp member with inFront | inRest
    · exact absurd ⟨pair, inFront, negated⟩ (same front)
    · rcases List.mem_cons.mp inRest with rfl | inBack
      · exact negated
      · exact absurd ⟨pair, inBack, negated⟩ (same back)
  · intro negated
    exact ⟨(pattern, otherPattern),
      List.mem_append_right _ List.mem_cons_self, negated⟩

end

section

variable {row other : Row}
  (sameWidth : row.patterns.length = other.patterns.length)
  (some : 0 < row.patterns.length) (merges : row.canMerge other = true)

include sameWidth some merges

theorem matchesWord_of_add
    {word : BitVec 32} (held : (row.add other).matchesWord word = true) :
    row.matchesWord word = true ∨ other.matchesWord word = true := by
  obtain ⟨-, front, pattern, otherPattern, back, split, otherSplit,
    compatible⟩ := canMerge_cases sameWidth some merges
  rw [matchesWord_split (add_split split otherSplit), Bool.and_eq_true] at held
  rcases BitPattern.matchesWord_of_add compatible held.1 with here | there
  · left
    rw [matchesWord_split split, here, Bool.true_and]
    exact held.2
  · right
    rw [matchesWord_split otherSplit, there, Bool.true_and]
    exact held.2

theorem add_covers_iff
    (disjoint : ∀ word, row.matchesWord word = true →
      ¬ other.matchesWord word = true) :
    (∀ word, row.matchesWord word = true ∨ other.matchesWord word = true →
        (row.add other).matchesWord word = true) ↔
      ¬ row.LosesWords other := by
  obtain ⟨-, front, pattern, otherPattern, back, split, otherSplit,
    compatible⟩ := canMerge_cases sameWidth some merges
  have rowWord := matchesWord_split split
  have otherWord := matchesWord_split otherSplit
  have addWord := matchesWord_split (add_split split otherSplit)
  have negatedIff := negatedPair_split split otherSplit
  constructor
  · rintro covers ⟨negated, word, held⟩
    -- The merge matches only what both rows match.
    have merged := covers word held
    rw [addWord, BitPattern.matchesWord_add_of_negatedPair compatible
      (negatedIff.mp negated), Bool.and_eq_true, Bool.and_eq_true] at merged
    apply disjoint word
    · rw [rowWord, Bool.and_eq_true]
      exact ⟨merged.1.1, merged.2⟩
    · rw [otherWord, Bool.and_eq_true]
      exact ⟨merged.1.2, merged.2⟩
  · intro lossless word held
    have notNegated : ¬ pattern.NegatedPair otherPattern := by
      intro negated
      exact lossless ⟨negatedIff.mpr negated, word, held⟩
    rw [addWord, BitPattern.addMatchesUnion_of_not_negatedPair compatible
      notNegated, Bool.and_eq_true, Bool.or_eq_true]
    rcases held with inRow | inOther
    · rw [rowWord, Bool.and_eq_true] at inRow
      exact ⟨.inl inRow.1, inRow.2⟩
    · rw [otherWord, Bool.and_eq_true] at inOther
      exact ⟨.inr inOther.1, inOther.2⟩

end

def Covers (row : Row) (word : BitVec 32) : Prop :=
  row.matchesWord word = true

end Row

theorem partner_some
    {row found : Row} {rows others : List Row}
    (ran : partner row rows = some (found, others)) :
    row.canMerge found = true ∧ rows.Perm (found :: others) := by
  induction rows generalizing others with
  | nil => cases ran
  | cons other rest ih =>
      unfold partner at ran
      split at ran
      next merges =>
        cases ran
        exact ⟨merges, .refl _⟩
      next =>
        split at ran
        next => cases ran
        next found' others' later =>
          cases ran
          obtain ⟨merges, permuted⟩ := ih later
          exact ⟨merges, (permuted.cons other).trans (.swap _ _ _)⟩

theorem mergeablePair_some
    {rows others : List Row} {first second : Row}
    (ran : mergeablePair rows = some (first, second, others)) :
    first.canMerge second = true ∧
      rows.Perm (first :: second :: others) := by
  induction rows generalizing others with
  | nil => cases ran
  | cons row rest ih =>
      unfold mergeablePair at ran
      split at ran
      next found =>
        cases ran
        obtain ⟨merges, permuted⟩ := partner_some found
        exact ⟨merges, permuted.cons _⟩
      next =>
        split at ran
        next => cases ran
        next later =>
          cases ran
          obtain ⟨merges, permuted⟩ := ih later
          refine ⟨merges, (permuted.cons row).trans ?_⟩
          exact (List.Perm.swap _ _ _).trans ((List.Perm.swap _ _ _).cons _)

def SameShape (columns : Nat) (key : String × Option String)
    (rows : List Row) : Prop :=
  ∀ row ∈ rows, row.patterns.length = columns ∧ row.key = key

section

variable {columns : Nat} {key : String × Option String}

theorem mergeStep_merges
    (some : 0 < columns) {rows next : List Row}
    (shape : SameShape columns key rows)
    (stepped : mergeStep rows = .some next) :
    ∃ first second others,
      mergeablePair rows = .some (first, second, others) ∧
      first.canMerge second = true ∧
      first.patterns.length = columns ∧ second.patterns.length = columns ∧
      Merges Row.Covers rows next first second (first.add second) others := by
  unfold mergeStep at stepped
  split at stepped
  next => cases stepped
  next first second others found =>
    cases stepped
    obtain ⟨merges, permuted⟩ := mergeablePair_some found
    obtain ⟨firstWidth, -⟩ :=
      shape first (permuted.mem_iff.mpr List.mem_cons_self)
    obtain ⟨secondWidth, -⟩ := shape second
      (permuted.mem_iff.mpr (List.mem_cons_of_mem _ List.mem_cons_self))
    refine ⟨first, second, others, found, merges, firstWidth, secondWidth,
      permuted, List.perm_append_singleton _ _, ?_⟩
    intro word held
    exact Row.matchesWord_of_add (firstWidth.trans secondWidth.symm)
      (firstWidth ▸ some) merges held

theorem mergeStep_shape
    (some : 0 < columns) (rows next : List Row)
    (stepped : mergeStep rows = .some next)
    (shape : SameShape columns key rows) : SameShape columns key next := by
  obtain ⟨first, second, others, found, merges, firstWidth, secondWidth,
    merged⟩ := mergeStep_merges some shape stepped
  intro row member
  rcases List.mem_cons.mp (merged.after.mem_iff.mp member) with rfl | inOthers
  · have firstShape := shape first (merged.before.mem_iff.mpr
      List.mem_cons_self)
    refine ⟨?_, firstShape.2⟩
    unfold Row.add
    simp only [List.length_zipWith, firstWidth, secondWidth, Nat.min_self]
  · exact shape row (merged.before.mem_iff.mpr
      (List.mem_cons_of_mem _ (List.mem_cons_of_mem _ inOthers)))

theorem mergeStep_narrows
    (some : 0 < columns) (rows next : List Row)
    (stepped : mergeStep rows = .some next)
    (shape : SameShape columns key rows) (word : BitVec 32)
    (held : Denoted Row.Covers next word) : Denoted Row.Covers rows word := by
  obtain ⟨_, _, _, _, _, _, _, merged⟩ := mergeStep_merges some shape stepped
  exact merged.narrows held

theorem mergeStep_shorter
    (rows next : List Row) (stepped : mergeStep rows = .some next) :
    next.length < rows.length := by
  unfold mergeStep at stepped
  split at stepped
  next => cases stepped
  next found =>
    cases stepped
    have length := (mergeablePair_some found).2.length_eq
    simp only [List.length_cons, List.length_append, List.length_nil]
      at length ⊢
    omega

structure Consistent (columns : Nat) (key : String × Option String)
    (rows : List Row) : Prop where
  shape : SameShape columns key rows
  disjoint : DisjointItems Row.Covers rows

private theorem mergeStep_consistent
    (some : 0 < columns) (rows next : List Row)
    (stepped : mergeStep rows = .some next)
    (consistent : Consistent columns key rows) :
    Consistent columns key next := by
  obtain ⟨_, _, _, _, _, _, _, merged⟩ :=
    mergeStep_merges some consistent.shape stepped
  exact ⟨mergeStep_shape some rows next stepped consistent.shape,
    merged.disjoint consistent.disjoint⟩

theorem optimizeRowsForSingleAction_keeps_iff
    (some : 0 < columns) {rows : List Row}
    (consistent : Consistent columns key rows) :
    (∀ word, Denoted Row.Covers rows word →
        Denoted Row.Covers (optimizeRowsForSingleAction rows) word) ↔
      ∀ state, Visits mergeStep rows state →
        ∀ first second others,
        mergeablePair state = .some (first, second, others) →
        ¬ first.LosesWords second := by
  unfold optimizeRowsForSingleAction
  rw [mergeRun_keeps_iff (mergeStep_shape some) (mergeStep_narrows some)
    mergeStep_shorter (Nat.le_refl _) consistent.shape]
  -- What a step loses is decided by the rows that it merges.
  have stepIff : ∀ state next, Visits mergeStep rows state →
      mergeStep state = .some next → ∃ first second others,
      mergeablePair state = .some (first, second, others) ∧
      ((∀ word, Denoted Row.Covers state word →
          Denoted Row.Covers next word) ↔ ¬ first.LosesWords second) := by
    intro state next visited stepped
    have reached : Consistent columns key state :=
      visits_invariant (mergeStep_consistent some) visited consistent
    obtain ⟨first, second, others, found, merges, firstWidth, secondWidth,
      merged⟩ := mergeStep_merges some reached.shape stepped
    have apart : Excludes Row.Covers first second := by
      have disjoint := (disjointItems_perm merged.before).mp reached.disjoint
      exact (List.pairwise_cons.mp disjoint).1 second List.mem_cons_self
    refine ⟨first, second, others, found, ?_⟩
    rw [merged.keeps_iff reached.disjoint]
    exact Row.add_covers_iff (firstWidth.trans secondWidth.symm)
      (firstWidth ▸ some) merges apart
  constructor
  · intro keeps state visited first second others found
    have stepped : mergeStep state = .some (others ++ [first.add second]) := by
      unfold mergeStep
      rw [found]
    obtain ⟨_, _, _, same, iff⟩ := stepIff state _ visited stepped
    rw [found] at same
    cases same
    exact iff.mp (keeps state visited _ stepped)
  · intro lossless state visited next stepped
    obtain ⟨first, second, others, found, iff⟩ :=
      stepIff state next visited stepped
    exact iff.mpr (lossless state visited first second others found)

theorem optimizeRowsForSingleAction_narrows
    (some : 0 < columns) {rows : List Row}
    (shape : SameShape columns key rows) {word : BitVec 32}
    (held : Denoted Row.Covers (optimizeRowsForSingleAction rows) word) :
    Denoted Row.Covers rows word :=
  mergeRun_narrows (mergeStep_shape some) (mergeStep_narrows some) _ shape held

theorem optimizeRowsForSingleAction_consistent
    (some : 0 < columns) {rows : List Row}
    (consistent : Consistent columns key rows) :
    Consistent columns key (optimizeRowsForSingleAction rows) :=
  mergeRun_invariant (mergeStep_consistent some) _ consistent

end

end NativeClient.DecoderGenerator
