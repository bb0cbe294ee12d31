import NativeClient.Decoder64.Tiling

/-!
# Where opcode sequences match

The matcher finds a sequence whose bytes come next in memory when at most the
last of them lies past the length limit.
-/

namespace NativeClient.Decoder64

open NativeClient.Library

def window (bytes : Buffer) (count : Nat) : List UInt8 :=
  (List.range count).map bytes

theorem window_succ (bytes : Buffer) (count : Nat) :
    window bytes (count + 1) = window bytes count ++ [bytes count] := by
  rw [window, window, List.range_succ, List.map_append]
  rfl

theorem length_window (bytes : Buffer) (count : Nat) :
    (window bytes count).length = count := by
  rw [window, List.length_map, List.length_range]

theorem dropLast_window (bytes : Buffer) (count : Nat) :
    (window bytes (count + 1)).dropLast = window bytes count := by
  rw [window_succ, List.dropLast_concat]

theorem window_congr
    {bytes other : Buffer} {count : Nat} (same : Below count bytes other) :
    window bytes count = window other count := by
  apply List.map_congr_left
  intro offset member
  exact same offset (List.mem_range.mp member)

theorem window_isPrefix (bytes : Buffer) {shorter longer : Nat}
    (ordered : shorter ≤ longer) :
    window bytes shorter <+: window bytes longer := by
  induction longer, ordered using Nat.le_induction with
  | base => exact List.prefix_rfl
  | succ longer _ ih =>
      rw [window_succ]
      exact ih.trans (List.prefix_append _ _)

/-! ## The trie -/

theorem opcodeSequences_separate :
    ∀ first ∈ opcodeSequences, ∀ second ∈ opcodeSequences,
      first.bytes <+: second.bytes → first.bytes = second.bytes := by
  decide

theorem opcodeSequences_length :
    ∀ sequence ∈ opcodeSequences,
      0 < sequence.bytes.length ∧ sequence.bytes.length ≤ 15 := by
  decide

theorem exists_of_matchingInst
    {path : List UInt8} {inst : NaClInst}
    (found : matchingInst path = some inst) :
    ∃ sequence ∈ opcodeSequences, sequence.bytes = path := by
  obtain ⟨sequence, first, _⟩ := Option.map_eq_some_iff.mp found
  have same := List.find?_some first
  exact ⟨sequence, List.mem_of_find?_eq_some first, by simpa using same⟩

theorem matchingInst_isSome
    {sequence : OpcodeSequence} (member : sequence ∈ opcodeSequences) :
    ∃ inst, matchingInst sequence.bytes = some inst := by
  have found : (opcodeSequences.find? fun other =>
      other.bytes == sequence.bytes).isSome := by
    rw [List.find?_isSome]
    exact ⟨sequence, member, by simp⟩
  obtain ⟨first, same⟩ := Option.isSome_iff_exists.mp found
  exact ⟨first.inst, by rw [matchingInst, same]; rfl⟩

theorem isTrieNode_of_isPrefix
    {sequence : OpcodeSequence} (member : sequence ∈ opcodeSequences)
    {path : List UInt8} (begins : path <+: sequence.bytes) :
    isTrieNode path = true := by
  rw [isTrieNode, List.any_eq_true]
  exact ⟨sequence, member, List.isPrefixOf_iff_prefix.mpr begins⟩

/-! ## The matcher -/

section Matcher

variable {bytes : Buffer} {limit : Nat}

private theorem consumeSequenceFrom_sound
    {fuel depth : Nat} {inst : NaClInst} {length : Nat}
    (inside : depth ≤ limit + 1)
    (ran : consumeSequenceFrom bytes limit fuel (window bytes depth) =
      some (inst, length)) :
    depth ≤ length ∧ length ≤ limit + 1 ∧
      matchingInst (window bytes length) = some inst := by
  induction fuel generalizing depth with
  | zero => cases ran
  | succ fuel ih =>
      rw [consumeSequenceFrom] at ran
      cases found : matchingInst (window bytes depth) with
      | some other =>
          rw [found] at ran
          cases ran
          rw [length_window]
          exact ⟨Nat.le_refl _, inside, found⟩
      | none =>
          rw [found, length_window, ← window_succ] at ran
          dsimp only at ran
          split_ifs at ran with node more
          obtain ⟨deeper, rest⟩ := ih (by omega) ran
          exact ⟨by omega, rest⟩

private theorem consumeSequenceFrom_complete
    {fuel depth length : Nat} {inst : NaClInst}
    (inside : length ≤ limit + 1) (ahead : depth ≤ length)
    (enough : length < depth + fuel)
    (found : matchingInst (window bytes length) = some inst)
    (first : ∀ shorter < length,
      matchingInst (window bytes shorter) = none) :
    consumeSequenceFrom bytes limit fuel (window bytes depth) =
      some (inst, length) := by
  induction fuel generalizing depth with
  | zero => omega
  | succ fuel ih =>
      rw [consumeSequenceFrom]
      rcases Nat.eq_or_lt_of_le ahead with here | deeper
      · rw [here, found, length_window]
      · obtain ⟨sequence, member, same⟩ := exists_of_matchingInst found
        have node : isTrieNode (window bytes (depth + 1)) = true := by
          apply isTrieNode_of_isPrefix member
          rw [same]
          exact window_isPrefix bytes deeper
        rw [first depth deeper, length_window, ← window_succ]
        dsimp only
        rw [if_pos node, if_pos (by omega)]
        exact ih deeper (by omega)

theorem naClConsumeOpcodeSequence_eq_some_iff
    {inst : NaClInst} {length : Nat} :
    naClConsumeOpcodeSequence bytes limit = some (inst, length) ↔
      0 < limit ∧ 0 < length ∧ length ≤ limit + 1 ∧
        matchingInst (window bytes length) = some inst := by
  have start : window bytes 1 = [bytes 0] := rfl
  constructor
  · intro ran
    rw [naClConsumeOpcodeSequence, ← start] at ran
    split_ifs at ran with empty node
    obtain ⟨atLeast, rest⟩ := consumeSequenceFrom_sound (by omega) ran
    exact ⟨Nat.pos_of_ne_zero empty, atLeast, rest⟩
  · intro ⟨room, positive, inside, found⟩
    obtain ⟨sequence, member, same⟩ := exists_of_matchingInst found
    have begins : ∀ shorter ≤ length,
        window bytes shorter <+: sequence.bytes := by
      intro shorter ordered
      rw [same]
      exact window_isPrefix bytes ordered
    have bounded := (opcodeSequences_length sequence member).2
    rw [same, length_window] at bounded
    rw [naClConsumeOpcodeSequence, ← start, if_neg (by omega),
      if_pos (isTrieNode_of_isPrefix member (begins 1 positive))]
    apply consumeSequenceFrom_complete inside positive _ found
    · intro shorter less
      cases other : matchingInst (window bytes shorter) with
      | none => rfl
      | some early =>
          obtain ⟨second, secondMember, secondSame⟩ :=
            exists_of_matchingInst other
          have equal := opcodeSequences_separate second secondMember sequence
            member (by rw [secondSame]; exact begins shorter (by omega))
          have lengths := congrArg List.length equal
          rw [secondSame, same, length_window, length_window] at lengths
          omega
    · rw [trieDepth]
      omega

end Matcher

/-! ## Truncated sequences -/

def Truncated (bytes : Buffer) (left : Nat) : Prop :=
  ∃ sequence ∈ opcodeSequences, sequence.bytes.dropLast = window bytes left

theorem Truncated.congr
    {bytes other : Buffer} {left : Nat} (same : Below left bytes other) :
    Truncated bytes left ↔ Truncated other left := by
  rw [Truncated, Truncated, window_congr same]

theorem consumeOpcodeSequence_inside
    {bytes : Buffer} {left : Nat} (whole : ¬ Truncated bytes left)
    {inst : NaClInst} {length : Nat}
    (found : naClConsumeOpcodeSequence bytes
      (min left naclMaxBytesPerX86Instruction) = some (inst, length)) :
    length ≤ min left naclMaxBytesPerX86Instruction := by
  obtain ⟨room, positive, inside, matched⟩ :=
    naClConsumeOpcodeSequence_eq_some_iff.mp found
  by_contra beyond
  obtain ⟨sequence, member, same⟩ := exists_of_matchingInst matched
  have bounded := (opcodeSequences_length sequence member).2
  rw [same, length_window] at bounded
  rw [naclMaxBytesPerX86Instruction] at beyond inside
  have last : length = left + 1 := by omega
  apply whole
  refine ⟨sequence, member, ?_⟩
  rw [same, last, dropLast_window]

end NativeClient.Decoder64
