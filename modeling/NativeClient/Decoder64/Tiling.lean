import NativeClient.Decoder64.InstState
import Mathlib.Data.List.Basic

/-!
# What a decoded instruction covers

Outside the opcode sequences, decoding takes at least one byte, takes no byte
at or past the length limit, and depends on no such byte.
-/

namespace NativeClient.Decoder64

open NativeClient.Library
open NativeClient.Decoder (modrmMod modrmRm modrmReg modrmOpcode sibBase
  kPrefixDATA16 kPrefixADDR16 kPrefixREPNE kPrefixREP kPrefixLOCK)

/-- The two memories hold the same bytes below `limit`. -/
def Below (limit : Nat) (bytes other : Buffer) : Prop :=
  ∀ offset < limit, bytes offset = other offset

/-- `next` has taken more bytes than `state`, all below the limit. -/
structure Extends (state next : NaClInstState) : Prop where
  limit : next.lengthLimit = state.lengthLimit
  more : state.length ≤ next.length
  bounded : next.length ≤ next.lengthLimit

theorem Extends.trans
    {first second third : NaClInstState} (start : Extends first second)
    (rest : Extends second third) :
    Extends first third where
  limit := rest.limit.trans start.limit
  more := Nat.le_trans start.more rest.more
  bounded := rest.bounded

structure Contained (step : Buffer → NaClInstState → Option NaClInstState) :
    Prop where
  taken : ∀ {bytes : Buffer} {state next : NaClInstState},
    state.length ≤ state.lengthLimit → step bytes state = some next →
      Extends state next
  closed : ∀ {bytes other : Buffer} {state : NaClInstState},
    state.length ≤ state.lengthLimit →
      Below state.lengthLimit bytes other → step bytes state = step other state

theorem Contained.bind
    {first second : Buffer → NaClInstState → Option NaClInstState}
    (start : Contained first) (rest : Contained second) :
    Contained fun bytes state => (first bytes state).bind (second bytes) where
  taken := by
    intro bytes state next inside ran
    obtain ⟨between, began, ended⟩ := Option.bind_eq_some_iff.mp ran
    have reached := start.taken inside began
    exact reached.trans (rest.taken reached.bounded ended)
  closed := by
    intro bytes other state inside same
    rw [← start.closed inside same]
    cases began : first bytes state with
    | none => rfl
    | some between =>
        have reached := start.taken inside began
        rw [← reached.limit] at same
        exact rest.closed reached.bounded same

/-! ## The steps of a match -/

theorem operandSize_contained :
    Contained fun _ => naClConsumeAndCheckOperandSize where
  taken := by
    intro bytes state next inside ran
    rw [naClConsumeAndCheckOperandSize] at ran
    split_ifs at ran
    cases ran
    exact ⟨rfl, Nat.le_refl _, inside⟩
  closed := fun _ _ => rfl

theorem addressSize_contained :
    Contained fun _ => naClConsumeAndCheckAddressSize where
  taken := by
    intro bytes state next inside ran
    rw [naClConsumeAndCheckAddressSize] at ran
    split_ifs at ran
    cases ran
    exact ⟨rfl, Nat.le_refl _, inside⟩
  closed := fun _ _ => rfl

theorem modRm_contained : Contained naClConsumeModRm where
  taken := by
    intro bytes state next inside ran
    rw [naClConsumeModRm] at ran
    split_ifs at ran with uses full allowed
    · cases ran
      exact ⟨rfl, Nat.le_succ _, not_le.mp full⟩
    · cases ran
      exact ⟨rfl, Nat.le_refl _, inside⟩
  closed := by
    intro bytes other state inside same
    rw [naClConsumeModRm, naClConsumeModRm]
    by_cases full : state.lengthLimit ≤ state.length
    · rw [if_pos full, if_pos full]
    · rw [same state.length (not_le.mp full)]

theorem sib_contained : Contained naClConsumeSib where
  taken := by
    intro bytes state next inside ran
    rw [naClConsumeSib] at ran
    split_ifs at ran with requires full bad
    · cases ran
      exact ⟨rfl, Nat.le_succ _, not_le.mp full⟩
    · cases ran
      exact ⟨rfl, Nat.le_refl _, inside⟩
  closed := by
    intro bytes other state inside same
    rw [naClConsumeSib, naClConsumeSib]
    by_cases full : state.lengthLimit ≤ state.length
    · rw [if_pos full, if_pos full]
    · rw [same state.length (not_le.mp full)]

theorem dispBytes_contained :
    Contained fun _ => naClConsumeDispBytes where
  taken := by
    intro bytes state next inside ran
    simp only [naClConsumeDispBytes] at ran
    split_ifs at ran with full
    cases ran
    refine ⟨rfl, Nat.le_add_right _ _, ?_⟩
    dsimp only
    omega
  closed := fun _ _ => rfl

theorem immediateBytes_contained :
    Contained fun _ => naClConsumeImmediateBytes where
  taken := by
    intro bytes state next inside ran
    obtain ⟨between, began, ended⟩ := Option.bind_eq_some_iff.mp ran
    have first : Extends state between := by
      simp only [consumeImmediate] at began
      split_ifs at began with none_ full
      · cases began
        exact ⟨rfl, Nat.le_refl _, inside⟩
      · cases began
        exact ⟨rfl, Nat.le_add_right _ _, not_lt.mp full⟩
    have bounded := first.bounded
    have second : Extends between next := by
      simp only [consumeImmediate2] at ended
      split_ifs at ended with full
      cases ended
      refine ⟨rfl, Nat.le_add_right _ _, ?_⟩
      dsimp only
      omega
    exact first.trans second
  closed := fun _ _ => rfl

variable {bytes other : Buffer} {state : NaClInstState} {tables : Tables}
  {opcodeLength limit : Nat} {matched : NaClInstPrefix}
  {desc : NaClInstPrefixDescriptor}

theorem expVector_closed
    (tables : Tables)
    (inside : state.length ≤ state.lengthLimit)
    (same : Below state.lengthLimit bytes other) :
    state.expVector tables bytes = state.expVector tables other := by
  rw [NaClInstState.expVector, NaClInstState.expVector]
  rw [tables.reads bytes other state]
  intro offset below
  exact same offset (Nat.lt_of_lt_of_le below inside)

theorem prefixFlags_contained (tables : Tables) :
    Contained (naClValidatePrefixFlags tables) where
  taken := by
    intro bytes state next inside ran
    rw [naClValidatePrefixFlags] at ran
    split_ifs at ran
    · cases ran
      exact ⟨rfl, Nat.le_refl _, inside⟩
    · cases ran
      exact ⟨rfl, Nat.le_refl _, inside⟩
  closed := by
    intro bytes other state inside same
    rw [naClValidatePrefixFlags, naClValidatePrefixFlags,
      expVector_closed tables inside same]

theorem matchInst_contained (tables : Tables) :
    Contained (matchInst tables) :=
  operandSize_contained.bind <| addressSize_contained.bind <|
    modRm_contained.bind <| sib_contained.bind <| dispBytes_contained.bind <|
    immediateBytes_contained.bind (prefixFlags_contained tables)

theorem matchInst_immediate
    {found : NaClInstState}
    (ran : matchInst tables bytes state = some found)
    (present : found.numImmBytes ≠ 0) :
    found.firstImmByte < found.lengthLimit := by
  simp only [matchInst, Option.bind_eq_bind, Option.bind_eq_some_iff] at ran
  obtain ⟨_, _, _, _, _, _, _, _, disp, _, immediate, consumed, valid⟩ := ran
  obtain ⟨between, first, second⟩ := Option.bind_eq_some_iff.mp consumed
  have kept : found.numImmBytes = between.numImmBytes ∧
      found.firstImmByte = between.firstImmByte ∧
      found.lengthLimit = between.lengthLimit := by
    simp only [consumeImmediate2] at second
    split_ifs at second
    cases second
    rw [naClValidatePrefixFlags] at valid
    split_ifs at valid <;> cases valid <;> exact ⟨rfl, rfl, rfl⟩
  obtain ⟨count, start, limit⟩ := kept
  rw [count] at present
  rw [start, limit]
  simp only [consumeImmediate] at first
  split_ifs at first with none_ full
  · cases first
    exact absurd rfl present
  · cases first
    dsimp only
    omega

/-! ## The search -/

theorem matchCandidates_taken
    {found : NaClInstState}
    {candidates : List NaClInst}
    (inside : opcodeLength ≤ state.lengthLimit)
    (ran : matchCandidates tables bytes state opcodeLength candidates =
      some found) :
    opcodeLength ≤ found.length ∧ found.length ≤ state.lengthLimit := by
  induction candidates with
  | nil => cases ran
  | cons inst rest ih =>
      rw [matchCandidates] at ran
      cases matched : matchInst tables bytes
          (tryInst state opcodeLength inst) with
      | none =>
          rw [matched] at ran
          exact ih ran
      | some next =>
          rw [matched] at ran
          cases ran
          have reached := (matchInst_contained tables).taken inside matched
          have kept : (replace3DNow tables bytes next).length =
              next.length := by
            rw [replace3DNow]
            split_ifs
            · split <;> rfl
            · rfl
          have bounded := reached.bounded
          rw [reached.limit] at bounded
          rw [kept]
          exact ⟨reached.more, bounded⟩

theorem replace3DNow_closed
    {next : NaClInstState}
    (matched : matchInst tables bytes state = some next)
    (same : Below next.lengthLimit bytes other) :
    replace3DNow tables bytes next = replace3DNow tables other next := by
  rw [replace3DNow, replace3DNow]
  by_cases single : next.numImmBytes = 1
  · rw [same next.firstImmByte (matchInst_immediate matched (by omega))]
  · rw [if_neg (fun both => single both.2), if_neg (fun both => single both.2)]

theorem matchCandidates_closed
    (tables : Tables) (state : NaClInstState)
    (candidates : List NaClInst)
    (inside : opcodeLength ≤ state.lengthLimit)
    (same : Below state.lengthLimit bytes other) :
    matchCandidates tables bytes state opcodeLength candidates =
      matchCandidates tables other state opcodeLength candidates := by
  induction candidates with
  | nil => rfl
  | cons inst rest ih =>
      have start : (tryInst state opcodeLength inst).length ≤
          (tryInst state opcodeLength inst).lengthLimit := inside
      rw [matchCandidates, matchCandidates, ih,
        ← (matchInst_contained tables).closed start same]
      cases matched : matchInst tables bytes
          (tryInst state opcodeLength inst) with
      | none => rfl
      | some next =>
          have reached := (matchInst_contained tables).taken start matched
          rw [← show next.lengthLimit = state.lengthLimit from reached.limit]
            at same
          exact congrArg some (replace3DNow_closed matched same)

private theorem simplerPrefix_simplest
    {simpler : NaClInstPrefix}
    (next : simplerPrefix matched = some simpler) :
    simplerPrefix simpler = none := by
  cases matched <;> cases next <;> rfl

private theorem not_adjusts_of_simplest
    (simplest : simplerPrefix matched = none) :
    adjustsLength matched = false := by
  cases matched <;> first | rfl | cases simplest

structure Lookup (limit : Nat) (desc : NaClInstPrefixDescriptor)
    (opcodeLength : Nat) : Prop where
  bounded : opcodeLength ≤ limit
  opened : ∀ matched, desc.matchedPrefix = some matched →
    desc.nextLengthAdjustment = false →
      1 ≤ opcodeLength ∧ (adjustsLength matched = true → 2 ≤ opcodeLength)
  adjusted : ∀ matched, desc.matchedPrefix = some matched →
    desc.nextLengthAdjustment = true →
      2 ≤ opcodeLength ∧ simplerPrefix matched = none

private def lookupLength (desc : NaClInstPrefixDescriptor)
    (opcodeLength : Nat) : Nat :=
  if desc.nextLengthAdjustment then opcodeLength - 1 else opcodeLength

private theorem Lookup.length
    (lookup : Lookup limit desc opcodeLength)
    (some_ : desc.matchedPrefix = some matched) :
    1 ≤ lookupLength desc opcodeLength ∧
      lookupLength desc opcodeLength ≤ limit := by
  have bounded := lookup.bounded
  rw [lookupLength]
  cases adjust : desc.nextLengthAdjustment with
  | false =>
      have opened := (lookup.opened matched some_ adjust).1
      simp only [Bool.false_eq_true, if_false]
      omega
  | true =>
      have adjusted := (lookup.adjusted matched some_ adjust).1
      simp only [if_true]
      omega

private theorem Lookup.next
    (lookup : Lookup limit desc opcodeLength)
    (some_ : desc.matchedPrefix = some matched)
    (byte : UInt8) :
    Lookup limit
      ⟨byte, simplerPrefix matched,
        desc.nextLengthAdjustment || adjustsLength matched⟩
      (lookupLength desc opcodeLength) where
  bounded := (lookup.length some_).2
  opened := by
    intro simpler next unadjusted
    refine ⟨(lookup.length some_).1, ?_⟩
    intro adjusts
    rw [not_adjusts_of_simplest (simplerPrefix_simplest next)] at adjusts
    cases adjusts
  adjusted := by
    intro simpler next adjusted
    refine ⟨?_, simplerPrefix_simplest next⟩
    dsimp only at next adjusted
    cases adjust : desc.nextLengthAdjustment with
    | true =>
        rw [(lookup.adjusted matched some_ adjust).2] at next
        cases next
    | false =>
        rw [adjust, Bool.false_or] at adjusted
        rw [lookupLength, adjust]
        exact (lookup.opened matched some_ adjust).2 adjusted

theorem searchCandidates_taken
    (tables : Tables) (bytes : Buffer) (fuel : Nat)
    (lookup : Lookup state.lengthLimit desc opcodeLength)
    (positive : 0 < opcodeLength) :
    (0 < (searchCandidates tables bytes state fuel desc opcodeLength).2 ∧
        (searchCandidates tables bytes state fuel desc opcodeLength).2 ≤
          state.lengthLimit) ∧
      ∀ found, (searchCandidates tables bytes state fuel desc
          opcodeLength).1 = some found →
        0 < found.length ∧ found.length ≤ state.lengthLimit := by
  induction fuel generalizing desc opcodeLength with
  | zero =>
      refine ⟨⟨positive, lookup.bounded⟩, ?_⟩
      intro found none_
      cases none_
  | succ fuel ih =>
      rw [searchCandidates]
      cases prefix_ : desc.matchedPrefix with
      | none =>
          refine ⟨⟨positive, lookup.bounded⟩, ?_⟩
          intro found none_
          cases none_
      | some matched =>
          obtain ⟨atLeast, atMost⟩ := lookup.length prefix_
          rw [lookupLength] at atLeast atMost
          dsimp only
          split
          · rename_i found ran
            have taken := matchCandidates_taken atMost ran
            refine ⟨⟨atLeast, atMost⟩, ?_⟩
            intro other same
            cases same
            exact ⟨Nat.lt_of_lt_of_le atLeast taken.1, taken.2⟩
          · exact ih (lookup.next prefix_ _) atLeast

theorem searchCandidates_closed
    (fuel : Nat)
    (lookup : Lookup state.lengthLimit desc opcodeLength)
    (same : Below state.lengthLimit bytes other) :
    searchCandidates tables bytes state fuel desc opcodeLength =
      searchCandidates tables other state fuel desc opcodeLength := by
  induction fuel generalizing desc opcodeLength with
  | zero => rfl
  | succ fuel ih =>
      rw [searchCandidates, searchCandidates]
      cases prefix_ : desc.matchedPrefix with
      | none => rfl
      | some matched =>
          obtain ⟨atLeast, atMost⟩ := lookup.length prefix_
          have byte : bytes (lookupLength desc opcodeLength - 1) =
              other (lookupLength desc opcodeLength - 1) :=
            same _ (by omega)
          rw [lookupLength] at atLeast atMost byte
          dsimp only
          rw [byte, matchCandidates_closed tables state _ atMost same]
          split
          · rfl
          · exact ih (lookup.next prefix_ _)

/-! ## Prefix and opcode bytes -/

theorem takePrefixByte_length (byte : UInt8) (state : NaClInstState) :
    (takePrefixByte byte state).length = state.length + 1 ∧
      (takePrefixByte byte state).lengthLimit = state.lengthLimit := by
  rw [takePrefixByte]
  dsimp only
  split_ifs <;> exact ⟨rfl, rfl⟩

theorem consumePrefixLoop_taken
    (bytes : Buffer) (left : Nat) (rexIndex : Option Nat)
    (inside : state.length ≤ state.lengthLimit) :
    Extends state (consumePrefixLoop bytes left rexIndex state).2 := by
  induction left generalizing rexIndex state with
  | zero => exact ⟨rfl, Nat.le_refl _, inside⟩
  | succ left ih =>
      rw [consumePrefixLoop]
      by_cases full : state.lengthLimit ≤ state.length
      · rw [if_pos full]
        exact ⟨rfl, Nat.le_refl _, inside⟩
      rw [if_neg full]
      by_cases other : kNaClPrefixTable (bytes state.length) = 0
      · rw [if_pos other]
        exact ⟨rfl, Nat.le_refl _, inside⟩
      · rw [if_neg other]
        obtain ⟨length, limit⟩ :=
          takePrefixByte_length (bytes state.length) state
        have took : Extends state
            (takePrefixByte (bytes state.length) state) :=
          ⟨limit, by omega, by omega⟩
        exact took.trans (ih _ took.bounded)

theorem consumePrefixLoop_closed
    (left : Nat) (rexIndex : Option Nat)
    (same : Below state.lengthLimit bytes other) :
    consumePrefixLoop bytes left rexIndex state =
      consumePrefixLoop other left rexIndex state := by
  induction left generalizing rexIndex state with
  | zero => rfl
  | succ left ih =>
      rw [consumePrefixLoop, consumePrefixLoop]
      by_cases full : state.lengthLimit ≤ state.length
      · rw [if_pos full, if_pos full]
      · rw [same state.length (not_le.mp full), ih]
        rw [(takePrefixByte_length _ state).2]
        exact same

theorem naClConsumePrefixBytes_snd (bytes : Buffer) (state : NaClInstState) :
    (naClConsumePrefixBytes bytes state).2 =
      (consumePrefixLoop bytes kNaClMaximumPrefixBytes none state).2 := by
  rw [naClConsumePrefixBytes]
  split <;> rename_i consumed ran <;> rw [ran]

/-- Opcode bytes are taken below the limit, at least one when there is room,
and the lookup that follows is one that the search can make. -/
structure Opens (state : NaClInstState)
    (result : NaClInstPrefixDescriptor × NaClInstState) : Prop where
  extended : Extends state result.2
  positive : 0 < state.lengthLimit → 0 < result.2.length
  lookup : Lookup state.lengthLimit result.1 result.2.length

private theorem lookup_of_unadjusted
    (bounded : opcodeLength ≤ limit)
    (positive : 0 < opcodeLength) (byte : UInt8)
    {matchedPrefix : Option NaClInstPrefix}
    (x87 : ∀ matched, matchedPrefix = some matched →
      adjustsLength matched = true → 2 ≤ opcodeLength) :
    Lookup limit ⟨byte, matchedPrefix, false⟩ opcodeLength where
  bounded := bounded
  opened := fun matched some_ _ => ⟨positive, x87 matched some_⟩
  adjusted := fun _ _ adjusted => by cases adjusted

private theorem takeOpcodeByte_extends
    (room : state.length < state.lengthLimit) :
    Extends state (takeOpcodeByte state) :=
  ⟨rfl, Nat.le_succ _, room⟩

private theorem opens_of_extends
    {next : NaClInstState} (extended : Extends state next)
    (positive : 0 < next.length) (byte : UInt8)
    {matchedPrefix : Option NaClInstPrefix}
    (x87 : ∀ matched, matchedPrefix = some matched →
      adjustsLength matched = true → 2 ≤ next.length) :
    Opens state (⟨byte, matchedPrefix, false⟩, next) where
  extended := extended
  positive := fun _ => positive
  lookup := by
    have bounded := extended.bounded
    rw [extended.limit] at bounded
    exact lookup_of_unadjusted bounded positive byte x87

private theorem consume0F38XX_opens
    (bytes : Buffer) {next : NaClInstState}
    (extended : Extends state next) (positive : 0 < next.length) :
    Opens state (naClConsume0F38XXNaClInstBytes bytes next) := by
  rw [naClConsume0F38XXNaClInstBytes]
  by_cases full : next.lengthLimit ≤ next.length
  · rw [if_pos full]
    exact opens_of_extends extended positive _ (fun _ none_ => by cases none_)
  · rw [if_neg full]
    apply opens_of_extends
      (extended.trans (takeOpcodeByte_extends (not_le.mp full)))
      (Nat.succ_pos _)
    intro matched some_ adjusts
    split_ifs at some_ <;> cases some_ <;> cases adjusts

private theorem consume0F3AXX_opens
    (bytes : Buffer) {next : NaClInstState}
    (extended : Extends state next) (positive : 0 < next.length) :
    Opens state (naClConsume0F3AXXNaClInstBytes bytes next) := by
  rw [naClConsume0F3AXXNaClInstBytes]
  by_cases full : next.lengthLimit ≤ next.length
  · rw [if_pos full]
    exact opens_of_extends extended positive _ (fun _ none_ => by cases none_)
  · rw [if_neg full]
    apply opens_of_extends
      (extended.trans (takeOpcodeByte_extends (not_le.mp full)))
      (Nat.succ_pos _)
    intro matched some_ adjusts
    split_ifs at some_ <;> cases some_ <;> cases adjusts

private theorem consume0FXX_opens
    (byte : UInt8) {next : NaClInstState}
    (extended : Extends state next) (positive : 0 < next.length) :
    Opens state (naClConsume0FXXNaClInstBytes byte next) := by
  rw [naClConsume0FXXNaClInstBytes]
  apply opens_of_extends extended positive
  intro matched some_ adjusts
  split_ifs at some_ <;> cases some_ <;> cases adjusts

private theorem consumeSecondOpcodeByte_opens
    (bytes : Buffer) {next : NaClInstState}
    (extended : Extends state next) (positive : 0 < next.length) :
    Opens state (consumeSecondOpcodeByte bytes next) := by
  rw [consumeSecondOpcodeByte]
  by_cases full : next.lengthLimit ≤ next.length
  · rw [if_pos full]
    exact opens_of_extends extended positive _ (fun _ none_ => by cases none_)
  rw [if_neg full]
  have took := extended.trans (takeOpcodeByte_extends (not_le.mp full))
  split_ifs
  · exact consume0F38XX_opens bytes took (Nat.succ_pos _)
  · exact consume0F3AXX_opens bytes took (Nat.succ_pos _)
  · exact consume0FXX_opens _ took (Nat.succ_pos _)

private theorem consumeX87_opens
    (bytes : Buffer) (byte : UInt8) (matched : NaClInstPrefix)
    {next : NaClInstState} (extended : Extends state next)
    (positive : 0 < next.length) :
    Opens state (naClConsumeX87NaClInstBytes bytes byte matched next) := by
  rw [naClConsumeX87NaClInstBytes]
  split_ifs with room
  · apply opens_of_extends (extended.trans (takeOpcodeByte_extends room))
      (Nat.succ_pos _)
    intro _ _ _
    exact Nat.succ_le_succ positive
  · apply opens_of_extends extended positive
    intro other some_ adjusts
    cases some_
    cases adjusts

theorem naClConsumeInstBytes_opens
    (bytes : Buffer)
    (inside : state.length ≤ state.lengthLimit) :
    Opens state (naClConsumeInstBytes bytes state) := by
  rw [naClConsumeInstBytes]
  by_cases full : state.lengthLimit ≤ state.length
  · rw [if_pos full]
    refine ⟨⟨rfl, Nat.le_refl _, inside⟩, ?_, inside, ?_, ?_⟩
    · intro positive
      exact Nat.lt_of_lt_of_le positive full
    · intro matched none_
      cases none_
    · intro matched none_
      cases none_
  rw [if_neg full]
  have took := takeOpcodeByte_extends (not_le.mp full)
  split_ifs
  · exact consumeSecondOpcodeByte_opens bytes took (Nat.succ_pos _)
  · split
    · exact consumeX87_opens bytes _ _ took (Nat.succ_pos _)
    · apply opens_of_extends took (Nat.succ_pos _)
      intro matched some_ adjusts
      cases some_
      cases adjusts

section Closed

variable {bytes other : Buffer} {state : NaClInstState}

variable (same : Below state.lengthLimit bytes other)

include same

private theorem consume0F38XX_closed :
    naClConsume0F38XXNaClInstBytes bytes state =
      naClConsume0F38XXNaClInstBytes other state := by
  rw [naClConsume0F38XXNaClInstBytes, naClConsume0F38XXNaClInstBytes]
  by_cases full : state.lengthLimit ≤ state.length
  · rw [if_pos full, if_pos full]
  · rw [same state.length (not_le.mp full)]

private theorem consume0F3AXX_closed :
    naClConsume0F3AXXNaClInstBytes bytes state =
      naClConsume0F3AXXNaClInstBytes other state := by
  rw [naClConsume0F3AXXNaClInstBytes, naClConsume0F3AXXNaClInstBytes]
  by_cases full : state.lengthLimit ≤ state.length
  · rw [if_pos full, if_pos full]
  · rw [same state.length (not_le.mp full)]

private theorem consumeSecondOpcodeByte_closed :
    consumeSecondOpcodeByte bytes state =
      consumeSecondOpcodeByte other state := by
  have next : Below (takeOpcodeByte state).lengthLimit bytes other := same
  rw [consumeSecondOpcodeByte, consumeSecondOpcodeByte,
    consume0F38XX_closed next, consume0F3AXX_closed next]
  by_cases full : state.lengthLimit ≤ state.length
  · rw [if_pos full, if_pos full]
  · rw [same state.length (not_le.mp full)]

private theorem consumeX87_closed
    (byte : UInt8)
    (matched : NaClInstPrefix) :
    naClConsumeX87NaClInstBytes bytes byte matched state =
      naClConsumeX87NaClInstBytes other byte matched state := by
  rw [naClConsumeX87NaClInstBytes, naClConsumeX87NaClInstBytes]
  by_cases room : state.length < state.lengthLimit
  · rw [same state.length room]
  · rw [if_neg room, if_neg room]

theorem naClConsumeInstBytes_closed :
    naClConsumeInstBytes bytes state = naClConsumeInstBytes other state := by
  have next : Below (takeOpcodeByte state).lengthLimit bytes other := same
  rw [naClConsumeInstBytes, naClConsumeInstBytes,
    consumeSecondOpcodeByte_closed next]
  by_cases full : state.lengthLimit ≤ state.length
  · rw [if_pos full, if_pos full]
  · rw [same state.length (not_le.mp full)]
    cases x87Prefix (other state.length) with
    | none => rfl
    | some matched =>
        dsimp only
        rw [consumeX87_closed next]

end Closed

/-! ## Decoding by opcode -/

private theorem undefinedInst_taken
    (inside : opcodeLength ≤ state.lengthLimit)
    (room : 0 < state.lengthLimit) :
    0 < (undefinedInst state opcodeLength).length ∧
      (undefinedInst state opcodeLength).length ≤ state.lengthLimit := by
  rw [undefinedInst]
  dsimp only
  split_ifs with empty
  · exact ⟨Nat.one_pos, room⟩
  · omega

theorem decodeByOpcode_taken
    (tables : Tables) (bytes : Buffer)
    (inside : state.length ≤ state.lengthLimit)
    (room : 0 < state.lengthLimit) :
    0 < (decodeByOpcode tables bytes state).length ∧
      (decodeByOpcode tables bytes state).length ≤ state.lengthLimit := by
  have consumed := consumePrefixLoop_taken bytes kNaClMaximumPrefixBytes none
    inside
  rw [← naClConsumePrefixBytes_snd] at consumed
  rw [decodeByOpcode]
  generalize naClConsumePrefixBytes bytes state = result at consumed ⊢
  obtain ⟨rexLast, prefixed⟩ := result
  dsimp only at consumed
  have prefixedRoom : 0 < prefixed.lengthLimit := by
    rw [consumed.limit]
    exact room
  cases rexLast with
  | false =>
      have undefined := undefinedInst_taken (Nat.zero_le prefixed.lengthLimit)
        prefixedRoom
      rw [consumed.limit] at undefined
      exact undefined
  | true =>
      have opens := naClConsumeInstBytes_opens bytes consumed.bounded
      dsimp only at opens ⊢
      generalize naClConsumeInstBytes bytes prefixed = result at opens ⊢
      obtain ⟨desc, opened⟩ := result
      have limit : opened.lengthLimit = state.lengthLimit :=
        opens.extended.limit.trans consumed.limit
      have lookup := opens.lookup
      rw [← opens.extended.limit] at lookup
      have taken := searchCandidates_taken tables bytes searchFuel lookup
        (opens.positive prefixedRoom)
      dsimp only at taken ⊢
      generalize searchCandidates tables bytes opened searchFuel desc
        opened.length = search at taken ⊢
      obtain ⟨found, opcodeLength⟩ := search
      cases found with
      | none =>
          have undefined := undefinedInst_taken taken.1.2
            (by rw [limit]; exact room)
          rw [limit] at undefined
          exact undefined
      | some found =>
          have result := taken.2 found rfl
          rw [limit] at result
          exact result

theorem decodeByOpcode_closed
    (tables : Tables)
    (inside : state.length ≤ state.lengthLimit)
    (same : Below state.lengthLimit bytes other) :
    decodeByOpcode tables bytes state = decodeByOpcode tables other state := by
  have consumed := consumePrefixLoop_taken bytes kNaClMaximumPrefixBytes none
    inside
  rw [← naClConsumePrefixBytes_snd] at consumed
  have prefixes : naClConsumePrefixBytes other state =
      naClConsumePrefixBytes bytes state := by
    rw [naClConsumePrefixBytes, naClConsumePrefixBytes,
      consumePrefixLoop_closed _ _ same]
  rw [decodeByOpcode, decodeByOpcode, prefixes]
  generalize naClConsumePrefixBytes bytes state = result at consumed ⊢
  obtain ⟨rexLast, prefixed⟩ := result
  dsimp only at consumed
  cases rexLast with
  | false => rfl
  | true =>
      have opens := naClConsumeInstBytes_opens bytes consumed.bounded
      have prefixedSame : Below prefixed.lengthLimit bytes other := by
        rw [consumed.limit]
        exact same
      dsimp only at opens ⊢
      rw [← naClConsumeInstBytes_closed prefixedSame]
      generalize naClConsumeInstBytes bytes prefixed = result at opens ⊢
      obtain ⟨desc, opened⟩ := result
      have lookup := opens.lookup
      rw [← opens.extended.limit] at lookup prefixedSame
      dsimp only
      rw [searchCandidates_closed searchFuel lookup prefixedSame]

end NativeClient.Decoder64
