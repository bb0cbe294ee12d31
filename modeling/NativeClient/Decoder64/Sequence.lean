import NativeClient.Decoder64.InstIter
import Mathlib.Order.Monotone.Basic

/-!
# The instructions of a segment

The sequential decode of a segment: the offsets at which the iterator stops,
and the instructions there with their operand trees.
-/

namespace NativeClient.Decoder64

open NativeClient.Library

/-! ## Decoding stays in place -/

structure SamePlace (state next : NaClInstState) : Prop where
  mpc : next.mpc = state.mpc
  vpc : next.vpc = state.vpc

theorem SamePlace.trans
    {first second third : NaClInstState} (start : SamePlace first second)
    (rest : SamePlace second third) :
    SamePlace first third :=
  ⟨rest.mpc.trans start.mpc, rest.vpc.trans start.vpc⟩

variable {state next found : NaClInstState} {bytes : Buffer} {tables : Tables}

private theorem sizes_samePlace
    {sized addressed : NaClInstState}
    (operand : naClConsumeAndCheckOperandSize state = some sized)
    (address : naClConsumeAndCheckAddressSize sized = some addressed) :
    SamePlace state addressed := by
  rw [naClConsumeAndCheckOperandSize] at operand
  rw [naClConsumeAndCheckAddressSize] at address
  split_ifs at operand
  split_ifs at address
  cases operand
  cases address
  exact ⟨rfl, rfl⟩

private theorem modRm_samePlace
    (ran : naClConsumeModRm bytes state = some next) :
    SamePlace state next := by
  rw [naClConsumeModRm] at ran
  split_ifs at ran
  · cases ran
    exact ⟨rfl, rfl⟩
  · cases ran
    exact ⟨rfl, rfl⟩

private theorem sib_samePlace
    (ran : naClConsumeSib bytes state = some next) :
    SamePlace state next := by
  rw [naClConsumeSib] at ran
  split_ifs at ran
  · cases ran
    exact ⟨rfl, rfl⟩
  · cases ran
    exact ⟨rfl, rfl⟩

private theorem dispBytes_samePlace
    (ran : naClConsumeDispBytes state = some next) :
    SamePlace state next := by
  simp only [naClConsumeDispBytes] at ran
  split_ifs at ran
  cases ran
  exact ⟨rfl, rfl⟩

private theorem immediateBytes_samePlace
    (ran : naClConsumeImmediateBytes state = some next) :
    SamePlace state next := by
  obtain ⟨between, began, ended⟩ := Option.bind_eq_some_iff.mp ran
  have first : SamePlace state between := by
    simp only [consumeImmediate] at began
    split_ifs at began
    · cases began
      exact ⟨rfl, rfl⟩
    · cases began
      exact ⟨rfl, rfl⟩
  have second : SamePlace between next := by
    simp only [consumeImmediate2] at ended
    split_ifs at ended
    cases ended
    exact ⟨rfl, rfl⟩
  exact first.trans second

private theorem prefixFlags_samePlace
    (ran : naClValidatePrefixFlags tables bytes state = some next) :
    SamePlace state next := by
  rw [naClValidatePrefixFlags] at ran
  split_ifs at ran
  · cases ran
    exact ⟨rfl, rfl⟩
  · cases ran
    exact ⟨rfl, rfl⟩

private theorem matchInst_samePlace
    (ran : matchInst tables bytes state = some found) :
    SamePlace state found := by
  simp only [matchInst, Option.bind_eq_bind, Option.bind_eq_some_iff] at ran
  obtain ⟨_, operand, _, address, _, modrm, _, sib, _, disp, _, immediate,
    valid⟩ := ran
  exact (sizes_samePlace operand address).trans <|
    (modRm_samePlace modrm).trans <| (sib_samePlace sib).trans <|
    (dispBytes_samePlace disp).trans <|
    (immediateBytes_samePlace immediate).trans (prefixFlags_samePlace valid)

private theorem replace3DNow_samePlace
    (tables : Tables) (bytes : Buffer) (state : NaClInstState) :
    SamePlace state (replace3DNow tables bytes state) := by
  rw [replace3DNow]
  split_ifs
  · split
    · exact ⟨rfl, rfl⟩
    · exact ⟨rfl, rfl⟩
  · exact ⟨rfl, rfl⟩

private theorem matchCandidates_samePlace
    {opcodeLength : Nat} {candidates : List NaClInst}
    (ran : matchCandidates tables bytes state opcodeLength candidates =
      some found) :
    SamePlace state found := by
  induction candidates with
  | nil => cases ran
  | cons inst rest ih =>
      rw [matchCandidates] at ran
      cases matched : matchInst tables bytes
          (tryInst state opcodeLength inst) with
      | none =>
          rw [matched] at ran
          exact ih ran
      | some next =>
          rw [matched] at ran
          cases ran
          have kept := matchInst_samePlace matched
          have start : SamePlace state next := ⟨kept.mpc, kept.vpc⟩
          exact start.trans (replace3DNow_samePlace tables bytes next)

private theorem searchCandidates_samePlace
    {fuel : Nat} {desc : NaClInstPrefixDescriptor} {opcodeLength : Nat}
    (ran : (searchCandidates tables bytes state fuel desc opcodeLength).1 =
      some found) :
    SamePlace state found := by
  induction fuel generalizing desc opcodeLength with
  | zero => cases ran
  | succ fuel ih =>
      rw [searchCandidates] at ran
      cases looked : desc.matchedPrefix with
      | none =>
          rw [looked] at ran
          cases ran
      | some matched =>
          rw [looked] at ran
          dsimp only at ran
          split at ran
          · rename_i other search
            cases ran
            exact matchCandidates_samePlace search
          · exact ih ran

private theorem consumePrefixLoop_samePlace
    (bytes : Buffer) (left : Nat) (rexIndex : Option Nat)
    (state : NaClInstState) :
    SamePlace state (consumePrefixLoop bytes left rexIndex state).2 := by
  induction left generalizing rexIndex state with
  | zero => exact ⟨rfl, rfl⟩
  | succ left ih =>
      rw [consumePrefixLoop]
      split_ifs with full ended rex
      · exact ⟨rfl, rfl⟩
      · exact ⟨rfl, rfl⟩
      · have taken : SamePlace state
            (takePrefixByte (bytes state.length) state) := by
          rw [takePrefixByte, if_pos rex]
          exact ⟨rfl, rfl⟩
        exact taken.trans (ih _ _)
      · have taken : SamePlace state
            (takePrefixByte (bytes state.length) state) := by
          rw [takePrefixByte, if_neg rex]
          exact ⟨rfl, rfl⟩
        exact taken.trans (ih _ _)

private theorem consumeSecondOpcodeByte_samePlace
    (bytes : Buffer) (state : NaClInstState) :
    SamePlace state (consumeSecondOpcodeByte bytes state).2 := by
  rw [consumeSecondOpcodeByte]
  split_ifs
  · exact ⟨rfl, rfl⟩
  · rw [naClConsume0F38XXNaClInstBytes]
    split
    · exact ⟨rfl, rfl⟩
    · exact ⟨rfl, rfl⟩
  · rw [naClConsume0F3AXXNaClInstBytes]
    split
    · exact ⟨rfl, rfl⟩
    · exact ⟨rfl, rfl⟩
  · exact ⟨rfl, rfl⟩

private theorem naClConsumeInstBytes_samePlace
    (bytes : Buffer) (state : NaClInstState) :
    SamePlace state (naClConsumeInstBytes bytes state).2 := by
  rw [naClConsumeInstBytes]
  split_ifs
  · exact ⟨rfl, rfl⟩
  · have second := consumeSecondOpcodeByte_samePlace bytes
      (takeOpcodeByte state)
    exact ⟨second.mpc, second.vpc⟩
  · split
    · rw [naClConsumeX87NaClInstBytes]
      split
      · exact ⟨rfl, rfl⟩
      · exact ⟨rfl, rfl⟩
    · exact ⟨rfl, rfl⟩

private theorem decodeByOpcode_samePlace
    (tables : Tables) (bytes : Buffer) (state : NaClInstState) :
    SamePlace state (decodeByOpcode tables bytes state) := by
  have prefixes := consumePrefixLoop_samePlace bytes kNaClMaximumPrefixBytes
    none state
  rw [← naClConsumePrefixBytes_snd] at prefixes
  rw [decodeByOpcode]
  generalize naClConsumePrefixBytes bytes state = result at prefixes ⊢
  obtain ⟨rexLast, prefixed⟩ := result
  cases rexLast with
  | false => exact ⟨prefixes.mpc, prefixes.vpc⟩
  | true =>
      have opens := naClConsumeInstBytes_samePlace bytes prefixed
      dsimp only at prefixes ⊢
      generalize naClConsumeInstBytes bytes prefixed = opening at opens ⊢
      obtain ⟨desc, opened⟩ := opening
      have place : SamePlace state opened := prefixes.trans opens
      dsimp only
      split
      · rename_i found _ search
        have ran : (searchCandidates tables bytes opened searchFuel desc
            opened.length).1 = some found := by
          rw [search]
        exact place.trans (searchCandidates_samePlace ran)
      · exact ⟨place.mpc, place.vpc⟩

theorem naClDecodeInst_place
    (tables : Tables) (text : Buffer) (vbase size index : Nat) :
    (naClDecodeInst tables text vbase size index).mpc = index ∧
      (naClDecodeInst tables text vbase size index).vpc = vbase + index := by
  rw [naClDecodeInst]
  split
  · exact ⟨rfl, rfl⟩
  · have place := decodeByOpcode_samePlace tables (text.shift index)
      (naClInstStateInit vbase size index)
    exact ⟨place.mpc, place.vpc⟩

theorem naClDecodeInst_positive
    (tables : Tables) (text : Buffer) (vbase : Nat) {size index : Nat}
    (next : index < size) :
    0 < (naClDecodeInst tables text vbase size index).length := by
  have room : 0 < (naClInstStateInit vbase size index).lengthLimit := by
    rw [naClInstStateInit, naclMaxBytesPerX86Instruction]
    dsimp only
    omega
  rw [naClDecodeInst]
  split
  · rename_i inst length found
    exact (naClConsumeOpcodeSequence_eq_some_iff.mp found).2.1
  · exact (decodeByOpcode_taken tables (text.shift index)
      (Nat.zero_le (naClInstStateInit vbase size index).lengthLimit) room).1

/-! ## The sequence -/

section Sequence

variable (tables : Tables) (text : Buffer) (segment : NaClSegment)

def offsetAt : Nat → Nat
  | 0 => 0
  | count + 1 =>
      offsetAt count +
        (naClDecodeInst tables text segment.vbase segment.size
          (offsetAt count)).length

def instructionAt (count : Nat) : NaClInstState :=
  let inst := naClDecodeInst tables text segment.vbase segment.size
    (offsetAt tables text segment count)
  { inst with
    nodes := some (inst.expVector tables (text.shift inst.mpc)) }

def IsInstruction (count : Nat) : Prop :=
  offsetAt tables text segment count < segment.size

end Sequence

section Offsets

variable {tables : Tables} {text : Buffer} {segment : NaClSegment}

@[simp] theorem instructionAt_mpc (count : Nat) :
    (instructionAt tables text segment count).mpc =
      offsetAt tables text segment count :=
  (naClDecodeInst_place tables text segment.vbase segment.size _).1

@[simp] theorem instructionAt_vpc (count : Nat) :
    (instructionAt tables text segment count).vpc =
      segment.vbase + offsetAt tables text segment count :=
  (naClDecodeInst_place tables text segment.vbase segment.size _).2

theorem instructionAt_positive
    {count : Nat} (inside : IsInstruction tables text segment count) :
    0 < (instructionAt tables text segment count).length :=
  naClDecodeInst_positive tables text segment.vbase inside

variable (tables text segment)

theorem offsetAt_succ (count : Nat) :
    offsetAt tables text segment (count + 1) =
      offsetAt tables text segment count +
        (instructionAt tables text segment count).length :=
  rfl

theorem offsetAt_mono : Monotone (offsetAt tables text segment) := by
  apply monotone_nat_of_le_succ
  intro count
  rw [offsetAt_succ]
  exact Nat.le_add_right _ _

variable {tables text segment}

theorem offsetAt_lt
    {first last : Nat} (before : first < last)
    (inside : IsInstruction tables text segment first) :
    offsetAt tables text segment first <
      offsetAt tables text segment last := by
  have positive := instructionAt_positive inside
  have next := offsetAt_succ tables text segment first
  have later := offsetAt_mono tables text segment
    (Nat.succ_le_iff.mpr before)
  rw [Nat.succ_eq_add_one] at later
  omega

theorem count_eq_of_between
    {count other : Nat}
    (after : offsetAt tables text segment count <
      offsetAt tables text segment other)
    (before : offsetAt tables text segment other ≤
      offsetAt tables text segment (count + 1))
    (present : IsInstruction tables text segment other) :
    other = count + 1 := by
  rcases Nat.lt_trichotomy other (count + 1) with less | same | more
  · have early := offsetAt_mono tables text segment (Nat.le_of_lt_succ less)
    omega
  · exact same
  · have next : IsInstruction tables text segment (count + 1) :=
      Nat.lt_of_le_of_lt
        (offsetAt_mono tables text segment (Nat.le_of_lt more)) present
    have late := offsetAt_lt more next
    omega

end Offsets

end NativeClient.Decoder64
