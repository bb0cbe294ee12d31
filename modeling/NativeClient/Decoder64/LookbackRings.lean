import NativeClient.Decoder.InstructionLength
import NativeClient.Decoder64.InstIter

/-!
# Looking back at decoded instructions

The iterator of the 64 bit decoder and the decode buffer of the 32 bit one are
rings of instructions.  Looking back finds the instructions that were decoded
since the start of the segment; where there are none, the iterator says so, and
the decode buffer has slots of length 0.
-/

namespace NativeClient

open NativeClient.Library

/-- Pieces that follow each other from offset 0 up to `stop`, the last of them
first. -/
inductive Contiguous {α : Type} (occurs : Nat → α → Prop)
    (length : α → Nat) : Nat → List α → Prop where
  | start : Contiguous occurs length 0 []
  | next {stop : Nat} {piece : α} {pieces : List α} :
      Contiguous occurs length stop pieces → occurs stop piece →
      Contiguous occurs length (stop + length piece) (piece :: pieces)

theorem Contiguous.occurs
    {α : Type} {occurs : Nat → α → Prop} {length : α → Nat} {stop : Nat}
    {pieces : List α} (contiguous : Contiguous occurs length stop pieces)
    {piece : α} (member : piece ∈ pieces) :
    ∃ offset, occurs offset piece := by
  induction contiguous with
  | start => cases member
  | next _ here ih =>
      cases member with
      | head => exact ⟨_, here⟩
      | tail _ member => exact ih member

/-! ## The iterator -/

namespace Decoder64

/-- An iterator that looks back at up to `lookbackSize` instructions. -/
structure LookbackIter (lookbackSize : Nat) where
  index : Nat
  instCount : Nat
  buffer : Ring (Option NaClInstState) (lookbackSize + 1)

def NaClInstState.withoutNodes (state : NaClInstState) : NaClInstState :=
  { state with nodes := none }

namespace LookbackIter

def createWithLookback (lookbackSize : Nat) : LookbackIter lookbackSize where
  index := 0
  instCount := 0
  buffer := ⟨fun _ => none, 0, Nat.succ_pos _⟩

section

variable {lookbackSize : Nat} (tables : Tables) (text : Buffer)
  (segment : NaClSegment) (iter : LookbackIter lookbackSize)

def hasLookbackState (distance : Nat) : Bool :=
  decide (distance < lookbackSize + 1) && decide (distance ≤ iter.instCount)

def getLookbackState (distance : Nat) : NaClInstState :=
  (iter.buffer.back distance).getD
    (naClDecodeInst tables text segment.vbase segment.size iter.index)

def getState : NaClInstState :=
  iter.getLookbackState tables text segment 0

def look (distance : Nat) (nodes : Option NaClExpVector) :
    LookbackIter lookbackSize :=
  { iter with
    buffer := iter.buffer.setBack distance
      (some { iter.getLookbackState tables text segment distance with
        nodes := nodes }) }

def advance : LookbackIter lookbackSize :=
  { index := iter.index + (iter.getState tables text segment).length
    instCount := iter.instCount + 1
    buffer :=
      (iter.buffer.setCurrent
        (some (iter.getState tables text segment))).advance none }

end

section Reached

variable (tables : Tables) (segment : NaClSegment) (texts : Buffer → Prop)
  {lookbackSize : Nat}

/-- The iterators of a walk over the segment, with the instructions that were
passed, the last of them first.  The text may change between two steps. -/
inductive Reached :
    LookbackIter lookbackSize → List NaClInstState → Prop where
  | create : Reached (createWithLookback lookbackSize) []
  | look {iter : LookbackIter lookbackSize} {decoded : List NaClInstState}
      {text : Buffer} (distance : Nat) (nodes : Option NaClExpVector) :
      Reached iter decoded → texts text →
      iter.hasLookbackState distance = true →
      Reached (iter.look tables text segment distance nodes) decoded
  | advance {iter : LookbackIter lookbackSize}
      {decoded : List NaClInstState} {text : Buffer} :
      Reached iter decoded → texts text → iter.index < segment.size →
      Reached (iter.advance tables text segment)
        ((iter.getState tables text segment).withoutNodes :: decoded)

def DecodedAt (index : Nat) (inst : NaClInstState) : Prop :=
  ∃ text, texts text ∧ inst = (naClDecodeInst tables text segment.vbase
    segment.size index).withoutNodes

def Holds (slot : Option NaClInstState) (inst : NaClInstState) : Prop :=
  slot.map NaClInstState.withoutNodes = some inst

structure Remembers (iter : LookbackIter lookbackSize)
    (decoded : List NaClInstState) : Prop where
  records : iter.buffer.Records Holds (· = none) decoded
  instCount : iter.instCount = decoded.length
  contiguous : Contiguous (DecodedAt tables segment texts)
    NaClInstState.length iter.index decoded
  current : ∀ text, texts text → DecodedAt tables segment texts iter.index
    (iter.getState tables text segment).withoutNodes

end Reached

section Walk

variable {tables : Tables} {segment : NaClSegment} {texts : Buffer → Prop}
  {lookbackSize : Nat} {iter : LookbackIter lookbackSize}
  {decoded : List NaClInstState}

theorem hasLookbackState_iff {distance : Nat} :
    iter.hasLookbackState distance = true ↔
      distance ≤ lookbackSize ∧ distance ≤ iter.instCount := by
  rw [hasLookbackState, Bool.and_eq_true, decide_eq_true_iff,
    decide_eq_true_iff, Nat.lt_succ_iff]

theorem getLookbackState_of_holds
    {distance : Nat} {inst : NaClInstState}
    (holds : Holds (iter.buffer.back distance) inst) (text : Buffer) :
    (iter.getLookbackState tables text segment distance).withoutNodes =
      inst := by
  obtain ⟨state, slot, same⟩ := Option.map_eq_some_iff.mp holds
  rw [getLookbackState, slot]
  exact same

theorem Remembers.create :
    Remembers tables segment texts (createWithLookback lookbackSize) [] where
  records := Ring.Records.start fun _ => rfl
  instCount := rfl
  contiguous := .start
  current := fun text allowed => ⟨text, allowed, rfl⟩

theorem Remembers.look
    (remembers : Remembers tables segment texts iter decoded)
    {text : Buffer} {distance : Nat} (nodes : Option NaClExpVector)
    (allowed : texts text) (has : iter.hasLookbackState distance = true) :
    Remembers tables segment texts
      (iter.look tables text segment distance nodes) decoded := by
  obtain ⟨small, present⟩ := hasLookbackState_iff.mp has
  have below : distance < lookbackSize + 1 := Nat.lt_succ_of_le small
  refine ⟨?_, remembers.instCount, remembers.contiguous, ?_⟩
  · apply remembers.records.setBack below (remembers.instCount ▸ present)
    intro _ held holds
    exact congrArg some (getLookbackState_of_holds holds text)
  · intro other otherAllowed
    by_cases here : distance = 0
    · subst distance
      have holds : Holds
          ((iter.look tables text segment 0 nodes).buffer.back 0)
          (iter.getState tables text segment).withoutNodes := by
        rw [LookbackIter.look, Ring.back_setBack_self]
        rfl
      rw [getState, getLookbackState_of_holds holds]
      exact remembers.current text allowed
    · have kept : (iter.look tables text segment distance nodes).getState
          tables other segment = iter.getState tables other segment := by
        rw [getState, getLookbackState, LookbackIter.look,
          Ring.back_setBack_of_ne _ _ below (Nat.succ_pos _) (Ne.symm here)]
        rfl
      rw [kept]
      exact remembers.current other otherAllowed

theorem Remembers.advance
    (remembers : Remembers tables segment texts iter decoded)
    {text : Buffer} (allowed : texts text) :
    Remembers tables segment texts (iter.advance tables text segment)
      ((iter.getState tables text segment).withoutNodes :: decoded) := by
  refine ⟨?_, congrArg Nat.succ remembers.instCount,
    remembers.contiguous.next (remembers.current text allowed), ?_⟩
  · apply (remembers.records.setCurrent _).advance
    rw [Ring.back_setCurrent_zero]
    rfl
  · intro other otherAllowed
    refine ⟨other, otherAllowed, ?_⟩
    rw [getState, getLookbackState, LookbackIter.advance,
      Ring.back_advance_zero]
    rfl

theorem Reached.remembers
    (reached : Reached tables segment texts iter decoded) :
    Remembers tables segment texts iter decoded := by
  induction reached with
  | create => exact .create
  | look distance nodes _ allowed has ih => exact ih.look nodes allowed has
  | advance _ allowed _ ih => exact ih.advance allowed

theorem Remembers.found
    (remembers : Remembers tables segment texts iter decoded)
    {distance : Nat} (has : iter.hasLookbackState (distance + 1) = true)
    (text : Buffer) :
    decoded[distance]? = some
      (iter.getLookbackState tables text segment (distance + 1)).withoutNodes
    := by
  obtain ⟨small, present⟩ := hasLookbackState_iff.mp has
  rw [remembers.instCount] at present
  have here := List.getElem?_eq_getElem (Nat.lt_of_succ_le present)
  rw [here, getLookbackState_of_holds
    (remembers.records.found distance _ (by omega) here)]

end Walk

end LookbackIter

def NaClInstIter.lookback (iter : NaClInstIter) : LookbackIter kLookbackSize :=
  ⟨iter.index, iter.instCount, iter.buffer⟩

theorem Walks.reached
    {tables : Tables} {text : Buffer} {segment : NaClSegment}
    {iter : NaClInstIter} (walks : Walks tables text segment iter) :
    ∃ decoded, LookbackIter.Reached tables segment (· = text) iter.lookback
      decoded := by
  induction walks with
  | create => exact ⟨[], .create⟩
  | advance _ next ih =>
      obtain ⟨decoded, reached⟩ := ih
      exact ⟨_, reached.advance rfl (of_decide_eq_true next)⟩

end Decoder64

/-! ## The decode buffer -/

namespace Decoder

section Loops

variable {σ ρ : Type} (turn : σ → Turn σ ρ) (memory : σ → Buffer)
  (decodebuffer : σ → DecodeBuffer)

inductive Decoded : σ → List NCDecoderState → Prop where
  | start {state : σ} (vbase : Nat) :
      decodebuffer state = initDecodeBuffer vbase → Decoded state []
  | again {state next : σ} {decoded : List NCDecoderState} :
      Decoded state decoded → turn state = .again next →
      Decoded next (consumeNextInstruction (memory state)
        (decodebuffer state).mstate :: decoded)

def DecodedAt (offset : Nat) (mstate : NCDecoderState) : Prop :=
  ∃ state vpc, mstate = relocate offset vpc (instAt (memory state) offset)

/-- Between two turns the ring holds the last instructions, and the next one
comes right after them. -/
structure Remembers (decodebuffer : DecodeBuffer)
    (decoded : List NCDecoderState) : Prop where
  records :
    decodebuffer.Records Eq (fun mstate => mstate.inst.length = 0) decoded
  fresh : decodebuffer.mstate.nextbyte = decodebuffer.mstate.mpc
  contiguous : Contiguous (DecodedAt memory) (fun mstate => mstate.inst.length)
    decodebuffer.mstate.mpc decoded

end Loops

/-- `PreviousInst` finds the decoded instructions, and slots of length 0 where
there are none. -/
structure PreviousInsts (decodebuffer : DecodeBuffer)
    (decoded : List NCDecoderState) : Prop where
  found : ∀ distance mstate, distance + 1 < kDecodeBufferSize →
    decoded[distance]? = some mstate →
    previousInst decodebuffer (-(distance + 1 : Nat)) = mstate ∧
      0 < mstate.inst.length
  missing : ∀ distance, distance + 1 < kDecodeBufferSize →
    decoded.length ≤ distance →
    (previousInst decodebuffer (-(distance + 1 : Nat))).inst.length = 0

def LooksBack {σ ρ : Type} (turn : σ → Turn σ ρ) (memory : σ → Buffer)
    (decodebuffer : σ → DecodeBuffer) : Prop :=
  ∀ state decoded, Decoded turn memory decodebuffer state decoded →
    Contiguous (DecodedAt memory) (fun mstate => mstate.inst.length)
        (decodebuffer state).mstate.mpc decoded ∧
      ∀ mstate, PreviousInsts ((decodebuffer state).setCurrent mstate) decoded

section Turns

variable {σ ρ : Type} {turn : σ → Turn σ ρ} {memory : σ → Buffer}
  {decodebuffer : DecodeBuffer} {decoded : List NCDecoderState}

theorem Remembers.start (vbase : Nat) :
    Remembers memory (initDecodeBuffer vbase) [] where
  records := by
    apply Ring.Records.start
    intro index
    unfold initDecodeBuffer
    dsimp only
    split_ifs <;> rfl
  fresh := rfl
  contiguous := .start

theorem Remembers.next
    (remembers : Remembers memory decodebuffer decoded) (state : σ)
    {mstate : NCDecoderState}
    (consumed : mstate =
      consumeNextInstruction (memory state) decodebuffer.mstate) :
    Remembers memory
      (incrementDecodeBuffer (decodebuffer.setCurrent mstate))
      (mstate :: decoded) := by
  have placed := consumed.trans
    (consumeNextInstruction_eq (memory state) remembers.fresh)
  have mpc : mstate.mpc = decodebuffer.mstate.mpc := by
    rw [placed, relocate, instAt_mpc, Nat.add_zero]
  have nextbyte : mstate.nextbyte = mstate.mpc + mstate.inst.length := by
    rw [mpc, placed, relocate, instAt_nextbyte]
  refine ⟨?_, ?_, ?_⟩
  · exact (remembers.records.setCurrent mstate).advance
      (Ring.back_setCurrent_zero _ _) _
  · rw [mstate_increment, mstate_setCurrent]
    exact nextbyte
  · have next := remembers.contiguous.next ⟨state, _, placed⟩
    rw [mstate_increment, mstate_setCurrent]
    rw [← mpc] at next
    exact next

theorem Remembers.previousInsts
    (remembers : Remembers memory decodebuffer decoded)
    (mstate : NCDecoderState) :
    PreviousInsts (decodebuffer.setCurrent mstate) decoded where
  found := by
    intro distance inst small here
    rw [previousInst_eq_back _ small]
    refine ⟨(remembers.records.setCurrent mstate).found _ _ small here, ?_⟩
    obtain ⟨offset, state, vpc, rfl⟩ :=
      remembers.contiguous.occurs (List.mem_of_getElem? here)
    exact instAt_length_pos _ _
  missing := by
    intro distance small none_
    rw [previousInst_eq_back _ small]
    exact (remembers.records.setCurrent mstate).missing _ small none_

theorem looksBack
    {decodebuffer : σ → DecodeBuffer}
    (step : ∀ state next, turn state = .again next →
      decodebuffer next = incrementDecodeBuffer
        ((decodebuffer state).setCurrent (consumeNextInstruction
          (memory state) (decodebuffer state).mstate))) :
    LooksBack turn memory decodebuffer := by
  intro state decoded reached
  have remembers : Remembers memory (decodebuffer state) decoded := by
    induction reached with
    | start vbase fresh =>
        rw [fresh]
        exact .start vbase
    | again _ turned ih =>
        rw [step _ _ turned]
        exact ih.next _ rfl
  exact ⟨remembers.contiguous, remembers.previousInsts⟩

end Turns

end Decoder

open Decoder Decoder64

/-- In every walk of the iterator, whatever the size of its ring, and in every
run of the loops of the 32 bit decoder, looking back by less than the size of the
ring finds the instructions decoded since the start of the segment.  The
iterator tells where there are none, the decode buffer has empty slots there. -/
theorem lookbackRings_exact :
    (∀ (tables : Tables) (segment : NaClSegment) (texts : Buffer → Prop)
        (lookbackSize : Nat) (iter : LookbackIter lookbackSize)
        (decoded : List NaClInstState),
      LookbackIter.Reached tables segment texts iter decoded →
        Contiguous (LookbackIter.DecodedAt tables segment texts)
            NaClInstState.length iter.index decoded ∧
          (∀ distance, iter.hasLookbackState distance = true ↔
            distance ≤ lookbackSize ∧ distance ≤ decoded.length) ∧
          ∀ text distance, iter.hasLookbackState (distance + 1) = true →
            decoded[distance]? = some (iter.getLookbackState tables text
              segment (distance + 1)).withoutNodes) ∧
      (∀ (σ : Type) (memory : σ → Buffer) (stats : DecoderStats σ)
          (action : DecodeBuffer → σ → σ) (vlimit : Nat),
        LooksBack (decodeSegmentTurn memory stats action vlimit)
          (fun state => memory state.2) Prod.fst) ∧
      ∀ (σ : Type) (memoryOld memoryNew : σ → Buffer) (stats : DecoderStats σ)
          (action : DecodeBuffer → DecodeBuffer → σ → σ) (vlimit : Nat),
        LooksBack (decodeSegmentPairTurn memoryOld memoryNew stats action
            vlimit) (fun state => memoryOld state.2.2) Prod.fst ∧
          LooksBack (decodeSegmentPairTurn memoryOld memoryNew stats action
            vlimit) (fun state => memoryNew state.2.2)
            (fun state => state.2.1) := by
  refine ⟨?_, ?_, ?_⟩
  · intro tables segment texts lookbackSize iter decoded reached
    have remembers := reached.remembers
    refine ⟨remembers.contiguous, ?_, fun text distance has =>
      remembers.found has text⟩
    intro distance
    rw [LookbackIter.hasLookbackState_iff, remembers.instCount]
  · intro σ memory stats action vlimit
    apply looksBack
    intro state next turned
    unfold decodeSegmentTurn at turned
    dsimp only at turned
    split_ifs at turned
    cases turned
    rfl
  · intro σ memoryOld memoryNew stats action vlimit
    constructor <;>
    · apply looksBack
      intro state next turned
      unfold decodeSegmentPairTurn at turned
      dsimp only at turned
      split_ifs at turned
      cases turned
      rfl

/-- The result of `PreviousInst` as a pointer; `none` is the null pointer. -/
def previousInstPointer (decodebuffer : DecodeBuffer) (nindex : Int) :
    Option NCDecoderState :=
  some (previousInst decodebuffer nindex)

def nops : Buffer := fun _ => 0x90

def nopTurn (state : DecodeBuffer × Unit) : DecodeBuffer × Unit :=
  (incrementDecodeBuffer (state.1.setCurrent
    (consumeNextInstruction nops state.1.mstate)), ())

def nopState (count : Nat) : DecodeBuffer × Unit :=
  nopTurn^[count] (initDecodeBuffer 0, ())

def nopDecoded : Nat → List NCDecoderState
  | 0 => []
  | count + 1 =>
      consumeNextInstruction nops (nopState count).1.mstate ::
        nopDecoded count

private theorem nops_decoded :
    ∀ count ≤ 4, Decoded
      (decodeSegmentTurn (fun _ => nops) ⟨id, id, id⟩
        (fun _ client => client) 32) (fun _ => nops) Prod.fst
      (nopState count) (nopDecoded count) := by
  intro count small
  induction count with
  | zero => exact .start 0 rfl
  | succ count ih =>
      have before := ih (by omega)
      have inside : ∀ turn < 4, (nopState turn).1.mstate.vpc < 32 ∧
          ¬ newpc (consumeNextInstruction nops
            (nopState turn).1.mstate) > 32 := by
        decide +kernel
      obtain ⟨room, fits⟩ := inside count (by omega)
      have next : nopState (count + 1) = nopTurn (nopState count) :=
        Function.iterate_succ_apply' _ _ _
      refine before.again ?_
      unfold decodeSegmentTurn
      dsimp only
      rw [if_pos room, if_neg fits, next]
      rfl

/-- Before the first instruction there is a slot, not a null pointer; four
instructions back is the current slot again. -/
theorem previousInst_not_null :
    (¬ ∀ (memory : Unit → Buffer) (stats : DecoderStats Unit)
        (action : DecodeBuffer → Unit → Unit) (vlimit : Nat)
        (state : DecodeBuffer × Unit) (decoded : List NCDecoderState),
      Decoded (decodeSegmentTurn memory stats action vlimit)
          (fun state => memory state.2) Prod.fst state decoded →
        ∀ distance, decoded.length ≤ distance →
          previousInstPointer (state.1.setCurrent (consumeNextInstruction
            (memory state.2) state.1.mstate)) (-(distance + 1 : Nat)) =
              none) ∧
      ¬ ∀ (memory : Unit → Buffer) (stats : DecoderStats Unit)
        (action : DecodeBuffer → Unit → Unit) (vlimit : Nat)
        (state : DecodeBuffer × Unit) (decoded : List NCDecoderState),
      Decoded (decodeSegmentTurn memory stats action vlimit)
          (fun state => memory state.2) Prod.fst state decoded →
        ∀ distance < decoded.length,
          previousInstPointer (state.1.setCurrent (consumeNextInstruction
            (memory state.2) state.1.mstate)) (-(distance + 1 : Nat)) =
              decoded[distance]? := by
  constructor
  · intro allNull
    have null := allNull _ _ _ _ _ _ (nops_decoded 0 (by decide)) 0
      (Nat.le_refl 0)
    cases null
  · intro allFound
    have fourth := allFound _ _ _ _ _ _ (nops_decoded 4 (by decide)) 3
      (by decide)
    have place := congrArg (Option.map NCDecoderState.mpc) fourth
    revert place
    decide +kernel

def firstNop : NaClInstState :=
  ((LookbackIter.createWithLookback 2).getState emptyTables nops
    ⟨0, 32⟩).withoutNodes

def nopIter : LookbackIter 2 :=
  (LookbackIter.createWithLookback 2).advance emptyTables nops ⟨0, 32⟩

/-- One nop back, by the iterator and in the decode buffer. -/
theorem lookbackRings_exact_nops :
    nopIter.hasLookbackState 1 = true ∧
      [firstNop][0]? = some (nopIter.getLookbackState emptyTables nops ⟨0, 32⟩
        1).withoutNodes ∧
      PreviousInsts ((nopState 1).1.setCurrent
        (consumeNextInstruction nops (nopState 1).1.mstate))
        (nopDecoded 1) := by
  have walked : LookbackIter.Reached emptyTables ⟨0, 32⟩ (· = nops) nopIter
      [firstNop] :=
    LookbackIter.Reached.create.advance rfl (by decide)
  have has : nopIter.hasLookbackState 1 = true := by decide +kernel
  exact ⟨has, (lookbackRings_exact.1 _ _ _ _ _ _ walked).2.2 nops 0 has,
    (lookbackRings_exact.2.1 _ _ _ _ _ _ _ (nops_decoded 1 (by decide))).2
      _⟩

end NativeClient
