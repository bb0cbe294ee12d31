import NativeClient.CodeCopy.CopyInstruction
import NativeClient.Validator32.ReplacementSafety

/-!
# Copying a replacement into place

`NCCopyCode` decodes the old and the new code in lock step and copies one
instruction after the other.  It trusts the validator for the instruction
boundaries, but the validator may have squashed instructions of the new code
since it compared them.
-/

namespace NativeClient.CodeCopy

open NativeClient.Library
open NativeClient.Decoder
open NativeClient.Validator32

/-- The memory that holds the old code, and whether a `CHECK` has failed. -/
structure CopyState where
  memory : Buffer
  aborted : Bool

/-- `CopyInstruction` as the action of the pair decoder.  The old code starts
at the address `dst`. -/
def copyAction (memcpy : Memcpy) (dst : Nat) (source : Buffer)
    (bufferOld bufferNew : DecodeBuffer) (state : CopyState) : CopyState :=
  let instOld := bufferOld.mstate.inst
  let instNew := bufferNew.mstate.inst
  if instNew.length = instOld.length then
    { state with
      memory := applyStores
        (copyInstruction memcpy state.memory source (dst + instOld.maddr)
          instNew.maddr instOld.length)
        state.memory }
  else
    { state with aborted := true }

def copyStats : DecoderStats CopyState where
  newSegment := id
  segFault := id
  internalError := id

/-- `NCCopyCode`: the memory it leaves and the value it returns; `none` if a
`CHECK` fails. -/
def ncCopyCode (memcpy : Memcpy) (dst : Nat) (source : Buffer)
    (vbase vlimit : UInt32) (alignment : UInt8) (memory : Buffer)
    (fuel : Nat) : Option (Buffer × Nat) := do
  let _ ← ncValidateInit vbase vlimit alignment
  let state ← ncDecodeSegmentPair (fun state => state.memory.shift dst)
    (fun _ => source) copyStats (copyAction memcpy dst source) vbase.toNat
    (vlimit.toNat - vbase.toNat) ⟨memory, false⟩ fuel
  if state.aborted then none else some (state.memory, 0)

/-- `NCCopyCode` reports success and leaves `after`. -/
def CopiesCode (memcpy : Memcpy) (dst : Nat) (source : Buffer)
    (vbase vlimit : UInt32) (alignment : UInt8) (memory after : Buffer) :
    Prop :=
  ∃ fuel, ncCopyCode memcpy dst source vbase vlimit alignment memory fuel =
    some (after, 0)

def CompletesCopy (memcpy : Memcpy) (dst : Nat) (source : Buffer)
    (vbase vlimit : UInt32) (alignment : UInt8) (memory : Buffer) : Prop :=
  ∀ after,
    CopiesCode memcpy dst source vbase vlimit alignment memory after →
    ∀ offset < vlimit.toNat - vbase.toNat, after (dst + offset) = source offset

def SquashesSingleBytes (cpufeatures : CPUFeatures) (new : Buffer)
    (size : Nat) : Prop :=
  ∀ number, offsetAt new number < size →
    squashes cpufeatures (new.shift (offsetAt new number))
      (instAt new (offsetAt new number)) = true →
    (instAt new (offsetAt new number)).inst.length = 1

/-! ## The walk -/

abbrev WalkState := DecodeBuffer × DecodeBuffer × CopyState

def copyTurn (memcpy : Memcpy) (dst : Nat) (source : Buffer)
    (segment : Segment) : WalkState → Turn WalkState CopyState :=
  decodeSegmentPairTurn (fun state => state.memory.shift dst) (fun _ => source)
    copyStats (copyAction memcpy dst source) (segment.base + segment.size)

structure At (segment : Segment) (offset : Nat) (decodebuffer : DecodeBuffer) :
    Prop where
  mpc : decodebuffer.mstate.mpc = offset
  nextbyte : decodebuffer.mstate.nextbyte = offset
  vpc : decodebuffer.mstate.vpc = segment.base + offset

theorem At.decode
    {segment : Segment} {offset : Nat} {decodebuffer : DecodeBuffer}
    (here : At segment offset decodebuffer) (buffer : Buffer) :
    consumeNextInstruction buffer decodebuffer.mstate =
      placed segment buffer offset := by
  rw [consumeNextInstruction_eq _ (here.nextbyte.trans here.mpc.symm),
    here.mpc, here.vpc]
  rfl

theorem newpc_placed
    {segment : Segment} {buffer : Buffer} {offset : Nat}
    (ends : offset + (instAt buffer offset).inst.length ≤ segment.size) :
    newpc (placed segment buffer offset) =
      segment.base + (offset + (instAt buffer offset).inst.length) := by
  have fits := segment.fits
  have small : segment.base + offset + (instAt buffer offset).inst.length <
      2 ^ 32 := by
    omega
  rw [← Nat.add_assoc]
  exact wrap32_of_lt small

theorem At.increment
    {segment : Segment} {offset : Nat} {decodebuffer : DecodeBuffer}
    {buffer : Buffer}
    (ends : offset + (instAt buffer offset).inst.length ≤ segment.size) :
    At segment (offset + (instAt buffer offset).inst.length)
      (incrementDecodeBuffer
        (decodebuffer.setCurrent (placed segment buffer offset))) := by
  have current := mstate_setCurrent decodebuffer (placed segment buffer offset)
  refine ⟨?_, ?_, ?_⟩
  · simp only [mstate_increment, current, placed_inst_length]
    simp [placed, relocate, instAt_mpc]
  · simp only [mstate_increment, current]
    simp [placed, relocate, instAt_nextbyte]
  · simp only [mstate_increment, current]
    exact newpc_placed ends

structure Walked (dst : Nat) (source : Buffer) (segment : Segment)
    (memory : Buffer) (offset : Nat) (state : WalkState) : Prop where
  atOld : At segment offset state.1
  atNew : At segment offset state.2.1
  memory : state.2.2.memory = memory.splice source dst offset
  running : state.2.2.aborted = false

theorem splice_replaced
    (memory source : Buffer) (dst offset length : Nat) :
    replaced (memory.splice source dst offset) source (dst + offset) offset
        length =
      memory.splice source dst (offset + length) := by
  funext address
  unfold replaced
  by_cases fresh : dst + offset ≤ address ∧ address < dst + offset + length
  · rw [Buffer.splice_inside fresh.1 fresh.2,
      Buffer.splice_inside (by omega) (by omega), Buffer.shift_apply]
    congr 1
    omega
  · rw [Buffer.splice_outside (by omega)]
    by_cases inside : dst ≤ address ∧ address < dst + offset
    · rw [Buffer.splice_inside inside.1 inside.2,
        Buffer.splice_inside inside.1 (by omega)]
    · rw [Buffer.splice_outside (by omega), Buffer.splice_outside (by omega)]

section Walk

variable {memcpy : Memcpy} {dst : Nat} {source memory : Buffer}
  {segment : Segment} {offset : Nat} {state : WalkState}

theorem Walked.instAt_old
    (walked : Walked dst source segment memory offset state) :
    instAt (state.2.2.memory.shift dst) offset =
      instAt (memory.shift dst) offset := by
  apply instAt_congr
  intro position above _
  rw [walked.memory, Buffer.shift_apply, Buffer.shift_apply,
    Buffer.splice_outside (.inr (by omega))]

private theorem Walked.turn_eq
    (walked : Walked dst source segment memory offset state)
    (inside : offset < segment.size) :
    copyTurn memcpy dst source segment state =
      let bufferOld := state.1.setCurrent
        (placed segment (memory.shift dst) offset)
      let bufferNew := state.2.1.setCurrent (placed segment source offset)
      if newpc (placed segment (memory.shift dst) offset) ≠
          newpc (placed segment source offset) then
        .leave state.2.2
      else if newpc (placed segment source offset) >
          segment.base + segment.size then
        .leave state.2.2
      else
        .again (incrementDecodeBuffer bufferOld,
          incrementDecodeBuffer bufferNew,
          copyAction memcpy dst source bufferOld bufferNew state.2.2) := by
  have more : state.1.mstate.vpc < segment.base + segment.size ∧
      state.2.1.mstate.vpc < segment.base + segment.size := by
    rw [walked.atOld.vpc, walked.atNew.vpc]
    omega
  have decodeOld : consumeNextInstruction (state.2.2.memory.shift dst)
      state.1.mstate = placed segment (memory.shift dst) offset := by
    rw [walked.atOld.decode]
    unfold placed
    rw [walked.instAt_old]
  unfold copyTurn decodeSegmentPairTurn
  simp only [if_pos more, decodeOld, walked.atNew.decode, copyStats,
    Function.iterate_id, id_eq]

theorem Walked.turn_copies
    (walked : Walked dst source segment memory offset state)
    (memcpy : Memcpy)
    (sameLength : (instAt (memory.shift dst) offset).inst.length =
      (instAt source offset).inst.length)
    (ends : offset + (instAt source offset).inst.length ≤ segment.size) :
    ∃ next, copyTurn memcpy dst source segment state = .again next ∧
      Walked dst source segment memory
        (offset + (instAt source offset).inst.length) next := by
  have positive := instAt_length_pos source offset
  have oldEnds : offset + (instAt (memory.shift dst) offset).inst.length ≤
      segment.size := by
    omega
  have newpcOld := newpc_placed oldEnds
  have newpcNew := newpc_placed ends
  rw [walked.turn_eq (by omega)]
  simp only [newpcOld, newpcNew, sameLength, ne_eq, not_true_eq_false, if_false]
  rw [if_neg (by omega)]
  refine ⟨_, rfl, ?_, At.increment ends, ?_, ?_⟩
  · rw [← sameLength]
    exact At.increment oldEnds
  · simp only [copyAction, mstate_setCurrent, placed_inst_length,
      placed_inst_maddr, sameLength, if_true]
    rw [(copyInstruction_through _ _ _ _ _ _).2, walked.memory,
      splice_replaced]
  · simp only [copyAction, mstate_setCurrent, placed_inst_length, sameLength,
      if_true]
    exact walked.running

theorem Walked.turn_breaks
    (walked : Walked dst source segment memory offset state)
    (different : (instAt (memory.shift dst) offset).inst.length ≠
      (instAt source offset).inst.length)
    (oldEnds : offset + (instAt (memory.shift dst) offset).inst.length ≤
      segment.size)
    (ends : offset + (instAt source offset).inst.length ≤ segment.size) :
    copyTurn memcpy dst source segment state = .leave state.2.2 := by
  have positive := instAt_length_pos source offset
  have newpcOld := newpc_placed oldEnds
  have newpcNew := newpc_placed ends
  rw [walked.turn_eq (by omega)]
  simp only [newpcOld, newpcNew]
  rw [if_pos (by omega)]

theorem Walked.turn_end
    (walked : Walked dst source segment memory segment.size state) :
    copyTurn memcpy dst source segment state = .leave state.2.2 := by
  unfold copyTurn decodeSegmentPairTurn
  simp only
  rw [if_neg]
  rintro ⟨more, -⟩
  rw [walked.atOld.vpc] at more
  exact Nat.lt_irrefl _ more

end Walk

/-! ## Replacements as the validator leaves them -/

structure Accepted (cpufeatures : CPUFeatures) (segment : Segment)
    (old new final : Buffer) (count : Nat) : Prop where
  valid : ValidSegment segment new count
  matched : Matched old new count
  squashed : final = stubbed cpufeatures segment new count

section Accepted

variable {cpufeatures : CPUFeatures} {segment : Segment}
  {old new final : Buffer} {count number : Nat}

theorem squashes_placed (offset : Nat) :
    squashes cpufeatures new (placed segment new offset) =
      squashes cpufeatures (new.shift offset) (instAt new offset) := by
  unfold squashes
  rw [placed_opinfo, placed_inst_maddr, instAt_maddr, Nat.zero_add,
    Buffer.shift_apply]

theorem Accepted.length_old
    (accepted : Accepted cpufeatures segment old new final count)
    (small : number < count) :
    (instAt old (offsetAt new number)).inst.length =
      (instAt new (offsetAt new number)).inst.length := by
  have here := accepted.matched.starts number (Nat.le_of_lt small)
  have next := accepted.matched.starts (number + 1) small
  rw [offsetAt_succ, offsetAt_succ, here] at next
  omega

theorem Accepted.ends
    (accepted : Accepted cpufeatures segment old new final count)
    (small : number < count) :
    offsetAt new number + (instAt new (offsetAt new number)).inst.length ≤
      segment.size := by
  rw [← offsetAt_succ, ← accepted.valid.tiles]
  exact (offsetAt_strictMono new).monotone small

theorem Accepted.length_final
    (accepted : Accepted cpufeatures segment old new final count)
    (small : number < count)
    (kept : squashes cpufeatures (new.shift (offsetAt new number))
        (instAt new (offsetAt new number)) = true →
      (instAt new (offsetAt new number)).inst.length = 1) :
    (instAt final (offsetAt new number)).inst.length =
      (instAt new (offsetAt new number)).inst.length := by
  have positive := instAt_length_pos new (offsetAt new number)
  rw [accepted.squashed]
  by_cases squashed : squashes cpufeatures new (instNth segment new number) =
      true
  · have byte : stubbed cpufeatures segment new count (offsetAt new number) =
        Validator32.kNaClFullStop := by
      rw [stubbed_behind small (Nat.le_refl _) (by rw [offsetAt_succ]; omega),
        if_pos squashed]
    rw [instNth, squashes_placed] at squashed
    rw [kept squashed]
    exact (instAt_hlt byte).1
  · have same : instAt (stubbed cpufeatures segment new count)
        (offsetAt new number) = instAt new (offsetAt new number) := by
      apply instAt_congr
      intro position above below
      rw [stubbed_behind small above (by rw [offsetAt_succ]; exact below),
        if_neg squashed]
    rw [same]

theorem Accepted.halted
    (accepted : Accepted cpufeatures segment old new final count)
    (small : number < count)
    (squashed : squashes cpufeatures (new.shift (offsetAt new number))
      (instAt new (offsetAt new number)) = true) :
    final (offsetAt new number) = Validator32.kNaClFullStop := by
  have positive := instAt_length_pos new (offsetAt new number)
  have atPlace : squashes cpufeatures new (instNth segment new number) =
      true := by
    rw [instNth, squashes_placed, squashed]
  rw [accepted.squashed, stubbed_behind small (Nat.le_refl _)
    (by rw [offsetAt_succ]; omega), if_pos atPlace]

end Accepted

def walkStart (segment : Segment) (memory : Buffer) : WalkState :=
  (initDecodeBuffer segment.base, initDecodeBuffer segment.base,
    ⟨memory, false⟩)

section Copy

variable {cpufeatures : CPUFeatures} {segment : Segment} {dst : Nat}
  {memory new final : Buffer} {count : Nat}

theorem walkStart_walked (source : Buffer) :
    Walked dst source segment memory 0 (walkStart segment memory) := by
  refine ⟨⟨rfl, rfl, rfl⟩, ⟨rfl, rfl, rfl⟩, ?_, rfl⟩
  funext address
  exact (Buffer.splice_outside (by omega)).symm

theorem Accepted.reaches
    (accepted : Accepted cpufeatures segment (memory.shift dst) new final count)
    (memcpy : Memcpy) {number : Nat} (inside : number ≤ count)
    (kept : ∀ earlier < number,
      squashes cpufeatures (new.shift (offsetAt new earlier))
        (instAt new (offsetAt new earlier)) = true →
      (instAt new (offsetAt new earlier)).inst.length = 1) :
    ∃ state, Walked dst final segment memory (offsetAt new number) state ∧
      ∀ result,
        Returns (copyTurn memcpy dst final segment) (walkStart segment memory)
            result ↔
          Returns (copyTurn memcpy dst final segment) state result := by
  induction number with
  | zero => exact ⟨_, walkStart_walked final, fun _ => Iff.rfl⟩
  | succ number ih =>
      obtain ⟨state, walked, same⟩ := ih (by omega)
        (fun earlier small => kept earlier (by omega))
      have length := accepted.length_final inside
        (kept number (Nat.lt_succ_self number))
      have oldLength := accepted.length_old inside
      have ends := accepted.ends inside
      obtain ⟨next, action, nextWalked⟩ :=
        walked.turn_copies memcpy (by omega) (by omega)
      rw [length, ← offsetAt_succ] at nextWalked
      exact ⟨next, nextWalked,
        fun result => (same result).trans (returns_again action)⟩

theorem Accepted.number_lt
    (accepted : Accepted cpufeatures segment (memory.shift dst) new final count)
    {number : Nat} (inside : offsetAt new number < segment.size) :
    number < count :=
  accepted.valid.number_lt inside

theorem Accepted.copies_all
    (accepted : Accepted cpufeatures segment (memory.shift dst) new final count)
    (memcpy : Memcpy)
    (kept : SquashesSingleBytes cpufeatures new segment.size) :
    Returns (copyTurn memcpy dst final segment) (walkStart segment memory)
      ⟨memory.splice final dst segment.size, false⟩ := by
  obtain ⟨state, walked, same⟩ := accepted.reaches memcpy
    (Nat.le_refl count) (by
      intro earlier small
      apply kept earlier
      rw [← accepted.valid.tiles]
      exact offsetAt_lt_iff.mpr small)
  rw [accepted.valid.tiles] at walked
  rw [same, returns_leave walked.turn_end, ← walked.memory, ← walked.running]

theorem Accepted.breaks_off
    (accepted : Accepted cpufeatures segment (memory.shift dst) new final count)
    (memcpy : Memcpy)
    (longer : ¬ SquashesSingleBytes cpufeatures new segment.size) :
    ∃ offset < segment.size, memory (dst + offset) ≠ final offset ∧
      Returns (copyTurn memcpy dst final segment) (walkStart segment memory)
        ⟨memory.splice final dst offset, false⟩ := by
  classical
  unfold SquashesSingleBytes at longer
  push Not at longer
  let number := Nat.find longer
  obtain ⟨inside, squashed, long⟩ := Nat.find_spec longer
  change offsetAt new number < segment.size at inside
  have small := accepted.number_lt inside
  obtain ⟨state, walked, same⟩ := accepted.reaches memcpy
    (Nat.le_of_lt small) (by
      intro earlier before earlierSquashed
      by_contra notOne
      refine Nat.find_min longer before ⟨?_, earlierSquashed, notOne⟩
      exact Nat.lt_trans (offsetAt_lt_iff.mpr before) inside)
  have halted := accepted.halted small squashed
  have oldLength := accepted.length_old small
  have finalLength := (instAt_hlt halted).1
  have ends := accepted.ends small
  change ¬ (instAt new (offsetAt new number)).inst.length = 1 at long
  refine ⟨offsetAt new number, inside, ?_, ?_⟩
  · intro unchanged
    -- A `HLT` in the old code would have been one byte long.
    rw [halted] at unchanged
    have oldHalt : (memory.shift dst) (offsetAt new number) =
        Validator32.kNaClFullStop := unchanged
    rw [(instAt_hlt oldHalt).1] at oldLength
    omega
  · rw [same, returns_leave (walked.turn_breaks (by omega) (by omega)
      (by omega)), ← walked.memory, ← walked.running]

end Copy

/-! ## The result of `NCCopyCode` -/

section Result

variable {cpufeatures : CPUFeatures} {vbase vlimit : UInt32}
  {alignment : UInt8} {dst : Nat} {memory new final : Buffer}

theorem copiesCode_iff
    {segment : Segment} (describes : Describes segment vbase vlimit alignment)
    (memcpy : Memcpy) (dst : Nat) (source memory after : Buffer) :
    CopiesCode memcpy dst source vbase vlimit alignment memory after ↔
      Returns (copyTurn memcpy dst source segment) (walkStart segment memory)
        ⟨after, false⟩ := by
  have size : vlimit.toNat - vbase.toNat = segment.size := by
    rw [← describes.limit, describes.base, Nat.add_sub_cancel_left]
  have limit : wrap32 (segment.base + segment.size : Nat) =
      segment.base + segment.size := wrap32_of_lt segment.fits
  have walk (fuel : Nat) : ncDecodeSegmentPair
      (fun state => state.memory.shift dst) (fun _ => source) copyStats
      (copyAction memcpy dst source) segment.base segment.size
      ⟨memory, false⟩ fuel =
      runLoop (copyTurn memcpy dst source segment) fuel
        (walkStart segment memory) := by
    unfold ncDecodeSegmentPair copyTurn walkStart
    rw [← limit]
    rfl
  unfold CopiesCode ncCopyCode Returns
  rw [ncValidateInit_of_describes describes, size, ← describes.base]
  simp only [walk, Option.bind_eq_bind, Option.bind_some]
  constructor
  · rintro ⟨fuel, run⟩
    obtain ⟨state, walked, result⟩ := Option.bind_eq_some_iff.mp run
    split_ifs at result with aborted
    obtain ⟨stateMemory, stateAborted⟩ := state
    simp only [Option.some.injEq, Prod.mk.injEq, and_true] at result
    simp only [Bool.not_eq_true] at aborted
    rw [result, aborted] at walked
    exact ⟨fuel, walked⟩
  · rintro ⟨fuel, run⟩
    exact ⟨fuel, by simp [run]⟩

/-- `NCCopyCode` always reports success on a replacement that was accepted.  It
has then copied all of it if and only if no instruction longer than one byte
was squashed. -/
theorem completesCopy_iff
    (memcpy : Memcpy)
    (accepted : ValidatesReplacement cpufeatures vbase vlimit alignment
      (memory.shift dst) new 0 final) :
    (∃ after,
      CopiesCode memcpy dst final vbase vlimit alignment memory after) ∧
    (CompletesCopy memcpy dst final vbase vlimit alignment memory ↔
      SquashesSingleBytes cpufeatures new (vlimit.toNat - vbase.toNat)) := by
  obtain ⟨-, segment, describes, count, valid, matched, squashed⟩ :=
    accepts_replacement accepted
  have onTheWay : Accepted cpufeatures segment (memory.shift dst) new final
      count := ⟨valid, matched, squashed⟩
  have size : vlimit.toNat - vbase.toNat = segment.size := by
    rw [← describes.limit, describes.base, Nat.add_sub_cancel_left]
  have copies := copiesCode_iff describes memcpy dst final memory
  unfold CompletesCopy
  simp only [copies, size]
  by_cases kept : SquashesSingleBytes cpufeatures new segment.size
  · have returned := onTheWay.copies_all memcpy kept
    refine ⟨⟨_, returned⟩, iff_of_true ?_ kept⟩
    intro after run offset inside
    cases run.unique returned
    rw [Buffer.splice_inside (by omega) (by omega), Nat.add_sub_cancel_left]
  · obtain ⟨offset, inside, different, returned⟩ :=
      onTheWay.breaks_off memcpy kept
    refine ⟨⟨_, returned⟩, iff_of_false ?_ kept⟩
    intro complete
    apply different
    rw [← complete _ returned offset inside,
      Buffer.splice_outside (.inr (Nat.le_refl _))]

end Result

/-- `add $1, %eax` in a bundle of `nop`. -/
def addBundle : Buffer :=
  Buffer.ofList ([0x83, 0xc0, 0x01] ++ List.replicate 13 0x90)

def movapsBundle : Buffer :=
  Buffer.ofList ([0x0f, 0x28, 0xc1] ++ List.replicate 13 0x90)

/-- On a CPU with SSE the replacement is complete. -/
theorem completesCopy_iff_movaps :
    ∃ final, ValidatesReplacement { f386 := true, fSSE := true } 0x10000
        0x10010 16 (Buffer.shift addBundle 0) movapsBundle 0 final ∧
      (∃ after, CopiesCode .bytewise 0 final 0x10000 0x10010 16 addBundle
        after) ∧
      (CompletesCopy .bytewise 0 final 0x10000 0x10010 16 addBundle ↔
        SquashesSingleBytes { f386 := true, fSSE := true } movapsBundle 16) := by
  obtain ⟨final, accepted⟩ : ∃ final,
      ValidatesReplacement { f386 := true, fSSE := true } 0x10000 0x10010 16
        (Buffer.shift addBundle 0) movapsBundle 0 final :=
    exists_validatesReplacement 20 (by decide +kernel)
  exact ⟨final, accepted, completesCopy_iff .bytewise accepted⟩

/-- On a CPU without SSE the new instruction is squashed, the copy breaks off at
it, and success is reported all the same. -/
theorem not_completesCopy_movaps :
    ∃ final, ValidatesReplacement { f386 := true } 0x10000 0x10010 16
        (Buffer.shift addBundle 0) movapsBundle 0 final ∧
      ∃ after, CopiesCode .bytewise 0 final 0x10000 0x10010 16 addBundle
          after ∧
        after 0 ≠ final 0 := by
  have run : (do
      let vstate ← ncValidateInit 0x10000 0x10010 16
      let validation ← ncValidateSegmentPair { f386 := true } 0x10000 16
        (Buffer.shift addBundle 0) ⟨movapsBundle, vstate⟩ 20
      let verdict ← ncValidateFinish (some validation.vstate) 20
      let copied ← ncCopyCode .bytewise 0 validation.memory 0x10000 0x10010 16
        addBundle 20
      return (verdict, copied.2, copied.1 0, validation.memory 0)) =
        some (0, 0, 0x83, 0xf4) := by
    decide +kernel
  simp only [Option.bind_eq_bind, Option.bind_eq_some_iff, Option.pure_def,
    Option.some.injEq, Prod.mk.injEq] at run
  obtain ⟨vstate, init, validation, segment, verdict, finish, ⟨after, code⟩,
    copied, rfl, rfl, first, halted⟩ := run
  refine ⟨validation.memory,
    ⟨vstate, init, 20, validation, segment, rfl, finish⟩, after, ⟨20, copied⟩,
    ?_⟩
  simp only at first
  rw [first, halted]
  decide

end NativeClient.CodeCopy
