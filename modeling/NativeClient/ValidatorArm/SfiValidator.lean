import NativeClient.Library.Loop
import NativeClient.ValidatorArm.AddressSet
import NativeClient.ValidatorArm.InstClasses

/-!
# The ARM validator

Two passes over a list of code segments.  The first walks each segment word by
word, applies patterns to each instruction and to each pair of neighbours, and
fills in two address sets: the direct branches, and the critical addresses
that no branch may go to.  The second checks the target of each direct branch.
A read outside of a segment and a loop without an end have no result.
-/

namespace NativeClient.ValidatorArm

open NativeClient.Library

structure Bundle where
  virtualBase : Nat
  size : Nat

def Bundle.endAddr (bundle : Bundle) : Nat :=
  wrap32 (bundle.virtualBase + bundle.size : Nat)

structure DecodedInstruction where
  addr : Nat
  inst : Instruction
  decoder : ClassDecoder

namespace DecodedInstruction

def safety (i : DecodedInstruction) : SafetyLevel := i.decoder.safety i.inst

def defs (i : DecodedInstruction) : RegisterList := i.decoder.defs i.inst

def isRelativeBranch (i : DecodedInstruction) : Bool :=
  i.decoder.isRelativeBranch i.inst

def branchTargetRegister (i : DecodedInstruction) : Register :=
  i.decoder.branchTargetRegister i.inst

def isLiteralPoolHead (i : DecodedInstruction) : Bool :=
  i.decoder.isLiteralPoolHead i.inst

def branchTarget (i : DecodedInstruction) : Nat :=
  wrap32 (i.addr + (i.decoder.branchTargetOffset i.inst).toNat : Nat)

def baseAddressRegister (i : DecodedInstruction) : Register :=
  i.decoder.baseAddressRegister i.inst

def clearsBits (i : DecodedInstruction) (mask : BitVec 32) : Bool :=
  i.decoder.clearsBits i.inst mask

def setsZIfBitsClear (i : DecodedInstruction) (register : Register)
    (mask : BitVec 32) : Bool :=
  i.decoder.setsZIfBitsClear i.inst register mask

def immediateAddressingDefs (i : DecodedInstruction) : RegisterList :=
  i.decoder.immediateAddressingDefs i.inst

def defines (i : DecodedInstruction) (register : Register) : Bool :=
  i.defs.containsAll register.bitmask

def definesAny (i : DecodedInstruction) (list : RegisterList) : Bool :=
  i.defs.containsAny list

def definesAll (i : DecodedInstruction) (list : RegisterList) : Bool :=
  i.defs.containsAll list

/-- If `other` executes, `i` has executed. -/
def alwaysPrecedes (i other : DecodedInstruction) : Bool :=
  i.inst.condition == other.inst.condition

def alwaysFollows (i other : DecodedInstruction) : Bool :=
  i.inst.condition == other.inst.condition && !other.defines kRegisterFlags

/-- `i` executes only if `other` has set the Z flag. -/
def isConditionalOn (i other : DecodedInstruction) : Bool :=
  i.inst.condition == .eq && other.inst.condition == .al &&
    other.defines kRegisterFlags

end DecodedInstruction

structure CodeSegment where
  startAddr : Nat
  words : List Instruction
  aligned : startAddr % 4 = 0
  fits : startAddr + 4 * words.length < 2 ^ 32

theorem secondPage_aligned : 0x20000 % 4 = 0 := rfl

namespace CodeSegment

def beginAddr (segment : CodeSegment) : Nat := segment.startAddr

def endAddr (segment : CodeSegment) : Nat :=
  segment.startAddr + 4 * segment.words.length

def containsAddress (segment : CodeSegment) (address : Nat) : Bool :=
  segment.beginAddr ≤ address && address < segment.endAddr

/-- The word at an address; `none` outside of the segment. -/
def wordAt (segment : CodeSegment) (address : Nat) : Option Instruction :=
  if segment.startAddr ≤ address then
    segment.words[(address - segment.startAddr) / 4]?
  else
    none

end CodeSegment

inductive Problem where
  | kProblemUnsafe
  | kProblemBranchSplitsPattern
  | kProblemBranchInvalidDest
  | kProblemUnsafeStore
  | kProblemUnsafeBranch
  | kProblemUnsafeDataWrite
  | kProblemReadOnlyRegister
  | kProblemPatternCrossesBundle
  | kProblemMisalignedCall
deriving DecidableEq

structure Report where
  vaddr : Nat
  safety : SafetyLevel
  problem : Problem
  refVaddr : Nat := 0
deriving DecidableEq

/-- What consumes the reports, and may stop the validator after any of them;
`σ` is whatever it remembers. -/
structure ProblemSink (σ : Type) where
  reportProblem : σ → Report → σ
  shouldContinue : σ → Bool × σ

structure SfiValidator where
  bytesPerBundle : Nat
  codeRegionBytes : BitVec 32
  dataRegionBytes : BitVec 32
  readOnlyRegisters : RegisterList
  dataAddressRegisters : RegisterList
  /-- The generated decoder. -/
  decode : Instruction → ClassDecoder
  bundlePower : ∃ log < 32, bytesPerBundle = 2 ^ log

namespace SfiValidator

def dataAddressMask (sfi : SfiValidator) : BitVec 32 :=
  ~~~(sfi.dataRegionBytes - 1)

def codeAddressMask (sfi : SfiValidator) : BitVec 32 :=
  ~~~(sfi.codeRegionBytes - 1) ||| (BitVec.ofNat 32 sfi.bytesPerBundle - 1)

def isDataAddressRegister (sfi : SfiValidator) (register : Register) : Bool :=
  sfi.dataAddressRegisters.contains register

def bundleForAddress (sfi : SfiValidator) (address : Nat) : Bundle :=
  ⟨address - address % sfi.bytesPerBundle, sfi.bytesPerBundle⟩

def isBundleHead (sfi : SfiValidator) (address : Nat) : Bool :=
  address % sfi.bytesPerBundle == 0

def sameBundle (sfi : SfiValidator) (first second : Nat) : Bool :=
  (sfi.bundleForAddress first).virtualBase ==
    (sfi.bundleForAddress second).virtualBase

def decoded (sfi : SfiValidator) (va : Nat) (word : Instruction) :
    DecodedInstruction :=
  ⟨va, word, sfi.decode word⟩

end SfiValidator

inductive PatternMatch where
  | noMatch
  | patternSafe
  | patternUnsafe (report : Report)
deriving DecidableEq

def checkStoreMask (sfi : SfiValidator) (first second : DecodedInstruction) :
    PatternMatch :=
  if second.baseAddressRegister = kRegisterNone ∨
      sfi.isDataAddressRegister second.baseAddressRegister then
    .noMatch
  else if first.defines second.baseAddressRegister &&
      first.clearsBits sfi.dataAddressMask && first.alwaysPrecedes second then
    .patternSafe
  else if first.setsZIfBitsClear second.baseAddressRegister
      sfi.dataAddressMask && second.isConditionalOn first then
    .patternSafe
  else
    .patternUnsafe ⟨second.addr, second.safety, .kProblemUnsafeStore, 0⟩

def checkBranchMask (sfi : SfiValidator) (first second : DecodedInstruction) :
    PatternMatch :=
  if second.branchTargetRegister = kRegisterNone then .noMatch
  else if first.defines second.branchTargetRegister &&
      first.clearsBits sfi.codeAddressMask && first.alwaysPrecedes second then
    .patternSafe
  else
    .patternUnsafe ⟨second.addr, second.safety, .kProblemUnsafeBranch, 0⟩

def checkDataRegisterUpdate (sfi : SfiValidator)
    (first second : DecodedInstruction) : PatternMatch :=
  if !first.definesAny sfi.dataAddressRegisters then .noMatch
  else if first.clearsBits sfi.dataAddressMask then .noMatch
  else
    let dataAddrDefs := first.defs.inter sfi.dataAddressRegisters
    if first.immediateAddressingDefs.inter sfi.dataAddressRegisters =
        dataAddrDefs then
      .noMatch
    else if second.definesAll dataAddrDefs &&
        second.clearsBits sfi.dataAddressMask &&
        second.alwaysFollows first then
      .patternSafe
    else
      .patternUnsafe ⟨first.addr, first.safety, .kProblemUnsafeDataWrite, 0⟩

def checkCallPosition (sfi : SfiValidator) (inst : DecodedInstruction) :
    PatternMatch :=
  if inst.definesAll (kRegisterPc.bitmask.union kRegisterLink.bitmask) &&
      inst.addr !=
        wrap32 ((sfi.bundleForAddress inst.addr).endAddr - 4 : Int) then
    .patternUnsafe ⟨inst.addr, inst.safety, .kProblemMisalignedCall, 0⟩
  else
    .noMatch

def checkReadOnly (sfi : SfiValidator) (inst : DecodedInstruction) :
    PatternMatch :=
  if inst.definesAny sfi.readOnlyRegisters then
    .patternUnsafe ⟨inst.addr, inst.safety, .kProblemReadOnlyRegister, 0⟩
  else
    .noMatch

def checkPcWrites (sfi : SfiValidator) (inst : DecodedInstruction) :
    PatternMatch :=
  if inst.isRelativeBranch ∨ inst.branchTargetRegister ≠ kRegisterNone then
    .noMatch
  else if !inst.defines kRegisterPc then .noMatch
  else if inst.clearsBits sfi.codeAddressMask then .patternSafe
  else .patternUnsafe ⟨inst.addr, inst.safety, .kProblemUnsafeBranch, 0⟩

def oneInstPatterns :
    List (SfiValidator → DecodedInstruction → PatternMatch) :=
  [checkReadOnly, checkPcWrites, checkCallPosition]

def twoInstPatterns : List
    (SfiValidator → DecodedInstruction → DecodedInstruction → PatternMatch) :=
  [checkStoreMask, checkBranchMask, checkDataRegisterUpdate]

def initialPred : DecodedInstruction :=
  ⟨0, 0xE1277777, .forbidden⟩

structure PassResult (σ : Type) where
  completeSuccess : Bool
  sink : σ
  branches : AddressSet
  critical : AddressSet

structure FallthroughState (σ : Type) extends PassResult σ where
  va : Nat
  pred : DecodedInstruction

structure BranchState (σ : Type) where
  it : AddressSet.Iterator
  segIt : List CodeSegment
  completeSuccess : Bool
  sink : σ

def addressContained (va : Nat) (segments : List CodeSegment) : Bool :=
  segments.any fun segment => segment.containsAddress va

section

variable {σ : Type} (sfi : SfiValidator) (out : ProblemSink σ)

def applyOnePattern (inst : DecodedInstruction) (result : Bool × σ)
    (pattern : SfiValidator → DecodedInstruction → PatternMatch) : Bool × σ :=
  match pattern sfi inst with
  | .patternUnsafe report => (false, out.reportProblem result.2 report)
  | _ => result

def applyPatterns (inst : DecodedInstruction) (sink : σ) : Bool × σ :=
  oneInstPatterns.foldl (applyOnePattern sfi out inst) (true, sink)

def applyTwoPattern (first second : DecodedInstruction)
    (result : Bool × AddressSet × σ)
    (pattern :
      SfiValidator → DecodedInstruction → DecodedInstruction → PatternMatch) :
    Bool × AddressSet × σ :=
  let (success, critical, sink) := result
  match pattern sfi first second with
  | .noMatch => (success, critical, sink)
  | .patternUnsafe report => (false, critical, out.reportProblem sink report)
  | .patternSafe =>
      if sfi.sameBundle first.addr second.addr then
        (success, critical.add second.addr, sink)
      else
        (false, critical, out.reportProblem sink
          ⟨first.addr, first.safety, .kProblemPatternCrossesBundle, 0⟩)

def applyPairPatterns (first second : DecodedInstruction)
    (critical : AddressSet) (sink : σ) : Bool × AddressSet × σ :=
  twoInstPatterns.foldl (applyTwoPattern sfi out first second)
    (true, critical, sink)

def applySafety (inst : DecodedInstruction) (sink : σ) : Bool × Bool × σ :=
  if inst.safety = .mayBeSafe then (true, true, sink)
  else
    let (more, sink) := out.shouldContinue
      (out.reportProblem sink ⟨inst.addr, inst.safety, .kProblemUnsafe, 0⟩)
    (more, false, sink)

/-- `for (; va != last_data_addr; va += 4) critical->add(va)`, which ends only
if the distance is a number of words. -/
def addDataWords (critical : AddressSet) (va lastDataAddr : Nat) :
    Option AddressSet :=
  let distance := wrap32 ((lastDataAddr : Int) - va)
  if distance % 4 = 0 then
    some ((List.range (distance / 4)).foldl
      (fun set word => set.add (wrap32 (va + 4 * word : Nat))) critical)
  else
    none

def advanceFallthrough (inst : DecodedInstruction) (result : PassResult σ) :
    Option (FallthroughState σ) :=
  let branches :=
    if inst.isRelativeBranch then result.branches.add inst.addr
    else result.branches
  if inst.isLiteralPoolHead && sfi.isBundleHead inst.addr then
    let lastDataAddr := (sfi.bundleForAddress inst.addr).endAddr
    match addDataWords result.critical inst.addr lastDataAddr with
    | none => none
    | some critical =>
        some {
          result with
          branches := branches
          critical := critical
          va := lastDataAddr
          pred := inst }
  else
    some {
      result with
      branches := branches
      va := wrap32 (inst.addr + 4 : Nat)
      pred := inst }

def fallthroughTurn (segment : CodeSegment) (state : FallthroughState σ) :
    Turn (FallthroughState σ) (Option (PassResult σ)) :=
  if state.va = segment.endAddr then .leave (some state.toPassResult)
  else
    match segment.wordAt state.va with
    | none => .leave none
    | some word =>
        let inst := sfi.decoded state.va word
        let stop (sink : σ) (critical : AddressSet) :
            Turn (FallthroughState σ) (Option (PassResult σ)) :=
          .leave (some {
            state.toPassResult with
            completeSuccess := false
            sink := sink
            critical := critical })
        let (more, safe, sink) := applySafety out inst state.sink
        if !more then stop sink state.critical
        else
          let (single, sink) := applyPatterns sfi out inst sink
          let (more, sink) := out.shouldContinue sink
          if !more then stop sink state.critical
          else
            let (pair, critical, sink) :=
              applyPairPatterns sfi out state.pred inst state.critical sink
            let (more, sink) := out.shouldContinue sink
            if !more then stop sink critical
            else
              let result : PassResult σ := {
                completeSuccess :=
                  state.completeSuccess && safe && single && pair
                sink := sink
                branches := state.branches
                critical := critical }
              match advanceFallthrough sfi inst result with
              | none => .leave none
              | some next => .again next

def validateFallthrough (segment : CodeSegment) (sink : σ)
    (branches critical : AddressSet) : Option (PassResult σ) :=
  (runLoop (fallthroughTurn sfi out segment) (segment.words.length + 1) {
    completeSuccess := true
    sink := sink
    branches := branches
    critical := critical
    va := segment.beginAddr
    pred := initialPred }).join

/-- What is wrong with a direct branch to `target`. -/
def branchProblem (segments : List CodeSegment) (critical : AddressSet)
    (target : Nat) : Option Problem :=
  if addressContained target segments then
    if critical.contains target then some .kProblemBranchSplitsPattern
    else none
  else if BitVec.ofNat 32 target &&& sfi.codeAddressMask = 0 then none
  else some .kProblemBranchInvalidDest

def branchTurn (segments : List CodeSegment) (branches critical : AddressSet)
    (state : BranchState σ) : Turn (BranchState σ) (Option (Bool × σ)) :=
  if state.it = branches.finish then
    .leave (some (state.completeSuccess, state.sink))
  else
    let va := branches.deref state.it
    match state.segIt.dropWhile fun segment => !segment.containsAddress va with
    | [] => .leave none
    | segment :: later =>
        match segment.wordAt va with
        | none => .leave none
        | some word =>
            let inst := sfi.decoded va word
            match branchProblem sfi segments critical inst.branchTarget with
            | none =>
                .again {
                  state with
                  it := branches.next state.it
                  segIt := segment :: later }
            | some problem =>
                let (more, sink) := out.shouldContinue
                  (out.reportProblem state.sink
                    ⟨va, inst.safety, problem, inst.branchTarget⟩)
                if more then
                  .again {
                    it := branches.next state.it
                    segIt := segment :: later
                    completeSuccess := false
                    sink := sink }
                else
                  .leave (some (false, sink))

def validateBranches (segments : List CodeSegment)
    (branches critical : AddressSet) (sink : σ) : Option (Bool × σ) :=
  (runLoop (branchTurn sfi out segments branches critical)
    (32 * branches.maxIndex + 1) {
      it := branches.begin
      segIt := segments
      completeSuccess := true
      sink := sink }).join

def fallthroughSegments :
    List CodeSegment → PassResult σ → Option (Bool × PassResult σ)
  | [], result => some (true, result)
  | segment :: segments, result =>
      match validateFallthrough sfi out segment result.sink result.branches
          result.critical with
      | none => none
      | some pass =>
          let (more, sink) := out.shouldContinue pass.sink
          let joined : PassResult σ := {
            pass with
            completeSuccess := result.completeSuccess && pass.completeSuccess
            sink := sink }
          if more then fallthroughSegments segments joined
          else some (false, joined)

def coveredRange (first last : CodeSegment) : AddressSet :=
  .empty first.beginAddr (wrap32 ((last.endAddr : Int) - first.beginAddr))

def validate (segments : List CodeSegment) (sink : σ) : Option (Bool × σ) :=
  match segments.head?, segments.getLast? with
  | some first, some last =>
      match fallthroughSegments sfi out segments {
          completeSuccess := true
          sink := sink
          branches := coveredRange first last
          critical := coveredRange first last } with
      | none => none
      | some (false, result) => some (false, result.sink)
      | some (true, result) =>
          match validateBranches sfi out segments result.branches
              result.critical result.sink with
          | none => none
          | some (success, sink) =>
              some (result.completeSuccess && success, sink)
  | _, _ => none

end

theorem sixteen_bundlePower : ∃ log < 32, 16 = 2 ^ log :=
  ⟨4, by decide, rfl⟩

def ncValidator (decode : Instruction → ClassDecoder) : SfiValidator where
  bytesPerBundle := 16
  codeRegionBytes := 1024 * 1024 * 1024
  dataRegionBytes := 1024 * 1024 * 1024
  readOnlyRegisters := Register.bitmask 9
  dataAddressRegisters := kRegisterStack.bitmask
  decode := decode
  bundlePower := sixteen_bundlePower

def earlyExitProblemSink : ProblemSink Bool where
  reportProblem _ _ := true
  shouldContinue problems := (!problems, problems)

/-- `0` if the segment is accepted, and `2` if it is not. -/
def ncValidateSegment (decode : Instruction → ClassDecoder)
    (segment : CodeSegment) : Option Nat :=
  match validate (ncValidator decode) earlyExitProblemSink [segment] false with
  | none => none
  | some (success, _) => some (if success then 0 else 2)

end NativeClient.ValidatorArm
