import NativeClient.Validator64.InstructionValidators

/-!
# The 64 bit segment validator

`NaClValidateSegment`: the validators are applied at every instruction of the
iterator, until one of them quits, and then once more to what they collected.
-/

namespace NativeClient.Validator64

open NativeClient.Library
open NativeClient.Decoder64

/-! ## `NaClJumpValidatorSummarize` -/

def isNaClReachableAddress (config : NaClValidatorConfig) (address : Nat)
    (state : NaClValidatorState) : Bool × NaClValidatorState :=
  match naClAddressSetContains config .possibleTargets address state with
  | (true, found) =>
      match naClAddressSetContains config .removedTargets address found with
      | (removed, checked) => (!removed, checked)
  | (false, checked) => (false, checked)

def checkReachable (config : NaClValidatorConfig) (address : Nat)
    (state : NaClValidatorState) : NaClValidatorState :=
  match isNaClReachableAddress config address state with
  | (true, checked) => checked
  | (false, checked) => naClValidatorMessage config checked

def setArraySize (config : NaClValidatorConfig) : Nat :=
  (config.vlimit -
    (config.vbase - (config.vbase &&& config.alignment))) >>> 3 + 1

def checkTarget (config : NaClValidatorConfig) (byte : Nat)
    (state : NaClValidatorState) (bit : Nat) : NaClValidatorState :=
  let address := (byte <<< 3 + config.vbase + bit) % 2 ^ 64
  if address < config.vlimit then
    match naClAddressSetContains config .actualTargets address state with
    | (true, found) => checkReachable config address found
    | (false, checked) => checked
  else
    state

def isProblem (state : NaClValidatorState) (byte : Nat) : Bool :=
  (state.jumpSets .actualTargets byte) &&&
    (~~~ (state.jumpSets .possibleTargets byte) |||
      (state.jumpSets .removedTargets byte)) != 0

def checkTargetByte (config : NaClValidatorConfig)
    (state : NaClValidatorState) (byte : Nat) : NaClValidatorState :=
  if isProblem state byte then
    (List.range 8).foldl (checkTarget config byte) state
  else
    state

def checkTargets (config : NaClValidatorConfig)
    (state : NaClValidatorState) : NaClValidatorState :=
  (List.range (setArraySize config)).foldl (checkTargetByte config) state

def bundleTurn (config : NaClValidatorConfig)
    (turned : Nat × NaClValidatorState) :
    Turn (Nat × NaClValidatorState) NaClValidatorState :=
  if turned.1 < config.vlimit then
    .again ((turned.1 + config.alignment) % 2 ^ 64,
      checkReachable config turned.1 turned.2)
  else
    .leave turned.2

def checkBundles (config : NaClValidatorConfig) (fuel : Nat)
    (state : NaClValidatorState) : Option NaClValidatorState :=
  if config.vbase &&& config.alignmentMask ≠ 0 then
    some (naClValidatorMessage config state)
  else
    runLoop (bundleTurn config) fuel (config.vbase, state)

def naClJumpValidatorSummarize (config : NaClValidatorConfig) (fuel : Nat)
    (state : NaClValidatorState) : Option NaClValidatorState :=
  if state.quit then some state
  else checkBundles config fuel (checkTargets config state)

/-! ## `NaClValidateSegment` -/

def unlessQuit (validator : NaClValidatorState → NaClValidatorState)
    (state : NaClValidatorState) : NaClValidatorState :=
  if state.quit then state else validator state

def naClApplyValidators (config : NaClValidatorConfig) (look : Lookback)
    (inst : NaClInstState) (state : NaClValidatorState) :
    NaClValidatorState :=
  unlessQuit (naClJumpValidator config look inst) <|
  unlessQuit (naClMemoryReferenceValidator config look inst) <|
  unlessQuit (naClBaseRegisterValidator config look inst) <|
  unlessQuit (naClValidateInstructionLegal config inst) <|
  unlessQuit (naClCpuCheck config inst) state

def naClApplyPostValidators (config : NaClValidatorConfig) (fuel : Nat)
    (state : NaClValidatorState) : Option NaClValidatorState :=
  naClJumpValidatorSummarize config fuel <|
  unlessQuit (naClBaseRegisterSummarize config) <|
  unlessQuit (naClCpuCheckSummary config) state

def currentInst (tables : Tables) (config : NaClValidatorConfig)
    (iter : NaClInstIter) (state : NaClValidatorState) : NaClInstState :=
  let inst := naClInstIterGetState tables state.text config.segment iter
  { inst with
    nodes := some (inst.expVector tables (state.text.shift inst.mpc)) }

def loadedIter (tables : Tables) (config : NaClValidatorConfig)
    (iter : NaClInstIter) (state : NaClValidatorState) : NaClInstIter :=
  { iter with
    buffer :=
      iter.buffer.setCurrent (some (currentInst tables config iter state)) }

def lookback (tables : Tables) (config : NaClValidatorConfig)
    (iter : NaClInstIter) (state : NaClValidatorState) : Lookback :=
  fun distance =>
    if naClInstIterHasLookbackState iter distance then
      some (naClInstIterGetLookbackState tables state.text config.segment iter
        distance)
    else
      none

def validateInst (tables : Tables) (config : NaClValidatorConfig)
    (iter : NaClInstIter) (state : NaClValidatorState) : NaClValidatorState :=
  naClApplyValidators config
    (lookback tables config (loadedIter tables config iter state) state)
    (currentInst tables config iter state) state

def validateTurn (tables : Tables) (config : NaClValidatorConfig)
    (turned : NaClInstIter × NaClValidatorState) :
    Turn (NaClInstIter × NaClValidatorState) NaClValidatorState :=
  if naClInstIterHasNext config.segment turned.1 then
    let applied := validateInst tables config turned.1 turned.2
    if applied.quit then
      .leave applied
    else
      .again (naClInstIterAdvance tables applied.text config.segment
        (loadedIter tables config turned.1 turned.2), applied)
  else
    .leave turned.2

def naClValidateSegment (tables : Tables) (config : NaClValidatorConfig)
    (fuel : Nat) (text : Buffer) : Option NaClValidatorState := do
  let walked ← runLoop (validateTurn tables config) fuel
    (naClInstIterCreateWithLookback, naClValidatorStateCreate config text)
  naClApplyPostValidators config fuel walked

/-- The segment is accepted: the validator stops, and `NaClValidatesOk`. -/
def Accepts (tables : Tables) (config : NaClValidatorConfig)
    (text : Buffer) : Prop :=
  ∃ fuel state, naClValidateSegment tables config fuel text = some state ∧
    state.validatesOk = true

theorem accepts_of_verdict
    {tables : Tables} {config : NaClValidatorConfig} {text : Buffer}
    (fuel : Nat)
    (verdict : (naClValidateSegment tables config fuel text).map
      NaClValidatorState.validatesOk = some true) :
    Accepts tables config text := by
  obtain ⟨state, ran, accepted⟩ := Option.map_eq_some_iff.mp verdict
  exact ⟨fuel, state, ran, accepted⟩

end NativeClient.Validator64
