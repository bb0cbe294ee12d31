import NativeClient.Validator32.SegmentValidator

/-!
# Validating a replacement

The part of `ncvalidate.c` that decides whether new code may take the place of
code that runs already.  Both texts are decoded in lock step; the rules for one
instruction are applied to the new text, and an instruction may only replace
one of its own length.
-/

namespace NativeClient.Validator32

open NativeClient.Library
open NativeClient.Decoder

structure Replacement where
  memoryOld : Buffer
  validation : Validation

def Replacement.memoryNew (replacement : Replacement) : Buffer :=
  replacement.validation.memory

def memcmpEqual (memoryOld : Buffer) (first : Nat) (memoryNew : Buffer)
    (second count : Nat) : Bool :=
  (List.range count).all fun index =>
    memoryOld (first + index) = memoryNew (second + index)

def sameIndirect5 (bufferOld bufferNew : DecodeBuffer)
    (memoryOld memoryNew : Buffer) : Prop :=
  let andinstOld := previousInst bufferOld (-1)
  let andinstNew := previousInst bufferNew (-1)
  let mstateOld := bufferOld.mstate
  let mstateNew := bufferNew.mstate
  andinstOld.inst.length = 3 ∧
    andinstNew.inst.length = 3 ∧
    memcmpEqual memoryOld andinstOld.inst.maddr memoryNew
      andinstNew.inst.maddr 3 = true ∧
    mstateOld.inst.length = 2 ∧
    mstateNew.inst.length = 2 ∧
    memcmpEqual memoryOld mstateOld.inst.maddr memoryNew
      mstateNew.inst.maddr 2 = true

instance (bufferOld bufferNew : DecodeBuffer) (memoryOld memoryNew : Buffer) :
    Decidable (sameIndirect5 bufferOld bufferNew memoryOld memoryNew) :=
  inferInstanceAs (Decidable (_ ∧ _))

def validateIndirect5Replacement (bufferOld bufferNew : DecodeBuffer)
    (memoryOld : Buffer) (validation : Validation) : Validation :=
  if sameIndirect5 bufferOld bufferNew memoryOld validation.memory then
    validation
  else
    (badInstructionError bufferNew.mstate validation).tally statsUnsafeIndirect

def validateLengthReplacement (mstateOld mstateNew : NCDecoderState)
    (validation : Validation) : Validation :=
  if mstateOld.inst.length ≠ mstateNew.inst.length ∨
      mstateOld.vpc ≠ mstateNew.vpc then
    (badInstructionError mstateNew validation).tally statsBadInstLength
  else
    validation

def validateInstReplacement (bufferOld bufferNew : DecodeBuffer)
    (replacement : Replacement) : Replacement :=
  let mstateOld := bufferOld.mstate
  let mstateNew := bufferNew.mstate
  let validation := validateLengthReplacement mstateOld mstateNew
    (validateInst bufferNew replacement.validation)
  { replacement with
    validation :=
      if mstateOld.opinfo.insttype = .indirect ∨
          mstateNew.opinfo.insttype = .indirect then
        validateIndirect5Replacement bufferOld bufferNew replacement.memoryOld
          validation
      else
        validation }

def replacementStats : DecoderStats Replacement where
  newSegment := fun replacement =>
    { replacement with
      validation := validatorStats.newSegment replacement.validation }
  segFault := fun replacement =>
    { replacement with
      validation := validatorStats.segFault replacement.validation }
  internalError := fun replacement =>
    { replacement with
      validation := validatorStats.internalError replacement.validation }

/-- `NCValidateSegmentPair`, on a machine with the given features. -/
def ncValidateSegmentPair (cpufeatures : CPUFeatures) (vbase sz : Nat)
    (memoryOld : Buffer) (validation : Validation) (fuel : Nat) :
    Option Validation :=
  match ncValidateStart cpufeatures sz validation with
  | .inl failed => some failed
  | .inr detected =>
      (ncDecodeSegmentPair Replacement.memoryOld Replacement.memoryNew
        replacementStats validateInstReplacement vbase sz
        ⟨memoryOld, detected⟩ fuel).map Replacement.validation

/-- `NCValidateInit`, `NCValidateSegmentPair` and `NCValidateFinish` in a row,
as `NaClValidateCodeReplacement` calls them: they return `verdict` and leave
`final` in the place of the new text. -/
def ValidatesReplacement (cpufeatures : CPUFeatures) (vbase vlimit : UInt32)
    (alignment : UInt8) (memoryOld memoryNew : Buffer) (verdict : Nat)
    (final : Buffer) : Prop :=
  ∃ vstate, ncValidateInit vbase vlimit alignment = some vstate ∧
    ∃ fuel validation,
      ncValidateSegmentPair cpufeatures vbase.toNat
          (vlimit.toNat - vbase.toNat) memoryOld ⟨memoryNew, vstate⟩ fuel =
        some validation ∧
        validation.memory = final ∧
        ncValidateFinish (some validation.vstate) fuel = some verdict

end NativeClient.Validator32
