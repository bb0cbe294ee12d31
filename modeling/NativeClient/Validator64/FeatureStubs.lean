import NativeClient.Validator64.CalmValidators
import NativeClient.Validator64.SegmentRun
import NativeClient.Validator32.InstructionRules

/-!
# Instructions that the CPU lacks

`NaClCpuCheck` overwrites an instruction whose CPU feature is missing, by a
switch over the instruction classes that `ValidateInst` has a second version
of.  Here stands which features an instruction needs, which bytes a whole
validation overwrites, and where the two switches differ.
-/

namespace NativeClient.Validator64

open NativeClient.Library
open NativeClient.Decoder (NaClInstType DecodeBuffer modrmMod)
open NativeClient.Decoder64
open NativeClient.Validator32 (kNaClFullStop treatment squashes validateByType
  Validation)

/-! ## The features of an instruction class -/

/-- A feature that the instruction class needs is missing, where a ModRM byte
tells `sfence` from `clflush`: the rule of `ValidateInst`, and the features of
the classes that it refuses. -/
def lacksRequired (features : CPUFeatures) (modrm : UInt8) :
    NaClInstType → Bool
  | .cmpxchg16b => !features.fCX16
  | .longmode => !features.fLM
  | insttype =>
      match treatment insttype with
      | .feature present => !present features.toCPUFeatures
      | .sfenceClflush =>
          if modrmMod modrm = 3 then !features.fFXSR else !features.fCLFLUSH
      | .sse2x => !features.fSSE2
      | _ => false

/-- `NaClCpuCheck` asks for more than the class needs: for all that could do
in place of one of them, or for the features of both fence instructions. -/
def Overruled (features : CPUFeatures) (modrm : UInt8)
    (insttype : NaClInstType) : Prop :=
  (insttype = .mmxsse2 ∧ (features.fMMX || features.fSSE2) = true) ∨
    (insttype = .sfenceClflush ∧
      if modrmMod modrm = 3 then
        features.fFXSR = true ∧ features.fCLFLUSH = false
      else
        features.fCLFLUSH = true ∧ features.fFXSR = false)

instance (features : CPUFeatures) (modrm : UInt8) (insttype : NaClInstType) :
    Decidable (Overruled features modrm insttype) :=
  inferInstanceAs (Decidable (_ ∨ _))

/-- `ValidateInst` reports every instruction of the class. -/
def refusedBy32 (insttype : NaClInstType) : Bool :=
  match treatment insttype with
  | .returns | .illegal | .undefined | .unknown => true
  | _ => false

def refusedBy64 (insttype : NaClInstType) : Bool :=
  isIllegalType insttype || insttype == .invalid || insttype == .syscall ||
    insttype == .sysenter

section Classes

variable (features : CPUFeatures) (modrm : UInt8) (insttype : NaClInstType)

theorem lacksFeature_iff :
    lacksFeature features insttype = true ↔
      lacksRequired features modrm insttype = true ∨
        Overruled features modrm insttype := by
  cases insttype with
  | sfenceClflush =>
      simp only [lacksFeature, lacksRequired, Overruled, treatment]
      split <;> cases features.fCLFLUSH <;> cases features.fFXSR <;> simp
  | mmxsse2 =>
      simp only [lacksFeature, lacksRequired, Overruled, treatment]
      cases features.fMMX <;> cases features.fSSE2 <;> simp
  | _ => simp [lacksFeature, lacksRequired, Overruled, treatment]

variable {features modrm insttype}

end Classes

/-! ## The two switches -/

theorem validateByType_squash
    (decodebuffer : DecodeBuffer) (validation : Validation) :
    (validateByType decodebuffer validation).2 =
      squashes validation.vstate.cpufeatures validation.memory
        decodebuffer.mstate := by
  unfold validateByType squashes
  dsimp only
  cases treatment decodebuffer.mstate.opinfo.insttype with
  | sfenceClflush =>
      dsimp only [Validator32.sFenceClFlushImplemented]
      split <;> rfl
  | _ => rfl

/-- The byte that `ValidateInst` takes for the ModRM byte. -/
def thirdByte (decodebuffer : DecodeBuffer) (validation : Validation) : UInt8 :=
  validation.memory (decodebuffer.mstate.inst.maddr + 2)

/-- For the class of an instruction, and a CPU with and without the two
features that only 64 bit code asks for, either the switches of `NaClCpuCheck`
and of `ValidateInst` agree or both validators refuse the class. -/
def RulesAgree (decodebuffer : DecodeBuffer) (validation : Validation)
    (fCX16 fLM : Bool) : Prop :=
  let insttype := decodebuffer.mstate.opinfo.insttype
  lacksFeature ⟨validation.vstate.cpufeatures, fCX16, fLM⟩ insttype =
      (validateByType decodebuffer validation).2 ∨
    (refusedBy32 insttype = true ∧ refusedBy64 insttype = true)

theorem rulesAgree_iff
    (decodebuffer : DecodeBuffer) (validation : Validation)
    (fCX16 fLM : Bool) :
    RulesAgree decodebuffer validation fCX16 fLM ↔
      ¬ Overruled ⟨validation.vstate.cpufeatures, fCX16, fLM⟩
        (thirdByte decodebuffer validation)
        decodebuffer.mstate.opinfo.insttype := by
  unfold RulesAgree thirdByte
  rw [validateByType_squash]
  generalize same : validation.memory
    (decodebuffer.mstate.inst.maddr + 2) = modrm
  unfold squashes
  rw [same]
  cases decodebuffer.mstate.opinfo.insttype with
  | sfenceClflush =>
      simp only [lacksFeature, Overruled, treatment, refusedBy32]
      split <;> cases validation.vstate.cpufeatures.fCLFLUSH <;>
        cases validation.vstate.cpufeatures.fFXSR <;> simp
  | mmxsse2 =>
      simp only [lacksFeature, Overruled, treatment, refusedBy32]
      cases validation.vstate.cpufeatures.fMMX <;>
        cases validation.vstate.cpufeatures.fSSE2 <;> simp
  | _ =>
      simp [lacksFeature, Overruled, treatment, refusedBy32, refusedBy64,
        isIllegalType]

end NativeClient.Validator64
