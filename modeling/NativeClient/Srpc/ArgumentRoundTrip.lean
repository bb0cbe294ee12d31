import NativeClient.Srpc.ArgumentEncoding

/-!
# Which arguments arrive

An element is read into another one with the same tag, zeroed or the caller's.
What arrives depends on the two of them only: reading takes the bytes of the
element and leaves what follows.  A vector arrives if each element does.
-/

namespace NativeClient.Srpc

open NativeClient.Library

variable {δ : Type}

def Arg.template : Arg δ → UInt8 × Option Nat
  | .array type elements => ((ArgType.array type).tag, some elements.list.length)
  | arg => (arg.tag, none)

def Arg.BoolIsByte : Arg δ → Prop
  | .basic .bool field => field.val < 256
  | _ => True

def Arg.CountBelowLimit : Arg δ → Prop
  | .array type elements => elements.list.length < abiSizeMax / type.size
  | _ => True

def Arg.Receives : Arg δ → Arg δ → Prop
  | .basic .bool target, .basic .bool field => target.val / 256 = field.val / 256
  | .array _ target, .array _ elements =>
      target.list.length = elements.list.length
  | _, _ => True

section Elements

variable (platform : Platform δ) (writeValue allocate readValue : Bool)
    (Same : Arg δ → Arg δ → Prop)

/-- Whether reading the encoding of `arg` into `target` gives the same argument
again is a condition that does not depend on what follows. -/
def Delivers (condition : Prop) (target arg : Arg δ) : Prop :=
  ∃ outcome : Option (Arg δ),
    (∀ following, argGet platform allocate readValue target
      ((encodeArg writeValue arg).append following) =
        outcome.map fun got => (got, following)) ∧
    ((∃ got, outcome = some got ∧ Same got arg) ↔ condition)

end Elements

section Arriving

variable {platform : Platform δ} {type : ArrayType} {allocate : Bool}

private theorem delivers_basic
    {allocate : Bool} {type : BasicType} (target field : Field type.fieldSize) :
    Delivers platform true allocate true (· = ·)
      (target.val / 256 ^ type.size = field.val / 256 ^ type.size)
      (.basic type target) (.basic type field) := by
  refine ⟨some (.basic type
    (overwriteField target (littleEndian type.size field.val))), ?_, ?_⟩
  · intro following
    simp only [argGet, basicGet, encodeArg, Datagram.append, if_true,
      List.nil_append,
      getElements_number _ _ type.size_pos type.size_le, Option.map_some]
  · rw [← overwriteField_eq_iff type.size_le_fieldSize]
    simp

private theorem high_of_fieldSize
    {type : BasicType} (whole : type.fieldSize = type.size)
    (field : Field type.fieldSize) :
    field.val / 256 ^ type.size = 0 := by
  have small : field.val < 256 ^ type.size :=
    Nat.lt_of_lt_of_eq field.isLt (congrArg (256 ^ ·) whole)
  exact Nat.div_eq_of_lt small

private theorem delivers_handle
    (target hval : δ) (condition : Prop) (holds : condition) :
    Delivers platform true allocate true (· = ·) condition
      (.handle target) (.handle hval) := by
  refine ⟨some (.handle hval), fun following => rfl, ?_⟩
  simp [holds]

private theorem arrGet_append
    {readValue : Bool}
    (target elements : Elements type)
    (fits : readValue →
      elements.list.length * type.size ≤ imcUserBytesMax)
    (following : Datagram δ) :
    arrGet platform type allocate readValue target
      ((encodeArg readValue (.array type elements)).append following) =
        (arrayTarget platform type allocate target
          ⟨elements.list.length, elements.length_lt⟩).map fun array =>
            (if readValue then
              array.overwrite elements.list.length (bytesOfFields elements.list)
            else array, following) := by
  simp only [arrGet, encodeArg, Datagram.append, List.append_assoc,
    List.nil_append, getCount_append elements.length_lt, Option.bind_eq_bind,
    Option.bind_some]
  cases arrayTarget platform type allocate target
      ⟨elements.list.length, elements.length_lt⟩ with
  | none => rfl
  | some array =>
      cases readValue with
      | false => rfl
      | true =>
          have bound := fits rfl
          rw [← length_bytesOfFields] at bound
          simp only [if_true, Option.bind_some, Option.map_some,
            getElements_append type.size_pos type.size_le
              (length_bytesOfFields _) bound]
          rfl

variable (memory : ∀ size, (platform.malloc size).isSome)

include memory

private theorem delivers_string
    (target : Option CString) {str : CString}
    (fits : str.chars.length ≤ imcUserBytesMax)
    (condition : Prop) (holds : condition) :
    Delivers platform true allocate true (· = ·) condition
      (.string target) (.string (some str)) := by
  refine ⟨some (.string (some str)), fun following => ?_, ?_⟩
  · have small : str.chars.length < 2 ^ 32 := by
      unfold imcUserBytesMax at fits
      omega
    have below : ¬abiSizeMax ≤ str.chars.length := by
      unfold imcUserBytesMax at fits
      unfold abiSizeMax
      omega
    obtain ⟨contents, allocated⟩ :=
      Option.isSome_iff_exists.mp (memory (str.chars.length + 1))
    simp only [argGet, stringGet, encodeArg, Datagram.append, if_true,
      List.append_assoc, List.nil_append, getCount_append small,
      Option.bind_eq_bind, Option.bind_some, if_neg below, allocated,
      @getElements_append δ str.chars 1 str.chars.length (by decide) (by decide)
        (Nat.mul_one _).symm fits, cString_chars]
    rfl
  · simp [holds]

private theorem freshElements_length
    (type : ArrayType) (count : Fin (2 ^ 32)) :
    ∃ array, freshElements platform type count = some array ∧
      array.list.length = count := by
  obtain ⟨contents, allocated⟩ :=
    Option.isSome_iff_exists.mp (memory (count * type.size))
  simp only [freshElements, allocated, Option.map_some]
  exact ⟨_, rfl, List.length_ofFn⟩

private theorem delivers_new_array
    (target elements : Elements type)
    (fits : elements.list.length * type.size ≤ imcUserBytesMax)
    (condition : Prop) (holds : condition) :
    Delivers platform true true true (· = ·) condition
      (.array type target) (.array type elements) := by
  obtain ⟨array, fresh, length⟩ := freshElements_length memory type
    ⟨elements.list.length, elements.length_lt⟩
  have below : elements.list.length < abiSizeMax / type.size := by
    rw [Nat.lt_div_iff_mul_lt type.size_pos]
    have small := type.size_le
    unfold imcUserBytesMax at fits
    unfold abiSizeMax
    omega
  have allocated : arrayTarget platform type true target
      ⟨elements.list.length, elements.length_lt⟩ = some array := by
    rw [arrayTarget, if_pos rfl, if_neg (Nat.not_le.mpr below), fresh]
  have same : array.overwrite elements.list.length
      (bytesOfFields elements.list) = elements := by
    apply Elements.ext
    rw [Elements.overwrite_list (Nat.le_of_eq length.symm), List.drop_of_length_le
      (Nat.le_of_eq length), List.append_nil]
  refine ⟨some (.array type elements), fun following => ?_, ?_⟩
  · rw [argGet, arrGet_append target elements (fun _ => fits), allocated]
    simp only [Option.map_some, if_true, same]
  · simp [holds]

private theorem delivers_template_array
    (target elements : Elements type) :
    Delivers platform false true false
      (fun got arg => got.template = arg.template)
      (elements.list.length < abiSizeMax / type.size)
      (.array type target) (.array type elements) := by
  obtain ⟨array, fresh, length⟩ := freshElements_length memory type
    ⟨elements.list.length, elements.length_lt⟩
  have unread : false = true →
      elements.list.length * type.size ≤ imcUserBytesMax := by
    intro read
    exact absurd read (by decide)
  by_cases below : elements.list.length < abiSizeMax / type.size
  · refine ⟨some (.array type array), fun following => ?_, ?_⟩
    · rw [argGet, arrGet_append target elements unread, arrayTarget, if_pos rfl,
        if_neg (Nat.not_le.mpr below), fresh]
      rfl
    · simp [below, Arg.template, length]
  · refine ⟨none, fun following => ?_, ?_⟩
    · rw [argGet, arrGet_append target elements unread, arrayTarget, if_pos rfl,
        if_pos (Nat.not_lt.mp below)]
      rfl
    · simp [below]

omit memory in
private theorem delivers_caller_array
    (target elements : Elements type)
    (fits : elements.list.length * type.size ≤ imcUserBytesMax) :
    Delivers platform true false true (· = ·)
      (target.list.length = elements.list.length)
      (.array type target) (.array type elements) := by
  by_cases short : target.list.length < elements.list.length
  · refine ⟨none, fun following => ?_, ?_⟩
    · rw [argGet, arrGet_append target elements (fun _ => fits), arrayTarget,
        if_neg (by decide), if_pos short]
      rfl
    · have differ : target.list.length ≠ elements.list.length := by omega
      simp [differ]
  · have overwritten := @Elements.overwrite_list type target elements
      (Nat.not_lt.mp short)
    refine ⟨some (.array type (target.overwrite elements.list.length
      (bytesOfFields elements.list))), fun following => ?_, ?_⟩
    · rw [argGet, arrGet_append target elements (fun _ => fits), arrayTarget,
        if_neg (by decide), if_neg short]
      rfl
    · constructor
      · rintro ⟨got, same, equal⟩
        cases same
        have lists := congrArg (fun arg => arg.template.2) equal
        simp only [Arg.template, overwritten, List.length_append,
          List.length_drop, Option.some.injEq] at lists
        omega
      · intro same
        refine ⟨_, rfl, ?_⟩
        congr 1
        apply Elements.ext
        rw [overwritten, List.drop_of_length_le (Nat.le_of_eq same),
          List.append_nil]

end Arriving

section Modes

variable {platform : Platform δ}

private theorem zeroedArg_basic (type : BasicType) :
    zeroedArg platform (ArgType.basic type).tag =
      .basic type ⟨0, Nat.pow_pos (by decide)⟩ := by
  cases type <;> rfl

private theorem zeroedArg_array (type : ArrayType) :
    zeroedArg platform (ArgType.array type).tag =
      .array type ⟨[], Nat.two_pow_pos 32⟩ := by
  cases type <;> rfl

theorem tag_zeroedArg (tag : UInt8) : (zeroedArg platform tag).tag = tag := by
  unfold zeroedArg
  have found : ∀ type, argsGetEltInterface tag = some type → type.tag = tag :=
    fun type found => by simpa using List.find?_some found
  split
  next type interface => exact found _ interface
  next type interface => exact found _ interface
  next interface => exact found _ interface
  next interface => exact found _ interface
  next => rfl

private theorem length_le_of_fits
    {type : ArrayType} {elements : Elements type}
    (fits : (encodeArg true (.array type elements : Arg δ)).bytes.length ≤
      imcUserBytesMax) :
    elements.list.length * type.size ≤ imcUserBytesMax := by
  simp only [encodeArg, if_true, List.length_append, length_bytesOfFields] at fits
  omega

theorem delivers_request
    (memory : ∀ size, (platform.malloc size).isSome)
    {arg : Arg δ} (supported : arg.Supported true)
    (fits : (encodeArg true arg).bytes.length ≤ imcUserBytesMax) :
    Delivers platform true true true (· = ·) arg.BoolIsByte
      (zeroedArg platform arg.tag) arg := by
  cases arg with
  | basic type field =>
      rw [Arg.tag, zeroedArg_basic]
      have delivers := @delivers_basic δ platform true type
        ⟨0, Nat.pow_pos (by decide)⟩ field
      have same : (0 / 256 ^ type.size = field.val / 256 ^ type.size) =
          (Arg.basic type field : Arg δ).BoolIsByte := by
        rw [Nat.zero_div]
        cases type with
        | bool =>
            simp only [Arg.BoolIsByte, BasicType.size, eq_iff_iff]
            omega
        | double => exact eq_true (high_of_fieldSize rfl field).symm
        | int => exact eq_true (high_of_fieldSize rfl field).symm
        | long => exact eq_true (high_of_fieldSize rfl field).symm
      rw [← same]
      exact delivers
  | array type elements =>
      rw [Arg.tag, zeroedArg_array]
      exact delivers_new_array memory _ elements (length_le_of_fits fits) _ trivial
  | handle hval => exact delivers_handle _ hval _ trivial
  | string str =>
      cases str with
      | none => exact absurd supported Bool.noConfusion
      | some str =>
          refine delivers_string memory _ ?_ _ trivial
          simp only [encodeArg, if_true, List.length_append] at fits
          omega
  | other tag invalid => exact absurd supported id

theorem delivers_template
    (memory : ∀ size, (platform.malloc size).isSome)
    {arg : Arg δ} (supported : arg.Supported false) :
    Delivers platform false true false
      (fun got arg => got.template = arg.template) arg.CountBelowLimit
      (zeroedArg platform arg.tag) arg := by
  have unchanged : ∀ {target arg : Arg δ}, target.template = arg.template →
      arg.CountBelowLimit →
      (∀ following, argGet platform true false target
        ((encodeArg false arg).append following) = some (target, following)) →
      Delivers platform false true false
        (fun got arg => got.template = arg.template) arg.CountBelowLimit
        target arg := by
    intro target arg same below got
    exact ⟨some target, got, by simp [same, below]⟩
  cases arg with
  | basic type field =>
      rw [Arg.tag, zeroedArg_basic]
      exact unchanged rfl trivial fun following => rfl
  | array type elements =>
      rw [Arg.tag, zeroedArg_array]
      exact delivers_template_array memory _ elements
  | handle hval => exact unchanged rfl trivial fun following => rfl
  | string str =>
      cases str with
      | none => exact unchanged rfl trivial fun following => rfl
      | some str => exact unchanged rfl trivial fun following => rfl
  | other tag invalid => exact absurd supported id

private theorem interface_tag (arg : Arg δ) :
    argsGetEltInterface arg.tag =
      match arg with
      | .basic type _ => some (.basic type)
      | .array type _ => some (.array type)
      | .handle _ => some .handle
      | .string _ => some .string
      | .other _ _ => none := by
  cases arg with
  | basic type field => exact argsGetEltInterface_tag _
  | array type elements => exact argsGetEltInterface_tag _
  | handle hval => exact argsGetEltInterface_tag .handle
  | string str => exact argsGetEltInterface_tag .string
  | other tag invalid => exact invalid

private theorem delivers_caller_basic
    {type : BasicType} (target field : Field type.fieldSize) :
    Delivers platform true false true (· = ·)
      ((Arg.basic type target : Arg δ).Receives (.basic type field))
      (.basic type target) (.basic type field) := by
  have delivers := @delivers_basic δ platform false type target field
  have whole : type.fieldSize = type.size →
      (target.val / 256 ^ type.size = field.val / 256 ^ type.size) = True := by
    intro whole
    rw [high_of_fieldSize whole, high_of_fieldSize whole]
    exact eq_self 0
  cases type with
  | bool => exact delivers
  | double => exact cast (by rw [whole rfl]; rfl) delivers
  | int => exact cast (by rw [whole rfl]; rfl) delivers
  | long => exact cast (by rw [whole rfl]; rfl) delivers

theorem delivers_response
    (memory : ∀ size, (platform.malloc size).isSome)
    {target arg : Arg δ} (tags : target.tag = arg.tag)
    (supported : arg.Supported true)
    (fits : (encodeArg true arg).bytes.length ≤ imcUserBytesMax) :
    Delivers platform true false true (· = ·) (target.Receives arg) target arg := by
  have interfaces := interface_tag target
  rw [tags, interface_tag arg] at interfaces
  cases arg with
  | basic type field =>
      cases target <;> cases interfaces
      exact delivers_caller_basic _ field
  | array type elements =>
      cases target <;> cases interfaces
      exact delivers_caller_array _ elements (length_le_of_fits fits)
  | handle hval =>
      cases target <;> cases interfaces
      exact delivers_handle _ hval _ trivial
  | string str =>
      cases target <;> cases interfaces
      cases str with
      | none => exact absurd supported Bool.noConfusion
      | some str =>
          refine delivers_string memory _ ?_ _ trivial
          simp only [encodeArg, if_true, List.length_append] at fits
          omega
  | other tag invalid => exact absurd supported id

end Modes

section Vectors

variable {platform : Platform δ} {writeValue allocate readValue : Bool}
    {Same : Arg δ → Arg δ → Prop} {Condition : Arg δ → Arg δ → Prop}

theorem delivers_elements
    {targets args : List (Arg δ)}
    (each : List.Forall₂ (fun target arg => target.tag = arg.tag ∧
      Delivers platform writeValue allocate readValue Same
        (Condition target arg) target arg) targets args) :
    ∃ outcome : Option (List (Arg δ)),
      (∀ following, getArgs platform allocate readValue args.length targets
        ((encodeElements writeValue args).append following) =
          outcome.map fun got => (got, following)) ∧
      ((∃ got, outcome = some got ∧ List.Forall₂ Same got args) ↔
        List.Forall₂ Condition targets args) := by
  induction each with
  | nil => exact ⟨some [], fun following => rfl, by simp⟩
  | @cons target arg targets args first rest ih =>
      obtain ⟨tags, element, reads, arrives⟩ := first
      obtain ⟨elements, readsRest, arrivesRest⟩ := ih
      refine ⟨element.bind fun got => elements.map (got :: ·), ?_, ?_⟩
      · intro following
        have bytes : (encodeElements writeValue (arg :: args)).append following =
            Datagram.append ⟨[arg.tag], []⟩ ((encodeArg writeValue arg).append
              ((encodeElements writeValue args).append following)) := by
          simp only [encodeElements, encodeTagged, Datagram.append_assoc]
        have tag : getElements 1 1 (Datagram.append ⟨[arg.tag], []⟩
            ((encodeArg writeValue arg).append
              ((encodeElements writeValue args).append following))) =
            some ([arg.tag], (encodeArg writeValue arg).append
              ((encodeElements writeValue args).append following)) :=
          getElements_byte _ _ _
        rw [bytes, List.length_cons, getArgs]
        simp only [tag, Option.bind_eq_bind, Option.bind_some, tags, if_true, reads]
        cases element with
        | none => rfl
        | some got =>
            simp only [Option.map_some, Option.bind_some, readsRest]
            cases elements <;> rfl
      · rw [List.forall₂_cons, ← arrives, ← arrivesRest]
        cases element with
        | none => simp
        | some got =>
            cases elements with
            | none => simp
            | some gots => simp

private theorem declaredTags_of_types
    {tags : List UInt8} (declared : ∀ tag ∈ tags, tag ≠ ':'.toUInt8) :
    declaredTags tags.length tags = some tags := by
  induction tags with
  | nil => rfl
  | cons tag tags ih =>
      rw [List.length_cons, declaredTags,
        if_neg (declared tag List.mem_cons_self),
        ih fun tag member => declared tag (List.mem_cons_of_mem _ member)]
      rfl

private theorem tag_ne_colon
    {arg : Arg δ} (supported : arg.Supported writeValue) :
    arg.tag ≠ ':'.toUInt8 := by
  intro colon
  have unknown : argsGetEltInterface ':'.toUInt8 = none := by decide
  have interface := interface_tag arg
  rw [colon, unknown] at interface
  cases arg with
  | basic type field => cases interface
  | array type elements => cases interface
  | handle hval => cases interface
  | string str => cases interface
  | other tag invalid => exact supported

private theorem argsTarget_eq
    (memory : ∀ size, (platform.malloc size).isSome)
    {args argvec : List (Arg δ)}
    (supported : ∀ arg ∈ args, arg.Supported writeValue) :
    ∃ targets, argsTarget platform allocate args.length argvec
        (args.map Arg.tag) = some targets ∧
      (args ≠ [] → targets =
        if allocate then args.map fun arg => zeroedArg platform arg.tag
        else argvec) := by
  unfold argsTarget
  cases args with
  | nil => exact ⟨argvec, by simp, fun some => absurd rfl some⟩
  | cons arg args =>
      obtain ⟨contents, allocated⟩ := Option.isSome_iff_exists.mp
        (memory ((arg :: args).length * platform.argSize))
      have declared := @declaredTags_of_types ((arg :: args).map Arg.tag) (by
        intro tag member
        obtain ⟨arg, inside, rfl⟩ := List.mem_map.mp member
        exact tag_ne_colon (supported arg inside))
      rw [List.length_map] at declared
      cases allocate with
      | false => exact ⟨argvec, by simp, fun _ => rfl⟩
      | true =>
          refine ⟨(arg :: args).map fun arg => zeroedArg platform arg.tag, ?_,
            fun _ => rfl⟩
          rw [if_pos ⟨rfl, by simp⟩, allocated, declared]
          simp only [Option.bind_eq_bind, Option.bind_some, List.map_map]
          rfl

theorem delivers_args
    (memory : ∀ size, (platform.malloc size).isSome)
    {args argvec targets : List (Arg δ)} (few : args.length < maxArgs)
    (supported : ∀ arg ∈ args, arg.Supported writeValue)
    (target : targets =
      if allocate then args.map fun arg => zeroedArg platform arg.tag else argvec)
    (each : List.Forall₂ (fun target arg => target.tag = arg.tag ∧
      Delivers platform writeValue allocate readValue Same
        (Condition target arg) target arg) targets args)
    (following : Datagram δ) :
    (∃ got, argsGet platform allocate readValue argvec (args.map Arg.tag)
        ((encodeArgs writeValue args).append following) = some (got, following) ∧
      List.Forall₂ Same got args) ↔
        List.Forall₂ Condition targets args := by
  obtain ⟨outcome, reads, arrives⟩ := delivers_elements each
  obtain ⟨chosen, chooses, same⟩ := @argsTarget_eq δ platform writeValue allocate
    memory args argvec supported
  have small : args.length < 2 ^ 32 := by
    unfold maxArgs at few
    omega
  have count : getCount ((encodeArgs writeValue args).append following) =
      some (⟨args.length, small⟩,
        (encodeElements writeValue args).append following) := by
    rw [encodeArgs, Datagram.append_assoc]
    exact getCount_append small _ _
  have whole : argsGet platform allocate readValue argvec (args.map Arg.tag)
      ((encodeArgs writeValue args).append following) =
        outcome.map fun got => (got, following) := by
    rw [argsGet, count]
    simp only [Option.bind_eq_bind, Option.bind_some,
      if_neg (Nat.not_le.mpr few), chooses]
    cases args with
    | nil => rw [← reads]; rfl
    | cons arg args =>
        rw [same (List.cons_ne_nil _ _), ← target]
        exact reads following
  rw [whole, ← arrives]
  cases outcome <;> simp

end Vectors

end NativeClient.Srpc
