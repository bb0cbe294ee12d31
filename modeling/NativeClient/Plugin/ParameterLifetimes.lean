import NativeClient.Plugin.ParameterOwnership

/-!
# From the constructor to the destructor

Every block of the parameters is freed once just when no vector of variants
was allocated, the constructor with types succeeded, and no second vector
failed behind a first one.
-/

namespace NativeClient.Plugin

open SrpcParams

structure Admissible (inTypes outTypes : List UInt8) (values : Values) :
    Prop where
  ins : values.ins.length = inTypes.length
  outs : values.outs.length = outTypes.length
  insHold : HoldValues values.ins
  outsHold : HoldValues values.outs
  distinct : (ownedByAll values.ins ++ ownedByAll values.outs).Nodup

def ReleasedOnce (constructor : Constructor) (granted : Block → Bool)
    (inTypes outTypes : List UInt8) (values : Values) : Prop :=
  ∃ final, live constructor granted inTypes outTypes values = some final ∧
    ∀ block, final.heap.freed.count block =
      if block ∈ final.heap.allocated then 1 else 0

structure Released (constructor : Constructor) (granted : Block → Bool)
    (inTypes outTypes : List UInt8) (values : Values) : Prop where
  typed : constructor = .typed →
    Fits granted .insVector inTypes ∧ Fits granted .outsVector outTypes
  second : Fits granted .insVector inTypes →
    ¬ Fits granted .outsVector outTypes → inTypes = []
  noVector : Fits granted .insVector inTypes →
    Fits granted .outsVector outTypes →
    (∀ arg ∈ values.ins, ¬ HasVector arg) ∧
      ∀ arg ∈ values.outs, ¬ HasVector arg

section Blocks

def vectorBlocks {α : Type} (block : Block) (list : List α) : List Block :=
  if list = [] then [] else [block]

theorem vectorBlocks_congr
    {α β : Type} (block : Block) {first : List α} {second : List β}
    (same : first.length = second.length) :
    vectorBlocks block first = vectorBlocks block second := by
  have empty : first = [] ↔ second = [] := by
    rw [← List.length_eq_zero_iff, ← List.length_eq_zero_iff, same]
  unfold vectorBlocks
  by_cases nil : first = []
  · rw [if_pos nil, if_pos (empty.mp nil)]
  · rw [if_neg nil, if_neg (mt empty.mpr nil)]

theorem mem_vectorBlocks
    {α : Type} {block other : Block} {list : List α}
    (member : other ∈ vectorBlocks block list) : other = block := by
  unfold vectorBlocks at member
  split at member
  next => cases member
  next => exact List.mem_singleton.mp member

theorem vectorBlocks_nodup {α : Type} (block : Block) (list : List α) :
    (vectorBlocks block list).Nodup := by
  unfold vectorBlocks
  split
  next => exact List.nodup_nil
  next => exact List.nodup_singleton _

def allBlocks (values : Values) : List Block :=
  vectorBlocks .insVector values.ins ++ vectorBlocks .outsVector values.outs ++
    (ownedByAll values.ins ++ ownedByAll values.outs ++
      if values.exception then [.exceptionString] else [])

theorem allBlocks_nodup
    {inTypes outTypes : List UInt8} {values : Values}
    (admissible : Admissible inTypes outTypes values) :
    (allBlocks values).Nodup := by
  have owned : ∀ block ∈ ownedByAll values.ins ++ ownedByAll values.outs,
      ∃ number, block = .value number := by
    intro block member
    rcases List.mem_append.mp member with ins | outs
    · exact ownedByAll_value _ admissible.insHold block ins
    · exact ownedByAll_value _ admissible.outsHold block outs
  have exceptions : ∀ block ∈ (if values.exception then
      [Block.exceptionString] else []), block = .exceptionString := by
    intro block member
    split at member
    next => exact List.mem_singleton.mp member
    next => cases member
  unfold allBlocks
  refine List.Nodup.append (List.Nodup.append (vectorBlocks_nodup _ _)
    (vectorBlocks_nodup _ _) ?_) (List.Nodup.append admissible.distinct ?_ ?_) ?_
  · intro block first second
    have same := (mem_vectorBlocks first).symm.trans (mem_vectorBlocks second)
    cases same
  · split
    next => exact List.nodup_singleton _
    next => exact List.nodup_nil
  · intro block first second
    obtain ⟨number, rfl⟩ := owned block first
    cases exceptions _ second
  · intro block first second
    have vector : block = .insVector ∨ block = .outsVector :=
      (List.mem_append.mp first).imp mem_vectorBlocks mem_vectorBlocks
    rcases List.mem_append.mp second with value | exception
    · obtain ⟨number, rfl⟩ := owned block value
      rcases vector with same | same
      · cases same
      · cases same
    · rw [exceptions block exception] at vector
      rcases vector with same | same
      · cases same
      · cases same

end Blocks

section Runs

variable {granted : Block → Bool} {inTypes outTypes : List UInt8}
    {values : Values}

theorem allocate_vectors (heap : Heap) (block : Block)
    (args : List NaClSrpcArg) :
    (heap.allocate block args).vectors block = args := by
  unfold Heap.allocate
  exact Function.update_self _ _ _

theorem fill_vectors (params : SrpcParams) (values : Values) :
    (params.fill values).heap.vectors .insVector = values.ins ∧
      (params.fill values).heap.vectors .outsVector = values.outs := by
  unfold SrpcParams.fill
  dsimp only
  rw [Function.update_of_ne (by decide), Function.update_self,
    Function.update_self]
  exact ⟨rfl, rfl⟩

theorem length_slots (slot : Slot) :
    (slots slot).length = naClSrpcMaxArgs + 1 := List.length_replicate

theorem init_fits
    (insFit : Fits granted .insVector inTypes)
    (outsFit : Fits granted .outsVector outTypes) (slot : Slot) :
    ∃ insRest outsRest heap, init granted inTypes outTypes
        ⟨slots slot, slots slot, none, emptyHeap⟩ =
      some (true,
        ⟨elementSlots .insVector 0 inTypes.length ++ .null :: insRest,
          elementSlots .outsVector 0 outTypes.length ++ .null :: outsRest,
          none, heap⟩) ∧
      heap.allocated = vectorBlocks .insVector inTypes ++
        vectorBlocks .outsVector outTypes ∧
      heap.freed = [] := by
  have ins := (fillVec_eq granted .insVector (length_slots slot) inTypes
    emptyHeap).1 insFit
  have outs := fun heap => (fillVec_eq granted .outsVector (length_slots slot)
    outTypes heap).1 outsFit
  unfold init
  simp only [ins, outs, Option.bind_eq_bind, Option.bind_some, if_true]
  refine ⟨_, _, _, rfl, ?_, ?_⟩
  · unfold vectorBlocks
    by_cases noIns : inTypes = []
    · rw [if_pos noIns, if_pos noIns]
      by_cases noOuts : outTypes = []
      · rw [if_pos noOuts, if_pos noOuts]
        rfl
      · rw [if_neg noOuts, if_neg noOuts]
        rfl
    · rw [if_neg noIns, if_neg noIns]
      by_cases noOuts : outTypes = []
      · rw [if_pos noOuts, if_pos noOuts]
        rfl
      · rw [if_neg noOuts, if_neg noOuts]
        rfl
  · split
    next =>
      split
      next => rfl
      next => rfl
    next =>
      split
      next => rfl
      next => rfl

theorem init_noIns
    (insUnfit : ¬ Fits granted .insVector inTypes) (slot : Slot) :
    init granted inTypes outTypes ⟨slots slot, slots slot, none, emptyHeap⟩ =
      some (false, ⟨slots slot, slots slot, none, emptyHeap⟩) := by
  have ins := (fillVec_eq granted .insVector (length_slots slot) inTypes
    emptyHeap).2 insUnfit
  unfold init
  simp only [ins, Option.bind_eq_bind, Option.bind_some]
  rfl

theorem holdValues_zeroArgs (types : List UInt8) :
    HoldValues (types.map zeroArg) ∧ ownedByAll (types.map zeroArg) = [] := by
  induction types with
  | nil =>
      rw [List.map_nil, HoldValues, ownedByAll]
      exact ⟨trivial, rfl⟩
  | cons tag types ih =>
      rw [List.map_cons, HoldValues, ownedByAll, ih.2]
      unfold zeroArg
      rw [HoldsValue, HoldValues, ownedBlocks, ownedByAll]
      refine ⟨⟨⟨nofun, fun _ _ => rfl, fun _ some => absurd rfl some, trivial⟩,
        ih.1⟩, ?_⟩
      split
      next => rfl
      next =>
        split
        next => rfl
        next => rfl

theorem init_noOuts
    (insFit : Fits granted .insVector inTypes)
    (outsUnfit : ¬ Fits granted .outsVector outTypes) (slot : Slot) :
    ∃ rest heap, init granted inTypes outTypes
        ⟨slots slot, slots slot, none, emptyHeap⟩ =
      some (false,
        ⟨elementSlots .insVector 0 inTypes.length ++ .null :: rest,
          slots slot, none, heap⟩) ∧
      heap.freed = vectorBlocks .insVector inTypes ∧
      heap.allocated = vectorBlocks .insVector inTypes := by
  have ins := (fillVec_eq granted .insVector (length_slots slot) inTypes
    emptyHeap).1 insFit
  have outs := fun heap => (fillVec_eq granted .outsVector (length_slots slot)
    outTypes heap).2 outsUnfit
  have hold := holdValues_zeroArgs inTypes
  unfold init
  simp only [ins, outs, Option.bind_eq_bind, Option.bind_some, if_true]
  by_cases none : inTypes = []
  · subst none
    exact ⟨_, _, rfl, rfl, rfl⟩
  · rw [if_neg none]
    obtain ⟨blocks, freed, sublist, -, -⟩ := @freeArguments_spec .insVector
      nofun (inTypes.map zeroArg) hold.1
      (emptyHeap.allocate .insVector (inTypes.map zeroArg))
      (allocate_vectors _ _ _) List.not_mem_nil
      ((slots slot).drop (inTypes.length + 1))
    rw [hold.2] at sublist
    rw [List.sublist_nil.mp sublist, List.length_map,
      if_neg (mt List.map_eq_nil_iff.mp none)] at freed
    simp only [freed, Option.bind_some]
    refine ⟨_, _, rfl, ?_, ?_⟩
    · unfold vectorBlocks
      rw [if_neg none]
      rfl
    · unfold vectorBlocks
      rw [if_neg none]
      rfl

theorem live_fits
    (admissible : Admissible inTypes outTypes values)
    (insFit : Fits granted .insVector inTypes)
    (outsFit : Fits granted .outsVector outTypes) (constructor : Constructor) :
    ∃ final insBlocks outsBlocks,
      live constructor granted inTypes outTypes values = some final ∧
      final.heap.allocated = allBlocks values ∧
      final.heap.freed = insBlocks ++ vectorBlocks .insVector values.ins ++
        (outsBlocks ++ vectorBlocks .outsVector values.outs) ++
        (if values.exception then [.exceptionString] else []) ∧
      (insBlocks.Sublist (ownedByAll values.ins) ∧
        ((∀ arg ∈ values.ins, ¬ HasVector arg) →
          insBlocks = ownedByAll values.ins) ∧
        ((∃ arg ∈ values.ins, HasVector arg) →
          insBlocks.length < (ownedByAll values.ins).length)) ∧
      outsBlocks.Sublist (ownedByAll values.outs) ∧
        ((∀ arg ∈ values.outs, ¬ HasVector arg) →
          outsBlocks = ownedByAll values.outs) ∧
        ((∃ arg ∈ values.outs, HasVector arg) →
          outsBlocks.length < (ownedByAll values.outs).length) := by
  have built : ∃ insRest outsRest heap,
      construct constructor granted inTypes outTypes = some (true,
        ⟨elementSlots .insVector 0 inTypes.length ++ .null :: insRest,
          elementSlots .outsVector 0 outTypes.length ++ .null :: outsRest,
          none, heap⟩) ∧
      heap.allocated = vectorBlocks .insVector inTypes ++
        vectorBlocks .outsVector outTypes ∧ heap.freed = [] := by
    unfold construct
    cases constructor with
    | default => exact init_fits insFit outsFit .null
    | typed =>
        obtain ⟨insRest, outsRest, heap, run, facts⟩ :=
          init_fits insFit outsFit .uninitialised
        refine ⟨insRest, outsRest, heap, ?_, facts⟩
        simp only [run, Option.bind_eq_bind, Option.bind_some, if_true]
        rfl
  obtain ⟨insRest, outsRest, heap, built, allocated, freed⟩ := built
  obtain ⟨insBlocks, freeIns, insFacts⟩ := @freeArguments_spec .insVector nofun
    values.ins admissible.insHold
    (SrpcParams.fill ⟨[], [], none, heap⟩ values).heap (fill_vectors _ _).1
    (show Block.insVector ∉ heap.freed by rw [freed]; exact List.not_mem_nil)
    insRest
  have outsAlive : Block.outsVector ∉
      ((SrpcParams.fill ⟨[], [], none, heap⟩ values).heap.free
        (insBlocks ++ if values.ins = [] then [] else [.insVector])).freed := by
    change Block.outsVector ∉ heap.freed ++ (insBlocks ++
      vectorBlocks .insVector values.ins)
    rw [freed, List.nil_append]
    intro member
    rcases List.mem_append.mp member with value | vector
    · obtain ⟨number, same⟩ := ownedByAll_value _ admissible.insHold _
        (insFacts.1.subset value)
      cases same
    · cases mem_vectorBlocks vector
  obtain ⟨outsBlocks, freeOuts, outsFacts⟩ := @freeArguments_spec .outsVector
    nofun values.outs admissible.outsHold
    ((SrpcParams.fill ⟨[], [], none, heap⟩ values).heap.free
      (insBlocks ++ if values.ins = [] then [] else [.insVector]))
    (fill_vectors ⟨[], [], none, heap⟩ values).2 outsAlive outsRest
  rw [admissible.ins] at freeIns
  rw [admissible.outs] at freeOuts
  unfold live destroy freeAll
  simp only [built, Option.bind_eq_bind, Option.bind_some, if_true]
  unfold SrpcParams.fill at freeIns freeOuts ⊢
  dsimp only at freeIns freeOuts ⊢
  simp only [freeIns, freeOuts, Option.bind_some]
  refine ⟨_, insBlocks, outsBlocks, rfl, ?_, ?_, insFacts, outsFacts⟩
  · unfold allBlocks Heap.free
    dsimp only
    rw [allocated, vectorBlocks_congr .insVector admissible.ins,
      vectorBlocks_congr .outsVector admissible.outs]
  · unfold Heap.free vectorBlocks
    dsimp only
    rw [freed, List.nil_append, List.append_assoc, List.append_assoc]
    cases values.exception with
    | true => simp
    | false => simp

theorem freeArguments_uninitialised (heap : Heap) :
    freeArguments (slots .uninitialised) heap = none := rfl

theorem live_unfit
    (unfit : ¬ (Fits granted .insVector inTypes ∧
      Fits granted .outsVector outTypes)) :
    live .typed granted inTypes outTypes values = none := by
  unfold live construct
  by_cases insFit : Fits granted .insVector inTypes
  · have outsUnfit := not_and.mp unfit insFit
    obtain ⟨rest, heap, run, freed, -⟩ :=
      init_noOuts insFit outsUnfit .uninitialised
    simp only [run, Option.bind_eq_bind, Option.bind_some, Bool.false_eq_true,
      if_false]
    unfold freeAll
    dsimp only
    by_cases none : inTypes = []
    · subst none
      have first : freeArguments (elementSlots .insVector 0 0 ++ .null :: rest)
          heap = some heap := rfl
      rw [List.length_nil, first]
      rfl
    · have again : freeArguments (elementSlots .insVector 0 inTypes.length ++
          .null :: rest) heap = Option.none := by
        apply freeArguments_freed _ (List.length_pos_iff.mpr none)
        rw [freed]
        unfold vectorBlocks
        rw [if_neg none]
        exact List.mem_singleton.mpr rfl
      rw [again]
      rfl
  · simp only [init_noIns insFit .uninitialised, Option.bind_eq_bind,
      Option.bind_some, Bool.false_eq_true, if_false]
    unfold freeAll
    dsimp only
    rw [freeArguments_uninitialised]
    rfl

theorem live_default_noIns
    (insUnfit : ¬ Fits granted .insVector inTypes) :
    ReleasedOnce .default granted inTypes outTypes values := by
  unfold ReleasedOnce live construct
  simp only [init_noIns insUnfit .null, Option.bind_eq_bind, Option.bind_some,
    Bool.false_eq_true, if_false]
  exact ⟨_, rfl, fun _ => rfl⟩

theorem live_default_noOuts
    (insFit : Fits granted .insVector inTypes)
    (outsUnfit : ¬ Fits granted .outsVector outTypes) :
    ReleasedOnce .default granted inTypes outTypes values ↔ inTypes = [] := by
  obtain ⟨rest, heap, run, freed, allocated⟩ :=
    init_noOuts insFit outsUnfit .null
  unfold ReleasedOnce live construct
  simp only [run, Option.bind_eq_bind, Option.bind_some, Bool.false_eq_true,
    if_false]
  unfold destroy freeAll
  dsimp only
  by_cases none : inTypes = []
  · subst none
    refine iff_of_true ⟨_, rfl, fun block => ?_⟩ rfl
    have empty : vectorBlocks Block.insVector ([] : List UInt8) = [] := rfl
    unfold Heap.free
    dsimp only
    rw [freed, allocated, empty, if_neg List.not_mem_nil]
    rfl
  · refine iff_of_false ?_ none
    have again : freeArguments (elementSlots .insVector 0 inTypes.length ++
        .null :: rest) heap = Option.none := by
      apply freeArguments_freed _ (List.length_pos_iff.mpr none)
      rw [freed]
      unfold vectorBlocks
      rw [if_neg none]
      exact List.mem_singleton.mpr rfl
    rw [again]
    rintro ⟨final, impossible, -⟩
    cases impossible

theorem count_eq_ite
    {freed allocated : List Block} (distinct : allocated.Nodup)
    (same : freed.Perm allocated) (block : Block) :
    freed.count block = if block ∈ allocated then 1 else 0 := by
  rw [same.count_eq]
  split
  next member => exact List.count_eq_one_of_mem distinct member
  next absent => exact List.count_eq_zero_of_not_mem absent

theorem length_le_of_count
    {freed allocated : List Block} (distinct : allocated.Nodup)
    (once : ∀ block, freed.count block = if block ∈ allocated then 1 else 0) :
    allocated.length ≤ freed.length := by
  apply List.Subperm.length_le
  apply List.subperm_of_subset distinct
  intro block member
  apply List.count_pos_iff.mp
  rw [once block, if_pos member]
  exact Nat.one_pos

theorem live_fits_iff
    (admissible : Admissible inTypes outTypes values)
    (insFit : Fits granted .insVector inTypes)
    (outsFit : Fits granted .outsVector outTypes) (constructor : Constructor) :
    ReleasedOnce constructor granted inTypes outTypes values ↔
      (∀ arg ∈ values.ins, ¬ HasVector arg) ∧
        ∀ arg ∈ values.outs, ¬ HasVector arg := by
  obtain ⟨final, insBlocks, outsBlocks, run, allocated, freed,
    ⟨insSublist, insAll, insFewer⟩, outsSublist, outsAll, outsFewer⟩ :=
    live_fits admissible insFit outsFit constructor
  have distinct := allBlocks_nodup admissible
  unfold ReleasedOnce
  constructor
  · rintro ⟨other, otherRun, once⟩
    rw [run] at otherRun
    cases otherRun
    rw [allocated] at once
    have most := length_le_of_count distinct once
    have insMost := insSublist.length_le
    have outsMost := outsSublist.length_le
    rw [freed] at most
    unfold allBlocks at most
    simp only [List.length_append] at most
    refine ⟨fun arg member vector => ?_, fun arg member vector => ?_⟩
    · have less := insFewer ⟨arg, member, vector⟩
      omega
    · have less := outsFewer ⟨arg, member, vector⟩
      omega
  · rintro ⟨noIns, noOuts⟩
    refine ⟨final, run, ?_⟩
    rw [allocated]
    apply count_eq_ite distinct
    rw [freed, insAll noIns, outsAll noOuts]
    unfold allBlocks
    rw [List.perm_iff_count]
    intro block
    simp only [List.count_append]
    omega

end Runs

/-- A vector of variants among the results is not released. -/
theorem initSrpcArgArray_leaks
    {inTypes outTypes : List UInt8} {values : Values} {granted : Block → Bool}
    (admissible : Admissible inTypes outTypes values)
    (insFit : Fits granted .insVector inTypes)
    (outsFit : Fits granted .outsVector outTypes) (constructor : Constructor)
    {size : Nat} {block : Block}
    (member : initSrpcArgArray size (some block) ∈ values.outs) :
    ¬ ReleasedOnce constructor granted inTypes outTypes values := by
  rw [live_fits_iff admissible insFit outsFit]
  rintro ⟨-, noVector⟩
  exact noVector _ member ⟨rfl, Option.some_ne_none block⟩

/-- Parameters are released once just when the failures of `Init` are harmless
and there is no vector of variants. -/
theorem releasedOnce_iff
    {inTypes outTypes : List UInt8} {values : Values}
    (admissible : Admissible inTypes outTypes values)
    (constructor : Constructor) (granted : Block → Bool) :
    ReleasedOnce constructor granted inTypes outTypes values ↔
      Released constructor granted inTypes outTypes values := by
  by_cases insFit : Fits granted .insVector inTypes
  · by_cases outsFit : Fits granted .outsVector outTypes
    · rw [live_fits_iff admissible insFit outsFit]
      exact ⟨fun noVector => ⟨fun _ => ⟨insFit, outsFit⟩,
          fun _ unfit => absurd outsFit unfit, fun _ _ => noVector⟩,
        fun released => released.noVector insFit outsFit⟩
    · cases constructor with
      | default =>
          rw [live_default_noOuts insFit outsFit]
          exact ⟨fun none => ⟨nofun, fun _ _ => none,
              fun _ fit => absurd fit outsFit⟩,
            fun released => released.second insFit outsFit⟩
      | typed =>
          refine iff_of_false ?_ fun released =>
            outsFit (released.typed rfl).2
          rintro ⟨final, run, -⟩
          rw [live_unfit fun fits => outsFit fits.2] at run
          cases run
  · cases constructor with
    | default =>
        exact iff_of_true (live_default_noIns insFit) ⟨nofun,
          fun fit => absurd fit insFit, fun fit => absurd fit insFit⟩
    | typed =>
        refine iff_of_false ?_ fun released => insFit (released.typed rfl).1
        rintro ⟨final, run, -⟩
        rw [live_unfit fun fits => insFit fits.1] at run
        cases run

/-- An array of characters, a string, an array of integers in the results, and
the text of an exception. -/
def arrayValues : Values where
  ins := [.mk 'C'.toUInt8 3 (some (.value 0)) [],
    .mk 's'.toUInt8 0 (some (.value 1)) []]
  outs := [.mk 'I'.toUInt8 2 (some (.value 2)) []]
  exception := true

theorem releasedOnce_iff_arrays :
    ReleasedOnce .typed (fun _ => true) ['C'.toUInt8, 's'.toUInt8]
      ['I'.toUInt8] arrayValues := by
  have holds (tag : UInt8) (count number : Nat) (other : tag ≠ variantArray) :
      HoldsValue (.mk tag count (some (.value number)) []) := by
    rw [HoldsValue, HoldValues]
    refine ⟨?_, fun same => absurd same other, fun same => absurd same other,
      trivial⟩
    rintro _ ⟨⟩
    exact ⟨number, rfl⟩
  have admissible : Admissible ['C'.toUInt8, 's'.toUInt8] ['I'.toUInt8]
      arrayValues := by
    refine ⟨rfl, rfl, ?_, ?_, by decide⟩
    · exact ⟨holds _ _ _ (by decide), holds _ _ _ (by decide), trivial⟩
    · exact ⟨holds _ _ _ (by decide), trivial⟩
  have fits : Fits (fun _ => true) .insVector ['C'.toUInt8, 's'.toUInt8] ∧
      Fits (fun _ => true) .outsVector ['I'.toUInt8] :=
    ⟨⟨by decide, .inr rfl⟩, by decide, .inr rfl⟩
  have noVector (tag : UInt8) (count : Nat) (block : Option Block)
      (other : tag ≠ variantArray) : ¬ HasVector (.mk tag count block []) :=
    fun vector => other vector.1
  refine (releasedOnce_iff admissible .typed _).mpr ⟨fun _ => fits,
    fun _ unfit => absurd fits.2 unfit, fun _ _ => ⟨?_, ?_⟩⟩
  · exact List.forall_mem_cons.mpr ⟨noVector _ _ _ (by decide),
      List.forall_mem_singleton.mpr (noVector _ _ _ (by decide))⟩
  · exact List.forall_mem_singleton.mpr (noVector _ _ _ (by decide))

/-- There is no memory for the second vector. -/
theorem noMemoryForOuts_freedAgain :
    ¬ ReleasedOnce .default (fun block => block ≠ .outsVector)
      ['i'.toUInt8] ['i'.toUInt8]
      ⟨[zeroArg 'i'.toUInt8], [zeroArg 'i'.toUInt8], false⟩ := by
  have insFit : Fits (fun block => block ≠ .outsVector) .insVector
      ['i'.toUInt8] := ⟨by decide, .inr (by decide)⟩
  have outsUnfit : ¬ Fits (fun block => block ≠ .outsVector) .outsVector
      ['i'.toUInt8] := by
    rintro ⟨-, empty | granted⟩
    · cases empty
    · revert granted
      decide
  rw [live_default_noOuts insFit outsUnfit]
  exact List.cons_ne_nil _ _

end NativeClient.Plugin
