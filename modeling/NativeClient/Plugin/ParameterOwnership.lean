import NativeClient.Plugin.MethodMap

/-!
# Who frees the parameters of a call

What arguments hold is freed once, except for the vectors of variants, which
are not freed at all.  A failure of the second vector frees the first one
twice, and the constructor with types frees slots that it never set.
-/

namespace NativeClient.Plugin

section Arguments

mutual

theorem freeSrpcArg_spec (arg : NaClSrpcArg) (holds : HoldsValue arg) :
    ∃ blocks, freeSrpcArg arg = some blocks ∧
      blocks.Sublist (ownedBlocks arg) ∧
      (¬ HasVector arg → blocks = ownedBlocks arg) ∧
      (HasVector arg → blocks.length < (ownedBlocks arg).length) := by
  cases arg with
  | mk tag count arrays elements =>
      rw [HoldsValue] at holds
      obtain ⟨-, empty, counted, below⟩ := holds
      rw [freeSrpcArg.eq_def, ownedBlocks]
      dsimp only
      unfold HasVector
      by_cases array : tag ∈ arrayTags
      · have notVariants : tag ≠ variantArray := by
          rintro rfl
          revert array
          decide
        rw [if_pos array, if_pos array]
        exact ⟨_, rfl, List.Sublist.refl _, fun _ => rfl,
          fun vector => absurd vector.1 notVariants⟩
      · rw [if_neg array, if_neg array]
        by_cases variants : tag = variantArray
        · rw [if_pos variants, if_pos variants]
          cases arrays with
          | none =>
              rw [empty variants rfl]
              exact ⟨_, rfl, List.Sublist.refl _, fun _ => rfl,
                fun vector => absurd rfl vector.2⟩
          | some block =>
              obtain ⟨blocks, freed, sublist⟩ :=
                freeVariants_spec elements below
              dsimp only
              rw [counted variants nofun, freed]
              refine ⟨blocks, rfl, sublist.trans (List.sublist_cons_self _ _),
                fun notVector => absurd ⟨variants, nofun⟩ notVector,
                fun _ => ?_⟩
              exact Nat.lt_succ_of_le sublist.length_le
        · rw [if_neg variants, if_neg variants]
          exact ⟨[], rfl, List.Sublist.refl _, fun _ => rfl,
            fun vector => absurd vector.1 variants⟩

theorem freeVariants_spec
    (elements : List NaClSrpcArg) (hold : HoldValues elements) :
    ∃ blocks, freeVariants elements.length elements = some blocks ∧
      blocks.Sublist (ownedByAll elements) := by
  cases elements with
  | nil => exact ⟨[], rfl, List.Sublist.refl _⟩
  | cons arg rest =>
      rw [HoldValues] at hold
      obtain ⟨here, freedHere, sublistHere, -, -⟩ :=
        freeSrpcArg_spec arg hold.1
      obtain ⟨later, freedLater, sublistLater⟩ :=
        freeVariants_spec rest hold.2
      rw [List.length_cons, freeVariants, freedHere, freedLater, ownedByAll]
      exact ⟨here ++ later, rfl, sublistHere.append sublistLater⟩

end

mutual

theorem ownedBlocks_value (arg : NaClSrpcArg) (holds : HoldsValue arg) :
    ∀ block ∈ ownedBlocks arg, ∃ number, block = .value number := by
  cases arg with
  | mk tag count arrays elements =>
      rw [HoldsValue] at holds
      obtain ⟨pointer, -, -, below⟩ := holds
      rw [ownedBlocks]
      intro block member
      split at member
      next => exact pointer block (Option.mem_toList.mp member)
      next =>
        split at member
        next =>
          rcases List.mem_append.mp member with own | nested
          · exact pointer block (Option.mem_toList.mp own)
          · exact ownedByAll_value elements below block nested
        next => cases member

theorem ownedByAll_value
    (args : List NaClSrpcArg) (hold : HoldValues args) :
    ∀ block ∈ ownedByAll args, ∃ number, block = .value number := by
  cases args with
  | nil => exact nofun
  | cons arg rest =>
      rw [HoldValues] at hold
      rw [ownedByAll]
      intro block member
      rcases List.mem_append.mp member with here | later
      · exact ownedBlocks_value arg hold.1 block here
      · exact ownedByAll_value rest hold.2 block later

end

end Arguments

section Vectors

/-- The slots of a vector that `FillVec` filled. -/
def elementSlots (block : Block) (start count : Nat) : List Slot :=
  (List.range' start count).map fun index => .element block index

/-- `FillVec` finds room and memory for a vector. -/
def Fits (granted : Block → Bool) (block : Block) (types : List UInt8) : Prop :=
  types.length ≤ naClSrpcMaxArgs ∧ (types = [] ∨ granted block = true)

theorem setSlots_eq
    (block : Block) (vec : List Slot) {count : Nat}
    (room : count ≤ vec.length) :
    (List.range count).foldlM
        (fun vec i => setSlot vec i (.element block i)) vec =
      some (elementSlots block 0 count ++ vec.drop count) := by
  induction count with
  | zero => rfl
  | succ count ih =>
      have length : (elementSlots block 0 count).length = count := by
        unfold elementSlots
        rw [List.length_map, List.length_range']
      have rest : vec.drop count = vec[count] :: vec.drop (count + 1) :=
        List.drop_eq_getElem_cons room
      rw [List.range_succ, List.foldlM_append, ih (Nat.le_of_succ_le room)]
      simp only [List.foldlM_cons, List.foldlM_nil, Option.bind_eq_bind,
        Option.bind_some, bind_pure]
      unfold setSlot
      rw [if_pos (by rw [List.length_append, length, List.length_drop]; omega),
        List.set_append_right _ _ (Nat.le_of_eq length), length, Nat.sub_self,
        rest, List.set_cons_zero]
      unfold elementSlots
      rw [List.range'_concat, List.map_append, List.append_assoc]
      simp

theorem fillVec_eq
    (granted : Block → Bool) (block : Block) {vec : List Slot}
    (length : vec.length = naClSrpcMaxArgs + 1) (types : List UInt8)
    (heap : Heap) :
    (Fits granted block types → fillVec granted block vec types heap =
      some ⟨true, elementSlots block 0 types.length ++ .null ::
          vec.drop (types.length + 1),
        if types = [] then heap
        else heap.allocate block (types.map zeroArg)⟩) ∧
    (¬ Fits granted block types → fillVec granted block vec types heap =
      some ⟨false, vec, heap⟩) := by
  unfold fillVec Fits
  dsimp only
  by_cases long : types.length > naClSrpcMaxArgs
  · rw [if_pos long]
    exact ⟨fun fits => absurd fits.1 (Nat.not_le.mpr long), fun _ => rfl⟩
  · rw [if_neg long]
    have room : types.length < vec.length := by omega
    have rest : vec.drop types.length =
        vec[types.length] :: vec.drop (types.length + 1) :=
      List.drop_eq_getElem_cons room
    have last : setSlot (elementSlots block 0 types.length ++
        vec.drop types.length) types.length .null =
          some (elementSlots block 0 types.length ++ .null ::
            vec.drop (types.length + 1)) := by
      have slots : (elementSlots block 0 types.length).length =
          types.length := by
        unfold elementSlots
        rw [List.length_map, List.length_range']
      unfold setSlot
      rw [if_pos (by rw [List.length_append, slots, List.length_drop]; omega),
        List.set_append_right _ _ (Nat.le_of_eq slots), slots, Nat.sub_self,
        rest, List.set_cons_zero]
    by_cases empty : types = []
    · subst empty
      refine ⟨fun _ => ?_, fun unfit => absurd ⟨by omega, .inl rfl⟩ unfit⟩
      rw [if_neg (by decide), if_pos rfl]
      rw [List.length_nil] at last ⊢
      have same : elementSlots block 0 0 ++ vec.drop 0 = vec := rfl
      rw [same] at last
      rw [last]
      rfl
    · have positive : types.length > 0 := List.length_pos_iff.mpr empty
      rw [if_pos positive, if_neg empty]
      by_cases ok : granted block = true
      · refine ⟨fun _ => ?_, fun unfit => absurd ⟨by omega, .inr ok⟩ unfit⟩
        rw [if_pos ok, setSlots_eq block vec (Nat.le_of_lt room)]
        simp only [Option.bind_eq_bind, Option.bind_some]
        rw [last]
        rfl
      · refine ⟨fun fits => ?_, fun _ => ?_⟩
        · exact (fits.2.elim empty ok).elim
        · rw [if_neg ok]

theorem freeEach_spec
    {block : Block} (notValue : ∀ number, block ≠ .value number)
    {done args : List NaClSrpcArg} (hold : HoldValues args)
    {heap : Heap} (vector : heap.vectors block = done ++ args)
    (alive : block ∉ heap.freed) (rest : List Slot) :
    ∃ blocks, freeEach (elementSlots block done.length args.length ++
        .null :: rest) heap = some (heap.free blocks) ∧
      blocks.Sublist (ownedByAll args) ∧
      ((∀ arg ∈ args, ¬ HasVector arg) → blocks = ownedByAll args) ∧
      ((∃ arg ∈ args, HasVector arg) →
        blocks.length < (ownedByAll args).length) := by
  induction args generalizing done heap with
  | nil =>
      refine ⟨[], ?_, List.Sublist.refl _, fun _ => rfl,
        fun ⟨_, member, _⟩ => absurd member List.not_mem_nil⟩
      unfold Heap.free
      rw [List.append_nil]
      rfl
  | cons arg args ih =>
      rw [HoldValues] at hold
      obtain ⟨here, freed, sublist, all, fewer⟩ := freeSrpcArg_spec arg hold.1
      have read : heap.read block done.length = some arg := by
        unfold Heap.read
        rw [if_neg alive, vector, List.getElem?_append_right (Nat.le_refl _),
          Nat.sub_self]
        rfl
      have stillAlive : block ∉ (heap.free here).freed := by
        intro member
        rcases List.mem_append.mp member with old | new
        · exact alive old
        · obtain ⟨number, same⟩ :=
            ownedBlocks_value arg hold.1 block (sublist.subset new)
          exact notValue number same
      obtain ⟨later, freedLater, sublistLater, allLater, fewerLater⟩ :=
        @ih (done ++ [arg]) hold.2 (heap.free here)
          (show heap.vectors block = _ by rw [vector, List.append_assoc]; rfl)
          stillAlive
      rw [List.length_append, List.length_singleton] at freedLater
      refine ⟨here ++ later, ?_, ?_, fun none => ?_, ?_⟩
      · have slots : elementSlots block done.length (arg :: args).length =
            .element block done.length ::
              elementSlots block (done.length + 1) args.length := by
          unfold elementSlots
          rw [List.length_cons, List.range'_succ]
          rfl
        rw [slots, List.cons_append, freeEach, read]
        simp only [Option.bind_eq_bind, Option.bind_some]
        rw [freed, Option.bind_some, freedLater]
        unfold Heap.free
        rw [List.append_assoc]
      · rw [ownedByAll]
        exact sublist.append sublistLater
      · obtain ⟨noneHere, noneLater⟩ := List.forall_mem_cons.mp none
        rw [ownedByAll, all noneHere, allLater noneLater]
      · rintro ⟨found, member, hasVector⟩
        have most := sublist.length_le
        have mostLater := sublistLater.length_le
        rw [ownedByAll, List.length_append, List.length_append]
        rcases List.mem_cons.mp member with rfl | later
        · exact Nat.add_lt_add_of_lt_of_le (fewer hasVector) mostLater
        · exact Nat.add_lt_add_of_le_of_lt most
            (fewerLater ⟨found, later, hasVector⟩)

theorem freeArguments_spec
    {block : Block} (notValue : ∀ number, block ≠ .value number)
    {args : List NaClSrpcArg} (hold : HoldValues args)
    {heap : Heap} (vector : heap.vectors block = args)
    (alive : block ∉ heap.freed) (rest : List Slot) :
    ∃ blocks, freeArguments (elementSlots block 0 args.length ++
        .null :: rest) heap =
          some (heap.free (blocks ++ if args = [] then [] else [block])) ∧
      blocks.Sublist (ownedByAll args) ∧
      ((∀ arg ∈ args, ¬ HasVector arg) → blocks = ownedByAll args) ∧
      ((∃ arg ∈ args, HasVector arg) →
        blocks.length < (ownedByAll args).length) := by
  obtain ⟨blocks, freed, facts⟩ := @freeEach_spec block notValue [] args hold
    heap vector alive rest
  refine ⟨blocks, ?_, facts⟩
  cases args with
  | nil =>
      have none : blocks = [] := List.sublist_nil.mp facts.1
      rw [none]
      unfold Heap.free
      simp [elementSlots, freeArguments]
  | cons arg args =>
      have first : (elementSlots block 0 (arg :: args).length ++
          Slot.null :: rest)[0]? = some (.element block 0) := rfl
      unfold freeArguments
      rw [first]
      rw [List.length_nil] at freed
      rw [freed, if_neg nofun]
      unfold Heap.free
      simp

theorem freeArguments_freed
    {block : Block} {heap : Heap} (freed : block ∈ heap.freed)
    {count : Nat} (positive : 0 < count) (rest : List Slot) :
    freeArguments (elementSlots block 0 count ++ rest) heap = none := by
  obtain ⟨count, rfl⟩ : ∃ less, count = less + 1 := ⟨count - 1, by omega⟩
  have slots : elementSlots block 0 (count + 1) ++ rest =
      .element block 0 :: (elementSlots block 1 count ++ rest) := by
    unfold elementSlots
    rw [List.range'_succ]
    rfl
  unfold freeArguments
  rw [slots, List.getElem?_cons_zero, freeEach]
  unfold Heap.read
  rw [if_pos freed]
  rfl

end Vectors

end NativeClient.Plugin
