import NativeClient.Runtime.DynamicText
import NativeClient.Runtime.ThreadGenerations
import NativeClient.CodeCopy.CopyCode
import Mathlib.Data.List.Infix

/-!
# Bundles outside the live regions halt

A bundle of the dynamic text that belongs to no region, or to one whose
deletion was requested, starts with a halt, so that no thread can enter it.
`dyncode_modify` does not look at the delete generation, and can put code back
into a region that is about to be removed.
-/

namespace NativeClient.Runtime

open NativeClient.Library
open NativeClient.Validator32
open NativeClient.CodeCopy (CopiesCode ncCopyCode)

section Statements

variable (layout : AppLayout)

structure IsBundleHead (address : Nat) : Prop where
  above : layout.lowest ≤ address
  below : address < layout.memStart + layout.dynamicTextEnd
  aligned : layout.bundleSize ∣ address

/-- The entry that a `dyncode_create` leaves behind when it fails is live too: it
is in the table and has no delete generation. -/
def InLive (regions : RegionTable) (address : Nat) : Prop :=
  ∃ region, regions.Has region ∧ region.deleteGeneration < 0 ∧
    region.start ≤ address ∧ address < region.stop

def HaltedOutsideLive (state : TextState) : Prop :=
  ∀ address, IsBundleHead layout address → ¬ InLive state.app.regions address →
    state.text address = naclHaltOpcode

def ModifiesLive (app : NaClApp) : Call → Prop
  | .modify dest _ size => ∀ index,
      naClDynamicRegionFind layout.wordBits app.regions
          (layout.naClUserToSysAddrRange dest.toNat size.toNat) size.toNat =
        some index →
      (app.regions.dynamicRegions index).deleteGeneration < 0
  | _ => True

structure KeepsHalts (outcome : TextOutcome) : Prop where
  state : HaltedOutsideLive layout outcome.state
  moments : ∀ moment ∈ outcome.moments, HaltedOutsideLive layout moment

end Statements

/-! ## The stores -/

section Stores

variable {layout : AppLayout} {dest address : Nat} {size : UInt32}

private theorem bundles_of_dvd
    (whole : layout.bundleSize ∣ size.toNat) :
    layout.bundleSize *
        ((size.toNat + (layout.bundleSize - 1)) / layout.bundleSize) =
      size.toNat := by
  have large := layout.bundle_word.2
  obtain ⟨count, same⟩ := whole
  rw [same, Nat.mul_add_div (by omega), Nat.div_eq_of_lt (by omega),
    Nat.add_zero]

private theorem writeBundleHeads_within
    {word : Nat → List UInt8} (words : ∀ offset, (word offset).length = 4)
    (whole : layout.bundleSize ∣ size.toNat)
    (outside : address < dest ∨ dest + size.toNat ≤ address) :
    ∀ store ∈ writeBundleHeads dest word size layout.bundleSize,
      ¬ store.Covers address := by
  have large := layout.bundle_word.2
  have bundles := bundles_of_dvd whole
  intro store member covers
  obtain ⟨bundle, below, rfl⟩ := List.mem_map.mp member
  rw [List.mem_range] at below
  have next : layout.bundleSize * (bundle + 1) ≤ size.toNat := by
    rw [← bundles]
    exact Nat.mul_le_mul_left _ below
  rw [Nat.mul_add, Nat.mul_one] at next
  obtain ⟨above, under⟩ := covers
  dsimp only at above under
  rw [words] at under
  omega

private theorem copyBundleTails_within
    {mapped : Nat} {code : Buffer} (whole : layout.bundleSize ∣ size.toNat)
    (outside : address < dest ∨ dest + size.toNat ≤ address) :
    ∀ store ∈ copyBundleTails mapped dest code size layout.bundleSize,
      ¬ store.Covers address := by
  have words : 4 ∣ size.toNat := layout.bundle_word.1.trans whole
  intro store member covers
  obtain ⟨word, filtered, rfl⟩ := List.mem_map.mp member
  obtain ⟨ranged, -⟩ := List.mem_filter.mp filtered
  rw [List.mem_range] at ranged
  have small : signedSize size ≤ size.toNat := by
    rw [signedSize]
    split_ifs
    · exact Nat.le_refl _
    · exact Nat.zero_le _
  obtain ⟨above, under⟩ := covers
  dsimp only [codeWord, List.length_cons, List.length_nil] at above under
  omega

private theorem copyCodeSafelyInitial_within
    {mapped : Nat} {code : Buffer} (whole : layout.bundleSize ∣ size.toNat)
    (outside : address < dest ∨ dest + size.toNat ≤ address) :
    ∀ store ∈ copyCodeSafelyInitial mapped dest code size layout.bundleSize,
      ¬ store.Covers address := by
  intro store member
  rcases List.mem_append.mp member with tail | head
  · exact copyBundleTails_within whole outside store tail
  · exact writeBundleHeads_within (fun _ => rfl) whole outside store head

private theorem replaceBundleHeadsWithHalts_halts
    (whole : layout.bundleSize ∣ size.toNat)
    (aligned : layout.bundleSize ∣ dest) (head : layout.bundleSize ∣ address)
    (above : dest ≤ address) (below : address < dest + size.toNat)
    (text : Buffer) :
    applyStores
        (replaceBundleHeadsWithHalts dest size layout.bundleSize) text
        address = naclHaltOpcode := by
  have large := layout.bundle_word.2
  have bundles := bundles_of_dvd whole
  apply applyStores_inside
  · intro store member covers
    obtain ⟨bundle, -, rfl⟩ := List.mem_map.mp member
    obtain ⟨start, under⟩ := covers
    rw [List.length_replicate] at under
    exact List.getD_replicate _ (by dsimp only at start under ⊢; omega)
  · left
    obtain ⟨bundle, same⟩ := (Nat.dvd_sub head aligned)
    refine ⟨⟨dest + layout.bundleSize * bundle,
      List.replicate 4 naclHaltOpcode⟩, ?_, ?_⟩
    · apply List.mem_map.mpr
      refine ⟨bundle, List.mem_range.mpr ?_, rfl⟩
      apply Nat.lt_of_mul_lt_mul_left
      rw [bundles]
      omega
    · constructor
      · dsimp only
        omega
      · dsimp only
        rw [List.length_replicate]
        omega

end Stores

/-! ## One call -/

section Calls

variable {layout : AppLayout} {world : TextWorld} {state : TextState}
  {outcome : TextOutcome}

section

variable (halted : HaltedOutsideLive layout state)

include halted

private theorem HaltedOutsideLive.write
    {app : NaClApp} {text : Buffer}
    (grows : ∀ address, InLive state.app.regions address → InLive app.regions address)
    (written : ∀ address, ¬ InLive app.regions address →
      text address = state.text address) :
    HaltedOutsideLive layout ⟨app, text⟩ := by
  intro address head outside
  have before : text address = state.text address := written address outside
  rw [show (⟨app, text⟩ : TextState).text address = text address from rfl,
    before]
  exact halted address head fun live => outside (grows address live)

private theorem HaltedOutsideLive.regions
    {app : NaClApp}
    (same : app.regions = state.app.regions) :
    HaltedOutsideLive layout ⟨app, state.text⟩ :=
  halted.write (fun _ live => same ▸ live) fun _ _ => rfl

private theorem keepsHalts_quiet
    (result : Int) :
    KeepsHalts layout ⟨[], state, result⟩ :=
  ⟨halted, fun _ none_ => absurd none_ (List.not_mem_nil)⟩

private theorem storeMoments_halted
    {app : NaClApp}
    {stores : List Store}
    (grows : ∀ address, InLive state.app.regions address → InLive app.regions address)
    (within : ∀ address, ¬ InLive app.regions address →
      ∀ store ∈ stores, ¬ store.Covers address) :
    ∀ moment ∈ storeMoments app state.text stores,
      HaltedOutsideLive layout moment := by
  intro moment member
  obtain ⟨done, begins, rfl⟩ := List.mem_map.mp member
  rw [List.mem_inits] at begins
  refine halted.write grows ?_
  intro address outside
  apply applyStores_outside
  intro store present
  exact within address outside store (begins.subset present)

private theorem stores_halted
    {app : NaClApp}
    {stores : List Store}
    (grows : ∀ address, InLive state.app.regions address → InLive app.regions address)
    (within : ∀ address, ¬ InLive app.regions address →
      ∀ store ∈ stores, ¬ store.Covers address) :
    HaltedOutsideLive layout ⟨app, applyStores stores state.text⟩ := by
  refine halted.write grows ?_
  intro address outside
  exact applyStores_outside (within address outside) _

end

private theorem createRegionText_keepsHalts
    (keeps : layout.Keeps state.app.regions)
    (halted : HaltedOutsideLive layout state)
    {destAddr : Nat} {dest size : UInt32}
    (whole : layout.bundleSize ∣ size.toNat)
    (ran : createRegionText layout world state destAddr dest size =
      some outcome) :
    KeepsHalts layout outcome := by
  rw [createRegionText] at ran
  obtain ⟨⟨regions, created⟩, claimed, rest⟩ := Option.bind_eq_some_iff.mp ran
  have has := Orderly.create_has keeps claimed
  have grows : ∀ (app : NaClApp), app.regions = regions →
      ∀ address, InLive state.app.regions address → InLive app.regions address := by
    intro app same address live
    obtain ⟨region, present, rest⟩ := live
    refine ⟨region, ?_, rest⟩
    rw [same]
    exact (has region).mpr (.inl present)
  dsimp only at rest
  split_ifs at rest with taken
  · cases rest
    exact keepsHalts_quiet (halted.write (grows _ rfl) fun _ _ => rfl) _
  · cases rest
    exact keepsHalts_quiet (halted.write (grows _ rfl) fun _ _ => rfl) _
  · obtain ⟨⟨mapped, address⟩, wrapped, copied⟩ :=
      Option.bind_eq_some_iff.mp rest
    have same := (naclTextMapWrapper_same wrapped).regions
    cases address with
    | none =>
        cases copied
        exact keepsHalts_quiet
          (halted.write (grows mapped same) fun _ _ => rfl) _
    | some address =>
        simp only [copyNewCode] at copied
        split_ifs at copied
        obtain ⟨cleared, clears, final⟩ := Option.bind_eq_some_iff.mp copied
        cases final
        have fresh := Bool.eq_true_of_not_eq_false taken
        have within : ∀ (app : NaClApp), app.regions = regions →
            ∀ place, ¬ InLive app.regions place → ∀ store ∈
              copyCodeSafelyInitial address destAddr world.codeCopy size
                layout.bundleSize, ¬ store.Covers place := by
          intro app regionsSame place outside
          apply copyCodeSafelyInitial_within whole
          by_contra inside
          push Not at inside
          apply outside
          refine ⟨⟨destAddr, size.toNat, -1⟩, ?_, ?_, inside.1,
            inside.2⟩
          · rw [regionsSame]
            exact (has _).mpr (.inr ⟨fresh, rfl⟩)
          · show (-1 : Int) < 0
            decide
        have clearedSame : cleared.regions = regions :=
          (naclTextMapClearCacheIfNeeded_same clears).regions.trans same
        exact ⟨stores_halted halted (grows cleared clearedSame)
            (within cleared clearedSame),
          storeMoments_halted halted (grows mapped same)
            (within mapped same)⟩

private theorem create_keepsHalts
    (keeps : layout.Keeps state.app.regions)
    (halted : HaltedOutsideLive layout state)
    {dest src size : UInt32}
    (ran : naClTextSysDyncodeCreateText layout world state dest src size =
      some outcome) :
    KeepsHalts layout outcome := by
  simp only [naClTextSysDyncodeCreateText] at ran
  split_ifs at ran with disabled unaligned
  case neg =>
    push Not at unaligned
    exact createRegionText_keepsHalts keeps halted
      (AppLayout.dvd_of_and_bundleMask unaligned.2) ran
  all_goals
    cases ran
    exact keepsHalts_quiet halted _

private theorem copyReplacement_keepsHalts
    (halted : HaltedOutsideLive layout state) {mapped : NaClApp}
    {beginbundle length : Nat} {dest size : UInt32}
    (same : mapped.regions = state.app.regions)
    (live : ∀ address, beginbundle ≤ address →
      address < beginbundle + length → InLive state.app.regions address)
    (ran : copyReplacement layout world mapped state.text beginbundle length
      dest size = some outcome) :
    KeepsHalts layout outcome := by
  have written : ∀ (app : NaClApp), app.regions = state.app.regions →
      ∀ now, now = state.text ∨ now ∈ world.copyMoments.map
        (replacedText state.text beginbundle length) →
      HaltedOutsideLive layout ⟨app, now⟩ := by
    intro app regionsSame now which
    rcases which with unchanged | member
    · rw [unchanged]
      exact halted.regions regionsSame
    · obtain ⟨bundles, -, rfl⟩ := List.mem_map.mp member
      refine halted.write
        (fun _ inside => regionsSame ▸ inside) ?_
      intro address outside
      apply Buffer.splice_outside
      by_contra inside
      push Not at inside
      exact outside (regionsSame ▸ live address inside.1 inside.2)
  have final : ∀ (app : NaClApp), app.regions = state.app.regions →
      HaltedOutsideLive layout ⟨app, ((world.copyMoments.map
        (replacedText state.text beginbundle length)).getLast?).getD
          state.text⟩ := by
    intro app regionsSame
    apply written app regionsSame
    cases last : (world.copyMoments.map
        (replacedText state.text beginbundle length)).getLast? with
    | none => exact .inl rfl
    | some now => exact .inr (List.mem_of_getLast? last)
  have seen : ∀ moment ∈ (world.copyMoments.map
      (replacedText state.text beginbundle length)).map
        (fun now => (⟨mapped, now⟩ : TextState)),
      HaltedOutsideLive layout moment := by
    intro moment member
    obtain ⟨now, present, rfl⟩ := List.mem_map.mp member
    exact written mapped same now (.inr present)
  simp only [copyReplacement] at ran
  split_ifs at ran
  · obtain ⟨cleared, clears, done⟩ := Option.bind_eq_some_iff.mp ran
    cases done
    exact ⟨final cleared
      ((naclTextMapClearCacheIfNeeded_same clears).regions.trans same), seen⟩
  · cases ran
    exact ⟨final mapped same, seen⟩

private theorem modify_keepsHalts
    (keeps : layout.Keeps state.app.regions)
    (halted : HaltedOutsideLive layout state)
    {dest src size : UInt32}
    (permitted : ModifiesLive layout state.app (.modify dest src size))
    (ran : naClTextSysDyncodeModifyText layout world state dest src size =
      some outcome) :
    KeepsHalts layout outcome := by
  simp only [naClTextSysDyncodeModifyText] at ran
  split_ifs at ran with disabled forbidden empty bad
  · cases ran
    exact keepsHalts_quiet halted _
  · cases ran
    exact keepsHalts_quiet halted _
  · cases ran
    exact keepsHalts_quiet halted _
  · cases ran
    exact keepsHalts_quiet halted _
  · have enabled : layout.textShm = true := by
      simpa using disabled
    push Not at bad
    obtain ⟨address, fits⟩ := naClUserToSysAddrRange_good bad.2
    have memory := layout.memory
    cases found : naClDynamicRegionFind layout.wordBits state.app.regions
        (layout.naClUserToSysAddrRange dest.toNat size.toNat) size.toNat with
    | none =>
        rw [found] at ran
        cases ran
        exact keepsHalts_quiet halted _
    | some index =>
        have present := find_inside keeps.sorted found
        have contained := (keeps.contained index present).2
        have highest := layout.highest_lt enabled
        have pending := permitted index found
        rw [found] at ran
        dsimp only at ran
        split_ifs at ran with outside
        · cases ran
          exact keepsHalts_quiet halted _
        · push Not at outside
          obtain ⟨above, below⟩ := outside
          rw [wrapWord_of_lt (by omega), wrapWord_of_lt (by omega)] at below
          have inside := (bundles_inside enabled keeps present above
            below).resolve_right
              (fun zero => empty (UInt32.toNat_inj.mp zero))
          simp only [modifyBundlesText] at ran
          split_ifs at ran
          · cases ran
            exact keepsHalts_quiet halted _
          · cases ran
            exact keepsHalts_quiet halted _
          · obtain ⟨⟨mapped, mappedAddress⟩, wrapped, copied⟩ :=
              Option.bind_eq_some_iff.mp ran
            have same := (naclTextMapWrapper_same wrapped).regions
            cases mappedAddress with
            | none =>
                cases copied
                exact keepsHalts_quiet (halted.regions same) _
            | some mappedAddress =>
                refine copyReplacement_keepsHalts halted same ?_ copied
                intro place low high
                exact ⟨_, ⟨index, present, rfl⟩, pending, by omega, by omega⟩

private theorem inLive_setDeleteGeneration
    {regions : RegionTable} {address : Nat} (live : InLive regions address)
    (index : Nat) (generation : Int) :
    InLive (setDeleteGeneration regions index generation) address ∨
      ((regions.dynamicRegions index).start ≤ address ∧
        address < (regions.dynamicRegions index).stop) := by
  obtain ⟨region, ⟨position, below, rfl⟩, kept, above, under⟩ := live
  by_cases here : position = index
  · rw [here] at above under
    exact .inr ⟨above, under⟩
  · refine .inl ⟨_, ⟨position, ?_, ?_⟩, kept, above, under⟩
    · exact below
    · exact Function.update_of_ne here _ _

private structure Requested (layout : AppLayout) (index : Nat)
    (state : TextState) (moments : List TextState) (requested : TextState)
    (error : Option Int) : Prop where
  moments : ∀ moment ∈ moments, HaltedOutsideLive layout moment
  halted : HaltedOutsideLive layout requested
  count : requested.app.regions.numDynamicRegions =
    state.app.regions.numDynamicRegions
  pending : error = none → 0 ≤
    (requested.app.regions.dynamicRegions index).deleteGeneration
  generation : 0 ≤ requested.app.dynamicDeleteGeneration

private theorem requestDeletionText_requested
    (keeps : layout.Keeps state.app.regions)
    (halted : HaltedOutsideLive layout state)
    (counted : 0 ≤ state.app.dynamicDeleteGeneration)
    {index destAddr : Nat} {dest size : UInt32} {moments : List TextState}
    {requested : TextState} {error : Option Int}
    (present : index < state.app.regions.numDynamicRegions)
    (start : (state.app.regions.dynamicRegions index).start = destAddr)
    (extent : (state.app.regions.dynamicRegions index).size = size.toNat)
    (ran : requestDeletionText layout world state index destAddr dest size =
      some (moments, requested, error)) :
    Requested layout index state moments requested error := by
  rw [requestDeletionText] at ran
  split_ifs at ran with pending exhausted
  · cases ran
    exact ⟨fun _ none_ => absurd none_ List.not_mem_nil, halted, rfl,
      fun _ => pending, counted⟩
  · cases ran
    exact ⟨fun _ none_ => absurd none_ List.not_mem_nil, halted, rfl,
      fun wrong => absurd wrong (Option.some_ne_none _), counted⟩
  · obtain ⟨⟨mapped, address⟩, wrapped, rest⟩ :=
      Option.bind_eq_some_iff.mp ran
    have same := (naclTextMapWrapper_same wrapped).regions
    have generation := (naclTextMapWrapper_same wrapped).generation
    cases address with
    | none =>
        cases rest
        exact ⟨fun _ none_ => absurd none_ List.not_mem_nil,
          halted.regions same, congrArg RegionTable.numDynamicRegions same,
          fun wrong => absurd wrong (Option.some_ne_none _),
          counted.trans_eq generation.symm⟩
    | some address =>
        obtain ⟨cleared, clears, final⟩ := Option.bind_eq_some_iff.mp rest
        cases final
        have clearedSame :=
          (naclTextMapClearCacheIfNeeded_same clears).regions.trans same
        have clearedGeneration : 0 ≤ cleared.dynamicDeleteGeneration + 1 := by
          rw [(naclTextMapClearCacheIfNeeded_same clears).generation,
            generation]
          omega
        obtain ⟨aligned, whole⟩ := keeps.aligned index present
        rw [start] at aligned
        rw [extent] at whole
        have live : ∀ place, destAddr ≤ place →
            place < destAddr + size.toNat → InLive state.app.regions place := by
          intro place low high
          refine ⟨_, ⟨index, present, rfl⟩, not_le.mp pending, ?_, ?_⟩
          · rw [start]
            exact low
          · rw [NaClDynamicRegion.stop, start, extent]
            exact high
        have within : ∀ place, ¬ InLive state.app.regions place → ∀ store ∈
            replaceBundleHeadsWithHalts destAddr size layout.bundleSize,
            ¬ store.Covers place := by
          intro place outside
          apply writeBundleHeads_within (fun _ => rfl) whole
          by_contra inside
          push Not at inside
          exact outside (live place inside.1 inside.2)
        refine ⟨?_, ?_, ?_, ?_, ?_⟩
        · apply storeMoments_halted halted
          · intro place inside
            exact same ▸ inside
          · intro place outside
            exact within place (fun inside => outside (same ▸ inside))
        · intro place head outside
          by_cases inside : destAddr ≤ place ∧ place < destAddr + size.toNat
          · exact replaceBundleHeadsWithHalts_halts whole aligned head.aligned
              inside.1 inside.2 _
          · have dead : ¬ InLive state.app.regions place := by
              intro alive
              rw [← clearedSame] at alive start extent
              rcases inLive_setDeleteGeneration alive index
                  (cleared.dynamicDeleteGeneration + 1) with kept | removed
              · exact outside kept
              · rw [NaClDynamicRegion.stop, start, extent] at removed
                exact inside removed
            show applyStores _ state.text place = _
            rw [applyStores_outside (within place dead)]
            exact halted place head dead
        · show cleared.regions.numDynamicRegions = _
          rw [clearedSame]
        · intro _
          dsimp only [setDeleteGeneration]
          rw [Function.update_self]
          exact clearedGeneration
        · exact clearedGeneration

private theorem finishDeletion_halted
    (halted : HaltedOutsideLive layout state) {thread index : Nat}
    (present : index < state.app.regions.numDynamicRegions)
    (pending : 0 ≤ (state.app.regions.dynamicRegions index).deleteGeneration)
    {left : NaClApp} {result : Int}
    (ran : finishDeletion world.toWorld state.app thread index =
      some (left, result)) :
    HaltedOutsideLive layout ⟨left, state.text⟩ := by
  obtain ⟨passed, minimum, updated, -,
    ⟨-, regions, removed, rfl⟩ | ⟨rfl, -⟩⟩ := finishDeletion_cases ran
  · refine halted.write ?_ fun _ _ => rfl
    intro address live
    obtain ⟨region, ⟨position, below, rfl⟩, alive, above, under⟩ := live
    refine ⟨_, (delete_has present removed _).mpr ⟨position, below, ?_, rfl⟩,
      alive, above, under⟩
    intro here
    rw [here] at alive
    omega
  · exact halted.regions (naClSetThreadGeneration_regions updated)

private theorem delete_keepsHalts
    (keeps : layout.Keeps state.app.regions)
    (halted : HaltedOutsideLive layout state)
    (counted : 0 ≤ state.app.dynamicDeleteGeneration)
    {thread : Nat} {dest size : UInt32}
    (ran : naClTextSysDyncodeDeleteText layout world state thread dest size =
      some outcome) :
    KeepsHalts layout outcome := by
  simp only [naClTextSysDyncodeDeleteText] at ran
  split_ifs at ran with disabled forbidden bad empty
  · cases ran
    exact keepsHalts_quiet halted _
  · cases ran
    exact keepsHalts_quiet halted _
  · cases ran
    exact keepsHalts_quiet halted _
  · obtain ⟨⟨passed, result⟩, updated, final⟩ :=
      Option.map_eq_some_iff.mp ran
    obtain ⟨app, set, same⟩ := Option.bind_eq_some_iff.mp updated
    cases same
    cases final
    exact keepsHalts_quiet
      (halted.regions (naClSetThreadGeneration_regions set)) _
  · cases found : naClDynamicRegionFind layout.wordBits state.app.regions
        (layout.naClUserToSysAddrRange dest.toNat size.toNat) size.toNat with
    | none =>
        rw [found] at ran
        cases ran
        exact keepsHalts_quiet halted _
    | some index =>
        have present := find_inside keeps.sorted found
        rw [found] at ran
        dsimp only at ran
        split_ifs at ran with different
        · cases ran
          exact keepsHalts_quiet halted _
        · push Not at different
          obtain ⟨⟨moments, requested, error⟩, asked, rest⟩ :=
            Option.bind_eq_some_iff.mp ran
          have request := requestDeletionText_requested keeps halted counted
            present different.1 different.2 asked
          cases error with
          | some code =>
              cases rest
              exact ⟨request.halted, request.moments⟩
          | none =>
              obtain ⟨⟨left, result⟩, finished, final⟩ :=
                Option.bind_eq_some_iff.mp rest
              cases final
              refine ⟨finishDeletion_halted request.halted ?_
                (request.pending rfl) finished, request.moments⟩
              rw [request.count]
              exact present

theorem performText_keepsHalts
    (keeps : layout.Keeps state.app.regions)
    (halted : HaltedOutsideLive layout state)
    (counted : 0 ≤ state.app.dynamicDeleteGeneration)
    {thread : Nat} {call : Call}
    (permitted : ModifiesLive layout state.app call)
    (ran : performText layout world state thread call = some outcome) :
    KeepsHalts layout outcome := by
  cases call with
  | create dest src size => exact create_keepsHalts keeps halted ran
  | modify dest src size => exact modify_keepsHalts keeps halted permitted ran
  | delete dest size => exact delete_keepsHalts keeps halted counted ran
  | addThread =>
      cases ran
      have same : (naClAddThreadMu state.app).regions = state.app.regions :=
        rfl
      exact keepsHalts_quiet (halted.regions same) _
  | exitThread =>
      obtain ⟨⟨app, result⟩, removed, final⟩ := Option.map_eq_some_iff.mp ran
      obtain ⟨left, gone, same⟩ := Option.map_eq_some_iff.mp removed
      cases same
      cases final
      exact keepsHalts_quiet
        (halted.regions (naClRemoveThreadMu_regions gone)) _

end Calls

theorem textReachable_halted
    {layout : AppLayout} {state : TextState}
    (reached : TextReachable layout (ModifiesLive layout) state) :
    HaltedOutsideLive layout state := by
  induction reached with
  | initial filled =>
      intro address head _
      exact filled address head.above head.below
  | step world thread call before permitted ran ih =>
      have keeps := reachable_orderly layout before.reachable
      have counted := reachable_counted before.reachable
      exact (performText_keepsHalts keeps ih counted.generation permitted
        ran).state

/-- As long as no region is modified after a request to delete it, every bundle
outside the live regions halts, also while a call writes. -/
theorem seen_haltedOutsideLive
    (layout : AppLayout) {state : TextState}
    (seen : Seen layout (ModifiesLive layout) state) :
    HaltedOutsideLive layout state := by
  rcases seen with reached | ⟨before, world, thread, call, outcome, reached,
    permitted, ran, moment⟩
  · exact textReachable_halted reached
  · have keeps := reachable_orderly layout reached.reachable
    have counted := reachable_counted reached.reachable
    exact (performText_keepsHalts keeps (textReachable_halted reached)
      counted.generation permitted ran).moments state moment

/-! ## A region that is modified while it is deleted -/

def narrowLayout : AppLayout where
  wordBits := 32
  addrBits := 30
  memStart := 0x40000000
  bundleSize := 32
  instrBlockSize := 32
  dynamicTextStart := 0x20000
  dynamicTextEnd := 0x40000
  textShm := true
  allowDyncodeReplacement := true
  ignoreValidatorResult := false
  word := bits32
  bundle := bundle32
  memAligned := by decide
  address := by decide
  memory := by decide
  text := by decide

/-- New code is a bundle of `nop`, and replacements lead to `after`. -/
def nopWorld (after : Buffer) : TextWorld where
  toWorld := { obliging with map := fun _ _ => 0x70000000 }
  codeCopy := fun _ => 0x90
  copyMoments := [after]

private def haltedState : TextState :=
  ⟨NaClApp.initial, fun _ => naclHaltOpcode⟩

private def runText (layout : AppLayout) (world : TextWorld) :
    TextState → List Call → Option TextState
  | state, [] => some state
  | state, call :: calls =>
      (performText layout world state 0 call).bind fun outcome =>
        runText layout world outcome.state calls

private def isModify : Call → Bool
  | .modify _ _ _ => true
  | _ => false

private theorem modifiesLive_of_not_modify
    (layout : AppLayout) (app : NaClApp) {call : Call}
    (other : isModify call = false) : ModifiesLive layout app call := by
  cases call with
  | modify dest src size => cases other
  | create dest src size => trivial
  | delete dest size => trivial
  | addThread => trivial
  | exitThread => trivial

private theorem TextReachable.runText
    {layout : AppLayout} {world : TextWorld} {calls : List Call}
    {state final : TextState}
    (reached : TextReachable layout (ModifiesLive layout) state)
    (others : ∀ call ∈ calls, isModify call = false)
    (ran : runText layout world state calls = some final) :
    TextReachable layout (ModifiesLive layout) final := by
  induction calls generalizing state with
  | nil =>
      cases ran
      exact reached
  | cons call calls ih =>
      obtain ⟨outcome, first, rest⟩ := Option.bind_eq_some_iff.mp ran
      have permitted := modifiesLive_of_not_modify layout state.app
        (others call List.mem_cons_self)
      exact ih (reached.step world 0 call permitted first)
        (fun other member => others other (List.mem_cons_of_mem _ member)) rest

private def deletionCalls : List Call :=
  [.addThread, .addThread, .create 0x30000 0x10000 32, .delete 0x30000 32]

theorem seen_haltedOutsideLive_deletion :
    ∃ state, Seen narrowLayout (ModifiesLive narrowLayout) state ∧
      state.app.regions.numDynamicRegions = 1 ∧
      state.text 0x40030004 = 0x90 ∧
      HaltedOutsideLive narrowLayout state := by
  have run : (runText narrowLayout (nopWorld fun _ => 0x90) haltedState
      deletionCalls).map (fun state =>
        (state.app.regions.numDynamicRegions, state.text 0x40030004)) =
      some (1, 0x90) := by
    decide +kernel
  obtain ⟨state, ran, values⟩ := Option.map_eq_some_iff.mp run
  simp only [Prod.mk.injEq] at values
  have start : TextReachable narrowLayout (ModifiesLive narrowLayout)
      haltedState := .initial fun _ _ _ => rfl
  have seen : Seen narrowLayout (ModifiesLive narrowLayout) state :=
    .inl (start.runText (by decide) ran)
  exact ⟨state, seen, values.1, values.2,
    seen_haltedOutsideLive narrowLayout seen⟩

/-- The bundles with a `nop` in place of their first byte. -/
def nopFirst (bundles : Buffer) : Buffer :=
  bundles.splice (fun _ => 0x90) 0 1

/-- The first byte of the halted region is modified.  The validator accepts the
replacement, the copy is made, and the bundle does not halt any more. -/
theorem not_haltedOutsideLive_modified :
    ∃ before final after outcome,
      TextReachable narrowLayout (ModifiesLive narrowLayout) before ∧
      ValidatesReplacement { f386 := true } 0x30000 0x30020 32
        (before.text.shift 0x40030000)
        (nopFirst (before.text.shift 0x40030000)) 0 final ∧
      CopiesCode .bytewise 0x40030000 final 0x30000 0x30020 32 before.text
        after ∧
      performText narrowLayout (nopWorld (after.shift 0x40030000)) before 0
        (.modify 0x30000 0x10000 1) = some outcome ∧
      outcome.result = 0 ∧
      ¬ HaltedOutsideLive narrowLayout outcome.state := by
  have run : (do
      let before ← runText narrowLayout (nopWorld fun _ => 0x90) haltedState
        deletionCalls
      let vstate ← ncValidateInit 0x30000 0x30020 32
      let validation ← ncValidateSegmentPair { f386 := true } 0x30000 32
        (before.text.shift 0x40030000)
        ⟨nopFirst (before.text.shift 0x40030000), vstate⟩ 40
      let verdict ← ncValidateFinish (some validation.vstate) 40
      let copied ← ncCopyCode .bytewise 0x40030000 validation.memory 0x30000
        0x30020 32 before.text 40
      let outcome ← performText narrowLayout
        (nopWorld (copied.1.shift 0x40030000)) before 0
        (.modify 0x30000 0x10000 1)
      return (verdict, copied.2, outcome.result,
        outcome.state.app.regions.numDynamicRegions,
        (outcome.state.app.regions.dynamicRegions 0).deleteGeneration,
        outcome.state.text 0x40030000)) =
      some (0, 0, 0, 1, 1, 0x90) := by
    decide +kernel
  simp only [Option.bind_eq_bind, Option.bind_eq_some_iff, Option.pure_def,
    Option.some.injEq, Prod.mk.injEq] at run
  obtain ⟨before, ran, vstate, init, validation, segment, verdict, finish,
    ⟨after, code⟩, copied, outcome, performed, rfl, rfl, result, count,
    generation, first⟩ := run
  have start : TextReachable narrowLayout (ModifiesLive narrowLayout)
      haltedState := .initial fun _ _ _ => rfl
  refine ⟨before, validation.memory, after, outcome,
    start.runText (by decide) ran,
    ⟨vstate, init, 40, validation, segment, rfl, finish⟩, ⟨40, copied⟩,
    performed, result, ?_⟩
  intro halted
  have dead : ¬ InLive outcome.state.app.regions 0x40030000 := by
    rintro ⟨region, ⟨index, below, rfl⟩, alive, -⟩
    have zero : index = 0 := by omega
    rw [zero, generation] at alive
    exact absurd alive (by decide)
  have halt := halted 0x40030000 ⟨by decide, by decide, by decide⟩ dead
  rw [first] at halt
  exact absurd halt (by decide)

end NativeClient.Runtime
