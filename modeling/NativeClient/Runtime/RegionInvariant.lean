import NativeClient.Library.Masks
import NativeClient.Runtime.DynamicCode

/-!
# The regions stay orderly

Each call leaves the table as it is, inserts one region, marks one region for
deletion, or removes one.
-/

namespace NativeClient.Runtime

open NativeClient.Library

variable {layout : AppLayout} {world : World} {app next : NaClApp}

def AppLayout.Keeps (layout : AppLayout) (regions : RegionTable) : Prop :=
  Orderly layout.bundleSize layout.lowest layout.highest regions

section Frame

structure SameButMapping (app next : NaClApp) : Prop where
  regions : next.regions = app.regions
  generation : next.dynamicDeleteGeneration = app.dynamicDeleteGeneration
  threads : next.threads = app.threads
  numThreads : next.numThreads = app.numThreads

theorem SameButMapping.trans
    {last : NaClApp} (first : SameButMapping app next)
    (second : SameButMapping next last) : SameButMapping app last where
  regions := second.regions.trans first.regions
  generation := second.generation.trans first.generation
  threads := second.threads.trans first.threads
  numThreads := second.numThreads.trans first.numThreads

variable {size dest : UInt32} {result : Int} {thread : Nat}

theorem cachedMapWritableText_same
    {offset : UInt32}
    (ran : cachedMapWritableText layout world app offset size = some next) :
    SameButMapping app next := by
  rw [cachedMapWritableText] at ran
  split_ifs at ran <;> cases ran <;> exact ⟨rfl, rfl, rfl, rfl⟩

theorem naclTextMapWrapper_same
    {address : Option Nat}
    (ran : naclTextMapWrapper layout world app dest size =
      some (next, address)) :
    SameButMapping app next := by
  rw [naclTextMapWrapper] at ran
  obtain ⟨mapped, cached, rest⟩ := Option.bind_eq_some_iff.mp ran
  have same := cachedMapWritableText_same cached
  split_ifs at rest <;> cases rest <;> exact same

theorem naclTextMapClearCacheIfNeeded_same
    (ran : naclTextMapClearCacheIfNeeded layout world app dest size =
      some next) :
    SameButMapping app next := by
  rw [naclTextMapClearCacheIfNeeded] at ran
  split_ifs at ran
  · exact cachedMapWritableText_same ran
  · cases ran
    exact ⟨rfl, rfl, rfl, rfl⟩

inductive MapsCode (layout : AppLayout) (world : World) (app : NaClApp)
    (dest size : UInt32) : NaClApp → Prop where
  | kept {mapped : NaClApp} {address : Option Nat}
      (wraps : naclTextMapWrapper layout world app dest size =
        some (mapped, address)) :
      MapsCode layout world app dest size mapped
  | cleared {mapped next : NaClApp} {address : Nat}
      (wraps : naclTextMapWrapper layout world app dest size =
        some (mapped, some address))
      (clears : naclTextMapClearCacheIfNeeded layout world mapped dest size =
        some next) :
      MapsCode layout world app dest size next

theorem MapsCode.same
    (maps : MapsCode layout world app dest size next) :
    SameButMapping app next := by
  cases maps with
  | kept wraps => exact naclTextMapWrapper_same wraps
  | cleared wraps clears =>
      exact (naclTextMapWrapper_same wraps).trans
        (naclTextMapClearCacheIfNeeded_same clears)

theorem installCode_maps
    {copied : Bool}
    (ran : installCode layout world app dest size copied =
      some (next, result)) :
    MapsCode layout world app dest size next := by
  rw [installCode] at ran
  obtain ⟨⟨mapped, address⟩, wraps, rest⟩ := Option.bind_eq_some_iff.mp ran
  cases address with
  | none =>
      cases rest
      exact .kept wraps
  | some address =>
      dsimp only at rest
      split_ifs at rest
      · obtain ⟨cleared, clears, final⟩ := Option.bind_eq_some_iff.mp rest
        cases final
        exact .cleared wraps clears
      · cases rest
        exact .kept wraps

theorem naClSetThreadGeneration_same
    {generation : Int}
    (ran : naClSetThreadGeneration app thread generation = some next) :
    next = { app with threads := next.threads } := by
  rw [naClSetThreadGeneration] at ran
  cases slot : (app.threads[thread]?).join with
  | none =>
      rw [slot] at ran
      cases ran
  | some previous =>
      rw [slot] at ran
      dsimp only at ran
      split_ifs at ran <;> cases ran <;> rfl

theorem naClSetThreadGeneration_regions
    {generation : Int}
    (ran : naClSetThreadGeneration app thread generation = some next) :
    next.regions = app.regions := by
  rw [naClSetThreadGeneration_same ran]

theorem naClRemoveThreadMu_same
    (ran : naClRemoveThreadMu app thread = some next) :
    next = { app with
      threads := next.threads
      numThreads := next.numThreads } := by
  rw [naClRemoveThreadMu] at ran
  split_ifs at ran
  cases ran
  rfl

theorem naClRemoveThreadMu_regions
    (ran : naClRemoveThreadMu app thread = some next) :
    next.regions = app.regions := by
  rw [naClRemoveThreadMu_same ran]

theorem naClTextSysDyncodeModify_same
    {src : UInt32}
    (ran : naClTextSysDyncodeModify layout world app dest src size =
      some (next, result)) :
    SameButMapping app next := by
  have same : SameButMapping app app := ⟨rfl, rfl, rfl, rfl⟩
  simp only [naClTextSysDyncodeModify] at ran
  split_ifs at ran
  case neg =>
    split at ran
    · cases ran
      exact same
    · split_ifs at ran
      · cases ran
        exact same
      · simp only [modifyBundles] at ran
        split_ifs at ran
        · cases ran
          exact same
        · cases ran
          exact same
        · exact (installCode_maps ran).same
  all_goals
    cases ran
    exact same

theorem finishDeletion_cases
    {index : Nat}
    (ran : finishDeletion world app thread index = some (next, result)) :
    ∃ passed minimum,
      naClSetThreadGeneration app thread app.dynamicDeleteGeneration =
        some passed ∧
      naClMinimumThreadGeneration passed = some minimum ∧
      ((app.regions.dynamicRegions index).deleteGeneration ≤ minimum ∧
          (∃ regions, naClDynamicRegionDelete world.reallocSucceeds app.regions
            index = some regions ∧ next = { passed with regions := regions }) ∨
        next = passed ∧ result = -eagain) := by
  rw [finishDeletion] at ran
  obtain ⟨passed, updated, rest⟩ := Option.bind_eq_some_iff.mp ran
  obtain ⟨minimum, found, decided⟩ := Option.bind_eq_some_iff.mp rest
  rw [naClSetThreadGeneration_regions updated] at decided
  refine ⟨passed, minimum, updated, found, ?_⟩
  split_ifs at decided with all
  · obtain ⟨regions, removed, final⟩ := Option.bind_eq_some_iff.mp decided
    cases final
    exact .inl ⟨all, regions, removed, rfl⟩
  · cases decided
    exact .inr ⟨rfl, rfl⟩

/-- What `dyncode_delete` can do: nothing, note that the thread runs, or begin
to remove the region that is named. -/
inductive DeletesRegion (layout : AppLayout) (world : World) (app : NaClApp)
    (thread : Nat) (dest size : UInt32) : NaClApp → Int → Prop where
  | refused {result : Int} (failed : result ≠ 0) :
      DeletesRegion layout world app thread dest size app result
  | passes {next : NaClApp} {result : Int} (empty : size = 0)
      (updated : naClSetThreadGeneration app thread
        app.dynamicDeleteGeneration = some next) :
      DeletesRegion layout world app thread dest size next result
  | asked {index : Nat} {requested next : NaClApp} {error : Option Int}
      {result : Int}
      (found : naClDynamicRegionFind layout.wordBits app.regions
        (layout.naClUserToSysAddrRange dest.toNat size.toNat) size.toNat =
          some index)
      (start : (app.regions.dynamicRegions index).start =
        layout.naClUserToSysAddrRange dest.toNat size.toNat)
      (asks : requestDeletion layout world app index dest size =
        some (requested, error))
      (ends : error = some result ∧ next = requested ∨ error = none ∧
        finishDeletion world requested thread index = some (next, result)) :
      DeletesRegion layout world app thread dest size next result

theorem naClTextSysDyncodeDelete_cases
    (ran : naClTextSysDyncodeDelete layout world app thread dest size =
      some (next, result)) :
    DeletesRegion layout world app thread dest size next result := by
  simp only [naClTextSysDyncodeDelete] at ran
  split_ifs at ran with disabled forbidden bad empty
  · cases ran
    exact .refused (by decide)
  · cases ran
    exact .refused (by decide)
  · cases ran
    exact .refused (by decide)
  · obtain ⟨passed, updated, final⟩ := Option.bind_eq_some_iff.mp ran
    cases final
    exact .passes empty updated
  · split at ran
    next =>
      cases ran
      exact .refused (by decide)
    next index found =>
      split_ifs at ran with different
      · cases ran
        exact .refused (by decide)
      · push Not at different
        obtain ⟨⟨requested, error⟩, asks, rest⟩ :=
          Option.bind_eq_some_iff.mp ran
        refine .asked found different.1 asks ?_
        cases error with
        | some code =>
            cases rest
            exact .inl ⟨rfl, rfl⟩
        | none => exact .inr ⟨rfl, rest⟩

end Frame

section Arguments

theorem AppLayout.toNat_lt_word (layout : AppLayout) (value : UInt32) :
    value.toNat < 2 ^ layout.wordBits := by
  have bound := value.toNat_lt
  rcases layout.word with narrow | wide
  · rw [narrow]
    exact bound
  · rw [wide]
    omega

theorem naClUserToSysAddrRange_good
    {uaddr count : UInt32}
    (good : layout.naClUserToSysAddrRange uaddr.toNat count.toNat ≠
      layout.kNaClBadAddress) :
    layout.naClUserToSysAddrRange uaddr.toNat count.toNat =
        layout.memStart + uaddr.toNat ∧
      uaddr.toNat + count.toNat < 2 ^ layout.addrBits := by
  obtain ⟨address, -, inside⟩ := AddressSpace.naClUserToSysAddrRange_good
    layout.memory (layout.toNat_lt_word count) good
  exact ⟨address, inside⟩

theorem toNat_and_mask
    (value : UInt32) (shift : Nat) {mask : UInt32}
    (masked : mask.toNat = 2 ^ shift - 1) :
    (value &&& mask).toNat = value.toNat % 2 ^ shift :=
  toNat_and_low value.toBitVec masked

private theorem dvd_of_and_mask
    (value : UInt32) (shift : Nat) {mask : UInt32}
    (masked : mask.toNat = 2 ^ shift - 1) (clear : value &&& mask = 0) :
    2 ^ shift ∣ value.toNat := by
  rw [Nat.dvd_iff_mod_eq_zero, ← toNat_and_mask value shift masked, clear]
  rfl

theorem AppLayout.dvd_of_and_bundleMask
    {value : UInt32} (clear : value &&& layout.bundleMask = 0) :
    layout.bundleSize ∣ value.toNat := by
  rw [AppLayout.bundleMask] at clear
  rcases layout.bundle with small | large
  · rw [small] at clear ⊢
    exact dvd_of_and_mask value 4 rfl clear
  · rw [large] at clear ⊢
    exact dvd_of_and_mask value 5 rfl clear

theorem AppLayout.highest_lt
    (enabled : layout.textShm = true) :
    layout.highest < 2 ^ layout.wordBits := by
  have memory := layout.memory
  obtain ⟨_, text⟩ := layout.text enabled
  rw [AppLayout.highest]
  omega

theorem AppLayout.bundle_word (layout : AppLayout) :
    4 ∣ layout.bundleSize ∧ 4 ≤ layout.bundleSize := by
  rcases layout.bundle with small | large
  · rw [small]
    decide
  · rw [large]
    decide

theorem AppLayout.roundDown_le (layout : AppLayout) (address : Nat) :
    layout.roundDown address ≤ address :=
  Nat.sub_le _ _

theorem AppLayout.le_roundDown
    {bound address : Nat} (aligned : layout.bundleSize ∣ bound)
    (above : bound ≤ address) : bound ≤ layout.roundDown address := by
  have positive : 0 < layout.bundleSize := by
    have large := layout.bundle_word.2
    omega
  obtain ⟨bundle, rfl⟩ := aligned
  have whole : layout.roundDown address =
      layout.bundleSize * (address / layout.bundleSize) := by
    have split := Nat.div_add_mod address layout.bundleSize
    rw [AppLayout.roundDown]
    omega
  rw [whole]
  exact Nat.mul_le_mul_left _
    ((Nat.le_div_iff_mul_le positive).mpr (by rw [Nat.mul_comm]; exact above))

theorem AppLayout.roundDown_le_of_lt
    {bound address : Nat} (aligned : layout.bundleSize ∣ bound)
    (below : address < bound + layout.bundleSize) :
    layout.roundDown address ≤ bound := by
  obtain ⟨bundle, rfl⟩ := aligned
  have whole : layout.roundDown address =
      layout.bundleSize * (address / layout.bundleSize) := by
    have split := Nat.div_add_mod address layout.bundleSize
    rw [AppLayout.roundDown]
    omega
  rw [whole]
  apply Nat.mul_le_mul_left
  apply Nat.le_of_lt_succ
  apply Nat.div_lt_of_lt_mul
  rw [Nat.mul_succ]
  exact below

theorem bundles_inside
    (enabled : layout.textShm = true)
    (keeps : layout.Keeps app.regions) {index : Nat}
    (present : index < app.regions.numDynamicRegions)
    {destAddr size : Nat}
    (above : (app.regions.dynamicRegions index).start ≤ destAddr)
    (below : destAddr + size ≤
      (app.regions.dynamicRegions index).stop) :
    (app.regions.dynamicRegions index).start ≤
        layout.roundDown destAddr ∧
      layout.roundDown (wrapWord layout.wordBits
        (destAddr + size - 1 + layout.bundleSize)) ≤
        (app.regions.dynamicRegions index).stop ∨ size = 0 := by
  rcases Nat.eq_zero_or_pos size with zero | positive
  · exact .inr zero
  · left
    obtain ⟨startAligned, sizeAligned⟩ := keeps.aligned index present
    have contained := (keeps.contained index present).2
    have memory := layout.memory
    obtain ⟨sled, text⟩ := layout.text enabled
    rw [naclHaltSledSize] at sled
    have bundle : layout.bundleSize ≤ 32 := by
      rcases layout.bundle with same | same <;> omega
    rw [AppLayout.highest, naclHaltSledSize] at contained
    rw [wrapWord_of_lt (by omega)]
    exact ⟨AppLayout.le_roundDown startAligned above,
      AppLayout.roundDown_le_of_lt (Nat.dvd_add startAligned sizeAligned)
        (by omega)⟩

end Arguments

section Calls

theorem createRegion_keeps
    (enabled : layout.textShm = true)
    (keeps : layout.Keeps app.regions)
    {destAddr : Nat} {dest size : UInt32} {result : Int}
    (positive : 0 < size.toNat)
    (aligned : layout.bundleSize ∣ destAddr ∧
      layout.bundleSize ∣ size.toNat)
    (contained : layout.lowest ≤ destAddr ∧
      destAddr + size.toNat ≤ layout.highest)
    (ran : createRegion layout world app destAddr dest size =
      some (next, result)) :
    layout.Keeps next.regions := by
  rw [createRegion] at ran
  obtain ⟨⟨regions, created⟩, claimed, rest⟩ := Option.bind_eq_some_iff.mp ran
  have orderly : layout.Keeps regions :=
    Orderly.create keeps (layout.highest_lt enabled) positive aligned contained
      claimed
  dsimp only at rest
  split_ifs at rest
  · cases rest
    exact orderly
  · cases rest
    exact orderly
  · rw [(installCode_maps rest).same.regions]
    exact orderly

theorem naClTextSysDyncodeCreate_keeps
    (keeps : layout.Keeps app.regions)
    {dest src size : UInt32} {result : Int}
    (ran : naClTextSysDyncodeCreate layout world app dest src size =
      some (next, result)) :
    layout.Keeps next.regions := by
  simp only [naClTextSysDyncodeCreate] at ran
  split_ifs at ran with disabled unaligned bad below above empty failed
  · cases ran
    exact keeps
  · cases ran
    exact keeps
  · cases ran
    exact keeps
  · cases ran
    exact keeps
  · cases ran
    exact keeps
  · cases ran
    exact keeps
  · cases ran
    exact keeps
  · have enabled : layout.textShm = true := by
      simpa using disabled
    obtain ⟨sled, text⟩ := layout.text enabled
    push Not at unaligned bad
    obtain ⟨address, fits⟩ := naClUserToSysAddrRange_good bad.1
    have addrBits : 2 ^ layout.addrBits ≤ 2 ^ 32 :=
      Nat.pow_le_pow_right (by omega) layout.address
    have memory := layout.memory
    have sum : (dest + size).toNat = dest.toNat + size.toNat := by
      rw [UInt32.toNat_add, Nat.mod_eq_of_lt (by omega)]
    have limit : wrapWord layout.wordBits
        (layout.dynamicTextEnd + 2 ^ layout.wordBits - naclHaltSledSize) =
        layout.dynamicTextEnd - naclHaltSledSize := by
      rw [Nat.sub_add_comm sled, wrapWord, Nat.add_mod_right,
        Nat.mod_eq_of_lt (by omega)]
    rw [sum, limit] at above
    rw [address] at ran
    apply createRegion_keeps enabled keeps _ _ _ ran
    · exact Nat.pos_of_ne_zero (fun zero => empty (UInt32.toNat_inj.mp zero))
    · exact ⟨Nat.dvd_add layout.memAligned
        (AppLayout.dvd_of_and_bundleMask unaligned.1),
        AppLayout.dvd_of_and_bundleMask unaligned.2⟩
    · rw [AppLayout.lowest, AppLayout.highest]
      omega

theorem setDeleteGeneration_keeps
    {regions : RegionTable} (keeps : layout.Keeps regions) (index : Nat)
    (generation : Int) :
    layout.Keeps (setDeleteGeneration regions index generation) := by
  refine Orderly.congr keeps rfl ?_ ?_
  · intro position inside
    dsimp only [setDeleteGeneration]
    rw [Function.update_apply]
    split_ifs with same
    · rw [same]
      exact ⟨rfl, rfl⟩
    · exact ⟨rfl, rfl⟩
  · exact keeps.allocated

theorem requestDeletion_keeps
    (keeps : layout.Keeps app.regions)
    {index : Nat} {dest size : UInt32} {error : Option Int}
    (ran : requestDeletion layout world app index dest size =
      some (next, error)) :
    layout.Keeps next.regions ∧
      next.regions.numDynamicRegions = app.regions.numDynamicRegions := by
  rw [requestDeletion] at ran
  split_ifs at ran with requested exhausted
  · cases ran
    exact ⟨keeps, rfl⟩
  · cases ran
    exact ⟨keeps, rfl⟩
  · obtain ⟨⟨mapped, address⟩, wrapped, rest⟩ :=
      Option.bind_eq_some_iff.mp ran
    have same := (naclTextMapWrapper_same wrapped).regions
    cases address with
    | none =>
        cases rest
        rw [same]
        exact ⟨keeps, rfl⟩
    | some address =>
        obtain ⟨cleared, clears, final⟩ := Option.bind_eq_some_iff.mp rest
        cases final
        dsimp only
        rw [(naclTextMapClearCacheIfNeeded_same clears).regions, same]
        exact ⟨setDeleteGeneration_keeps keeps _ _, rfl⟩

theorem finishDeletion_keeps
    (keeps : layout.Keeps app.regions)
    {thread index : Nat} (inside : index < app.regions.numDynamicRegions)
    {result : Int}
    (ran : finishDeletion world app thread index = some (next, result)) :
    layout.Keeps next.regions := by
  obtain ⟨passed, minimum, updated, -,
    ⟨-, regions, removed, rfl⟩ | ⟨rfl, -⟩⟩ := finishDeletion_cases ran
  · exact Orderly.delete keeps inside removed
  · rw [naClSetThreadGeneration_regions updated]
    exact keeps

theorem naClTextSysDyncodeDelete_keeps
    (keeps : layout.Keeps app.regions)
    {thread : Nat} {dest size : UInt32} {result : Int}
    (ran : naClTextSysDyncodeDelete layout world app thread dest size =
      some (next, result)) :
    layout.Keeps next.regions := by
  cases naClTextSysDyncodeDelete_cases ran with
  | refused => exact keeps
  | passes empty updated =>
      rw [naClSetThreadGeneration_regions updated]
      exact keeps
  | asked found start asks ends =>
      obtain ⟨kept, count⟩ := requestDeletion_keeps keeps asks
      rcases ends with ⟨-, rfl⟩ | ⟨-, finished⟩
      · exact kept
      · have inside := find_inside keeps.sorted found
        exact finishDeletion_keeps kept (by rw [count]; exact inside) finished

theorem perform_keeps
    (keeps : layout.Keeps app.regions) {thread : Nat} {call : Call}
    {result : Int}
    (ran : perform layout world app thread call = some (next, result)) :
    layout.Keeps next.regions := by
  cases call with
  | create dest src size =>
      exact naClTextSysDyncodeCreate_keeps keeps ran
  | modify dest src size =>
      rw [(naClTextSysDyncodeModify_same ran).regions]
      exact keeps
  | delete dest size =>
      exact naClTextSysDyncodeDelete_keeps keeps ran
  | addThread =>
      cases ran
      exact keeps
  | exitThread =>
      obtain ⟨left, removed, same⟩ := Option.map_eq_some_iff.mp ran
      cases same
      rw [naClRemoveThreadMu_regions removed]
      exact keeps

end Calls

/-- In every state that calls of any threads lead to, the regions are sorted,
nonempty, disjoint, bundle aligned and inside the dynamic text, below its
last sled, and the table has room for them. -/
theorem reachable_orderly
    (layout : AppLayout) {app : NaClApp} (reached : Reachable layout app) :
    Orderly layout.bundleSize layout.lowest layout.highest app.regions := by
  induction reached with
  | initial =>
      constructor
      · intro first second ordered below
        exact absurd below (Nat.not_lt_zero _)
      · intro index below
        exact absurd below (Nat.not_lt_zero _)
      · intro first second ordered below
        exact absurd below (Nat.not_lt_zero _)
      · intro index below
        exact absurd below (Nat.not_lt_zero _)
      · intro index below
        exact absurd below (Nat.not_lt_zero _)
      · exact le_refl 0
  | step world thread call _ ran ih =>
      exact perform_keeps ih ran

def pagesLayout : AppLayout where
  wordBits := 64
  addrBits := 32
  memStart := 0x1000000000
  bundleSize := 32
  instrBlockSize := 32
  dynamicTextStart := 0x20000
  dynamicTextEnd := 0x40000
  textShm := true
  allowDyncodeReplacement := true
  ignoreValidatorResult := false
  word := bits64
  bundle := bundle32
  memAligned := by decide
  address := by decide
  memory := by decide
  text := by decide

def obliging : World where
  mallocSucceeds := true
  reallocSucceeds := true
  validateCode := true
  validateCodeReplacement := true
  copyCode := true
  map := fun _ _ => 0x7000000000
  unmapUnsafe := fun _ _ => 0

private def performAll (layout : AppLayout) (world : World) :
    NaClApp → List Call → Option NaClApp
  | app, [] => some app
  | app, call :: calls =>
      (perform layout world app 0 call).bind fun (next, _) =>
        performAll layout world next calls

private theorem Reachable.performAll
    {layout : AppLayout} {world : World} {calls : List Call}
    {app next : NaClApp} (reached : Reachable layout app)
    (ran : performAll layout world app calls = some next) :
    Reachable layout next := by
  induction calls generalizing app with
  | nil =>
      cases ran
      exact reached
  | cons call calls ih =>
      obtain ⟨⟨between, result⟩, first, rest⟩ :=
        Option.bind_eq_some_iff.mp ran
      exact ih (reached.step world 0 call first) rest

/-- Two regions are created, the second in front of the first, and the first
is deleted. -/
theorem reachable_orderly_pages :
    ∃ app, Reachable pagesLayout app ∧ app.regions.numDynamicRegions = 1 ∧
      Orderly 32 0x1000020000 0x100003ffe0 app.regions := by
  have counts : (performAll pagesLayout obliging NaClApp.initial
      [.addThread, .create 0x30040 0x10000 64, .create 0x30000 0x10000 64,
        .delete 0x30040 64]).map (fun app => app.regions.numDynamicRegions) =
      some 1 := by
    decide
  obtain ⟨app, ran, count⟩ := Option.map_eq_some_iff.mp counts
  have reached := Reachable.initial.performAll ran
  exact ⟨app, reached, count, reachable_orderly pagesLayout reached⟩

end NativeClient.Runtime
