import NativeClient.Runtime.RegionInvariant

/-!
# The writable mapping

The dynamic code calls write through a second mapping of the text, of which
the last one is kept.  Here the mappings are counted that have been made and
not been unmapped, and a process that ends has a reason.
-/

namespace NativeClient.Runtime

/-- The bytes from `address` on are those of the text from `offset` on. -/
structure Mapping where
  address : Nat
  offset : UInt32
  size : UInt32
deriving DecidableEq

/-- The fields `dynamic_mapcache_*` and the mappings that are there. -/
structure MapCache where
  offset : UInt32
  size : UInt32
  ret : Nat
  live : List Mapping

inductive Abort where
  | unmapFailed
  | checkFailed

def NaClApp.mapCache (app : NaClApp) (live : List Mapping) : MapCache :=
  ⟨app.dynamicMapcacheOffset, app.dynamicMapcacheSize, app.dynamicMapcacheRet,
    live⟩

def NaClApp.withMapCache (app : NaClApp) (cache : MapCache) : NaClApp :=
  { app with
    dynamicMapcacheOffset := cache.offset
    dynamicMapcacheSize := cache.size
    dynamicMapcacheRet := cache.ret }

section Mapping

variable (layout : AppLayout) (world : World)

def MapCache.Held (cache : MapCache) : Prop :=
  0 < cache.size ∧ naClPtrIsNegErrno layout cache.ret = false

instance (cache : MapCache) : Decidable (cache.Held layout) :=
  inferInstanceAs (Decidable (_ ∧ _))

/-- The mappings after `UnmapUnsafe`, if the cached mapping has one. -/
def MapCache.unmapped (cache : MapCache) : List Mapping :=
  if cache.Held layout then
    cache.live.filter fun mapping => mapping.address ≠ cache.ret
  else
    cache.live

def mapText (offset size : UInt32) (live : List Mapping) : MapCache :=
  let ret := world.map offset size
  ⟨offset, size, ret,
    if naClPtrIsNegErrno layout ret then live else ⟨ret, offset, size⟩ :: live⟩

/-- `CachedMapWritableText`. -/
def cachedMapLive (cache : MapCache) (offset size : UInt32) :
    Except Abort MapCache :=
  if offset ≠ cache.offset ∨ size ≠ cache.size then
    if cache.Held layout ∧ world.unmapUnsafe cache.ret cache.size ≠ 0 then
      .error .unmapFailed
    else if 0 < size then
      if 0 < offset then
        .ok (mapText layout world offset size (cache.unmapped layout))
      else
        .error .checkFailed
    else if offset = 0 then
      .ok ⟨offset, size, 0, cache.unmapped layout⟩
    else
      .error .checkFailed
  else
    .ok cache

/-- `NaclTextMapWrapper`. -/
def textMapLive (cache : MapCache) (dest size : UInt32) :
    Except Abort (MapCache × Option Nat) :=
  match cachedMapLive layout world cache (shmMapOffset layout dest)
      (shmMapSize layout dest size) with
  | .error reason => .error reason
  | .ok mapped =>
      .ok (mapped,
        if naClPtrIsNegErrno layout mapped.ret then none
        else some (mapped.ret +
          (shmOffset layout dest &&& (mapPagesize - 1)).toNat))

/-- `NaclTextMapClearCacheIfNeeded`. -/
def clearLive (cache : MapCache) (dest size : UInt32) : Except Abort MapCache :=
  if mapPagesize < shmMapSize layout dest size then
    cachedMapLive layout world cache 0 0
  else
    .ok cache

end Mapping

section Requests

variable (layout : AppLayout) (world : World) (app : NaClApp)

/-- The text for which `createRegion` asks for a mapping. -/
def createRegionRequest (destAddr : Nat) (dest size : UInt32) :
    Option (UInt32 × UInt32) :=
  match naClDynamicRegionCreate layout.wordBits world.reallocSucceeds
      app.regions destAddr size.toNat with
  | some (_, true) =>
      if passes layout world.validateCode = false then none
      else some (dest, size)
  | _ => none

/-- The bundles for which `modifyBundles` asks for a mapping. -/
def modifyBundlesRequest (destAddr : Nat) (dest size : UInt32) :
    Option (UInt32 × UInt32) :=
  let beginbundle := layout.roundDown destAddr
  let endbundle := layout.roundDown
    (wrapWord layout.wordBits (destAddr + size.toNat - 1 + layout.bundleSize))
  let length := endbundle - beginbundle
  if layout.instrBlockSize < length ∧ world.mallocSucceeds = false then none
  else if 2 ^ 32 - 1 ≤ length then none
  else if passes layout world.validateCodeReplacement = false then none
  else some (dest &&& ~~~layout.bundleMask, UInt32.ofNat length)

/-- The region for which `requestDeletion` asks for a mapping. -/
def requestDeletionRequest (index : Nat) (dest size : UInt32) :
    Option (UInt32 × UInt32) :=
  if 0 ≤ (app.regions.dynamicRegions index).deleteGeneration then none
  else if app.dynamicDeleteGeneration = 2 ^ 31 - 1 then none
  else some (dest, size)

/-- The text for which `dyncode_create` asks for a mapping. -/
def createRequest (dest src size : UInt32) : Option (UInt32 × UInt32) :=
  let destAddr := layout.naClUserToSysAddrRange dest.toNat size.toNat
  let srcAddr := layout.naClUserToSysAddrRange src.toNat size.toNat
  if layout.textShm = false then none
  else if dest &&& layout.bundleMask ≠ 0 ∨ size &&& layout.bundleMask ≠ 0 then
    none
  else if destAddr = layout.kNaClBadAddress ∨
      srcAddr = layout.kNaClBadAddress then
    none
  else if dest.toNat < layout.dynamicTextStart then none
  else if wrapWord layout.wordBits
      (layout.dynamicTextEnd + 2 ^ layout.wordBits - naclHaltSledSize) <
      (dest + size).toNat then
    none
  else if size = 0 then none
  else if world.mallocSucceeds = false then none
  else createRegionRequest layout world app destAddr dest size

/-- The bundles for which `dyncode_modify` asks for a mapping. -/
def modifyRequest (dest src size : UInt32) : Option (UInt32 × UInt32) :=
  let destAddr := layout.naClUserToSysAddrRange dest.toNat size.toNat
  let srcAddr := layout.naClUserToSysAddrRange src.toNat size.toNat
  if layout.textShm = false then none
  else if layout.allowDyncodeReplacement = false then none
  else if size = 0 then none
  else if srcAddr = layout.kNaClBadAddress ∨
      destAddr = layout.kNaClBadAddress then
    none
  else
    match naClDynamicRegionFind layout.wordBits app.regions destAddr
        size.toNat with
    | none => none
    | some index =>
        if destAddr < (app.regions.dynamicRegions index).start ∨
            wrapWord layout.wordBits (app.regions.dynamicRegions index).stop <
              wrapWord layout.wordBits (destAddr + size.toNat) then
          none
        else
          modifyBundlesRequest layout world destAddr dest size

/-- The region for which `dyncode_delete` asks for a mapping. -/
def deleteRequest (dest size : UInt32) : Option (UInt32 × UInt32) :=
  let destAddr := layout.naClUserToSysAddrRange dest.toNat size.toNat
  if layout.textShm = false then none
  else if layout.allowDyncodeReplacement = false then none
  else if destAddr = layout.kNaClBadAddress then none
  else if size = 0 then none
  else
    match naClDynamicRegionFind layout.wordBits app.regions destAddr
        size.toNat with
    | none => none
    | some index =>
        if (app.regions.dynamicRegions index).start ≠ destAddr ∨
            (app.regions.dynamicRegions index).size ≠ size.toNat then
          none
        else
          requestDeletionRequest app index dest size

def mapRequest : Call → Option (UInt32 × UInt32)
  | .create dest src size => createRequest layout world app dest src size
  | .modify dest src size => modifyRequest layout world app dest src size
  | .delete dest size => deleteRequest layout app dest size
  | .addThread => none
  | .exitThread => none

end Requests

inductive MapsText (layout : AppLayout) (world : World) (cache : MapCache)
    (dest size : UInt32) : MapCache → Prop where
  | kept {mapped : MapCache} {address : Option Nat}
      (maps : textMapLive layout world cache dest size = .ok (mapped, address)) :
      MapsText layout world cache dest size mapped
  | cleared {mapped next : MapCache} {address : Nat}
      (maps : textMapLive layout world cache dest size =
        .ok (mapped, some address))
      (clears : clearLive layout world mapped dest size = .ok next) :
      MapsText layout world cache dest size next

inductive LiveReachable (layout : AppLayout) : NaClApp → List Mapping → Prop
  where
  | initial : LiveReachable layout NaClApp.initial []
  | quiet {app next : NaClApp} {live : List Mapping} {result : Int}
      (world : World) (thread : Nat) (call : Call)
      (reachable : LiveReachable layout app live)
      (ran : perform layout world app thread call = some (next, result))
      (request : mapRequest layout world app call = none) :
      LiveReachable layout next live
  | maps {app next : NaClApp} {live later : List Mapping} {result : Int}
      {dest size : UInt32} (world : World) (thread : Nat) (call : Call)
      (reachable : LiveReachable layout app live)
      (ran : perform layout world app thread call = some (next, result))
      (request : mapRequest layout world app call = some (dest, size))
      (cached : MapsText layout world (app.mapCache live) dest size
        (next.mapCache later)) :
      LiveReachable layout next later

/-- The bytes from `address` on are those of the text from `dest` on. -/
def Aliases (layout : AppLayout) (live : List Mapping) (address : Nat)
    (dest size : UInt32) : Prop :=
  ∃ mapping ∈ live, mapping.address ≤ address ∧
    mapping.offset.toNat + (address - mapping.address) =
      dest.toNat - layout.dynamicTextStart ∧
    address - mapping.address + size.toNat ≤ mapping.size.toNat

/-- However the host answers, no `CHECK` fails, and what is mapped are the
bytes asked for. -/
def MapsProperly (layout : AppLayout) (world : World) (cache : MapCache)
    (dest size : UInt32) : Prop :=
  ∀ map unmapUnsafe,
    match textMapLive layout
        { world with map := map, unmapUnsafe := unmapUnsafe } cache dest size with
    | .error .unmapFailed => True
    | .error .checkFailed => False
    | .ok (_, none) => True
    | .ok (mapped, some address) => Aliases layout mapped.live address dest size

section Cache

variable {layout : AppLayout} {world : World}

inductive CacheSound (layout : AppLayout) : MapCache → Prop where
  | empty : CacheSound layout ⟨0, 0, 0, []⟩
  | failed {offset size : UInt32} {ret : Nat}
      (begins : 0 < offset) (some : 0 < size)
      (error : naClPtrIsNegErrno layout ret = true) :
      CacheSound layout ⟨offset, size, ret, []⟩
  | mapped {offset size : UInt32} {ret : Nat}
      (begins : 0 < offset) (some : 0 < size)
      (good : naClPtrIsNegErrno layout ret = false) :
      CacheSound layout ⟨offset, size, ret, [⟨ret, offset, size⟩]⟩

theorem CacheSound.unmapped_eq
    {cache : MapCache} (sound : CacheSound layout cache) :
    cache.unmapped layout = [] := by
  unfold MapCache.unmapped
  cases sound with
  | empty => simp
  | failed => simp
  | mapped begins some good => rw [if_pos ⟨some, good⟩]; simp

theorem CacheSound.mapText
    {offset size : UInt32} (begins : 0 < offset) (some : 0 < size) :
    CacheSound layout (mapText layout world offset size []) := by
  unfold NativeClient.Runtime.mapText
  dsimp only
  cases good : naClPtrIsNegErrno layout (world.map offset size) with
  | false => exact .mapped begins some good
  | true => exact .failed begins some good

theorem CacheSound.cachedMapLive
    {cache next : MapCache} {offset size : UInt32}
    (sound : CacheSound layout cache)
    (ran : cachedMapLive layout world cache offset size = .ok next) :
    CacheSound layout next ∧ next.offset = offset ∧ next.size = size := by
  unfold NativeClient.Runtime.cachedMapLive at ran
  rw [sound.unmapped_eq] at ran
  split_ifs at ran with miss unmap some begins zero
  · cases ran
    exact ⟨.mapText begins some, rfl, rfl⟩
  · cases ran
    have none : size = 0 := by
      rw [UInt32.lt_iff_toNat_lt] at some
      exact UInt32.toNat_inj.mp (Nat.eq_zero_of_not_pos some)
    subst none zero
    exact ⟨.empty, rfl, rfl⟩
  · cases ran
    push Not at miss
    exact ⟨sound, miss.1.symm, miss.2.symm⟩

theorem CacheSound.textMapLive
    {cache next : MapCache} {dest size : UInt32} {address : Option Nat}
    (sound : CacheSound layout cache)
    (ran : textMapLive layout world cache dest size = .ok (next, address)) :
    CacheSound layout next := by
  unfold NativeClient.Runtime.textMapLive at ran
  split at ran
  next => cases ran
  next mapped cached =>
    cases ran
    exact (sound.cachedMapLive cached).1

theorem CacheSound.mapsText
    {cache next : MapCache} {dest size : UInt32}
    (sound : CacheSound layout cache)
    (maps : MapsText layout world cache dest size next) :
    CacheSound layout next := by
  cases maps with
  | kept maps => exact sound.textMapLive maps
  | cleared maps clears =>
      have before := sound.textMapLive maps
      unfold clearLive at clears
      split at clears
      · exact (before.cachedMapLive clears).1
      · cases clears
        exact before

theorem cachedMapWritableText_live
    (app : NaClApp) (live : List Mapping) (offset size : UInt32) :
    cachedMapWritableText layout world app offset size =
      (cachedMapLive layout world (app.mapCache live) offset size).toOption.map
        app.withMapCache := by
  unfold cachedMapWritableText cachedMapLive
  by_cases miss :
      offset ≠ app.dynamicMapcacheOffset ∨ size ≠ app.dynamicMapcacheSize
  · have missToo : offset ≠ (app.mapCache live).offset ∨
        size ≠ (app.mapCache live).size := miss
    rw [if_pos miss, if_pos missToo]
    by_cases fails : 0 < app.dynamicMapcacheSize ∧
        naClPtrIsNegErrno layout app.dynamicMapcacheRet = false ∧
        world.unmapUnsafe app.dynamicMapcacheRet app.dynamicMapcacheSize ≠ 0
    · have failsToo : (app.mapCache live).Held layout ∧
          world.unmapUnsafe (app.mapCache live).ret (app.mapCache live).size ≠
            0 := ⟨⟨fails.1, fails.2.1⟩, fails.2.2⟩
      rw [if_pos fails, if_pos failsToo]
      rfl
    · have worksToo : ¬ ((app.mapCache live).Held layout ∧
          world.unmapUnsafe (app.mapCache live).ret (app.mapCache live).size ≠
            0) := fun both => fails ⟨both.1.1, both.1.2, both.2⟩
      rw [if_neg fails, if_neg worksToo]
      split_ifs <;> rfl
  · have hit : ¬ (offset ≠ (app.mapCache live).offset ∨
        size ≠ (app.mapCache live).size) := miss
    rw [if_neg miss, if_neg hit]
    rfl

theorem naclTextMapWrapper_live
    (app : NaClApp) (live : List Mapping) (dest size : UInt32) :
    naclTextMapWrapper layout world app dest size =
      (textMapLive layout world (app.mapCache live) dest size).toOption.map
        fun mapped => (app.withMapCache mapped.1, mapped.2) := by
  unfold naclTextMapWrapper textMapLive
  rw [cachedMapWritableText_live app live]
  cases cachedMapLive layout world (app.mapCache live) (shmMapOffset layout dest)
      (shmMapSize layout dest size) with
  | error reason => rfl
  | ok mapped =>
      cases good : naClPtrIsNegErrno layout mapped.ret with
      | true => simp [Except.toOption, NaClApp.withMapCache, good]
      | false => simp [Except.toOption, NaClApp.withMapCache, good]

theorem naclTextMapClearCacheIfNeeded_live
    (app : NaClApp) (live : List Mapping) (dest size : UInt32) :
    naclTextMapClearCacheIfNeeded layout world app dest size =
      (clearLive layout world (app.mapCache live) dest size).toOption.map
        app.withMapCache := by
  unfold naclTextMapClearCacheIfNeeded clearLive
  split
  · exact cachedMapWritableText_live app live 0 0
  · rfl

end Cache

section Calls

variable {layout : AppLayout} {world : World} {app next : NaClApp}
  {live : List Mapping} {dest size : UInt32} {result : Int}

private theorem ok_of_toOption
    {α : Type} {result : Except Abort α} {value : α}
    (returned : result.toOption = some value) : result = .ok value := by
  cases result with
  | error reason => cases returned
  | ok result =>
      cases returned
      rfl

theorem MapsCode.mapsText
    {live : List Mapping} {dest size : UInt32}
    (maps : MapsCode layout world app dest size next) :
    ∃ later, MapsText layout world (app.mapCache live) dest size
      (next.mapCache later) := by
  cases maps with
  | kept wraps =>
      rw [naclTextMapWrapper_live app live] at wraps
      obtain ⟨⟨cache, given⟩, answer, same⟩ := Option.map_eq_some_iff.mp wraps
      cases same
      exact ⟨cache.live, .kept (ok_of_toOption answer)⟩
  | cleared wraps clears =>
      rw [naclTextMapWrapper_live app live] at wraps
      obtain ⟨⟨cache, given⟩, answer, same⟩ := Option.map_eq_some_iff.mp wraps
      cases same
      rw [naclTextMapClearCacheIfNeeded_live _ cache.live] at clears
      obtain ⟨final, ended, same⟩ := Option.map_eq_some_iff.mp clears
      cases same
      exact ⟨final.live, .cleared (ok_of_toOption answer)
        (ok_of_toOption ended)⟩

def FollowsRequest (layout : AppLayout) (world : World) (app : NaClApp)
    (live : List Mapping) (next : NaClApp) :
    Option (UInt32 × UInt32) → Prop
  | none => next.mapCache live = app.mapCache live
  | some (dest, size) => ∃ later,
      MapsText layout world (app.mapCache live) dest size (next.mapCache later)

theorem createRegion_follows
    {destAddr : Nat}
    (ran : createRegion layout world app destAddr dest size =
      some (next, result)) :
    FollowsRequest layout world app live next
      (createRegionRequest layout world app destAddr dest size) := by
  unfold createRegion at ran
  unfold createRegionRequest
  obtain ⟨⟨regions, created⟩, claimed, rest⟩ := Option.bind_eq_some_iff.mp ran
  rw [claimed]
  cases created with
  | false =>
      cases rest
      rfl
  | true =>
      dsimp only at rest ⊢
      rw [if_neg (Bool.noConfusion : true ≠ false)] at rest
      split_ifs at rest ⊢
      · cases rest
        rfl
      · have installed := @MapsCode.mapsText _ _ _ _ live _ _
          (installCode_maps rest)
        exact installed

theorem create_follows
    {src : UInt32}
    (ran : naClTextSysDyncodeCreate layout world app dest src size =
      some (next, result)) :
    FollowsRequest layout world app live next
      (createRequest layout world app dest src size) := by
  unfold naClTextSysDyncodeCreate at ran
  unfold createRequest
  dsimp only at ran ⊢
  split_ifs at ran ⊢
  · cases ran
    rfl
  · cases ran
    rfl
  · cases ran
    rfl
  · cases ran
    rfl
  · cases ran
    rfl
  · cases ran
    rfl
  · cases ran
    rfl
  · exact createRegion_follows ran

theorem modifyBundles_follows
    {destAddr : Nat}
    (ran : modifyBundles layout world app destAddr dest size =
      some (next, result)) :
    FollowsRequest layout world app live next
      (modifyBundlesRequest layout world destAddr dest size) := by
  unfold modifyBundles at ran
  unfold modifyBundlesRequest
  dsimp only at ran ⊢
  split_ifs at ran ⊢
  · cases ran
    rfl
  · cases ran
    rfl
  · exact (installCode_maps ran).mapsText

theorem modify_follows
    {src : UInt32}
    (ran : naClTextSysDyncodeModify layout world app dest src size =
      some (next, result)) :
    FollowsRequest layout world app live next
      (modifyRequest layout world app dest src size) := by
  unfold naClTextSysDyncodeModify at ran
  unfold modifyRequest
  dsimp only at ran ⊢
  split_ifs at ran ⊢
  · cases ran
    rfl
  · cases ran
    rfl
  · cases ran
    rfl
  · cases ran
    rfl
  · cases found : naClDynamicRegionFind layout.wordBits app.regions
        (layout.naClUserToSysAddrRange dest.toNat size.toNat) size.toNat with
    | none =>
        rw [found] at ran
        cases ran
        rfl
    | some index =>
        rw [found] at ran
        dsimp only at ran ⊢
        split_ifs at ran ⊢
        · cases ran
          rfl
        · exact modifyBundles_follows ran

theorem naClSetThreadGeneration_mapCache
    {live : List Mapping} {thread : Nat} {generation : Int}
    (ran : naClSetThreadGeneration app thread generation = some next) :
    next.mapCache live = app.mapCache live := by
  rw [naClSetThreadGeneration_same ran]
  rfl

theorem finishDeletion_mapCache
    {thread index : Nat}
    (ran : finishDeletion world app thread index = some (next, result)) :
    next.mapCache live = app.mapCache live := by
  obtain ⟨passed, minimum, updated, -,
    ⟨-, regions, -, rfl⟩ | ⟨rfl, -⟩⟩ := finishDeletion_cases ran
  · have same := @naClSetThreadGeneration_mapCache _ _ live _ _ updated
    exact same
  · exact naClSetThreadGeneration_mapCache updated

theorem requestDeletion_follows
    {live : List Mapping} {index : Nat} {dest size : UInt32}
    {error : Option Int}
    (ran : requestDeletion layout world app index dest size =
      some (next, error)) :
    FollowsRequest layout world app live next
      (requestDeletionRequest app index dest size) := by
  unfold requestDeletion at ran
  unfold requestDeletionRequest
  split_ifs at ran ⊢
  · cases ran
    rfl
  · cases ran
    rfl
  · obtain ⟨⟨mapped, address⟩, wrapped, rest⟩ :=
      Option.bind_eq_some_iff.mp ran
    cases address with
    | none =>
        cases rest
        exact (MapsCode.kept wrapped).mapsText
    | some address =>
        obtain ⟨cleared, clears, final⟩ := Option.bind_eq_some_iff.mp rest
        cases final
        have maps := @MapsCode.mapsText _ _ _ _ live _ _
          (.cleared wrapped clears)
        exact maps

theorem FollowsRequest.congr
    {other : NaClApp} {request : Option (UInt32 × UInt32)}
    (follows : FollowsRequest layout world app live next request)
    (same : ∀ live, other.mapCache live = next.mapCache live) :
    FollowsRequest layout world app live other request := by
  cases request with
  | none => exact (same live).trans follows
  | some request =>
      obtain ⟨later, maps⟩ := follows
      refine ⟨later, ?_⟩
      rw [same]
      exact maps

theorem delete_follows
    {thread : Nat}
    (ran : naClTextSysDyncodeDelete layout world app thread dest size =
      some (next, result)) :
    FollowsRequest layout world app live next
      (deleteRequest layout app dest size) := by
  unfold naClTextSysDyncodeDelete at ran
  unfold deleteRequest
  dsimp only at ran ⊢
  split_ifs at ran ⊢
  · cases ran
    rfl
  · cases ran
    rfl
  · cases ran
    rfl
  · obtain ⟨passed, updated, final⟩ := Option.bind_eq_some_iff.mp ran
    cases final
    exact naClSetThreadGeneration_mapCache updated
  · cases found : naClDynamicRegionFind layout.wordBits app.regions
        (layout.naClUserToSysAddrRange dest.toNat size.toNat) size.toNat with
    | none =>
        rw [found] at ran
        cases ran
        rfl
    | some index =>
        rw [found] at ran
        dsimp only at ran ⊢
        split_ifs at ran ⊢
        · cases ran
          rfl
        · obtain ⟨⟨requested, error⟩, asked, rest⟩ :=
            Option.bind_eq_some_iff.mp ran
          have follows := @requestDeletion_follows _ _ _ _ live _ _ _ _ asked
          cases error with
          | some code =>
              cases rest
              exact follows
          | none => exact follows.congr fun _ => finishDeletion_mapCache rest

theorem perform_follows
    (live : List Mapping) {thread : Nat} {call : Call}
    (ran : perform layout world app thread call = some (next, result)) :
    FollowsRequest layout world app live next
      (mapRequest layout world app call) := by
  cases call with
  | create dest src size => exact create_follows ran
  | modify dest src size => exact modify_follows ran
  | delete dest size => exact delete_follows ran
  | addThread =>
      cases ran
      rfl
  | exitThread =>
      obtain ⟨left, removed, same⟩ := Option.map_eq_some_iff.mp ran
      cases same
      rw [naClRemoveThreadMu_same removed]
      rfl

theorem reachable_iff_live :
    Reachable layout app ↔ ∃ live, LiveReachable layout app live := by
  constructor
  · intro reached
    induction reached with
    | initial => exact ⟨[], .initial⟩
    | step world thread call _ ran ih =>
        obtain ⟨live, before⟩ := ih
        have follows := perform_follows live ran
        cases request : mapRequest layout world _ call with
        | none => exact ⟨live, before.quiet world thread call ran request⟩
        | some asked =>
            rw [request] at follows
            obtain ⟨later, maps⟩ := follows
            exact ⟨later, before.maps world thread call ran request maps⟩
  · rintro ⟨live, reached⟩
    induction reached with
    | initial => exact .initial
    | quiet world thread call _ ran _ ih => exact ih.step world thread call ran
    | maps world thread call _ ran _ _ ih => exact ih.step world thread call ran

theorem LiveReachable.sound
    (reached : LiveReachable layout app live) :
    CacheSound layout (app.mapCache live) := by
  induction reached with
  | initial => exact .empty
  | @quiet app next live result world thread call _ ran request ih =>
      have follows := perform_follows live ran
      rw [request] at follows
      rw [show next.mapCache live = app.mapCache live from follows]
      exact ih
  | maps world thread call _ _ _ cached ih => exact ih.mapsText cached

end Calls

section Pages

theorem toNat_and_not_mask
    (value : UInt32) (shift : Nat) {mask : UInt32}
    (masked : mask.toNat = 2 ^ shift - 1) :
    (value &&& ~~~mask).toNat = value.toNat - value.toNat % 2 ^ shift :=
  Library.toNat_and_not_low value.toBitVec masked

structure RangeFits (layout : AppLayout) (dest size : UInt32) : Prop where
  start : layout.dynamicTextStart ≤ dest.toNat
  some : 0 < size.toNat
  fits : dest.toNat + size.toNat < 2 ^ 32

variable {layout : AppLayout} {dest size : UInt32}

theorem RangeFits.shmOffset_toNat (range : RangeFits layout dest size) :
    (shmOffset layout dest).toNat = dest.toNat - layout.dynamicTextStart := by
  have small := dest.toNat_lt
  have start := range.start
  have value : (UInt32.ofNat layout.dynamicTextStart).toNat =
      layout.dynamicTextStart := UInt32.toNat_ofNat_of_lt' (by
        change layout.dynamicTextStart < 2 ^ 32
        omega)
  rw [shmOffset, UInt32.toNat_sub_of_le, value]
  rw [UInt32.le_iff_toNat_le, value]
  exact start

theorem shmMapOffset_toNat :
    (shmMapOffset layout dest).toNat =
      (shmOffset layout dest).toNat - (shmOffset layout dest).toNat % 2 ^ 16 :=
  toNat_and_not_mask _ 16 rfl

theorem RangeFits.covered
    (range : RangeFits layout dest size)
    (later : 2 ^ 16 ≤ dest.toNat - layout.dynamicTextStart) :
    (shmOffset layout dest).toNat % 2 ^ 16 + size.toNat ≤
      (shmMapSize layout dest size).toNat := by
  have offset := range.shmOffset_toNat
  have fits := range.fits
  have page : mapPagesize.toNat = 2 ^ 16 := rfl
  have one : (1 : UInt32).toNat = 1 := rfl
  have sum : (shmOffset layout dest + size + mapPagesize - 1).toNat =
      ((shmOffset layout dest).toNat + size.toNat + 2 ^ 16 - 1) % 2 ^ 32 := by
    rw [UInt32.toNat_sub, UInt32.toNat_add, UInt32.toNat_add, page, one]
    omega
  have rounded : ((shmOffset layout dest + size + mapPagesize - 1) &&&
      ~~~(mapPagesize - 1)).toNat = _ := toNat_and_not_mask _ 16 rfl
  rw [shmMapSize, UInt32.toNat_sub, rounded, sum, shmMapOffset_toNat]
  omega

end Pages

section Proper

variable {layout : AppLayout} {world : World} {cache : MapCache}
variable {dest size : UInt32}

theorem cachedMapLive_checks
    {offset length : UInt32} (begins : 0 < offset) (some : 0 < length) :
    cachedMapLive layout world cache offset length ≠ .error .checkFailed := by
  unfold cachedMapLive
  intro failed
  split_ifs at failed
  cases failed

theorem textMapLive_aliases
    (sound : CacheSound layout cache) (range : RangeFits layout dest size)
    (later : 2 ^ 16 ≤ dest.toNat - layout.dynamicTextStart)
    {mapped : MapCache} {address : Nat}
    (ran : textMapLive layout world cache dest size =
      .ok (mapped, some address)) :
    Aliases layout mapped.live address dest size := by
  have covered := range.covered later
  have offset := range.shmOffset_toNat
  have some := range.some
  unfold textMapLive at ran
  split at ran
  next => cases ran
  next next cached =>
    obtain ⟨nextSound, sameOffset, sameSize⟩ := sound.cachedMapLive cached
    split_ifs at ran with error
    · cases ran
    · cases ran
      cases nextSound with
      | empty =>
          rw [← sameSize] at covered
          change _ ≤ 0 at covered
          omega
      | failed begins more failed => exact absurd failed error
      | mapped begins more good =>
          dsimp only at sameOffset sameSize
          refine ⟨_, List.mem_singleton_self _, Nat.le_add_right _ _, ?_, ?_⟩
          · dsimp only
            rw [Nat.add_sub_cancel_left, sameOffset, shmMapOffset_toNat,
              toNat_and_mask _ 16 rfl, ← offset]
            exact Nat.sub_add_cancel (Nat.mod_le _ _)
          · dsimp only
            rw [Nat.add_sub_cancel_left, sameSize, toNat_and_mask _ 16 rfl]
            exact covered

theorem textMapLive_firstPage
    (sound : CacheSound layout cache) (range : RangeFits layout dest size)
    (first : dest.toNat - layout.dynamicTextStart < 2 ^ 16)
    (unmaps : ∀ address length, world.unmapUnsafe address length = 0) :
    textMapLive layout world cache dest size = .error .checkFailed ∨
      ∃ mapped address, textMapLive layout world cache dest size =
        .ok (mapped, some address) ∧ mapped.live = [] := by
  have zero : shmMapOffset layout dest = 0 := by
    rw [← UInt32.toNat_inj, shmMapOffset_toNat, range.shmOffset_toNat]
    change _ = 0
    omega
  have good : naClPtrIsNegErrno layout 0 = false := by
    unfold naClPtrIsNegErrno
    have large : 2 ^ (32 - 16) ≤ 2 ^ (layout.wordBits - 16) :=
      Nat.pow_le_pow_right (by omega) (by
        rcases layout.word with narrow | wide <;> omega)
    simp only [Nat.zero_div, decide_eq_false_iff_not]
    omega
  have works : ¬ (cache.Held layout ∧
      world.unmapUnsafe cache.ret cache.size ≠ 0) :=
    fun fails => fails.2 (unmaps _ _)
  unfold textMapLive cachedMapLive
  rw [zero]
  by_cases some : 0 < shmMapSize layout dest size
  · have miss : 0 ≠ cache.offset ∨ shmMapSize layout dest size ≠ cache.size := by
      cases sound with
      | empty => exact .inr (UInt32.ne_of_lt some).symm
      | failed begins => exact .inl (UInt32.ne_of_lt begins)
      | mapped begins => exact .inl (UInt32.ne_of_lt begins)
    rw [if_pos miss, if_neg works, if_pos some, if_neg (UInt32.lt_irrefl 0)]
    exact .inl rfl
  · right
    have none : shmMapSize layout dest size = 0 := by
      rw [UInt32.lt_iff_toNat_lt] at some
      exact UInt32.toNat_inj.mp (Nat.eq_zero_of_not_pos some)
    rw [none]
    by_cases miss : 0 ≠ cache.offset ∨ 0 ≠ cache.size
    · rw [if_pos miss, if_neg works, if_neg (UInt32.lt_irrefl 0), if_pos rfl]
      dsimp only
      rw [if_neg (Bool.eq_false_iff.mp good)]
      exact ⟨_, _, rfl, sound.unmapped_eq⟩
    · rw [if_neg miss]
      push Not at miss
      cases sound with
      | empty =>
          dsimp only
          rw [if_neg (Bool.eq_false_iff.mp good)]
          exact ⟨_, _, rfl, rfl⟩
      | failed begins => exact absurd miss.1 (UInt32.ne_of_lt begins)
      | mapped begins => exact absurd miss.1 (UInt32.ne_of_lt begins)

theorem mapsProperly_iff
    (sound : CacheSound layout cache) (range : RangeFits layout dest size) :
    MapsProperly layout world cache dest size ↔
      2 ^ 16 ≤ dest.toNat - layout.dynamicTextStart := by
  constructor
  · intro proper
    by_contra first
    have here := proper (fun _ _ => 0) (fun _ _ => 0)
    have failing := @textMapLive_firstPage layout
      { world with map := fun _ _ => 0, unmapUnsafe := fun _ _ => 0 } cache dest
      size sound range (Nat.not_le.mp first) fun _ _ => rfl
    rcases failing with fails | ⟨mapped, address, maps, nothing⟩
    · rw [fails] at here
      exact here
    · rw [maps] at here
      obtain ⟨mapping, member, -⟩ := here
      rw [nothing] at member
      cases member
  · intro later map unmapUnsafe
    have covered := range.covered later
    have some := range.some
    have begins : 0 < shmMapOffset layout dest := by
      rw [UInt32.lt_iff_toNat_lt, shmMapOffset_toNat, range.shmOffset_toNat]
      change 0 < _
      omega
    have pages : 0 < shmMapSize layout dest size := by
      rw [UInt32.lt_iff_toNat_lt]
      change 0 < _
      omega
    split
    next => trivial
    next failed =>
      unfold textMapLive at failed
      split at failed
      next reason cached =>
        cases failed
        exact cachedMapLive_checks begins pages cached
      next => cases failed
    next => trivial
    next mapped address maps =>
      exact textMapLive_aliases sound range later maps

end Proper

section Ranges

variable {layout : AppLayout} {world : World} {app : NaClApp}

theorem createRequest_range
    {dest src size asked length : UInt32}
    (request : createRequest layout world app dest src size =
      some (asked, length)) :
    RangeFits layout asked length := by
  unfold createRequest at request
  dsimp only at request
  split_ifs at request with disabled unaligned bad below above empty failed
  push Not at bad
  obtain ⟨address, fits⟩ := naClUserToSysAddrRange_good bad.1
  have addrBits : 2 ^ layout.addrBits ≤ 2 ^ 32 :=
    Nat.pow_le_pow_right (by omega) layout.address
  unfold createRegionRequest at request
  split at request
  next =>
    split_ifs at request
    cases request
    refine ⟨Nat.not_lt.mp below, ?_, by omega⟩
    exact Nat.pos_of_ne_zero fun zero => empty (UInt32.toNat_inj.mp zero)
  next => cases request

theorem deleteRequest_range
    (keeps : layout.Keeps app.regions)
    {dest size asked length : UInt32}
    (request : deleteRequest layout app dest size = some (asked, length)) :
    RangeFits layout asked length := by
  unfold deleteRequest at request
  dsimp only at request
  split_ifs at request with disabled forbidden bad empty
  obtain ⟨address, fits⟩ := naClUserToSysAddrRange_good bad
  have addrBits : 2 ^ layout.addrBits ≤ 2 ^ 32 :=
    Nat.pow_le_pow_right (by omega) layout.address
  cases found : naClDynamicRegionFind layout.wordBits app.regions
      (layout.naClUserToSysAddrRange dest.toNat size.toNat) size.toNat with
  | none =>
      rw [found] at request
      cases request
  | some index =>
      have present := find_inside keeps.sorted found
      have contained := (keeps.contained index present).1
      rw [found] at request
      dsimp only at request
      split_ifs at request with different
      push Not at different
      unfold requestDeletionRequest at request
      split_ifs at request
      cases request
      rw [different.1, address, AppLayout.lowest] at contained
      refine ⟨by omega, ?_, by omega⟩
      exact Nat.pos_of_ne_zero fun zero => empty (UInt32.toNat_inj.mp zero)

theorem AppLayout.dvd_roundDown (layout : AppLayout) (address : Nat) :
    layout.bundleSize ∣ layout.roundDown address :=
  Nat.dvd_sub_mod address

theorem AppLayout.roundDown_memStart (layout : AppLayout) (offset : Nat) :
    layout.roundDown (layout.memStart + offset) =
      layout.memStart + (offset - offset % layout.bundleSize) := by
  obtain ⟨bundles, aligned⟩ := layout.memAligned
  rw [AppLayout.roundDown, aligned, Nat.mul_add_mod,
    Nat.add_sub_assoc (Nat.mod_le _ _)]

theorem AppLayout.toNat_and_not_bundleMask (value : UInt32) :
    (value &&& ~~~layout.bundleMask).toNat =
      value.toNat - value.toNat % layout.bundleSize := by
  rw [AppLayout.bundleMask]
  rcases layout.bundle with small | large
  · rw [small]
    exact toNat_and_not_mask value 4 rfl
  · rw [large]
    exact toNat_and_not_mask value 5 rfl

theorem modifyRequest_range
    (keeps : layout.Keeps app.regions)
    {dest src size asked length : UInt32}
    (request : modifyRequest layout world app dest src size =
      some (asked, length)) :
    RangeFits layout asked length := by
  unfold modifyRequest at request
  dsimp only at request
  split_ifs at request with disabled forbidden empty bad
  have enabled : layout.textShm = true := by
    simpa using disabled
  push Not at bad
  obtain ⟨address, fits⟩ := naClUserToSysAddrRange_good bad.2
  have memory := layout.memory
  have highest := layout.highest_lt enabled
  have addrBits : 2 ^ layout.addrBits ≤ 2 ^ 32 :=
    Nat.pow_le_pow_right (by omega) layout.address
  obtain ⟨sled, text⟩ := layout.text enabled
  cases found : naClDynamicRegionFind layout.wordBits app.regions
      (layout.naClUserToSysAddrRange dest.toNat size.toNat) size.toNat with
  | none =>
      rw [found] at request
      cases request
  | some index =>
      have present := find_inside keeps.sorted found
      have contained := keeps.contained index present
      rw [found] at request
      dsimp only at request
      split_ifs at request with outside
      push Not at outside
      obtain ⟨above, below⟩ := outside
      rw [wrapWord_of_lt (by omega), wrapWord_of_lt (by omega)] at below
      have inside := (bundles_inside enabled keeps present above
        below).resolve_right (fun zero => empty (UInt32.toNat_inj.mp zero))
      unfold modifyBundlesRequest at request
      dsimp only at request
      split_ifs at request with noMemory large refused
      cases request
      have bundle : layout.bundleSize ≤ 32 ∧ 0 < layout.bundleSize := by
        rcases layout.bundle with same | same <;> omega
      have limit := contained.2
      rw [AppLayout.highest, naclHaltSledSize] at limit
      rw [naclHaltSledSize] at sled
      rw [address] at below inside large ⊢
      have unwrapped : layout.memStart + dest.toNat + size.toNat - 1 +
          layout.bundleSize < 2 ^ layout.wordBits := by
        omega
      rw [wrapWord_of_lt unwrapped] at inside large ⊢
      have begins : layout.roundDown (layout.memStart + dest.toNat) =
          layout.memStart + (dest.toNat - dest.toNat % layout.bundleSize) :=
        layout.roundDown_memStart dest.toNat
      have ends : layout.roundDown (layout.memStart + dest.toNat) +
          layout.bundleSize ≤ layout.roundDown
            (layout.memStart + dest.toNat + size.toNat - 1 +
              layout.bundleSize) := by
        have positive : size.toNat ≠ 0 := fun zero =>
          empty (UInt32.toNat_inj.mp zero)
        have below := layout.roundDown_le (layout.memStart + dest.toNat)
        exact AppLayout.le_roundDown
          (Nat.dvd_add (layout.dvd_roundDown _) (Nat.dvd_refl _)) (by omega)
      have start := contained.1
      rw [AppLayout.lowest] at start
      have length := UInt32.toNat_ofNat_of_lt' (Nat.lt_of_lt_of_le
        (Nat.not_le.mp large) (by decide : 2 ^ 32 - 1 ≤ UInt32.size))
      refine ⟨?_, ?_, ?_⟩
      · rw [AppLayout.toNat_and_not_bundleMask]
        omega
      · rw [length]
        omega
      · rw [length, AppLayout.toNat_and_not_bundleMask]
        omega

end Ranges

/-- In every reachable state, the mapping that a call asks for is made without
a failing `CHECK`, and is one of the bytes asked for, if they do not begin in
the first page of the dynamic text; and only then. -/
theorem writableMapping_iff
    {layout : AppLayout} {app : NaClApp} {live : List Mapping}
    (reached : LiveReachable layout app live) {world : World} {call : Call}
    {dest size : UInt32}
    (request : mapRequest layout world app call = some (dest, size)) :
    MapsProperly layout world (app.mapCache live) dest size ↔
      2 ^ 16 ≤ dest.toNat - layout.dynamicTextStart := by
  have keeps := reachable_orderly layout (reachable_iff_live.mpr ⟨live, reached⟩)
  refine mapsProperly_iff reached.sound ?_
  cases call with
  | create => exact createRequest_range request
  | modify => exact modifyRequest_range keeps request
  | delete => exact deleteRequest_range keeps request
  | addThread => cases request
  | exitThread => cases request

theorem writableMapping_iff_secondPage :
    MapsProperly pagesLayout obliging (NaClApp.initial.mapCache []) 0x30040 64 :=
  (writableMapping_iff .initial (by decide : mapRequest pagesLayout obliging
    NaClApp.initial (.create 0x30040 0x10000 64) = some (0x30040, 64))).mpr
      (by decide)

/-- New code at the beginning of the dynamic text ends the process. -/
theorem firstPage_aborts :
    perform pagesLayout obliging NaClApp.initial 0 (.create 0x20000 0x10000 64) =
        none ∧
      mapRequest pagesLayout obliging NaClApp.initial
        (.create 0x20000 0x10000 64) = some (0x20000, 64) ∧
      ¬ MapsProperly pagesLayout obliging (NaClApp.initial.mapCache []) 0x20000
        64 := by
  refine ⟨by decide, by decide, ?_⟩
  rw [mapsProperly_iff LiveReachable.initial.sound
    ⟨by decide, by decide, by decide⟩]
  decide

end NativeClient.Runtime
