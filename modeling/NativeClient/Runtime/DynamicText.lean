import NativeClient.Runtime.RegionInvariant
import NativeClient.Library.Stores

/-!
# The dynamic text

The bytes that the dynamic code calls write, store by store.  Other threads
run while a call writes, so a call has an outcome and the moments before it.
The writable mapping is an alias of the text: a store there is a store at the
address that `dest` has in the text.
-/

namespace NativeClient.Runtime

open NativeClient.Library

/-- `NACL_HALT_OPCODE`, of which `NACL_HALT_WORD` has four. -/
def naclHaltOpcode : UInt8 := 0xf4

structure TextState where
  app : NaClApp
  text : Buffer

/-- The answers to one call.  `codeCopy` is the private copy of the new code as
the validator leaves it, and `copyMoments` are the contents of the replaced
bundles while `NaClCopyCode` writes them. -/
structure TextWorld extends World where
  codeCopy : Buffer
  copyMoments : List Buffer

structure TextOutcome where
  moments : List TextState
  state : TextState
  result : Int

section Stores

/-- `(int32_t) size`; nothing is before a negative end. -/
def signedSize (size : UInt32) : Nat :=
  if size.toNat < 2 ^ 31 then size.toNat else 0

def codeWord (code : Buffer) (offset : Nat) : List UInt8 :=
  [code offset, code (offset + 1), code (offset + 2), code (offset + 3)]

/-- The code is mapped at `mapped`, for the text at `dest`. -/
def copyBundleTails (mapped dest : Nat) (code : Buffer) (size : UInt32)
    (bundleSize : Nat) : List Store :=
  ((List.range ((signedSize size + 3) / 4)).filter fun word =>
    (mapped + 4 * word) % bundleSize != 0).map fun word =>
      ⟨dest + 4 * word, codeWord code (4 * word)⟩

def writeBundleHeads (dest : Nat) (word : Nat → List UInt8) (size : UInt32)
    (bundleSize : Nat) : List Store :=
  (List.range ((size.toNat + (bundleSize - 1)) / bundleSize)).map fun bundle =>
    ⟨dest + bundleSize * bundle, word (bundleSize * bundle)⟩

def copyBundleHeads (dest : Nat) (code : Buffer) (size : UInt32)
    (bundleSize : Nat) : List Store :=
  writeBundleHeads dest (codeWord code) size bundleSize

def replaceBundleHeadsWithHalts (dest : Nat) (size : UInt32)
    (bundleSize : Nat) : List Store :=
  writeBundleHeads dest (fun _ => List.replicate 4 naclHaltOpcode) size
    bundleSize

def copyCodeSafelyInitial (mapped dest : Nat) (code : Buffer) (size : UInt32)
    (bundleSize : Nat) : List Store :=
  copyBundleTails mapped dest code size bundleSize ++
    copyBundleHeads dest code size bundleSize

def storeMoments (app : NaClApp) (text : Buffer) (stores : List Store) :
    List TextState :=
  stores.inits.map fun done => ⟨app, applyStores done text⟩

end Stores

section Calls

variable (layout : AppLayout) (world : TextWorld)

/-- The rest of `dyncode_create`, once the code is mapped. -/
def copyNewCode (mapped : NaClApp) (text : Buffer) (address destAddr : Nat)
    (dest size : UInt32) : Option TextOutcome :=
  let stores := copyCodeSafelyInitial address destAddr world.codeCopy size
    layout.bundleSize
  if address % 4 = 0 then do
    let cleared ← naclTextMapClearCacheIfNeeded layout world.toWorld mapped
      dest size
    return ⟨storeMoments mapped text stores,
      ⟨cleared, applyStores stores text⟩, 0⟩
  else
    none

def createRegionText (state : TextState) (destAddr : Nat)
    (dest size : UInt32) : Option TextOutcome := do
  let (regions, created) ← naClDynamicRegionCreate layout.wordBits
    world.reallocSucceeds state.app.regions destAddr size.toNat
  let claimed := { state.app with regions := regions }
  if created = false then
    return ⟨[], ⟨claimed, state.text⟩, -einval⟩
  else if passes layout world.validateCode = false then
    return ⟨[], ⟨claimed, state.text⟩, -einval⟩
  else
    let (mapped, address) ← naclTextMapWrapper layout world.toWorld claimed
      dest size
    match address with
    | none => return ⟨[], ⟨mapped, state.text⟩, -enomem⟩
    | some address =>
        copyNewCode layout world mapped state.text address destAddr dest size

def naClTextSysDyncodeCreateText (state : TextState)
    (dest src size : UInt32) : Option TextOutcome :=
  let destAddr := layout.naClUserToSysAddrRange dest.toNat size.toNat
  let srcAddr := layout.naClUserToSysAddrRange src.toNat size.toNat
  if layout.textShm = false then
    some ⟨[], state, -einval⟩
  else if dest &&& layout.bundleMask ≠ 0 ∨ size &&& layout.bundleMask ≠ 0 then
    some ⟨[], state, -einval⟩
  else if destAddr = layout.kNaClBadAddress ∨
      srcAddr = layout.kNaClBadAddress then
    some ⟨[], state, -efault⟩
  else if dest.toNat < layout.dynamicTextStart then
    some ⟨[], state, -efault⟩
  else if wrapWord layout.wordBits
      (layout.dynamicTextEnd + 2 ^ layout.wordBits - naclHaltSledSize) <
      (dest + size).toNat then
    some ⟨[], state, -efault⟩
  else if size = 0 then
    some ⟨[], state, 0⟩
  else if world.mallocSucceeds = false then
    some ⟨[], state, -enomem⟩
  else
    createRegionText layout world state destAddr dest size

/-- The text while the bundles from `beginbundle` on are replaced. -/
def replacedText (text : Buffer) (beginbundle length : Nat)
    (bundles : Buffer) : Buffer :=
  text.splice bundles beginbundle length

/-- The rest of `dyncode_modify`, once the code is mapped. -/
def copyReplacement (mapped : NaClApp) (text : Buffer)
    (beginbundle length : Nat) (dest size : UInt32) : Option TextOutcome :=
  let moments := world.copyMoments.map (replacedText text beginbundle length)
  let after := moments.getLast?.getD text
  let seen := moments.map fun now => (⟨mapped, now⟩ : TextState)
  if world.copyCode then do
    let cleared ← naclTextMapClearCacheIfNeeded layout world.toWorld mapped
      dest size
    return ⟨seen, ⟨cleared, after⟩, 0⟩
  else
    some ⟨seen, ⟨mapped, after⟩, -einval⟩

def modifyBundlesText (state : TextState) (destAddr : Nat)
    (dest size : UInt32) : Option TextOutcome :=
  let beginbundle := layout.roundDown destAddr
  let endbundle := layout.roundDown
    (wrapWord layout.wordBits (destAddr + size.toNat - 1 + layout.bundleSize))
  let length := endbundle - beginbundle
  if layout.instrBlockSize < length ∧ world.mallocSucceeds = false then
    some ⟨[], state, -enomem⟩
  else if 2 ^ 32 - 1 ≤ length then
    none
  else if passes layout world.validateCodeReplacement = false then
    some ⟨[], state, -einval⟩
  else do
    let dest := dest &&& ~~~layout.bundleMask
    let size := UInt32.ofNat length
    let (mapped, address) ← naclTextMapWrapper layout world.toWorld state.app
      dest size
    match address with
    | none => return ⟨[], ⟨mapped, state.text⟩, -enomem⟩
    | some _ =>
        copyReplacement layout world mapped state.text beginbundle length dest
          size

def naClTextSysDyncodeModifyText (state : TextState)
    (dest src size : UInt32) : Option TextOutcome :=
  let destAddr := layout.naClUserToSysAddrRange dest.toNat size.toNat
  let srcAddr := layout.naClUserToSysAddrRange src.toNat size.toNat
  if layout.textShm = false then
    some ⟨[], state, -einval⟩
  else if layout.allowDyncodeReplacement = false then
    some ⟨[], state, -einval⟩
  else if size = 0 then
    some ⟨[], state, 0⟩
  else if srcAddr = layout.kNaClBadAddress ∨
      destAddr = layout.kNaClBadAddress then
    some ⟨[], state, -efault⟩
  else
    match naClDynamicRegionFind layout.wordBits state.app.regions destAddr
        size.toNat with
    | none => some ⟨[], state, -efault⟩
    | some index =>
        if destAddr < (state.app.regions.dynamicRegions index).start ∨
            wrapWord layout.wordBits
                (state.app.regions.dynamicRegions index).stop <
              wrapWord layout.wordBits (destAddr + size.toNat) then
          some ⟨[], state, -efault⟩
        else
          modifyBundlesText layout world state destAddr dest size

def requestDeletionText (state : TextState) (index destAddr : Nat)
    (dest size : UInt32) :
    Option (List TextState × TextState × Option Int) :=
  if 0 ≤ (state.app.regions.dynamicRegions index).deleteGeneration then
    some ([], state, none)
  else if state.app.dynamicDeleteGeneration = 2 ^ 31 - 1 then
    some ([], state, some (-efault))
  else do
    let (mapped, address) ← naclTextMapWrapper layout world.toWorld state.app
      dest size
    match address with
    | none => return ([], ⟨mapped, state.text⟩, some (-enomem))
    | some _ =>
        let stores := replaceBundleHeadsWithHalts destAddr size
          layout.bundleSize
        let cleared ← naclTextMapClearCacheIfNeeded layout world.toWorld mapped
          dest size
        let generation := cleared.dynamicDeleteGeneration + 1
        return (storeMoments mapped state.text stores,
          ⟨{ cleared with
            dynamicDeleteGeneration := generation
            regions := setDeleteGeneration cleared.regions index generation },
          applyStores stores state.text⟩, none)

def quietly (text : Buffer) (ran : Option (NaClApp × Int)) :
    Option TextOutcome :=
  ran.map fun (app, result) => ⟨[], ⟨app, text⟩, result⟩

def naClTextSysDyncodeDeleteText (state : TextState) (thread : Nat)
    (dest size : UInt32) : Option TextOutcome :=
  let destAddr := layout.naClUserToSysAddrRange dest.toNat size.toNat
  if layout.textShm = false then
    some ⟨[], state, -einval⟩
  else if layout.allowDyncodeReplacement = false then
    some ⟨[], state, -einval⟩
  else if destAddr = layout.kNaClBadAddress then
    some ⟨[], state, -efault⟩
  else if size = 0 then
    quietly state.text (do
      let passed ← naClSetThreadGeneration state.app thread
        state.app.dynamicDeleteGeneration
      return (passed, 0))
  else
    match naClDynamicRegionFind layout.wordBits state.app.regions destAddr
        size.toNat with
    | none => some ⟨[], state, -efault⟩
    | some index =>
        if (state.app.regions.dynamicRegions index).start ≠ destAddr ∨
            (state.app.regions.dynamicRegions index).size ≠ size.toNat then
          some ⟨[], state, -efault⟩
        else do
          let (moments, requested, error) ← requestDeletionText layout world
            state index destAddr dest size
          match error with
          | some code => return ⟨moments, requested, code⟩
          | none =>
              let (left, result) ← finishDeletion world.toWorld requested.app
                thread index
              return ⟨moments, ⟨left, requested.text⟩, result⟩

end Calls

def performText (layout : AppLayout) (world : TextWorld) (state : TextState)
    (thread : Nat) : Call → Option TextOutcome
  | .create dest src size =>
      naClTextSysDyncodeCreateText layout world state dest src size
  | .modify dest src size =>
      naClTextSysDyncodeModifyText layout world state dest src size
  | .delete dest size =>
      naClTextSysDyncodeDeleteText layout world state thread dest size
  | .addThread =>
      quietly state.text
        (perform layout world.toWorld state.app thread .addThread)
  | .exitThread =>
      quietly state.text
        (perform layout world.toWorld state.app thread .exitThread)

/-- `NaClMakeDynamicTextShared` fills the text with halts. -/
def HaltFilled (layout : AppLayout) (text : Buffer) : Prop :=
  ∀ address, layout.lowest ≤ address →
    address < layout.memStart + layout.dynamicTextEnd →
    text address = naclHaltOpcode

inductive TextReachable (layout : AppLayout)
    (permitted : NaClApp → Call → Prop) : TextState → Prop where
  | initial {text : Buffer} :
      HaltFilled layout text → TextReachable layout permitted
        ⟨NaClApp.initial, text⟩
  | step {state : TextState} {outcome : TextOutcome} (world : TextWorld)
      (thread : Nat) (call : Call) :
      TextReachable layout permitted state → permitted state.app call →
      performText layout world state thread call = some outcome →
      TextReachable layout permitted outcome.state

def Seen (layout : AppLayout) (permitted : NaClApp → Call → Prop)
    (state : TextState) : Prop :=
  TextReachable layout permitted state ∨
    ∃ before world thread call outcome,
      TextReachable layout permitted before ∧ permitted before.app call ∧
      performText layout world before thread call = some outcome ∧
      state ∈ outcome.moments

/-! ## The calls without the text -/

section Projection

variable {layout : AppLayout} {world : TextWorld} {state : TextState}
  {outcome : TextOutcome} {destAddr : Nat} {dest size : UInt32}

private theorem copyNewCode_app
    {mapped : NaClApp} {text : Buffer} {address : Nat}
    (ran : copyNewCode layout world mapped text address destAddr dest size =
      some outcome) :
    naclTextMapClearCacheIfNeeded layout world.toWorld mapped dest size =
        some outcome.state.app ∧ outcome.result = 0 := by
  simp only [copyNewCode] at ran
  split_ifs at ran
  obtain ⟨cleared, clears, final⟩ := Option.bind_eq_some_iff.mp ran
  cases final
  exact ⟨clears, rfl⟩

private theorem createRegionText_app
    (ran : createRegionText layout world state destAddr dest size =
      some outcome) :
    createRegion layout world.toWorld state.app destAddr dest size =
      some (outcome.state.app, outcome.result) := by
  rw [createRegionText] at ran
  obtain ⟨⟨regions, created⟩, claimed, rest⟩ := Option.bind_eq_some_iff.mp ran
  rw [createRegion, claimed, Option.bind_eq_bind, Option.bind_some]
  dsimp only at rest ⊢
  split_ifs at rest ⊢
  · cases rest
    rfl
  · cases rest
    rfl
  · obtain ⟨⟨mapped, address⟩, wrapped, copied⟩ :=
      Option.bind_eq_some_iff.mp rest
    rw [installCode, wrapped]
    cases address with
    | none =>
        cases copied
        rfl
    | some address =>
        obtain ⟨clears, result⟩ := copyNewCode_app copied
        rw [Option.bind_eq_bind, Option.bind_some]
        dsimp only at clears ⊢
        rw [if_pos rfl, clears, result]
        rfl

private theorem create_app
    {src : UInt32}
    (ran : naClTextSysDyncodeCreateText layout world state dest src size =
      some outcome) :
    naClTextSysDyncodeCreate layout world.toWorld state.app dest src size =
      some (outcome.state.app, outcome.result) := by
  simp only [naClTextSysDyncodeCreateText] at ran
  simp only [naClTextSysDyncodeCreate]
  split_ifs at ran ⊢
  all_goals first
    | exact createRegionText_app ran
    | cases ran
      rfl

private theorem modifyBundlesText_app
    (ran : modifyBundlesText layout world state destAddr dest size =
      some outcome) :
    modifyBundles layout world.toWorld state.app destAddr dest size =
      some (outcome.state.app, outcome.result) := by
  simp only [modifyBundlesText] at ran
  simp only [modifyBundles]
  split_ifs at ran ⊢
  · cases ran
    rfl
  · cases ran
    rfl
  · obtain ⟨⟨mapped, address⟩, wrapped, copied⟩ :=
      Option.bind_eq_some_iff.mp ran
    rw [installCode, wrapped]
    cases address with
    | none =>
        cases copied
        rfl
    | some address =>
        simp only [copyReplacement] at copied
        split_ifs at copied with succeeded
        · obtain ⟨cleared, clears, final⟩ :=
            Option.bind_eq_some_iff.mp copied
          cases final
          rw [Option.bind_eq_bind, Option.bind_some]
          dsimp only
          rw [if_pos succeeded, clears]
          rfl
        · cases copied
          rw [Option.bind_eq_bind, Option.bind_some]
          exact if_neg succeeded

private theorem modify_app
    {src : UInt32}
    (ran : naClTextSysDyncodeModifyText layout world state dest src size =
      some outcome) :
    naClTextSysDyncodeModify layout world.toWorld state.app dest src size =
      some (outcome.state.app, outcome.result) := by
  simp only [naClTextSysDyncodeModifyText] at ran
  simp only [naClTextSysDyncodeModify]
  split_ifs at ran ⊢
  · cases ran
    rfl
  · cases ran
    rfl
  · cases ran
    rfl
  · cases ran
    rfl
  · cases found : naClDynamicRegionFind layout.wordBits state.app.regions
        (layout.naClUserToSysAddrRange dest.toNat size.toNat) size.toNat with
    | none =>
        rw [found] at ran
        cases ran
        rfl
    | some index =>
        rw [found] at ran
        dsimp only at ran ⊢
        split_ifs at ran ⊢
        · cases ran
          rfl
        · exact modifyBundlesText_app ran

private theorem requestDeletionText_app
    {index : Nat} {moments : List TextState}
    {requested : TextState} {error : Option Int}
    (ran : requestDeletionText layout world state index destAddr dest size =
      some (moments, requested, error)) :
    requestDeletion layout world.toWorld state.app index dest size =
      some (requested.app, error) := by
  rw [requestDeletionText] at ran
  rw [requestDeletion]
  split_ifs at ran ⊢
  · cases ran
    rfl
  · cases ran
    rfl
  · obtain ⟨⟨mapped, address⟩, wrapped, rest⟩ :=
      Option.bind_eq_some_iff.mp ran
    rw [wrapped]
    cases address with
    | none =>
        cases rest
        rfl
    | some address =>
        obtain ⟨cleared, clears, final⟩ := Option.bind_eq_some_iff.mp rest
        cases final
        rw [Option.bind_eq_bind, Option.bind_some]
        dsimp only
        rw [clears]
        rfl

private theorem delete_app
    {thread : Nat}
    (ran : naClTextSysDyncodeDeleteText layout world state thread dest size =
      some outcome) :
    naClTextSysDyncodeDelete layout world.toWorld state.app thread dest size =
      some (outcome.state.app, outcome.result) := by
  simp only [naClTextSysDyncodeDeleteText] at ran
  simp only [naClTextSysDyncodeDelete]
  split_ifs at ran ⊢
  · cases ran
    rfl
  · cases ran
    rfl
  · cases ran
    rfl
  · obtain ⟨⟨passed, result⟩, updated, final⟩ :=
      Option.map_eq_some_iff.mp ran
    cases final
    exact updated
  · cases found : naClDynamicRegionFind layout.wordBits state.app.regions
        (layout.naClUserToSysAddrRange dest.toNat size.toNat) size.toNat with
    | none =>
        rw [found] at ran
        cases ran
        rfl
    | some index =>
        rw [found] at ran
        dsimp only at ran ⊢
        split_ifs at ran ⊢
        · cases ran
          rfl
        · obtain ⟨⟨moments, requested, error⟩, asked, rest⟩ :=
            Option.bind_eq_some_iff.mp ran
          rw [requestDeletionText_app asked]
          cases error with
          | some code =>
              cases rest
              rfl
          | none =>
              obtain ⟨⟨left, result⟩, finished, final⟩ :=
                Option.bind_eq_some_iff.mp rest
              cases final
              exact finished

theorem performText_perform
    {thread : Nat} {call : Call}
    (ran : performText layout world state thread call = some outcome) :
    perform layout world.toWorld state.app thread call =
      some (outcome.state.app, outcome.result) := by
  cases call with
  | create dest src size => exact create_app ran
  | modify dest src size => exact modify_app ran
  | delete dest size => exact delete_app ran
  | addThread =>
      cases ran
      rfl
  | exitThread =>
      obtain ⟨⟨app, result⟩, removed, final⟩ := Option.map_eq_some_iff.mp ran
      cases final
      exact removed

theorem TextReachable.reachable
    {permitted : NaClApp → Call → Prop}
    (reached : TextReachable layout permitted state) :
    Reachable layout state.app := by
  induction reached with
  | initial _ => exact .initial
  | step world thread call _ _ ran ih =>
      exact ih.step world.toWorld thread call (performText_perform ran)

end Projection

end NativeClient.Runtime
