import NativeClient.Runtime.DynamicRegions
import Mathlib.Data.List.Basic

/-!
# The dynamic code calls

`dyncode_create`, `dyncode_modify` and `dyncode_delete` as steps on the
fields of `NaClApp` that `dynamic_load_mutex` protects: the table of regions,
the delete generation and the cached writable mapping.  What lies outside
these (allocators, mappings, the verdicts of the validator) answers through a
`World`, afresh in each call.  `none` stands for a process that a failed
`CHECK` or `LOG_FATAL` ended.
-/

namespace NativeClient.Runtime

/-- The fields of `NaClApp` that are fixed once the program runs. -/
structure AppLayout extends AddressSpace where
  bundleSize : Nat
  instrBlockSize : Nat
  dynamicTextStart : Nat
  dynamicTextEnd : Nat
  textShm : Bool
  allowDyncodeReplacement : Bool
  ignoreValidatorResult : Bool
  word : wordBits = 32 ∨ wordBits = 64
  bundle : bundleSize = 16 ∨ bundleSize = 32
  memAligned : bundleSize ∣ memStart
  address : addrBits ≤ 32
  memory : memStart + 2 ^ addrBits ≤ 2 ^ wordBits
  text : textShm = true →
    naclHaltSledSize ≤ dynamicTextEnd ∧ dynamicTextEnd < 2 ^ addrBits

namespace AppLayout

def lowest (layout : AppLayout) : Nat :=
  layout.memStart + layout.dynamicTextStart

def highest (layout : AppLayout) : Nat :=
  layout.memStart + (layout.dynamicTextEnd - naclHaltSledSize)

def bundleMask (layout : AppLayout) : UInt32 :=
  UInt32.ofNat layout.bundleSize - 1

def roundDown (layout : AppLayout) (address : Nat) : Nat :=
  address - address % layout.bundleSize

end AppLayout

structure NaClApp where
  regions : RegionTable
  dynamicDeleteGeneration : Int
  dynamicMapcacheOffset : UInt32
  dynamicMapcacheSize : UInt32
  dynamicMapcacheRet : Nat
  /-- The slots of `nap->threads`, with `dynamic_delete_generation` for each
  thread that is there. -/
  threads : List (Option Int)
  numThreads : Nat

/-- `NaClAppCtor`. -/
def NaClApp.initial : NaClApp where
  regions := ⟨fun _ => ⟨0, 0, 0⟩, 0, 0⟩
  dynamicDeleteGeneration := 0
  dynamicMapcacheOffset := 0
  dynamicMapcacheSize := 0
  dynamicMapcacheRet := 0
  threads := []
  numThreads := 0

structure World where
  mallocSucceeds : Bool
  reallocSucceeds : Bool
  validateCode : Bool
  validateCodeReplacement : Bool
  copyCode : Bool
  map : UInt32 → UInt32 → Nat
  unmapUnsafe : Nat → UInt32 → Int

section Threads

/-- `CHECK`s that a thread's generation never decreases. -/
def naClSetThreadGeneration (app : NaClApp) (thread : Nat)
    (generation : Int) : Option NaClApp :=
  match (app.threads[thread]?).join with
  | none => none
  | some previous =>
      if previous ≠ generation then
        if previous ≤ generation then
          some { app with threads := app.threads.set thread (some generation) }
        else
          none
      else
        some app

/-- The loop from slot `index` on, with `left` turns to go; an empty slot is
dereferenced. -/
def minimumGenerationFrom (threads : List (Option Int)) :
    Nat → Nat → Int → Option Int
  | 0, _, minimum => some minimum
  | left + 1, index, minimum =>
      match (threads[index]?).join with
      | none => none
      | some generation =>
          minimumGenerationFrom threads left (index + 1)
            (if index = 0 ∨ generation < minimum then generation else minimum)

def naClMinimumThreadGeneration (app : NaClApp) : Option Int :=
  minimumGenerationFrom app.threads app.numThreads 0 0

def threadsFirstAvail (threads : List (Option Int)) : Nat :=
  threads.findIdx Option.isNone

def naClAddThreadMu (app : NaClApp) : NaClApp :=
  let position := threadsFirstAvail app.threads
  { app with
    threads :=
      if position < app.threads.length then
        app.threads.set position (some 0)
      else
        app.threads ++ [some 0]
    numThreads := app.numThreads + 1 }

def naClRemoveThreadMu (app : NaClApp) (thread : Nat) : Option NaClApp :=
  if (app.threads[thread]?).join = none then
    none
  else if app.numThreads = 0 then
    none
  else
    some { app with
      threads := app.threads.set thread none
      numThreads := app.numThreads - 1 }

end Threads

section Mapping

def mapPagesize : UInt32 := UInt32.ofNat naclMapPagesize

def naClPtrIsNegErrno (layout : AppLayout) (value : Nat) : Bool :=
  value / 2 ^ 16 = 2 ^ (layout.wordBits - 16) - 1

/-- The mapping returned is left in `dynamic_mapcache_ret`. -/
def cachedMapWritableText (layout : AppLayout) (world : World)
    (app : NaClApp) (offset size : UInt32) : Option NaClApp :=
  if offset ≠ app.dynamicMapcacheOffset ∨ size ≠ app.dynamicMapcacheSize then
    if 0 < app.dynamicMapcacheSize ∧
        naClPtrIsNegErrno layout app.dynamicMapcacheRet = false ∧
        world.unmapUnsafe app.dynamicMapcacheRet app.dynamicMapcacheSize ≠ 0
    then
      none
    else if 0 < size then
      if 0 < offset then
        some { app with
          dynamicMapcacheOffset := offset
          dynamicMapcacheSize := size
          dynamicMapcacheRet := world.map offset size }
      else
        none
    else if offset = 0 then
      some { app with
        dynamicMapcacheOffset := offset
        dynamicMapcacheSize := size
        dynamicMapcacheRet := 0 }
    else
      none
  else
    some app

def shmOffset (layout : AppLayout) (dest : UInt32) : UInt32 :=
  dest - UInt32.ofNat layout.dynamicTextStart

def shmMapOffset (layout : AppLayout) (dest : UInt32) : UInt32 :=
  shmOffset layout dest &&& ~~~(mapPagesize - 1)

def shmMapSize (layout : AppLayout) (dest size : UInt32) : UInt32 :=
  ((shmOffset layout dest + size + mapPagesize - 1) &&&
    ~~~(mapPagesize - 1)) - shmMapOffset layout dest

/-- The mapped address of `dest`, when there is a mapping. -/
def naclTextMapWrapper (layout : AppLayout) (world : World) (app : NaClApp)
    (dest size : UInt32) : Option (NaClApp × Option Nat) := do
  let mapped ← cachedMapWritableText layout world app
    (shmMapOffset layout dest) (shmMapSize layout dest size)
  if naClPtrIsNegErrno layout mapped.dynamicMapcacheRet then
    return (mapped, none)
  else
    return (mapped, some (mapped.dynamicMapcacheRet +
      (shmOffset layout dest &&& (mapPagesize - 1)).toNat))

def naclTextMapClearCacheIfNeeded (layout : AppLayout) (world : World)
    (app : NaClApp) (dest size : UInt32) : Option NaClApp :=
  if mapPagesize < shmMapSize layout dest size then
    cachedMapWritableText layout world app 0 0
  else
    some app

end Mapping

section Calls

variable (layout : AppLayout) (world : World)

def passes (verdict : Bool) : Bool :=
  verdict || layout.ignoreValidatorResult

def installCode (app : NaClApp) (dest size : UInt32) (copied : Bool) :
    Option (NaClApp × Int) := do
  let (mapped, address) ← naclTextMapWrapper layout world app dest size
  match address with
  | none => return (mapped, -enomem)
  | some _ =>
      if copied then
        let cleared ← naclTextMapClearCacheIfNeeded layout world mapped dest
          size
        return (cleared, 0)
      else
        return (mapped, -einval)

/-- Under `dynamic_load_mutex`: claim the region, validate, install. -/
def createRegion (app : NaClApp) (destAddr : Nat) (dest size : UInt32) :
    Option (NaClApp × Int) := do
  let (regions, created) ← naClDynamicRegionCreate layout.wordBits
    world.reallocSucceeds app.regions destAddr size.toNat
  if created = false then
    return ({ app with regions := regions }, -einval)
  else if passes layout world.validateCode = false then
    return ({ app with regions := regions }, -einval)
  else
    installCode layout world { app with regions := regions } dest size true

def naClTextSysDyncodeCreate (app : NaClApp) (dest src size : UInt32) :
    Option (NaClApp × Int) :=
  let destAddr := layout.naClUserToSysAddrRange dest.toNat size.toNat
  let srcAddr := layout.naClUserToSysAddrRange src.toNat size.toNat
  if layout.textShm = false then
    some (app, -einval)
  else if dest &&& layout.bundleMask ≠ 0 ∨ size &&& layout.bundleMask ≠ 0 then
    some (app, -einval)
  else if destAddr = layout.kNaClBadAddress ∨
      srcAddr = layout.kNaClBadAddress then
    some (app, -efault)
  else if dest.toNat < layout.dynamicTextStart then
    some (app, -efault)
  else if wrapWord layout.wordBits
      (layout.dynamicTextEnd + 2 ^ layout.wordBits - naclHaltSledSize) <
      (dest + size).toNat then
    some (app, -efault)
  else if size = 0 then
    some (app, 0)
  else if world.mallocSucceeds = false then
    some (app, -enomem)
  else
    createRegion layout world app destAddr dest size

def modifyBundles (app : NaClApp) (destAddr : Nat) (dest size : UInt32) :
    Option (NaClApp × Int) :=
  let beginbundle := layout.roundDown destAddr
  let endbundle := layout.roundDown
    (wrapWord layout.wordBits (destAddr + size.toNat - 1 + layout.bundleSize))
  let length := endbundle - beginbundle
  if layout.instrBlockSize < length ∧ world.mallocSucceeds = false then
    some (app, -enomem)
  else if 2 ^ 32 - 1 ≤ length then
    none
  else if passes layout world.validateCodeReplacement = false then
    some (app, -einval)
  else
    installCode layout world app (dest &&& ~~~layout.bundleMask)
      (UInt32.ofNat length) world.copyCode

def naClTextSysDyncodeModify (app : NaClApp) (dest src size : UInt32) :
    Option (NaClApp × Int) :=
  let destAddr := layout.naClUserToSysAddrRange dest.toNat size.toNat
  let srcAddr := layout.naClUserToSysAddrRange src.toNat size.toNat
  if layout.textShm = false then
    some (app, -einval)
  else if layout.allowDyncodeReplacement = false then
    some (app, -einval)
  else if size = 0 then
    some (app, 0)
  else if srcAddr = layout.kNaClBadAddress ∨
      destAddr = layout.kNaClBadAddress then
    some (app, -efault)
  else
    match naClDynamicRegionFind layout.wordBits app.regions destAddr
        size.toNat with
    | none => some (app, -efault)
    | some index =>
        if destAddr < (app.regions.dynamicRegions index).start ∨
            wrapWord layout.wordBits (app.regions.dynamicRegions index).stop <
              wrapWord layout.wordBits (destAddr + size.toNat) then
          some (app, -efault)
        else
          modifyBundles layout world app destAddr dest size

def setDeleteGeneration (regions : RegionTable) (index : Nat)
    (generation : Int) : RegionTable :=
  { regions with
    dynamicRegions := Function.update regions.dynamicRegions index
      { regions.dynamicRegions index with deleteGeneration := generation } }

/-- The first request for a region: overwrite its bundle heads and record the
generation.  The second component is the error to return, if any. -/
def requestDeletion (app : NaClApp) (index : Nat) (dest size : UInt32) :
    Option (NaClApp × Option Int) :=
  if 0 ≤ (app.regions.dynamicRegions index).deleteGeneration then
    some (app, none)
  else if app.dynamicDeleteGeneration = 2 ^ 31 - 1 then
    some (app, some (-efault))
  else do
    let (mapped, address) ← naclTextMapWrapper layout world app dest size
    match address with
    | none => return (mapped, some (-enomem))
    | some _ =>
        let cleared ← naclTextMapClearCacheIfNeeded layout world mapped dest
          size
        let generation := cleared.dynamicDeleteGeneration + 1
        return ({ cleared with
          dynamicDeleteGeneration := generation
          regions := setDeleteGeneration cleared.regions index generation },
          none)

def finishDeletion (app : NaClApp) (thread index : Nat) :
    Option (NaClApp × Int) := do
  let passed ← naClSetThreadGeneration app thread app.dynamicDeleteGeneration
  let minimum ← naClMinimumThreadGeneration passed
  if (passed.regions.dynamicRegions index).deleteGeneration ≤ minimum then
    let regions ← naClDynamicRegionDelete world.reallocSucceeds passed.regions
      index
    return ({ passed with regions := regions }, 0)
  else
    return (passed, -eagain)

def naClTextSysDyncodeDelete (app : NaClApp) (thread : Nat)
    (dest size : UInt32) : Option (NaClApp × Int) :=
  let destAddr := layout.naClUserToSysAddrRange dest.toNat size.toNat
  if layout.textShm = false then
    some (app, -einval)
  else if layout.allowDyncodeReplacement = false then
    some (app, -einval)
  else if destAddr = layout.kNaClBadAddress then
    some (app, -efault)
  else if size = 0 then do
    let passed ← naClSetThreadGeneration app thread
      app.dynamicDeleteGeneration
    return (passed, 0)
  else
    match naClDynamicRegionFind layout.wordBits app.regions destAddr
        size.toNat with
    | none => some (app, -efault)
    | some index =>
        if (app.regions.dynamicRegions index).start ≠ destAddr ∨
            (app.regions.dynamicRegions index).size ≠ size.toNat then
          some (app, -efault)
        else do
          let (requested, error) ← requestDeletion layout world app index dest
            size
          match error with
          | some code => return (requested, code)
          | none => finishDeletion world requested thread index

end Calls

inductive Call where
  | create (dest src size : UInt32)
  | modify (dest src size : UInt32)
  | delete (dest size : UInt32)
  | addThread
  | exitThread

/-- One call of `thread`, which holds the mutex while it runs. -/
def perform (layout : AppLayout) (world : World) (app : NaClApp)
    (thread : Nat) : Call → Option (NaClApp × Int)
  | .create dest src size =>
      naClTextSysDyncodeCreate layout world app dest src size
  | .modify dest src size =>
      naClTextSysDyncodeModify layout world app dest src size
  | .delete dest size =>
      naClTextSysDyncodeDelete layout world app thread dest size
  | .addThread => some (naClAddThreadMu app, 0)
  | .exitThread => (naClRemoveThreadMu app thread).map fun left => (left, 0)

/-- The states after any sequence of calls, by any threads in any order. -/
inductive Reachable (layout : AppLayout) : NaClApp → Prop where
  | initial : Reachable layout NaClApp.initial
  | step {app next : NaClApp} {result : Int} (world : World) (thread : Nat)
      (call : Call) :
      Reachable layout app →
      perform layout world app thread call = some (next, result) →
      Reachable layout next

end NativeClient.Runtime
