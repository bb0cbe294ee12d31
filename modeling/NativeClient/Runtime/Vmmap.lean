import NativeClient.Library.Compaction
import NativeClient.Library.QSort
import NativeClient.Runtime.DynArray

/-!
# The memory map

The pages that an application has mapped, as an array of entries: each is a
run of pages with one protection, and with the memory object behind it if
there is one.  `none` as the result of a call means that the process has
stopped, by a failed check or because a null pointer was read.
-/

namespace NativeClient.Runtime

open NativeClient.Library

/-- `ndp` is the descriptor; `nbytes` and `offset` are of type
`nacl_off64_t`. -/
structure MemObj where
  ndp : Nat
  nbytes : BitVec 64
  offset : BitVec 64
  deriving DecidableEq

structure VmmapEntry where
  pageNum : Nat
  npages : Nat
  prot : Int
  nmop : Option MemObj
  removed : Bool
  deriving DecidableEq

/-- `vmentry` has the `nvalid` slots that are in use, of `size` ones. -/
structure Vmmap where
  vmentry : List (Option VmmapEntry)
  size : Nat
  isSorted : Bool
  deriving DecidableEq

def nvalid (self : Vmmap) : Nat := self.vmentry.length

def startEntries : Nat := 5

/-- Which allocations of `NaClVmmapAdd` succeed. -/
structure AddAllocations where
  vmentry : Bool
  entry : Bool

/-- Which allocations of `NaClVmmapUpdate` succeed. -/
structure UpdateAllocations where
  split : Bool
  remainder : AddAllocations
  mapping : AddAllocations

def naClMemObjCopyCtorOff (src : MemObj) (additional : BitVec 64) : MemObj :=
  { src with offset := src.offset + additional }

/-- `none` if there is no memory for the object. -/
def naClMemObjSplit (allocated : Bool) (orig : Option MemObj)
    (additional : BitVec 64) : Option (Option MemObj) :=
  match orig with
  | none => some none
  | some orig =>
      if allocated then
        some (some (naClMemObjCopyCtorOff orig additional))
      else
        none

def naClMemObjIncOffset (nmop : Option MemObj) (additional : BitVec 64) :
    Option MemObj :=
  nmop.map (fun nmop => { nmop with offset := nmop.offset + additional })

def naClVmmapEntryMake (allocated : Bool) (pageNum npages : Nat) (prot : Int)
    (nmop : Option MemObj) : Option VmmapEntry :=
  if allocated then some ⟨pageNum, npages, prot, nmop, false⟩ else none

def naClVmmapCtor (allocated : Bool) : Option Vmmap :=
  if allocated then some ⟨[], startEntries, true⟩ else none

/-- The result is whether the entry was added.  Without memory for an entry
the slot that is added is null. -/
def naClVmmapAdd (allocations : AddAllocations) (self : Vmmap)
    (pageNum npages : Nat) (prot : Int) (nmop : Option MemObj) :
    Vmmap × Bool :=
  if nvalid self = self.size ∧ allocations.vmentry = false then
    (self, false)
  else
    let size := if nvalid self = self.size then 2 * self.size else self.size
    let entry := naClVmmapEntryMake allocations.entry pageNum npages prot nmop
    ({ vmentry := self.vmentry ++ [entry], size := size, isSorted := false },
      true)

def naClVmmapRemoveMarked (self : Vmmap) : Option Vmmap :=
  if nvalid self = 0 then
    some self
  else do
    let vmentry ← compact VmmapEntry.removed self.vmentry
    some { self with vmentry := vmentry, isSorted := false }

section Calls

variable (size : WordSize)

/-- The difference of the page numbers, cast to an `int`. -/
def naClVmmapCmpEntries (left right : VmmapEntry) : Int :=
  Int.bmod (size.sub left.pageNum right.pageNum) (2 ^ 32)

variable (qsort : QSort VmmapEntry)

def naClVmmapMakeSorted (self : Vmmap) : Option Vmmap :=
  if self.isSorted then
    some self
  else do
    let self ← naClVmmapRemoveMarked self
    let entries ← self.vmentry.mapM id
    let sorted := qsort.sort (naClVmmapCmpEntries size) entries
    some { self with vmentry := sorted.map some, isSorted := true }

def setEntry (self : Vmmap) (index : Nat) (ent : VmmapEntry) : Vmmap :=
  { self with vmentry := self.vmentry.set index (some ent) }

/-- The loop of `NaClVmmapUpdate`, from the entry `index` on; the count is of
the entries that are left. -/
def updateLoop (allocations : UpdateAllocations) (pageNum npages : Nat) :
    Nat → Nat → Vmmap → Option Vmmap
  | 0, _, self => some self
  | left + 1, index, self => do
      let ent ← deref self.vmentry index
      let newRegionEndPage := size.wrap (pageNum + npages)
      let entEndPage := size.wrap (ent.pageNum + ent.npages)
      let additionalOffset := BitVec.ofNat 64 (size.wrap
        (size.sub newRegionEndPage ent.pageNum * 2 ^ naclPageshift))
      if ent.pageNum < pageNum ∧ newRegionEndPage < entEndPage then
        -- The mapping is in the middle of the entry, which is split.
        let nmop ← naClMemObjSplit allocations.split ent.nmop additionalOffset
        let (self, added) := naClVmmapAdd allocations.remainder self
          newRegionEndPage (size.sub entEndPage newRegionEndPage) ent.prot nmop
        if added then
          some (setEntry self index
            { ent with npages := size.sub pageNum ent.pageNum })
        else
          none
      else if ent.pageNum < pageNum ∧ pageNum < entEndPage then
        -- The mapping overlaps the end of the entry.
        updateLoop allocations pageNum npages left (index + 1)
          (setEntry self index
            { ent with npages := size.sub pageNum ent.pageNum })
      else if ent.pageNum < newRegionEndPage ∧
          newRegionEndPage < entEndPage then
        -- The mapping overlaps the start of the entry.
        some (setEntry self index
          { ent with
            nmop := naClMemObjIncOffset ent.nmop additionalOffset
            pageNum := newRegionEndPage
            npages := size.sub entEndPage newRegionEndPage })
      else if pageNum ≤ ent.pageNum ∧ entEndPage ≤ newRegionEndPage then
        -- The mapping covers the entry.
        updateLoop allocations pageNum npages left (index + 1)
          (setEntry self index { ent with removed := true })
      else if newRegionEndPage ≤ ent.pageNum ∨ entEndPage ≤ pageNum then
        updateLoop allocations pageNum npages left (index + 1) self
      else
        none

def naClVmmapUpdate (allocations : UpdateAllocations) (self : Vmmap)
    (pageNum npages : Nat) (prot : Int) (nmop : Option MemObj)
    (remove : Bool) : Option Vmmap := do
  let self ← naClVmmapMakeSorted size qsort self
  if npages = 0 then
    none
  else
    let self ← updateLoop size allocations pageNum npages (nvalid self) 0 self
    if remove then
      naClVmmapRemoveMarked self
    else
      let (self, added) := naClVmmapAdd allocations.mapping self pageNum npages
        prot nmop
      if added then naClVmmapRemoveMarked self else none

end Calls

end NativeClient.Runtime
