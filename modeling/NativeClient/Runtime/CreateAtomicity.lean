import NativeClient.Runtime.DynamicText

/-!
# Failed creations

`dyncode_create` claims the range of the new code in the table of regions
before it validates and maps the code, and does not give it back when one of
these fails.
-/

namespace NativeClient.Runtime

open NativeClient.Library

section Statements

variable (layout : AppLayout) (world : TextWorld)

structure LoadsRange (dest src size : UInt32) : Prop where
  enabled : layout.textShm = true
  aligned : dest &&& layout.bundleMask = 0 ∧ size &&& layout.bundleMask = 0
  good : layout.naClUserToSysAddrRange dest.toNat size.toNat ≠
      layout.kNaClBadAddress ∧
    layout.naClUserToSysAddrRange src.toNat size.toNat ≠
      layout.kNaClBadAddress
  above : layout.dynamicTextStart ≤ dest.toNat
  below : (dest + size).toNat ≤ wrapWord layout.wordBits
    (layout.dynamicTextEnd + 2 ^ layout.wordBits - naclHaltSledSize)
  nonempty : size ≠ 0

structure ClaimsRange (app : NaClApp) (dest src size : UInt32) : Prop where
  loads : LoadsRange layout dest src size
  copies : world.mallocSucceeds = true
  grows : app.regions.dynamicRegionsAllocated = app.regions.numDynamicRegions →
    world.reallocSucceeds = true
  free : naClDynamicRegionFind layout.wordBits app.regions
    (layout.naClUserToSysAddrRange dest.toNat size.toNat) size.toNat = none

def RefusesCode (app : NaClApp) (dest size : UInt32) : Prop :=
  passes layout world.validateCode = false ∨
    ∃ mapped, naclTextMapWrapper layout world.toWorld app dest size =
      some (mapped, none)

def SameRegions (regions other : RegionTable) : Prop :=
  other.numDynamicRegions = regions.numDynamicRegions ∧
    ∀ index < regions.numDynamicRegions,
      other.dynamicRegions index = regions.dynamicRegions index

def AtomicCreate (state : TextState) (dest src size : UInt32) : Prop :=
  ∀ outcome,
    naClTextSysDyncodeCreateText layout world state dest src size =
      some outcome →
    outcome.result ≠ 0 →
    SameRegions state.app.regions outcome.state.app.regions ∧
      outcome.state.text = state.text

end Statements

section Calls

variable {layout : AppLayout} {world : TextWorld} {state : TextState}
  {dest src size : UInt32}

private theorem create_rejects
    (state : TextState) (rejected : ¬ (LoadsRange layout dest src size ∧
      world.mallocSucceeds = true)) :
    ∃ result, naClTextSysDyncodeCreateText layout world state dest src size =
      some ⟨[], state, result⟩ := by
  simp only [naClTextSysDyncodeCreateText]
  split_ifs with disabled unaligned bad below above empty failed
  case neg =>
    push Not at unaligned bad
    refine absurd ⟨⟨?_, unaligned, bad, not_lt.mp below, not_lt.mp above,
      empty⟩, ?_⟩ rejected
    · exact eq_true_of_ne_false disabled
    · exact eq_true_of_ne_false failed
  all_goals exact ⟨_, rfl⟩

private theorem create_claims
    (loads : LoadsRange layout dest src size)
    (copies : world.mallocSucceeds = true) :
    naClTextSysDyncodeCreateText layout world state dest src size =
      createRegionText layout world state
        (layout.naClUserToSysAddrRange dest.toNat size.toNat) dest size := by
  simp only [naClTextSysDyncodeCreateText]
  rw [if_neg (by rw [loads.enabled]; decide),
    if_neg (not_or.mpr ⟨not_not.mpr loads.aligned.1,
      not_not.mpr loads.aligned.2⟩),
    if_neg (not_or.mpr loads.good), if_neg (not_lt.mpr loads.above),
    if_neg (not_lt.mpr loads.below), if_neg loads.nonempty,
    if_neg (by rw [copies]; decide)]

private theorem naClDynamicRegionFind_grow
    (wordBits : Nat) (table : RegionTable) (ptr size : Nat) :
    naClDynamicRegionFind wordBits (growTable table) ptr size =
      naClDynamicRegionFind wordBits table ptr size := by
  simp only [naClDynamicRegionFind, naClDynamicRegionFindClosestLEQ,
    growTable_dynamicRegions, growTable_numDynamicRegions]

private theorem any_eq_false_iff_filter
    {α : Type} {found : Option α} {p : α → Bool} :
    found.any p = false ↔ found.filter p = none := by
  cases found with
  | none => simp
  | some value => simp [Option.filter]

private theorem create_free
    {wordBits start length : Nat} {reallocSucceeds : Bool}
    {table : RegionTable}
    (grows : table.dynamicRegionsAllocated = table.numDynamicRegions →
      reallocSucceeds = true)
    (free : naClDynamicRegionFind wordBits table start length = none) :
    ∃ result, naClDynamicRegionCreate wordBits reallocSucceeds table start
        length = some (result, true) ∧
      result.numDynamicRegions = table.numDynamicRegions + 1 := by
  have missed := any_eq_false_iff_filter.mpr
    ((naClDynamicRegionFind_grow wordBits table start length).trans free)
  simp only [naClDynamicRegionCreate]
  rw [if_neg, if_neg]
  · exact ⟨_, rfl, congrArg (· + 1) (growTable_numDynamicRegions table)⟩
  · rw [missed]
    exact Bool.false_ne_true
  · rintro ⟨full, failed⟩
    rw [grows full] at failed
    cases failed

private theorem create_taken
    {wordBits start length : Nat} {reallocSucceeds : Bool}
    {table result : RegionTable} {created : Bool}
    (taken : naClDynamicRegionFind wordBits table start length ≠ none)
    (ran : naClDynamicRegionCreate wordBits reallocSucceeds table start
      length = some (result, created)) :
    created = false ∧ SameRegions table result := by
  have hit : (naClDynamicRegionFindClosestLEQ (growTable table)
      (lastByte wordBits start length)).any
        (fun index => reaches wordBits start
          ((growTable table).dynamicRegions index)) = true := by
    by_contra missed
    apply taken
    rw [← naClDynamicRegionFind_grow]
    exact any_eq_false_iff_filter.mp (eq_false_of_ne_true missed)
  simp only [naClDynamicRegionCreate] at ran
  split_ifs at ran
  cases ran
  refine ⟨rfl, growTable_numDynamicRegions table, ?_⟩
  intro index _
  rw [growTable_dynamicRegions]

private theorem cachedMapWritableText_regions
    (app : NaClApp) (regions : RegionTable) (offset length : UInt32) :
    cachedMapWritableText layout world.toWorld
        { app with regions := regions } offset length =
      (cachedMapWritableText layout world.toWorld app offset length).map
        fun mapped => { mapped with regions := regions } := by
  simp only [cachedMapWritableText]
  split_ifs <;> rfl

private theorem naclTextMapWrapper_none
    {app mapped : NaClApp}
    (failed : naclTextMapWrapper layout world.toWorld app dest size =
      some (mapped, none)) (regions : RegionTable) :
    naclTextMapWrapper layout world.toWorld { app with regions := regions }
        dest size =
      some ({ mapped with regions := regions }, none) := by
  rw [naclTextMapWrapper] at failed ⊢
  obtain ⟨cached, ran, rest⟩ := Option.bind_eq_some_iff.mp failed
  rw [cachedMapWritableText_regions, ran]
  simp only [Option.map_some, Option.bind_eq_bind, Option.bind_some]
  split_ifs at rest ⊢
  · cases rest
    rfl
  · cases rest

private theorem errors_ne_zero : -einval ≠ 0 ∧ -enomem ≠ 0 := by
  decide

private theorem create_refused
    (claims : ClaimsRange layout world state.app dest src size)
    (refuses : RefusesCode layout world state.app dest size) :
    ∃ outcome,
      naClTextSysDyncodeCreateText layout world state dest src size =
        some outcome ∧
      outcome.result ≠ 0 ∧
      outcome.state.app.regions.numDynamicRegions =
        state.app.regions.numDynamicRegions + 1 := by
  obtain ⟨regions, created, count⟩ := create_free claims.grows claims.free
  rw [create_claims claims.loads claims.copies, createRegionText, created]
  simp only [Option.bind_eq_bind, Option.bind_some, if_neg
    (Bool.noConfusion : (true : Bool) ≠ false)]
  by_cases valid : passes layout world.validateCode = false
  · rw [if_pos valid]
    exact ⟨_, rfl, errors_ne_zero.1, count⟩
  · rw [if_neg valid]
    obtain ⟨mapped, failed⟩ := refuses.resolve_left valid
    rw [naclTextMapWrapper_none failed regions]
    exact ⟨_, rfl, errors_ne_zero.2, count⟩

private theorem create_atomic
    (early : ¬ (ClaimsRange layout world state.app dest src size ∧
      RefusesCode layout world state.app dest size)) :
    AtomicCreate layout world state dest src size := by
  intro outcome ran failed
  have nothing : SameRegions state.app.regions state.app.regions :=
    ⟨rfl, fun _ _ => rfl⟩
  by_cases loads : LoadsRange layout dest src size ∧
      world.mallocSucceeds = true
  · rw [create_claims loads.1 loads.2, createRegionText] at ran
    obtain ⟨⟨regions, created⟩, claimed, rest⟩ :=
      Option.bind_eq_some_iff.mp ran
    by_cases free : naClDynamicRegionFind layout.wordBits state.app.regions
        (layout.naClUserToSysAddrRange dest.toNat size.toNat) size.toNat =
        none
    · have grows : state.app.regions.dynamicRegionsAllocated =
          state.app.regions.numDynamicRegions →
          world.reallocSucceeds = true := by
        intro full
        by_contra realloc
        rw [naClDynamicRegionCreate, if_pos ⟨full, by simpa using realloc⟩]
          at claimed
        cases claimed
      have accepts := not_and.mp early ⟨loads.1, loads.2, grows, free⟩
      rw [RefusesCode, not_or] at accepts
      obtain ⟨valid, mappable⟩ := accepts
      obtain ⟨result, created', -⟩ := create_free grows free
      rw [created'] at claimed
      cases claimed
      dsimp only at rest
      rw [if_neg (by decide), if_neg valid] at rest
      obtain ⟨⟨mapped, address⟩, wrapped, copied⟩ :=
        Option.bind_eq_some_iff.mp rest
      cases address with
      | none =>
          have back := naclTextMapWrapper_none wrapped state.app.regions
          exact absurd ⟨_, back⟩ mappable
      | some address =>
          simp only [copyNewCode] at copied
          split_ifs at copied
          obtain ⟨cleared, -, final⟩ := Option.bind_eq_some_iff.mp copied
          cases final
          exact absurd rfl failed
    · obtain ⟨rfl, same⟩ := create_taken free claimed
      cases rest
      exact ⟨same, rfl⟩
  · obtain ⟨result, quiet⟩ := create_rejects state loads
    rw [quiet] at ran
    cases ran
    exact ⟨nothing, rfl⟩

end Calls

/-- A failed creation leaves everything as it was, unless it fails after it has
claimed its range. -/
theorem atomicCreate_iff
    (layout : AppLayout) (world : TextWorld) (state : TextState)
    (dest src size : UInt32) :
    AtomicCreate layout world state dest src size ↔
      ¬ (ClaimsRange layout world state.app dest src size ∧
        RefusesCode layout world state.app dest size) := by
  constructor
  · intro atomic late
    obtain ⟨outcome, ran, failed, count⟩ := create_refused late.1 late.2
    have same := (atomic outcome ran failed).1.1
    omega
  · exact create_atomic

def verdictWorld (verdict : Bool) : TextWorld where
  toWorld := { obliging with validateCode := verdict }
  codeCopy := fun _ => 0x90
  copyMoments := []

/-- Code is refused, and then valid code at the same place is refused too. -/
theorem not_atomicCreate_refused :
    ∃ state first second,
      naClTextSysDyncodeCreateText pagesLayout (verdictWorld false) state
        0x30000 0x10000 32 = some first ∧
      first.result = -einval ∧
      ¬ SameRegions state.app.regions first.state.app.regions ∧
      naClTextSysDyncodeCreateText pagesLayout (verdictWorld true) first.state
        0x30000 0x10000 32 = some second ∧
      second.result = -einval := by
  have run : (do
      let first ← naClTextSysDyncodeCreateText pagesLayout (verdictWorld false)
        ⟨NaClApp.initial, fun _ => naclHaltOpcode⟩ 0x30000 0x10000 32
      let second ← naClTextSysDyncodeCreateText pagesLayout (verdictWorld true)
        first.state 0x30000 0x10000 32
      return (first.result, first.state.app.regions.numDynamicRegions,
        second.result)) = some (-einval, 1, -einval) := by
    decide +kernel
  simp only [Option.bind_eq_bind, Option.bind_eq_some_iff, Option.pure_def,
    Option.some.injEq, Prod.mk.injEq] at run
  obtain ⟨first, refused, second, again, result, count, later⟩ := run
  refine ⟨_, first, second, refused, result, ?_, again, later⟩
  intro same
  rw [SameRegions, count] at same
  exact absurd same.1 (by decide)

end NativeClient.Runtime
