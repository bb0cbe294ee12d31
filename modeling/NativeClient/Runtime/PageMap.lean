import NativeClient.Library.Pieces
import NativeClient.Runtime.Vmmap

/-!
# The memory map as a function of the page

The entries of the map are apart, and stand for a function from a page to its
protection and to the place in the memory object behind it.  What an update
leaves of an entry are the pages out of its range, at their old offsets, and
over sorted entries the loop of the update does this for each of them.
-/

namespace NativeClient.Runtime

open NativeClient.Library

namespace VmmapEntry

def Covers (entry : VmmapEntry) (page : Nat) : Prop :=
  entry.pageNum ≤ page ∧ page < entry.pageNum + entry.npages

instance (entry : VmmapEntry) (page : Nat) : Decidable (entry.Covers page) :=
  inferInstanceAs (Decidable (_ ∧ _))

def page (entry : VmmapEntry) (page : Nat) : Option (Int × Option MemObj) :=
  if entry.removed = false ∧ entry.Covers page then
    some (entry.prot, naClMemObjIncOffset entry.nmop
      (BitVec.ofNat 64 ((page - entry.pageNum) * 2 ^ naclPageshift)))
  else
    none

end VmmapEntry

def entries (self : Vmmap) : List VmmapEntry :=
  self.vmentry.filterMap id

def pageMap (self : Vmmap) : Nat → Option (Int × Option MemObj) :=
  union VmmapEntry.page (entries self)

section Cut

variable {lower upper : Nat} {entry : VmmapEntry}

def InRange (lower upper page : Nat) : Prop := lower ≤ page ∧ page < upper

instance (lower upper page : Nat) : Decidable (InRange lower upper page) :=
  inferInstanceAs (Decidable (_ ∧ _))

def VmmapEntry.Within (entry : VmmapEntry) (lower upper : Nat) : Prop :=
  lower ≤ entry.pageNum ∧ entry.pageNum + entry.npages ≤ upper

structure EntryCut (lower upper : Nat) (entry : VmmapEntry)
    (parts : List VmmapEntry) : Prop where
  cut : CutTo VmmapEntry.page (InRange lower upper) entry parts
  bound : ∀ part ∈ parts, (0 < entry.npages → 0 < part.npages) ∧
    part.pageNum + part.npages ≤ entry.pageNum + entry.npages
  survives : ¬ entry.Within lower upper → ∃ part ∈ parts, part.removed = false

theorem VmmapEntry.page_of_removed
    (removed : entry.removed = true) (page : Nat) : entry.page page = none := by
  rw [VmmapEntry.page, if_neg]
  simp [removed]

theorem VmmapEntry.page_of_not_covers
    {page : Nat} (outside : ¬ entry.Covers page) : entry.page page = none := by
  rw [VmmapEntry.page, if_neg]
  exact fun holds => outside holds.2

theorem VmmapEntry.page_of_covers
    (live : entry.removed = false) {page : Nat}
    (covers : entry.Covers page) :
    entry.page page = some (entry.prot, naClMemObjIncOffset entry.nmop
      (BitVec.ofNat 64 ((page - entry.pageNum) * 2 ^ naclPageshift))) := by
  rw [VmmapEntry.page, if_pos ⟨live, covers⟩]

theorem naClMemObjIncOffset_add
    (nmop : Option MemObj) (first second : BitVec 64) :
    naClMemObjIncOffset (naClMemObjIncOffset nmop first) second =
      naClMemObjIncOffset nmop (first + second) := by
  cases nmop with
  | none => rfl
  | some nmop => simp [naClMemObjIncOffset, BitVec.add_assoc]

def VmmapEntry.front (entry : VmmapEntry) (lower : Nat) : VmmapEntry :=
  { entry with npages := lower - entry.pageNum }

/-- The pages of an entry from `upper` on, at the same offsets. -/
def VmmapEntry.back (entry : VmmapEntry) (upper : Nat) : VmmapEntry :=
  { entry with
    nmop := naClMemObjIncOffset entry.nmop
      (BitVec.ofNat 64 ((upper - entry.pageNum) * 2 ^ naclPageshift))
    pageNum := upper
    npages := entry.pageNum + entry.npages - upper }

theorem VmmapEntry.front_page
    (live : entry.removed = false)
    (inside : lower ≤ entry.pageNum + entry.npages) (page : Nat) :
    (entry.front lower).page page =
      if page < lower then entry.page page else none := by
  by_cases covers : entry.Covers page
  · by_cases below : page < lower
    · have frontCovers : (entry.front lower).Covers page := by
        simp only [front, Covers] at covers ⊢
        omega
      rw [if_pos below, page_of_covers live covers,
        page_of_covers (by exact live) frontCovers]
      rfl
    · have outside : ¬ (entry.front lower).Covers page := by
        simp only [front, Covers] at covers ⊢
        omega
      rw [if_neg below, page_of_not_covers outside]
  · have outside : ¬ (entry.front lower).Covers page := by
      simp only [front, Covers] at covers ⊢
      omega
    rw [page_of_not_covers outside, page_of_not_covers covers]
    split <;> rfl

theorem VmmapEntry.back_page
    (live : entry.removed = false) (inside : entry.pageNum ≤ upper)
    (page : Nat) :
    (entry.back upper).page page =
      if upper ≤ page then entry.page page else none := by
  by_cases covers : entry.Covers page
  · by_cases above : upper ≤ page
    · have backCovers : (entry.back upper).Covers page := by
        simp only [back, Covers] at covers ⊢
        omega
      have offset : (page - entry.pageNum) * 2 ^ naclPageshift =
          (upper - entry.pageNum) * 2 ^ naclPageshift +
            (page - upper) * 2 ^ naclPageshift := by
        rw [← Nat.add_mul]
        congr 1
        omega
      rw [if_pos above, page_of_covers live covers,
        page_of_covers (by exact live) backCovers, offset, BitVec.ofNat_add,
        ← naClMemObjIncOffset_add]
      rfl
    · have outside : ¬ (entry.back upper).Covers page := by
        simp only [back, Covers] at covers ⊢
        omega
      rw [if_neg above, page_of_not_covers outside]
  · have outside : ¬ (entry.back upper).Covers page := by
      simp only [back, Covers] at covers ⊢
      omega
    rw [page_of_not_covers outside, page_of_not_covers covers]
    split <;> rfl

theorem EntryCut.keep
    (live : entry.removed = false)
    (apart : ∀ page, InRange lower upper page → entry.page page = none) :
    EntryCut lower upper entry [entry] := by
  refine ⟨⟨List.pairwise_singleton _ _, ?_, ?_⟩, by simp, ?_⟩
  · intro page inside
    rw [union_cons, apart page inside]
    rfl
  · intro page _
    rw [union_cons, union_nil, Option.or_none]
  · intro _
    exact ⟨entry, List.mem_cons_self, live⟩

theorem EntryCut.remove
    (within : entry.Within lower upper) :
    EntryCut lower upper entry [{ entry with removed := true }] := by
  have absent : ∀ page,
      VmmapEntry.page { entry with removed := true } page = none :=
    fun page => VmmapEntry.page_of_removed rfl page
  refine ⟨⟨List.pairwise_singleton _ _, ?_, ?_⟩, by simp, ?_⟩
  · intro page _
    rw [union_cons, absent]
    rfl
  · intro page outside
    rw [union_cons, absent, VmmapEntry.page_of_not_covers]
    · rfl
    · simp only [VmmapEntry.Covers, VmmapEntry.Within, InRange] at *
      omega
  · intro not_within
    exact absurd within not_within

theorem EntryCut.trimEnd
    (live : entry.removed = false) (starts : entry.pageNum < lower)
    (overlaps : lower < entry.pageNum + entry.npages)
    (ends : entry.pageNum + entry.npages ≤ upper) :
    EntryCut lower upper entry [entry.front lower] := by
  have pages := entry.front_page live (Nat.le_of_lt overlaps)
  refine ⟨⟨List.pairwise_singleton _ _, ?_, ?_⟩, ?_, ?_⟩
  · intro page inside
    rw [union_cons, pages, if_neg (Nat.not_lt.mpr inside.1)]
    rfl
  · intro page outside
    rw [union_cons, union_nil, Option.or_none, pages]
    by_cases below : page < lower
    · rw [if_pos below]
    · rw [if_neg below, VmmapEntry.page_of_not_covers]
      simp only [VmmapEntry.Covers, InRange] at *
      omega
  · simp only [List.mem_singleton, forall_eq, VmmapEntry.front]
    omega
  · intro _
    exact ⟨_, List.mem_cons_self, live⟩

theorem EntryCut.trimStart
    (live : entry.removed = false) (starts : lower ≤ entry.pageNum)
    (overlaps : entry.pageNum < upper)
    (ends : upper < entry.pageNum + entry.npages) :
    EntryCut lower upper entry [entry.back upper] := by
  have pages := entry.back_page live (Nat.le_of_lt overlaps)
  refine ⟨⟨List.pairwise_singleton _ _, ?_, ?_⟩, ?_, ?_⟩
  · intro page inside
    rw [union_cons, pages, if_neg (Nat.not_le.mpr inside.2)]
    rfl
  · intro page outside
    rw [union_cons, union_nil, Option.or_none, pages]
    by_cases above : upper ≤ page
    · rw [if_pos above]
    · rw [if_neg above, VmmapEntry.page_of_not_covers]
      simp only [VmmapEntry.Covers, InRange] at *
      omega
  · simp only [List.mem_singleton, forall_eq, VmmapEntry.back]
    omega
  · intro _
    exact ⟨_, List.mem_cons_self, live⟩

theorem EntryCut.split
    (live : entry.removed = false) (ordered : lower ≤ upper)
    (starts : entry.pageNum < lower)
    (ends : upper < entry.pageNum + entry.npages) :
    EntryCut lower upper entry [entry.front lower, entry.back upper] := by
  have fronts := @VmmapEntry.front_page lower entry live (by omega)
  have backs := @VmmapEntry.back_page upper entry live (by omega)
  refine ⟨⟨?_, ?_, ?_⟩, ?_, ?_⟩
  · rw [List.pairwise_pair]
    intro page
    rw [fronts, backs]
    by_cases below : page < lower
    · exact Or.inr (if_neg (by omega))
    · exact Or.inl (if_neg below)
  · intro page inside
    rw [union_cons, union_cons, fronts, backs,
      if_neg (Nat.not_lt.mpr inside.1), if_neg (Nat.not_le.mpr inside.2)]
    rfl
  · intro page outside
    rw [union_cons, union_cons, union_nil, Option.or_none, fronts, backs]
    by_cases below : page < lower
    · rw [if_pos below, if_neg (by omega), Option.or_none]
    · rw [if_neg below, if_pos, Option.none_or]
      simp only [InRange] at outside
      omega
  · simp only [List.mem_cons, List.not_mem_nil, or_false, forall_eq_or_imp,
      forall_eq, VmmapEntry.front, VmmapEntry.back]
    omega
  · intro _
    exact ⟨_, List.mem_cons_self, live⟩

theorem EntryCut.later
    {next : VmmapEntry} (live : entry.removed = false)
    (nextLive : next.removed = false) (ordered : entry.pageNum ≤ next.pageNum)
    (apart : Apart VmmapEntry.page entry next)
    (ends : upper < entry.pageNum + entry.npages) :
    EntryCut lower upper next [next] := by
  refine EntryCut.keep nextLive ?_
  intro page inside
  by_cases covers : next.Covers page
  · have entryCovers : entry.Covers page := by
      simp only [VmmapEntry.Covers, InRange] at *
      omega
    refine (apart page).resolve_left ?_
    rw [VmmapEntry.page_of_covers live entryCovers]
    exact Option.some_ne_none _
  · exact VmmapEntry.page_of_not_covers covers

end Cut

section Loop

def InSpace (size : WordSize) (pageNum npages : Nat) : Prop :=
  pageNum + npages ≤ 2 ^ (size.bits - naclPageshift)

instance (size : WordSize) (pageNum npages : Nat) :
    Decidable (InSpace size pageNum npages) :=
  inferInstanceAs (Decidable (_ ≤ _))

namespace InSpace

variable {size : WordSize} {pageNum npages : Nat}

theorem pages_lt (size : WordSize) :
    2 ^ (size.bits - naclPageshift) < 2 ^ size.bits := by
  apply Nat.pow_lt_pow_right (by decide)
  rcases size.word with word | word <;> rw [word] <;> decide

theorem wrap_end (space : InSpace size pageNum npages) :
    size.wrap (pageNum + npages) = pageNum + npages :=
  Nat.mod_eq_of_lt (Nat.lt_of_le_of_lt space (pages_lt size))

end InSpace

theorem WordSize.wrap_pages
    (size : WordSize) {pages : Nat}
    (small : pages < 2 ^ (size.bits - naclPageshift)) :
    size.wrap (pages * 2 ^ naclPageshift) = pages * 2 ^ naclPageshift := by
  apply Nat.mod_eq_of_lt
  have bits : size.bits = size.bits - naclPageshift + naclPageshift := by
    rcases size.word with word | word <;> rw [word] <;> decide
  rw [bits, Nat.pow_add]
  exact Nat.mul_lt_mul_of_pos_right small (by decide)

theorem naClMemObjSplit_cases
    (allocated : Bool) (nmop : Option MemObj) (additional : BitVec 64) :
    naClMemObjSplit allocated nmop additional = none ∧ allocated = false ∨
      naClMemObjSplit allocated nmop additional =
        some (naClMemObjIncOffset nmop additional) := by
  cases nmop with
  | none => exact Or.inr rfl
  | some nmop =>
      cases allocated with
      | false => exact Or.inl ⟨rfl, rfl⟩
      | true => exact Or.inr rfl

theorem naClVmmapAdd_cases
    (allocations : AddAllocations) (self : Vmmap) (pageNum npages : Nat)
    (prot : Int) (nmop : Option MemObj) :
    naClVmmapAdd allocations self pageNum npages prot nmop = (self, false) ∧
        allocations.vmentry = false ∨
      ∃ size, naClVmmapAdd allocations self pageNum npages prot nmop =
        (⟨self.vmentry ++ [naClVmmapEntryMake allocations.entry pageNum npages
          prot nmop], size, false⟩, true) := by
  rw [naClVmmapAdd]
  by_cases full : nvalid self = self.size ∧ allocations.vmentry = false
  · rw [if_pos full]
    exact Or.inl ⟨rfl, full.2⟩
  · rw [if_neg full]
    exact Or.inr ⟨_, rfl⟩

def AddAllocations.Succeed (allocations : AddAllocations) : Prop :=
  allocations.vmentry = true ∧ allocations.entry = true

def UpdateAllocations.Succeed (allocations : UpdateAllocations) : Prop :=
  allocations.split = true ∧ allocations.remainder.Succeed ∧
    allocations.mapping.Succeed

def remainderSlot (allocations : UpdateAllocations) (entry : VmmapEntry) :
    Option VmmapEntry :=
  if allocations.remainder.entry then some entry else none

/-- The slots after `done`, which held the entries `todo`, now hold what an
update leaves of these. -/
structure LoopLeft (lower upper : Nat) (allocations : UpdateAllocations)
    (todo : List VmmapEntry) (done : List (Option VmmapEntry))
    (next : Vmmap) : Prop where
  left : ∃ (shrunk extra : List VmmapEntry) (parts : List (List VmmapEntry)),
    next.vmentry = done ++ shrunk.map some ++
      extra.map (remainderSlot allocations) ∧
    List.Forall₂ (EntryCut lower upper) todo parts ∧
    (shrunk ++ extra).Perm parts.flatten

namespace LoopLeft

variable {lower upper : Nat} {allocations : UpdateAllocations}
  {todo : List VmmapEntry} {done : List (Option VmmapEntry)}
  {self next : Vmmap} {entry : VmmapEntry}

theorem nil (slots : self.vmentry = done) :
    LoopLeft lower upper allocations [] done self :=
  ⟨[], [], [], by simp [slots], List.Forall₂.nil, by simp⟩

theorem cons
    {part : VmmapEntry} (cut : EntryCut lower upper entry [part])
    (rest : LoopLeft lower upper allocations todo (done ++ [some part]) next) :
    LoopLeft lower upper allocations (entry :: todo) done next := by
  obtain ⟨shrunk, extra, parts, slots, cuts, perm⟩ := rest.left
  refine ⟨part :: shrunk, extra, [part] :: parts, ?_, cuts.cons cut, ?_⟩
  · rw [slots]
    simp
  · exact perm.cons part

private theorem keepAll
    (keeps : ∀ later ∈ todo, EntryCut lower upper later [later]) :
    List.Forall₂ (EntryCut lower upper) todo (todo.map ([·])) := by
  rw [List.forall₂_map_right_iff, List.forall₂_same]
  exact keeps

private theorem flatten_singletons (items : List VmmapEntry) :
    (items.map ([·])).flatten = items := by
  induction items with
  | nil => rfl
  | cons item items ih => simp [ih]

theorem last
    {part : VmmapEntry} (cut : EntryCut lower upper entry [part])
    (keeps : ∀ later ∈ todo, EntryCut lower upper later [later])
    (slots : self.vmentry = done ++ some part :: todo.map some) :
    LoopLeft lower upper allocations (entry :: todo) done self := by
  refine ⟨part :: todo, [], [part] :: todo.map ([·]), ?_,
    (keepAll keeps).cons cut, ?_⟩
  · rw [slots]
    simp
  · rw [List.flatten_cons, flatten_singletons, List.append_nil]
    exact List.Perm.refl _

theorem lastSplit
    {front back : VmmapEntry} (cut : EntryCut lower upper entry [front, back])
    (keeps : ∀ later ∈ todo, EntryCut lower upper later [later])
    (slots : self.vmentry = done ++ some front :: todo.map some ++
      [remainderSlot allocations back]) :
    LoopLeft lower upper allocations (entry :: todo) done self := by
  refine ⟨front :: todo, [back], [front, back] :: todo.map ([·]), ?_,
    (keepAll keeps).cons cut, ?_⟩
  · rw [slots]
    simp
  · rw [List.flatten_cons, flatten_singletons]
    exact (List.perm_append_singleton back todo).cons front

end LoopLeft

private theorem set_at
    {done rest : List (Option VmmapEntry)} {slot : Option VmmapEntry}
    {self : Vmmap} (slots : self.vmentry = done ++ slot :: rest)
    (entry : VmmapEntry) :
    (setEntry self done.length entry).vmentry = done ++ some entry :: rest := by
  simp [setEntry, slots]

section Arithmetic

variable {size : WordSize} {entry : VmmapEntry} {lower upper : Nat}

private theorem back_offset
    (space : InSpace size entry.pageNum entry.npages)
    (starts : entry.pageNum ≤ upper)
    (ends : upper < entry.pageNum + entry.npages) :
    size.wrap (size.sub upper entry.pageNum * 2 ^ naclPageshift) =
      (upper - entry.pageNum) * 2 ^ naclPageshift := by
  have small := InSpace.pages_lt size
  have bound : upper < 2 ^ (size.bits - naclPageshift) :=
    Nat.lt_of_lt_of_le ends space
  rw [size.sub_of_le starts (Nat.lt_trans bound small)]
  exact size.wrap_pages (Nat.lt_of_le_of_lt (Nat.sub_le _ _) bound)

private theorem back_npages
    (space : InSpace size entry.pageNum entry.npages)
    (ends : upper < entry.pageNum + entry.npages) :
    size.sub (entry.pageNum + entry.npages) upper =
      entry.pageNum + entry.npages - upper :=
  size.sub_of_le (Nat.le_of_lt ends)
    (Nat.lt_of_le_of_lt space (InSpace.pages_lt size))

private theorem front_npages
    (space : InSpace size entry.pageNum entry.npages)
    (starts : entry.pageNum ≤ lower)
    (overlaps : lower ≤ entry.pageNum + entry.npages) :
    size.sub lower entry.pageNum = lower - entry.pageNum := by
  apply size.sub_of_le starts
  exact Nat.lt_of_le_of_lt (Nat.le_trans overlaps space)
    (InSpace.pages_lt size)

end Arithmetic

theorem updateLoop_cases
    {size : WordSize} (allocations : UpdateAllocations)
    {pageNum npages : Nat} (positive : 0 < npages)
    (space : InSpace size pageNum npages)
    {todo : List VmmapEntry} {done : List (Option VmmapEntry)} {self : Vmmap}
    (slots : self.vmentry = done ++ todo.map some)
    (live : ∀ entry ∈ todo, entry.removed = false)
    (inSpace : ∀ entry ∈ todo, InSpace size entry.pageNum entry.npages)
    (sorted : todo.Pairwise (fun left right => left.pageNum ≤ right.pageNum))
    (apart : todo.Pairwise (Apart VmmapEntry.page)) :
    updateLoop size allocations pageNum npages todo.length done.length self =
        none ∧ ¬ allocations.Succeed ∨
      ∃ next, updateLoop size allocations pageNum npages todo.length
          done.length self = some next ∧
        LoopLeft pageNum (pageNum + npages) allocations todo done next := by
  induction todo generalizing done self with
  | nil =>
      refine Or.inr ⟨self, rfl, LoopLeft.nil ?_⟩
      rw [slots, List.map_nil, List.append_nil]
  | cons entry todo ih =>
      rw [List.map_cons] at slots
      have entryLive := live entry List.mem_cons_self
      have entrySpace := inSpace entry List.mem_cons_self
      have small := InSpace.pages_lt size
      rw [List.pairwise_cons] at sorted apart
      have keeps : pageNum + npages < entry.pageNum + entry.npages →
          ∀ later ∈ todo,
            EntryCut pageNum (pageNum + npages) later [later] := by
        intro ends later member
        exact EntryCut.later entryLive
          (live later (List.mem_cons_of_mem entry member))
          (sorted.1 later member) (apart.1 later member) ends
      have continued : ∀ (part : VmmapEntry) {stepped : Vmmap},
          stepped.vmentry = done ++ some part :: todo.map some →
          EntryCut pageNum (pageNum + npages) entry [part] →
          updateLoop size allocations pageNum npages todo.length
              (done.length + 1) stepped = none ∧ ¬ allocations.Succeed ∨
            ∃ next, updateLoop size allocations pageNum npages todo.length
                (done.length + 1) stepped = some next ∧
              LoopLeft pageNum (pageNum + npages) allocations (entry :: todo)
                done next := by
        intro part stepped stepSlots cut
        have rest := @ih (done ++ [some part]) stepped (by simp [stepSlots])
          (fun later member => live later (List.mem_cons_of_mem entry member))
          (fun later member => inSpace later (List.mem_cons_of_mem entry member))
          sorted.2 apart.2
        rw [List.length_append, List.length_singleton] at rest
        rcases rest with stopped | ⟨next, run, left⟩
        · exact Or.inl stopped
        · exact Or.inr ⟨next, run, left.cons cut⟩
      rw [List.length_cons, updateLoop, slots, deref_append_at]
      simp only [Option.bind_eq_bind, Option.bind_some, space.wrap_end,
        entrySpace.wrap_end]
      by_cases contains : entry.pageNum < pageNum ∧
          pageNum + npages < entry.pageNum + entry.npages
      · rw [if_pos contains, back_offset entrySpace (by omega) contains.2,
          back_npages entrySpace contains.2]
        rcases naClMemObjSplit_cases allocations.split entry.nmop
            (BitVec.ofNat 64
              ((pageNum + npages - entry.pageNum) * 2 ^ naclPageshift)) with
          ⟨failed, noMemory⟩ | split
        · rw [failed]
          refine Or.inl ⟨rfl, ?_⟩
          intro succeed
          rw [succeed.1] at noMemory
          cases noMemory
        · rw [split, Option.bind_some]
          rcases naClVmmapAdd_cases allocations.remainder self
              (pageNum + npages)
              (entry.pageNum + entry.npages - (pageNum + npages)) entry.prot
              (naClMemObjIncOffset entry.nmop (BitVec.ofNat 64
                ((pageNum + npages - entry.pageNum) * 2 ^ naclPageshift))) with
            ⟨failed, noMemory⟩ | ⟨grown, added⟩
          · rw [failed]
            refine Or.inl ⟨rfl, ?_⟩
            intro succeed
            rw [succeed.2.1.1] at noMemory
            cases noMemory
          · rw [added, front_npages entrySpace (by omega) (by omega)]
            dsimp only
            rw [if_pos rfl]
            refine Or.inr ⟨_, rfl, LoopLeft.lastSplit
              (EntryCut.split entryLive (by omega) contains.1 contains.2)
              (keeps contains.2) ?_⟩
            rw [List.append_assoc, List.cons_append]
            rw [@set_at done (todo.map some ++ [_]) (some entry) _ (by
              rw [slots, List.append_assoc, List.cons_append])]
            simp only [remainderSlot, naClVmmapEntryMake, entryLive,
              VmmapEntry.back, VmmapEntry.front]
      · rw [if_neg contains]
        by_cases overlapsEnd : entry.pageNum < pageNum ∧
            pageNum < entry.pageNum + entry.npages
        · rw [if_pos overlapsEnd, front_npages entrySpace (by omega) (by omega)]
          exact continued (entry.front pageNum) (set_at slots _)
            (EntryCut.trimEnd entryLive overlapsEnd.1 overlapsEnd.2 (by omega))
        · rw [if_neg overlapsEnd]
          by_cases overlapsStart : entry.pageNum < pageNum + npages ∧
              pageNum + npages < entry.pageNum + entry.npages
          · rw [if_pos overlapsStart, back_npages entrySpace overlapsStart.2,
              back_offset entrySpace (by omega) overlapsStart.2]
            refine Or.inr ⟨_, rfl, LoopLeft.last
              (EntryCut.trimStart entryLive (by omega) overlapsStart.1
                overlapsStart.2)
              (keeps overlapsStart.2) ?_⟩
            exact set_at slots _
          · rw [if_neg overlapsStart]
            by_cases covered : pageNum ≤ entry.pageNum ∧
                entry.pageNum + entry.npages ≤ pageNum + npages
            · rw [if_pos covered]
              exact continued { entry with removed := true } (set_at slots _)
                (EntryCut.remove covered)
            · have beside : pageNum + npages ≤ entry.pageNum ∨
                  entry.pageNum + entry.npages ≤ pageNum := by
                omega
              rw [if_neg covered, if_pos beside]
              refine continued entry slots (EntryCut.keep entryLive ?_)
              intro page inside
              apply VmmapEntry.page_of_not_covers
              simp only [InRange, VmmapEntry.Covers] at *
              omega

end Loop

end NativeClient.Runtime
