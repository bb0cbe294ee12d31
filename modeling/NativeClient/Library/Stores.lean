import NativeClient.Library.Bytes

/-!
# Sequences of stores

Code that other threads may run while it is being written is described by the
list of its stores: each store is one indivisible write, and a property that
must hold at every moment is one that holds after every store.
-/

namespace NativeClient.Library

structure Store where
  address : Nat
  bytes : List UInt8

def Store.Covers (store : Store) (address : Nat) : Prop :=
  store.address ≤ address ∧ address < store.address + store.bytes.length

instance (store : Store) (address : Nat) : Decidable (store.Covers address) :=
  inferInstanceAs (Decidable (_ ∧ _))

def Store.apply (store : Store) (memory : Buffer) : Buffer :=
  fun address =>
    if store.Covers address then
      store.bytes.getD (address - store.address) 0
    else
      memory address

def applyStores (stores : List Store) (memory : Buffer) : Buffer :=
  stores.foldl (fun current store => store.apply current) memory

def Through (property : Buffer → Prop) : List Store → Buffer → Prop
  | [], memory => property memory
  | store :: stores, memory =>
      property memory ∧ Through property stores (store.apply memory)

@[simp] theorem applyStores_nil (memory : Buffer) :
    applyStores [] memory = memory := rfl

@[simp] theorem applyStores_cons
    (store : Store) (stores : List Store) (memory : Buffer) :
    applyStores (store :: stores) memory =
      applyStores stores (store.apply memory) := rfl

theorem applyStores_append
    (first second : List Store) (memory : Buffer) :
    applyStores (first ++ second) memory =
      applyStores second (applyStores first memory) :=
  List.foldl_append

variable {memory : Buffer} {address : Nat} {stores : List Store}
  {property : Buffer → Prop}

theorem Store.apply_outside
    {store : Store}
    (outside : ¬ store.Covers address) :
    store.apply memory address = memory address :=
  if_neg outside

theorem Store.apply_inside
    {store : Store}
    (inside : store.Covers address) :
    store.apply memory address =
      store.bytes.getD (address - store.address) 0 :=
  if_pos inside

theorem applyStores_outside
    (outside : ∀ store ∈ stores, ¬ store.Covers address) (memory : Buffer) :
    applyStores stores memory address = memory address := by
  induction stores generalizing memory with
  | nil => rfl
  | cons store stores ih =>
      rw [applyStores_cons, ih fun other member =>
        outside other (List.mem_cons_of_mem _ member)]
      exact Store.apply_outside (outside store List.mem_cons_self)

theorem applyStores_inside
    {value : UInt8}
    (agreed : ∀ store ∈ stores, store.Covers address →
      store.bytes.getD (address - store.address) 0 = value)
    (memory : Buffer)
    (written : (∃ store ∈ stores, store.Covers address) ∨
      memory address = value) :
    applyStores stores memory address = value := by
  induction stores generalizing memory with
  | nil =>
      rcases written with ⟨store, member, -⟩ | already
      · cases member
      · exact already
  | cons store stores ih =>
      rw [applyStores_cons]
      apply ih fun other member =>
        agreed other (List.mem_cons_of_mem _ member)
      by_cases covered : store.Covers address
      · right
        rw [Store.apply_inside covered]
        exact agreed store List.mem_cons_self covered
      · rw [Store.apply_outside covered]
        rcases written with ⟨other, member, covers⟩ | already
        · rcases List.mem_cons.mp member with rfl | later
          · exact (covered covers).elim
          · exact .inl ⟨other, later, covers⟩
        · exact .inr already

theorem applyStores_same_iff (stores : List Store) (address : Nat) :
    (∀ first second : Buffer,
      applyStores stores first address = applyStores stores second address) ↔
      ∃ store ∈ stores, store.Covers address := by
  constructor
  · intro same
    by_contra none
    have outside : ∀ store ∈ stores, ¬ store.Covers address :=
      fun store member covers => none ⟨store, member, covers⟩
    have equal := same (fun _ => 0) (fun _ => 1)
    rw [applyStores_outside outside, applyStores_outside outside] at equal
    exact absurd equal (by decide)
  · intro covered first second
    induction stores generalizing first second with
    | nil => exact absurd covered (by simp)
    | cons store stores ih =>
        rw [applyStores_cons, applyStores_cons]
        by_cases later : ∃ store ∈ stores, store.Covers address
        · exact ih later _ _
        · have outside : ∀ other ∈ stores, ¬ other.Covers address :=
            fun other member covers => later ⟨other, member, covers⟩
          obtain ⟨other, member, covers⟩ := covered
          rcases List.mem_cons.mp member with rfl | member
          · rw [applyStores_outside outside, applyStores_outside outside,
              Store.apply_inside covers, Store.apply_inside covers]
          · exact absurd covers (outside other member)

theorem through_iff_forall :
    Through property stores memory ↔
      ∀ done, done <+: stores → property (applyStores done memory) := by
  induction stores generalizing memory with
  | nil => simp [Through]
  | cons store stores ih =>
      rw [Through, ih]
      constructor
      · rintro ⟨now, later⟩ done begins
        cases done with
        | nil => exact now
        | cons first rest =>
            obtain ⟨rfl, restBegins⟩ := List.cons_prefix_cons.mp begins
            exact later rest restBegins
      · intro every
        refine ⟨every [] List.nil_prefix, ?_⟩
        intro done begins
        exact every (store :: done) (List.cons_prefix_cons.mpr ⟨rfl, begins⟩)

theorem through_append
    {first second : List Store}
    (before : Through property first memory)
    (after : Through property second (applyStores first memory)) :
    Through property (first ++ second) memory := by
  induction first generalizing memory with
  | nil => exact after
  | cons store stores ih => exact ⟨before.1, ih before.2 after⟩

theorem through_of_invariant
    (keeps : ∀ store ∈ stores, ∀ memory, property memory →
      property (store.apply memory))
    (start : property memory) :
    Through property stores memory := by
  induction stores generalizing memory with
  | nil => exact start
  | cons store stores ih =>
      refine ⟨start, ih (fun other member => keeps other
        (List.mem_cons_of_mem _ member)) ?_⟩
      exact keeps store List.mem_cons_self memory start

theorem Through.mono
    {other : Buffer → Prop}
    (implies : ∀ current, property current → other current)
    (through : Through property stores memory) :
    Through other stores memory := by
  induction stores generalizing memory with
  | nil => exact implies _ through
  | cons store stores ih => exact ⟨implies _ through.1, ih through.2⟩

/-- The stores of a `memcpy`, whose order and width the C library is free to
choose. -/
structure Memcpy where
  stores : Nat → List UInt8 → List Store
  within : ∀ dst bytes, ∀ store ∈ stores dst bytes,
    dst ≤ store.address ∧
      store.address + store.bytes.length ≤ dst + bytes.length
  faithful : ∀ dst bytes, ∀ store ∈ stores dst bytes, ∀ address,
    store.Covers address →
    store.bytes.getD (address - store.address) 0 = bytes.getD (address - dst) 0
  complete : ∀ dst bytes, ∀ index < bytes.length,
    ∃ store ∈ stores dst bytes, store.Covers (dst + index)

namespace Memcpy

theorem applied (memcpy : Memcpy) (dst : Nat) (bytes : List UInt8)
    (memory : Buffer) (address : Nat) :
    applyStores (memcpy.stores dst bytes) memory address =
      if dst ≤ address ∧ address < dst + bytes.length then
        bytes.getD (address - dst) 0
      else
        memory address := by
  split_ifs with inside
  · apply applyStores_inside
    · intro store member covers
      exact memcpy.faithful dst bytes store member address covers
    · left
      have found := memcpy.complete dst bytes (address - dst) (by omega)
      rwa [Nat.add_sub_of_le inside.1] at found
  · apply applyStores_outside
    intro store member covers
    have within := memcpy.within dst bytes store member
    unfold Store.Covers at covers
    omega

def bytewise : Memcpy where
  stores := fun dst bytes =>
    (List.range bytes.length).map fun index =>
      ⟨dst + index, [bytes.getD index 0]⟩
  within := by
    intro dst bytes store member
    obtain ⟨index, small, rfl⟩ := List.mem_map.mp member
    rw [List.mem_range] at small
    simp only [List.length_singleton]
    omega
  faithful := by
    intro dst bytes store member address covers
    obtain ⟨index, -, rfl⟩ := List.mem_map.mp member
    simp only [Store.Covers, List.length_singleton] at covers
    obtain rfl : address = dst + index := by omega
    simp
  complete := by
    intro dst bytes index small
    refine ⟨⟨dst + index, [bytes.getD index 0]⟩,
      List.mem_map.mpr ⟨index, List.mem_range.mpr small, rfl⟩, ?_⟩
    simp [Store.Covers]

end Memcpy

end NativeClient.Library
