import NativeClient.Library.LittleEndian
import NativeClient.Library.Stores

/-!
# What a buffer holds

`Holds` says that the bytes at a place are those of a list.  A store makes a
buffer hold its bytes and leaves the other places alone.
-/

namespace NativeClient.Library

def bytesAt (buffer : Buffer) (start count : Nat) : List UInt8 :=
  (List.range count).map fun offset => buffer (start + offset)

variable (buffer : Buffer)

@[simp] theorem length_bytesAt (start count : Nat) :
    (bytesAt buffer start count).length = count := by
  simp [bytesAt]

theorem bytesAt_succ (start count : Nat) :
    bytesAt buffer start (count + 1) =
      buffer start :: bytesAt buffer (start + 1) count := by
  simp only [bytesAt, List.range_succ_eq_map, List.map_cons, List.map_map,
    Nat.add_zero, List.cons.injEq, true_and]
  congr 1
  funext offset
  simp only [Function.comp_apply]
  congr 1
  omega

theorem bytesAt_add (start front back : Nat) :
    bytesAt buffer start (front + back) =
      bytesAt buffer start front ++ bytesAt buffer (start + front) back := by
  induction front generalizing start with
  | zero => simp [bytesAt]
  | succ front ih =>
      rw [show front + 1 + back = front + back + 1 by omega, bytesAt_succ,
        bytesAt_succ, ih, List.cons_append,
        show start + 1 + front = start + (front + 1) by omega]

def Holds (start : Nat) (bytes : List UInt8) : Prop :=
  bytesAt buffer start bytes.length = bytes

variable {buffer} {start : Nat} {bytes : List UInt8}

theorem holds_cons {byte : UInt8} :
    Holds buffer start (byte :: bytes) ↔
      buffer start = byte ∧ Holds buffer (start + 1) bytes := by
  rw [Holds, List.length_cons, bytesAt_succ, List.cons.injEq, Holds]

theorem holds_append {front back : List UInt8} :
    Holds buffer start (front ++ back) ↔
      Holds buffer start front ∧ Holds buffer (start + front.length) back := by
  rw [Holds, List.length_append, bytesAt_add]
  constructor
  · intro same
    exact List.append_inj same (length_bytesAt _ _ _)
  · rintro ⟨first, second⟩
    rw [show bytesAt buffer start front.length = front from first,
      show bytesAt buffer (start + front.length) back.length = back from second]

theorem holds_nil (start : Nat) : Holds buffer start [] := rfl

theorem holds_littleEndian (start width : Nat) :
    Holds buffer start
      (littleEndian width (ofLittleEndian (bytesAt buffer start width))) := by
  have same := littleEndian_ofLittleEndian (bytesAt buffer start width)
  rw [length_bytesAt] at same
  rw [same, Holds, length_bytesAt]

def numberAt (buffer : Buffer) (start width : Nat) : Nat :=
  ofLittleEndian (bytesAt buffer start width)

theorem numberAt_of_holds
    {width value : Nat} (small : value < 256 ^ width)
    (holds : Holds buffer start (littleEndian width value)) :
    numberAt buffer start width = value := by
  rw [Holds, length_littleEndian] at holds
  rw [numberAt, holds, ofLittleEndian_littleEndian small]

theorem numberAt_lt (start width : Nat) :
    numberAt buffer start width < 256 ^ width := by
  have bound := ofLittleEndian_lt (bytesAt buffer start width)
  rw [length_bytesAt] at bound
  exact bound

theorem getElem_bytesAt
    {count offset : Nat} (inside : offset < (bytesAt buffer start count).length) :
    (bytesAt buffer start count)[offset] = buffer (start + offset) := by
  simp only [bytesAt, List.getElem_map, List.getElem_range]

theorem holds_iff :
    Holds buffer start bytes ↔
      ∀ offset (inside : offset < bytes.length),
        buffer (start + offset) = bytes[offset] := by
  constructor
  · intro holds offset inside
    have same := List.getElem_of_eq holds
      (show offset < (bytesAt buffer start bytes.length).length by
        rw [length_bytesAt]
        exact inside)
    rw [← same, getElem_bytesAt]
  · intro same
    refine List.ext_getElem (length_bytesAt _ _ _) ?_
    intro offset _ inside
    rw [← same offset inside, getElem_bytesAt]

theorem Store.holds_apply (store : Store) (memory : Buffer) :
    Holds (store.apply memory) store.address store.bytes := by
  rw [holds_iff]
  intro offset inside
  rw [store.apply_inside ⟨Nat.le_add_right _ _, Nat.add_lt_add_left inside _⟩,
    Nat.add_sub_cancel_left, List.getD_eq_getElem?_getD,
    List.getElem?_eq_getElem inside, Option.getD_some]

theorem Store.holds_apply_beside
    {store : Store} {memory : Buffer}
    (beside : start + bytes.length ≤ store.address ∨
      store.address + store.bytes.length ≤ start)
    (holds : Holds memory start bytes) :
    Holds (store.apply memory) start bytes := by
  rw [holds_iff] at holds ⊢
  intro offset inside
  rw [store.apply_outside (by unfold Covers; omega), holds offset inside]

def Store.Beside (store : Store) (start count : Nat) : Prop :=
  start + count ≤ store.address ∨ store.address + store.bytes.length ≤ start

theorem holds_applyStores_beside
    {stores : List Store} {memory : Buffer}
    (beside : ∀ store ∈ stores, store.Beside start bytes.length)
    (holds : Holds memory start bytes) :
    Holds (applyStores stores memory) start bytes := by
  induction stores generalizing memory with
  | nil => exact holds
  | cons store stores ih =>
      rw [applyStores_cons]
      refine ih (fun later member => beside later (List.mem_cons_of_mem _ member)) ?_
      exact Store.holds_apply_beside (beside store List.mem_cons_self) holds

theorem holds_applyStores
    {front back : List Store} {store : Store}
    (beside : ∀ later ∈ back, later.Beside store.address store.bytes.length)
    (memory : Buffer) :
    Holds (applyStores (front ++ store :: back) memory) store.address
      store.bytes := by
  rw [applyStores_append, applyStores_cons]
  exact holds_applyStores_beside beside (store.holds_apply _)

end NativeClient.Library
