import Mathlib.Logic.Function.Basic
import Mathlib.Data.Nat.Basic

/-!
# Ring buffers

A ring of `size` slots with a current position.  Moving on overwrites the
oldest slot, so the last `size - 1` values stay readable by looking back.
-/

namespace NativeClient.Library

/-- `size` slots and the index of the current one. -/
structure Ring (α : Type) (size : Nat) where
  slots : Nat → α
  current : Nat
  inRange : current < size

namespace Ring

variable {α β : Type} {size : Nat}

/-- The slot `distance` places before the current one. -/
def back (ring : Ring α size) (distance : Nat) : α :=
  ring.slots ((ring.current + size - distance) % size)

def setCurrent (ring : Ring α size) (value : α) : Ring α size :=
  { ring with slots := Function.update ring.slots ring.current value }

/-- Store a value `distance` places before the current slot. -/
def setBack (ring : Ring α size) (distance : Nat) (value : α) :
    Ring α size :=
  { ring with
    slots :=
      Function.update ring.slots ((ring.current + size - distance) % size)
        value }

def advance (ring : Ring α size) (value : α) : Ring α size :=
  { slots :=
      Function.update ring.slots ((ring.current + 1) % size) value
    current := (ring.current + 1) % size
    inRange := Nat.mod_lt _ (by have := ring.inRange; omega) }

theorem back_zero (ring : Ring α size) :
    ring.back 0 = ring.slots ring.current := by
  have inRange := ring.inRange
  unfold back
  rw [Nat.sub_zero, Nat.add_mod_right, Nat.mod_eq_of_lt inRange]

private theorem back_index {current distance : Nat}
    (small : distance < size) (inRange : current < size) :
    (current + size - distance) % size =
      if distance ≤ current then current - distance
      else current + size - distance := by
  split
  · rw [show current + size - distance = current - distance + size by omega,
      Nat.add_mod_right, Nat.mod_eq_of_lt (by omega)]
  · exact Nat.mod_eq_of_lt (by omega)

theorem setBack_zero (ring : Ring α size) (value : α) :
    ring.setBack 0 value = ring.setCurrent value := by
  unfold setBack setCurrent
  rw [Nat.sub_zero, Nat.add_mod_right, Nat.mod_eq_of_lt ring.inRange]

@[simp] theorem back_setBack_self
    (ring : Ring α size) (distance : Nat) (value : α) :
    (ring.setBack distance value).back distance = value :=
  Function.update_self _ _ _

theorem back_setBack_of_ne
    (ring : Ring α size) (value : α) {distance other : Nat}
    (small : distance < size) (otherSmall : other < size)
    (different : other ≠ distance) :
    (ring.setBack distance value).back other = ring.back other := by
  have inRange := ring.inRange
  unfold back setBack
  simp only
  rw [Function.update_of_ne]
  rw [back_index small inRange, back_index otherSmall inRange]
  split <;> split <;> omega

@[simp] theorem back_setCurrent_zero (ring : Ring α size) (value : α) :
    (ring.setCurrent value).back 0 = value := by
  rw [← setBack_zero, back_setBack_self]

theorem back_setCurrent
    (ring : Ring α size) (value : α) {distance : Nat}
    (positive : 0 < distance) (small : distance < size) :
    (ring.setCurrent value).back distance = ring.back distance := by
  rw [← setBack_zero]
  exact ring.back_setBack_of_ne value (by omega) small (by omega)

@[simp] theorem back_advance_zero (ring : Ring α size) (value : α) :
    (ring.advance value).back 0 = value := by
  rw [back_zero]
  simp [advance]

theorem back_advance_succ
    (ring : Ring α size) (value : α) {distance : Nat}
    (small : distance + 1 < size) :
    (ring.advance value).back (distance + 1) = ring.back distance := by
  have inRange := ring.inRange
  have nextInRange : (ring.current + 1) % size < size :=
    Nat.mod_lt _ (by omega)
  have wraps : (ring.current + 1) % size =
      if ring.current + 1 = size then 0 else ring.current + 1 := by
    split
    · rename_i full
      rw [full, Nat.mod_self]
    · exact Nat.mod_eq_of_lt (by omega)
  have index : ((ring.current + 1) % size + size - (distance + 1)) % size =
      (ring.current + size - distance) % size := by
    rw [back_index small nextInRange, back_index (by omega) inRange, wraps]
    split <;> split <;> split <;> omega
  have older : (ring.current + size - distance) % size ≠
      (ring.current + 1) % size := by
    rw [back_index (by omega) inRange, wraps]
    split <;> split <;> omega
  unfold back
  change Function.update ring.slots ((ring.current + 1) % size) value
    (((ring.current + 1) % size + size - (distance + 1)) % size) = _
  rw [index, Function.update_of_ne older]

/-- Looking back finds slots that hold the values stored last, the newest one
first, and empty slots where there are no more of them. -/
structure Records (holds : α → β → Prop) (empty : α → Prop)
    (ring : Ring α size) (values : List β) : Prop where
  found : ∀ distance value, distance + 1 < size →
    values[distance]? = some value → holds (ring.back (distance + 1)) value
  missing : ∀ distance, distance + 1 < size → values.length ≤ distance →
    empty (ring.back (distance + 1))

namespace Records

variable {holds : α → β → Prop} {empty : α → Prop} {ring : Ring α size}
  {values : List β}

theorem start
    (fresh : ∀ index, empty (ring.slots index)) :
    ring.Records holds empty [] where
  found := by
    intro distance value _ here
    cases here
  missing := fun _ _ _ => fresh _

theorem setBack
    (records : ring.Records holds empty values) {distance : Nat}
    (small : distance < size) (present : distance ≤ values.length)
    {value : α}
    (keeps : 0 < distance → ∀ held, holds (ring.back distance) held →
      holds value held) :
    (ring.setBack distance value).Records holds empty values where
  found := by
    intro other held below here
    by_cases same : other + 1 = distance
    · subst distance
      rw [back_setBack_self]
      exact keeps (Nat.succ_pos _) held (records.found other held below here)
    · rw [back_setBack_of_ne _ _ small below same]
      exact records.found other held below here
  missing := by
    intro other below none_
    rw [back_setBack_of_ne _ _ small below (by omega)]
    exact records.missing other below none_

theorem setCurrent
    (records : ring.Records holds empty values) (value : α) :
    (ring.setCurrent value).Records holds empty values := by
  have inRange := ring.inRange
  rw [← setBack_zero]
  exact records.setBack (by omega) (Nat.zero_le _)
    (fun positive => absurd positive (Nat.lt_irrefl 0))

theorem advance
    (records : ring.Records holds empty values) {last : β}
    (current : holds (ring.back 0) last) (next : α) :
    (ring.advance next).Records holds empty (last :: values) where
  found := by
    intro distance value small here
    rw [back_advance_succ _ _ small]
    cases distance with
    | zero =>
        cases here
        exact current
    | succ distance =>
        exact records.found distance value (by omega) here
  missing := by
    intro distance small none_
    rw [back_advance_succ _ _ small]
    cases distance with
    | zero => cases none_
    | succ distance =>
        exact records.missing distance (by omega)
          (Nat.le_of_succ_le_succ none_)

end Records

end Ring

end NativeClient.Library
