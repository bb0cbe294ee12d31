import Mathlib.Data.List.Nodup
import Mathlib.Data.List.Basic

/-!
# Values written to a list of places

A scatter operation writes a list of values to a list of places, one after the
other, until one of the lists runs out.  The places are of any type; when no
place occurs twice, reading them back gives the values.
-/

namespace NativeClient.Library

variable {α β : Type} [DecidableEq α] {memory : α → β} {places : List α}

def writeOne (memory : α → β) (place : α) (value : β) : α → β :=
  fun other => if other = place then value else memory other

def writeAll (memory : α → β) : List α → List β → α → β
  | place :: places, value :: values =>
      writeAll (writeOne memory place value) places values
  | [], _ => memory
  | _ :: _, [] => memory

@[simp] theorem writeAll_nil (memory : α → β) (places : List α) :
    writeAll memory places [] = memory := by
  cases places with
  | nil => rfl
  | cons place places => rfl

theorem writeAll_append
    {front back : List α} {first second : List β}
    (same : front.length = first.length) :
    writeAll memory (front ++ back) (first ++ second) =
      writeAll (writeAll memory front first) back second := by
  induction front generalizing memory first with
  | nil =>
      obtain rfl : first = [] := List.eq_nil_of_length_eq_zero same.symm
      rfl
  | cons place front ih =>
      cases first with
      | nil => simp at same
      | cons value first =>
          exact ih (by simpa using same)

theorem writeAll_outside
    {values : List β} {place : α}
    (outside : place ∉ places.take values.length) :
    writeAll memory places values place = memory place := by
  induction places generalizing memory values with
  | nil => rfl
  | cons head places ih =>
      cases values with
      | nil => rfl
      | cons value values =>
          rw [List.length_cons, List.take_succ_cons, List.mem_cons,
            not_or] at outside
          rw [writeAll, ih outside.2, writeOne, if_neg outside.1]

theorem map_writeAll
    {memory : α → β} {places : List α} {values : List β}
    (nodup : places.Nodup) (room : values.length ≤ places.length) :
    (places.take values.length).map (writeAll memory places values) =
      values := by
  induction places generalizing memory values with
  | nil =>
      obtain rfl : values = [] := List.eq_nil_of_length_eq_zero (by simpa using room)
      rfl
  | cons place places ih =>
      cases values with
      | nil => rfl
      | cons value values =>
          obtain ⟨fresh, rest⟩ := List.nodup_cons.mp nodup
          have head : writeAll memory (place :: places) (value :: values) place =
              value := by
            rw [writeAll, writeAll_outside]
            · exact if_pos rfl
            · exact fun member => fresh (List.mem_of_mem_take member)
          rw [List.length_cons, List.take_succ_cons, List.map_cons, head]
          congr 1
          exact ih rest (by simpa using room)

theorem writeAll_take
    {values : List β} {count : Nat}
    (enough : values.length ≤ count) :
    writeAll memory (places.take count) values =
      writeAll memory places values := by
  induction places generalizing memory values count with
  | nil => rw [List.take_nil]
  | cons place places ih =>
      cases values with
      | nil => rw [writeAll_nil, writeAll_nil]
      | cons value values =>
          cases count with
          | zero => simp at enough
          | succ count =>
              rw [List.take_succ_cons, writeAll, writeAll]
              exact ih (by simpa using enough)

theorem writeAll_drop
    {first second : List β}
    (room : first.length ≤ places.length) :
    writeAll (writeAll memory places first) (places.drop first.length) second =
      writeAll memory places (first ++ second) := by
  have whole := List.take_append_drop first.length places
  have front : writeAll memory (places.take first.length) first =
      writeAll memory places first := writeAll_take (Nat.le_refl _)
  rw [← front, ← writeAll_append, whole]
  rw [List.length_take, Nat.min_eq_left room]

end NativeClient.Library
