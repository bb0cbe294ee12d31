import Mathlib.Data.List.Nodup
import Mathlib.Data.List.Perm.Basic

/-!
# The sleepers of a condition variable

The threads that wait on a condition variable and were not woken yet are a
list.  A signal wakes one of them, whichever the system chooses, and does
nothing when there is none.
-/

namespace NativeClient.Library

variable {τ : Type}

def signal (sleepers : List τ) (choice : Nat) : List τ :=
  sleepers.eraseIdx (choice % sleepers.length)

theorem mem_of_mem_signal {sleepers : List τ} {choice : Nat} {thread : τ}
    (asleep : thread ∈ signal sleepers choice) : thread ∈ sleepers :=
  List.mem_of_mem_eraseIdx asleep

theorem signal_nodup {sleepers : List τ} (nodup : sleepers.Nodup)
    (choice : Nat) : (signal sleepers choice).Nodup :=
  nodup.eraseIdx _

theorem exists_signalled
    {sleepers : List τ} (nodup : sleepers.Nodup) {choice : Nat}
    (some' : sleepers ≠ []) :
    ∃ thread ∈ sleepers, thread ∉ signal sleepers choice := by
  have inside : choice % sleepers.length < sleepers.length :=
    Nat.mod_lt _ (List.length_pos_iff.mpr some')
  have front := (List.getElem_cons_eraseIdx_perm inside).nodup_iff.mpr nodup
  exact ⟨_, List.getElem_mem inside, (List.nodup_cons.mp front).1⟩

end NativeClient.Library
