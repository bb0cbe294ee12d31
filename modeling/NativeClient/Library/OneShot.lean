import Mathlib.Logic.Function.Basic

/-!
# One-shot tables

A table answers identifiers for the values that it accepts, and gives each
value back once.  `Pending` is what the answers so far say: the values that
were not given back yet, and the identifiers of rejected values.
-/

namespace NativeClient.Library

inductive TableEvent (ι α : Type) where
  | accepted (id : ι) (value : α)
  | rejected (id : ι)
  | removed (id : ι) (value : α)

structure Pending (ι α : Type) where
  values : ι → Option α
  refused : ι → Prop

namespace Pending

variable {ι α : Type}

def empty : Pending ι α := ⟨fun _ => none, fun _ => False⟩

def after [DecidableEq ι] (pending : Pending ι α) :
    TableEvent ι α → Pending ι α
  | .accepted id value =>
      { pending with values := Function.update pending.values id (some value) }
  | .rejected id =>
      { pending with refused := fun other => other = id ∨ pending.refused other }
  | .removed id _ =>
      { pending with values := Function.update pending.values id none }

@[simp] theorem values_accepted [DecidableEq ι] (pending : Pending ι α)
    (id : ι) (value : α) :
    (pending.after (.accepted id value)).values =
      Function.update pending.values id (some value) := rfl

@[simp] theorem values_removed [DecidableEq ι] (pending : Pending ι α)
    (id : ι) (value : α) :
    (pending.after (.removed id value)).values =
      Function.update pending.values id none := rfl

/-- An accepted value takes an identifier that is neither pending nor that of
a rejected value.  A rejected value has one that is not pending.  What is given
back is what is pending, and otherwise `nothing`. -/
def Allows (nothing : α) (pending : Pending ι α) : TableEvent ι α → Prop
  | .accepted id _ => pending.values id = none ∧ ¬ pending.refused id
  | .rejected id => pending.values id = none
  | .removed id value => value = (pending.values id).getD nothing

end Pending

def OneShot {ι α : Type} [DecidableEq ι] (nothing : α) :
    Pending ι α → List (TableEvent ι α) → Prop
  | _, [] => True
  | pending, event :: events =>
      pending.Allows nothing event ∧ OneShot nothing (pending.after event) events

end NativeClient.Library
