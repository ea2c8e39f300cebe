import Mathlib.Data.List.AList

/-!
# What a change of a table leaves alone

A change of a finite map spares the rows with a property when each of them stands under its key
before the change exactly when it does after. Sparing composes.
-/

set_option autoImplicit false

namespace TheAuth.Library.Frame

open Option AList

variable {κ ν : Type*} [DecidableEq κ]

/-- Rows of the kind are the same before and after. -/
def Spares (kind : ν → Prop) (before after : AList fun _ : κ => ν) : Prop :=
  ∀ key row, kind row → (before.lookup key = some row ↔ after.lookup key = some row)

namespace Spares

variable {kind : ν → Prop} {before between after : AList fun _ : κ => ν}

theorem refl (kind : ν → Prop) (table : AList fun _ : κ => ν) : Spares kind table table :=
  fun _ _ _ => Iff.rfl

theorem trans (first : Spares kind before between) (second : Spares kind between after) :
    Spares kind before after :=
  fun key row held => (first key row held).trans (second key row held)

theorem of_lookup {change : κ → ν → ν}
    (changed : ∀ key, after.lookup key = (before.lookup key).map (change key))
    (kept : ∀ key row, before.lookup key = some row → kind row → change key row = row)
    (gained : ∀ key row, before.lookup key = some row → kind (change key row) →
      change key row = row) :
    Spares kind before after := by
  intro key _ held
  rw [changed key]
  cases here : before.lookup key with
  | none => simp
  | some old =>
    rw [map_some, some.injEq, some.injEq]
    constructor
    · rintro rfl
      exact kept key old here held
    · rintro rfl
      exact (gained key old here held).symm

variable {table : AList fun _ : κ => ν}

theorem insert {key : κ} {row : ν}
    (old : ∀ row, table.lookup key = some row → ¬ kind row) (new : ¬ kind row) :
    Spares kind table (table.insert key row) := by
  intro other held spared
  by_cases same : other = key
  · subst same
    rw [lookup_insert]
    constructor
    · intro here
      exact absurd spared (old held here)
    · intro here
      cases here
      exact absurd spared new
  · rw [lookup_insert_ne same]

theorem erase {key : κ} (old : ∀ row, table.lookup key = some row → ¬ kind row) :
    Spares kind table (table.erase key) := by
  intro other held spared
  by_cases same : other = key
  · subst same
    rw [lookup_erase]
    constructor
    · intro here
      exact absurd spared (old held here)
    · intro here
      cases here
  · rw [lookup_erase_ne same]

end Spares

end TheAuth.Library.Frame
