import Mathlib.Data.Int.Notation
import Mathlib.Data.Nat.Notation

/-!
# Cells with a version number

A write to a row gives it a higher version, and a cell that was emptied starts a new life. Within a
life, an equal version means the row that was read; a new life can reach the same version again
(`Reading.Revived`).
-/

set_option autoImplicit false

namespace TheAuth.Library

variable {V : Type}

/-- A value under a count of its lives. -/
structure Cell (V : Type) where
  life : ℕ
  row : Option V

/-- A value that was read. -/
structure Reading (V : Type) where
  life : ℕ
  row : V

/-- A versioned cell is replaced by a higher version only. -/
inductive Cell.Step (version : V → ℤ) : Cell V → Cell V → Prop where
  | stay (c : Cell V) : Step version c c
  | replace {life : ℕ} {old new : V} (higher : version old < version new) :
      Step version ⟨life, some old⟩ ⟨life, some new⟩
  | create (life : ℕ) (new : V) : Step version ⟨life, none⟩ ⟨life, some new⟩
  | empty (c : Cell V) : Step version c ⟨c.life + 1, none⟩

namespace Reading

/-- A later life of the cell has come to the version that was read. -/
def Revived (version : V → ℤ) (read : Reading V) (c : Cell V) : Prop :=
  read.life < c.life ∧ ∃ row, c.row = some row ∧ version row = version read.row

/-- In that life only a higher version is another row; a later life has not come to the version. -/
structure Fits (version : V → ℤ) (read : Reading V) (c : Cell V) : Prop where
  past : read.life ≤ c.life
  here : read.life = c.life → ∃ row, c.row = some row ∧
    (row = read.row ∨ version read.row < version row)
  unrevived : ¬ Revived version read c

variable {version : V → ℤ} {read : Reading V} {c next : Cell V}

theorem Fits.of_read {life : ℕ} {row : V} : Fits version ⟨life, row⟩ ⟨life, some row⟩ where
  past := Nat.le_refl life
  here _ := ⟨row, rfl, .inl rfl⟩
  unrevived revived := absurd revived.1 (Nat.lt_irrefl life)

theorem Fits.step (fits : Fits version read c) (taken : Cell.Step version c next)
    (unrevived : ¬ Revived version read next) : Fits version read next := by
  cases taken with
  | stay => exact fits
  | @replace _ _ new higher =>
    refine ⟨fits.past, fun same => ⟨new, rfl, .inr ?_⟩, unrevived⟩
    obtain ⟨_, held, now⟩ := fits.here same
    cases held
    rcases now with rfl | above
    · exact higher
    · exact Int.lt_trans above higher
  | create =>
    refine ⟨fits.past, fun same => ?_, unrevived⟩
    obtain ⟨_, held, -⟩ := fits.here same
    cases held
  | empty =>
    have past : read.life < c.life + 1 := Nat.lt_succ_of_le fits.past
    exact ⟨Nat.le_of_lt past, fun same => absurd same (Nat.ne_of_lt past), unrevived⟩

theorem Fits.same (fits : Fits version read c) {row : V} (held : c.row = some row)
    (equal : version row = version read.row) : read.life = c.life ∧ row = read.row := by
  rcases Nat.lt_or_eq_of_le fits.past with later | same
  · exact absurd ⟨later, row, held, equal⟩ fits.unrevived
  · obtain ⟨now, there, cases⟩ := fits.here same
    obtain rfl : row = now := Option.some.inj (held.symm.trans there)
    rcases cases with rfl | above
    · exact ⟨same, rfl⟩
    · exact absurd equal.symm (Int.ne_of_lt above)

end Reading

end TheAuth.Library
