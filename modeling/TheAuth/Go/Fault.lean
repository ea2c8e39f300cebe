import TheAuth.Go.Bytes
import TheAuth.Library.Result

/-!
# Panics

A call of Go code returns a value, returns an error or panics.
-/

set_option autoImplicit false

namespace TheAuth.Go

open Library.Result List

/-- An error, or a panic. -/
inductive Fault (E : Type) where
  | panic
  | error (e : E)
  deriving DecidableEq

abbrev Outcome (E α : Type) := Except (Fault E) α

variable {E α β : Type}

def sliceFrom (b : Bytes) (low : Int) : Outcome E Bytes :=
  if 0 ≤ low ∧ low ≤ b.length then .ok (b.drop low.toNat) else .error .panic

def sliceTo (b : Bytes) (high : Int) : Outcome E Bytes :=
  if 0 ≤ high ∧ high ≤ b.length then .ok (b.take high.toNat) else .error .panic

def copyAt (dst : Bytes) (low : Int) (src : Bytes) : Outcome E Bytes :=
  if 0 ≤ low ∧ low ≤ dst.length then
    .ok (dst.take low.toNat ++ src.take (dst.length - low.toNat) ++
      dst.drop (low.toNat + src.length))
  else .error .panic

/-- The call does not panic. -/
def Returns (outcome : Outcome E α) : Prop := outcome ≠ .error .panic

theorem returns_ok (a : α) : Returns (.ok a : Outcome E α) := nofun

theorem returns_error (e : E) : Returns (.error (.error e) : Outcome E α) := nofun

theorem Returns.of_error {outcome : Outcome E α} {fault : Fault E} (returns : Returns outcome)
    (failed : outcome = .error fault) : Returns (.error fault : Outcome E β) := by
  cases fault with
  | panic => exact absurd failed returns
  | error e => exact returns_error e

theorem Returns.bind {first : Outcome E α} {second : α → Outcome E β} (one : Returns first)
    (two : ∀ a, first = .ok a → Returns (second a)) : Returns (first >>= second) := by
  cases done : first with
  | error => exact one.of_error done
  | ok a => exact two a done

theorem Returns.first {first : Outcome E α} {second : α → Outcome E β}
    (both : Returns (first >>= second)) : Returns first := by
  rintro rfl
  exact both rfl

theorem Returns.after {first : Outcome E α} {second : α → Outcome E β} {a : α}
    (both : Returns (first >>= second)) (done : first = .ok a) : Returns (second a) := by
  subst done
  exact both

theorem returns_refuseIf (condition : Prop) [Decidable condition] (e : E) :
    Returns (refuseIf condition (Fault.error e)) := by
  unfold refuseIf
  split
  · exact returns_error e
  · exact returns_ok ()

theorem returns_orRefuse (value : Option α) (e : E) : Returns (orRefuse value (Fault.error e)) := by
  cases value with
  | none => exact returns_error e
  | some a => exact returns_ok a

theorem returns_mapError {δ : Type} (outcome : Except δ α) (f : δ → E) :
    Returns (outcome.mapError fun e => Fault.error (f e)) := by
  cases outcome with
  | error e => exact returns_error (f e)
  | ok a => exact returns_ok a

theorem returns_sliceFrom {b : Bytes} {low : Int} (nonneg : 0 ≤ low) (inside : low ≤ b.length) :
    Returns (sliceFrom b low : Outcome E Bytes) := by
  rw [sliceFrom, if_pos ⟨nonneg, inside⟩]
  exact returns_ok _

theorem returns_sliceTo {b : Bytes} {high : Int} (nonneg : 0 ≤ high) (inside : high ≤ b.length) :
    Returns (sliceTo b high : Outcome E Bytes) := by
  rw [sliceTo, if_pos ⟨nonneg, inside⟩]
  exact returns_ok _

theorem returns_copyAt {dst src : Bytes} {low : Int} :
    Returns (copyAt dst low src : Outcome E Bytes) ↔ 0 ≤ low ∧ low ≤ dst.length := by
  unfold copyAt
  split
  next inside => exact ⟨fun _ => inside, fun _ => returns_ok _⟩
  next outside => exact ⟨fun returns => absurd rfl returns, fun inside => absurd inside outside⟩

theorem length_copyAt {dst src result : Bytes} {low : Int}
    (done : (copyAt dst low src : Outcome E Bytes) = .ok result) : result.length = dst.length := by
  unfold copyAt at done
  split at done <;> cases done
  simp only [length_append, length_take, length_drop]
  omega

end TheAuth.Go
