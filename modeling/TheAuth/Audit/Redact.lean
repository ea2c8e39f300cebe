import Mathlib.Data.Nat.Notation
import TheAuth.Go.Bytes

/-!
# Redaction of audit metadata

The redactor enters the containers of three types. What it leaves under a blocked key is in a
container of another type.
-/

set_option autoImplicit false

namespace TheAuth.Audit

open Go

inductive Elem where
  | any | anyMap | other
  deriving DecidableEq

/-- Maps with string keys and slices, with the type of their elements. -/
inductive Metadata where
  | scalar (text : Bytes)
  | map (elem : Elem) {n : ℕ} (key : Fin n → Bytes) (value : Fin n → Metadata)
  | slice (elem : Elem) {n : ℕ} (item : Fin n → Metadata)

def redactedMarker : Bytes := str "[REDACTED]"

def seededSecretKeys : List Bytes :=
  [str "password", str "secret", str "token", str "code", str "refresh_token", str "access_token"]

/-- `strings.EqualFold`. -/
class FoldLib where
  equalFold : Bytes → Bytes → Bool

namespace Metadata

/-- The cases of `redactValue`. -/
def switched : Metadata → Bool
  | map elem _ _ => elem = .any
  | slice elem _ => elem ≠ .other
  | scalar _ => false

section

variable [FoldLib]

def isSecretKey (k : Bytes) : Bool := seededSecretKeys.any (FoldLib.equalFold k)

variable (enters : Metadata → Bool)

/-- Masks what is under a blocked key in the containers that are entered. -/
def mask : Metadata → Metadata
  | scalar text => scalar text
  | map elem key value =>
    if enters (map elem key value) then
      map elem key fun i =>
        if isSecretKey (key i) then scalar redactedMarker else (value i).mask
    else map elem key value
  | slice elem item =>
    -- an element of a `[]map[string]any` is a `map[string]any`, which is entered
    if enters (slice elem item) then slice elem fun i => (item i).mask else slice elem item

def redactValue : Metadata → Metadata := mask switched

def defaultRedactor {n : ℕ} (key : Fin n → Bytes) (value : Fin n → Metadata) : Metadata :=
  redactValue (map .any key value)

/-- The redaction that enters every container. -/
def masked : Metadata → Metadata := mask fun _ => true

/-- A container that is reached and not entered holds nothing to mask. -/
def Handled : Metadata → Prop
  | scalar _ => True
  | map elem key value =>
    if elem = .any then ∀ i, isSecretKey (key i) = false → (value i).Handled
    else masked (map elem key value) = map elem key value
  | slice elem item =>
    if elem ≠ .other then ∀ i, (item i).Handled
    else masked (slice elem item) = slice elem item

theorem masked_mask (v : Metadata) :
    masked (mask enters v) = masked v := by
  induction v with
  | scalar => rfl
  | map elem key value ih =>
    rw [mask]
    split
    · refine congrArg (map elem key) (funext fun i => ?_)
      dsimp only
      split
      · rfl
      · exact ih i
    · rfl
  | slice elem item ih =>
    rw [mask]
    split
    · exact congrArg (slice elem) (funext ih)
    · rfl

theorem masked_eq_redactValue_iff {v : Metadata} :
    masked v = redactValue v ↔ Handled v := by
  induction v with
  | scalar => exact iff_of_true rfl trivial
  | map elem key value ih =>
    by_cases any : elem = .any
    · have entered : redactValue (map elem key value) = map elem key fun i =>
          if isSecretKey (key i) then scalar redactedMarker
          else redactValue (value i) := if_pos (decide_eq_true any)
      rw [entered, Handled, if_pos any]
      simp only [masked, mask, map.injEq, heq_eq_eq, true_and, funext_iff, if_true]
      refine forall_congr' fun i => ?_
      cases isSecretKey (key i) with
      | true => exact iff_of_true rfl nofun
      | false => exact (ih i).trans ⟨fun handled _ => handled, fun handled => handled rfl⟩
    · have left_ : redactValue (map elem key value) = map elem key value :=
        if_neg (by simpa [switched] using any)
      rw [left_, Handled, if_neg any]
  | slice elem item ih =>
    by_cases other : elem = .other
    · have left_ : redactValue (slice elem item) = slice elem item :=
        if_neg (by simpa [switched] using other)
      rw [left_, Handled, if_neg (not_not.mpr other)]
    · have entered : redactValue (slice elem item) =
          slice elem fun i => redactValue (item i) := if_pos (decide_eq_true other)
      rw [entered, Handled, if_pos other]
      simp only [masked, mask, slice.injEq, heq_eq_eq, true_and, funext_iff, if_true]
      exact forall_congr' ih

/-- **The redactor leaves nothing under a blocked key, and everything else as it is, when every
container of a type it does not enter has nothing to mask.** -/
theorem defaultRedactor_masks_iff {n : ℕ} (key : Fin n → Bytes) (value : Fin n → Metadata) :
    (masked (defaultRedactor key value) = defaultRedactor key value ∧
      masked (defaultRedactor key value) =
        masked (map .any key value)) ↔
      ∀ i, isSecretKey (key i) = false → (value i).Handled := by
  have rest : masked (defaultRedactor key value) =
      masked (map .any key value) := masked_mask switched _
  rw [and_iff_left rest, rest]
  exact masked_eq_redactValue_iff

end

theorem typed_map_keeps_secret :
    letI : FoldLib := ⟨(· == ·)⟩
    let login := map .other (fun _ : Fin 1 => str "password") fun _ => scalar (str "hunter2")
    isSecretKey (str "password") = true ∧
      defaultRedactor (fun _ : Fin 1 => str "login") (fun _ => login) =
        map .any (fun _ : Fin 1 => str "login") fun _ => login := by
  let : FoldLib := ⟨(· == ·)⟩
  have open_ : ¬ isSecretKey (str "login") = true := by decide +kernel
  exact ⟨by decide +kernel, congrArg (map .any _) (funext fun _ => if_neg open_)⟩

end Metadata

end TheAuth.Audit
