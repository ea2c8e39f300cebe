import Mathlib.Data.List.Forall2

/-!
# Computations that may fail

How a sequence of fallible steps can succeed: every step succeeded.
-/

set_option autoImplicit false

namespace TheAuth.Library.Result

open List

universe u v

variable {ε : Type u} {α β : Type v} {first : Except ε α} {second : α → Except ε β}

theorem bind_eq_ok {result : β} :
    first >>= second = .ok result ↔ ∃ value, first = .ok value ∧ second value = .ok result := by
  cases first with
  | error =>
    constructor
    · intro done
      cases done
    · rintro ⟨_, done, _⟩
      cases done
  | ok value =>
    constructor
    · intro done
      exact ⟨value, rfl, done⟩
    · rintro ⟨_, same, done⟩
      cases same
      exact done

theorem of_bind {result : β} (done : first >>= second = .ok result) :
    ∃ value, first = .ok value ∧ second value = .ok result :=
  bind_eq_ok.mp done

theorem exists_bind_eq_ok {value : α}
    (done : first = .ok value) (rest : ∃ result, second value = .ok result) :
    ∃ result, first >>= second = .ok result := by
  obtain ⟨result, last⟩ := rest
  exact ⟨result, bind_eq_ok.mpr ⟨value, done, last⟩⟩

theorem exists_eq_ok {result : Except ε α} (done : result.toOption.isSome = true) :
    ∃ value, result = .ok value := by
  cases result with
  | error => cases done
  | ok value => exact ⟨value, rfl⟩

/-- Refuses with the error when the condition holds. -/
def refuseIf (condition : Prop) [Decidable condition] (e : ε) : Except ε Unit :=
  if condition then .error e else .ok ()

def orRefuse (value : Option α) (e : ε) : Except ε α :=
  match value with
  | some v => .ok v
  | none => .error e

variable {condition : Prop}

theorem refuseIf_eq_ok [Decidable condition] {e : ε} :
    refuseIf condition e = .ok () ↔ ¬ condition := by
  unfold refuseIf
  by_cases holds : condition
  · rw [if_pos holds]
    exact ⟨nofun, fun fails => absurd holds fails⟩
  · rw [if_neg holds]
    exact ⟨fun _ => holds, fun _ => rfl⟩

theorem unit_bind_eq_ok {α : Type} {first : Except ε Unit} {second : Unit → Except ε α}
    {result : α} :
    first >>= second = .ok result ↔ first = .ok () ∧ second () = .ok result := by
  rw [bind_eq_ok]
  constructor
  · rintro ⟨_, done, rest⟩
    exact ⟨done, rest⟩
  · rintro ⟨done, rest⟩
    exact ⟨(), done, rest⟩

theorem refuseIf_bind_eq_ok {α : Type} [Decidable condition] {e : ε}
    {second : Unit → Except ε α} {result : α} :
    refuseIf condition e >>= second = .ok result ↔ ¬ condition ∧ second () = .ok result := by
  rw [unit_bind_eq_ok, refuseIf_eq_ok]

theorem of_refuseIf {α : Type} [Decidable condition] {e : ε} {second : Unit → Except ε α}
    {result : α} (done : refuseIf condition e >>= second = .ok result) :
    ¬ condition ∧ second () = .ok result :=
  refuseIf_bind_eq_ok.mp done

variable {result : α}

theorem orRefuse_eq_ok {value : Option α} {e : ε} :
    orRefuse value e = .ok result ↔ value = some result := by
  cases value with
  | none => exact ⟨nofun, nofun⟩
  | some =>
    constructor
    all_goals
      intro done
      cases done
      rfl

theorem mapError_eq_ok {δ : Type u} {f : ε → δ} :
    first.mapError f = .ok result ↔ first = .ok result := by
  cases first with
  | error => exact ⟨nofun, nofun⟩
  | ok => exact ⟨fun done => by cases done; rfl, fun done => by cases done; rfl⟩

variable {γ : Type v} {step : γ → Except ε α} {results : List α} {inputs : List γ}

theorem forall₂_of_mapM (all : inputs.mapM step = .ok results) :
    List.Forall₂ (fun input result => step input = .ok result) inputs results := by
  induction inputs generalizing results with
  | nil =>
    cases all
    exact .nil
  | cons _ _ ih =>
    rw [mapM_cons] at all
    obtain ⟨_, found, all⟩ := of_bind all
    obtain ⟨_, remaining, done⟩ := of_bind all
    cases done
    exact .cons found (ih remaining)

theorem exists_mapM_eq_ok (each : ∀ input ∈ inputs, ∃ result, step input = .ok result) :
    ∃ results, inputs.mapM step = .ok results := by
  induction inputs with
  | nil => exact ⟨[], rfl⟩
  | cons input _ ih =>
    obtain ⟨result, here⟩ := each input mem_cons_self
    obtain ⟨results, later⟩ := ih fun other inside => each other (mem_cons_of_mem _ inside)
    exact ⟨result :: results, by rw [mapM_cons, here, later]; rfl⟩

theorem mapM_map_eq_ok {f : α → γ} (each : ∀ result ∈ results, step (f result) = .ok result) :
    (results.map f).mapM step = .ok results := by
  induction results with
  | nil => rfl
  | cons _ _ ih =>
    rw [forall_mem_cons] at each
    rw [map_cons, mapM_cons, each.1, ih each.2]
    rfl

/-- **The invariant rule of a fallible loop.** -/
theorem foldlM_invariant {γ : Type*} {step : β → γ → Except ε β} (holds : List γ → β → Prop)
    (one : ∀ ⦃seen state input next⦄, holds seen state → step state input = .ok next →
      holds (seen ++ [input]) next)
    {inputs : List γ} {state result : β} (start : holds [] state)
    (all : inputs.foldlM step state = .ok result) : holds inputs result := by
  suffices later : ∀ seen, holds seen state → holds (seen ++ inputs) result from later [] start
  clear start
  induction inputs generalizing state with
  | nil =>
    cases all
    intro seen kept
    rwa [append_nil]
  | cons _ _ ih =>
    obtain ⟨_, stepped, remaining⟩ := of_bind all
    intro _ kept
    have later := ih remaining _ (one kept stepped)
    rwa [append_assoc] at later

theorem exists_of_mem_mapM (all : inputs.mapM step = .ok results) (listed : result ∈ results)
    : ∃ input ∈ inputs, step input = .ok result := by
  obtain ⟨i, inside, rfl⟩ := mem_iff_getElem.mp listed
  have same := (forall₂_of_mapM all).length_eq
  exact ⟨inputs[i], getElem_mem _, (forall₂_of_mapM all).get (by omega) inside⟩

end TheAuth.Library.Result
