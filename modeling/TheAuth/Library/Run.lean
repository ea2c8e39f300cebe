import Mathlib.Data.List.Basic
import Mathlib.Logic.Function.Basic

/-!
# Runs of a system

`run` returns the last state of a sequence of actions that the system can take. The rules derive
what holds after a run, and at its steps (`Throughout`), from what one step keeps. Where the
participants of a system have a place each, an action moves one of them.
-/

set_option autoImplicit false

namespace TheAuth.Library.Run

open Function

variable {S A : Type*} {step : S → A → Option S}

/-- Runs the actions in order. -/
def run (step : S → A → Option S) : S → List A → Option S
  | s, [] => some s
  | s, a :: rest => (step s a).bind fun next => run step next rest

/-- The condition holds before every step of the run. -/
def Throughout (step : S → A → Option S) (condition : S → A → Prop) : S → List A → Prop
  | _, [] => True
  | s, a :: rest =>
    condition s a ∧ ∀ next, step s a = some next → Throughout step condition next rest

instance Throughout.decidable {condition : S → A → Prop} [∀ s a, Decidable (condition s a)] :
    ∀ (s : S) (actions : List A), Decidable (Throughout step condition s actions)
  | _, [] => .isTrue trivial
  | s, a :: rest =>
    match here : step s a with
    | none =>
      decidable_of_iff (condition s a)
        ⟨fun holds => ⟨holds, fun _ taken => nomatch here.symm.trans taken⟩, fun all => all.1⟩
    | some next =>
      have : Decidable (Throughout step condition next rest) := Throughout.decidable next rest
      decidable_of_iff (condition s a ∧ Throughout step condition next rest)
        ⟨fun ⟨holds, later⟩ => ⟨holds, fun _ taken =>
          Option.some.inj (here.symm.trans taken) ▸ later⟩,
          fun all => ⟨all.1, all.2 next here⟩⟩

variable {I P : Type*} {place : I → P}

theorem update_cases_of [DecidableEq I] {r q : I} {p : P}
    {Q : P → Prop} (here : Q (update place r p q)) :
    q = r ∧ Q p ∨ q ≠ r ∧ Q (place q) := by
  by_cases same : q = r
  · subst same
    rw [update_self] at here
    exact .inl ⟨rfl, here⟩
  · rw [update_of_ne same] at here
    exact .inr ⟨same, here⟩

theorem update_cases [DecidableEq I] {r q : I} {p x : P}
    (here : update place r p q = x) : q = r ∧ p = x ∨ q ≠ r ∧ place q = x :=
  update_cases_of (Q := fun y => y = x) here

theorem of_update [DecidableEq I] {r q : I} {p x : P}
    (here : update place r p q = x) (other : p ≠ x) : place q = x :=
  (update_cases here).elim (fun moved => absurd moved.2 other) And.right

variable {s : S} {actions : List A} {condition : S → A → Prop} {invariant : S → Prop}

theorem run_cons_eq_some {last : S} {a : A} {rest : List A} :
    run step s (a :: rest) = some last ↔
      ∃ next, step s a = some next ∧ run step next rest = some last :=
  Option.bind_eq_some_iff

theorem Throughout.and {first second : S → A → Prop}
    (one : Throughout step first s actions) (two : Throughout step second s actions) :
    Throughout step (fun s a => first s a ∧ second s a) s actions := by
  induction actions generalizing s with
  | nil => trivial
  | cons _ _ ih =>
    exact ⟨⟨one.1, two.1⟩, fun next taken => ih (one.2 next taken) (two.2 next taken)⟩

theorem Throughout.mono {weaker : S → A → Prop}
    (implies : ∀ {s a}, condition s a → weaker s a) (holds : Throughout step condition s actions) :
    Throughout step weaker s actions := by
  induction actions generalizing s with
  | nil => trivial
  | cons _ _ ih => exact ⟨implies holds.1, fun next taken => ih (holds.2 next taken)⟩

theorem run_total {next : S → A → S} :
    run (fun s a => some (next s a)) s actions = some (actions.foldl next s) := by
  induction actions generalizing s with
  | nil => rfl
  | cons _ _ ih => exact ih

section

variable (keeps : ∀ {s a next}, invariant s → condition s a → step s a = some next → invariant next)
include keeps

/-- **What every step under a condition keeps, a run under the condition keeps.** -/
theorem invariant_of_run_throughout
    {last : S} (initially : invariant s) (throughout : Throughout step condition s actions)
    (ran : run step s actions = some last) : invariant last := by
  induction actions generalizing s with
  | nil =>
    cases ran
    exact initially
  | cons _ _ ih =>
    obtain ⟨next, taken, remaining⟩ := run_cons_eq_some.mp ran
    exact ih (keeps initially throughout.1 taken) (throughout.2 next taken) remaining

/-- **What an invariant gives at one step, a run gives at every step.** -/
theorem throughout_of_invariant {property : S → A → Prop}
    (gives : ∀ {s a}, invariant s → condition s a → property s a) (initially : invariant s)
    (throughout : Throughout step condition s actions) : Throughout step property s actions := by
  induction actions generalizing s with
  | nil => trivial
  | cons _ _ ih =>
    refine ⟨gives initially throughout.1, fun next taken => ?_⟩
    exact ih (keeps initially throughout.1 taken) (throughout.2 next taken)

end

theorem throughout_of_forall {condition : A → Prop} (all : ∀ a ∈ actions, condition a) :
    Throughout step (fun _ a => condition a) s actions := by
  induction actions generalizing s with
  | nil => trivial
  | cons a _ ih =>
    refine ⟨all a List.mem_cons_self, fun next _ => ?_⟩
    exact ih fun b later => all b (List.mem_cons_of_mem a later)

end TheAuth.Library.Run
