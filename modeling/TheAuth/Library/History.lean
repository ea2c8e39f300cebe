import Mathlib.Data.List.Pairwise

/-!
# Lawful histories

A law says which answer may follow which history. A history is lawful when every entry was allowed
by the entries before it.
-/

set_option autoImplicit false

namespace TheAuth.Library

open List

universe u

variable {E : Type u}

/-- Every event was allowed by the law at its time. -/
inductive Lawful (Law : List E → E → Prop) : List E → Prop
  | nil : Lawful Law []
  | snoc {history : List E} {e : E} (before : Lawful Law history) (allowed : Law history e) :
      Lawful Law (history ++ [e])

namespace Lawful

variable {Law : List E → E → Prop} {history : List E}

theorem of_split (lawful : Lawful Law history) {front back : List E} {e : E}
    (split : history = front ++ e :: back) : Law front e := by
  induction lawful generalizing back with
  | nil => exact absurd split.symm (append_ne_nil_of_right_ne_nil _ (cons_ne_nil _ _))
  | @snoc _ _ _ allowed ih =>
    rcases eq_nil_or_concat back with rfl | ⟨_, _, rfl⟩
    · obtain ⟨rfl, same⟩ := append_inj' split rfl
      cases same
      exact allowed
    · rw [concat_eq_append, ← cons_append, ← append_assoc] at split
      exact ih (append_inj' split rfl).1

theorem of_mem (lawful : Lawful Law history) {e : E} (listed : e ∈ history) :
    ∃ front back, history = front ++ e :: back ∧ Law front e := by
  obtain ⟨front, back, split⟩ := append_of_mem listed
  exact ⟨front, back, split, lawful.of_split split⟩

theorem pairwise {R : E → E → Prop} (lawful : Lawful Law history)
    (apart : ∀ {history e}, Law history e → ∀ e' ∈ history, R e' e) : history.Pairwise R := by
  induction lawful with
  | nil => exact .nil
  | snoc _ allowed ih =>
    refine pairwise_append.mpr ⟨ih, pairwise_singleton _ _, fun e' listed e last => ?_⟩
    rw [mem_singleton.mp last]
    exact apart allowed e' listed

end Lawful

end TheAuth.Library
