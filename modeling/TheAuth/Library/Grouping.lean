import Mathlib.Data.List.Basic
import Mathlib.Data.List.Induction

/-!
# Grouping items by a key

A loop that puts each item into the group of its key computes one group for each key, made of the
items with that key in their order.
-/

set_option autoImplicit false

namespace TheAuth.Library.Grouping

open List Prod

variable {A K G : Type*} [DecidableEq K]

def join (groups : List (K × G)) (key : K) (opened : G) (joined : G → G) : List (K × G) :=
  if groups.any fun entry => entry.1 == key then
    groups.map fun entry => if entry.1 = key then (entry.1, joined entry.2) else entry
  else groups ++ [(key, opened)]

def groupBy (key : A → K) (opened : A → G) (joined : G → A → G) (items : List A) : List (K × G) :=
  items.foldl (fun groups a => join groups (key a) (opened a) (joined · a)) []

section

variable {groups : List (K × G)} {key other : K} {opened group : G} {joined : G → G}

theorem mem_join_of_mem (present : key ∈ groups.map Prod.fst) :
    (other, group) ∈ join groups key opened joined ↔
      if other = key then ∃ old, (key, old) ∈ groups ∧ joined old = group
      else (other, group) ∈ groups := by
  have found : (groups.any fun entry => entry.1 == key) = true := by
    obtain ⟨entry, inside, same⟩ := mem_map.mp present
    exact any_eq_true.mpr ⟨entry, inside, by simp [same]⟩
  rw [join, if_pos found, mem_map]
  constructor
  · rintro ⟨⟨k, old⟩, inside, equal⟩
    split at equal
    next same =>
      obtain ⟨rfl, rfl⟩ := Prod.mk.inj equal
      rw [if_pos same, ← same]
      exact ⟨old, inside, rfl⟩
    rename_i differs
    obtain ⟨rfl, rfl⟩ := Prod.mk.inj equal
    rwa [if_neg differs]
  · intro described
    split at described
    next same =>
      obtain ⟨old, inside, rfl⟩ := described
      exact ⟨(key, old), inside, by rw [if_pos rfl, same]⟩
    next differs => exact ⟨(other, group), described, by rw [if_neg differs]⟩

theorem mem_join_of_notMem (absent : key ∉ groups.map Prod.fst) :
    (other, group) ∈ join groups key opened joined ↔
      (other, group) ∈ groups ∨ other = key ∧ group = opened := by
  have missing : ¬ (groups.any fun entry => entry.1 == key) = true := by
    intro found
    obtain ⟨entry, inside, same⟩ := any_eq_true.mp found
    exact absent (mem_map.mpr ⟨entry, inside, by simpa using same⟩)
  rw [join, if_neg missing, mem_append, mem_singleton, mk.injEq]

end

variable {key : A → K} {opened : A → G} {joined : G → A → G}

theorem groupBy_concat (items : List A) (a : A) :
    groupBy key opened joined (items ++ [a]) =
      join (groupBy key opened joined items) (key a) (opened a) (joined · a) := by
  rw [groupBy, groupBy, foldl_append, foldl_cons, foldl_nil]

theorem mem_groupBy {items : List A} {k : K} {group : G} :
    (k, group) ∈ groupBy key opened joined items ↔
      ∃ a rest, items.filter (fun item => key item = k) = a :: rest ∧
        group = rest.foldl joined (opened a) := by
  induction items using reverseRecOn generalizing k group with
  | nil => simp [groupBy]
  | append_singleton items a ih =>
    have present : key a ∈ (groupBy key opened joined items).map fst ↔
        items.filter (fun item => key item = key a) ≠ [] := by
      constructor
      · intro inside
        obtain ⟨⟨_, _⟩, inside, rfl⟩ := mem_map.mp inside
        obtain ⟨_, _, filtered, -⟩ := ih.mp inside
        rw [filtered]
        exact cons_ne_nil _ _
      · intro some_
        obtain ⟨first, rest, filtered⟩ := exists_cons_of_ne_nil some_
        exact mem_map.mpr ⟨(key a, _), ih.mpr ⟨first, rest, filtered, rfl⟩, rfl⟩
    rw [groupBy_concat, filter_append]
    by_cases here : key a ∈ (groupBy key opened joined items).map fst
    · rw [mem_join_of_mem here]
      by_cases same : k = key a
      · subst same
        obtain ⟨first, rest, filtered⟩ := exists_cons_of_ne_nil (present.mp here)
        rw [if_pos rfl, filtered]
        constructor
        · rintro ⟨_, inside, rfl⟩
          obtain ⟨_, _, again, rfl⟩ := ih.mp inside
          obtain ⟨rfl, rfl⟩ := cons.inj (filtered.symm.trans again)
          exact ⟨first, rest ++ [a], by simp, by rw [foldl_concat]⟩
        · rintro ⟨_, _, equal, rfl⟩
          simp only [decide_true, filter_cons_of_pos, filter_nil, cons_append] at equal
          obtain ⟨rfl, rfl⟩ := equal
          exact ⟨_, ih.mpr ⟨_, _, filtered, rfl⟩, by rw [foldl_concat]⟩
      · have other : ¬ key a = k := fun equal => same equal.symm
        rw [if_neg same, ih]
        simp [other]
    · rw [mem_join_of_notMem here, ih]
      have none_ : items.filter (fun item => key item = key a) = [] :=
        not_not.mp fun some_ => here (present.mpr some_)
      by_cases same : k = key a
      · subst same
        rw [none_]
        simp [eq_comm]
      · have other : ¬ key a = k := fun equal => same equal.symm
        simp [same, other]

end TheAuth.Library.Grouping
