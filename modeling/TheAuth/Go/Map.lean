import Mathlib.Data.List.AList

/-!
# Go maps

A Go map is a finite set of entries with distinct keys. The model keeps them in a list: a fact that
depends on its order is a fact about one possible iteration.
-/

set_option autoImplicit false

namespace TheAuth.Go

open List

abbrev GoMap (κ ν : Type*) := AList (fun _ : κ => ν)

namespace GoMap

variable {κ ν : Type*} [DecidableEq κ]

theorem lookup_insert_eq (m : GoMap κ ν) (key other : κ) (value : ν) :
    (AList.insert key value m).lookup other =
      if other = key then some value else m.lookup other := by
  by_cases same : other = key
  · subst same
    rw [if_pos rfl]
    exact AList.lookup_insert m
  · rw [if_neg same]
    exact AList.lookup_insert_ne same

variable {m : GoMap κ ν}

theorem of_lookup_insert {key other : κ} {value found : ν}
    (here : (AList.insert key value m).lookup other = some found) :
    other = key ∧ value = found ∨ other ≠ key ∧ m.lookup other = some found := by
  rw [lookup_insert_eq] at here
  split at here
  · exact .inl ⟨‹_›, Option.some.inj here⟩
  · exact .inr ⟨‹_›, here⟩

theorem perm_of_lookup_eq {m m' : GoMap κ ν} (same : ∀ key, m.lookup key = m'.lookup key) :
    m.entries.Perm m'.entries := by
  refine lookup_ext m.nodupKeys m'.nodupKeys fun key value => ?_
  exact iff_of_eq (congrArg (value ∈ ·) (same key))

variable {key : κ} {value : ν}

theorem lookup_of_lookup_erase {other : κ}
    (here : (AList.erase key m).lookup other = some value) : m.lookup other = some value := by
  by_cases same : other = key
  · rw [same, AList.lookup_erase] at here
    cases here
  · rwa [AList.lookup_erase_ne same] at here

def constant (keys : List κ) (value : ν) : GoMap κ ν :=
  keys.foldr (fun key rest => AList.insert key value rest) ∅

theorem lookup_constant {keys : List κ} (member : key ∈ keys) (value : ν) :
    (constant keys value).lookup key = some value := by
  induction keys with
  | nil => cases member
  | cons first rest ih =>
    by_cases same : key = first
    · subst same
      exact AList.lookup_insert _
    · have later : key ∈ rest := (mem_cons.mp member).resolve_left same
      exact (AList.lookup_insert_ne same).trans (ih later)

def keepWhere (m : GoMap κ ν) (keep : ν → Bool) : GoMap κ ν :=
  ⟨m.entries.filter fun entry => keep entry.2, m.nodupKeys.sublist List.filter_sublist⟩

theorem lookup_keepWhere {keep : ν → Bool} :
    (m.keepWhere keep).lookup key = some value ↔ m.lookup key = some value ∧ keep value = true := by
  rw [← Option.mem_def, ← Option.mem_def, AList.mem_lookup_iff, AList.mem_lookup_iff]
  exact mem_filter

def find? (m : GoMap κ ν) (holds : ν → Bool) : Option (κ × ν) :=
  (m.entries.find? fun entry => holds entry.2).map fun entry => (entry.1, entry.2)

variable {holds : ν → Bool}

theorem find?_eq_some (found : m.find? holds = some (key, value)) :
    m.lookup key = some value ∧ holds value = true := by
  obtain ⟨⟨_, _⟩, first, same⟩ := Option.map_eq_some_iff.mp found
  cases same
  refine ⟨AList.mem_lookup_iff.mpr (mem_of_find?_eq_some first), ?_⟩
  have holds := find?_some first
  exact holds

theorem find?_eq_none (found : m.find? holds = none)
    (here : m.lookup key = some value) : holds value = false := by
  have none_ := List.find?_eq_none.mp (Option.map_eq_none_iff.mp found)
  exact Bool.eq_false_iff.mpr (none_ ⟨key, value⟩ (AList.mem_lookup_iff.mp here))

theorem find?_insert (own : holds value = true) :
    find? (AList.insert key value m) holds = some (key, value) := by
  have first : (AList.insert key value m).entries.find? (fun entry => holds entry.2) =
      some ⟨key, value⟩ := find?_cons_of_pos own
  rw [find?, first, Option.map_some]

def values (m : GoMap κ ν) : List ν := m.entries.map fun entry => entry.2

theorem mem_values :
    value ∈ m.values ↔ ∃ key, m.lookup key = some value := by
  constructor
  · intro listed
    obtain ⟨⟨key, _⟩, stored, rfl⟩ := mem_map.mp listed
    exact ⟨key, AList.mem_lookup_iff.mpr stored⟩
  · rintro ⟨key, here⟩
    exact mem_map.mpr ⟨⟨key, value⟩, AList.mem_lookup_iff.mp here, rfl⟩

theorem values_erase (here : m.lookup key = some value) :
    ∃ before after, m.values = before ++ value :: after ∧
      values (AList.erase key m) = before ++ after := by
  have stored : (⟨key, value⟩ : Sigma fun _ => ν) ∈ m.entries := AList.mem_lookup_iff.mp here
  obtain ⟨found, before, after, -, whole, rest⟩ := exists_of_kerase (mem_keys_of_mem stored)
  have again : m.lookup key = some found :=
    AList.mem_lookup_iff.mpr (whole ▸ mem_append_right _ mem_cons_self)
  obtain rfl : found = value := Option.some.inj (again.symm.trans here)
  refine ⟨before.map (·.2), after.map (·.2), ?_, ?_⟩
  · rw [values, whole, map_append, map_cons]
  · rw [← map_append, ← rest]
    rfl

def mapValues (change : ν → ν) (m : GoMap κ ν) : GoMap κ ν :=
  ⟨m.entries.map (Sigma.map id fun _ => change), m.nodupKeys.map₂ fun _ => change⟩

theorem lookup_mapValues (change : ν → ν) (m : GoMap κ ν) (key : κ) :
    (m.mapValues change).lookup key = (m.lookup key).map change :=
  dlookup_map₂ key

def deleteWhere (m : GoMap κ ν) (drop : κ → ν → Bool) : GoMap κ ν :=
  ⟨m.entries.filter fun entry => !drop entry.1 entry.2, m.nodupKeys.sublist (List.filter_sublist)⟩

theorem lookup_deleteWhere (m : GoMap κ ν) (drop : κ → ν → Bool) :
    (m.deleteWhere drop).lookup key = some value ↔
      m.lookup key = some value ∧ drop key value = false := by
  have entry : ∀ table : GoMap κ ν,
      table.lookup key = some value ↔ (⟨key, value⟩ : Sigma fun _ : κ => ν) ∈ table.entries :=
    fun _ => AList.mem_lookup_iff
  rw [entry, entry]
  unfold deleteWhere
  rw [mem_filter, Bool.not_eq_true']

/-- Each value stands under its own key. -/
def Keyed (keyOf : ν → κ) (m : GoMap κ ν) : Prop :=
  ∀ ⦃key value⦄, m.lookup key = some value → keyOf value = key

namespace Keyed

variable {keyOf : ν → κ} {m : GoMap κ ν}

theorem empty : Keyed keyOf (∅ : GoMap κ ν) := nofun

section

variable (keyed : Keyed keyOf m)
include keyed

theorem insert {key : κ} {value : ν} (own : keyOf value = key) :
    Keyed keyOf (AList.insert key value m) := by
  intro _ _ here
  obtain ⟨same, rfl⟩ | ⟨-, here⟩ := of_lookup_insert here
  · rw [own, same]
  · exact keyed here

theorem mapValues {change : ν → ν}
    (kept : ∀ value, keyOf (change value) = keyOf value) : Keyed keyOf (m.mapValues change) := by
  intro _ _ here
  rw [lookup_mapValues] at here
  obtain ⟨_, stored, rfl⟩ := Option.map_eq_some_iff.mp here
  rw [kept, keyed stored]

theorem erase (key : κ) : Keyed keyOf (AList.erase key m) :=
  fun _ _ here => keyed (lookup_of_lookup_erase here)

theorem nodup_values : m.values.Nodup := by
  have keys : m.values.map keyOf = m.keys := by
    unfold values AList.keys keys
    rw [map_map]
    refine map_congr_left fun entry listed => ?_
    exact keyed (AList.mem_lookup_iff.mpr listed)
  exact .of_map keyOf (keys ▸ m.nodupKeys)

end

end Keyed

/-- The map has the values of the keys with the property, and no others. -/
def Tabulates (keys : List κ) (property : κ → Bool) (valueOf : κ → ν) (m : GoMap κ ν) : Prop :=
  ∀ key value, m.lookup key = some value ↔ (key ∈ keys ∧ property key = true) ∧ valueOf key = value

namespace Tabulates

variable {keys : List κ} {property : κ → Bool} {valueOf : κ → ν} {m : GoMap κ ν}

theorem empty : Tabulates [] property valueOf (∅ : GoMap κ ν) :=
  fun _ _ => ⟨nofun, fun listed => (nomatch listed.1.1)⟩

section

variable (table : Tabulates keys property valueOf m)
include table

theorem insert {key : κ} (holds : property key = true) :
    Tabulates (keys ++ [key]) property valueOf (AList.insert key (valueOf key) m) := by
  intro other value
  rw [lookup_insert_eq]
  by_cases same : other = key
  · simp [same, holds]
  · rw [if_neg same, table other value]
    simp [same]

theorem skip {key : κ} (fails : property key = false) :
    Tabulates (keys ++ [key]) property valueOf m := by
  intro other value
  rw [table other value]
  by_cases same : other = key
  · simp [same, fails]
  · simp [same]

theorem length_entries (distinct : keys.Nodup) :
    m.entries.length = (keys.filter property).length := by
  have same : m.keys.Perm (keys.filter property) := by
    refine (perm_ext_iff_of_nodup m.keys_nodup (distinct.filter _)).mpr fun key => ?_
    rw [mem_filter, ← AList.mem_keys, ← AList.lookup_isSome, Option.isSome_iff_exists]
    exact ⟨fun ⟨value, here⟩ => ((table key value).mp here).1,
      fun listed => ⟨_, (table key _).mpr ⟨listed, rfl⟩⟩⟩
  rw [← same.length_eq, AList.keys, List.keys, length_map]

end

end Tabulates

end GoMap

end TheAuth.Go
