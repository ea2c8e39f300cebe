import Mathlib.Data.List.Pairwise

/-!
# Maps as sorted lists

A map is the list of its entries in strictly increasing order of their keys, so maps with the same
lookups are equal.
-/

set_option autoImplicit false

namespace TheAuth.Library

open List

universe u v

class KeyOrder (κ : Type u) [LT κ] : Prop where
  irrefl : ∀ a : κ, ¬ a < a
  trans : ∀ {a b c : κ}, a < b → b < c → a < c
  trichotomy : ∀ a b : κ, a < b ∨ a = b ∨ b < a

/-- A map in the order of its keys. -/
structure SortedMap (κ : Type u) (ν : Type v) [LT κ] where
  entries : List (κ × ν)
  sorted : entries.Pairwise fun a b => a.1 < b.1

namespace SortedMap

variable {κ : Type u} {ν : Type v}

section

variable [DecidableEq κ]

def lookupIn (key : κ) : List (κ × ν) → Option ν
  | [] => none
  | (k, value) :: rest => if k = key then some value else lookupIn key rest

variable {entries : List (κ × ν)} {key : κ} {value : ν}

theorem mem_of_lookupIn (found : lookupIn key entries = some value) : (key, value) ∈ entries := by
  induction entries with
  | nil => cases found
  | cons entry _ ih =>
    obtain ⟨_, _⟩ := entry
    rw [lookupIn] at found
    split at found
    next same =>
      cases found
      rw [same]
      exact mem_cons_self
    · exact mem_cons_of_mem _ (ih found)

theorem lookupIn_eq_none
    (absent : ∀ entry ∈ entries, entry.1 ≠ key) : lookupIn key entries = none := by
  induction entries with
  | nil => rfl
  | cons _ _ ih =>
    rw [forall_mem_cons] at absent
    rw [lookupIn, if_neg absent.1]
    exact ih absent.2

end

variable [LT κ] {m : SortedMap κ ν} {entries : List (κ × ν)}

theorem ext_entries {m' : SortedMap κ ν} (same : m.entries = m'.entries) : m = m' := by
  cases m
  cases same
  rfl

instance : EmptyCollection (SortedMap κ ν) := ⟨⟨[], .nil⟩⟩

theorem sorted_map {ν' : Type*} (f : ν → ν') (m : SortedMap κ ν) :
    (m.entries.map fun entry => (entry.1, f entry.2)).Pairwise fun a b => a.1 < b.1 :=
  pairwise_map.mpr m.sorted

variable [DecidableEq κ]

def lookup (m : SortedMap κ ν) (key : κ) : Option ν := lookupIn key m.entries

theorem lookup_empty (key : κ) : (∅ : SortedMap κ ν).lookup key = none := rfl

variable [DecidableLT κ]

def insertIn (key : κ) (value : ν) : List (κ × ν) → List (κ × ν)
  | [] => [(key, value)]
  | (k, other) :: rest =>
    if k < key then (k, other) :: insertIn key value rest
    else if k = key then (key, value) :: rest
    else (key, value) :: (k, other) :: rest

theorem mem_insertIn {key : κ} {value : ν} {entry : κ × ν}
    (inside : entry ∈ insertIn key value entries) : entry = (key, value) ∨ entry ∈ entries := by
  induction entries with
  | nil => exact .inl (mem_singleton.mp inside)
  | cons _ _ ih =>
    rw [insertIn] at inside
    split at inside
    · rcases mem_cons.mp inside with same | later
      · exact .inr (same ▸ mem_cons_self)
      · exact (ih later).imp_right (mem_cons_of_mem _)
    split at inside
    · exact (mem_cons.mp inside).imp_right (mem_cons_of_mem _)
    · exact mem_cons.mp inside

variable [KeyOrder κ]

theorem sorted_insertIn (key : κ) (value : ν) (sorted : entries.Pairwise fun a b => a.1 < b.1) :
    (insertIn key value entries).Pairwise fun a b => a.1 < b.1 := by
  induction entries with
  | nil => exact pairwise_singleton _ _
  | cons first rest ih =>
    obtain ⟨below, ordered⟩ := pairwise_cons.mp sorted
    rw [insertIn]
    split
    next less =>
      refine pairwise_cons.mpr ⟨fun entry inside => ?_, ih ordered⟩
      rcases mem_insertIn inside with rfl | later
      · exact less
      · exact below entry later
    rename_i notLess
    split
    next same => exact pairwise_cons.mpr ⟨fun entry inside => same ▸ below entry inside, ordered⟩
    rename_i other
    have less : key < first.1 :=
      ((KeyOrder.trichotomy first.1 key).resolve_left notLess).resolve_left other
    refine pairwise_cons.mpr ⟨fun entry inside => ?_, sorted⟩
    rcases mem_cons.mp inside with rfl | later
    · exact less
    · exact KeyOrder.trans less (below entry later)

theorem lookupIn_insertIn (key other : κ) (value : ν) (entries : List (κ × ν)) :
    lookupIn other (insertIn key value entries) =
      if other = key then some value else lookupIn other entries := by
  induction entries with
  | nil =>
    by_cases same : other = key
    · rw [if_pos same]
      exact if_pos same.symm
    · rw [if_neg same]
      exact if_neg (Ne.symm same)
  | cons _ _ ih =>
    rw [insertIn]
    by_cases same : other = key
    · subst same
      rw [if_pos rfl] at ih ⊢
      split
      next less =>
        rw [lookupIn, if_neg, ih]
        intro same
        rw [same] at less
        exact KeyOrder.irrefl _ less
      · split <;> rw [lookupIn, if_pos rfl]
    · rw [if_neg same] at ih ⊢
      split
      · rw [lookupIn, lookupIn, ih]
      split
      next here => rw [lookupIn, lookupIn, if_neg (Ne.symm same), here, if_neg (Ne.symm same)]
      · rw [lookupIn, if_neg (Ne.symm same)]

def insert (m : SortedMap κ ν) (key : κ) (value : ν) : SortedMap κ ν :=
  ⟨insertIn key value m.entries, sorted_insertIn key value m.sorted⟩

theorem lookup_insert (m : SortedMap κ ν) (key other : κ) (value : ν) :
    (m.insert key value).lookup other = if other = key then some value else m.lookup other :=
  lookupIn_insertIn key other value m.entries

omit [DecidableLT κ] in
theorem lookupIn_of_mem {key : κ} {value : ν}
    (sorted : entries.Pairwise fun a b => a.1 < b.1) (inside : (key, value) ∈ entries) :
    lookupIn key entries = some value := by
  induction entries with
  | nil => cases inside
  | cons entry _ ih =>
    obtain ⟨below, ordered⟩ := pairwise_cons.mp sorted
    obtain ⟨_, _⟩ := entry
    rw [lookupIn]
    rcases mem_cons.mp inside with same | later
    · cases same
      rw [if_pos rfl]
    · rw [if_neg, ih ordered later]
      intro same
      exact KeyOrder.irrefl key (same ▸ below _ later)

omit [DecidableLT κ] in
theorem mem_entries_iff {m : SortedMap κ ν} {key : κ} {value : ν} :
    (key, value) ∈ m.entries ↔ m.lookup key = some value :=
  ⟨lookupIn_of_mem m.sorted, mem_of_lookupIn⟩

omit [DecidableLT κ] in
theorem ext_lookup {m' : SortedMap κ ν} (same : ∀ key, m.lookup key = m'.lookup key) : m = m' := by
  have members : ∀ entry : κ × ν, entry ∈ m.entries ↔ entry ∈ m'.entries := by
    rintro ⟨_, _⟩
    rw [mem_entries_iff, mem_entries_iff, same]
  have distinct : ∀ m : SortedMap κ ν, m.entries.Nodup := by
    intro m
    refine m.sorted.imp fun {a b} less equal => ?_
    rw [equal] at less
    exact KeyOrder.irrefl _ less
  refine ext_entries (List.Perm.eq_of_pairwise ?_ m.sorted m'.sorted
    ((perm_ext_iff_of_nodup (distinct m) (distinct m')).mpr members))
  intro _ _ _ _ less greater
  exact absurd (KeyOrder.trans less greater) (KeyOrder.irrefl _)

def insertAll (m : SortedMap κ ν) (entries : List (κ × ν)) : SortedMap κ ν :=
  entries.foldl (fun m entry => m.insert entry.1 entry.2) m

theorem lookup_insertAll (m : SortedMap κ ν)
    (sorted : entries.Pairwise fun a b => a.1 < b.1) (key : κ) :
    (m.insertAll entries).lookup key = (lookupIn key entries).or (m.lookup key) := by
  induction entries generalizing m with
  | nil => rfl
  | cons entry rest ih =>
    obtain ⟨below, ordered⟩ := pairwise_cons.mp sorted
    obtain ⟨k, _⟩ := entry
    rw [insertAll, foldl_cons, ← insertAll, ih _ ordered, lookup_insert, lookupIn]
    by_cases same : k = key
    · have absent : lookupIn key rest = none :=
        lookupIn_eq_none fun entry inside equal => KeyOrder.irrefl key (by
          have less := below entry inside
          rwa [equal, same] at less)
      rw [if_pos same, if_pos same.symm, absent]
      rfl
    · rw [if_neg same, if_neg (Ne.symm same)]

theorem insertAll_entries (m : SortedMap κ ν) : insertAll ∅ m.entries = m := by
  refine ext_lookup fun key => ?_
  rw [lookup_insertAll _ m.sorted, lookup_empty, Option.or_none]
  rfl

theorem mem_insertAll {entry : κ × ν}
    (inside : entry ∈ (m.insertAll entries).entries) : entry ∈ m.entries ∨ entry ∈ entries := by
  induction entries generalizing m with
  | nil => exact .inl inside
  | cons _ _ ih =>
    rcases ih inside with before | later
    · rcases mem_insertIn before with rfl | earlier
      · exact .inr mem_cons_self
      · exact .inl earlier
    · exact .inr (mem_cons_of_mem _ later)

section

variable {ν' : Type*}

def map (f : ν → ν') (m : SortedMap κ ν) : SortedMap κ ν' :=
  ⟨m.entries.map fun entry => (entry.1, f entry.2), sorted_map f m⟩

omit [DecidableLT κ] [KeyOrder κ] in
theorem lookup_map (f : ν → ν') (m : SortedMap κ ν) (key : κ) :
    (m.map f).lookup key = (m.lookup key).map f := by
  change lookupIn key (m.entries.map _) = (lookupIn key m.entries).map f
  induction m.entries with
  | nil => rfl
  | cons _ _ ih =>
    rw [map_cons, lookupIn, lookupIn]
    split
    · rfl
    · exact ih

def filterKeys (p : κ → Bool) (m : SortedMap κ ν) : SortedMap κ ν :=
  ⟨m.entries.filter fun entry => p entry.1, m.sorted.filter _⟩

omit [DecidableLT κ] [KeyOrder κ] in
theorem lookup_filterKeys (p : κ → Bool) (m : SortedMap κ ν) (key : κ) :
    (m.filterKeys p).lookup key = if p key then m.lookup key else none := by
  change lookupIn key (m.entries.filter _) = if p key then lookupIn key m.entries else none
  induction m.entries with
  | nil => exact (ite_self none).symm
  | cons entry _ ih =>
    obtain ⟨k, _⟩ := entry
    rw [filter_cons]
    by_cases same : k = key
    · subst same
      by_cases kept : p k = true
      · rw [if_pos kept, if_pos kept, lookupIn, lookupIn, if_pos rfl, if_pos rfl]
      · rw [if_neg kept, ih, if_neg kept, if_neg kept]
    · by_cases kept : p k = true
      · rw [if_pos kept, lookupIn, lookupIn, if_neg same, if_neg same, ih]
      · rw [if_neg kept, lookupIn, if_neg same, ih]

end

end SortedMap

end TheAuth.Library
