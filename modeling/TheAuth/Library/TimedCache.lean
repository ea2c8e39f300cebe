import Mathlib.Data.List.AList
import Mathlib.Order.Lattice

/-!
# Caches whose entries expire

What is served was put there at most a lifetime ago. What was put is a predicate of the key, the
value and the time, where a client of the cache says what it knows of a value.
-/

set_option autoImplicit false

namespace TheAuth.Library

open AList

universe u v w

abbrev TimedCache (κ : Type u) (ν : Type v) (T : Type w) := AList fun _ : κ => ν × T

namespace TimedCache

variable {κ : Type u} {ν : Type v} {T : Type w} [DecidableEq κ] [Add T]

def set (cache : TimedCache κ ν T) (now ttl : T) (key : κ) (value : ν) :
    TimedCache κ ν T :=
  cache.insert key (value, now + ttl)

/-- Every entry was put, and expires when its time is over. -/
def Filled (ttl : T) (Put : κ → ν → T → Prop) (cache : TimedCache κ ν T) : Prop :=
  ∀ ⦃key value expiresAt⦄, cache.lookup key = some (value, expiresAt) →
    ∃ time, expiresAt = time + ttl ∧ Put key value time

variable {ttl now : T} {Put Put' : κ → ν → T → Prop} {cache : TimedCache κ ν T} {key : κ}

theorem filled_empty : Filled ttl Put (∅ : TimedCache κ ν T) := nofun

theorem Filled.mono (filled : Filled ttl Put cache)
    (later : ∀ key value time, Put key value time → Put' key value time) :
    Filled ttl Put' cache := by
  intro key value _ here
  obtain ⟨time, same, put⟩ := filled here
  exact ⟨time, same, later key value time put⟩

theorem Filled.set (filled : Filled ttl Put cache) {value : ν} (put : Put key value now) :
    Filled ttl Put (cache.set now ttl key value) := by
  intro key' _ _ here
  unfold TimedCache.set at here
  by_cases same : key' = key
  · subst same
    rw [lookup_insert] at here
    cases here
    exact ⟨now, rfl, put⟩
  · rw [lookup_insert_ne same] at here
    exact filled here

variable [LinearOrder T]

def get (cache : TimedCache κ ν T) (now : T) (key : κ) : Option ν × TimedCache κ ν T :=
  match cache.lookup key with
  | none => (none, cache)
  | some (value, expiresAt) =>
    if expiresAt < now then (none, cache.erase key) else (some value, cache)

theorem Filled.get (filled : Filled ttl Put cache) (now : T) (key : κ) :
    Filled ttl Put (cache.get now key).2 := by
  unfold TimedCache.get
  split
  · exact filled
  split
  · intro key' _ _ here
    by_cases same : key' = key
    · subst same
      rw [lookup_erase] at here
      cases here
    · rw [lookup_erase_ne same] at here
      exact filled here
  · exact filled

theorem Filled.of_get (filled : Filled ttl Put cache) {value : ν}
    (served : (cache.get now key).1 = some value) :
    ∃ time, now ≤ time + ttl ∧ Put key value time := by
  unfold TimedCache.get at served
  split at served
  · cases served
  rename_i here
  split at served <;> cases served
  rename_i early
  obtain ⟨time, same, put⟩ := filled here
  exact ⟨time, same ▸ not_lt.mp early, put⟩

end TimedCache

end TheAuth.Library
