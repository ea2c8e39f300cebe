import Mathlib.Data.List.Basic

/-!
# Attenuation

An operation that narrows a request to a grant, or refuses it. What it returns is covered by the
grant, narrowing it again changes nothing, and a grant that takes the result takes the request.
These laws pass on to lists, where every request is narrowed to the first grant that takes it.
-/

set_option autoImplicit false

namespace TheAuth.Library

open List Option

universe u

variable {α : Type u} {narrow : α → α → Option α} {Covers : α → α → Prop}

/-- The laws of narrowing requests to grants. -/
structure Attenuates (narrow : α → α → Option α) (Covers : α → α → Prop) : Prop where
  covered : ∀ {request grant result}, narrow request grant = some result → Covers result grant
  stable : ∀ {request grant result}, narrow request grant = some result →
    narrow result grant = some result
  taken : ∀ {request grant result other}, narrow request grant = some result →
    (narrow result other).isSome = true → (narrow request other).isSome = true
  trans : ∀ {a b c}, Covers a b → Covers b c → Covers a c

def narrowFirst (narrow : α → α → Option α) (grants : List α) (request : α) : Option α :=
  grants.findSome? (narrow request)

def narrowAll (narrow : α → α → Option α) (requests grants : List α) : Option (List α) :=
  requests.mapM (narrowFirst narrow grants)

variable {requests grants results : List α}

theorem narrowAll_cons_eq_some {request : α} :
    narrowAll narrow (request :: requests) grants = some results ↔
      ∃ first others, narrowFirst narrow grants request = some first ∧
        narrowAll narrow requests grants = some others ∧ results = first :: others := by
  rw [narrowAll, mapM_cons]
  constructor
  · intro done
    obtain ⟨first, found, done⟩ := Option.bind_eq_some_iff.mp done
    obtain ⟨others, remaining, same⟩ := Option.bind_eq_some_iff.mp done
    cases same
    exact ⟨first, others, found, remaining, rfl⟩
  · rintro ⟨first, others, found, remaining, rfl⟩
    exact Option.bind_eq_some_iff.mpr
      ⟨first, found, Option.bind_eq_some_iff.mpr ⟨others, remaining, rfl⟩⟩

theorem length_narrowAll (done : narrowAll narrow requests grants = some results) :
    results.length = requests.length := by
  induction requests generalizing results with
  | nil =>
    cases done
    rfl
  | cons _ _ ih =>
    obtain ⟨_, _, -, remaining, rfl⟩ := narrowAll_cons_eq_some.mp done
    rw [length_cons, length_cons, ih remaining]

namespace Attenuates

variable (laws : Attenuates narrow Covers) {grants : List α}

include laws

theorem narrowFirst_covered {request result : α}
    (done : narrowFirst narrow grants request = some result) :
    ∃ grant ∈ grants, Covers result grant := by
  obtain ⟨grant, listed, narrowed⟩ := exists_of_findSome?_eq_some done
  exact ⟨grant, listed, laws.covered narrowed⟩

theorem narrowFirst_stable {request result : α}
    (done : narrowFirst narrow grants request = some result) :
    narrowFirst narrow grants result = some result := by
  induction grants with
  | nil => cases done
  | cons grant _ ih =>
    rw [narrowFirst, findSome?_cons] at done ⊢
    cases here : narrow request grant with
    | some =>
      rw [here] at done
      cases done
      rw [laws.stable here]
    | none =>
      rw [here] at done
      obtain ⟨_, -, narrowed⟩ := exists_of_findSome?_eq_some done
      have refused : narrow result grant = none := by
        rw [← not_isSome_iff_eq_none]
        intro taken
        have too := laws.taken narrowed taken
        rw [here] at too
        cases too
      rw [refused]
      exact ih done

variable {requests results : List α}

theorem narrowAll_covered (done : narrowAll narrow requests grants = some results) :
    ∀ result ∈ results, ∃ grant ∈ grants, Covers result grant := by
  induction requests generalizing results with
  | nil =>
    cases done
    exact nofun
  | cons _ _ ih =>
    obtain ⟨_, _, found, remaining, rfl⟩ := narrowAll_cons_eq_some.mp done
    rw [forall_mem_cons]
    exact ⟨laws.narrowFirst_covered found, ih remaining⟩

theorem narrowAll_stable (done : narrowAll narrow requests grants = some results) :
    narrowAll narrow results grants = some results := by
  induction requests generalizing results with
  | nil =>
    cases done
    rfl
  | cons _ _ ih =>
    obtain ⟨first, others, found, remaining, rfl⟩ := narrowAll_cons_eq_some.mp done
    exact narrowAll_cons_eq_some.mpr
      ⟨first, others, laws.narrowFirst_stable found, ih remaining, rfl⟩

theorem narrowAll_narrowAll {requests results requests' results' : List α}
    (first : narrowAll narrow requests grants = some results)
    (second : narrowAll narrow requests' results = some results') :
    ∀ result ∈ results', ∃ grant ∈ grants, Covers result grant := by
  intro result listed
  obtain ⟨middle, between, covered⟩ := laws.narrowAll_covered second result listed
  obtain ⟨grant, granted, above⟩ := laws.narrowAll_covered first middle between
  exact ⟨grant, granted, laws.trans covered above⟩

omit laws in
theorem of_inherit {absent : α} {Within : α → α → Prop} (refl : ∀ a, Within a a)
    (trans : ∀ {a b c}, Within a b → Within b c → Within a c)
    (spec : ∀ {request grant result}, narrow request grant = some result ↔
      request = absent ∧ result = grant ∨
        request ≠ absent ∧ result = request ∧ (grant = absent ∨ Within request grant)) :
    Attenuates narrow fun value grant => grant = absent ∨ value ≠ absent ∧ Within value grant where
  covered := by
    intro request grant result done
    rcases spec.mp done with ⟨-, rfl⟩ | ⟨given, rfl, open_ | within⟩
    · exact (em (result = absent)).imp_right fun given => ⟨given, refl result⟩
    · exact .inl open_
    · exact .inr ⟨given, within⟩
  stable := by
    intro request grant result done
    rcases spec.mp done with ⟨-, rfl⟩ | ⟨given, rfl, allowed⟩
    · exact spec.mpr ((em (result = absent)).imp (fun omitted => ⟨omitted, rfl⟩)
        fun given => ⟨given, rfl, .inr (refl result)⟩)
    · exact spec.mpr (.inr ⟨given, rfl, allowed⟩)
  taken := by
    intro _ _ _ _ done taken
    rcases spec.mp done with ⟨omitted, -⟩ | ⟨-, rfl, -⟩
    · exact isSome_of_eq_some (spec.mpr (.inl ⟨omitted, rfl⟩))
    · exact taken
  trans := by
    rintro _ _ _ first (open_ | ⟨given, within⟩)
    · exact .inl open_
    · rcases first with absent_ | ⟨given', within'⟩
      · exact absurd absent_ given
      · exact .inr ⟨given', trans within' within⟩

end Attenuates

end TheAuth.Library
