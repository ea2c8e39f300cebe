import TheAuth.Rar.Details
import TheAuth.Library.Attenuation

/-!
# Narrowing authorization details

An attribute that the request omits is inherited, and one that the grant omits is not constrained;
type-specific fields are constrained all together. `Covered` says what it is for one detail to be no
broader than another.
-/

set_option autoImplicit false

namespace TheAuth.Rar

open Go Library SortedMap Option

variable [JsonFloat]

def narrowList (req grant : List Bytes) : Option (List Bytes) :=
  if req = [] then some grant
  else if grant = [] then some req
  else if req.all fun text => grant.contains text then some req
  else none

def narrowIdentifier (req grant : Bytes) : Option Bytes :=
  if req = [] then some grant
  else if grant = [] ∨ grant = req then some req
  else none

def fieldAllowed (grant : SortedMap Bytes Value) (field : Bytes × Value) : Bool :=
  match grant.lookup field.1 with
  | some value => field.2.deepEqual value
  | none => grant.entries.isEmpty

def narrowFields (req grant : SortedMap Bytes Value) : Option (SortedMap Bytes Value) :=
  if req.entries.all (fieldAllowed grant) then some (grant.insertAll req.entries) else none

def narrowOne (r g : Detail) : Option Detail :=
  if r.type ≠ g.type then none else do
    let locations ← narrowList r.locations g.locations
    let actions ← narrowList r.actions g.actions
    let dataTypes ← narrowList r.dataTypes g.dataTypes
    let privileges ← narrowList r.privileges g.privileges
    let identifier ← narrowIdentifier r.identifier g.identifier
    let fields ← narrowFields r.fields g.fields
    return ⟨g.type, locations, actions, dataTypes, identifier, privileges, fields⟩

def narrow (requested granted : List Detail) : Option (List Detail) :=
  narrowAll narrowOne requested granted

/-- The list keeps to a grant, which is empty when it does not limit. -/
def ListCovered (list grant : List Bytes) : Prop := grant = [] ∨ list ≠ [] ∧ list ⊆ grant

def IdentifierCovered (identifier grant : Bytes) : Prop :=
  grant = [] ∨ identifier ≠ [] ∧ identifier = grant

/-- Deeply equal, unless the grant has none. -/
def FieldsCovered (fields grant : SortedMap Bytes Value) : Prop :=
  grant.entries = [] ∨ ∀ name,
    Option.Rel (fun value granted => value.deepEqual granted = true) (fields.lookup name)
      (grant.lookup name)

/-- The detail asks no more than the granted one. -/
structure Covered (e g : Detail) : Prop where
  type : e.type = g.type
  locations : ListCovered e.locations g.locations
  actions : ListCovered e.actions g.actions
  dataTypes : ListCovered e.dataTypes g.dataTypes
  privileges : ListCovered e.privileges g.privileges
  identifier : IdentifierCovered e.identifier g.identifier
  fields : FieldsCovered e.fields g.fields

omit [JsonFloat] in
theorem ListCovered.refl (list : List Bytes) : ListCovered list list := by
  by_cases empty : list = []
  · exact .inl empty
  · exact .inr ⟨empty, List.Subset.refl list⟩

theorem Covered.refl (d : Detail) : Covered d d where
  type := rfl
  locations := .refl _
  actions := .refl _
  dataTypes := .refl _
  privileges := .refl _
  identifier := (eq_or_ne d.identifier []).imp_right fun present => ⟨present, rfl⟩
  fields := by
    refine .inr fun name => ?_
    cases d.fields.lookup name with
    | none => exact .none
    | some value => exact .some (deepEqual_refl value)

section

omit [JsonFloat]

variable {req grant list : List Bytes}

theorem narrowList_eq_some : narrowList req grant = some list ↔
    req = [] ∧ list = grant ∨ req ≠ [] ∧ list = req ∧ (grant = [] ∨ req ⊆ grant) := by
  have within : (req.all fun text => grant.contains text) = true ↔ req ⊆ grant := by
    rw [List.all_eq_true]
    exact forall₂_congr fun text _ => List.contains_iff_mem
  unfold narrowList
  by_cases none_ : req = []
  · simp [none_, eq_comm]
  · by_cases free : grant = []
    · simp [none_, free, eq_comm]
    · by_cases subset : req ⊆ grant
      · rw [if_pos (within.mpr subset)]
        simp [none_, subset, eq_comm]
      · rw [if_neg (mt within.mp subset)]
        simp [none_, subset, free]

theorem attenuates_narrowList : Attenuates narrowList ListCovered :=
  .of_inherit List.Subset.refl List.Subset.trans narrowList_eq_some

theorem narrowIdentifier_eq_some {req grant identifier : Bytes} :
    narrowIdentifier req grant = some identifier ↔
      req = [] ∧ identifier = grant ∨ req ≠ [] ∧ identifier = req ∧ (grant = [] ∨ req = grant) := by
  unfold narrowIdentifier
  by_cases none_ : req = []
  · simp [none_, eq_comm]
  · by_cases allowed : grant = [] ∨ req = grant
    · simp [none_, allowed, eq_comm]
    · rw [if_neg (mt (Or.imp_right Eq.symm) allowed)]
      simp [none_, allowed]

theorem attenuates_narrowIdentifier : Attenuates narrowIdentifier IdentifierCovered :=
  .of_inherit (fun _ => rfl) Eq.trans narrowIdentifier_eq_some

end

theorem narrowFields_eq_some {req grant fields : SortedMap Bytes Value} :
    narrowFields req grant = some fields ↔
      (∀ name value, req.lookup name = some value → fieldAllowed grant (name, value) = true) ∧
        fields = grant.insertAll req.entries := by
  have each : req.entries.all (fieldAllowed grant) = true ↔
      ∀ name value, req.lookup name = some value → fieldAllowed grant (name, value) = true := by
    rw [List.all_eq_true]
    exact ⟨fun all name value found => all _ (mem_entries_iff.mpr found),
      fun all entry inside => all _ _ (mem_entries_iff.mp inside)⟩
  unfold narrowFields
  split
  next all =>
    constructor
    · intro done
      cases done
      exact ⟨each.mp all, rfl⟩
    · rintro ⟨-, rfl⟩
      rfl
  rename_i all
  constructor
  · intro done
    cases done
  · rintro ⟨allowed, -⟩
    exact absurd (each.mpr allowed) all

theorem lookup_over (req grant : SortedMap Bytes Value) (name : Bytes) :
    (grant.insertAll req.entries).lookup name = (req.lookup name).or (grant.lookup name) :=
  lookup_insertAll grant req.sorted name

theorem fieldAllowed_iff {grant : SortedMap Bytes Value} {name : Bytes} {value : Value} :
    fieldAllowed grant (name, value) = true ↔
      (∃ granted, grant.lookup name = some granted ∧ value.deepEqual granted = true) ∨
        grant.lookup name = none ∧ grant.entries = [] := by
  rw [fieldAllowed]
  cases found : grant.lookup name with
  | none | some => simp

theorem FieldsCovered.trans {a b c : SortedMap Bytes Value} (first : FieldsCovered a b)
    (second : FieldsCovered b c) : FieldsCovered a c := by
  rcases second with open_ | same
  · exact .inl open_
  · rcases first with none_ | same'
    · -- A grant whose fields are those of a map without entries has none.
      left
      refine List.eq_nil_iff_forall_not_mem.mpr fun entry inside => ?_
      have related := same entry.1
      have absent : b.lookup entry.1 = none := by rw [lookup, none_]; rfl
      rw [mem_entries_iff.mp inside, absent] at related
      cases related
    · right
      intro name
      have above := same name
      have below := same' name
      generalize a.lookup name = x at below ⊢
      generalize b.lookup name = y at below above
      generalize c.lookup name = z at above ⊢
      cases below with
      | none => exact above
      | some first =>
        cases above with
        | some second => exact .some (deepEqual_trans first second)

theorem attenuates_narrowFields : Attenuates narrowFields FieldsCovered where
  covered := by
    intro request grant result done
    obtain ⟨allowed, rfl⟩ := narrowFields_eq_some.mp done
    by_cases open_ : grant.entries = []
    · exact .inl open_
    · right
      intro name
      rw [lookup_over]
      cases given : request.lookup name with
      | none =>
        cases grant.lookup name with
        | none => exact .none
        | some value => exact .some (deepEqual_refl value)
      | some value =>
        rcases fieldAllowed_iff.mp (allowed name value given) with ⟨_, found, same⟩ | no
        · rw [found]
          exact .some same
        · exact absurd no.2 open_
  stable := by
    intro request grant result done
    obtain ⟨allowed, rfl⟩ := narrowFields_eq_some.mp done
    refine narrowFields_eq_some.mpr ⟨fun name value found => ?_, ext_lookup fun name => ?_⟩
    · rw [lookup_over] at found
      rcases or_eq_some_iff.mp found with given | ⟨-, inherited⟩
      · exact allowed name value given
      · exact fieldAllowed_iff.mpr (.inl ⟨value, inherited, deepEqual_refl value⟩)
    · rw [lookup_over, lookup_over, lookup_over, Option.or_assoc, Option.or_self]
  taken := by
    intro _ _ _ _ done taken
    obtain ⟨-, rfl⟩ := narrowFields_eq_some.mp done
    obtain ⟨_, narrowed⟩ := isSome_iff_exists.mp taken
    have allowed := (narrowFields_eq_some.mp narrowed).1
    refine isSome_of_eq_some (narrowFields_eq_some.mpr ⟨fun name value given => ?_, rfl⟩)
    exact allowed name value (by rw [lookup_over, given]; rfl)
  trans := FieldsCovered.trans

/-- Narrowing the request by the grant gives the detail. -/
structure Narrows (r g e : Detail) : Prop where
  type : r.type = g.type
  typed : e.type = g.type
  locations : narrowList r.locations g.locations = some e.locations
  actions : narrowList r.actions g.actions = some e.actions
  dataTypes : narrowList r.dataTypes g.dataTypes = some e.dataTypes
  privileges : narrowList r.privileges g.privileges = some e.privileges
  identifier : narrowIdentifier r.identifier g.identifier = some e.identifier
  fields : narrowFields r.fields g.fields = some e.fields

theorem narrowOne_eq_some {r g e : Detail} : narrowOne r g = some e ↔ Narrows r g e := by
  unfold narrowOne
  constructor
  · intro done
    split at done
    · cases done
    rename_i same
    obtain ⟨_, located, done⟩ := bind_eq_some_iff.mp done
    obtain ⟨_, acted, done⟩ := bind_eq_some_iff.mp done
    obtain ⟨_, dataTyped, done⟩ := bind_eq_some_iff.mp done
    obtain ⟨_, privileged, done⟩ := bind_eq_some_iff.mp done
    obtain ⟨_, identified, done⟩ := bind_eq_some_iff.mp done
    obtain ⟨_, filled, done⟩ := bind_eq_some_iff.mp done
    cases done
    exact ⟨not_not.mp same, rfl, located, acted, dataTyped, privileged, identified, filled⟩
  · intro narrows
    rw [if_neg (not_not.mpr narrows.type), narrows.locations, narrows.actions, narrows.dataTypes,
      narrows.privileges, narrows.identifier, narrows.fields, ← narrows.typed]
    rfl

theorem attenuates_narrowOne : Attenuates narrowOne Covered where
  covered := by
    intro r g e done
    have narrows := narrowOne_eq_some.mp done
    exact ⟨narrows.typed, attenuates_narrowList.covered narrows.locations,
      attenuates_narrowList.covered narrows.actions,
      attenuates_narrowList.covered narrows.dataTypes,
      attenuates_narrowList.covered narrows.privileges,
      attenuates_narrowIdentifier.covered narrows.identifier,
      attenuates_narrowFields.covered narrows.fields⟩
  stable := by
    intro r g e done
    have narrows := narrowOne_eq_some.mp done
    exact narrowOne_eq_some.mpr ⟨narrows.typed, narrows.typed,
      attenuates_narrowList.stable narrows.locations, attenuates_narrowList.stable narrows.actions,
      attenuates_narrowList.stable narrows.dataTypes,
      attenuates_narrowList.stable narrows.privileges,
      attenuates_narrowIdentifier.stable narrows.identifier,
      attenuates_narrowFields.stable narrows.fields⟩
  taken := by
    intro r _ e other done taken
    have narrows := narrowOne_eq_some.mp done
    obtain ⟨_, narrowed⟩ := isSome_iff_exists.mp taken
    have above := narrowOne_eq_some.mp narrowed
    have list : ∀ {req grant list other result : List Bytes}, narrowList req grant = some list →
        narrowList list other = some result → ∃ result', narrowList req other = some result' :=
      fun first second => isSome_iff_exists.mp
        (attenuates_narrowList.taken first (isSome_of_eq_some second))
    obtain ⟨locations, located⟩ := list narrows.locations above.locations
    obtain ⟨actions, acted⟩ := list narrows.actions above.actions
    obtain ⟨dataTypes, dataTyped⟩ := list narrows.dataTypes above.dataTypes
    obtain ⟨privileges, privileged⟩ := list narrows.privileges above.privileges
    obtain ⟨identifier, identified⟩ := isSome_iff_exists.mp
      (attenuates_narrowIdentifier.taken narrows.identifier (isSome_of_eq_some above.identifier))
    obtain ⟨fields, filled⟩ := isSome_iff_exists.mp
      (attenuates_narrowFields.taken narrows.fields (isSome_of_eq_some above.fields))
    have same : r.type = other.type := (narrows.type.trans narrows.typed.symm).trans above.type
    exact isSome_of_eq_some (narrowOne_eq_some (e :=
      ⟨other.type, locations, actions, dataTypes, identifier, privileges, fields⟩).mpr
      ⟨same, rfl, located, acted, dataTyped, privileged, identified, filled⟩)
  trans := by
    intro _ _ _ first second
    exact ⟨first.type.trans second.type,
      attenuates_narrowList.trans first.locations second.locations,
      attenuates_narrowList.trans first.actions second.actions,
      attenuates_narrowList.trans first.dataTypes second.dataTypes,
      attenuates_narrowList.trans first.privileges second.privileges,
      attenuates_narrowIdentifier.trans first.identifier second.identifier,
      first.fields.trans second.fields⟩

omit [JsonFloat] in
theorem wellFormed_narrowList {req grant list : List Bytes}
    (narrowed : narrowList req grant = some list) (requested : ∀ text ∈ req, WellFormed text)
    (granted : ∀ text ∈ grant, WellFormed text) : ∀ text ∈ list, WellFormed text := by
  rcases narrowList_eq_some.mp narrowed with ⟨-, rfl⟩ | ⟨-, rfl, -⟩
  · exact granted
  · exact requested

theorem Narrows.valid {r g e : Detail} (narrows : Narrows r g e) (requested : r.Valid)
    (granted : g.Valid) : e.Valid where
  hasType := narrows.typed ▸ granted.hasType
  type := narrows.typed ▸ granted.type
  locations := wellFormed_narrowList narrows.locations requested.locations granted.locations
  actions := wellFormed_narrowList narrows.actions requested.actions granted.actions
  dataTypes := wellFormed_narrowList narrows.dataTypes requested.dataTypes granted.dataTypes
  identifier := by
    rcases narrowIdentifier_eq_some.mp narrows.identifier with ⟨-, same⟩ | ⟨-, same, -⟩
    · exact same ▸ granted.identifier
    · exact same ▸ requested.identifier
  privileges := wellFormed_narrowList narrows.privileges requested.privileges granted.privileges
  fields := by
    obtain ⟨-, same⟩ := narrowFields_eq_some.mp narrows.fields
    intro entry inside
    rw [same] at inside
    rcases mem_insertAll inside with inherited | given
    · exact granted.fields entry inherited
    · exact requested.fields entry given

variable {requested granted effective : List Detail}

theorem valid_of_narrow
    (narrowed : narrow requested granted = some effective) (asked : ∀ d ∈ requested, d.Valid)
    (given : ∀ d ∈ granted, d.Valid) : ∀ d ∈ effective, d.Valid := by
  induction requested generalizing effective with
  | nil =>
    cases narrowed
    exact nofun
  | cons _ _ ih =>
    rw [List.forall_mem_cons] at asked
    obtain ⟨_, _, first, remaining, rfl⟩ := narrowAll_cons_eq_some.mp narrowed
    obtain ⟨g, listed, one⟩ := List.exists_of_findSome?_eq_some first
    rw [List.forall_mem_cons]
    exact ⟨(narrowOne_eq_some.mp one).valid asked.1 (given g listed), ih remaining asked.2⟩

/-- **Narrowing attenuates.** -/
theorem narrow_attenuates (narrowed : narrow requested granted = some effective) :
    (∀ e ∈ effective, ∃ g ∈ granted, Covered e g) ∧
      narrow effective granted = some effective ∧
        ∀ requested' effective', narrow requested' effective = some effective' →
          ∀ e ∈ effective', ∃ g ∈ granted, Covered e g := by
  refine ⟨attenuates_narrowOne.narrowAll_covered narrowed,
    attenuates_narrowOne.narrowAll_stable narrowed, ?_⟩
  intro _ _ again
  exact attenuates_narrowOne.narrowAll_narrowAll narrowed again

def readOrWrite : Detail :=
  ⟨str "files", [], [str "read", str "write"], [], [], [],
    SortedMap.insert ∅ (str "folder") (.str (str "inbox"))⟩

def readAtHome : Detail := ⟨str "files", [str "home"], [str "read"], [], [], [], ∅⟩

omit [JsonFloat] in
theorem narrow_attenuates_readAtHome :
    letI := JsonFloat.bits
    ∃ e, narrow [readAtHome] [readOrWrite] = some [e] ∧ e.locations = [str "home"] ∧
      e.actions = [str "read"] ∧ e.fields = readOrWrite.fields ∧ Covered e readOrWrite ∧
        narrow [e] [readOrWrite] = some [e] := by
  let := JsonFloat.bits
  have narrowed : narrow [readAtHome] [readOrWrite] =
      some [{ readAtHome with fields := readOrWrite.fields }] := by rfl
  obtain ⟨covered, again, -⟩ := narrow_attenuates narrowed
  obtain ⟨_, listed, covers⟩ := covered _ List.mem_cons_self
  rw [List.mem_singleton.mp listed] at covers
  exact ⟨_, narrowed, rfl, rfl, rfl, covers, again⟩

end TheAuth.Rar
