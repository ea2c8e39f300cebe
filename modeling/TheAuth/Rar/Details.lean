import TheAuth.Go.JsonValue
import TheAuth.Library.Result

/-!
# Authorization details

How the `authorization_details` parameter is parsed and how details are serialised for storage.
Details are parsed again from their own serialisation as long as this is not longer than
`maxEncodedBytes`. A `nil` list and an empty one are not told apart, nor are maps.
-/

set_option autoImplicit false

namespace TheAuth.Rar

open Go Library Library.Result List SortedMap Json

def defaultMaxDetails : Int := 16

def maxEncodedBytes : ℕ := 16384

inductive Invalid where
  /-- `value exceeds %d bytes`. -/
  | tooLong (bound : ℕ)
  /-- `value must be a JSON array of objects`. -/
  | notArray
  /-- `trailing data after the array`. -/
  | trailing
  /-- `array must not be empty`. -/
  | noEntries
  /-- `at most %d entries are allowed`. -/
  | tooMany (bound : Int)
  /-- `each entry must be a JSON object`. -/
  | notObject
  /-- `member %q has the wrong type`. -/
  | wrongType (name : Bytes)
  /-- `type is required`. -/
  | typeMissing
deriving DecidableEq

inductive Member where
  | type | locations | actions | datatypes | privileges | identifier
deriving DecidableEq

def Member.name : Member → Bytes
  | .type => str "type"
  | .locations => str "locations"
  | .actions => str "actions"
  | .datatypes => str "datatypes"
  | .privileges => str "privileges"
  | .identifier => str "identifier"

def Member.all : List Member := [.type, .locations, .actions, .datatypes, .privileges, .identifier]

@[simp]
theorem Member.name_inj {a b : Member} : a.name = b.name ↔ a = b := by
  constructor
  · intro same
    cases a <;> cases b <;> first | rfl | exact absurd same (by decide +kernel)
  · exact congrArg Member.name

def isRegistered (name : Bytes) : Bool := Member.all.any fun member => member.name = name

theorem isRegistered_iff {name : Bytes} :
    isRegistered name = true ↔ ∃ m : Member, m.name = name := by
  rw [isRegistered, any_eq_true]
  constructor
  · rintro ⟨m, -, same⟩
    exact ⟨m, of_decide_eq_true same⟩
  · rintro ⟨m, same⟩
    exact ⟨m, by cases m <;> decide, decide_eq_true same⟩

theorem wellFormed_name (m : Member) : WellFormed m.name := by
  cases m <;> unfold WellFormed <;> decide +kernel

def setList (m : SortedMap Bytes (Json Bytes)) (member : Member) (list : List Bytes) :
    SortedMap Bytes (Json Bytes) :=
  if list = [] then m else m.insert member.name (.arr (list.map .str))

theorem lookup_setList (m : SortedMap Bytes (Json Bytes)) (member : Member) (list : List Bytes)
    (key : Bytes) : (setList m member list).lookup key =
      if key = member.name ∧ list ≠ [] then some (.arr (list.map .str)) else m.lookup key := by
  unfold setList
  by_cases empty : list = []
  · rw [if_pos empty, if_neg fun both => both.2 empty]
  · rw [if_neg empty, lookup_insert]
    exact if_congr (and_iff_left empty).symm rfl rfl

def writtenList (list : List Bytes) : Option (Json Bytes) :=
  if list = [] then none else some (.arr (list.map .str))

theorem writable_list {list : List Bytes} (formed : ∀ text ∈ list, WellFormed text) :
    (Json.arr (list.map .str)).Writable := by
  refine entriesWritable_iff.mpr fun entry inside => ?_
  obtain ⟨text, listed, rfl⟩ := mem_map.mp inside
  exact formed text listed

variable {value : Json Bytes} {m : Member} {raw : SortedMap Bytes (Json Bytes)}

theorem writable_of_writtenList {list : List Bytes} (formed : ∀ text ∈ list, WellFormed text)
    (written : writtenList list = some value) : value.Writable := by
  unfold writtenList at written
  split at written <;> cases written
  exact writable_list formed

def decodeString : Json Bytes → Option Bytes
  | .null => some []
  | .str s => some s
  | _ => none

def decodeStrings : Json Bytes → Option (List Bytes)
  | .null => some []
  | .arr entries => entries.mapM decodeString
  | _ => none

def decodeMembers : Json Bytes → Except Invalid (SortedMap Bytes (Json Bytes))
  | .null => .ok ∅
  | .obj members => .ok (SortedMap.insertAll ∅ members)
  | _ => .error .notObject

def decodeMember {α : Type} (raw : SortedMap Bytes (Json Bytes)) (member : Member)
    (decode : Json Bytes → Option α) (absent : α) : Except Invalid α :=
  match raw.lookup member.name with
  | none => .ok absent
  | some value => orRefuse (decode value) (.wrongType member.name)

theorem decodeStrings_list (list : List Bytes) :
    decodeStrings (.arr (list.map .str)) = some list := by
  change (list.map Json.str).mapM decodeString = some list
  induction list with
  | nil => rfl
  | cons _ _ ih =>
    rw [map_cons, mapM_cons, ih]
    rfl

theorem decodeMember_list {list : List Bytes} (found : raw.lookup m.name = writtenList list) :
    decodeMember raw m decodeStrings [] = .ok list := by
  rw [decodeMember, found, writtenList]
  by_cases empty : list = []
  · rw [if_pos empty, empty]
  · rw [if_neg empty]
    exact orRefuse_eq_ok.mpr (decodeStrings_list list)

variable {text : Bytes}

theorem decodeMember_string
    (found : raw.lookup m.name = if text = [] then none else some (.str text)) :
    decodeMember raw m decodeString [] = .ok text := by
  rw [decodeMember, found]
  by_cases empty : text = []
  · rw [if_pos empty, empty]
  · rw [if_neg empty]
    rfl

/-- Every member can be written and is read back. -/
def WritableMembers (raw : SortedMap Bytes (Json Bytes)) : Prop :=
  ∀ member ∈ raw.entries, WellFormed member.1 ∧ member.2.Writable

theorem writableMembers_of_decodeMembers {data : Json Bytes} (writable : data.Writable)
    (decoded : decodeMembers data = .ok raw) : WritableMembers raw := by
  cases data with
  | null =>
    cases decoded
    exact nofun
  | obj =>
    cases decoded
    intro member inside
    rcases mem_insertAll inside with none_ | listed
    · cases none_
    · exact membersWritable_iff.mp writable member listed
  | bool | num | str | arr => cases decoded

theorem decodeMember_ok {α : Type} {decode : Json Bytes → Option α} {absent result : α}
    (writable : WritableMembers raw) (done : decodeMember raw m decode absent = .ok result) :
    result = absent ∨ ∃ value : Json Bytes, value.Writable ∧ decode value = some result := by
  unfold decodeMember at done
  split at done
  · cases done
    exact .inl rfl
  rename_i value found
  exact .inr ⟨value, (writable _ (mem_entries_iff.mpr found)).2, orRefuse_eq_ok.mp done⟩

theorem wellFormed_nil : WellFormed [] := nofun

theorem wellFormed_of_decodeString (writable : value.Writable)
    (decoded : decodeString value = some text) : WellFormed text := by
  cases value with
  | null =>
    cases decoded
    exact wellFormed_nil
  | str =>
    cases decoded
    exact writable
  | bool | num | arr | obj => cases decoded

theorem wellFormed_of_mapM_decodeString {entries : List (Json Bytes)} {list : List Bytes}
    (writable : EntriesWritable entries) (decoded : entries.mapM decodeString = some list) :
    ∀ text ∈ list, WellFormed text := by
  induction entries generalizing list with
  | nil =>
    cases decoded
    exact nofun
  | cons _ _ ih =>
    rw [mapM_cons] at decoded
    obtain ⟨_, first, decoded⟩ := Option.bind_eq_some_iff.mp decoded
    obtain ⟨_, others, done⟩ := Option.bind_eq_some_iff.mp decoded
    cases done
    rw [forall_mem_cons]
    exact ⟨wellFormed_of_decodeString writable.1 first, ih writable.2 others⟩

theorem wellFormed_of_decodeStrings {list : List Bytes} (writable : value.Writable)
    (decoded : decodeStrings value = some list) : ∀ text ∈ list, WellFormed text := by
  cases value with
  | null =>
    cases decoded
    exact nofun
  | arr => exact wellFormed_of_mapM_decodeString writable decoded
  | bool | num | str | obj => cases decoded

theorem wellFormed_of_decodeMember (writable : WritableMembers raw)
    (done : decodeMember raw m decodeString [] = .ok text) : WellFormed text := by
  rcases decodeMember_ok writable done with rfl | ⟨_, written, decoded⟩
  · exact wellFormed_nil
  · exact wellFormed_of_decodeString written decoded

theorem wellFormed_of_decodeMember_list {list : List Bytes} (writable : WritableMembers raw)
    (done : decodeMember raw m decodeStrings [] = .ok list) : ∀ text ∈ list, WellFormed text := by
  rcases decodeMember_ok writable done with rfl | ⟨_, written, decoded⟩
  · exact nofun
  · exact wellFormed_of_decodeStrings written decoded

def more (rest : Bytes) : Bool :=
  match skipSpace rest with
  | [] => false
  | c :: _ => c != 0x5D && c != 0x7D

def maxDetails (max : Int) : Int := if max ≤ 0 then defaultMaxDetails else max

theorem maxDetails_pos (max : Int) : 0 < maxDetails max := by
  unfold maxDetails defaultMaxDetails
  split <;> omega

variable [JsonFloat]

/-- One authorization detail. -/
structure Detail where
  type : Bytes
  (locations actions dataTypes : List Bytes)
  identifier : Bytes
  privileges : List Bytes
  fields : SortedMap Bytes Value

/-- It has a type, well-formed strings, and fields under names that are not registered. -/
structure Detail.Valid (d : Detail) : Prop where
  hasType : d.type ≠ []
  type : WellFormed d.type
  locations : ∀ text ∈ d.locations, WellFormed text
  actions : ∀ text ∈ d.actions, WellFormed text
  dataTypes : ∀ text ∈ d.dataTypes, WellFormed text
  identifier : WellFormed d.identifier
  privileges : ∀ text ∈ d.privileges, WellFormed text
  fields : ∀ entry ∈ d.fields.entries,
    WellFormed entry.1 ∧ entry.2.Canonical ∧ isRegistered entry.1 = false

/-! ### Writing -/

variable (d : Detail)

def Detail.members : SortedMap Bytes (Json Bytes) :=
  let m := (d.fields.map Json.literals).insert Member.type.name (.str d.type)
  let m := setList m .locations d.locations
  let m := setList m .actions d.actions
  let m := setList m .datatypes d.dataTypes
  let m := setList m .privileges d.privileges
  if d.identifier = [] then m else m.insert Member.identifier.name (.str d.identifier)

def Detail.marshalJSON : Json Bytes := .obj d.members.entries

def marshal (list : List Detail) : Bytes :=
  if list = [] then [] else (Json.arr (list.map Detail.marshalJSON)).write

/-! ### Reading -/

def decodeField (member : Bytes × Json Bytes) : Except Invalid (Bytes × Value) := do
  let value ← orRefuse member.2.toValue (.wrongType member.1)
  return (member.1, value)

/-- The order of a Go map is left open, and with it which of several members of the wrong type is
named. -/
def Detail.unmarshalJSON (data : Json Bytes) : Except Invalid Detail := do
  let raw ← decodeMembers data
  let type ← decodeMember raw .type decodeString []
  let locations ← decodeMember raw .locations decodeStrings []
  let actions ← decodeMember raw .actions decodeStrings []
  let dataTypes ← decodeMember raw .datatypes decodeStrings []
  let privileges ← decodeMember raw .privileges decodeStrings []
  let identifier ← decodeMember raw .identifier decodeString []
  let fields ← (raw.filterKeys fun name => !isRegistered name).entries.mapM decodeField
  refuseIf (type = []) .typeMissing
  return ⟨type, locations, actions, dataTypes, identifier, privileges, SortedMap.insertAll ∅ fields⟩

def decodeDetails : Json Bytes → Except Invalid (List Detail)
  | .null => .ok []
  | .arr entries => entries.mapM Detail.unmarshalJSON
  | _ => .error .notArray

def parseBytes (raw : Bytes) (max : Int) : Except Invalid (List Detail) :=
  if raw = [] then .ok [] else do
    refuseIf (maxEncodedBytes < raw.length) (.tooLong maxEncodedBytes)
    let (value, rest) ← orRefuse (readJson raw) .notArray
    let list ← decodeDetails value
    refuseIf (more rest) .trailing
    refuseIf (list = []) .noEntries
    refuseIf (maxDetails max < list.length) (.tooMany (maxDetails max))
    return list

def parse (raw : Bytes) (max : Int) : Except Invalid (List Detail) := parseBytes raw max

def Detail.written : Member → Option (Json Bytes)
  | .type => some (.str d.type)
  | .locations => writtenList d.locations
  | .actions => writtenList d.actions
  | .datatypes => writtenList d.dataTypes
  | .privileges => writtenList d.privileges
  | .identifier => if d.identifier = [] then none else some (.str d.identifier)

/-! ## Round trip -/

theorem Detail.lookup_members (d : Detail) (name : Bytes) : d.members.lookup name =
    if name = Member.identifier.name ∧ d.identifier ≠ [] then some (.str d.identifier)
    else if name = Member.privileges.name ∧ d.privileges ≠ [] then
      some (.arr (d.privileges.map .str))
    else if name = Member.datatypes.name ∧ d.dataTypes ≠ [] then
      some (.arr (d.dataTypes.map .str))
    else if name = Member.actions.name ∧ d.actions ≠ [] then some (.arr (d.actions.map .str))
    else if name = Member.locations.name ∧ d.locations ≠ [] then
      some (.arr (d.locations.map .str))
    else if name = Member.type.name then some (.str d.type)
    else (d.fields.lookup name).map Json.literals := by
  have last : ∀ m : SortedMap Bytes (Json Bytes),
      (if d.identifier = [] then m
        else m.insert Member.identifier.name (.str d.identifier)).lookup name =
      if name = Member.identifier.name ∧ d.identifier ≠ [] then some (.str d.identifier)
      else m.lookup name := by
    intro _
    by_cases empty : d.identifier = []
    · rw [if_pos empty, if_neg fun both => both.2 empty]
    · rw [if_neg empty, lookup_insert]
      exact if_congr (and_iff_left empty).symm rfl rfl
  rw [Detail.members, last]
  simp only [lookup_setList, lookup_insert, lookup_map]

variable {d : Detail} {list : List Detail} {max : Int}

theorem Detail.Valid.lookup_name (valid : d.Valid) (m : Member) :
    d.fields.lookup m.name = none := by
  cases found : d.fields.lookup m.name with
  | none => rfl
  | some =>
    have free := (valid.fields _ (mem_entries_iff.mpr found)).2.2
    rw [isRegistered_iff.mpr ⟨m, rfl⟩] at free
    cases free

theorem Detail.Valid.lookup_registered (valid : d.Valid) (m : Member) :
    d.members.lookup m.name = d.written m := by
  rw [d.lookup_members, valid.lookup_name]
  cases m <;> simp [Detail.written, writtenList]

theorem Detail.lookup_unregistered (d : Detail) {name : Bytes} (free : isRegistered name = false) :
    d.members.lookup name = (d.fields.lookup name).map Json.literals := by
  have other : ∀ m : Member, name ≠ m.name := by
    intro m same
    rw [isRegistered_iff.mpr ⟨m, same.symm⟩] at free
    cases free
  simp only [d.lookup_members, other, false_and, if_false]

theorem Detail.Valid.filterKeys_members (valid : d.Valid) :
    (d.members.filterKeys fun name => !isRegistered name) = d.fields.map Json.literals := by
  refine ext_lookup fun name => ?_
  rw [lookup_filterKeys, lookup_map]
  cases registered : isRegistered name with
  | false => exact d.lookup_unregistered registered
  | true =>
    obtain ⟨_, rfl⟩ := isRegistered_iff.mp registered
    rw [valid.lookup_name]
    rfl

theorem decodeField_literals {entry : Bytes × Value} (canonical : entry.2.Canonical) :
    decodeField (entry.1, entry.2.literals) = .ok entry := by
  rw [decodeField, toValue_literals canonical]
  rfl

theorem unmarshalJSON_marshalJSON (valid : d.Valid) :
    Detail.unmarshalJSON d.marshalJSON = .ok d := by
  have typed : decodeMember d.members .type decodeString [] = .ok d.type :=
    decodeMember_string ((valid.lookup_registered .type).trans (if_neg valid.hasType).symm)
  have fields : (d.members.filterKeys fun name => !isRegistered name).entries.mapM decodeField =
      .ok d.fields.entries := by
    rw [valid.filterKeys_members]
    exact mapM_map_eq_ok fun entry inside => decodeField_literals (valid.fields entry inside).2.1
  have raw : decodeMembers d.marshalJSON = .ok d.members :=
    congrArg Except.ok (insertAll_entries d.members)
  refine bind_eq_ok.mpr ⟨_, raw, bind_eq_ok.mpr ⟨_, typed, ?_⟩⟩
  refine bind_eq_ok.mpr ⟨_, decodeMember_list (valid.lookup_registered .locations), ?_⟩
  refine bind_eq_ok.mpr ⟨_, decodeMember_list (valid.lookup_registered .actions), ?_⟩
  refine bind_eq_ok.mpr ⟨_, decodeMember_list (valid.lookup_registered .datatypes), ?_⟩
  refine bind_eq_ok.mpr ⟨_, decodeMember_list (valid.lookup_registered .privileges), ?_⟩
  refine bind_eq_ok.mpr ⟨_, decodeMember_string (valid.lookup_registered .identifier), ?_⟩
  refine bind_eq_ok.mpr ⟨_, fields, refuseIf_bind_eq_ok.mpr ⟨valid.hasType, ?_⟩⟩
  rw [insertAll_entries]
  rfl

theorem Detail.Valid.writable_written (valid : d.Valid)
    (written : d.written m = some value) : value.Writable := by
  cases m with
  | type => cases written; exact valid.type
  | locations => exact writable_of_writtenList valid.locations written
  | actions => exact writable_of_writtenList valid.actions written
  | datatypes => exact writable_of_writtenList valid.dataTypes written
  | privileges => exact writable_of_writtenList valid.privileges written
  | identifier =>
    rw [Detail.written] at written
    split at written
    · cases written
    · cases written; exact valid.identifier

theorem Detail.Valid.member_cases (valid : d.Valid) {member : Bytes × Json Bytes}
    (inside : member ∈ d.members.entries) :
    (∃ m : Member, m.name = member.1 ∧ d.written m = some member.2) ∨
      ∃ value : Value, (member.1, value) ∈ d.fields.entries ∧ value.literals = member.2 := by
  have found := mem_entries_iff.mp inside
  cases registered : isRegistered member.1 with
  | true =>
    obtain ⟨m, same⟩ := isRegistered_iff.mp registered
    rw [← same, valid.lookup_registered] at found
    exact .inl ⟨m, same, found⟩
  | false =>
    rw [d.lookup_unregistered registered] at found
    obtain ⟨value, field, same⟩ := Option.map_eq_some_iff.mp found
    exact .inr ⟨value, mem_entries_iff.mpr field, same⟩

theorem Detail.Valid.writable (valid : d.Valid) : d.marshalJSON.Writable := by
  refine membersWritable_iff.mpr fun member inside => ?_
  rcases valid.member_cases inside with ⟨m, same, written⟩ | ⟨_, field, same⟩
  · exact ⟨same ▸ wellFormed_name m, valid.writable_written written⟩
  · obtain ⟨formed, canonical, -⟩ := valid.fields _ field
    exact ⟨formed, same ▸ writable_literals canonical⟩

theorem exists_toValue_of_writtenList {list : List Bytes}
    (written : writtenList list = some value) : ∃ v, value.toValue = some v := by
  unfold writtenList at written
  split at written <;> cases written
  obtain ⟨values, found⟩ : ∃ values, entriesToValue (list.map str) = some values := by
    refine exists_entriesToValue fun entry inside => ?_
    obtain ⟨text, -, rfl⟩ := mem_map.mp inside
    exact ⟨.str text, rfl⟩
  exact ⟨.arr values, by rw [toValue, found]; rfl⟩

theorem Detail.exists_toValue_written
    (written : d.written m = some value) : ∃ v, value.toValue = some v := by
  cases m with
  | type => cases written; exact ⟨.str d.type, rfl⟩
  | locations | actions | datatypes | privileges => exact exists_toValue_of_writtenList written
  | identifier =>
    rw [Detail.written] at written
    split at written
    · cases written
    · cases written; exact ⟨.str d.identifier, rfl⟩

theorem Detail.Valid.exists_toValue (valid : d.Valid) : ∃ v, d.marshalJSON.toValue = some v := by
  obtain ⟨values, found⟩ : ∃ values, membersToValue d.members.entries = some values := by
    refine exists_membersToValue fun member inside => ?_
    rcases valid.member_cases inside with ⟨_, -, written⟩ | ⟨value, field, same⟩
    · exact Detail.exists_toValue_written written
    · exact ⟨value, same ▸ toValue_literals (valid.fields _ field).2.1⟩
  exact ⟨_, by rw [Detail.marshalJSON, toValue, found]; rfl⟩

theorem writable_marshal (valid : ∀ d ∈ list, d.Valid) :
    (Json.arr (list.map Detail.marshalJSON)).Writable := by
  refine entriesWritable_iff.mpr fun entry inside => ?_
  obtain ⟨d, listed, rfl⟩ := mem_map.mp inside
  exact (valid d listed).writable

theorem readJson_marshal (valid : ∀ d ∈ list, d.Valid) (some_ : list ≠ []) :
    readJson (marshal list) = some (.arr (list.map Detail.marshalJSON), []) := by
  have read := readJson_write (writable_marshal valid) stops_nil
  rw [append_nil] at read
  rw [marshal, if_neg some_, read]

theorem marshal_eq_nil : marshal list = [] ↔ list = [] := by
  unfold marshal
  split
  next empty => exact iff_of_true rfl empty
  next some_ => exact iff_of_false (cons_ne_nil _ _) some_

theorem decodeDetails_marshalJSON (valid : ∀ d ∈ list, d.Valid) :
    decodeDetails (.arr (list.map Detail.marshalJSON)) = .ok list :=
  mapM_map_eq_ok fun d listed => unmarshalJSON_marshalJSON (valid d listed)

theorem parseBytes_marshal (valid : ∀ d ∈ list, d.Valid)
    (short : (marshal list).length ≤ maxEncodedBytes)
    (few : list.length ≤ maxDetails max) : parseBytes (marshal list) max = .ok list := by
  by_cases empty : list = []
  · rw [empty]
    rfl
  · rw [parseBytes, if_neg (marshal_eq_nil.not.mpr empty)]
    refine refuseIf_bind_eq_ok.mpr ⟨Nat.not_lt.mpr short, ?_⟩
    refine bind_eq_ok.mpr ⟨_, orRefuse_eq_ok.mpr (readJson_marshal valid empty), ?_⟩
    refine bind_eq_ok.mpr ⟨list, decodeDetails_marshalJSON valid, ?_⟩
    refine refuseIf_bind_eq_ok.mpr ⟨Bool.false_ne_true, ?_⟩
    exact refuseIf_bind_eq_ok.mpr ⟨empty, refuseIf_bind_eq_ok.mpr ⟨Int.not_lt.mpr few, rfl⟩⟩

theorem eq_of_parseBytes_marshal {parsed : List Detail} (valid : ∀ d ∈ list, d.Valid)
    (read : parseBytes (marshal list) max = .ok parsed) : parsed = list := by
  by_cases empty : list = []
  · rw [empty] at read ⊢
    cases read
    rfl
  · rw [parseBytes, if_neg (marshal_eq_nil.not.mpr empty)] at read
    obtain ⟨-, read⟩ := of_refuseIf read
    obtain ⟨⟨_, _⟩, found, read⟩ := of_bind read
    cases (orRefuse_eq_ok.mp found).symm.trans (readJson_marshal valid empty)
    obtain ⟨_, decoded, read⟩ := of_bind read
    iterate 3 obtain ⟨-, read⟩ := of_refuseIf read
    cases read
    cases decoded.symm.trans (decodeDetails_marshalJSON valid)
    rfl

theorem marshal_inj {first second : List Detail} (valid : ∀ d ∈ first, d.Valid)
    (valid' : ∀ d ∈ second, d.Valid) (same : marshal first = marshal second) : first = second := by
  by_cases empty : first = []
  · rw [empty] at same ⊢
    exact (marshal_eq_nil.mp same.symm).symm
  · have some_ : second ≠ [] := by
      rintro rfl
      exact empty (marshal_eq_nil.mp same)
    have trees := readJson_marshal valid empty
    rw [same, readJson_marshal valid' some_] at trees
    have decoded := congrArg decodeDetails (congrArg Prod.fst (Option.some.inj trees))
    rw [decodeDetails_marshalJSON valid, decodeDetails_marshalJSON valid'] at decoded
    exact (Except.ok.inj decoded).symm

/-! ## Validity -/

theorem valid_fields {fields : List (Bytes × Value)} (writable : WritableMembers raw)
    (decoded : (raw.filterKeys fun name => !isRegistered name).entries.mapM decodeField =
      .ok fields) {entry : Bytes × Value} (listed : entry ∈ fields) :
    WellFormed entry.1 ∧ entry.2.Canonical ∧ isRegistered entry.1 = false := by
  obtain ⟨member, inside, done⟩ := exists_of_mem_mapM decoded listed
  obtain ⟨_, read, same⟩ := of_bind done
  cases same
  obtain ⟨present, free⟩ := mem_filter.mp inside
  obtain ⟨formed, written⟩ := writable member present
  exact ⟨formed, canonical_of_toValue written (orRefuse_eq_ok.mp read),
    by rwa [Bool.not_eq_eq_eq_not] at free⟩

theorem valid_of_unmarshalJSON {data : Json Bytes} (writable : data.Writable)
    (decoded : Detail.unmarshalJSON data = .ok d) : d.Valid := by
  obtain ⟨_, members, decoded⟩ := of_bind decoded
  obtain ⟨type, typed, decoded⟩ := of_bind decoded
  obtain ⟨locations, located, decoded⟩ := of_bind decoded
  obtain ⟨actions, acted, decoded⟩ := of_bind decoded
  obtain ⟨dataTypes, dataTyped, decoded⟩ := of_bind decoded
  obtain ⟨privileges, privileged, decoded⟩ := of_bind decoded
  obtain ⟨identifier, identified, decoded⟩ := of_bind decoded
  obtain ⟨fields, rest, decoded⟩ := of_bind decoded
  obtain ⟨hasType, decoded⟩ := of_refuseIf decoded
  cases decoded
  have writable := writableMembers_of_decodeMembers writable members
  exact {
    hasType
    type := wellFormed_of_decodeMember writable typed
    locations := wellFormed_of_decodeMember_list writable located
    actions := wellFormed_of_decodeMember_list writable acted
    dataTypes := wellFormed_of_decodeMember_list writable dataTyped
    identifier := wellFormed_of_decodeMember writable identified
    privileges := wellFormed_of_decodeMember_list writable privileged
    fields := by
      intro _ inside
      rcases mem_insertAll inside with none_ | listed
      · cases none_
      · exact valid_fields writable rest listed }

theorem valid_of_decodeDetails (writable : value.Writable)
    (decoded : decodeDetails value = .ok list) : ∀ d ∈ list, d.Valid := by
  cases value with
  | null =>
    cases decoded
    exact nofun
  | arr =>
    intro _ listed
    obtain ⟨entry, inside, done⟩ := exists_of_mem_mapM decoded listed
    exact valid_of_unmarshalJSON (entriesWritable_iff.mp writable entry inside) done
  | bool | num | str | obj => cases decoded

theorem valid_of_parseBytes {raw : Bytes} (parsed : parseBytes raw max = .ok list) :
    (∀ d ∈ list, d.Valid) ∧ list.length ≤ maxDetails max := by
  unfold parseBytes at parsed
  split at parsed
  · cases parsed
    exact ⟨nofun, Int.le_of_lt (maxDetails_pos max)⟩
  obtain ⟨-, parsed⟩ := of_refuseIf parsed
  obtain ⟨⟨_, _⟩, read, parsed⟩ := of_bind parsed
  obtain ⟨_, decoded, parsed⟩ := of_bind parsed
  obtain ⟨-, parsed⟩ := of_refuseIf parsed
  obtain ⟨-, parsed⟩ := of_refuseIf parsed
  obtain ⟨few, parsed⟩ := of_refuseIf parsed
  cases parsed
  exact ⟨valid_of_decodeDetails (writable_of_readJson (orRefuse_eq_ok.mp read)) decoded,
    Int.not_lt.mp few⟩

end TheAuth.Rar
