import TheAuth.Go.JsonRoundTrip
import TheAuth.Library.SortedMap

/-!
# Values of JSON texts

What `encoding/json` makes of a text that is read into `any`. A map is the sorted list of its
entries, where the last of several members of one name counts, so a value has one representation
(`Json.Canonical`).
-/

set_option autoImplicit false

namespace TheAuth.Go

open Library List

/-- The encoder writes the shortest literal that is parsed to the number again; no number is NaN. -/
class JsonFloat where
  Float : Type
  equal : Float → Float → Bool
  format : Float → Bytes
  parse : Bytes → Option Float
  equal_refl : ∀ f, equal f f = true
  equal_trans : ∀ {f g h}, equal f g = true → equal g h = true → equal f h = true
  parse_format : ∀ f, parse (format f) = some f
  isNumber_format : ∀ f, isNumber (format f)

@[reducible]
def JsonFloat.bits : JsonFloat where
  Float := Bool
  equal f g := f == g
  format f := if f then str "1" else str "0"
  parse literal := if literal = str "1" then some true else if literal = str "0" then some false
    else none
  equal_refl := by decide
  equal_trans := by decide
  parse_format := by decide
  isNumber_format := by decide

instance : KeyOrder Bytes where
  irrefl := List.lt_irrefl
  trans := List.lt_trans
  trichotomy a b := by
    by_cases less : a < b
    · exact .inl less
    · by_cases greater : b < a
      · exact .inr (.inr greater)
      · exact .inr (.inl (List.le_antisymm (List.not_lt.mp greater) (List.not_lt.mp less)))

variable [JsonFloat]

abbrev Value := Json JsonFloat.Float

mutual

def Json.toValue : Json Bytes → Option Value
  | .null => some .null
  | .bool b => some (.bool b)
  | .num literal => (JsonFloat.parse literal).map .num
  | .str s => some (.str s)
  | .arr entries => (entriesToValue entries).map .arr
  | .obj members => (membersToValue members).map fun members =>
    .obj (SortedMap.insertAll ∅ members).entries

def entriesToValue : List (Json Bytes) → Option (List Value)
  | [] => some []
  | entry :: rest =>
    match entry.toValue, entriesToValue rest with
    | some value, some values => some (value :: values)
    | _, _ => none

def membersToValue : List (Bytes × Json Bytes) → Option (List (Bytes × Value))
  | [] => some []
  | (name, member) :: rest =>
    match member.toValue, membersToValue rest with
    | some value, some values => some ((name, value) :: values)
    | _, _ => none

end

mutual

def Json.literals : Value → Json Bytes
  | .null => .null
  | .bool b => .bool b
  | .num n => .num (JsonFloat.format n)
  | .str s => .str s
  | .arr entries => .arr (entriesLiterals entries)
  | .obj members => .obj (membersLiterals members)

def entriesLiterals : List Value → List (Json Bytes)
  | [] => []
  | entry :: rest => entry.literals :: entriesLiterals rest

def membersLiterals : List (Bytes × Value) → List (Bytes × Json Bytes)
  | [] => []
  | (name, value) :: rest => (name, value.literals) :: membersLiterals rest

end

mutual

/-- Strings are well formed, and maps sorted. -/
def Json.Canonical : Value → Prop
  | .null => True
  | .bool _ => True
  | .num _ => True
  | .str s => WellFormed s
  | .arr entries => EntriesCanonical entries
  | .obj members => (members.Pairwise fun a b => a.1 < b.1) ∧ MembersCanonical members

def EntriesCanonical : List Value → Prop
  | [] => True
  | entry :: rest => entry.Canonical ∧ EntriesCanonical rest

def MembersCanonical : List (Bytes × Value) → Prop
  | [] => True
  | (name, value) :: rest => WellFormed name ∧ value.Canonical ∧ MembersCanonical rest

end

theorem membersCanonical_iff {members : List (Bytes × Value)} :
    MembersCanonical members ↔ ∀ member ∈ members, WellFormed member.1 ∧ member.2.Canonical := by
  induction members with
  | nil => exact ⟨fun _ => nofun, fun _ => trivial⟩
  | cons _ _ ih =>
    rw [forall_mem_cons, ← ih, and_assoc]
    exact Iff.rfl

mutual

theorem toValue_literals : ∀ {v : Value}, v.Canonical → v.literals.toValue = some v
  | .null, _ => rfl
  | .bool _, _ => rfl
  | .num n, _ => by rw [Json.literals, Json.toValue, JsonFloat.parse_format]; rfl
  | .str _, _ => rfl
  | .arr entries, canonical => by
    rw [Json.literals, Json.toValue, entriesToValue_literals canonical]
    rfl
  | .obj members, canonical => by
    rw [Json.literals, Json.toValue, membersToValue_literals canonical.2, Option.map_some]
    exact congrArg (some ∘ Json.obj ∘ SortedMap.entries)
      (SortedMap.insertAll_entries ⟨members, canonical.1⟩)

theorem entriesToValue_literals : ∀ {entries : List Value}, EntriesCanonical entries →
    entriesToValue (entriesLiterals entries) = some entries
  | [], _ => rfl
  | entry :: rest, canonical => by
    rw [entriesLiterals, entriesToValue, toValue_literals canonical.1,
      entriesToValue_literals canonical.2]

theorem membersToValue_literals : ∀ {members : List (Bytes × Value)}, MembersCanonical members →
    membersToValue (membersLiterals members) = some members
  | [], _ => rfl
  | (name, value) :: rest, canonical => by
    rw [membersLiterals, membersToValue, toValue_literals canonical.2.1,
      membersToValue_literals canonical.2.2]

end

mutual

theorem writable_literals : ∀ {v : Value}, v.Canonical → v.literals.Writable
  | .null, _ => trivial
  | .bool _, _ => trivial
  | .num n, _ => JsonFloat.isNumber_format n
  | .str _, formed => formed
  | .arr _, canonical => entriesWritable_literals canonical
  | .obj _, canonical => membersWritable_literals canonical.2

theorem entriesWritable_literals : ∀ {entries : List Value}, EntriesCanonical entries →
    EntriesWritable (entriesLiterals entries)
  | [], _ => trivial
  | _ :: _, canonical => ⟨writable_literals canonical.1, entriesWritable_literals canonical.2⟩

theorem membersWritable_literals : ∀ {members : List (Bytes × Value)}, MembersCanonical members →
    MembersWritable (membersLiterals members)
  | [], _ => trivial
  | (_, _) :: _, canonical =>
    ⟨canonical.1, writable_literals canonical.2.1, membersWritable_literals canonical.2.2⟩

end

theorem exists_entriesToValue {entries : List (Json Bytes)}
    (each : ∀ entry ∈ entries, ∃ value, entry.toValue = some value) :
    ∃ values, entriesToValue entries = some values := by
  induction entries with
  | nil => exact ⟨[], rfl⟩
  | cons _ _ ih =>
    rw [forall_mem_cons] at each
    obtain ⟨value, first⟩ := each.1
    obtain ⟨values, later⟩ := ih each.2
    exact ⟨value :: values, by rw [entriesToValue, first, later]⟩

theorem exists_membersToValue {members : List (Bytes × Json Bytes)}
    (each : ∀ member ∈ members, ∃ value, member.2.toValue = some value) :
    ∃ values, membersToValue members = some values := by
  induction members with
  | nil => exact ⟨[], rfl⟩
  | cons member _ ih =>
    rw [forall_mem_cons] at each
    obtain ⟨value, first⟩ := each.1
    obtain ⟨values, later⟩ := ih each.2
    exact ⟨(member.1, value) :: values, by rw [membersToValue, first, later]⟩

mutual

theorem canonical_of_toValue : ∀ {t : Json Bytes} {v : Value}, t.Writable → t.toValue = some v →
    v.Canonical
  | .null, _, _, read => by cases read; trivial
  | .bool _, _, _, read => by cases read; trivial
  | .num _, _, _, read => by
    obtain ⟨_, -, rfl⟩ := Option.map_eq_some_iff.mp read
    trivial
  | .str _, _, formed, read => by cases read; exact formed
  | .arr entries, _, writable, read => by
    obtain ⟨_, found, rfl⟩ := Option.map_eq_some_iff.mp read
    exact canonical_of_entriesToValue writable found
  | .obj members, _, writable, read => by
    obtain ⟨_, found, rfl⟩ := Option.map_eq_some_iff.mp read
    have canonical := membersCanonical_iff.mp (canonical_of_membersToValue writable found)
    refine ⟨SortedMap.sorted _, membersCanonical_iff.mpr fun member inside => ?_⟩
    rcases SortedMap.mem_insertAll inside with none_ | listed
    · cases none_
    · exact canonical member listed

theorem canonical_of_entriesToValue : ∀ {entries : List (Json Bytes)} {values : List Value},
    EntriesWritable entries → entriesToValue entries = some values → EntriesCanonical values
  | [], _, _, read => by cases read; trivial
  | entry :: rest, _, writable, read => by
    rw [entriesToValue] at read
    split at read <;> cases read
    rename_i first later
    exact ⟨canonical_of_toValue writable.1 first, canonical_of_entriesToValue writable.2 later⟩

theorem canonical_of_membersToValue : ∀ {members : List (Bytes × Json Bytes)}
    {values : List (Bytes × Value)}, MembersWritable members →
    membersToValue members = some values → MembersCanonical values
  | [], _, _, read => by cases read; trivial
  | (name, member) :: rest, _, writable, read => by
    rw [membersToValue] at read
    split at read <;> cases read
    rename_i first later
    exact ⟨writable.1, canonical_of_toValue writable.2.1 first,
      canonical_of_membersToValue writable.2.2 later⟩

end

mutual

def Json.deepEqual : Value → Value → Bool
  | .null, .null => true
  | .bool a, .bool b => a == b
  | .num a, .num b => JsonFloat.equal a b
  | .str a, .str b => a == b
  | .arr as, .arr bs => entriesDeepEqual as bs
  | .obj as, .obj bs => membersDeepEqual as bs
  | _, _ => false

def entriesDeepEqual : List Value → List Value → Bool
  | [], [] => true
  | a :: as, b :: bs => a.deepEqual b && entriesDeepEqual as bs
  | _, _ => false

def membersDeepEqual : List (Bytes × Value) → List (Bytes × Value) → Bool
  | [], [] => true
  | (x, a) :: as, (y, b) :: bs => x == y && a.deepEqual b && membersDeepEqual as bs
  | _, _ => false

end

mutual

theorem deepEqual_refl : ∀ v : Value, v.deepEqual v = true
  | .null => rfl
  | .bool _ => by rw [Json.deepEqual, beq_self_eq_true]
  | .num n => JsonFloat.equal_refl n
  | .str _ => by rw [Json.deepEqual, beq_self_eq_true]
  | .arr entries => entriesDeepEqual_refl entries
  | .obj members => membersDeepEqual_refl members

theorem entriesDeepEqual_refl : ∀ entries : List Value, entriesDeepEqual entries entries = true
  | [] => rfl
  | entry :: rest => by
    rw [entriesDeepEqual, deepEqual_refl entry, entriesDeepEqual_refl rest]
    rfl

theorem membersDeepEqual_refl :
    ∀ members : List (Bytes × Value), membersDeepEqual members members = true
  | [] => rfl
  | (name, value) :: rest => by
    rw [membersDeepEqual, beq_self_eq_true, deepEqual_refl value, membersDeepEqual_refl rest]
    rfl

end

mutual

theorem deepEqual_trans : ∀ {u v w : Value}, u.deepEqual v = true → v.deepEqual w = true →
    u.deepEqual w = true
  | .null, .null, .null, _, _ => rfl
  | .bool _, .bool _, .bool _, first, second => by
    rw [Json.deepEqual, beq_iff_eq] at first second ⊢
    rw [first, second]
  | .num _, .num _, .num _, first, second => JsonFloat.equal_trans first second
  | .str _, .str _, .str _, first, second => by
    rw [Json.deepEqual, beq_iff_eq] at first second ⊢
    rw [first, second]
  | .arr _, .arr _, .arr _, first, second => entriesDeepEqual_trans first second
  | .obj _, .obj _, .obj _, first, second => membersDeepEqual_trans first second

theorem entriesDeepEqual_trans : ∀ {us vs ws : List Value}, entriesDeepEqual us vs = true →
    entriesDeepEqual vs ws = true → entriesDeepEqual us ws = true
  | [], [], [], _, _ => rfl
  | u :: us, v :: vs, w :: ws, first, second => by
    rw [entriesDeepEqual, Bool.and_eq_true] at first second ⊢
    exact ⟨deepEqual_trans first.1 second.1, entriesDeepEqual_trans first.2 second.2⟩

theorem membersDeepEqual_trans : ∀ {us vs ws : List (Bytes × Value)},
    membersDeepEqual us vs = true → membersDeepEqual vs ws = true → membersDeepEqual us ws = true
  | [], [], [], _, _ => rfl
  | (x, u) :: us, (y, v) :: vs, (z, w) :: ws, first, second => by
    rw [membersDeepEqual, Bool.and_eq_true, Bool.and_eq_true, beq_iff_eq] at first second ⊢
    exact ⟨⟨first.1.1.trans second.1.1, deepEqual_trans first.1.2 second.1.2⟩,
      membersDeepEqual_trans first.2 second.2⟩

end

end TheAuth.Go
