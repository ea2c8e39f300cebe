import TheAuth.Organizations.Owners

/-!
# Groups and their PATCH requests

`ApplyGroupPatch` collects the users to add and to remove, and the handler writes the two lists
afterwards. `inOrder` is the effect of the operations in the order given, and `OrderFree` says when
the lists lose nothing of it.
-/

set_option autoImplicit false

namespace TheAuth.Scim

open Go Server Store Organizations List Option

structure Group where
  (id organizationID : ULID)
  displayName : Bytes
  externalID : Bytes := []

structure SCIMToken where
  (id organizationID : ULID)
  tokenHash : Bytes
  (revokedAt lastUsedAt : Option Time := none)
  deriving DecidableEq

structure Attributes where
  (externalID name givenName familyName displayName : Bytes := [])
  disabledAt : Option Time := none

/-- The tables that SCIM changes. -/
structure ScimStore extends MemberStore where
  attributes : ULID → Attributes
  groups : GoMap ULID Group
  groupMembers : GoMap ULID (List ULID)
  scimTokens : GoMap ULID SCIMToken
  groupsKeyed : groups.Keyed Group.id
  scimTokensKeyed : scimTokens.Keyed SCIMToken.id

namespace ScimStore

variable (s : ScimStore)

def hasUser (id : ULID) : Bool := (s.accounts.users.lookup id).isSome

variable (groupID : ULID)

def membersOf : List ULID := (s.groupMembers.lookup groupID).getD []

def putMembers (members : List ULID) : ScimStore :=
  { s with groupMembers := s.groupMembers.insert groupID members }

@[simp] theorem membersOf_putMembers (groupID : ULID) (members : List ULID) :
    (s.putMembers groupID members).membersOf groupID = members := by
  rw [membersOf, putMembers, AList.lookup_insert, Option.getD_some]

def updateGroup (g : Group) : Option ScimStore :=
  (s.groups.lookup g.id).map fun existing =>
    { s with
      groups := s.groups.insert g.id { g with organizationID := existing.organizationID }
      groupsKeyed := s.groupsKeyed.insert rfl }

variable (userIDs : List ULID)

def setGroupMembers : Option ScimStore :=
  if (s.groups.lookup groupID).isNone || !userIDs.all s.hasUser then none
  else some (s.putMembers groupID userIDs)

def addGroupMembers : Bool × ScimStore :=
  let known := userIDs.takeWhile s.hasUser
  if (s.groups.lookup groupID).isNone then (false, s)
  else if known = userIDs ∨ (s.groupMembers.lookup groupID).isSome then
    (known = userIDs, s.putMembers groupID (s.membersOf groupID ++ known))
  else (false, s)

def removeGroupMembers : Option ScimStore :=
  (s.groupMembers.lookup groupID).map fun set => s.putMembers groupID (set.filter (· ∉ userIDs))

end ScimStore

/-! ## Patches -/

structure GroupRef where
  value : Bytes
  type : Bytes := []

/-- An operation of a patch. -/
structure PatchOp where
  (op path value : Bytes)

/-- `json.Unmarshal` into the types that a value is read as, `strings.EqualFold`, and
`Normalize` of an address. -/
class ScimLib where
  unmarshalString : Bytes → Option Bytes
  unmarshalRefs : Bytes → Option (List GroupRef)
  unmarshalRef : Bytes → Option GroupRef
  equalFold : Bytes → Bytes → Bool
  normalize : Bytes → Bytes

def GroupRef.isGroup [ScimLib] (r : GroupRef) : Bool := ScimLib.equalFold r.type (str "Group")

/-- What an operation does to members. -/
inductive MemberOp where
  | add (ids : List ULID)
  | remove (ids : List ULID)
  | replace (ids : List ULID)

inductive GroupOp where
  | displayName (text : Bytes)
  | externalID (text : Bytes)
  | members (op : MemberOp)

def GroupOp.memberOp : GroupOp → Option MemberOp
  | members op => some op
  | _ => none

section

variable [ScimLib] [UlidText] [CaseLib]

def resolveRefs (refs : List GroupRef) : Option (List ULID) :=
  if refs.any GroupRef.isGroup then none
  else refs.mapM fun r => UlidText.parse r.value

def parseGroupMemberRefs (raw : Bytes) : Option (List ULID) :=
  if raw = [] then none
  else match ScimLib.unmarshalRefs raw with
  | some refs => resolveRefs refs
  | none => (ScimLib.unmarshalRef raw).bind fun one => resolveRefs [one]

def readOp (op : PatchOp) : Option GroupOp :=
  let opName := CaseLib.toLower op.op
  let sets := opName = str "replace" ∨ opName = str "add"
  if op.path = str "displayName" ∧ sets then (ScimLib.unmarshalString op.value).map .displayName
  else if op.path = str "externalId" ∧ sets then
    (ScimLib.unmarshalString op.value).map .externalID
  else if op.path ≠ str "members" then none
  else if opName = str "add" then (parseGroupMemberRefs op.value).map (.members ∘ .add)
  else if opName = str "remove" then (parseGroupMemberRefs op.value).map (.members ∘ .remove)
  else if opName = str "replace" then (parseGroupMemberRefs op.value).map (.members ∘ .replace)
  else none

end

/-- `SentinelClearAll`: the zero identifier among the users to remove. -/
def sentinelClearAll : ULID := 0

/-- What a patch has collected. -/
structure GroupPatch where
  group : Group
  (adds removes : List ULID := [])

namespace MemberOp

def adds : MemberOp → List ULID
  | add ids | replace ids => ids
  | remove _ => []

def removes : MemberOp → List ULID
  | add _ => []
  | remove ids => ids
  | replace _ => [sentinelClearAll]

end MemberOp

def GroupPatch.take (p : GroupPatch) : GroupOp → GroupPatch
  | .displayName text => { p with group := { p.group with displayName := text } }
  | .externalID text => { p with group := { p.group with externalID := text } }
  | .members op => { p with adds := p.adds ++ op.adds, removes := p.removes ++ op.removes }

/-- The patch has collected the members of the operations. -/
structure Collected (p : GroupPatch) (ops : List MemberOp) (q : GroupPatch) : Prop where
  id : q.group.id = p.group.id
  adds : q.adds = p.adds ++ ops.flatMap MemberOp.adds
  removes : q.removes = p.removes ++ ops.flatMap MemberOp.removes

theorem collected_foldl (read : List GroupOp) (p : GroupPatch) :
    Collected p (read.filterMap GroupOp.memberOp) (read.foldl GroupPatch.take p) := by
  induction read generalizing p with
  | nil => exact ⟨rfl, (append_nil _).symm, (append_nil _).symm⟩
  | cons op _ ih =>
    obtain ⟨id, adds, removes⟩ := ih (p.take op)
    cases op with
    | displayName | externalID => exact ⟨id, adds, removes⟩
    | members => exact ⟨id, adds.trans (append_assoc _ _ _), removes.trans (append_assoc _ _ _)⟩

section

variable [ScimLib] [UlidText] [CaseLib]

/-- An operation that cannot be read refuses all of them. -/
def applyGroupPatch (g : Group) (ops : List PatchOp) : Option GroupPatch :=
  if ops.all fun op => (readOp op).isSome then
    some ((ops.filterMap readOp).foldl GroupPatch.take ⟨g, [], []⟩)
  else none

def memberOps (ops : List PatchOp) : List MemberOp :=
  (ops.filterMap readOp).filterMap GroupOp.memberOp

theorem collected_of_applyGroupPatch {g : Group} {ops : List PatchOp} {p : GroupPatch}
    (read : applyGroupPatch g ops = some p) : Collected ⟨g, [], []⟩ (memberOps ops) p := by
  unfold applyGroupPatch at read
  split at read
  · cases read
    exact collected_foldl _ _
  · cases read

end

namespace ScimStore

variable (s : ScimStore) (groupID : ULID)

def addMembers (adds : List ULID) : Bool × ScimStore :=
  if adds = [] then (true, s) else s.addGroupMembers groupID adds

def removeMembers (removes : List ULID) : Option ScimStore :=
  if removes = [] then some s else s.removeGroupMembers groupID removes

def writeMembers (adds removes : List ULID) : ℕ × ScimStore :=
  let cleanRemoves := removes.filter (· ≠ sentinelClearAll)
  if sentinelClearAll ∈ removes then
    match s.setGroupMembers groupID adds with
    | none => (400, s)
    | some next => (200, next)
  else
    let (ok, added) := s.addMembers groupID adds
    if !ok then (400, added)
    else match added.removeMembers groupID cleanRemoves with
    | none => (400, added)
    | some next => (200, next)

def handleGroupPatch [ScimLib] [UlidText] [CaseLib] (s : ScimStore) (orgID id : ULID)
    (ops : List PatchOp) : ℕ × ScimStore :=
  match (s.groups.lookup id).filter fun g => g.organizationID = orgID with
  | none => (404, s)
  | some g =>
    match applyGroupPatch g ops with
    | none => (400, s)
    | some p =>
      match s.updateGroup p.group with
      | none => (500, s)
      | some next => next.writeMembers p.group.id p.adds p.removes

variable {s next : ScimStore} {groupID : ULID} {ids adds removes : List ULID}

theorem membersOf_of_add (added : s.addMembers groupID ids = (true, next)) :
    next.membersOf groupID = s.membersOf groupID ++ ids := by
  unfold addMembers at added
  split at added
  next empty =>
    cases added
    rw [empty, append_nil]
  unfold addGroupMembers at added
  dsimp only at added
  split at added
  · cases added
  split at added
  · obtain ⟨all, rfl⟩ := Prod.mk.inj added
    rw [membersOf_putMembers, of_decide_eq_true all]
  · cases added

theorem mem_of_remove (removed : s.removeMembers groupID ids = some next) {u : ULID} :
    u ∈ next.membersOf groupID ↔ u ∈ s.membersOf groupID ∧ u ∉ ids := by
  unfold removeMembers at removed
  split at removed
  next empty =>
    cases removed
    rw [empty]
    exact (and_iff_left not_mem_nil).symm
  obtain ⟨_, here, rfl⟩ := map_eq_some_iff.mp removed
  rw [membersOf_putMembers, membersOf, here, mem_filter, decide_eq_true_iff]
  rfl

theorem mem_of_writeMembers (done : s.writeMembers groupID adds removes = (200, next)) (u : ULID) :
    u ∈ next.membersOf groupID ↔
      if sentinelClearAll ∈ removes then u ∈ adds
      else (u ∈ s.membersOf groupID ∨ u ∈ adds) ∧ u ∉ removes := by
  unfold writeMembers at done
  dsimp only at done
  split at done
  next clears =>
    rw [if_pos clears]
    split at done <;> cases done
    rename_i set
    unfold setGroupMembers at set
    split at set <;> cases set
    rw [membersOf_putMembers]
  rename_i keeps
  have clean : removes.filter (· ≠ sentinelClearAll) = removes :=
    filter_eq_self.mpr fun u listed => decide_eq_true fun same => keeps (same ▸ listed)
  rw [clean] at done
  cases added : s.addMembers groupID adds with
  | mk ok mid =>
    rw [added] at done
    cases ok with
    | false => cases done
    | true =>
      split at done
      · contradiction
      split at done <;> cases done
      rename_i removed
      rw [if_neg keeps, mem_of_remove removed, membersOf_of_add added, mem_append]

end ScimStore

/-! ## Operations in order -/

namespace MemberOp

variable {u : ULID} {members : List ULID} {op : MemberOp} {ops : List MemberOp}

def apply (members : List ULID) : MemberOp → List ULID
  | add ids => members ++ ids
  | remove ids => members.filter (· ∉ ids)
  | replace ids => ids

def inOrder (members : List ULID) (ops : List MemberOp) : List ULID := ops.foldl apply members

/-- The operation leaves the group without the member. -/
def Takes (u : ULID) : MemberOp → Prop
  | add _ => False
  | remove ids => u ∈ ids
  | replace ids => u ∉ ids

/-- The member is added and not taken out later. -/
def AddedLast (u : ULID) : List MemberOp → Prop
  | [] => False
  | op :: rest => AddedLast u rest ∨ u ∈ op.adds ∧ ∀ later ∈ rest, ¬ later.Takes u

theorem mem_apply : u ∈ op.apply members ↔ u ∈ op.adds ∨ u ∈ members ∧ ¬ op.Takes u := by
  cases op with
  | add => simp [apply, adds, Takes, or_comm]
  | remove => simp [apply, adds, Takes]
  | replace =>
    simp only [Takes, not_not]
    exact ⟨.inl, fun listed => listed.elim id And.right⟩

theorem mem_inOrder :
    u ∈ inOrder members ops ↔ AddedLast u ops ∨ u ∈ members ∧ ∀ op ∈ ops, ¬ op.Takes u := by
  induction ops generalizing members with
  | nil => simp [inOrder, AddedLast]
  | cons _ _ ih =>
    rw [inOrder, foldl_cons, ← inOrder, ih, mem_apply, AddedLast, forall_mem_cons]
    tauto

theorem exists_adds_of_addedLast (last : AddedLast u ops) : ∃ op ∈ ops, u ∈ op.adds := by
  induction ops with
  | nil => exact last.elim
  | cons op _ ih =>
    rcases last with later | ⟨here, _⟩
    · obtain ⟨other, listed, adds⟩ := ih later
      exact ⟨other, mem_cons_of_mem _ listed, adds⟩
    · exact ⟨op, mem_cons_self, here⟩

theorem addedLast_of_adds (kept : ∀ op ∈ ops, ¬ op.Takes u) (adds : ∃ op ∈ ops, u ∈ op.adds) :
    AddedLast u ops := by
  induction ops with
  | nil =>
    obtain ⟨_, listed, _⟩ := adds
    cases listed
  | cons _ _ ih =>
    obtain ⟨_, later⟩ := forall_mem_cons.mp kept
    obtain ⟨other, listed, adds⟩ := adds
    rcases mem_cons.mp listed with rfl | listed
    · exact .inr ⟨adds, later⟩
    · exact .inl (ih later ⟨other, listed, adds⟩)

theorem mem_removes (keeps : sentinelClearAll ∉ op.removes) : u ∈ op.removes ↔ op.Takes u := by
  cases op with
  | add => exact ⟨nofun, False.elim⟩
  | remove => exact Iff.rfl
  | replace => exact absurd (mem_singleton.mpr rfl) keeps

/-- Where the members are cleared, an operation decides about each of them, and whoever is named is
not taken out afterwards; elsewhere nobody is added for good after a removal. -/
def OrderFree (members : List ULID) (ops : List MemberOp) : Prop :=
  ∀ u, if ∃ op ∈ ops, sentinelClearAll ∈ op.removes then
      ((∃ op ∈ ops, u ∈ op.adds) → AddedLast u ops) ∧
        (u ∈ members → ∃ op ∈ ops, u ∈ op.adds ∨ op.Takes u)
    else (∃ op ∈ ops, op.Takes u) → ¬ AddedLast u ops

theorem orderFree_iff : OrderFree members ops ↔
    ∀ u, (if ∃ op ∈ ops, sentinelClearAll ∈ op.removes then ∃ op ∈ ops, u ∈ op.adds
      else (u ∈ members ∨ ∃ op ∈ ops, u ∈ op.adds) ∧ ¬ ∃ op ∈ ops, u ∈ op.removes) ↔
        u ∈ inOrder members ops := by
  refine forall_congr' fun u => ?_
  have first := @exists_adds_of_addedLast u ops
  have last := @addedLast_of_adds u ops
  rw [mem_inOrder]
  split
  · have either : (∃ op ∈ ops, u ∈ op.adds ∨ op.Takes u) ↔
        (∃ op ∈ ops, u ∈ op.adds) ∨ ¬ ∀ op ∈ ops, ¬ op.Takes u := by
      simp only [and_or_left, exists_or, not_forall, not_not, exists_prop]
    rw [either]
    generalize (∃ op ∈ ops, u ∈ op.adds) = named, (∀ op ∈ ops, ¬ op.Takes u) = kept at *
    tauto
  next keeps =>
    have removed : (∃ op ∈ ops, u ∈ op.removes) ↔ ¬ ∀ op ∈ ops, ¬ op.Takes u := by
      simp only [not_forall, not_not, exists_prop]
      refine exists_congr fun op => and_congr_right fun listed => ?_
      exact mem_removes fun clears => keeps ⟨op, listed, clears⟩
    have taken : (∃ op ∈ ops, op.Takes u) ↔ ¬ ∀ op ∈ ops, ¬ op.Takes u := by
      simp only [not_forall, not_not, exists_prop]
    rw [removed, taken]
    generalize (∃ op ∈ ops, u ∈ op.adds) = named, (∀ op ∈ ops, ¬ op.Takes u) = kept at *
    tauto

end MemberOp

section

variable [ScimLib] [UlidText] [CaseLib] {s : ScimStore} {orgID id : ULID} {ops : List PatchOp}

/-- **When an accepted PATCH request leaves the members that its operations give in their order.**
-/
theorem groupPatch_inOrder_iff (accepted : (s.handleGroupPatch orgID id ops).1 = 200) :
    (∀ u, u ∈ (s.handleGroupPatch orgID id ops).2.membersOf id ↔
        u ∈ MemberOp.inOrder (s.membersOf id) (memberOps ops)) ↔
      MemberOp.OrderFree (s.membersOf id) (memberOps ops) := by
  obtain ⟨next, accepted⟩ : ∃ next, s.handleGroupPatch orgID id ops = (200, next) :=
    ⟨_, Prod.ext accepted rfl⟩
  rw [accepted]
  unfold ScimStore.handleGroupPatch at accepted
  split at accepted
  · cases accepted
  rename_i found
  split at accepted
  · cases accepted
  rename_i p read
  split at accepted
  · cases accepted
  rename_i mid updated
  obtain ⟨own, adds, removes⟩ := collected_of_applyGroupPatch read
  have same : p.group.id = id := own.trans (s.groupsKeyed (filter_eq_some_iff.mp found).1)
  have kept : mid.membersOf id = s.membersOf id := by
    obtain ⟨_, -, rfl⟩ := map_eq_some_iff.mp updated
    rfl
  rw [same] at accepted
  rw [MemberOp.orderFree_iff, ← kept]
  refine forall_congr' fun u => ?_
  rw [ScimStore.mem_of_writeMembers accepted, adds, removes]
  simp only [nil_append, mem_flatMap]

end

def ScimStore.sample (members : List ULID) : ScimStore where
  toMemberStore := ownedBy [5, 6]
  attributes := fun _ => {}
  groups := (∅ : GoMap ULID Group).insert 2 ⟨2, 1, [], []⟩
  groupMembers := (∅ : GoMap ULID (List ULID)).insert 2 members
  scimTokens := ∅
  groupsKeyed := .insert .empty rfl
  scimTokensKeyed := .empty

@[reducible]
def ScimLib.single : ScimLib where
  unmarshalString := some
  unmarshalRefs raw := some [⟨raw.tail, []⟩]
  unmarshalRef _ := none
  equalFold a b := a == b
  normalize := id

def PatchOp.onMember (op : String) (id : ULID) : PatchOp :=
  ⟨str op, str "members", List.replicate (id + 1) 0x31⟩

attribute [local instance] ScimLib.single UlidText.unary CaseLib.ascii

theorem groupPatch_inOrder_of_two :
    let ops := [PatchOp.onMember "remove" 5, .onMember "add" 6]
    let answer := (ScimStore.sample [5]).handleGroupPatch 1 2 ops
    answer.1 = 200 ∧ ∀ u, u ∈ answer.2.membersOf 2 ↔ u ∈ MemberOp.inOrder [5] (memberOps ops) := by
  refine ⟨rfl, (groupPatch_inOrder_iff rfl).mpr ?_⟩
  have read : memberOps [PatchOp.onMember "remove" 5, .onMember "add" 6] =
      [.remove [5], .add [6]] := rfl
  intro u
  rw [read]
  suffices apart : u = 5 → ¬ u = 6 by simpa [MemberOp.AddedLast, MemberOp.Takes, MemberOp.adds]
  rintro rfl
  decide

/-- A user who is removed and added again is gone, and one who was added before the members are
replaced is still there. -/
theorem groupPatch_out_of_order :
    let patched (ops : List PatchOp) : ℕ × List ULID × List ULID :=
      let (status, next) := (ScimStore.sample [5]).handleGroupPatch 1 2 ops
      (status, next.membersOf 2, MemberOp.inOrder [5] (memberOps ops))
    patched [.onMember "remove" 5, .onMember "add" 5] = (200, [], [5]) ∧
      patched [.onMember "add" 6, .onMember "replace" 5] = (200, [6, 5], [5]) ∧
      patched [.onMember "remove" 0] = (200, [], [5]) := by
  refine ⟨rfl, rfl, rfl⟩

end TheAuth.Scim
