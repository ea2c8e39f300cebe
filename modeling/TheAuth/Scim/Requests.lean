import TheAuth.Scim.Groups

/-!
# The SCIM requests of one organization

The handlers look users and groups up in the organization of the bearer token, except that
`handleUserCreate` falls back on any user, the members of a group may be any users, and
`handleTokenDelete` revokes any token. Other requests (`Inside`) touch only what is its own.
-/

set_option autoImplicit false

namespace TheAuth.Scim

open Go Server Store Organizations Library.Frame Library.Run AList ScimStore Option List Bool GoMap

structure UserEmail where
  value : Bytes
  primary : Bool

structure UserBody where
  userName : Bytes
  externalID : Bytes := []
  givenName : Bytes := []
  familyName : Bytes := []
  formatted : Bytes := []
  displayName : Bytes := []
  emails : List UserEmail := []
  password : Bytes := []

structure GroupBody where
  displayName : Bytes
  externalID : Bytes := []
  members : List GroupRef := []

def nonEmpty (a b : Bytes) : Bytes := if a ≠ [] then a else b

section

variable [ScimLib] [UlidText] [CaseLib]

def parsePrimaryEmail (emails : List UserEmail) : Bytes :=
  (((emails.find? UserEmail.primary).or emails.head?).map fun e => CaseLib.toLower e.value).getD []

def UserBody.email (body : UserBody) : Bytes :=
  ScimLib.normalize (nonEmpty (parsePrimaryEmail body.emails) body.userName)

def refsToULIDs (refs : List GroupRef) : Option (List ULID) :=
  if refs.any GroupRef.isGroup then none
  else (refs.filter fun r => r.value ≠ []).mapM fun r => UlidText.parse r.value

end

namespace ScimStore

variable (s : ScimStore) (orgID : ULID)

def user (u : ULID) : Option User × Attributes × (ULID → Option OrganizationMember) :=
  (s.accounts.users.lookup u, s.attributes u, fun org => s.members.lookup (u, org))

variable (userID : ULID)

def isMember : Bool := (s.organizationMemberRole orgID userID).isSome

variable (id : ULID)

def writeUser (email : Bytes) (a : Attributes) : ScimStore :=
  { s with
    toMemberStore := s.createUser ⟨id, email⟩
    attributes := Function.update s.attributes id a }

def updateUserSCIM (email : Bytes) (a : Attributes) : Option ScimStore :=
  if s.hasUser id then
    some (s.writeUser id email { a with disabledAt := (s.attributes id).disabledAt })
  else none

def userByExternalIDInOrg (externalID : Bytes) : Option ULID :=
  (s.members.values.find? fun m => m.organizationID == orgID && s.hasUser m.userID &&
    (s.attributes m.userID).externalID == externalID).map OrganizationMember.userID

def writeMember (c : Change) (now : Time) : ScimStore :=
  match s.write c now with
  | none => s
  | some next => { s with toMemberStore := next }

variable (now : Time)

def ensureOrgMembership : ScimStore :=
  if s.isMember orgID userID then s
  else s.writeMember ⟨orgID, userID, some orgRoleMember, 0⟩ now

/-- The user that `handleUserCreate` takes for the one of the request. -/
def existingUser [ScimLib] [CaseLib] (body : UserBody) : Option ULID :=
  if body.externalID = [] then none
  else (s.userByExternalIDInOrg orgID body.externalID).or <|
    ((s.accounts.userByEmail body.email).map User.id).filter fun id =>
      (s.attributes id).externalID = body.externalID

def handleUserCreate [ScimLib] [CaseLib] (body : UserBody) (newID : ULID) (now : Time) :
    ScimStore :=
  let displayName := nonEmpty body.displayName body.formatted
  if body.password ≠ [] ∨ body.userName = [] then s
  else match s.existingUser orgID body with
  | some id =>
      match s.updateUserSCIM id body.email
        { s.attributes id with
          givenName := body.givenName
          familyName := body.familyName
          displayName
          name := nonEmpty body.formatted displayName } with
      | none => s
      | some next => next.ensureOrgMembership orgID id now
  | none =>
      (s.writeUser newID body.email
        { externalID := body.externalID
          name := nonEmpty body.formatted body.displayName
          givenName := body.givenName
          familyName := body.familyName
          displayName }).writeMember ⟨orgID, newID, some orgRoleMember, 0⟩ now

def endSessions (ends : Session → Bool) (now : Time) : ScimStore :=
  { s with
    accounts :=
      { s.accounts with
        sessions := s.accounts.sessions.mapValues fun sess =>
          if ends sess then { sess with revokedAt := some now } else sess
        sessionsKeyed := s.accounts.sessionsKeyed.mapValues fun sess => by split <;> rfl } }

/-- `deprovision`: in the last organization of the user all sessions end and the user is
disabled, elsewhere the sessions that are active in the organization end. -/
def deprovision : ScimStore :=
  let last := (s.organizationsByUser userID).all (· == orgID)
  let ended := s.endSessions (fun sess => sess.userID == userID && sess.revokedAt.isNone &&
    (last || now < sess.expiresAt && sess.activeOrganizationID == some orgID)) now
  let a := ended.attributes userID
  let disabled := { ended with
    attributes := Function.update ended.attributes userID
      { a with disabledAt := if last then some now else a.disabledAt } }
  disabled.writeMember ⟨orgID, userID, none, 0⟩ now

/-- `handleUserPatch`, over what `ApplyUserPatch` makes of the user: the address, the other
attributes and whether the user stays active. -/
def handleUserPatch (patch : Bytes → Attributes → Option (Bytes × Attributes × Bool))
    (now : Time) : ScimStore :=
  match (s.accounts.users.lookup id).bind fun user => patch user.email (s.attributes id) with
  | none => s
  | some (email, a, active) =>
      if !s.isMember orgID id then s
      else match s.updateUserSCIM id email a with
      | none => s
      | some next => if active then next else next.deprovision orgID id now

def handleUserDelete : ScimStore :=
  if s.hasUser id && s.isMember orgID id then s.deprovision orgID id now else s

/-- A group that has the identifier is one of the organization. -/
def Owns : Prop := ∀ g, s.groups.lookup id = some g → g.organizationID = orgID

def groupByExternalIDInOrg (externalID : Bytes) : Option Group :=
  if externalID = [] then none
  else (s.groups.find? fun g => g.organizationID == orgID && g.externalID == externalID).map
    Prod.snd

/-- `InsertGroup`: `none` is `ErrNotFound`, also for a name that is taken. -/
def insertGroup (g : Group) : Option ScimStore :=
  if (s.orgs.lookup g.organizationID).isNone || s.groups.values.any fun existing =>
      existing.organizationID == g.organizationID && existing.displayName == g.displayName then none
  else some
    { s with
      groups := s.groups.insert g.id g
      groupsKeyed := s.groupsKeyed.insert rfl
      groupMembers := s.groupMembers.insert g.id [] }

def assign [ScimLib] [UlidText] (groupID : ULID) (refs : List GroupRef) : ScimStore :=
  ((refsToULIDs refs).bind (s.setGroupMembers groupID)).getD s

def handleGroupCreate [ScimLib] [UlidText] (body : GroupBody) (newID : ULID) : ScimStore :=
  if body.displayName = [] ∨ body.members.any GroupRef.isGroup then s
  else match s.groupByExternalIDInOrg orgID body.externalID with
  | some existing =>
      match s.updateGroup { existing with displayName := body.displayName } with
      | none => s
      | some next => next.assign existing.id body.members
  | none =>
      match s.insertGroup ⟨newID, orgID, body.displayName, body.externalID⟩ with
      | none => s
      | some next => next.assign newID body.members

def handleGroupDelete : ScimStore :=
  if (s.groups.lookup id).any fun g => g.organizationID = orgID then
    { s with
      groups := s.groups.erase id
      groupsKeyed := s.groupsKeyed.erase id
      groupMembers := s.groupMembers.erase id }
  else s

def setToken (t : SCIMToken) : ScimStore :=
  { s with
    scimTokens := s.scimTokens.insert t.id t
    scimTokensKeyed := s.scimTokensKeyed.insert rfl }

def authenticate (presented : Bytes) : Option SCIMToken :=
  if presented = [] then none
  else ((s.scimTokens.find? fun t => t.tokenHash == hashToken presented).map Prod.snd).filter
    fun t => t.revokedAt = none

def handleTokenDelete (caller id : ULID) (now : Time) : ScimStore :=
  match s.scimTokens.lookup id with
  | none => s
  | some t =>
      if s.organizationMemberRole orgID caller = some orgRoleOwner then
        s.setToken { t with revokedAt := some now }
      else s

end ScimStore

/-! ## Frames -/

/-- Only users in `U` change or join a group, and no group, membership or token of another
organization changes. -/
structure Within (U : ULID → Prop) (orgID : ULID) (before after : ScimStore) : Prop where
  users : ∀ u, ¬ U u → after.user u = before.user u
  added : ∀ id u, u ∈ after.membersOf id → u ∈ before.membersOf id ∨ U u
  groups : Spares (fun g => g.organizationID ≠ orgID) before.groups after.groups
  groupMembers : ∀ id g, before.groups.lookup id = some g → g.organizationID ≠ orgID →
    after.groupMembers.lookup id = before.groupMembers.lookup id
  tokens : Spares (fun t => t.organizationID ≠ orgID) before.scimTokens after.scimTokens

namespace Within

variable {U : ULID → Prop} {orgID id : ULID} {s mid next : ScimStore} {now : Time}

theorem refl (s : ScimStore) : Within U orgID s s :=
  ⟨fun _ _ => rfl, fun _ _ => .inl, .refl _ _, fun _ _ _ _ => rfl, .refl _ _⟩

theorem trans (one : Within U orgID s mid) (two : Within U orgID mid next) :
    Within U orgID s next where
  users u other := (two.users u other).trans (one.users u other)
  added id u inside := (two.added id u inside).elim (one.added id u) .inr
  groups := one.groups.trans two.groups
  groupMembers id g found other :=
    (two.groupMembers id g ((one.groups id g other).mp found) other).trans
      (one.groupMembers id g found other)
  tokens := one.tokens.trans two.tokens

/-- A change of one user. -/
theorem of_user {ms : MemberStore} {attributes : ULID → Attributes} (may : U id)
    (users : ∀ u ≠ id, ms.accounts.users.lookup u = s.accounts.users.lookup u)
    (known : ∀ u ≠ id, attributes u = s.attributes u)
    (members : ∀ u ≠ id, ∀ org, ms.members.lookup (u, org) = s.members.lookup (u, org)) :
    Within U orgID s { s with toMemberStore := ms, attributes } := by
  refine { refl s with users := fun u other => ?_ }
  have apart : u ≠ id := fun same => other (same ▸ may)
  exact Prod.ext (users u apart) (Prod.ext (known u apart) (funext (members u apart)))

theorem writeUser (may : U id) (email : Bytes) (a : Attributes) :
    Within U orgID s (s.writeUser id email a) :=
  of_user may (fun _ other => lookup_insert_ne other)
    (fun _ other => Function.update_of_ne other _ _) fun _ _ _ => rfl

theorem updateUserSCIM (may : U id) {email : Bytes} {a : Attributes}
    (done : s.updateUserSCIM id email a = some next) : Within U orgID s next := by
  unfold ScimStore.updateUserSCIM at done
  split at done <;> cases done
  exact .writeUser may _ _

theorem writeMember {c : Change} (may : U c.userID) : Within U orgID s (s.writeMember c now) := by
  unfold ScimStore.writeMember
  split
  · exact .refl s
  rename_i ms done
  have row : ms.accounts = s.accounts ∧
      ∀ u ≠ c.userID, ∀ org, ms.members.lookup (u, org) = s.members.lookup (u, org) := by
    obtain ⟨_, -, same⟩ | ⟨-, same⟩ := MemberStore.of_write done <;> rw [same]
    · exact ⟨rfl, fun u other _ => lookup_insert_ne fun same => other (congrArg Prod.fst same)⟩
    · exact ⟨rfl, fun u other _ => lookup_erase_ne fun same => other (congrArg Prod.fst same)⟩
  exact of_user may (fun _ _ => by rw [row.1]) (fun _ _ => rfl) row.2

theorem deprovision (may : U id) : Within U orgID s (s.deprovision orgID id now) := by
  refine trans ?_ (writeMember may)
  exact of_user may (fun _ _ => rfl) (fun _ other => Function.update_of_ne other _ _)
    fun _ _ _ => rfl

/-- A change of one group of the organization. -/
theorem of_group {groups : GoMap ULID Group} {keyed : groups.Keyed Group.id}
    {members : GoMap ULID (List ULID)} (own : s.Owns orgID id)
    (rows : Spares (fun g => g.organizationID ≠ orgID) s.groups groups)
    (others : ∀ other ≠ id, members.lookup other = s.groupMembers.lookup other)
    (added : ∀ u ∈ (members.lookup id).getD [], u ∈ s.membersOf id ∨ U u) :
    Within U orgID s
      { s with groups, groupsKeyed := keyed, groupMembers := members } := by
  refine { refl s with
    groups := rows, added := fun key u inside => ?_, groupMembers := fun key g found other => ?_ }
  · by_cases same : key = id
    · subst same
      exact added u inside
    · rw [membersOf, others key same] at inside
      exact .inl inside
  · exact others key fun same => other (own g (same ▸ found))

/-- No group of another organization comes to stand where none was. -/
theorem own (within : Within U orgID s next) (own : s.Owns orgID id) : next.Owns orgID id := by
  intro g here
  by_contra other
  exact other (own g ((within.groups id g other).mpr here))

theorem updateGroup {g : Group} (done : s.updateGroup g = some next) (own : s.Owns orgID g.id) :
    Within U orgID s next := by
  obtain ⟨existing, found, rfl⟩ := map_eq_some_iff.mp done
  exact { refl s with
    groups := .insert (fun row here => not_not.mpr (own row here))
      (not_not.mpr (own existing found)) }

theorem insertGroup {g : Group} (done : s.insertGroup g = some next)
    (fresh : s.groups.lookup g.id = none) (own : g.organizationID = orgID) :
    Within U orgID s next := by
  unfold ScimStore.insertGroup at done
  split at done <;> cases done
  have new : ∀ row, s.groups.lookup g.id ≠ some row := fun row => fresh ▸ nofun
  refine of_group (fun row here => absurd here (new row))
    (.insert (fun row here => absurd here (new row)) (not_not.mpr own))
    (fun _ other => lookup_insert_ne other) fun u inside => ?_
  rw [lookup_insert] at inside
  cases inside

section

variable (own : s.Owns orgID id)
include own

variable {ids : List ULID}

theorem putMembers
    (may : ∀ u ∈ ids, u ∈ s.membersOf id ∨ U u) : Within U orgID s (s.putMembers id ids) :=
  of_group own (.refl _ _) (fun _ other => lookup_insert_ne other) (by rwa [lookup_insert])

theorem setGroupMembers (may : ∀ u ∈ ids, U u)
    (done : s.setGroupMembers id ids = some next) : Within U orgID s next := by
  unfold ScimStore.setGroupMembers at done
  split at done <;> cases done
  exact .putMembers own fun u listed => .inr (may u listed)

theorem addMembers (may : ∀ u ∈ ids, U u) :
    Within U orgID s (s.addMembers id ids).2 := by
  unfold ScimStore.addMembers
  split
  · exact .refl s
  unfold ScimStore.addGroupMembers
  dsimp only
  split
  · exact .refl s
  split
  · refine .putMembers own fun u inside => (mem_append.mp inside).imp_right fun known => ?_
    exact may u ((takeWhile_sublist _).subset known)
  · exact .refl s

theorem removeMembers (done : s.removeMembers id ids = some next) : Within U orgID s next := by
  unfold ScimStore.removeMembers at done
  split at done
  · cases done
    exact .refl s
  obtain ⟨_, here, rfl⟩ := map_eq_some_iff.mp done
  refine .putMembers own fun u inside => .inl ?_
  rw [ScimStore.membersOf, here]
  exact (mem_filter.mp inside).1

theorem writeMembers {adds removes : List ULID} (may : ∀ u ∈ adds, U u) :
    Within U orgID s (s.writeMembers id adds removes).2 := by
  have added : Within U orgID s (s.addMembers id adds).2 := .addMembers own may
  unfold ScimStore.writeMembers
  dsimp only
  split
  · split
    · exact .refl s
    next done => exact .setGroupMembers own may done
  split
  · exact added
  split
  · exact added
  next removed => exact added.trans (.removeMembers (added.own own) removed)

end

theorem handleGroupPatch [ScimLib] [UlidText] [CaseLib] {ops : List PatchOp}
    (may : ∀ op ∈ memberOps ops, ∀ u ∈ op.adds, U u) :
    Within U orgID s (s.handleGroupPatch orgID id ops).2 := by
  unfold ScimStore.handleGroupPatch
  split
  · exact .refl s
  rename_i found
  split
  · exact .refl s
  rename_i p read
  split
  · exact .refl s
  rename_i mid updated
  obtain ⟨found, own⟩ := filter_eq_some_iff.mp found
  obtain ⟨same, adds, -⟩ := collected_of_applyGroupPatch read
  rw [← s.groupsKeyed found, ← same] at found
  have stays : s.Owns orgID p.group.id := by
    intro _ here
    cases found.symm.trans here
    exact of_decide_eq_true own
  have within : Within U orgID s mid := .updateGroup updated stays
  refine within.trans (.writeMembers (within.own stays) fun u inside => ?_)
  rw [adds, nil_append, mem_flatMap] at inside
  obtain ⟨op, listed, named⟩ := inside
  exact may op listed u named

theorem assign [ScimLib] [UlidText] {refs : List GroupRef} (own : s.Owns orgID id)
    (may : ∀ ids, refsToULIDs refs = some ids → ∀ u ∈ ids, U u) :
    Within U orgID s (s.assign id refs) := by
  unfold ScimStore.assign
  cases done : (refsToULIDs refs).bind (s.setGroupMembers id) with
  | none => exact .refl s
  | some =>
      obtain ⟨ids, read, set⟩ := bind_eq_some_iff.mp done
      exact .setGroupMembers own (may ids read) set

theorem handleGroupCreate [ScimLib] [UlidText] {body : GroupBody}
    (fresh : s.groups.lookup id = none)
    (may : ∀ ids, refsToULIDs body.members = some ids → ∀ u ∈ ids, U u) :
    Within U orgID s (s.handleGroupCreate orgID body id) := by
  unfold ScimStore.handleGroupCreate
  split
  · exact .refl s
  split
  next found =>
    split
    · exact .refl s
    rename_i mid updated
    unfold ScimStore.groupByExternalIDInOrg at found
    split at found
    · cases found
    obtain ⟨⟨_, g⟩, first, rfl⟩ := map_eq_some_iff.mp found
    obtain ⟨stored, holds⟩ := find?_eq_some first
    rw [and_eq_true, beq_iff_eq] at holds
    rw [← s.groupsKeyed stored] at stored
    have own : s.Owns orgID g.id := by
      intro row here
      cases stored.symm.trans here
      exact holds.1
    have within : Within U orgID s mid := .updateGroup updated own
    exact within.trans (.assign (within.own own) may)
  split
  · exact .refl s
  rename_i mid inserted
  have within : Within U orgID s mid := .insertGroup inserted fresh rfl
  refine within.trans (.assign (within.own fun g here => ?_) may)
  cases fresh.symm.trans here

theorem handleGroupDelete : Within U orgID s (s.handleGroupDelete orgID id) := by
  unfold ScimStore.handleGroupDelete
  split
  next inside =>
    obtain ⟨_, found, own⟩ := (any_eq_true _ _).mp inside
    have owns : s.Owns orgID id := fun row here =>
      some.inj (found.symm.trans here) ▸ of_decide_eq_true own
    refine of_group owns (.erase fun row here => not_not.mpr (owns row here))
      (fun _ other => lookup_erase_ne other) fun u inside => ?_
    rw [lookup_erase] at inside
    cases inside
  · exact .refl s

theorem handleUserCreate [ScimLib] [CaseLib] {body : UserBody} (new : U id)
    (may : ∀ user, s.existingUser orgID body = some user → U user) :
    Within U orgID s (s.handleUserCreate orgID body id now) := by
  unfold ScimStore.handleUserCreate
  dsimp only
  split
  · exact .refl s
  split
  next user found =>
    split
    · exact .refl s
    rename_i mid updated
    refine trans (updateUserSCIM (may user found) updated) ?_
    unfold ScimStore.ensureOrgMembership
    split
    · exact .refl mid
    · exact writeMember (may user found)
  · exact trans (writeUser new _ _) (writeMember new)

theorem handleUserPatch {patch : Bytes → Attributes → Option (Bytes × Attributes × Bool)}
    (may : s.isMember orgID id = true → U id) :
    Within U orgID s (s.handleUserPatch orgID id patch now) := by
  unfold ScimStore.handleUserPatch
  split
  · exact .refl s
  split
  · exact .refl s
  next member =>
    have own : U id := may (by simpa using member)
    split
    · exact .refl s
    next updated =>
      split
      · exact .updateUserSCIM own updated
      · exact .trans (.updateUserSCIM own updated) (.deprovision own)

theorem handleUserDelete (may : s.isMember orgID id = true → U id) :
    Within U orgID s (s.handleUserDelete orgID id now) := by
  unfold ScimStore.handleUserDelete
  split
  next here => exact .deprovision (may (and_eq_true_iff.mp here).2)
  · exact .refl s

theorem setToken {t : SCIMToken} (own : t.organizationID = orgID)
    (old : ∀ row, s.scimTokens.lookup t.id = some row → row.organizationID = orgID) :
    Within U orgID s (s.setToken t) :=
  { refl s with
    tokens := .insert (fun row here => not_not.mpr (old row here)) (not_not.mpr own) }

end Within

/-! ## Calls -/

/-- A call with its credentials. -/
inductive Request where
  | createUser (body : UserBody)
  | patchUser (id : ULID) (patch : Bytes → Attributes → Option (Bytes × Attributes × Bool))
  | deleteUser (id : ULID)
  | createGroup (body : GroupBody)
  | patchGroup (id : ULID) (ops : List PatchOp)
  | deleteGroup (id : ULID)

/-- A request with a bearer token, or the deletion of a token by a user who is signed in. -/
inductive Call where
  | scim (presented : Bytes) (request : Request)
  | deleteToken (caller orgID id : ULID)

/-- A call with its time and draw. -/
structure Action where
  call : Call
  now : Time := 0
  newID : ULID := 0

section

variable [ScimLib] [UlidText] [CaseLib]

def handle (s : ScimStore) (orgID newID : ULID) (now : Time) : Request → ScimStore
  | .createUser body => s.handleUserCreate orgID body newID now
  | .patchUser id patch => s.handleUserPatch orgID id patch now
  | .deleteUser id => s.handleUserDelete orgID id now
  | .createGroup body => s.handleGroupCreate orgID body newID
  | .patchGroup id ops => (s.handleGroupPatch orgID id ops).2
  | .deleteGroup id => s.handleGroupDelete orgID id

/-- One call. -/
def serve (s : ScimStore) (act : Action) : ScimStore :=
  match act.call with
  | .scim presented request =>
    match s.authenticate presented with
    | none => s
    | some t =>
      handle (s.setToken { t with lastUsedAt := some act.now }) t.organizationID act.newID act.now
        request
  | .deleteToken caller orgID id => s.handleTokenDelete orgID caller id act.now

variable (orgID : ULID)

/-- The call is one of the organization. -/
def ActsFor (s : ScimStore) (act : Action) : Prop :=
  match act.call with
  | .scim presented _ => ∀ t, s.authenticate presented = some t → t.organizationID = orgID
  | .deleteToken _ org _ => org = orgID

/-- Who has the address and the external identifier of the request is a member. -/
def NoneOutside (s : ScimStore) (body : UserBody) : Prop :=
  body.externalID ≠ [] → ∀ id user, s.accounts.users.lookup id = some user →
    user.email = body.email → (s.attributes id).externalID = body.externalID →
      s.isMember orgID id = true

/-- The identifiers are new, nobody outside is taken for a user to create or named as a member
of a group, and a token to delete is one of the organization. -/
def Inside (s : ScimStore) (act : Action) : Prop :=
  match act.call with
  | .scim _ (.createUser body) => s.hasUser act.newID = false ∧ NoneOutside orgID s body
  | .scim _ (.createGroup body) =>
    s.groups.lookup act.newID = none ∧
      ∀ ids, refsToULIDs body.members = some ids → ∀ u ∈ ids, s.isMember orgID u = true
  | .scim _ (.patchGroup _ ops) => ∀ op ∈ memberOps ops, ∀ u ∈ op.adds, s.isMember orgID u = true
  | .scim _ _ => True
  | .deleteToken _ _ id => ∀ t, s.scimTokens.lookup id = some t → t.organizationID = orgID

/-- Only members of the organization and new users are touched, and only what is its own. -/
def Isolated (s next : ScimStore) : Prop :=
  Within (fun u => s.isMember orgID u = true ∨ s.hasUser u = false) orgID s next

variable {orgID : ULID} {s : ScimStore} {act : Action}

omit [ScimLib] [UlidText] [CaseLib] in
theorem of_authenticate {presented : Bytes} {t : SCIMToken}
    (found : s.authenticate presented = some t) : s.scimTokens.lookup t.id = some t := by
  unfold authenticate at found
  split at found
  · cases found
  obtain ⟨⟨_, _⟩, first, rfl⟩ := map_eq_some_iff.mp (filter_eq_some_iff.mp found).1
  obtain ⟨stored, -⟩ := find?_eq_some first
  rwa [← s.scimTokensKeyed stored] at stored

omit [UlidText] in
theorem isMember_of_existingUser {body : UserBody} {id : ULID}
    (inside : NoneOutside orgID s body) (found : s.existingUser orgID body = some id) :
    s.isMember orgID id = true := by
  unfold existingUser at found
  split at found
  · cases found
  next named =>
    obtain first | ⟨-, second⟩ := or_eq_some_iff.mp found
    · obtain ⟨_, listed, rfl⟩ := map_eq_some_iff.mp first
      obtain ⟨_, stored⟩ := mem_values.mp (mem_of_find?_eq_some listed)
      have holds := find?_some listed
      rw [and_eq_true, and_eq_true, beq_iff_eq] at holds
      rw [← s.membersKeyed stored] at stored
      rw [isMember, OrgStore.organizationMemberRole, ← holds.1.1, stored]
      rfl
    · obtain ⟨byEmail, same⟩ := filter_eq_some_iff.mp second
      obtain ⟨_, address, rfl⟩ := map_eq_some_iff.mp byEmail
      obtain ⟨⟨_, _⟩, first, rfl⟩ := map_eq_some_iff.mp address
      obtain ⟨stored, email⟩ := find?_eq_some first
      rw [← s.accounts.usersKeyed stored] at stored
      exact inside named _ _ stored (beq_iff_eq.mp email) (of_decide_eq_true same)

/-- **A call that stays inside its organization touches nothing else.** -/
theorem isolated_serve (acts : ActsFor orgID s act) (inside : Inside orgID s act) :
    Isolated orgID s (serve s act) := by
  obtain ⟨call, now, _⟩ := act
  cases call with
  | deleteToken caller org id =>
    change Within _ _ s (s.handleTokenDelete org caller id now)
    unfold handleTokenDelete
    split
    · exact .refl s
    next t found =>
      split
      · refine .setToken (inside t found) fun row here => inside row ?_
        rw [← s.scimTokensKeyed found]
        exact here
      · exact .refl s
  | scim _ request =>
    unfold serve
    dsimp only
    split
    · exact .refl s
    next t found =>
      obtain rfl := acts t found
      have touched : Isolated t.organizationID s
          (s.setToken { t with lastUsedAt := some now }) := by
        refine .setToken rfl fun row here => ?_
        cases (of_authenticate found).symm.trans here
        rfl
      refine touched.trans ?_
      cases request with
      | createUser =>
        exact .handleUserCreate (.inr inside.1) fun user found =>
          .inl (isMember_of_existingUser inside.2 found)
      | patchUser => exact .handleUserPatch .inl
      | deleteUser => exact .handleUserDelete .inl
      | createGroup =>
        exact .handleGroupCreate inside.1 fun ids read u listed => .inl (inside.2 ids read u listed)
      | patchGroup => exact .handleGroupPatch fun op listed u adds => .inl (inside op listed u adds)
      | deleteGroup => exact .handleGroupDelete

def step (s : ScimStore) (act : Action) : Option ScimStore := some (serve s act)

/-- **Calls of an organization that stay inside it touch nothing else.** Each of them leaves every
user alone who is no member at the time, and adds none of them to a group. And none changes a
group, a membership or a token of another organization, so all of them are as before in the end. -/
theorem scim_calls_isolated (orgID : ULID) (s : ScimStore) (acts : List Action)
    (authorized : Throughout step (ActsFor orgID) s acts)
    (inside : Throughout step (Inside orgID) s acts) :
    Throughout step (fun s act => Isolated orgID s (serve s act)) s acts ∧
      ∀ last, run step s acts = some last → Within (fun _ => True) orgID s last := by
  have both := authorized.and inside
  refine ⟨both.mono fun holds => isolated_serve holds.1 holds.2, fun last ran => ?_⟩
  have keeps : ∀ {mid act next}, Within (fun _ => True) orgID s mid →
      ActsFor orgID mid act ∧ Inside orgID mid act → step mid act = some next →
        Within (fun _ => True) orgID s next := by
    intro _ _ _ earlier holds taken
    cases taken
    exact earlier.trans { isolated_serve holds.1 holds.2 with
      users := fun _ other => absurd trivial other
      added := fun _ _ _ => .inr trivial }
  exact invariant_of_run_throughout keeps (.refl s) both ran

end

def ScimStore.shared : ScimStore :=
  ({ ScimStore.sample [5] with
    toMemberStore := (ownedBy [5, 6]).createUser ⟨7, [7]⟩
    attributes := Function.update (fun _ => {}) 7 { externalID := str "e" } }.setToken
      ⟨9, 1, hashToken (str "t"), none, none⟩).setToken ⟨10, 3, [], none, none⟩

attribute [local instance] ScimLib.single UlidText.unary CaseLib.ascii

/-- Two members are deleted. -/
def deletions : List Action :=
  [⟨.scim (str "t") (.deleteUser 5), 0, 0⟩, ⟨.scim (str "t") (.deleteUser 6), 0, 0⟩]

theorem scim_calls_isolated_deletion :
    Throughout step (fun s act => Isolated 1 s (serve s act)) shared deletions ∧
      ∀ last, run step shared deletions = some last → Within (fun _ => True) 1 shared last := by
  have own : ∀ {s : ScimStore}, (s.authenticate (str "t")).all (·.organizationID == 1) = true →
      ∀ t, s.authenticate (str "t") = some t → t.organizationID = 1 := by
    intro s all t found
    rw [found] at all
    exact beq_iff_eq.mp all
  have authorized : Throughout step (ActsFor 1) shared deletions := by
    unfold deletions
    refine ⟨own (by decide +kernel), fun next taken => ⟨?_, fun _ _ => trivial⟩⟩
    rw [← Option.some.inj taken]
    exact own (by decide +kernel)
  have inside : Throughout step (Inside 1) shared deletions := by
    unfold deletions
    exact ⟨trivial, fun _ _ => ⟨trivial, fun _ _ => trivial⟩⟩
  exact scim_calls_isolated 1 shared deletions authorized inside

/-- With the token of organization 1, user 7 becomes a member by an address and an external
identifier, and a member of group 2. The owner of organization 1 revokes the token of
organization 3. -/
theorem scim_calls_reach_outside :
    let s := shared
    s.hasUser 7 = true ∧ s.isMember 1 7 = false ∧
      (serve s ⟨.scim (str "t") (.createUser { userName := [7], externalID := str "e" }), 0,
        8⟩).isMember 1 7 = true ∧
      7 ∈ (serve s ⟨.scim (str "t") (.patchGroup 2 [.onMember "add" 7]), 0, 0⟩).membersOf 2 ∧
      (serve s ⟨.deleteToken 5 1 10, 0, 0⟩).scimTokens.lookup 10 =
        some ⟨10, 3, [], some 0, none⟩ := by
  decide +kernel

end TheAuth.Scim
