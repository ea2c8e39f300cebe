import TheAuth.Store.Users

/-!
# Organizations, roles and grants in the memory store

A role belongs to an organization, or to none when it is a system role. A grant stands under the
pair of the user and the role. An organization has users only through its members.
-/

set_option autoImplicit false

namespace TheAuth.Store

open Go Server Library.Frame AList Option

structure Organization where
  id : ULID

structure OrganizationMember where
  (organizationID userID : ULID)
  role : Bytes
  joinedAt : Time

structure Permission where
  id : ULID
  name : Bytes

/-- A role of an organization or of the system. -/
structure Role where
  id : ULID
  organizationID : Option ULID
  (name description : Bytes)
  (createdAt updatedAt : Time)

/-- A role that a user has. -/
structure UserRole where
  (userID roleID : ULID)
  grantedAt : Time
  grantedBy : Option ULID

def systemRoleSuperAdmin : Bytes := str "super_admin"

def orgRoleOwner : Bytes := str "owner"

def orgRoleMember : Bytes := str "member"

/-- Members and grants stand under the pair of user and organization or role. -/
structure OrgStore where
  accounts : UserStore
  orgs : GoMap ULID Organization
  members : GoMap (ULID × ULID) OrganizationMember
  permissionsByID : GoMap ULID Permission
  permissionsByName : GoMap Bytes Permission
  roles : GoMap ULID Role
  rolePerms : GoMap ULID (List ULID)
  userRoles : GoMap (ULID × ULID) UserRole
  rolesKeyed : roles.Keyed Role.id

namespace OrgStore

variable (s : OrgStore)

def ofAccounts (accounts : UserStore) : OrgStore where
  accounts
  orgs := ∅
  members := ∅
  permissionsByID := ∅
  permissionsByName := ∅
  roles := ∅
  rolePerms := ∅
  userRoles := ∅
  rolesKeyed := .empty

def upsertOrganizationMember (m : OrganizationMember) (now : Time) : Option OrgStore :=
  if (s.orgs.lookup m.organizationID).isNone then none
  else if (s.accounts.users.lookup m.userID).isNone then none
  else
    let row :=
      match s.members.lookup (m.userID, m.organizationID) with
      | some existing => { existing with role := m.role }
      | none => { m with joinedAt := if m.joinedAt.isZero then now else m.joinedAt }
    some { s with members := s.members.insert (m.userID, m.organizationID) row }

variable {s} in
theorem of_upsertOrganizationMember {m : OrganizationMember} {now : Time} {next : OrgStore}
    (done : s.upsertOrganizationMember m now = some next) :
    ∃ row, row.role = m.role ∧
      next = { s with members := s.members.insert (m.userID, m.organizationID) row } := by
  unfold upsertOrganizationMember at done
  split at done
  · cases done
  split at done
  · cases done
  refine ⟨_, ?_, (some.inj done).symm⟩
  split <;> rfl

def deleteOrganizationMember (orgID userID : ULID) : Option OrgStore :=
  if (s.members.lookup (userID, orgID)).isNone then none
  else some { s with members := s.members.erase (userID, orgID) }

def organizationMemberRole (orgID userID : ULID) : Option Bytes :=
  (s.members.lookup (userID, orgID)).map OrganizationMember.role

variable (userID : ULID)

def organizationsByUser : List ULID :=
  (s.members.values.filter fun m =>
    m.userID == userID && (s.orgs.lookup m.organizationID).isSome).map
      OrganizationMember.organizationID

def organizationMembersByOrg (orgID : ULID) : List OrganizationMember :=
  s.members.values.filter fun m => m.organizationID == orgID

def permsForRole (roleID : ULID) : List Bytes :=
  ((s.rolePerms.lookup roleID).getD []).filterMap fun id =>
    (s.permissionsByID.lookup id).map Permission.name

def insertRole (r : Role) (now : Time) : Option OrgStore :=
  if s.roles.values.any fun existing =>
      existing.organizationID == r.organizationID && existing.name == r.name then none
  else
    let createdAt := if r.createdAt.isZero then now else r.createdAt
    some
      { s with
        roles := s.roles.insert r.id { r with createdAt, updatedAt := createdAt }
        rolesKeyed := s.rolesKeyed.insert rfl
        rolePerms :=
          if (s.rolePerms.lookup r.id).isSome then s.rolePerms else s.rolePerms.insert r.id [] }

def updateRoleRow (r : Role) (now : Time) : Option OrgStore :=
  match s.roles.lookup r.id with
  | none => none
  | some existing => some
      { s with
        roles := s.roles.insert r.id
          { r with
            createdAt := existing.createdAt
            organizationID := existing.organizationID
            updatedAt := now }
        rolesKeyed := s.rolesKeyed.insert rfl }

def deleteRole (id : ULID) : Option OrgStore :=
  if (s.roles.lookup id).isNone then none
  else some
    { s with
      roles := s.roles.erase id
      rolesKeyed := s.rolesKeyed.erase id
      rolePerms := s.rolePerms.erase id
      userRoles := s.userRoles.deleteWhere fun key _ => key.2 == id }

def setRolePermissions (roleID : ULID) (permissionIDs : List ULID) : Option OrgStore :=
  if (s.roles.lookup roleID).isNone then none
  else if permissionIDs.any fun id => (s.permissionsByID.lookup id).isNone then none
  else some { s with rolePerms := s.rolePerms.insert roleID permissionIDs.dedup }

def grantUserRole (ur : UserRole) (now : Time) : Option OrgStore :=
  if (s.accounts.users.lookup ur.userID).isNone then none
  else if (s.roles.lookup ur.roleID).isNone then none
  else
    let row := { ur with grantedAt := if ur.grantedAt.isZero then now else ur.grantedAt }
    some { s with userRoles := s.userRoles.insert (ur.userID, ur.roleID) row }

def revokeUserRole (userID roleID : ULID) : Option OrgStore :=
  if (s.userRoles.lookup (userID, roleID)).isNone then none
  else some { s with userRoles := s.userRoles.erase (userID, roleID) }

def rolesForUser (orgID : Option ULID) : List Role :=
  s.userRoles.keys.filterMap fun key =>
    if key.1 = userID then
      (s.roles.lookup key.2).filter fun role => role.organizationID == orgID
    else none

def permissionsForUser (orgID : Option ULID) : List Bytes :=
  ((s.rolesForUser userID orgID).flatMap fun role => s.permsForRole role.id).dedup

def countUsersWithPermissionInOrg (orgID : ULID) (perm : Bytes) : ℕ :=
  ((s.userRoles.keys.filter fun key =>
    (s.roles.lookup key.2).any fun role =>
      role.organizationID == some orgID && (s.permsForRole role.id).contains perm).map
    Prod.fst).dedup.length

theorem mem_rolesForUser {userID : ULID} {orgID : Option ULID} {role : Role} :
    role ∈ s.rolesForUser userID orgID ↔ (userID, role.id) ∈ s.userRoles ∧
      s.roles.lookup role.id = some role ∧ role.organizationID = orgID := by
  refine List.mem_filterMap.trans ⟨?_, ?_⟩
  · rintro ⟨⟨grantee, roleID⟩, granted, kept⟩
    split at kept
    next same =>
      obtain ⟨stored, scope⟩ := filter_eq_some_iff.mp kept
      obtain rfl : grantee = userID := same
      obtain rfl : role.id = roleID := s.rolesKeyed stored
      exact ⟨mem_keys.mpr granted, stored, beq_iff_eq.mp scope⟩
    · cases kept
  · rintro ⟨granted, stored, scope⟩
    refine ⟨(userID, role.id), mem_keys.mp granted, ?_⟩
    rw [if_pos rfl, stored]
    exact filter_eq_some_iff.mpr ⟨rfl, beq_iff_eq.mpr scope⟩

end OrgStore

/-- Its definition, its permissions and its grants. -/
structure OnlyRole (roleID : ULID) (before after : OrgStore) : Prop where
  accounts : after.accounts = before.accounts
  members : after.members = before.members
  roles : ∀ id, id ≠ roleID → after.roles.lookup id = before.roles.lookup id
  rolePerms : ∀ id, id ≠ roleID → after.rolePerms.lookup id = before.rolePerms.lookup id
  userRoles : ∀ userID id, id ≠ roleID →
    after.userRoles.lookup (userID, id) = before.userRoles.lookup (userID, id)

namespace OnlyRole

variable {s : OrgStore} {roleID : ULID}

variable {next : OrgStore}

theorem insertRole {r : Role} {now : Time}
    (done : s.insertRole r now = some next) : OnlyRole r.id s next := by
  unfold OrgStore.insertRole at done
  split at done <;> cases done
  refine ⟨rfl, rfl, fun id other => lookup_insert_ne other, fun id other => ?_, fun _ _ _ => rfl⟩
  dsimp only
  split
  · rfl
  · exact lookup_insert_ne other

theorem updateRoleRow {r : Role} {now : Time}
    (done : s.updateRoleRow r now = some next) : OnlyRole r.id s next := by
  unfold OrgStore.updateRoleRow at done
  split at done <;> cases done
  exact ⟨rfl, rfl, fun id other => lookup_insert_ne other, fun _ _ => rfl, fun _ _ _ => rfl⟩

theorem deleteRole (done : s.deleteRole roleID = some next) :
    OnlyRole roleID s next := by
  unfold OrgStore.deleteRole at done
  split at done <;> cases done
  refine ⟨rfl, rfl, fun id other => lookup_erase_ne other,
    fun id other => lookup_erase_ne other, fun userID id other => ?_⟩
  apply Option.ext
  intro _
  rw [GoMap.lookup_deleteWhere]
  exact ⟨And.left, fun here => ⟨here, beq_false_of_ne other⟩⟩

theorem grantUserRole {ur : UserRole} {now : Time}
    (done : s.grantUserRole ur now = some next) : OnlyRole ur.roleID s next := by
  unfold OrgStore.grantUserRole at done
  split at done
  · cases done
  split at done <;> cases done
  refine ⟨rfl, rfl, fun _ _ => rfl, fun _ _ => rfl, fun userID id other => ?_⟩
  exact lookup_insert_ne fun same => other (congrArg Prod.snd same)

end OnlyRole

end TheAuth.Store
