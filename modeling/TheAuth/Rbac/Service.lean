import TheAuth.Http.Session
import TheAuth.Store.Organizations

/-!
# Roles and permissions

The service takes the identifier of a role and does not look at its organization: that the caller
may name this role is left to the caller. It refuses to grant `super_admin`.
-/

set_option autoImplicit false

namespace TheAuth.Rbac

open Go Server Store Http

inductive RbacError where
  | notFound | forbidden
  | unknownPermission (name : Bytes)
  | roleInUse
  deriving DecidableEq

/-- The permissions that exist. -/
structure RbacConfig where
  permIndex : List Bytes

def permissionUsersAdmin : Bytes := str "users:admin"

variable (s : OrgStore)

def orNotFound : Option OrgStore → Except RbacError Unit × OrgStore
  | none => (.error .notFound, s)
  | some next => (.ok (), next)

def grantRole (actor target roleID : ULID) (now : Time) :
    Except RbacError Unit × OrgStore :=
  match s.roles.lookup roleID with
  | none => (.error .notFound, s)
  | some role =>
    if role.organizationID.isNone ∧ role.name = systemRoleSuperAdmin then (.error .forbidden, s)
    else orNotFound s (s.grantUserRole ⟨target, roleID, now, some actor⟩ now)

def revokeRole (target roleID : ULID) : Except RbacError Unit × OrgStore :=
  match s.roles.lookup roleID with
  | none => (.error .notFound, s)
  | some _ => orNotFound s (s.revokeUserRole target roleID)

variable (cfg : RbacConfig)

def validatePermissions (perms : List Bytes) : Except RbacError Unit :=
  match perms.find? fun name => !cfg.permIndex.contains name with
  | none => .ok ()
  | some name => .error (.unknownPermission name)

def permIDsForNames (names : List Bytes) : Option (List ULID) :=
  names.mapM fun name => (s.permissionsByName.lookup name).map Permission.id

def setPermissions (roleID : ULID) (perms : List Bytes) :
    Except RbacError Unit × OrgStore :=
  match permIDsForNames s perms with
  | none => (.error .notFound, s)
  | some permIDs => orNotFound s (s.setRolePermissions roleID permIDs)

def createRole (s : OrgStore) (id orgID : ULID) (name description : Bytes)
    (perms : List Bytes) (now : Time) : Except RbacError Unit × OrgStore :=
  match validatePermissions cfg perms with
  | .error e => (.error e, s)
  | .ok _ =>
    match s.insertRole ⟨id, some orgID, name, description, now, now⟩ now with
    | none => (.error .notFound, s)
    | some next => setPermissions next id perms

def updateRole (s : OrgStore) (roleID : ULID) (name description : Bytes)
    (perms : Option (List Bytes)) (now : Time) : Except RbacError Unit × OrgStore :=
  match s.roles.lookup roleID with
  | none => (.error .notFound, s)
  | some role =>
    let changed :=
      { role with
        name := if name ≠ [] then name else role.name
        description
        updatedAt := now }
    match s.updateRoleRow changed now with
    | none => (.error .notFound, s)
    | some next =>
      match perms with
      | none => (.ok (), next)
      | some perms =>
        match validatePermissions cfg perms with
        | .error e => (.error e, next)
        | .ok _ => setPermissions next roleID perms

def solelyGrantsAdmin (role : Role) (roleID : ULID) : Bool :=
  match role.organizationID with
  | none => false
  | some orgID =>
    (s.permsForRole roleID).contains permissionUsersAdmin &&
      decide (s.countUsersWithPermissionInOrg orgID permissionUsersAdmin ≤ 1)

def deleteRole (s : OrgStore) (roleID : ULID) : Except RbacError Unit × OrgStore :=
  match s.roles.lookup roleID with
  | none => (.error .notFound, s)
  | some role =>
    if solelyGrantsAdmin s role roleID then (.error .roleInUse, s)
    else orNotFound s (s.deleteRole roleID)

def isSuperAdmin (userID : ULID) : Bool :=
  (s.rolesForUser userID none).any fun role => role.name == systemRoleSuperAdmin

end TheAuth.Rbac
