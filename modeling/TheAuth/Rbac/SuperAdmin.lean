import TheAuth.Library.Run
import TheAuth.Rbac.Service

/-!
# The way to super administrator

`GrantRole` knows the role `super_admin` by its name, a grant is stored under the identifier, and
`UpdateRole` changes the name of any role. A role that is renamed after it was granted is the only
way to a super administrator.
-/

set_option autoImplicit false

namespace TheAuth.Rbac

open Go Server Store Library.Run Option AList

structure RoleSeed where
  (name description : Bytes)
  permissions : List Bytes

structure SeedConfig extends RbacConfig where
  permCatalog : List Permission
  defaultRoleSeeds : List RoleSeed

/-- What a call draws. -/
structure Answers where
  now : Time
  roleID : ULID
  (permissionIDs roleIDs : ℕ → ULID)

variable (s : OrgStore)

def insertPermission (p : Permission) : Permission × OrgStore :=
  match s.permissionsByName.lookup p.name with
  | some existing => (existing, s)
  | none =>
    (p,
      { s with
        permissionsByID := s.permissionsByID.insert p.id p
        permissionsByName := s.permissionsByName.insert p.name p })

def seedPermissions (newID : ℕ → ULID) : OrgStore → List Permission → List Permission × OrgStore
  | s, [] => ([], s)
  | s, p :: rest =>
    let row := insertPermission s (if p.id = 0 then { p with id := newID rest.length } else p)
    let seeded := seedPermissions newID row.2 rest
    (row.1 :: seeded.1, seeded.2)

def permByName (perms : List Permission) : GoMap Bytes Permission :=
  perms.foldl (fun m p => m.insert p.name p) ∅

def roleByOrgAndName (orgID : Option ULID) (name : Bytes) : Option Role :=
  s.roles.values.find? fun r => r.organizationID == orgID && r.name == name

def seedPermIDs (known : GoMap Bytes Permission) : List Bytes → Except RbacError (List ULID)
  | [] => .ok []
  | name :: rest =>
    match known.lookup name with
    | none => .error (.unknownPermission name)
    | some p => (seedPermIDs known rest).map fun ids => p.id :: ids

def seedRolePermissions (known : GoMap Bytes Permission) (seed : RoleSeed)
    (roleID : ULID) : Except RbacError Unit × OrgStore :=
  match seedPermIDs known seed.permissions with
  | .error e => (.error e, s)
  | .ok permIDs => orNotFound s (s.setRolePermissions roleID permIDs)

def seedRole (orgID : ULID) (known : GoMap Bytes Permission) (seed : RoleSeed)
    (newID : ULID) (now : Time) : Except RbacError Unit × OrgStore :=
  match roleByOrgAndName s (some orgID) seed.name with
  | some role => seedRolePermissions s known seed role.id
  | none =>
    match s.insertRole ⟨newID, some orgID, seed.name, seed.description, now, now⟩ now with
    | none => (.error .notFound, s)
    | some next => seedRolePermissions next known seed newID

def seedRoles (orgID : ULID) (known : GoMap Bytes Permission) (newID : ℕ → ULID) (now : Time) :
    OrgStore → List RoleSeed → Except RbacError Unit × OrgStore
  | s, [] => (.ok (), s)
  | s, seed :: rest =>
    match seedRole s orgID known seed (newID rest.length) now with
    | (.error e, next) => (.error e, next)
    | (.ok _, next) => seedRoles orgID known newID now next rest

def seedOrgRoles (cfg : SeedConfig) (s : OrgStore) (orgID : ULID) (a : Answers) :
    Except RbacError Unit × OrgStore :=
  let seeded := seedPermissions a.permissionIDs s cfg.permCatalog
  seedRoles orgID (permByName seeded.1) a.roleIDs a.now seeded.2 cfg.defaultRoleSeeds

/-! ## Calls -/

/-- A call of the service. -/
inductive RbacCall where
  | createRole (orgID : ULID) (name description : Bytes) (perms : List Bytes)
  | updateRole (roleID : ULID) (name description : Bytes) (perms : Option (List Bytes))
  | grantRole (actor target roleID : ULID)
  | revokeRole (actor target roleID : ULID)
  | deleteRole (roleID : ULID)
  | seedOrgRoles (orgID : ULID)

/-- A call, and by whom. -/
structure RbacRequest where
  call : RbacCall
  answers : Answers

inductive ServiceError where
  | disabled
  | refused (e : RbacError)

def perform (cfg : SeedConfig) (s : OrgStore) (req : RbacRequest) :
    Except RbacError Unit × OrgStore :=
  match req.call with
  | .createRole orgID name description perms =>
    createRole cfg.toRbacConfig s req.answers.roleID orgID name description perms req.answers.now
  | .updateRole roleID name description perms =>
    updateRole cfg.toRbacConfig s roleID name description perms req.answers.now
  | .grantRole actor target roleID => grantRole s actor target roleID req.answers.now
  | .revokeRole _ target roleID => revokeRole s target roleID
  | .deleteRole roleID => deleteRole s roleID
  | .seedOrgRoles orgID => seedOrgRoles cfg s orgID req.answers

/-- Without a configuration seeding does nothing, and everything else fails. -/
def serve (cfg : Option SeedConfig) (s : OrgStore) (req : RbacRequest) :
    Except ServiceError Unit × OrgStore :=
  match cfg with
  | some cfg =>
    let done := perform cfg s req
    (done.1.mapError .refused, done.2)
  | none =>
    match req.call with
    | .seedOrgRoles _ => (.ok (), s)
    | _ => (.error .disabled, s)

/-- One call by its caller. -/
def step (cfg : Option SeedConfig) (s : OrgStore) (req : RbacRequest) : Option OrgStore :=
  some (serve cfg s req).2

/-! ## Promotion -/

/-- A role of the system that is named like the super administrator's. -/
def IsSuper (role : Role) : Prop := role.organizationID = none ∧ role.name = systemRoleSuperAdmin

instance (role : Role) : Decidable (IsSuper role) := inferInstanceAs (Decidable (_ ∧ _))

/-- The user is a super administrator by this role. -/
def HoldsSuper (userID roleID : ULID) : Prop :=
  (s.userRoles.lookup (userID, roleID)).isSome ∧
    ∃ role, s.roles.lookup roleID = some role ∧ IsSuper role

/-- The user becomes no super administrator. -/
def Unpromoted (userID : ULID) (before after : OrgStore) : Prop :=
  ∀ roleID, HoldsSuper after userID roleID → HoldsSuper before userID roleID

/-- The call names another role like the super administrator's. -/
def Promotes : RbacCall → Prop
  | .updateRole roleID name _ _ =>
    name = systemRoleSuperAdmin ∧
      ((s.roles.lookup roleID).any fun role =>
        role.organizationID.isNone && role.name != systemRoleSuperAdmin) = true
  | _ => False

instance (s : OrgStore) : ∀ call, Decidable (Promotes s call)
  | .updateRole _ _ _ _ => inferInstanceAs (Decidable (_ ∧ _))
  | .createRole _ _ _ _ => .isFalse id
  | .grantRole _ _ _ => .isFalse id
  | .revokeRole _ _ _ => .isFalse id
  | .deleteRole _ => .isFalse id
  | .seedOrgRoles _ => .isFalse id

theorem isSuperAdmin_iff {s : OrgStore} {userID : ULID} :
    isSuperAdmin s userID = true ↔ ∃ roleID, HoldsSuper s userID roleID := by
  unfold isSuperAdmin
  rw [List.any_eq_true]
  constructor
  · rintro ⟨role, listed, named⟩
    obtain ⟨granted, stored, scope⟩ := s.mem_rolesForUser.mp listed
    exact ⟨role.id, lookup_isSome.mpr granted, role, stored, scope, beq_iff_eq.mp named⟩
  · rintro ⟨_, granted, role, stored, scope, named⟩
    obtain rfl := s.rolesKeyed stored
    exact ⟨role, s.mem_rolesForUser.mpr ⟨lookup_isSome.mp granted, stored, scope⟩,
      beq_iff_eq.mpr named⟩

namespace Unpromoted

variable {userID roleID : ULID} {s next : OrgStore}

theorem refl (userID : ULID) (s : OrgStore) : Unpromoted userID s s := fun _ held => held

theorem trans {before between after : OrgStore} (first : Unpromoted userID before between)
    (second : Unpromoted userID between after) : Unpromoted userID before after :=
  fun roleID held => first roleID (second roleID held)

theorem of_onlyRole (only : OnlyRole roleID s next)
    (own : HoldsSuper next userID roleID → HoldsSuper s userID roleID) :
    Unpromoted userID s next := by
  intro id held
  by_cases same : id = roleID
  · subst same
    exact own held
  · obtain ⟨granted, role, stored, super⟩ := held
    rw [only.userRoles userID id same] at granted
    rw [only.roles id same] at stored
    exact ⟨granted, role, stored, super⟩

theorem of_same (roles : next.roles = s.roles) (userRoles : next.userRoles = s.userRoles) :
    Unpromoted userID s next := by
  intro _ held
  unfold HoldsSuper at held
  rwa [roles, userRoles] at held

end Unpromoted

section

variable {userID : ULID} {s next : OrgStore}

theorem unpromoted_orNotFound {write : Option OrgStore}
    (spares : ∀ next, write = some next → Unpromoted userID s next) :
    Unpromoted userID s (orNotFound s write).2 := by
  cases write with
  | none => exact .refl _ _
  | some next => exact spares next rfl

variable {roleID : ULID}

theorem unpromoted_setRolePermissions {permissionIDs : List ULID}
    (done : s.setRolePermissions roleID permissionIDs = some next) : Unpromoted userID s next := by
  unfold OrgStore.setRolePermissions at done
  split_ifs at done
  cases done
  exact .of_same rfl rfl

theorem unpromoted_setPermissions {perms : List Bytes} :
    Unpromoted userID s (setPermissions s roleID perms).2 := by
  unfold setPermissions
  split
  · exact .refl _ _
  · exact unpromoted_orNotFound fun _ done => unpromoted_setRolePermissions done

variable {now : Time}

theorem unpromoted_insertRole {r : Role} (owned : r.organizationID ≠ none)
    (done : s.insertRole r now = some next) : Unpromoted userID s next := by
  refine .of_onlyRole (.insertRole done) fun held => ?_
  obtain ⟨_, _, stored, system, _⟩ := held
  unfold OrgStore.insertRole at done
  split at done <;> cases done
  rw [lookup_insert] at stored
  cases stored
  exact absurd system owned

theorem unpromoted_createRole {cfg : RbacConfig} {id orgID : ULID} {name description : Bytes}
    {perms : List Bytes} :
    Unpromoted userID s (createRole cfg s id orgID name description perms now).2 := by
  unfold createRole
  split
  · exact .refl _ _
  split
  · exact .refl _ _
  rename_i created
  exact (unpromoted_insertRole (some_ne_none _) created).trans unpromoted_setPermissions

theorem unpromoted_updateRoleRow {role changed : Role}
    (done : s.updateRoleRow changed now = some next) (found : s.roles.lookup changed.id = some role)
    (unnamed : role.organizationID = none → changed.name = systemRoleSuperAdmin →
      role.name = systemRoleSuperAdmin) : Unpromoted userID s next := by
  refine .of_onlyRole (.updateRoleRow done) fun held => ?_
  obtain ⟨granted, _, stored, system, named⟩ := held
  unfold OrgStore.updateRoleRow at done
  rw [found] at done
  cases done
  rw [lookup_insert] at stored
  cases stored
  exact ⟨granted, role, found, system, unnamed system named⟩

theorem unpromoted_updateRole {cfg : RbacConfig} {name description : Bytes}
    {perms : Option (List Bytes)}
    (unrenamed : ¬ Promotes s (.updateRole roleID name description perms)) :
    Unpromoted userID s (updateRole cfg s roleID name description perms now).2 := by
  unfold updateRole
  split
  · exact .refl _ _
  rename_i role found
  dsimp only
  split
  · exact .refl _ _
  rename_i next updated
  have row : Unpromoted userID s next := by
    have kept : s.roles.lookup role.id = some role := by
      rw [s.rolesKeyed found]
      exact found
    refine unpromoted_updateRoleRow updated kept fun system named => ?_
    split at named
    · by_contra different
      refine unrenamed ⟨named, (any_eq_true _ _).mpr ⟨role, found, ?_⟩⟩
      rw [system, Bool.and_eq_true]
      exact ⟨rfl, bne_iff_ne.mpr different⟩
    · exact named
  split
  · exact row
  split
  · exact row
  · exact row.trans unpromoted_setPermissions

theorem unpromoted_grantRole {actor target : ULID} :
    Unpromoted userID s (grantRole s actor target roleID now).2 := by
  unfold grantRole
  split
  · exact .refl _ _
  rename_i found
  split
  · exact .refl _ _
  rename_i ordinary
  refine unpromoted_orNotFound fun next done => ?_
  refine .of_onlyRole (.grantUserRole done) fun held => ?_
  obtain ⟨_, _, stored, system, named⟩ := held
  have same : next.roles = s.roles := by
    unfold OrgStore.grantUserRole at done
    split at done
    · cases done
    split at done <;> cases done
    rfl
  rw [same, found] at stored
  cases stored
  exact absurd ⟨isNone_iff_eq_none.mpr system, named⟩ ordinary

theorem unpromoted_revokeRole {target : ULID} :
    Unpromoted userID s (revokeRole s target roleID).2 := by
  unfold revokeRole
  split
  · exact .refl _ _
  refine unpromoted_orNotFound fun next done => ?_
  unfold OrgStore.revokeUserRole at done
  split at done <;> cases done
  rintro _ ⟨granted, row⟩
  obtain ⟨_, kept⟩ := isSome_iff_exists.mp granted
  exact ⟨isSome_of_eq_some (GoMap.lookup_of_lookup_erase kept), row⟩

theorem unpromoted_deleteRole :
    Unpromoted userID s (deleteRole s roleID).2 := by
  unfold deleteRole
  split
  · exact .refl _ _
  split
  · exact .refl _ _
  refine unpromoted_orNotFound fun next done => ?_
  refine .of_onlyRole (.deleteRole done) fun held => ?_
  obtain ⟨_, _, stored, _⟩ := held
  unfold OrgStore.deleteRole at done
  split at done <;> cases done
  rw [lookup_erase] at stored
  cases stored

end

section

variable {userID : ULID} {s : OrgStore}

theorem seedPermissions_same (newID : ℕ → ULID) (perms : List Permission) :
    (seedPermissions newID s perms).2.roles = s.roles ∧
      (seedPermissions newID s perms).2.userRoles = s.userRoles := by
  induction perms generalizing s with
  | nil => exact ⟨rfl, rfl⟩
  | cons _ _ ih =>
    unfold seedPermissions
    rw [ih.1, ih.2]
    unfold insertPermission
    split <;> exact ⟨rfl, rfl⟩

variable {known : GoMap Bytes Permission}

theorem unpromoted_seedRolePermissions {seed : RoleSeed}
    {roleID : ULID} : Unpromoted userID s (seedRolePermissions s known seed roleID).2 := by
  unfold seedRolePermissions
  split
  · exact .refl _ _
  · exact unpromoted_orNotFound fun _ done => unpromoted_setRolePermissions done

variable {orgID : ULID}

theorem unpromoted_seedRole {newID : ULID} {seed : RoleSeed} {now : Time} :
    Unpromoted userID s (seedRole s orgID known seed newID now).2 := by
  unfold seedRole
  split
  · exact unpromoted_seedRolePermissions
  split
  · exact .refl _ _
  rename_i created
  exact (unpromoted_insertRole (some_ne_none _) created).trans unpromoted_seedRolePermissions

theorem unpromoted_seedRoles {newID : ℕ → ULID} {now : Time} (seeds : List RoleSeed) :
    Unpromoted userID s (seedRoles orgID known newID now s seeds).2 := by
  induction seeds generalizing s with
  | nil => exact .refl _ _
  | cons seed rest ih =>
    have first : Unpromoted userID s (seedRole s orgID known seed (newID rest.length) now).2 :=
      unpromoted_seedRole
    unfold seedRoles
    split
    next stopped => rwa [stopped] at first
    rename_i done
    rw [done] at first
    exact first.trans ih

theorem unpromoted_seedOrgRoles {cfg : SeedConfig} {a : Answers} :
    Unpromoted userID s (seedOrgRoles cfg s orgID a).2 := by
  have same := seedPermissions_same (s := s) a.permissionIDs cfg.permCatalog
  exact (Unpromoted.of_same same.1 same.2).trans (unpromoted_seedRoles cfg.defaultRoleSeeds)

end

theorem unpromoted_serve {userID : ULID} {cfg : Option SeedConfig} {s : OrgStore}
    {req : RbacRequest} (unrenamed : ¬ Promotes s req.call) :
    Unpromoted userID s (serve cfg s req).2 := by
  unfold serve
  split
  next =>
    unfold perform
    split
    · exact unpromoted_createRole
    next named =>
      rw [named] at unrenamed
      exact unpromoted_updateRole unrenamed
    · exact unpromoted_grantRole
    · exact unpromoted_revokeRole
    · exact unpromoted_deleteRole
    · exact unpromoted_seedOrgRoles
  · split <;> exact .refl _ _

/-- **Calls that do not rename a system role to `super_admin` make no super administrator.** -/
theorem no_path_to_super_admin (cfg : Option SeedConfig) (userID : ULID) (s last : OrgStore)
    (requests : List RbacRequest) (unheld : isSuperAdmin s userID = false)
    (unrenamed : Throughout (step cfg) (fun s req => ¬ Promotes s req.call) s requests)
    (ran : run (step cfg) s requests = some last) : isSuperAdmin last userID = false := by
  have keeps {s next : OrgStore} {req : RbacRequest} (before : isSuperAdmin s userID = false)
      (allowed : ¬ Promotes s req.call) (taken : step cfg s req = some next) :
      isSuperAdmin next userID = false := by
    cases taken
    rw [Bool.eq_false_iff] at before ⊢
    intro held
    obtain ⟨roleID, super⟩ := isSuperAdmin_iff.mp held
    exact before (isSuperAdmin_iff.mpr ⟨roleID, unpromoted_serve allowed roleID super⟩)
  exact invariant_of_run_throughout keeps unheld unrenamed ran

def superRoleOnly : OrgStore :=
  { OrgStore.ofAccounts (UserStore.empty.createUser ⟨5, str "a"⟩) with
    roles := (∅ : GoMap ULID Role).insert 2 ⟨2, none, systemRoleSuperAdmin, [], 0, 0⟩
    rolesKeyed := .insert .empty (by rfl) }

def emptyCatalog : SeedConfig := ⟨⟨[]⟩, [], []⟩

def atOne (call : RbacCall) : RbacRequest := ⟨call, ⟨1, 8, fun _ => 9, fun _ => 9⟩⟩

/-- The role is renamed and granted to user 5, and another role is made. -/
def renamedAndGranted : List RbacRequest :=
  [atOne (.updateRole 2 (str "x") [] none), atOne (.grantRole 6 5 2),
    atOne (.createRole 1 (str "y") [] []), atOne (.revokeRole 6 5 2)]

theorem no_path_to_super_admin_grant :
    ∃ last, run (step (some emptyCatalog)) superRoleOnly renamedAndGranted = some last ∧
      isSuperAdmin last 5 = false :=
  ⟨_, rfl, no_path_to_super_admin (some emptyCatalog) 5 superRoleOnly _ renamedAndGranted
    (by decide +kernel) (by decide +kernel) rfl⟩

/-- The role is renamed, granted to user 5, and gets its name back. -/
theorem super_admin_by_renaming :
    isSuperAdmin superRoleOnly 5 = false ∧
      ∃ last, run (step (some emptyCatalog)) superRoleOnly
        [atOne (.updateRole 2 (str "x") [] none), atOne (.grantRole 6 5 2),
          atOne (.updateRole 2 systemRoleSuperAdmin [] none)] = some last ∧
        isSuperAdmin last 5 = true :=
  ⟨by decide +kernel, _, rfl, by decide +kernel⟩

end TheAuth.Rbac
