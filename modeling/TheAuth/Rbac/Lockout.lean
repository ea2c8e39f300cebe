import Mathlib.Data.Finset.Card
import TheAuth.Rbac.Service

/-!
# The lockout check of role deletion

`DeleteRole` counts the users who hold `users:admin`, but not through which roles: the only
administrator may keep it through another role, and several may all depend on the role.
-/

set_option autoImplicit false

namespace TheAuth.Rbac

open Go Server Store List AList Bool

/-- The user has the permission in the organization. -/
def HoldsIn (s : OrgStore) (orgID : ULID) (perm : Bytes) (userID : ULID) : Prop :=
  perm ∈ s.permissionsForUser userID (some orgID)

instance (s : OrgStore) (orgID : ULID) (perm : Bytes) (userID : ULID) :
    Decidable (HoldsIn s orgID perm userID) :=
  inferInstanceAs (Decidable (_ ∈ _))

/-- The user has the permission by this role. -/
structure HoldsThrough (s : OrgStore) (orgID : ULID) (perm : Bytes) (userID roleID : ULID) :
    Prop where
  granted : (userID, roleID) ∈ s.userRoles
  scope : (s.roles.lookup roleID).map Role.organizationID = some (some orgID)
  carries : perm ∈ s.permsForRole roleID

section

variable {s : OrgStore} {orgID : ULID} {perm : Bytes} {userID roleID : ULID}

theorem holdsIn_iff :
    HoldsIn s orgID perm userID ↔ ∃ roleID, HoldsThrough s orgID perm userID roleID := by
  unfold HoldsIn OrgStore.permissionsForUser
  rw [mem_dedup, mem_flatMap]
  constructor
  · rintro ⟨role, listed, carries⟩
    obtain ⟨granted, stored, scope⟩ := s.mem_rolesForUser.mp listed
    refine ⟨role.id, granted, ?_, carries⟩
    rw [stored, Option.map_some, scope]
  · rintro ⟨_, granted, scope, carries⟩
    obtain ⟨role, stored, owned⟩ := Option.map_eq_some_iff.mp scope
    obtain rfl := s.rolesKeyed stored
    exact ⟨role, s.mem_rolesForUser.mpr ⟨granted, stored, owned⟩, carries⟩

theorem mem_counted_iff :
    userID ∈ (s.userRoles.keys.filter fun key =>
      (s.roles.lookup key.2).any fun role =>
        role.organizationID == some orgID && (s.permsForRole role.id).contains perm).map
      Prod.fst ↔ HoldsIn s orgID perm userID := by
  rw [holdsIn_iff, mem_map]
  constructor
  · rintro ⟨⟨_, roleID⟩, listed, rfl⟩
    obtain ⟨granted, counted⟩ := mem_filter.mp listed
    obtain ⟨role, stored, checks⟩ := (Option.any_eq_true _ _).mp counted
    obtain ⟨owned, carries⟩ := and_eq_true_iff.mp checks
    refine ⟨roleID, mem_keys.mpr granted, ?_, ?_⟩
    · rw [stored, Option.map_some, beq_iff_eq.mp owned]
    · have own : role.id = roleID := s.rolesKeyed stored
      rw [← own]
      exact contains_iff_mem.mp carries
  · rintro ⟨roleID, granted, scope, carries⟩
    obtain ⟨role, stored, owned⟩ := Option.map_eq_some_iff.mp scope
    refine ⟨(userID, roleID), mem_filter.mpr ⟨mem_keys.mp granted, ?_⟩, rfl⟩
    refine (Option.any_eq_true _ _).mpr ⟨role, stored, and_eq_true_iff.mpr ⟨?_, ?_⟩⟩
    · exact beq_iff_eq.mpr owned
    · rw [s.rolesKeyed stored]
      exact contains_iff_mem.mpr carries

theorem count_le_one_iff :
    s.countUsersWithPermissionInOrg orgID perm ≤ 1 ↔
      ∀ u v, HoldsIn s orgID perm u → HoldsIn s orgID perm v → u = v := by
  unfold OrgStore.countUsersWithPermissionInOrg
  rw [← card_toFinset, Finset.card_le_one]
  simp only [mem_toFinset, mem_counted_iff]
  exact ⟨fun one u v hu hv => one u hu v hv, fun one u hu v hv => one u v hu hv⟩

theorem holdsThrough_deleteRole {next : OrgStore} (done : s.deleteRole roleID = some next)
    {id : ULID} :
    HoldsThrough next orgID perm userID id ↔ id ≠ roleID ∧ HoldsThrough s orgID perm userID id := by
  unfold OrgStore.deleteRole at done
  split at done <;> cases done
  constructor
  · rintro ⟨granted, scope, carries⟩
    have other : id ≠ roleID := by
      rintro rfl
      rw [lookup_erase] at scope
      cases scope
    refine ⟨other, ?_, ?_, ?_⟩
    · obtain ⟨_, there⟩ := Option.isSome_iff_exists.mp (lookup_isSome.mpr granted)
      exact lookup_isSome.mp (Option.isSome_of_eq_some ((GoMap.lookup_deleteWhere _ _).mp there).1)
    · rwa [lookup_erase_ne other] at scope
    · unfold OrgStore.permsForRole at carries ⊢
      rwa [lookup_erase_ne other] at carries
  · rintro ⟨other, granted, _, carries⟩
    refine ⟨?_, ?_, ?_⟩
    · obtain ⟨_, there⟩ := Option.isSome_iff_exists.mp (lookup_isSome.mpr granted)
      have kept := (GoMap.lookup_deleteWhere s.userRoles fun key _ => key.2 == roleID).mpr
        ⟨there, beq_false_of_ne other⟩
      exact lookup_isSome.mp (Option.isSome_of_eq_some kept)
    · rwa [lookup_erase_ne other]
    · unfold OrgStore.permsForRole at carries ⊢
      rwa [lookup_erase_ne other]

end

section

variable {s : OrgStore} {orgID roleID : ULID} {role : Role}

/-- No two users administer the organization. -/
def OneAdminAtMost (s : OrgStore) (orgID : ULID) : Prop :=
  ∀ u v, HoldsIn s orgID permissionUsersAdmin u → HoldsIn s orgID permissionUsersAdmin v → u = v

theorem solelyGrantsAdmin_iff (owned : role.organizationID = some orgID) :
    solelyGrantsAdmin s role roleID = true ↔
      permissionUsersAdmin ∈ s.permsForRole roleID ∧ OneAdminAtMost s orgID := by
  unfold solelyGrantsAdmin OneAdminAtMost
  rw [owned]
  rw [and_eq_true, contains_iff_mem, decide_eq_true_iff, count_le_one_iff]

theorem deleteRole_cases (found : s.roles.lookup roleID = some role)
    (owned : role.organizationID = some orgID) :
    (permissionUsersAdmin ∈ s.permsForRole roleID ∧ OneAdminAtMost s orgID) ∧
        deleteRole s roleID = (.error .roleInUse, s) ∨
      ¬ (permissionUsersAdmin ∈ s.permsForRole roleID ∧ OneAdminAtMost s orgID) ∧
        ∃ next, s.deleteRole roleID = some next ∧ deleteRole s roleID = (.ok (), next) := by
  unfold deleteRole
  rw [found]
  dsimp only
  split
  next refuses => exact .inl ⟨(solelyGrantsAdmin_iff owned).mp refuses, rfl⟩
  rename_i passes
  refine .inr ⟨fun both => passes ((solelyGrantsAdmin_iff owned).mpr both), ?_⟩
  have present : ¬ (s.roles.lookup roleID).isNone := by
    rw [found]
    exact false_ne_true
  refine ⟨_, if_neg present, ?_⟩
  unfold OrgStore.deleteRole
  rw [if_neg present]
  rfl

end

/-- **What the lockout check guarantees.** -/
theorem deleteRole_lockout (s : OrgStore) (roleID orgID : ULID) (role : Role)
    (found : s.roles.lookup roleID = some role) (owned : role.organizationID = some orgID) :
    ((deleteRole s roleID).1 = .error .roleInUse ↔
        permissionUsersAdmin ∈ s.permsForRole roleID ∧ OneAdminAtMost s orgID) ∧
      ((deleteRole s roleID).1 = .error .roleInUse → (deleteRole s roleID).2 = s) ∧
      ((deleteRole s roleID).1 ≠ .error .roleInUse →
        (deleteRole s roleID).1 = .ok () ∧
        (∀ userID, HoldsIn (deleteRole s roleID).2 orgID permissionUsersAdmin userID ↔
          ∃ id, id ≠ roleID ∧ HoldsThrough s orgID permissionUsersAdmin userID id) ∧
        ((∃ userID, HoldsIn s orgID permissionUsersAdmin userID) →
          (∀ userID, ¬ HoldsIn (deleteRole s roleID).2 orgID permissionUsersAdmin userID) →
          permissionUsersAdmin ∈ s.permsForRole roleID ∧ ¬ OneAdminAtMost s orgID ∧
          ∀ userID id, HoldsThrough s orgID permissionUsersAdmin userID id → id = roleID)) := by
  rcases deleteRole_cases found owned with ⟨sole, same⟩ | ⟨shared, next, deleted, same⟩
  · rw [same]
    exact ⟨⟨fun _ => sole, fun _ => rfl⟩, fun _ => rfl, fun passed => absurd rfl passed⟩
  · rw [same]
    have remaining (userID : ULID) : HoldsIn next orgID permissionUsersAdmin userID ↔
        ∃ id, id ≠ roleID ∧ HoldsThrough s orgID permissionUsersAdmin userID id := by
      rw [holdsIn_iff]
      exact exists_congr fun id => holdsThrough_deleteRole deleted
    refine ⟨⟨nofun, fun sole => absurd sole shared⟩, nofun, fun _ => ⟨rfl, remaining, ?_⟩⟩
    rintro ⟨userID, held⟩ none
    have only (userID id : ULID) (through : HoldsThrough s orgID permissionUsersAdmin userID id) :
        id = roleID := by
      by_contra other
      exact none userID ((remaining userID).mpr ⟨id, other, through⟩)
    obtain ⟨id, through⟩ := holdsIn_iff.mp held
    obtain rfl := only userID id through
    exact ⟨through.carries, fun one => shared ⟨through.carries, one⟩, only⟩

def adminRoles (grants : List (ULID × ULID)) : OrgStore :=
  { OrgStore.ofAccounts UserStore.empty with
    orgs := (∅ : GoMap ULID Organization).insert 1 ⟨1⟩
    permissionsByID := (∅ : GoMap ULID Permission).insert 7 ⟨7, permissionUsersAdmin⟩
    roles := ((∅ : GoMap ULID Role).insert 2 ⟨2, some 1, str "owner", [], 0, 0⟩).insert 3
      ⟨3, some 1, str "admin", [], 0, 0⟩
    rolesKeyed := .insert (.insert .empty (by rfl)) (by rfl)
    rolePerms :=
      ((∅ : GoMap ULID (List ULID)).insert 2 ([7] : List ULID)).insert 3 ([7] : List ULID)
    userRoles := grants.foldr (fun key m => m.insert key ⟨key.1, key.2, 0, none⟩) ∅ }

theorem deleteRole_lockout_keeps_one :
    (deleteRole (adminRoles [(5, 2), (6, 2), (5, 3)]) 2).1 = .ok () ∧
      HoldsIn (deleteRole (adminRoles [(5, 2), (6, 2), (5, 3)]) 2).2 1 permissionUsersAdmin 5 :=
  have all := deleteRole_lockout (adminRoles [(5, 2), (6, 2), (5, 3)]) 2 1 _ rfl rfl
  have passed := all.2.2 (by decide +kernel)
  ⟨passed.1, (passed.2.1 5).mpr ⟨3, by decide, ⟨by decide +kernel, rfl, by decide +kernel⟩⟩⟩

/-- Users 5 and 6 are the administrators, both through role 2: it is deleted, and nobody is left.
The only administrator, with two roles, is refused. -/
theorem deleteRole_check_errs_both_ways :
    (HoldsIn (adminRoles [(5, 2), (6, 2)]) 1 permissionUsersAdmin 5 ∧
      (deleteRole (adminRoles [(5, 2), (6, 2)]) 2).1 = .ok () ∧
      ∀ userID, ¬ HoldsIn (deleteRole (adminRoles [(5, 2), (6, 2)]) 2).2 1
        permissionUsersAdmin userID) ∧
    ((deleteRole (adminRoles [(5, 2), (5, 3)]) 2).1 = .error .roleInUse ∧
      ∃ next, (adminRoles [(5, 2), (5, 3)]).deleteRole 2 = some next ∧
        HoldsIn next 1 permissionUsersAdmin 5) := by
  refine ⟨⟨by decide +kernel, by decide +kernel, fun userID held => ?_⟩, by decide +kernel, _, rfl,
    by decide +kernel⟩
  obtain ⟨_, granted, -, -⟩ := holdsIn_iff.mp held
  have listed := AList.mem_keys.mp granted
  cases listed

end TheAuth.Rbac
