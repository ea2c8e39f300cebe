import TheAuth.Store.Organizations
import TheAuth.Library.Run

/-!
# The owners of an organization

`AddMember` and `RemoveMember` count the owners before they write, in separate operations of the
store: two calls can each count two owners and take one away. `inviteUser` and `removeUser` do not
look at the role of the member.
-/

set_option autoImplicit false

namespace TheAuth.Organizations

open Go Library.Run Server Store Option List

def orgRoleAdmin : Bytes := str "admin"

/-- Members and the users they are. -/
structure MemberStore extends OrgStore where
  membersKeyed : members.Keyed fun m => (m.userID, m.organizationID)

/-- A write to one member. -/
structure Change where
  (orgID userID : ULID)
  role : Option Bytes
  joinedAt : Time := 0

namespace MemberStore

variable {s next : MemberStore} {c : Change} {now : Time} {m : OrganizationMember} {orgID : ULID}

theorem keyed_upsert {after : OrgStore} (done : s.upsertOrganizationMember m now = some after) :
    after.members.Keyed fun m => (m.userID, m.organizationID) := by
  unfold OrgStore.upsertOrganizationMember at done
  split at done
  · cases done
  split at done <;> cases done
  refine s.membersKeyed.insert ?_
  split
  next existing found =>
    have own : (existing.userID, existing.organizationID) = _ := s.membersKeyed found
    exact own
  · rfl

theorem keyed_delete {userID : ULID} {after : OrgStore}
    (done : s.deleteOrganizationMember orgID userID = some after) :
    after.members.Keyed fun m => (m.userID, m.organizationID) := by
  unfold OrgStore.deleteOrganizationMember at done
  split at done <;> cases done
  exact s.membersKeyed.erase _

def write (s : MemberStore) (c : Change) (now : Time) : Option MemberStore :=
  match c.role with
  | some role =>
    match done : s.upsertOrganizationMember ⟨c.orgID, c.userID, role, c.joinedAt⟩ now with
    | none => none
    | some after => some ⟨after, keyed_upsert done⟩
  | none =>
    match done : s.deleteOrganizationMember c.orgID c.userID with
    | none => none
    | some after => some ⟨after, keyed_delete done⟩

def createUser (s : MemberStore) (user : User) : MemberStore :=
  { s with accounts := s.accounts.createUser user }

def isOwner (s : MemberStore) (orgID userID : ULID) : Bool :=
  s.organizationMemberRole orgID userID == some orgRoleOwner

def owners (s : MemberStore) (orgID : ULID) : List OrganizationMember :=
  (s.organizationMembersByOrg orgID).filter fun m => m.role == orgRoleOwner

/-- Somebody owns the organization. -/
def HasOwner (s : MemberStore) (orgID : ULID) : Prop := ∃ userID, s.isOwner orgID userID = true

theorem mem_owners :
    m ∈ s.owners orgID ↔ s.members.lookup (m.userID, orgID) = some m ∧ m.role = orgRoleOwner := by
  unfold owners OrgStore.organizationMembersByOrg
  rw [mem_filter, mem_filter, GoMap.mem_values, beq_iff_eq, beq_iff_eq]
  constructor
  · rintro ⟨⟨⟨_, found⟩, rfl⟩, owner⟩
    rw [← s.membersKeyed found] at found
    exact ⟨found, owner⟩
  · rintro ⟨found, owner⟩
    exact ⟨⟨⟨_, found⟩, (Prod.mk.inj (s.membersKeyed found)).2⟩, owner⟩

theorem hasOwner_iff : s.HasOwner orgID ↔ s.owners orgID ≠ [] := by
  constructor
  · rintro ⟨userID, owner⟩
    obtain ⟨m, found, role⟩ := map_eq_some_iff.mp (beq_iff_eq.mp owner)
    have own : m.userID = userID := congrArg Prod.fst (s.membersKeyed found)
    rw [← own] at found
    exact ne_nil_of_mem (mem_owners.mpr ⟨found, role⟩)
  · intro some_
    obtain ⟨m, listed⟩ := exists_mem_of_ne_nil _ some_
    obtain ⟨found, role⟩ := mem_owners.mp listed
    refine ⟨m.userID, beq_iff_eq.mpr ?_⟩
    unfold OrgStore.organizationMemberRole
    rw [found, map_some, role]

theorem exists_other_owner (many : 1 < (s.owners orgID).length) (userID : ULID) :
    ∃ m ∈ s.owners orgID, m.userID ≠ userID := by
  by_contra none
  have all : ∀ m ∈ s.owners orgID, s.members.lookup (userID, orgID) = some m := by
    intro m listed
    have same : m.userID = userID := not_not.mp fun other => none ⟨m, listed, other⟩
    rw [← same]
    exact (mem_owners.mp listed).1
  obtain ⟨first, here⟩ := List.exists_mem_of_length_pos (Nat.lt_of_succ_lt many)
  have equal : s.owners orgID = List.replicate (s.owners orgID).length first :=
    List.eq_replicate_of_mem fun m listed =>
      some.inj ((all m listed).symm.trans (all first here))
  have distinct : (s.owners orgID).Nodup := (s.membersKeyed.nodup_values.filter _).filter _
  rw [equal, List.nodup_replicate] at distinct
  omega

theorem of_write (done : s.write c now = some next) :
    (∃ row, c.role = some row.role ∧ next.toOrgStore =
      { s.toOrgStore with members := s.members.insert (c.userID, c.orgID) row }) ∨
    c.role = none ∧ next.toOrgStore =
      { s.toOrgStore with members := s.members.erase (c.userID, c.orgID) } := by
  unfold write at done
  split at done
  next wanted =>
    split at done
    · cases done
    rename_i stored
    obtain ⟨row, same, rfl⟩ := OrgStore.of_upsertOrganizationMember stored
    cases done
    exact .inl ⟨row, same ▸ wanted, rfl⟩
  next gone =>
    split at done <;> cases done
    rename_i deleted
    unfold OrgStore.deleteOrganizationMember at deleted
    split at deleted
    · cases deleted
    exact .inr ⟨gone, (some.inj deleted).symm⟩

theorem isOwner_write (done : s.write c now = some next) {userID : ULID}
    (owner : s.isOwner orgID userID = true)
    (spared : orgID = c.orgID → userID = c.userID → c.role = some orgRoleOwner) :
    next.isOwner orgID userID = true := by
  unfold isOwner OrgStore.organizationMemberRole at owner ⊢
  obtain ⟨_, wanted, same⟩ | ⟨gone, same⟩ := of_write done
  · rw [same, GoMap.lookup_insert_eq]
    split
    next own =>
      cases own
      rw [map_some, ← wanted, spared rfl rfl]
      exact beq_self_eq_true _
    · exact owner
  · rw [same, AList.lookup_erase_ne]
    · exact owner
    intro own
    cases own
    exact nomatch gone.symm.trans (spared rfl rfl)

end MemberStore

/-! ## Calls -/

inductive MemberError where
  | invalidRole | emailRequired | lastOwner | notFound

/-- A call of service or handler. -/
inductive Request where
  | addMember (orgID userID : ULID) (role : Bytes)
  | removeMember (orgID userID : ULID)
  | inviteUser (orgID : ULID) (email : Bytes)
  | removeUser (orgID userID : ULID)

/-- What a call has read of the members when it comes to its write. -/
inductive Reading where
  | unread
  | owner (isOwner : Bool)
  | counted (owners : List OrganizationMember)

/-- Where a call stands. The role that `inviteUser` may grant at its end is no matter of the
members. -/
inductive Phase where
  | ready
  | counting (c : Change)
  | creating (orgID : ULID) (email : Bytes)
  | writing (c : Change) (reading : Reading)
  | done
  | refused (e : MemberError)

/-- One operation of one call. -/
structure Action where
  call : ℕ
  now : Time := 0
  newID : ULID := 0

/-- The members, and where each call stands. -/
structure System where
  store : MemberStore
  phase : ℕ → Phase

def System.initial (store : MemberStore) : System := ⟨store, fun _ => .ready⟩

def isValidRole (role : Bytes) : Bool :=
  role == orgRoleOwner || role == orgRoleAdmin || role == orgRoleMember

/-- From the request to the first wait. -/
def begin_ (s : MemberStore) (now : Time) : Request → Phase
  | .addMember orgID userID role =>
    if !isValidRole role then .refused .invalidRole
    else if role = orgRoleOwner then .writing ⟨orgID, userID, some role, 0⟩ .unread
    else if s.isOwner orgID userID then .counting ⟨orgID, userID, some role, 0⟩
    else .writing ⟨orgID, userID, some role, 0⟩ (.owner (s.isOwner orgID userID))
  | .removeMember orgID userID =>
    match s.organizationMemberRole orgID userID with
    | none => .refused .notFound
    | some role =>
      if role = orgRoleOwner then .counting ⟨orgID, userID, none, 0⟩
      else .writing ⟨orgID, userID, none, 0⟩ (.owner (role == orgRoleOwner))
  | .inviteUser orgID email =>
    if email = [] then .refused .emailRequired
    else match s.accounts.userByEmail email with
    | none => .creating orgID email
    | some user => .writing ⟨orgID, user.id, some orgRoleMember, now⟩ .unread
  | .removeUser orgID userID => .writing ⟨orgID, userID, none, 0⟩ .unread

def afterWrite (s : MemberStore) : Option MemberStore → Phase × MemberStore
  | none => (.refused .notFound, s)
  | some next => (.done, next)

/-- One operation of a call. -/
def operate (s : MemberStore) (request : Request) (act : Action) :
    Phase → Option (Phase × MemberStore)
  | .ready => some (begin_ s act.now request, s)
  | .counting c =>
    some (if (s.owners c.orgID).length ≤ 1 then .refused .lastOwner
      else .writing c (.counted (s.owners c.orgID)), s)
  | .creating orgID email =>
    some (.writing ⟨orgID, act.newID, some orgRoleMember, act.now⟩ .unread,
      s.createUser ⟨act.newID, email⟩)
  | .writing c _ => some (afterWrite s (s.write c act.now))
  | .done | .refused _ => none

/-- One action. -/
def step (requests : ℕ → Request) (s : System) (act : Action) : Option System :=
  (operate s.store (requests act.call) act (s.phase act.call)).map fun (phase, store) =>
    ⟨store, Function.update s.phase act.call phase⟩

/-! ## Owners -/

/-- A write finds what its call has read: the counted owners are still owners, and who was or was
not an owner still is or is not. A call that has read nothing hits no owner. -/
def settled (s : System) (act : Action) : Bool :=
  match s.phase act.call with
  | .writing c (.counted owners) => owners.all fun m => s.store.isOwner c.orgID m.userID
  | .writing c (.owner isOwner) => s.store.isOwner c.orgID c.userID == isOwner
  | .writing c .unread => c.role == some orgRoleOwner || !s.store.isOwner c.orgID c.userID
  | _ => true

/-- What the guards leave: only a member who is no owner is written without a count, and a count
has another owner. -/
def Guarded : Phase → Prop
  | .writing c (.counted owners) => ∃ m ∈ owners, m.userID ≠ c.userID
  | .writing _ (.owner isOwner) => isOwner = false
  | _ => True

section

variable {requests : ℕ → Request} {s next : System} {act : Action} {orgID : ULID}
  {store after : MemberStore} {old phase : Phase} {request : Request}

theorem guarded_begin (now : Time) : Guarded (begin_ store now request) := by
  unfold begin_
  repeat' split
  all_goals first
    | trivial
    | next other => simpa [Guarded] using other

theorem guarded_of_operate (done : operate store request act old = some (phase, after)) :
    Guarded phase := by
  cases old with
  | ready =>
    cases done
    exact guarded_begin act.now
  | counting c =>
    cases done
    split
    · trivial
    next many => exact MemberStore.exists_other_owner (Nat.lt_of_not_le many) c.userID
  | creating =>
    cases done
    trivial
  | writing c =>
    obtain done := some.inj done
    cases written : store.write c act.now with
    | none | some =>
      rw [written] at done
      cases done
      trivial
  | done | refused => cases done

theorem hasOwner_write {c : Change} {reading : Reading}
    (done : s.store.write c act.now = some after) (here : s.phase act.call = .writing c reading)
    (ok : Guarded (.writing c reading)) (fits : settled s act = true)
    (owned : s.store.HasOwner orgID) : after.HasOwner orgID := by
  unfold settled at fits
  rw [here] at fits
  obtain ⟨userID, owner⟩ := owned
  by_cases same : orgID = c.orgID
  · subst same
    cases reading with
    | counted =>
      obtain ⟨m, listed, other⟩ := ok
      exact ⟨m.userID, MemberStore.isOwner_write done (all_eq_true.mp fits m listed)
        fun _ own => absurd own other⟩
    | owner =>
      have spared : s.store.isOwner c.orgID c.userID = false := (eq_of_beq fits).trans ok
      refine ⟨userID, MemberStore.isOwner_write done owner fun _ own => ?_⟩
      exact absurd (own ▸ owner) (Bool.eq_false_iff.mp spared)
    | unread =>
      refine ⟨userID, MemberStore.isOwner_write done owner fun _ own => ?_⟩
      subst own
      simpa [owner] using fits
  · exact ⟨userID, MemberStore.isOwner_write done owner fun own => absurd own same⟩

theorem hasOwner_step (ok : ∀ q, Guarded (s.phase q)) (fits : settled s act = true)
    (taken : step requests s act = some next) (owned : s.store.HasOwner orgID) :
    next.store.HasOwner orgID := by
  obtain ⟨⟨_, _⟩, done, rfl⟩ := map_eq_some_iff.mp taken
  cases here : s.phase act.call with
  | ready | counting | creating =>
    rw [here] at done
    cases done
    exact owned
  | writing c =>
    rw [here] at done
    obtain done := some.inj done
    cases written : s.store.write c act.now with
    | none =>
      rw [written] at done
      cases done
      exact owned
    | some =>
      rw [written] at done
      cases done
      exact hasOwner_write written here (here ▸ ok act.call) fits owned
  | done | refused =>
    rw [here] at done
    cases done

theorem guarded_step (ok : ∀ q, Guarded (s.phase q)) (taken : step requests s act = some next)
    (q : ℕ) : Guarded (next.phase q) := by
  obtain ⟨⟨_, _⟩, done, rfl⟩ := map_eq_some_iff.mp taken
  exact (Function.forall_update_iff s.phase fun _ => Guarded).mpr
    ⟨guarded_of_operate done, fun q _ => ok q⟩ q

end

/-- **An organization with an owner keeps one**, in every interleaving in which every write finds
what its call has read and no admin request hits an owner. -/
theorem organization_keeps_owner (requests : ℕ → Request) (orgID : ULID) (store : MemberStore)
    (actions : List Action) (last : System) (owned : store.HasOwner orgID)
    (fits : Throughout (step requests) (fun s act => settled s act = true) (.initial store) actions)
    (ran : run (step requests) (.initial store) actions = some last) :
    last.store.HasOwner orgID := by
  have keeps {s next : System} {act : Action}
      (before : s.store.HasOwner orgID ∧ ∀ q, Guarded (s.phase q)) (fits : settled s act = true)
      (taken : step requests s act = some next) :
      next.store.HasOwner orgID ∧ ∀ q, Guarded (next.phase q) :=
    ⟨hasOwner_step before.2 fits taken before.1, guarded_step before.2 taken⟩
  have initially (q : ℕ) : Guarded ((System.initial store).phase q) := trivial
  exact (invariant_of_run_throughout keeps ⟨owned, initially⟩ fits ran).1

def ownedBy (owners : List ULID) : MemberStore where
  accounts := owners.foldr (fun id users => users.createUser ⟨id, [UInt8.ofNat id]⟩) .empty
  orgs := (∅ : GoMap ULID Organization).insert 1 ⟨1⟩
  members := owners.foldr (fun id m => m.insert (id, 1) ⟨1, id, orgRoleOwner, 0⟩) ∅
  permissionsByID := ∅
  permissionsByName := ∅
  roles := ∅
  rolePerms := ∅
  userRoles := ∅
  rolesKeyed := .empty
  membersKeyed := by
    induction owners with
    | nil => exact .empty
    | cons id rest ih => exact ih.insert rfl

def removals (r : ℕ) : Request := .removeMember 1 r

theorem organization_keeps_owner_alone :
    ∃ last, run (step removals) (.initial (ownedBy [5, 6])) [⟨5, 0, 0⟩, ⟨5, 0, 0⟩, ⟨5, 0, 0⟩] =
        some last ∧ last.store.HasOwner 1 :=
  ⟨_, rfl, organization_keeps_owner removals 1 (ownedBy [5, 6])
    [⟨5, 0, 0⟩, ⟨5, 0, 0⟩, ⟨5, 0, 0⟩] _ (MemberStore.hasOwner_iff.mpr (by decide +kernel))
    (by decide +kernel) rfl⟩

/-- Both removals count two owners. And an invitation of the only owner makes it a member. -/
theorem organization_loses_owners :
    (∃ last, run (step removals) (.initial (ownedBy [5, 6]))
        [⟨5, 0, 0⟩, ⟨6, 0, 0⟩, ⟨5, 0, 0⟩, ⟨6, 0, 0⟩, ⟨5, 0, 0⟩, ⟨6, 0, 0⟩] = some last ∧
      (ownedBy [5, 6]).HasOwner 1 ∧ ¬ last.store.HasOwner 1) ∧
    ∃ last, run (step fun _ => .inviteUser 1 [5]) (.initial (ownedBy [5]))
        [⟨0, 0, 0⟩, ⟨0, 0, 0⟩] = some last ∧
      (ownedBy [5]).HasOwner 1 ∧ ¬ last.store.HasOwner 1 := by
  refine ⟨⟨_, rfl, ?_⟩, _, rfl, ?_⟩
  all_goals
    rw [MemberStore.hasOwner_iff, MemberStore.hasOwner_iff]
    decide +kernel

end TheAuth.Organizations
