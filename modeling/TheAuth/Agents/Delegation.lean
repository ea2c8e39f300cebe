import TheAuth.Agents.Service
import TheAuth.Library.Result
import TheAuth.Server.Resource

/-!
# Delegation grants

A user lets an agent act for them at a resource, within scopes and for a time. A grant is never
deleted, and its mark of revocation is never taken away.
-/

set_option autoImplicit false

namespace TheAuth.Agents

open Go Server Store Library.Result

inductive DelegationError where
  | notConfigured | invalidResource | invalidScope
  /-- The text is "MaxDurationSeconds must be > 0". -/
  | durationNotPositive
  /-- The text is "MaxDurationSeconds exceeds policy cap". -/
  | durationExceeds (cap : Int)
  | agentNotFound | agentInactive | agentExpired | persistFailed | delegationNotFound | revokeFailed

structure DelegationService where
  configured : Bool
  resources : Option ResourceConfig
  maxDelegationSeconds : Int

structure GrantDelegationInput where
  (userID agentID : ULID)
  scope : List Bytes
  resource : Bytes
  maxDurationSeconds : Int
  expiresAt : Option Time := none

/-- What a call of the service draws and reads. -/
structure GrantAnswers where
  id : ULID
  (checked now : Time)

namespace DelegationService

variable (svc : DelegationService)

def vetGrant (s : AgentState) (input : GrantDelegationInput) (checked : Time) :
    Except DelegationError Unit := do
  refuseIf (!svc.configured) .notConfigured
  let resources ← orRefuse svc.resources .notConfigured
  refuseIf (input.resource = []) .invalidResource
  let resource ← orRefuse (resources.resourceByIdentifier input.resource) .invalidResource
  refuseIf (input.scope.length = 0) .invalidScope
  -- `validateScopeAgainstResource`: a resource without scopes restricts nothing
  refuseIf (resource.scopes.length ≠ 0 ∧ !input.scope.all resource.scopes.contains) .invalidScope
  refuseIf (input.maxDurationSeconds ≤ 0) .durationNotPositive
  refuseIf (svc.maxDelegationSeconds < input.maxDurationSeconds)
    (.durationExceeds svc.maxDelegationSeconds)
  let ag ← orRefuse (s.agents.agentByID input.agentID) .agentNotFound
  refuseIf (ag.status ≠ .active) .agentInactive
  refuseIf (ag.agentExpired checked) .agentExpired

def grantRow (input : GrantDelegationInput) (a : GrantAnswers) : DelegationGrant where
  id := a.id
  userID := input.userID
  agentID := input.agentID
  scope := input.scope
  resource := input.resource
  maxDurationSeconds := input.maxDurationSeconds
  createdAt := a.now
  expiresAt := input.expiresAt

def grantDelegation [UlidText] (s : AgentState) (input : GrantDelegationInput) (a : GrantAnswers) :
    Except DelegationError DelegationGrant × AgentState :=
  match svc.vetGrant s input a.checked with
  | .error e => (.error e, s)
  | .ok _ =>
    match s.delegations.insertDelegationGrant (grantRow input a) with
    | none => (.error .persistFailed, s)
    | some delegations => (.ok (grantRow input a), { s with delegations })

def revokeDelegation (s : AgentState) (id : ULID) (now : Time) (reason : Bytes) :
    Except DelegationError Unit × AgentState :=
  if !svc.configured then (.error .notConfigured, s)
  else match s.delegations.delegationGrantByID id with
  | none => (.error .delegationNotFound, s)
  | some cur =>
    if cur.revokedAt.isSome then (.ok (), s)
    else match s.delegations.revokeDelegationGrant id now reason with
    | some delegations => (.ok (), { s with delegations })
    | none =>
      -- another caller may have revoked it since
      match s.delegations.delegationGrantByID id with
      | some again => (if again.revokedAt.isSome then .ok () else .error .revokeFailed, s)
      | none => (.error .revokeFailed, s)

theorem grantDelegation_cases [UlidText] (s : AgentState) (input : GrantDelegationInput)
    (a : GrantAnswers) :
    (svc.grantDelegation s input a).2 = s ∨
      ∀ id, (svc.grantDelegation s input a).2.delegations.delegationGrantByID id =
        if id = a.id then some (grantRow input a) else s.delegations.delegationGrantByID id := by
  unfold grantDelegation
  cases svc.vetGrant s input a.checked with
  | error => exact .inl rfl
  | ok =>
    cases stored : s.delegations.insertDelegationGrant (grantRow input a) with
    | none => exact .inl rfl
    | some => exact .inr fun id => DelegationTables.insertDelegationGrant_eq_some stored id

theorem revokeDelegation_cases (s : AgentState) (id : ULID) (now : Time) (reason : Bytes) :
    (svc.revokeDelegation s id now reason).2 = s ∨
      ∃ g, s.delegations.delegationGrantByID id = some g ∧
        ∀ other, (svc.revokeDelegation s id now reason).2.delegations.delegationGrantByID other =
          if other = id then some { g with revokedAt := some now, revocationNote := reason }
          else s.delegations.delegationGrantByID other := by
  unfold revokeDelegation
  iterate 3
    split
    · exact .inl rfl
  split
  next revoked =>
    obtain ⟨g, here, -, rows⟩ := DelegationTables.revokeDelegationGrant_eq_some revoked
    exact .inr ⟨g, here, rows⟩
  · split <;> exact .inl rfl

variable {svc} in
theorem revokeDelegation_eq_ok {s next : AgentState} {id : ULID} {now : Time} {reason : Bytes}
    (done : svc.revokeDelegation s id now reason = (.ok (), next)) :
    ∃ g, next.delegations.delegationGrantByID id = some g ∧ g.revokedAt.isSome = true := by
  unfold revokeDelegation at done
  split at done
  · cases done
  split at done
  · cases done
  rename_i cur stored
  split at done
  next marked =>
    cases done
    exact ⟨cur, stored, marked⟩
  rename_i unmarked
  split at done
  next revoked =>
    cases done
    obtain ⟨_, -, -, rows⟩ := DelegationTables.revokeDelegationGrant_eq_some revoked
    exact ⟨_, (rows id).trans (if_pos rfl), rfl⟩
  · simp [stored, unmarked] at done

end DelegationService

end TheAuth.Agents
