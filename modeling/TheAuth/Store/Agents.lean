import TheAuth.Agents.Model
import TheAuth.Go.Map

/-!
# Agents and delegations in the memory store

`AgentStore` are the tables as the store's operations leave them: an agent stands under its
identifier, and the index of clients leads to stored agents only. The status of an agent is
overwritten without looking at the old one.
-/

set_option autoImplicit false

namespace TheAuth.Store

open Go Server Agents Option GoMap

/-- The agents and their index. -/
structure AgentTables where
  agents : GoMap ULID Agent
  agentsByClientID : GoMap Bytes ULID

/-- Tables that agree with each other. -/
structure AgentStore extends AgentTables where
  keyed : ∀ {id ag}, agents.lookup id = some ag → ag.id = id
  indexed : ∀ {id ag}, agents.lookup id = some ag → agentsByClientID.lookup ag.clientID = some id
  present : ∀ {clientID id}, agentsByClientID.lookup clientID = some id →
    ∃ ag, agents.lookup id = some ag ∧ ag.clientID = clientID

namespace AgentStore

def empty : AgentStore where
  agents := ∅
  agentsByClientID := ∅
  keyed := nofun
  indexed := nofun
  present := nofun

def agentByID (s : AgentStore) (id : ULID) : Option Agent := s.agents.lookup id

def agentByClientID (s : AgentStore) (clientID : Bytes) : Option Agent :=
  (s.agentsByClientID.lookup clientID).bind s.agents.lookup

def insertAgent (s : AgentStore) (ag : Agent) : Option AgentStore :=
  if taken : (s.agents.lookup ag.id).isSome ∨ (s.agentsByClientID.lookup ag.clientID).isSome then
    none
  else some
    { agents := s.agents.insert ag.id ag
      agentsByClientID := s.agentsByClientID.insert ag.clientID ag.id
      keyed := by
        intro id other here
        obtain ⟨same, rfl⟩ | ⟨-, here⟩ := GoMap.of_lookup_insert here
        · exact same.symm
        · exact s.keyed here
      indexed := by
        intro id other here
        rw [GoMap.lookup_insert_eq] at here ⊢
        split at here
        next same =>
          cases here
          rw [if_pos rfl, same]
        have fresh : other.clientID ≠ ag.clientID := by
          intro same
          apply taken
          right
          rw [← same, s.indexed here]
          rfl
        rw [if_neg fresh]
        exact s.indexed here
      present := by
        intro clientID id here
        obtain ⟨same, rfl⟩ | ⟨-, here⟩ := GoMap.of_lookup_insert here
        · exact ⟨ag, AList.lookup_insert _, same.symm⟩
        obtain ⟨other, stored, client⟩ := s.present here
        have fresh : id ≠ ag.id := by
          intro same
          apply taken
          left
          rw [← same, stored]
          rfl
        exact ⟨other, (AList.lookup_insert_ne fresh).trans stored, client⟩ }

def updateAgent (s : AgentStore) (id : ULID) (change : Agent → Agent)
    (sameID : ∀ ag, (change ag).id = ag.id)
    (sameClient : ∀ ag, (change ag).clientID = ag.clientID) : Option AgentStore :=
  match stored : s.agents.lookup id with
  | none => none
  | some ag => some
      { agents := s.agents.insert id (change ag)
        agentsByClientID := s.agentsByClientID
        keyed := by
          intro key other here
          obtain ⟨same, rfl⟩ | ⟨-, here⟩ := GoMap.of_lookup_insert here
          · rw [sameID, s.keyed stored, same]
          · exact s.keyed here
        indexed := by
          intro key other here
          obtain ⟨same, rfl⟩ | ⟨-, here⟩ := GoMap.of_lookup_insert here
          · rw [sameClient, s.indexed stored, same]
          · exact s.indexed here
        present := by
          intro clientID key here
          obtain ⟨other, found, client⟩ := s.present here
          by_cases same : key = id
          · subst same
            obtain rfl : ag = other := Option.some.inj (stored.symm.trans found)
            exact ⟨change ag, AList.lookup_insert _, (sameClient ag).trans client⟩
          · exact ⟨other, (AList.lookup_insert_ne same).trans found, client⟩ }

def updateAgentStatus (s : AgentStore) (id : ULID) (status : Status) : Option AgentStore :=
  s.updateAgent id (fun ag => { ag with status }) (fun _ => rfl) (fun _ => rfl)

def updateAgentExpiry (s : AgentStore) (id : ULID) (expiresAt : Option Time) : Option AgentStore :=
  s.updateAgent id (fun ag => { ag with expiresAt }) (fun _ => rfl) (fun _ => rfl)

theorem updateAgent_eq_some {s next : AgentStore} {id : ULID} {change : Agent → Agent}
    {sameID : ∀ ag, (change ag).id = ag.id} {sameClient : ∀ ag, (change ag).clientID = ag.clientID}
    (done : s.updateAgent id change sameID sameClient = some next) (other : ULID) :
    next.agentByID other =
      if other = id then (s.agentByID id).map change else s.agentByID other := by
  unfold updateAgent at done
  split at done <;> cases done
  rename_i stored
  rw [agentByID, lookup_insert_eq, agentByID, stored]
  rfl

end AgentStore

/-- Grants and their indices. -/
structure DelegationTables where
  delegations : GoMap ULID DelegationGrant
  delegByTuple : GoMap Bytes ULID
  delegByAgent : GoMap ULID (List ULID)

namespace DelegationTables

def empty : DelegationTables := ⟨∅, ∅, ∅⟩

def delegationTupleKey [UlidText] (userID agentID : ULID) (resource : Bytes) : Bytes :=
  UlidText.string userID ++ str "|" ++ UlidText.string agentID ++ str "|" ++ resource

def insertDelegationGrant [UlidText] (s : DelegationTables) (g : DelegationGrant) :
    Option DelegationTables :=
  let key := delegationTupleKey g.userID g.agentID g.resource
  let live := match (s.delegByTuple.lookup key).bind s.delegations.lookup with
    | some existing => existing.revokedAt.isNone
    | none => (s.delegByTuple.lookup key).isSome
  if live then none
  else some
    { delegations := s.delegations.insert g.id g
      delegByTuple := s.delegByTuple.insert key g.id
      delegByAgent :=
        s.delegByAgent.insert g.agentID ((s.delegByAgent.lookup g.agentID).getD [] ++ [g.id]) }

def delegationGrantByID (s : DelegationTables) (id : ULID) : Option DelegationGrant :=
  s.delegations.lookup id

def delegationGrantByUserAgentResource [UlidText] (s : DelegationTables) (userID agentID : ULID)
    (resource : Bytes) : Option DelegationGrant :=
  (s.delegByTuple.lookup (delegationTupleKey userID agentID resource)).bind s.delegations.lookup

def delegationGrantsByAgentID (s : DelegationTables) (agentID : ULID) : List DelegationGrant :=
  (((s.delegByAgent.lookup agentID).getD []).filterMap s.delegations.lookup).mergeSort
    fun g h => decide (g.createdAt ≤ h.createdAt)

def revokeDelegationGrant (s : DelegationTables) (id : ULID) (now : Time) (reason : Bytes) :
    Option DelegationTables :=
  match s.delegations.lookup id with
  | none => none
  | some g =>
    if g.revokedAt.isSome then none
    else some { s with
      delegations :=
        s.delegations.insert id { g with revokedAt := some now, revocationNote := reason } }

variable {s next : DelegationTables}

theorem insertDelegationGrant_eq_some [UlidText] {g : DelegationGrant}
    (done : s.insertDelegationGrant g = some next) (id : ULID) :
    next.delegationGrantByID id = if id = g.id then some g else s.delegationGrantByID id := by
  obtain ⟨-, written⟩ := ite_none_left_eq_some.mp done
  cases written
  exact lookup_insert_eq _ _ _ _

theorem revokeDelegationGrant_eq_some {id : ULID} {now : Time}
    {reason : Bytes} (done : s.revokeDelegationGrant id now reason = some next) :
    ∃ g, s.delegationGrantByID id = some g ∧ g.revokedAt = none ∧
      ∀ other, next.delegationGrantByID other =
        if other = id then some { g with revokedAt := some now, revocationNote := reason }
        else s.delegationGrantByID other := by
  unfold revokeDelegationGrant at done
  split at done
  · cases done
  rename_i g stored
  split at done <;> cases done
  rename_i standing
  exact ⟨g, stored, not_isSome_iff_eq_none.mp standing, fun other =>
    lookup_insert_eq _ _ _ _⟩

theorem exists_delegationGrantByID [UlidText] {s : DelegationTables} {userID agentID : ULID}
    {resource : Bytes} {g : DelegationGrant}
    (found : s.delegationGrantByUserAgentResource userID agentID resource = some g) :
    ∃ id, s.delegationGrantByID id = some g := by
  obtain ⟨id, -, stored⟩ := bind_eq_some_iff.mp found
  exact ⟨id, stored⟩

end DelegationTables

end TheAuth.Store
