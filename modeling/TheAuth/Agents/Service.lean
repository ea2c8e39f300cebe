import TheAuth.Store.Agents

/-!
# The life cycle of an agent

A change of the status to anything but active also revokes the agent's delegation grants. Suspending
does not look at the status, and resuming refuses a revoked agent only: a revoked agent that is
suspended can be resumed.
-/

set_option autoImplicit false

namespace TheAuth.Agents

open Go Server Store List Option

/-- Agents and their delegations. -/
structure AgentState where
  agents : AgentStore
  delegations : DelegationTables

/-- `grantsLeft` are the grants that the cascade could not revoke. -/
inductive ServiceError where
  | notConfigured | agentNotFound | agentInactive | agentExpiryInvalid | updateFailed
  | grantsLeft (ids : List ULID)

structure Service where
  configured : Bool

def maxAgentLifetime : Int := 10 * 365 * 24 * 60 * Time.nsPerMinute

def validateExpiry (expiresAt : Option Time) (now : Time) : Except ServiceError Unit :=
  match expiresAt with
  | none => .ok ()
  | some at_ =>
    if !decide (now < at_) || decide (now + maxAgentLifetime < at_) then
      .error .agentExpiryInvalid
    else .ok ()

def revokeGrant (status : Status) (now : Time) (done : DelegationTables × List ULID)
    (g : DelegationGrant) : DelegationTables × List ULID :=
  match done.1.revokeDelegationGrant g.id now (str "agent_" ++ status.text) with
  | some next => (next, done.2)
  | none => (done.1, done.2 ++ [g.id])

def revokeAgentGrants (s : DelegationTables) (agentID : ULID) (status : Status) (now : Time) :
    DelegationTables × List ULID :=
  ((s.delegationGrantsByAgentID agentID).filter fun g => g.revokedAt.isNone).foldl
    (revokeGrant status now) (s, [])

namespace Service

variable (svc : Service)

def changeAgentStatus (s : AgentState) (id : ULID) (status : Status) (now : Time) :
    Except ServiceError Unit × AgentState :=
  if !svc.configured then (.error .notConfigured, s)
  else match s.agents.agentByID id with
  | none => (.error .agentNotFound, s)
  | some cur =>
    match s.agents.updateAgentStatus id status with
    | none => (.error .updateFailed, s)
    | some agents =>
      if status = .active then (.ok (), { s with agents })
      else
        let (delegations, left) := revokeAgentGrants s.delegations cur.id status now
        (if left = [] then .ok () else .error (.grantsLeft left), ⟨agents, delegations⟩)

def suspendAgent (s : AgentState) (id : ULID) (now : Time) :
    Except ServiceError Unit × AgentState :=
  svc.changeAgentStatus s id .suspended now

def resumeAgent (s : AgentState) (id : ULID) (now : Time) :
    Except ServiceError Unit × AgentState :=
  match s.agents.agentByID id with
  | none => (.error .agentNotFound, s)
  | some cur =>
    if cur.status = .revoked then (.error .agentInactive, s)
    else svc.changeAgentStatus s id .active now

def revokeAgent (s : AgentState) (id : ULID) (now : Time) :
    Except ServiceError Unit × AgentState :=
  svc.changeAgentStatus s id .revoked now

def setAgentExpiry (s : AgentState) (id : ULID) (expiresAt : Option Time) (now : Time) :
    Except ServiceError Unit × AgentState :=
  if !svc.configured then (.error .notConfigured, s)
  else match validateExpiry expiresAt now with
  | .error e => (.error e, s)
  | .ok _ =>
    match s.agents.agentByID id with
    | none => (.error .agentNotFound, s)
    | some _ =>
      match s.agents.updateAgentExpiry id expiresAt with
      | none => (.error .updateFailed, s)
      | some agents => (.ok (), { s with agents })

end Service

/-- A change to an agent. -/
inductive Op where
  | suspend (id : ULID) (now : Time)
  | resume (id : ULID) (now : Time)
  | revoke (id : ULID) (now : Time)
  | setExpiry (id : ULID) (expiresAt : Option Time) (now : Time)

/-- One operation. -/
def Service.apply (svc : Service) (s : AgentState) : Op → AgentState
  | .suspend id now => (svc.suspendAgent s id now).2
  | .resume id now => (svc.resumeAgent s id now).2
  | .revoke id now => (svc.revokeAgent s id now).2
  | .setExpiry id expiresAt now => (svc.setAgentExpiry s id expiresAt now).2

/-- The state after a history of operations. -/
def Service.exec (svc : Service) (s : AgentState) (ops : List Op) : AgentState :=
  ops.foldl svc.apply s

/-- The agent is stored and is suspended or revoked. -/
def AgentState.Inactive (s : AgentState) (id : ULID) : Prop :=
  ∃ ag, s.agents.agentByID id = some ag ∧ ag.status ≠ .active

/-- The operation resumes the agent. -/
def Op.Resumes (id : ULID) : Op → Prop
  | .resume target _ => target = id
  | _ => False

section

variable {svc : Service} {s : AgentState} {id : ULID}

theorem inactive_of_updateAgent {next : AgentState} {target : ULID} {change : Agent → Agent}
    {sameID : ∀ ag, (change ag).id = ag.id} {sameClient : ∀ ag, (change ag).clientID = ag.clientID}
    (done : s.agents.updateAgent target change sameID sameClient = some next.agents)
    (keeps : target = id → ∀ ag : Agent, ag.status ≠ .active → (change ag).status ≠ .active)
    (before : s.Inactive id) : next.Inactive id := by
  obtain ⟨ag, stored, status⟩ := before
  rw [AgentState.Inactive, AgentStore.updateAgent_eq_some done id]
  split
  next same =>
    subst same
    exact ⟨change ag, by rw [stored]; rfl, keeps rfl ag status⟩
  · exact ⟨ag, stored, status⟩

theorem inactive_changeAgentStatus {target : ULID} {status : Status}
    (keeps : target = id → status ≠ .active) (now : Time) (before : s.Inactive id) :
    (svc.changeAgentStatus s target status now).2.Inactive id := by
  unfold Service.changeAgentStatus
  split
  · exact before
  split
  · exact before
  split
  · exact before
  next done =>
    split
    all_goals exact inactive_of_updateAgent done (fun same _ _ => keeps same) before

/-- No operation but `resume` makes an agent active again. -/
theorem inactive_apply {op : Op} (kept : ¬ op.Resumes id) (before : s.Inactive id) :
    (svc.apply s op).Inactive id := by
  cases op with
  | suspend _ now | revoke _ now =>
    exact inactive_changeAgentStatus (fun _ => by decide) now before
  | resume target now =>
    simp only [Service.apply, Service.resumeAgent]
    split
    · exact before
    split
    · exact before
    · exact inactive_changeAgentStatus (fun same => absurd same kept) now before
  | setExpiry =>
    simp only [Service.apply, Service.setAgentExpiry]
    iterate 4
      split
      · exact before
    next done => exact inactive_of_updateAgent done (fun _ _ status => status) before

theorem inactive_exec {ops : List Op} (kept : ∀ op ∈ ops, ¬ op.Resumes id)
    (before : s.Inactive id) : (svc.exec s ops).Inactive id := by
  induction ops generalizing s with
  | nil => exact before
  | cons op rest ih =>
    exact ih (fun op later => kept op (mem_cons_of_mem _ later))
      (inactive_apply (kept op mem_cons_self) before)

end

end TheAuth.Agents
