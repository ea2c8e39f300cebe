import TheAuth.Agents.Delegation
import TheAuth.Library.Run
import TheAuth.Server.ExchangeChains

/-!
# Exchanges after a grant was revoked

A history knows which token descends from which grant. An exchange looks for a live grant of the
user to the requesting agent, but not at the grants the subject token descends from.
-/

set_option autoImplicit false

namespace TheAuth.Server.DelegationHistory

open Go Store Agents Library.Run Agents.DelegationService

/-- Delegations, and which tokens descend from them. -/
structure System where
  state : AgentState
  lineage : List (Bytes × ULID)
  revoked : List ULID

def System.initial (agents : AgentStore) : System := ⟨⟨agents, .empty⟩, [], []⟩

/-- A grant, an exchange or a revocation. -/
inductive Op where
  | grant (input : GrantDelegationInput) (a : GrantAnswers)
  | exchange (req : TokenExchangeRequest) (a : TokenAnswers)
  | revoke (id : ULID) (now : Time) (reason : Bytes)

section

variable [StdLib] [UlidText] [UrlLib] (svc : DelegationService) (cfg : TokenConfig) (s : System)

def System.grantsOf (call : ExchangeCall) : List ULID :=
  (call.grant.map (·.id)).toList ++
    (s.lineage.filter fun entry => entry.1 == call.req.subjectToken).map (·.2)

/-- One operation. -/
def step : Op → Option System
  | .grant input a => some { s with state := (svc.grantDelegation s.state input a).2 }
  | .exchange req a =>
    match ExchangeCall.mint cfg ⟨s.state, req, a⟩ with
    | none => some s
    | some token => some { s with
        lineage := (s.grantsOf ⟨s.state, req, a⟩).map (fun id => (token.text, id)) ++ s.lineage }
  | .revoke id now reason =>
    match svc.revokeDelegation s.state id now reason with
    | (.ok _, state) => some { s with state, revoked := id :: s.revoked }
    | (.error _, state) => some { s with state }

/-- A new grant has an unused identifier. -/
def Fresh : Op → Prop
  | .grant _ a => s.state.delegations.delegationGrantByID a.id = none
  | _ => True

/-- Presented for an access token, and no other live grant is found for the agent. -/
def SoleGrant : Op → Prop
  | .exchange req a => ∀ id ∈ s.revoked, (req.subjectToken, id) ∈ s.lineage →
      (ExchangeCall.mk s.state req a).ForAccess ∧
        ∀ found, (ExchangeCall.mk s.state req a).grant = some found →
          found.active a.now = true → found.id = id
  | _ => True

instance (s : System) : (op : Op) → Decidable (Fresh s op)
  | .grant _ _ => inferInstanceAs (Decidable (_ = none))
  | .exchange _ _ => isTrue trivial
  | .revoke _ _ _ => isTrue trivial

instance (s : System) : (op : Op) → Decidable (SoleGrant s op)
  | .exchange req a => inferInstanceAs (Decidable (∀ id ∈ s.revoked,
      (req.subjectToken, id) ∈ s.lineage → (ExchangeCall.mk s.state req a).ForAccess ∧
        ∀ found ∈ (ExchangeCall.mk s.state req a).grant, found.active a.now = true → found.id = id))
  | .grant _ _ => isTrue trivial
  | .revoke _ _ _ => isTrue trivial

/-- A token that descends from a revoked grant is not exchanged. -/
def RefusesDescendants : Op → Prop
  | .exchange req a => ∀ id ∈ s.revoked, (req.subjectToken, id) ∈ s.lineage →
      ExchangeCall.mint cfg ⟨s.state, req, a⟩ = none
  | _ => True

/-- Revoked grants stay stored and marked. -/
structure Marked (s : System) : Prop where
  keyed : ∀ ⦃id g⦄, s.state.delegations.delegationGrantByID id = some g → g.id = id
  marked : ∀ id ∈ s.revoked, ∃ g, s.state.delegations.delegationGrantByID id = some g ∧
    g.revokedAt.isSome = true

variable {svc cfg}

omit [StdLib] [UrlLib] in
theorem Marked.grant {s : System} (kept : Marked s) {input : GrantDelegationInput}
    {a : GrantAnswers} (fresh : s.state.delegations.delegationGrantByID a.id = none) :
    Marked { s with state := (svc.grantDelegation s.state input a).2 } := by
  obtain same | rows := svc.grantDelegation_cases s.state input a
  · rw [same]
    exact kept
  · constructor
    · intro id g stored
      rw [rows] at stored
      split at stored
      next own =>
        cases stored
        exact own.symm
      · exact kept.keyed stored
    · intro id inside
      obtain ⟨g, stored, marked⟩ := kept.marked id inside
      have other : id ≠ a.id := by
        rintro rfl
        rw [fresh] at stored
        cases stored
      exact ⟨g, (rows id).trans ((if_neg other).trans stored), marked⟩

omit [StdLib] [UlidText] [UrlLib] in
theorem Marked.revoke {s : System} (kept : Marked s) {id : ULID} {now : Time} {reason : Bytes} :
    Marked { s with state := (svc.revokeDelegation s.state id now reason).2 } := by
  obtain same | ⟨_, here, rows⟩ := svc.revokeDelegation_cases s.state id now reason
  · rw [same]
    exact kept
  · constructor
    · intro other g stored
      rw [rows] at stored
      split at stored
      next own =>
        cases stored
        exact (kept.keyed here).trans own.symm
      · exact kept.keyed stored
    · intro other inside
      by_cases own : other = id
      · exact ⟨_, (rows other).trans (if_pos own), rfl⟩
      · obtain ⟨g, stored, marked⟩ := kept.marked other inside
        exact ⟨g, (rows other).trans ((if_neg own).trans stored), marked⟩

theorem Marked.step {s next : System} {op : Op} (kept : Marked s) (fresh : Fresh s op)
    (taken : step svc cfg s op = some next) : Marked next := by
  cases op with
  | grant =>
    cases taken
    exact kept.grant fresh
  | exchange =>
    simp only [DelegationHistory.step] at taken
    split at taken <;> cases taken <;> exact ⟨kept.keyed, kept.marked⟩
  | revoke id now reason =>
    have after : Marked { s with state := (svc.revokeDelegation s.state id now reason).2 } :=
      kept.revoke
    simp only [DelegationHistory.step] at taken
    split at taken
    next done =>
      cases taken
      rw [done] at after
      refine ⟨after.keyed, fun other inside => ?_⟩
      rcases List.mem_cons.mp inside with rfl | earlier
      · exact revokeDelegation_eq_ok done
      · exact after.marked other earlier
    rename_i done
    cases taken
    rwa [done] at after

theorem Marked.refuses {s : System} {op : Op} (kept : Marked s) (sole : SoleGrant s op) :
    RefusesDescendants cfg s op := by
  cases op with
  | grant | revoke => trivial
  | exchange _ a =>
    intro id inside descends
    obtain ⟨access, only⟩ := sole id inside descends
    refine Option.eq_none_iff_forall_ne_some.mpr fun token minted => ?_
    obtain ⟨e, _, made, -, -, -, used⟩ := ExchangeCall.exists_made access minted
    have own : e.grant.id = id := only e.grant used made.active
    -- the grant that is used is the marked row, and a marked row is not active
    obtain ⟨key, stored⟩ := DelegationTables.exists_delegationGrantByID made.found
    obtain rfl : key = id := (kept.keyed stored).symm.trans own
    obtain ⟨g, here, marked⟩ := kept.marked key inside
    obtain rfl : g = e.grant := Option.some.inj (here.symm.trans stored)
    have active := made.active
    rw [DelegationGrant.active, Bool.and_eq_true, Option.isNone_iff_eq_none] at active
    rw [active.1] at marked
    cases marked

/-- **In every history, a token that descends from a revoked grant is refused
while no other live grant is found for the agent that presents it.** -/
theorem revoked_grant_refuses_descendants (svc : DelegationService) (cfg : TokenConfig)
    (agents : AgentStore) (ops : List Op)
    (fresh : Throughout (step svc cfg) Fresh (System.initial agents) ops)
    (sole : Throughout (step svc cfg) SoleGrant (System.initial agents) ops) :
    Throughout (step svc cfg) (RefusesDescendants cfg) (System.initial agents) ops :=
  throughout_of_invariant (fun kept condition taken => kept.step condition.1 taken)
    (fun kept condition => kept.refuses condition.2) (Marked.mk nofun nofun) (fresh.and sole)

end

def hourService : DelegationService := ⟨true, some delegationConfig.resources, 3600⟩

def grantReading (id agentID : ULID) : Op :=
  .grant ⟨3, agentID, [str "read"], str "r", 600, none⟩ ⟨id, Time.unix 900, Time.unix 900⟩

def exchangeBy (clientID : Bytes) (token : Token) : Op :=
  .exchange { subjectToken := token.text } (presenting clientID token.text token.claims)

def revokedAfterExchange : List Op :=
  [exchangeBy (str "a") (userToken (str "read")), .revoke 8 (Time.unix 1000) (str "done")]

def firstToken : Token := handOn (str "a") (userToken (str "read"))

/-- The second agent has a grant of its own, and exchanges the first agent's token. -/
theorem revoked_grant_descendant_exchanged :
    ((@run _ _ (@step StdLib.refusing UlidText.unary UrlLib.refusing hourService delegationConfig)
        (System.initial twoAgents)
          (grantReading 8 1 :: grantReading 9 2 :: revokedAfterExchange)).any
      fun s => decide (8 ∈ s.revoked) && decide ((firstToken.text, 8) ∈ s.lineage) &&
        (@ExchangeCall.mint StdLib.refusing UlidText.unary UrlLib.refusing delegationConfig
          ⟨s.state, { subjectToken := firstToken.text },
            presenting (str "b") firstToken.text firstToken.claims⟩).isSome) = true := by
  decide +kernel

theorem revoked_grant_descendant_refused :
    @Throughout _ _ (@step StdLib.refusing UlidText.unary UrlLib.refusing hourService
        delegationConfig)
      (@RefusesDescendants StdLib.refusing UlidText.unary UrlLib.refusing delegationConfig)
      (System.initial twoAgents)
      (grantReading 8 1 :: revokedAfterExchange ++
        [exchangeBy (str "b") firstToken, exchangeBy (str "a") firstToken]) :=
  @revoked_grant_refuses_descendants StdLib.refusing UlidText.unary UrlLib.refusing hourService
    delegationConfig twoAgents _ (by decide +kernel) (by decide +kernel)

end TheAuth.Server.DelegationHistory
