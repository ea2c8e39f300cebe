import TheAuth.Server.IntrospectRuns
import TheAuth.Server.TokenExchange

/-!
# Actor chains of agents that may no longer act

The result for a chain is cached only when its token has no delegation grant. Every chain that
`exchangeToken` mints has one, so it is walked again at each introspection.
-/

set_option autoImplicit false

namespace TheAuth.Server.ChainCache

open Go Agents Library List

/-- `lookupAgent` reads the agent store. -/
def recordsOf [JwtLib] [UlidText] (cfg : TokenConfig) (s : AgentState) (r : Records) : Records :=
  { r with lookupAgent := fun sub => (lookupAgent cfg s sub).join }

/-- The hook leaves the grant that the token names. -/
def KeepsGrant (a : TokenAnswers) : Prop :=
  ∀ ⦃claims extra⦄, a.onTokenIssued claims = .ok extra →
    extra.delegationGrantID = claims.extra.delegationGrantID

section

variable [JwtLib] {r : Records} {now : Time}

/-- A walk over a chain stops at an agent that may not act. -/
theorem walkChain_of_idle {sub : Bytes} {ag : Agent} {chain : ActorChain} (member : sub ∈ chain)
    (found : r.lookupAgent sub = some ag) (idle : (ag.liveErr now).isSome) (earliest : Time) :
    (walkChain r now chain earliest).1 = false := by
  induction chain generalizing earliest with
  | nil => cases member
  | cons _ _ ih =>
    unfold walkChain
    rcases mem_cons.mp member with rfl | later
    · rw [found]
      dsimp only
      rw [if_pos idle]
    · split
      · rfl
      · split
        · rfl
        · exact ih later _

variable [UlidText]

/-- With a grant, nothing that is cached is read. -/
theorem chainStillActive_of_idle {resp : IntrospectionResponse} {sub : Bytes} {ag : Agent}
    (granted : resp.delegationGrantID ≠ []) (member : sub ∈ resp.act)
    (found : r.lookupAgent sub = some ag) (idle : (ag.liveErr now).isSome) (caches : Caches) :
    (chainStillActive r now resp caches).1 = false := by
  rw [chainStillActive, if_pos granted]
  split
  · rfl
  · exact walkChain_of_idle member found idle 0

omit [JwtLib] in
/-- The token names the grant, and the text of a grant's identifier is not empty. -/
theorem delegationGrantID_ne_nil [StdLib] [UrlLib] {cfg : TokenConfig} {s : AgentState}
    {req : TokenExchangeRequest} {a : TokenAnswers} {resp : TokenResponse}
    (text : UlidText.parse [] = none) (keeps : KeepsGrant a)
    (access : req.requestedTokenType ≠ tokenTypeIDJAG)
    (done : exchangeToken cfg s req a = .ok resp) : resp.claims.extra.delegationGrantID ≠ [] := by
  obtain ⟨e, made⟩ := exists_exchange access done
  obtain ⟨_, hooked, claims, -⟩ := made.issued
  have named : resp.claims.extra.delegationGrantID = UlidText.string e.grant.id := by
    rw [claims]
    exact keeps hooked
  intro none_
  have parsed := UlidText.parse_string e.grant.id
  rw [← named, none_, text] at parsed
  cases parsed

omit [JwtLib] in
/-- A subject that has led to a suspended or revoked agent leads to one after every history without
a `resume` of it. -/
theorem exists_idle_of_exec {cfg : TokenConfig} {s : AgentState} {sub : Bytes} {ag : Agent}
    {ops : List Op} (svc : Service) (found : lookupAgent cfg s sub = some (some ag))
    (status : ag.status ≠ .active) (kept : ∀ op ∈ ops, ¬ op.Resumes ag.id) (now : Time) :
    ∃ later, lookupAgent cfg (svc.exec s ops) sub = some (some later) ∧
      (later.liveErr now).isSome := by
  unfold lookupAgent at found ⊢
  split at found
  · cases found
  rw [if_neg ‹_›]
  split at found
  · cases found
  rw [if_neg ‹_›]
  split at found <;> cases found
  rename_i here
  obtain ⟨id, parsed, stored⟩ := Option.bind_eq_some_iff.mp here
  rw [s.agents.keyed stored] at kept
  obtain ⟨later, held, inactive⟩ := inactive_exec kept ⟨ag, stored, status⟩
  refine ⟨later, ?_, by rw [Agent.liveErr, if_pos inactive]; rfl⟩
  rw [parsed, Option.bind_some, held]

/-- **A chain that `exchangeToken` minted is found inactive**, wherever in it the agent is and
whatever is cached: while the agent is suspended, revoked or expired, and once it is suspended or
revoked in every later history in which it is not resumed. -/
theorem minted_chain_inactive [StdLib] [UrlLib] (cfg : TokenConfig) (s agents : AgentState)
    (req : TokenExchangeRequest) (a : TokenAnswers) (resp : TokenResponse) (c : AccessClaims)
    (r : Records) (now : Time) (caches : Caches) (sub : Bytes) (ag : Agent)
    (text : UlidText.parse [] = none) (keeps : KeepsGrant a)
    (access : req.requestedTokenType ≠ tokenTypeIDJAG)
    (done : exchangeToken cfg s req a = .ok resp) (token : c.toClaims = resp.claims)
    (member : sub ∈ actorFromClaims resp.claims)
    (found : lookupAgent cfg agents sub = some (some ag)) :
    ((ag.liveErr now).isSome →
      (chainStillActive (recordsOf cfg agents r) now (claimsResponse c) caches).1 = false) ∧
    (ag.status ≠ .active → ∀ (svc : Service) (ops : List Op), (∀ op ∈ ops, ¬ op.Resumes ag.id) →
      (chainStillActive (recordsOf cfg (svc.exec agents ops) r) now (claimsResponse c)
        caches).1 = false) := by
  have named := delegationGrantID_ne_nil text keeps access done
  rw [← token] at member named
  have inactive {state : AgentState} {ag : Agent}
      (found : lookupAgent cfg state sub = some (some ag)) (idle : (ag.liveErr now).isSome) :
      (chainStillActive (recordsOf cfg state r) now (claimsResponse c) caches).1 = false :=
    chainStillActive_of_idle named member (congrArg Option.join found) idle caches
  refine ⟨inactive found, fun status svc ops kept => ?_⟩
  obtain ⟨later, held, idle⟩ := exists_idle_of_exec svc found status kept now
  exact inactive held idle

end

/-- No identifier has the empty text. -/
@[reducible]
def ulidText : UlidText where
  string id := replicate (id + 1) 0x31
  parse text := if text = [] then none else some (text.length - 1)
  parse_string id := by
    rw [if_neg (by simp), length_replicate]
    rfl

attribute [local instance] IntrospectRuns.plainTokens ulidText StdLib.refusing UrlLib.refusing

/-- The state in which agent 1 may act for user 3. -/
def delegated : AgentState := delegatedTo [grantTo 8 1 [str "read"] none]

/-- What agent 1 gets for the token of user 3. -/
def minted : Except TokenError TokenResponse :=
  exchangeToken delegationConfig delegated { subjectToken := str "t" }
    (presenting (str "a") (str "t") { userClaims (str "read") with sub := str "1111" })

theorem minted_chain_inactive_when_suspended :
    ∃ resp, minted = .ok resp ∧ actorFromClaims resp.claims = [str "agent:11"] ∧
      ∀ caches, (chainStillActive
        (recordsOf delegationConfig ((Service.mk true).exec
            ((Service.mk true).apply delegated (.suspend 1 1))
            [.setExpiry 1 none 1, .resume 2 1, .revoke 1 1])
          IntrospectRuns.oneKey) 2 (claimsResponse { resp.claims with }) caches).1 = false := by
  obtain ⟨resp, done⟩ : ∃ resp, minted = .ok resp :=
    Result.exists_eq_ok (by decide +kernel)
  have chain : minted.toOption.map (actorFromClaims ·.claims) = some [str "agent:11"] := by
    decide +kernel
  rw [done] at chain
  have actors : actorFromClaims resp.claims = [str "agent:11"] := Option.some.inj chain
  have keeps : KeepsGrant (presenting (str "a") (str "t")
      { userClaims (str "read") with sub := str "1111" }) := by
    intro _ _ kept
    cases kept
    rfl
  refine ⟨resp, done, actors, fun caches => ?_⟩
  exact (minted_chain_inactive delegationConfig _ _ _ _ resp _ _ 2 caches (str "agent:11")
    { id := 1, name := str "A", status := .suspended, clientID := str "a" } rfl keeps (by decide)
    done rfl (by rw [actors]; exact mem_cons_self) rfl).2 nofun _ _ (by simp [Op.Resumes])

end TheAuth.Server.ChainCache
