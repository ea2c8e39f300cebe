import TheAuth.Library.Chain
import TheAuth.Server.TokenExchange

/-!
# Chains of token exchanges

A chain presents each minted token as the subject of the next call. Scopes only narrow
(`NarrowsScope`); along calls for access tokens the user, the audience and the proof key stay, and
the requesting agent is put in front of the actors (`KeepsIdentity`).
-/

set_option autoImplicit false

namespace TheAuth.Server

open Go Store Agents Library.Result Library.Chain List

/-- A token and its claims. -/
structure Token where
  text : Bytes
  claims : Claims
  deriving DecidableEq

def Token.scopes (token : Token) : List Bytes := scopeSplit token.claims.scope

/-- An exchange in its state. -/
structure ExchangeCall where
  state : AgentState
  req : TokenExchangeRequest
  answers : TokenAnswers

variable (call : ExchangeCall)

/-- The call asks for an access token. -/
def ExchangeCall.ForAccess : Prop := call.req.requestedTokenType ≠ tokenTypeIDJAG

instance (call : ExchangeCall) : Decidable call.ForAccess := inferInstanceAs (Decidable (_ ≠ _))

def ExchangeCall.subject : Option Claims :=
  if call.ForAccess then call.answers.verifyAccessJWT call.req.subjectToken
  else idJAGClaims call.answers call.req.subjectToken

def ExchangeCall.agent : Option Agent := do
  let client ← call.answers.client.toOption
  call.state.agents.agentByClientID client.clientID

def ExchangeCall.grant [UlidText] (call : ExchangeCall) : Option DelegationGrant :=
  if call.ForAccess then do
    let agent ← call.agent
    let subject ← call.subject
    let root ← UlidText.parse subject.sub
    call.state.delegations.delegationGrantByUserAgentResource root agent.id subject.aud
  else none

section

theorem ne_nil_of_mem_actorFromAny {act : ActClaim} {sub : Bytes}
    (inside : sub ∈ actorFromAny act) : sub ≠ [] := by
  induction act with
  | malformed => cases inside
  | actor own =>
    rw [actorFromAny] at inside
    split at inside
    · cases inside
    rename_i named
    cases mem_singleton.mp inside
    exact named
  | chained own act ih =>
    rw [actorFromAny] at inside
    split at inside
    · cases inside
    rename_i named
    rcases mem_cons.mp inside with rfl | later
    · exact named
    · exact ih later

theorem actorFromAny_actorClaimToMap {actors : ActorChain} (named : ∀ sub ∈ actors, sub ≠ []) :
    ((actorClaimToMap actors).map actorFromAny).getD [] = actors := by
  induction actors with
  | nil => rfl
  | cons sub rest ih =>
    have first : sub ≠ [] := named sub mem_cons_self
    have later := ih fun actor inside => named actor (.tail _ inside)
    cases rest with
    | nil => simp [actorClaimToMap, actorFromAny, first]
    | cons next more =>
      cases written : actorClaimToMap (next :: more) with
      | none =>
        rw [written] at later
        cases later
      | some =>
        rw [written, Option.map_some, Option.getD_some] at later
        simp [actorClaimToMap, written, actorFromAny, first, later]

variable [StdLib] [UlidText] [UrlLib]

def ExchangeCall.mint (cfg : TokenConfig) (call : ExchangeCall) : Option Token :=
  (exchangeToken cfg call.state call.req call.answers).toOption.map fun resp =>
    ⟨resp.accessToken, resp.claims⟩

/-- The call exchanges one token for the other. -/
def Exchanges (cfg : TokenConfig) (before : Token) (call : ExchangeCall) (after : Token) : Prop :=
  call.req.subjectToken = before.text ∧ call.subject = some before.claims ∧
    call.mint cfg = some after

instance (cfg : TokenConfig) (before : Token) (call : ExchangeCall) (after : Token) :
    Decidable (Exchanges cfg before call after) :=
  inferInstanceAs (Decidable (_ ∧ _ ∧ _))

variable {cfg : TokenConfig} {call : ExchangeCall} {after before : Token}

theorem ExchangeCall.mint_eq_some :
    call.mint cfg = some after ↔
      ∃ resp, exchangeToken cfg call.state call.req call.answers = .ok resp ∧
        ⟨resp.accessToken, resp.claims⟩ = after := by
  unfold ExchangeCall.mint
  cases exchangeToken cfg call.state call.req call.answers <;> simp [Except.toOption]

theorem ExchangeCall.exists_made (access : call.ForAccess) (minted : call.mint cfg = some after) :
    ∃ (e : Exchange) (resp : TokenResponse), e.Made cfg call.state call.req call.answers resp ∧
      call.subject = some e.subject ∧ after.claims = resp.claims ∧ call.agent = some e.agent ∧
        call.grant = some e.grant := by
  obtain ⟨resp, done, rfl⟩ := ExchangeCall.mint_eq_some.mp minted
  obtain ⟨e, made⟩ := exists_exchange access done
  have agent : call.agent = some e.agent := by
    simp [ExchangeCall.agent, Except.toOption, made.client, made.stored]
  have subject : call.subject = some e.subject := by
    rw [ExchangeCall.subject, if_pos access]
    exact made.subject.verified
  refine ⟨e, resp, made, subject, rfl, agent, ?_⟩
  simp [ExchangeCall.grant, access, agent, subject, made.root, made.found]

theorem Exchanges.exists_made (link : Exchanges cfg before call after) (access : call.ForAccess) :
    ∃ (e : Exchange) (resp : TokenResponse), e.Made cfg call.state call.req call.answers resp ∧
      e.subject = before.claims ∧ after.claims = resp.claims ∧ call.agent = some e.agent ∧
        call.grant = some e.grant := by
  obtain ⟨-, read, minted⟩ := link
  obtain ⟨e, resp, made, subject, rest⟩ := call.exists_made access minted
  exact ⟨e, resp, made, Option.some.inj (subject.symm.trans read), rest⟩

/-- The scopes are narrowed to those of the subject and the grant. -/
structure NarrowsScope (before : Token) (call : ExchangeCall) (after : Token) : Prop where
  subject : before.scopes ≠ [] → after.scopes ⊆ before.scopes ∧ after.scopes ≠ []
  grant : ∀ ⦃grant⦄, call.grant = some grant →
    after.scopes ⊆ scopeSplit (scopeJoin grant.scope) ∧
      (before.scopes ≠ [] → after.scopes ⊆ grant.scope)

theorem Exchanges.narrowsScope
    (link : Exchanges cfg before call after) : NarrowsScope before call after := by
  by_cases access : call.ForAccess
  · obtain ⟨_, _, made, subject, after_, -, used⟩ := link.exists_made access
    obtain ⟨inGrant, narrower⟩ := made.scopes
    rw [← after_] at inGrant narrower
    rw [subject] at narrower
    refine ⟨fun some_ => ⟨(narrower some_).1, (narrower some_).2.2⟩, fun grant found => ?_⟩
    cases used.symm.trans found
    exact ⟨inGrant, fun some_ => (narrower some_).2.1⟩
  · obtain ⟨-, read, minted⟩ := link
    obtain ⟨_, done, rfl⟩ := ExchangeCall.mint_eq_some.mp minted
    rw [exchangeToken, if_pos (not_not.mp access)] at done
    obtain ⟨_, known, within, nonempty⟩ := exchangeForIDJAG_scopes done
    rw [ExchangeCall.subject, if_neg access, known] at read
    cases read
    refine ⟨fun some_ => ⟨within, nonempty some_⟩, fun grant found => ?_⟩
    rw [ExchangeCall.grant, if_neg access] at found
    cases found

/-- Scopes are only lost along the way. -/
def ScopeWithin (earlier later : Token) : Prop :=
  earlier.scopes ≠ [] → later.scopes ⊆ earlier.scopes ∧ later.scopes ≠ []

instance : IsTrans Token ScopeWithin where
  trans _ _ _ first second := fun some_ =>
    ⟨fun _ inside => (first some_).1 ((second (first some_).2).1 inside),
      (second (first some_).2).2⟩

/-- **Along every chain of exchanges, a token has only scopes of the grant that
was used, and only scopes of every earlier token that has scopes.** -/
theorem exchange_chain_narrows (cfg : TokenConfig) (first : Token)
    (chain : List (ExchangeCall × Token)) (links : Links (Exchanges cfg) first chain) :
    Links NarrowsScope first chain ∧ (items first chain).Pairwise ScopeWithin := by
  have narrows := links.mono fun link => link.narrowsScope
  exact ⟨narrows, (narrows.mono fun link => link.subject).pairwise⟩

/-- The hook leaves the actors and the key binding. -/
def TokenAnswers.AddsClaims (a : TokenAnswers) : Prop :=
  ∀ ⦃claims extra⦄, a.onTokenIssued claims = .ok extra →
    extra.act = claims.extra.act ∧ extra.cnfJKT = claims.extra.cnfJKT

/-- The subject and audience stay, and the agent is prepended to the actors. -/
structure KeepsIdentity (cfg : TokenConfig) (before : Token) (call : ExchangeCall) (after : Token) :
    Prop where
  sub : after.claims.sub = before.claims.sub
  aud : after.claims.aud = before.claims.aud
  actors : ∃ agent, call.agent = some agent ∧
    actorFromClaims after.claims = prepend agent.subject (actorFromClaims before.claims)
  depth : ∃ policy, cfg.agentPolicy = some policy ∧
    depth (actorFromClaims after.claims) ≤ cfg.maxDepth policy
  live : ∀ sub ∈ actorFromClaims after.claims, LiveActor call.state call.answers.clock sub
  exp : after.claims.exp ≤ before.claims.exp
  key : before.claims.extra.cnfJKT ≠ [] → after.claims.extra.cnfJKT = before.claims.extra.cnfJKT

omit [StdLib] [UrlLib] in
theorem Agent.subject_ne_nil (agent : Agent) : agent.subject ≠ [] :=
  fun none_ => absurd (append_eq_nil_iff.mp none_).1 (by decide)

variable {a : TokenAnswers} {e : Exchange} {req : TokenExchangeRequest} {resp : TokenResponse}
  {s : AgentState}

omit [UrlLib] in
theorem Exchange.Made.act_eq (made : e.Made cfg s req a resp) (adds : a.AddsClaims) :
    resp.claims.extra.act =
      actorClaimToMap (prepend e.agent.subject (actorFromClaims e.subject)) := by
  obtain ⟨_, hooked, claims, -⟩ := made.issued
  rw [claims]
  exact (adds hooked).1

omit [UrlLib] in
theorem Exchange.Made.actorFromClaims_eq (made : e.Made cfg s req a resp) (adds : a.AddsClaims) :
    actorFromClaims resp.claims = prepend e.agent.subject (actorFromClaims e.subject) := by
  rw [actorFromClaims, made.act_eq adds]
  apply actorFromAny_actorClaimToMap
  intro _ inside
  rcases mem_cons.mp inside with rfl | earlier
  · exact Agent.subject_ne_nil e.agent
  · unfold actorFromClaims at earlier
    cases read : e.subject.extra.act with
    | none =>
      rw [read] at earlier
      cases earlier
    | some =>
      rw [read] at earlier
      exact ne_nil_of_mem_actorFromAny earlier

theorem Exchanges.act_eq (link : Exchanges cfg before call after) (access : call.ForAccess)
    (adds : call.answers.AddsClaims) :
    ∃ agent, call.agent = some agent ∧
      actorFromClaims after.claims = prepend agent.subject (actorFromClaims before.claims) ∧
      after.claims.extra.act = actorClaimToMap (actorFromClaims after.claims) := by
  obtain ⟨e, _, made, subject, after_, agent, -⟩ := link.exists_made access
  have actors := made.actorFromClaims_eq adds
  refine ⟨e.agent, agent, ?_, ?_⟩
  · rw [after_, actors, subject]
  · rw [after_, made.act_eq adds, actors]

theorem Exchanges.keepsIdentity {skew : Int}
    (link : Exchanges cfg before call after) (access : call.ForAccess)
    (punctual : call.answers.Punctual skew) (adds : call.answers.AddsClaims) :
    KeepsIdentity cfg before call after := by
  obtain ⟨e, resp, made, subject, after_, agent, -⟩ := link.exists_made access
  have actors := made.actorFromClaims_eq adds
  obtain ⟨_, hooked, claims, -⟩ := made.issued
  have key : resp.claims.extra.cnfJKT = e.proofJKT := by
    rw [claims]
    exact (adds hooked).2
  have exp := made.exp_le_subject punctual
  rw [← after_] at actors key exp claims
  rw [subject] at actors exp
  refine
    { sub := by rw [claims, ← subject]; rfl
      aud := by rw [claims, ← subject]; rfl
      actors := ⟨e.agent, agent, actors⟩
      depth := ⟨e.policy, made.policy, ?_⟩
      live := fun sub inside => ?_
      exp
      key := fun bound => ?_ }
  · have deep := made.depth
    rw [subject] at deep
    rw [actors, Agents.depth, prepend, length_cons]
    rw [Agents.depth] at deep
    omega
  · rw [actors] at inside
    rcases mem_cons.mp inside with rfl | earlier
    · exact liveActor_subject made.stored made.live
    · rw [← subject] at earlier
      exact checkActors_eq_ok made.actors sub earlier
  · rw [← subject] at bound ⊢
    rw [key, made.subject.bound bound]

/-- The same user and audience, no later expiry, bound to the same key. -/
structure SameIdentity (earlier later : Token) : Prop where
  sub : later.claims.sub = earlier.claims.sub
  aud : later.claims.aud = earlier.claims.aud
  exp : later.claims.exp ≤ earlier.claims.exp
  key : earlier.claims.extra.cnfJKT ≠ [] → later.claims.extra.cnfJKT = earlier.claims.extra.cnfJKT

omit [StdLib] [UrlLib] in
theorem KeepsIdentity.sameIdentity {before after : Token} {call : ExchangeCall}
    (kept : KeepsIdentity cfg before call after) : SameIdentity before after :=
  ⟨kept.sub, kept.aud, kept.exp, kept.key⟩

instance : IsTrans Token SameIdentity where
  trans _ _ _ first second :=
    { sub := second.sub.trans first.sub
      aud := second.aud.trans first.aud
      exp := Int.le_trans second.exp first.exp
      key := fun bound => by
        have kept := first.key bound
        rw [second.key (by rwa [kept]), kept] }

/-- **Every chain of exchanges for access tokens keeps the user, the audience and the key, adds the
requesting agent, and never lengthens the expiry.** -/
theorem exchange_chain_keeps_identity (cfg : TokenConfig) (first : Token)
    (chain : List (ExchangeCall × Token)) (skew : Int) (links : Links (Exchanges cfg) first chain)
    (access : ∀ entry ∈ chain, entry.1.ForAccess)
    (punctual : ∀ entry ∈ chain, entry.1.answers.Punctual skew)
    (adds : ∀ entry ∈ chain, entry.1.answers.AddsClaims) :
    Links (KeepsIdentity cfg) first chain ∧ (items first chain).Pairwise SameIdentity := by
  have all := links.and ((Links.of_forall (·.ForAccess) access).and
    ((Links.of_forall (·.answers.Punctual skew) punctual).and
      (Links.of_forall (·.answers.AddsClaims) adds)))
  have keeps : Links (KeepsIdentity cfg) first chain :=
    all.mono fun link => link.1.keepsIdentity link.2.1 link.2.2.1 link.2.2.2
  exact ⟨keeps, (keeps.mono fun kept => kept.sameIdentity).pairwise⟩

end

theorem presenting_addsClaims (clientID text : Bytes) (claims : Claims) :
    (presenting clientID text claims).AddsClaims := by
  rintro _ _ ⟨⟩
  exact ⟨rfl, rfl⟩

def userToken (scope : Bytes) : Token := ⟨str "t", userClaims scope⟩

def clientCall (clientID : Bytes) (token : Token) : ExchangeCall where
  state := @delegatedTo UlidText.unary
    [grantTo 8 1 [str "read", str "write"] none, grantTo 9 2 [str "read"] none]
  req := { subjectToken := token.text }
  answers := presenting clientID token.text token.claims

def handOn (clientID : Bytes) (token : Token) : Token :=
  (@ExchangeCall.mint StdLib.refusing UlidText.unary UrlLib.refusing delegationConfig
    (clientCall clientID token)).getD token

def twoExchanges (scope : Bytes) : List (ExchangeCall × Token) :=
  let first := handOn (str "a") (userToken scope)
  [(clientCall (str "a") (userToken scope), first),
    (clientCall (str "b") first, handOn (str "b") first)]

/-- Below a token without scopes, the grant's scopes appear. -/
theorem exchange_of_no_scope_widens :
    @Exchanges StdLib.refusing UlidText.unary UrlLib.refusing delegationConfig (userToken [])
        (clientCall (str "b") (userToken [])) (handOn (str "b") (userToken [])) ∧
      (userToken []).scopes = [] ∧ (handOn (str "b") (userToken [])).scopes = [str "read"] := by
  refine ⟨?_, ?_, ?_⟩ <;> decide +kernel

theorem two_exchanges_narrow :
    (twoExchanges (str "read write")).map (·.2.scopes) =
        [[str "read", str "write"], [str "read"]] ∧
      (items (userToken (str "read write")) (twoExchanges (str "read write"))).Pairwise
        ScopeWithin :=
  ⟨by decide +kernel, (@exchange_chain_narrows StdLib.refusing UlidText.unary UrlLib.refusing
    delegationConfig _ _ (by decide +kernel)).2⟩

def assertionCall : ExchangeCall :=
  let claims := { userClaims (str "read") with extra := { cnfJKT := str "k" } }
  { state := @delegatedTo UlidText.unary []
    req := { subjectToken := str "t", requestedTokenType := tokenTypeIDJAG, audience := str "o" }
    answers := presenting (str "a") (str "t") claims }

/-- An identity assertion is for another audience, names no actor and is bound to
no key. -/
theorem identity_assertion_changes_identity :
    ∃ before after, @Exchanges StdLib.refusing UlidText.unary UrlLib.refusing delegationConfig
        before assertionCall after ∧
      before.claims.aud = str "r" ∧ after.claims.aud = str "o" ∧
      actorFromClaims after.claims = [] ∧
      before.claims.extra.cnfJKT = str "k" ∧ after.claims.extra.cnfJKT = [] := by
  refine ⟨⟨str "t", { userClaims (str "read") with extra := { cnfJKT := str "k" } }⟩,
    (@ExchangeCall.mint StdLib.refusing UlidText.unary UrlLib.refusing delegationConfig
      assertionCall).getD (userToken []), ?_, ?_, ?_, ?_, ?_, ?_⟩ <;> decide +kernel

theorem two_exchanges_keep_identity :
    (twoExchanges (str "read")).map (fun entry => actorFromClaims entry.2.claims) =
        [[str "agent:1"], [str "agent:11", str "agent:1"]] ∧
      (items (userToken (str "read")) (twoExchanges (str "read"))).Pairwise SameIdentity := by
  refine ⟨by decide +kernel, (@exchange_chain_keeps_identity StdLib.refusing UlidText.unary
    UrlLib.refusing delegationConfig _ _ 0 (by decide +kernel) ?_ ?_ ?_).2⟩
  · simp only [twoExchanges, forall_mem_cons]
    exact ⟨by decide, by decide, fun _ none_ => nomatch none_⟩
  · simp only [twoExchanges, forall_mem_cons]
    refine ⟨presenting_punctual (by decide), presenting_punctual ?_, fun _ none_ => nomatch none_⟩
    decide +kernel
  · simp only [twoExchanges, forall_mem_cons]
    exact ⟨presenting_addsClaims _ _ _, presenting_addsClaims _ _ _, fun _ none_ => nomatch none_⟩

end TheAuth.Server
