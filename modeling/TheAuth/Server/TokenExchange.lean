import TheAuth.Server.AgentTokens

/-!
# What a token exchange guarantees

An `Exchange` collects the values of a call that has passed every check. The scopes only narrow,
except below a token without scopes, and the expiry is tightened to bounds among which the grant's
own expiry is not.
-/

set_option autoImplicit false

namespace TheAuth.Server

open Go Store Agents Library.Result List Time

section

variable {cfg : TokenConfig} {s : AgentState} {clock : Time} {a : TokenAnswers}

theorem liveAgent_eq_ok {client : Client} {agent : Agent}
    (found : liveAgent s client clock = .ok agent) :
    s.agents.agentByClientID client.clientID = some agent ∧ agent.liveErr clock = none := by
  unfold liveAgent at found
  split at found
  · cases found
  rename_i stored
  split at found <;> cases found
  rename_i live
  exact ⟨stored, live⟩

theorem gateMint_scopes [StdLib] [UlidText] {ag : Agent} {req : MintRequest} {res : MintResult}
    (done : gateMint cfg a ag req = .ok res) :
    res.scopes ⊆ req.scopes ∧ (req.scopes ≠ [] → res.scopes ≠ []) := by
  unfold gateMint at done
  split at done
  next permitted =>
    cases done
    exact authorizeMint_scopes permitted
  · cases done
  · cases done

theorem issueToken_eq_ok {claims issued : Claims} {access : Bytes}
    (done : issueToken a claims = .ok (issued, access)) :
    ∃ extra, a.onTokenIssued claims = .ok extra ∧ issued = { claims with extra } ∧
      a.issue issued = .ok access := by
  obtain ⟨extra, hooked, done⟩ := of_bind done
  obtain ⟨_, signed, done⟩ := of_bind done
  cases done
  exact ⟨extra, hooked, rfl, signed⟩

/-- The subject token that the exchange has verified. -/
structure VerifiedSubject (cfg : TokenConfig) (req : TokenExchangeRequest) (a : TokenAnswers)
    (subject : Claims) (proofJKT : Bytes) : Prop where
  verified : a.verifyAccessJWT req.subjectToken = some subject
  issuer : subject.iss = cfg.issuer
  unrevoked : a.accessJTIRevoked subject.jti = false
  proof : a.proofJKT = .ok proofJKT
  bound : subject.extra.cnfJKT ≠ [] → proofJKT = subject.extra.cnfJKT

variable {subject : Claims} {req : TokenExchangeRequest}

theorem verifySubject_eq_ok
    {proofJKT : Bytes} (done : verifySubject cfg req a = .ok (subject, proofJKT)) :
    VerifiedSubject cfg req a subject proofJKT := by
  obtain ⟨_, _, done⟩ := of_bind done
  obtain ⟨_, _, done⟩ := of_bind done
  obtain ⟨_, verified, done⟩ := of_bind done
  obtain ⟨_, issuer, done⟩ := of_bind done
  obtain ⟨_, unrevoked, done⟩ := of_bind done
  obtain ⟨_, proof, done⟩ := of_bind done
  obtain ⟨_, bound, done⟩ := of_bind done
  cases done
  refine ⟨orRefuse_eq_ok.mp verified, ?_, ?_, proof, fun key => ?_⟩
  · exact not_not.mp (refuseIf_eq_ok.mp issuer)
  · exact Bool.not_eq_true _ ▸ refuseIf_eq_ok.mp unrevoked
  · by_contra other
    exact refuseIf_eq_ok.mp bound ⟨key, .inr other⟩

theorem exchangeResource_eq_ok [UrlLib] {resourceID : Bytes}
    (done : exchangeResource cfg req subject = .ok resourceID) : resourceID = subject.aud := by
  obtain ⟨_, _, done⟩ := of_bind done
  obtain ⟨⟨_, _⟩, _, done⟩ := of_bind done
  obtain ⟨_, same, done⟩ := of_bind done
  obtain ⟨_, _, done⟩ := of_bind done
  cases done
  exact not_not.mp (refuseIf_eq_ok.mp same)

/-- The subject is an agent that may act. -/
def LiveActor [UlidText] (s : AgentState) (clock : Time) (sub : Bytes) : Prop :=
  ∃ ag : Agent, agentSubjectPrefix.isPrefixOf sub = true ∧
    (UlidText.parse (trimPrefix sub agentSubjectPrefix)).bind s.agents.agentByID = some ag ∧
      ag.liveErr clock = none

theorem liveActor_of_lookupAgent [UlidText] {sub : Bytes} {ag : Agent}
    (found : lookupAgent cfg s sub = some (some ag)) (live : ag.liveErr clock = none) :
    LiveActor s clock sub := by
  unfold lookupAgent at found
  split at found
  · cases found
  split at found
  · cases found
  rename_i named
  split at found <;> cases found
  rename_i stored
  exact ⟨ag, by simpa using named, stored, live⟩

theorem checkActors_eq_ok [UlidText] {first last : Time} {actors : ActorChain}
    (done : checkActors cfg s clock first actors = .ok last) :
    ∀ sub ∈ actors, LiveActor s clock sub := by
  induction actors generalizing first with
  | nil => exact nofun
  | cons actor rest ih =>
    unfold checkActors at done
    split at done
    · cases done
    · cases done
    rename_i found
    split at done
    · cases done
    rename_i live
    intro sub member
    rcases mem_cons.mp member with rfl | later
    · exact liveActor_of_lookupAgent found live
    · exact ih done sub later

theorem liveActor_subject [UlidText] {clientID : Bytes} {agent : Agent}
    (stored : s.agents.agentByClientID clientID = some agent)
    (live : agent.liveErr clock = none) : LiveActor s clock agent.subject := by
  have starts : agentSubjectPrefix.isPrefixOf agent.subject = true :=
    isPrefixOf_iff_prefix.mpr (prefix_append _ _)
  obtain ⟨_, _, found⟩ := Option.bind_eq_some_iff.mp stored
  refine ⟨agent, starts, ?_, live⟩
  rw [trimPrefix, if_pos starts, Agent.subject, drop_left, UlidText.parse_string,
    Option.bind_some, s.agents.keyed found]
  exact found

/-! ## Exchanges -/

structure Exchange where
  policy : AgentPolicy
  client : Client
  agent : Agent
  subject : Claims
  proofJKT : Bytes
  root : ULID
  chainExp : Time
  grant : DelegationGrant
  narrowed : List Bytes
  gated : MintResult

namespace Exchange

/-- A zero time is no bound. -/
def bounds (e : Exchange) (cfg : TokenConfig) (a : TokenAnswers) : List Time :=
  [Time.unix e.subject.exp, a.now + e.policy.defaultDelegatedTokenTTL,
    a.now + e.grant.maxDurationSeconds * 1000000000, a.now + cfg.accessTokenTTL,
    e.agent.expiryBound, e.chainExp]

def claims [UlidText] (e : Exchange) (cfg : TokenConfig) (a : TokenAnswers) : Claims where
  iss := cfg.issuer
  sub := e.subject.sub
  aud := e.subject.aud
  exp := (tightenDuration (e.bounds cfg a)).toUnix
  iat := a.now.toUnix
  jti := a.jti
  clientID := e.client.clientID
  scope := scopeJoin e.gated.scopes
  extra :=
    { act := actorClaimToMap (prepend e.agent.subject (actorFromClaims e.subject))
      delegationGrantID := UlidText.string e.grant.id
      cnfJKT := e.proofJKT
      agentPolicy := agentPolicyClaim e.gated }

/-- Every check was passed, and the response holds the claims that the hook left. -/
structure Made [StdLib] [UlidText] (e : Exchange) (cfg : TokenConfig) (s : AgentState)
    (req : TokenExchangeRequest) (a : TokenAnswers) (resp : TokenResponse) : Prop where
  policy : cfg.agentPolicy = some e.policy
  client : a.client = .ok e.client
  stored : s.agents.agentByClientID e.client.clientID = some e.agent
  live : e.agent.liveErr a.clock = none
  subject : VerifiedSubject cfg req a e.subject e.proofJKT
  root : UlidText.parse e.subject.sub = some e.root
  actors : checkActors cfg s a.clock 0 (actorFromClaims e.subject) = .ok e.chainExp
  depth : depth (actorFromClaims e.subject) + 1 ≤ cfg.maxDepth e.policy
  found : s.delegations.delegationGrantByUserAgentResource e.root e.agent.id e.subject.aud =
    some e.grant
  active : e.grant.active a.now = true
  narrowed : narrowScope req.scope (scopeSplit e.subject.scope) e.grant.scope = some e.narrowed
  nonempty : e.narrowed ≠ []
  gated : gateMint cfg a e.agent
    ⟨.tokenExchange, e.subject.aud, e.narrowed, decide (0 < req.scope.length), none⟩ = .ok e.gated
  unexpired : a.now < tightenDuration (e.bounds cfg a)
  issued : ∃ extra, a.onTokenIssued (e.claims cfg a) = .ok extra ∧
    resp.claims = { e.claims cfg a with extra } ∧ a.issue resp.claims = .ok resp.accessToken

end Exchange

theorem resolveSubjectPrincipal_eq_ok [UlidText] {clock chainExp : Time}
    {root : ULID} {existing : ActorChain}
    (done : resolveSubjectPrincipal cfg s subject clock = .ok (root, existing, chainExp)) :
    UlidText.parse subject.sub = some root ∧ existing = actorFromClaims subject ∧
      checkActors cfg s clock 0 (actorFromClaims subject) = .ok chainExp := by
  obtain ⟨_, _, done⟩ := of_bind done
  obtain ⟨_, _, done⟩ := of_bind done
  obtain ⟨_, parsed, done⟩ := of_bind done
  obtain ⟨_, walked, done⟩ := of_bind done
  cases done
  exact ⟨orRefuse_eq_ok.mp parsed, rfl, walked⟩

variable {req : TokenExchangeRequest} {a : TokenAnswers} {resp : TokenResponse} {e : Exchange}

theorem exists_exchange [StdLib] [UlidText] [UrlLib]
    (access : req.requestedTokenType ≠ tokenTypeIDJAG)
    (done : exchangeToken cfg s req a = .ok resp) : ∃ e : Exchange, e.Made cfg s req a resp := by
  rw [exchangeToken, if_neg access] at done
  obtain ⟨policy, configured, done⟩ := of_bind done
  obtain ⟨client, known, done⟩ := of_bind done
  obtain ⟨agent, isLive, done⟩ := of_bind done
  obtain ⟨stored, live⟩ := liveAgent_eq_ok isLive
  obtain ⟨⟨subject, proofJKT⟩, verified, done⟩ := of_bind done
  obtain ⟨_, _, done⟩ := of_bind done
  obtain ⟨_, resolved, done⟩ := of_bind done
  obtain rfl := exchangeResource_eq_ok resolved
  obtain ⟨⟨root, _, chainExp⟩, principal, done⟩ := of_bind done
  obtain ⟨parsed, rfl, actors⟩ := resolveSubjectPrincipal_eq_ok principal
  obtain ⟨_, shallow, done⟩ := of_bind done
  obtain ⟨grant, found, done⟩ := of_bind done
  obtain ⟨_, active, done⟩ := of_bind done
  obtain ⟨narrowed, narrows, done⟩ := of_bind done
  obtain ⟨_, nonempty, done⟩ := of_bind done
  obtain ⟨gated, permitted, done⟩ := of_bind done
  obtain ⟨_, unexpired, done⟩ := of_bind done
  obtain ⟨⟨_, _⟩, issued, done⟩ := of_bind done
  cases done
  exact ⟨⟨policy, client, agent, subject, proofJKT, root, chainExp, grant, narrowed, gated⟩,
    { policy := orRefuse_eq_ok.mp configured
      client := known
      stored
      live
      subject := verifySubject_eq_ok verified
      root := parsed
      actors
      depth := Int.not_lt.mp (refuseIf_eq_ok.mp shallow)
      found := orRefuse_eq_ok.mp found
      active := by simpa using refuseIf_eq_ok.mp active
      narrowed := orRefuse_eq_ok.mp narrows
      nonempty := fun none_ => refuseIf_eq_ok.mp nonempty (length_eq_zero_iff.mpr none_)
      gated := permitted
      unexpired := Int.not_le.mp (refuseIf_eq_ok.mp unexpired)
      issued := issueToken_eq_ok issued }⟩

theorem Exchange.Made.scopes [StdLib] [UlidText] (made : e.Made cfg s req a resp) :
    scopeSplit resp.claims.scope ⊆ scopeSplit (scopeJoin e.grant.scope) ∧
      (scopeSplit e.subject.scope ≠ [] →
        scopeSplit resp.claims.scope ⊆ scopeSplit e.subject.scope ∧
          scopeSplit resp.claims.scope ⊆ e.grant.scope ∧ scopeSplit resp.claims.scope ≠ []) := by
  obtain ⟨_, -, claims, -⟩ := made.issued
  have scope : resp.claims.scope = scopeJoin e.gated.scopes := by rw [claims]; rfl
  obtain ⟨gated, nonempty⟩ := gateMint_scopes made.gated
  obtain ⟨inGrant, inSubject⟩ := narrowScope_eq_some made.narrowed
  rw [scope]
  constructor
  · intro word inside
    obtain ⟨text, member, here⟩ := mem_scopeSplit_scopeJoin.mp inside
    exact mem_scopeSplit_scopeJoin.mpr ⟨text, inGrant (gated member), here⟩
  · intro some_
    have words : e.gated.scopes ⊆ scopeSplit e.subject.scope :=
      fun _ member => inSubject some_ (gated member)
    refine ⟨fun word inside => ?_, fun word inside => ?_, ?_⟩
    · exact words ((mem_scopeSplit_scopeJoin_of_words words).mp inside)
    · exact inGrant (gated ((mem_scopeSplit_scopeJoin_of_words words).mp inside))
    · obtain ⟨_, member⟩ := exists_mem_of_ne_nil _ (nonempty made.nonempty)
      exact ne_nil_of_mem ((mem_scopeSplit_scopeJoin_of_words words).mpr member)

def idJAGClaims (a : TokenAnswers) (token : Bytes) : Option Claims :=
  if token.count 0x2E = 2 then a.verifyAccessJWT token else a.lookupOpaqueClaims token

theorem idJAGSubject_eq_ok {token : Bytes}
    (done : idJAGSubject cfg token a = .ok subject) : idJAGClaims a token = some subject := by
  obtain ⟨_, read, done⟩ := of_bind done
  obtain ⟨_, _, done⟩ := of_bind done
  cases done
  have known := orRefuse_eq_ok.mp read
  unfold idJAGClaims
  split
  next dots =>
    rw [if_pos dots] at known
    exact (Option.filter_eq_some_iff.mp known).1
  next dots => rwa [if_neg dots] at known

theorem exchangeForIDJAG_scopes [UrlLib] (done : exchangeForIDJAG cfg req a = .ok resp) :
    ∃ subject, idJAGClaims a req.subjectToken = some subject ∧
      scopeSplit resp.claims.scope ⊆ scopeSplit subject.scope ∧
        (scopeSplit subject.scope ≠ [] → scopeSplit resp.claims.scope ≠ []) := by
  iterate 6 obtain ⟨_, _, done⟩ := of_bind done
  obtain ⟨subject, read, done⟩ := of_bind done
  obtain ⟨_, _, done⟩ := of_bind done
  obtain ⟨_, _, done⟩ := of_bind done
  obtain ⟨_, within, done⟩ := of_bind done
  obtain ⟨_, _, done⟩ := of_bind done
  cases done
  refine ⟨subject, idJAGSubject_eq_ok read, ?_⟩
  -- what is asked for, when something is, was checked against the subject's scopes
  have words : (if 0 < req.scope.length then req.scope else scopeSplit subject.scope) ⊆
      scopeSplit subject.scope := by
    split
    next asked =>
      refine scopeSubset_eq_true.mp ?_
      by_contra outside
      exact refuseIf_eq_ok.mp within ⟨asked, by simpa using outside⟩
    · exact List.Subset.refl _
  constructor
  · exact fun word inside => words ((mem_scopeSplit_scopeJoin_of_words words).mp inside)
  · intro some_
    have nonempty :
        (if 0 < req.scope.length then req.scope else scopeSplit subject.scope) ≠ [] := by
      split
      next asked => exact ne_nil_of_length_pos asked
      · exact some_
    obtain ⟨_, member⟩ := exists_mem_of_ne_nil _ nonempty
    exact ne_nil_of_mem ((mem_scopeSplit_scopeJoin_of_words words).mpr member)

/-- Verification refuses a token that expired longer ago than the skew, and the clock is past the
skew. -/
structure TokenAnswers.Punctual (a : TokenAnswers) (skew : Int) : Prop where
  nonneg : 0 ≤ skew
  late : skew < a.now
  unexpired : ∀ ⦃token claims⦄, a.verifyAccessJWT token = some claims →
    a.now ≤ Time.unix claims.exp + skew

theorem Exchange.Made.exp_eq [StdLib] [UlidText] (made : e.Made cfg s req a resp) :
    resp.claims.exp = (tightenDuration (e.bounds cfg a)).toUnix := by
  obtain ⟨_, -, claims, -⟩ := made.issued
  rw [claims]
  rfl

theorem Exchange.Made.exp_le_subject [StdLib] [UlidText] {skew : Int}
    (made : e.Made cfg s req a resp) (punctual : a.Punctual skew) :
    resp.claims.exp ≤ e.subject.exp := by
  have unexpired := punctual.unexpired made.subject.verified
  have bound : unix e.subject.exp ≠ 0 := by
    intro zero
    rw [zero, Int.zero_add] at unexpired
    exact Int.not_lt.mpr unexpired punctual.late
  have earlier : tightenDuration (e.bounds cfg a) ≤ unix e.subject.exp :=
    tightenDuration_le mem_cons_self bound
  rw [made.exp_eq, ← toUnix_unix e.subject.exp]
  exact toUnix_le_toUnix earlier

theorem Exchange.Made.exp_le_iff [StdLib] [UlidText] {skew : Int} (made : e.Made cfg s req a resp)
    (punctual : a.Punctual skew) (envelope : Time) :
    unix resp.claims.exp ≤ envelope ↔
      ∃ bound ∈ e.bounds cfg a, bound ≠ 0 ∧ unix bound.toUnix ≤ envelope := by
  rw [made.exp_eq]
  constructor
  · intro within
    have later : 0 < tightenDuration (e.bounds cfg a) :=
      Int.lt_trans (Int.lt_of_le_of_lt punctual.nonneg punctual.late) made.unexpired
    exact ⟨_, tightenDuration_mem (Int.ne_of_gt later), Int.ne_of_gt later, within⟩
  · rintro ⟨_, member, some_, within⟩
    have earlier := toUnix_le_toUnix (tightenDuration_le member some_)
    exact Int.le_trans (unix_le_unix earlier) within

/-- **When a token expires within its grant.** The expiry of the grant is none of the bounds it is
tightened to. -/
theorem exchange_exp_within_grant_iff [StdLib] [UlidText] [UrlLib] (cfg : TokenConfig)
    (s : AgentState) (req : TokenExchangeRequest) (a : TokenAnswers) (resp : TokenResponse)
    (skew : Int) (punctual : a.Punctual skew) (access : req.requestedTokenType ≠ tokenTypeIDJAG)
    (done : exchangeToken cfg s req a = .ok resp) :
    ∃ e : Exchange, e.Made cfg s req a resp ∧ resp.claims.exp ≤ e.subject.exp ∧
      ∀ envelope, e.grant.expiresAt = some envelope →
        (unix resp.claims.exp ≤ envelope ↔
          ∃ bound ∈ e.bounds cfg a, bound ≠ 0 ∧ unix bound.toUnix ≤ envelope) := by
  obtain ⟨e, made⟩ := exists_exchange access done
  exact ⟨e, made, made.exp_le_subject punctual, fun envelope _ => made.exp_le_iff punctual envelope⟩

end

/-! ## A delegation -/

def delegationConfig : TokenConfig where
  issuer := str "i"
  accessTokenTTL := 3600 * 1000000000
  resources := { resources := [⟨str "r", [str "read", str "write"]⟩] }
  agentPolicy := some ⟨4, 1800 * 1000000000⟩
  idJAG := some ⟨[str "o"], 300 * 1000000000⟩

def grantTo (id agentID : ULID) (scope : List Bytes) (expiresAt : Option Time) :
    DelegationGrant where
  id
  userID := 3
  agentID
  scope
  resource := str "r"
  maxDurationSeconds := 600
  createdAt := 0
  expiresAt

def twoAgents : AgentStore :=
  let first : Agent := { id := 1, name := str "A", status := .active, clientID := str "a" }
  let second : Agent := { id := 2, name := str "B", status := .active, clientID := str "b" }
  ((AgentStore.empty.insertAgent first).bind (·.insertAgent second)).getD .empty

def delegatedTo [UlidText] (grants : List DelegationGrant) : AgentState where
  agents := twoAgents
  delegations := grants.foldl (fun s g => (s.insertDelegationGrant g).getD s) .empty

def userClaims (scope : Bytes) : Claims where
  iss := str "i"
  sub := str "111"
  aud := str "r"
  exp := 5000
  iat := 900
  jti := str "j"
  clientID := str "a"
  scope

def presenting (clientID text : Bytes) (claims : Claims) : TokenAnswers where
  clock := Time.unix 1000
  now := Time.unix 1000
  jti := str "n"
  client := .ok ⟨clientID, []⟩
  verifyAccessJWT token := if token = text then some claims else none
  lookupOpaqueClaims token := if token = text then some claims else none
  accessJTIRevoked _ := false
  proofJKT := .ok claims.extra.cnfJKT
  gate := ⟨Time.unix 1000, fun _ _ => .ok { applies := false }, fun _ _ => none⟩
  onTokenIssued claims := .ok claims.extra
  issue claims := .ok (text ++ claims.clientID)
  assertion := .error .unsupportedGrantType
  redemption := .error .unsupportedGrantType

theorem presenting_punctual {clientID text : Bytes} {claims : Claims} (later : 1000 ≤ claims.exp) :
    (presenting clientID text claims).Punctual 0 where
  nonneg := Int.le_refl 0
  late := show (0 : Int) < unix 1000 by decide
  unexpired := by
    intro _ _ known
    simp only [presenting] at known
    split at known
    · cases known
      rw [Int.add_zero]
      exact unix_le_unix later
    · cases known

def exchangeUnder (grant : DelegationGrant) : Except TokenError TokenResponse :=
  @exchangeToken StdLib.refusing UlidText.unary UrlLib.refusing delegationConfig
    (@delegatedTo UlidText.unary [grant]) { subjectToken := str "t" }
    (presenting (str "a") (str "t") (userClaims (str "read")))

/-- A grant that ends in ten seconds yields a token for ten minutes. -/
theorem exchange_outlives_grant :
    ((@delegatedTo UlidText.unary [grantTo 8 1 [str "read"] (some (unix 1010))]).delegations
        |> fun s => (@DelegationTables.delegationGrantByUserAgentResource UlidText.unary s 3 1
          (str "r")).bind (·.expiresAt)) = some (unix 1010) ∧
      (exchangeUnder (grantTo 8 1 [str "read"] (some (unix 1010)))).toOption.map
        (·.claims.exp) = some 1600 ∧
      unix 1010 < unix 1600 := by
  decide +kernel

theorem exchange_exp_under_long_grant :
    let s := @delegatedTo UlidText.unary [grantTo 8 1 [str "read"] (some (unix 2000))]
    let a := presenting (str "a") (str "t") (userClaims (str "read"))
    ∃ resp, exchangeUnder (grantTo 8 1 [str "read"] (some (unix 2000))) = .ok resp ∧
      ∃ e : Exchange, @Exchange.Made StdLib.refusing UlidText.unary e delegationConfig s
        { subjectToken := str "t" } a resp ∧ resp.claims.exp ≤ e.subject.exp ∧
        ∀ envelope, e.grant.expiresAt = some envelope →
          (unix resp.claims.exp ≤ envelope ↔
            ∃ bound ∈ e.bounds delegationConfig a, bound ≠ 0 ∧ unix bound.toUnix ≤ envelope) := by
  intro s a
  have done : ∃ resp, exchangeUnder (grantTo 8 1 [str "read"] (some (unix 2000))) = .ok resp :=
    exists_eq_ok (by decide +kernel)
  obtain ⟨resp, done⟩ := done
  obtain ⟨e, within⟩ := @exchange_exp_within_grant_iff StdLib.refusing UlidText.unary
    UrlLib.refusing _ _ _ _ resp 0 (presenting_punctual (by decide)) (by decide) done
  exact ⟨resp, done, e, within⟩

end TheAuth.Server
