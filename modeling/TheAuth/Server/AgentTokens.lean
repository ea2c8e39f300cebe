import TheAuth.Agents.Gate
import TheAuth.Agents.Service
import TheAuth.Library.Result
import TheAuth.Server.Resource

/-!
# Tokens for agents

Client credentials, token exchange and the JWT bearer grant. What a grant gets from elsewhere is
part of its answers. A token exchange that asks for an identity assertion does not look at the agent
(`exchangeForIDJAG`).
-/

set_option autoImplicit false

namespace TheAuth.Server

open Go Store Agents Library.Result

/-- The claim `act` as it is read. -/
inductive ActClaim where
  | malformed
  | actor (sub : Bytes)
  | chained (sub : Bytes) (act : ActClaim)
  deriving DecidableEq

def actorFromAny : ActClaim → ActorChain
  | .malformed => []
  | .actor sub => if sub = [] then [] else [sub]
  | .chained sub act => if sub = [] then [] else sub :: actorFromAny act

def actorClaimToMap : ActorChain → Option ActClaim
  | [] => none
  | [sub] => some (.actor sub)
  | sub :: rest => some ((actorClaimToMap rest).elim (.actor sub) (.chained sub))

structure ExtraClaims where
  act : Option ActClaim := none
  (delegationGrantID cnfJKT : Bytes := [])
  agentPolicy : Option (List Bytes × Bytes) := none
  resource : Bytes := []
  deriving DecidableEq

/-- The claims of a token. -/
structure Claims where
  (iss sub aud : Bytes)
  (exp iat : Int)
  (jti clientID scope : Bytes)
  extra : ExtraClaims := {}
  deriving DecidableEq

def actorFromClaims (c : Claims) : ActorChain := (c.extra.act.map actorFromAny).getD []

def agentPolicyClaim (res : MintResult) : Option (List Bytes × Bytes) :=
  if res.policyIDs.length = 0 && res.policyHash == [] then none
  else some (res.policyIDs, res.policyHash)

inductive TokenError where
  | oauth (e : OAuthError)
  | unsupportedGrantType | agentInactive | agentExpired | subjectTokenInvalid | actorTokenInvalid
  | chainDepthExceeded | delegationNotFound | delegationRevoked
  | rateLimited (retryAfter : Int)
  | gate (e : GateError)

structure Client where
  clientID : Bytes
  scope : Bytes := []

structure GrantRequest where
  (clientID resource : Bytes := [])
  scope : List Bytes := []

/-- A request to exchange a token. -/
structure TokenExchangeRequest where
  subjectToken : Bytes
  (subjectTokenType actorToken actorTokenType requestedTokenType resource audience : Bytes := [])
  scope : List Bytes := []

def tokenTypeAccessToken : Bytes := str "urn:ietf:params:oauth:token-type:access_token"

def tokenTypeIDJAG : Bytes := str "urn:ietf:params:oauth:token-type:id-jag"

structure AgentPolicy where
  (maxChainDepth defaultDelegatedTokenTTL : Int)

structure IDJAGConfig where
  audiences : List Bytes
  ttl : Int

/-- The configuration of the grants. -/
structure TokenConfig where
  issuer : Bytes
  accessTokenTTL : Int
  resources : ResourceConfig
  agentPolicy : Option AgentPolicy := none
  agentLookup : Bool := true
  jwtBearer : Option Int := none
  idJAG : Option IDJAGConfig := none
  gate : Option Gate := none

structure Asserted where
  userID : ULID
  isIDJAG : Bool

/-- The answer of a grant. -/
structure TokenResponse where
  claims : Claims
  (accessToken tokenType : Bytes)
  expiresIn : Int
  scope : Bytes
  issuedTokenType : Bytes := []

/-- What verifier, policies and hooks answer. -/
structure TokenAnswers where
  (clock now : Time)
  jti : Bytes
  client : Except TokenError Client
  (verifyAccessJWT lookupOpaqueClaims : Bytes → Option Claims)
  accessJTIRevoked : Bytes → Bool
  proofJKT : Except TokenError Bytes
  gate : GateAnswers
  onTokenIssued : Claims → Except TokenError ExtraClaims
  issue : Claims → Except TokenError Bytes
  device : Option (Except TokenError TokenResponse) := none
  /-- The checks of `JWTBearerGrant` on the assertion, up to the subject. -/
  assertion : Except TokenError Asserted
  redemption : Except TokenError (List Bytes)

/-! ## Minting -/

section

variable [StdLib] [UlidText] [UrlLib] (cfg : TokenConfig) (s : AgentState)

def idleError : Idle → TokenError
  | .inactive => .agentInactive
  | .expired => .agentExpired

variable (client : Client)

def liveAgent (clock : Time) : Except TokenError Agent :=
  match s.agents.agentByClientID client.clientID with
  | none => .error (.oauth .invalidClient)
  | some ag =>
    match ag.liveErr clock with
    | some idle => .error (idleError idle)
    | none => .ok ag

def gateMint (a : TokenAnswers) (ag : Agent) (req : MintRequest) : Except TokenError MintResult :=
  match authorizeMint cfg.gate a.gate ag req with
  | .ok res => .ok res
  | .error (.rateLimited retry) => .error (.rateLimited retry)
  | .error e => .error (.gate e)

def issueToken (a : TokenAnswers) (claims : Claims) : Except TokenError (Claims × Bytes) := do
  let extra ← a.onTokenIssued claims
  let issued := { claims with extra }
  let access ← a.issue issued
  return (issued, access)

variable (agent : Agent)

def lookupAgent (sub : Bytes) : Option (Option Agent) :=
  if !cfg.agentLookup then some none
  else if !agentSubjectPrefix.isPrefixOf sub then some none
  else match (UlidText.parse (trimPrefix sub agentSubjectPrefix)).bind s.agents.agentByID with
  | none => none
  | some ag => some (some ag)

def checkActors (clock : Time) : Time → ActorChain → Except TokenError Time
  | chainExp, [] => .ok chainExp
  | chainExp, sub :: rest =>
    match lookupAgent cfg s sub with
    | none => .error .subjectTokenInvalid
    | some none => .error .subjectTokenInvalid
    | some (some ag) =>
      match ag.liveErr clock with
      | some idle => .error (idleError idle)
      | none => checkActors clock (tightenDuration [chainExp, ag.expiryBound]) rest

def resolveSubjectPrincipal (subject : Claims) (clock : Time) :
    Except TokenError (ULID × ActorChain × Time) := do
  refuseIf (subject.sub = []) .subjectTokenInvalid
  refuseIf (agentSubjectPrefix.isPrefixOf subject.sub) .subjectTokenInvalid
  let root ← orRefuse (UlidText.parse subject.sub) .subjectTokenInvalid
  let chainExp ← checkActors cfg s clock 0 (actorFromClaims subject)
  return (root, actorFromClaims subject, chainExp)

/-! ## Exchange -/

def verifySubject (req : TokenExchangeRequest) (a : TokenAnswers) :
    Except TokenError (Claims × Bytes) := do
  refuseIf (req.subjectToken = []) (.oauth .invalidRequest)
  refuseIf (req.subjectTokenType ≠ [] ∧ req.subjectTokenType ≠ tokenTypeAccessToken)
    (.oauth .invalidRequest)
  let subject ← orRefuse (a.verifyAccessJWT req.subjectToken) .subjectTokenInvalid
  refuseIf (subject.iss ≠ cfg.issuer) .subjectTokenInvalid
  refuseIf (a.accessJTIRevoked subject.jti) .subjectTokenInvalid
  let proofJKT ← a.proofJKT
  refuseIf (subject.extra.cnfJKT ≠ [] ∧ (proofJKT = [] ∨ proofJKT ≠ subject.extra.cnfJKT))
    (.oauth (.dpopInvalid (str "subject token is DPoP-bound, matching proof required")))
  return (subject, proofJKT)

def checkActorToken (req : TokenExchangeRequest) (a : TokenAnswers) :
    Except TokenError Unit :=
  if req.actorToken = [] then .ok ()
  else do
    refuseIf (req.actorTokenType ≠ [] ∧ req.actorTokenType ≠ tokenTypeAccessToken)
      (.oauth .invalidRequest)
    let actor ← orRefuse (a.verifyAccessJWT req.actorToken) .actorTokenInvalid
    refuseIf (actor.sub ≠ agent.subject) .actorTokenInvalid

def exchangeResource (req : TokenExchangeRequest) (subject : Claims) :
    Except TokenError Bytes := do
  let resourceID := if req.resource = [] then subject.aud else req.resource
  refuseIf (resourceID = [] ∨ subject.aud = []) (.oauth .invalidResource)
  let (_, audience) ← orRefuse (cfg.resources.resolveResource resourceID) (.oauth .invalidResource)
  refuseIf (audience ≠ subject.aud) (.oauth .invalidResource)
  refuseIf (req.audience ≠ [] ∧ (cfg.resources.resolveResource req.audience).isNone)
    (.oauth .invalidResource)
  return audience

def TokenConfig.maxDepth (policy : AgentPolicy) : Int :=
  match cfg.jwtBearer with
  | some depth => if 0 < depth then depth else policy.maxChainDepth
  | none => policy.maxChainDepth

def exchangeFor (policy : AgentPolicy) (client : Client) (agent : Agent)
    (req : TokenExchangeRequest) (a : TokenAnswers) : Except TokenError TokenResponse := do
  let (subject, proofJKT) ← verifySubject cfg req a
  checkActorToken agent req a
  let resourceID ← exchangeResource cfg req subject
  let (root, existing, chainExp) ← resolveSubjectPrincipal cfg s subject a.clock
  refuseIf (cfg.maxDepth policy < depth existing + 1) .chainDepthExceeded
  let grant ← orRefuse
    (s.delegations.delegationGrantByUserAgentResource root agent.id resourceID) .delegationNotFound
  refuseIf (!grant.active a.now) .delegationRevoked
  let narrowed ← orRefuse (narrowScope req.scope (scopeSplit subject.scope) grant.scope)
    (.oauth .invalidScope)
  refuseIf (narrowed.length = 0) (.oauth .invalidScope)
  let gated ← gateMint cfg a agent
    ⟨.tokenExchange, resourceID, narrowed, decide (0 < req.scope.length), none⟩
  let policyExp := tightenDuration
    [Time.unix subject.exp, a.now + policy.defaultDelegatedTokenTTL,
      a.now + grant.maxDurationSeconds * 1000000000, a.now + cfg.accessTokenTTL,
      agent.expiryBound, chainExp]
  refuseIf (policyExp ≤ a.now) (.oauth .invalidGrant)
  let (claims, access) ← issueToken a
    { iss := cfg.issuer
      sub := subject.sub
      aud := resourceID
      exp := policyExp.toUnix
      iat := a.now.toUnix
      jti := a.jti
      clientID := client.clientID
      scope := scopeJoin gated.scopes
      extra :=
        { act := actorClaimToMap (prepend agent.subject existing)
          delegationGrantID := UlidText.string grant.id
          cnfJKT := proofJKT
          agentPolicy := agentPolicyClaim gated } }
  return ⟨claims, access, if proofJKT = [] then str "Bearer" else str "DPoP",
    seconds (policyExp - a.now), scopeJoin gated.scopes, tokenTypeAccessToken⟩

def idJAGSubject (token : Bytes) (a : TokenAnswers) : Except TokenError Claims := do
  let claims ← orRefuse
    (if token.count 0x2E = 2 then
      (a.verifyAccessJWT token).filter fun claims => !a.accessJTIRevoked claims.jti
    else a.lookupOpaqueClaims token)
    .subjectTokenInvalid
  refuseIf (claims.iss ≠ cfg.issuer) .subjectTokenInvalid
  return claims

def checkIDJAGTarget (jag : IDJAGConfig) (req : TokenExchangeRequest) :
    Except TokenError Unit := do
  refuseIf (req.audience = [] ∨ !jag.audiences.contains req.audience) (.oauth .invalidResource)
  if req.resource = [] then .ok ()
  else
    let u ← orRefuse (UrlLib.parseURL req.resource) (.oauth .invalidResource)
    refuseIf (u.scheme = [] ∨ u.fragment ≠ []) (.oauth .invalidResource)

def checkBinding (subject : Claims) (a : TokenAnswers) : Except TokenError Unit :=
  if subject.extra.cnfJKT = [] then .ok ()
  else do
    let proof ← a.proofJKT
    refuseIf (proof = [] ∨ proof ≠ subject.extra.cnfJKT)
      (.oauth (.dpopInvalid (str "subject token is DPoP-bound, matching proof required")))

def exchangeForIDJAG (req : TokenExchangeRequest) (a : TokenAnswers) :
    Except TokenError TokenResponse := do
  let jag ← orRefuse cfg.idJAG .unsupportedGrantType
  refuseIf (jag.audiences.length = 0) .unsupportedGrantType
  let client ← a.client
  refuseIf (req.subjectToken = []) (.oauth .invalidRequest)
  refuseIf (req.subjectTokenType ≠ [] ∧ req.subjectTokenType ≠ tokenTypeAccessToken)
    (.oauth .invalidRequest)
  checkIDJAGTarget jag req
  let subject ← idJAGSubject cfg req.subjectToken a
  refuseIf (subject.clientID ≠ client.clientID ∨ agentSubjectPrefix.isPrefixOf subject.sub ∨
      subject.sub = []) .subjectTokenInvalid
  checkBinding subject a
  refuseIf (0 < req.scope.length ∧ !scopeSubset req.scope (scopeSplit subject.scope))
    (.oauth .invalidScope)
  let scope := if 0 < req.scope.length then req.scope else scopeSplit subject.scope
  let exp := min (a.clock + jag.ttl) (Time.unix subject.exp)
  let claims : Claims :=
    { iss := cfg.issuer
      sub := subject.sub
      aud := req.audience
      exp := exp.toUnix
      iat := a.clock.toUnix
      jti := a.jti
      clientID := client.clientID
      scope := scopeJoin scope
      extra := { resource := req.resource } }
  let assertion ← a.issue claims
  return ⟨claims, assertion, str "N_A", seconds (exp - a.clock), scopeJoin scope, tokenTypeIDJAG⟩

def exchangeToken (req : TokenExchangeRequest) (a : TokenAnswers) :
    Except TokenError TokenResponse :=
  if req.requestedTokenType = tokenTypeIDJAG then exchangeForIDJAG cfg req a
  else do
    let policy ← orRefuse cfg.agentPolicy .unsupportedGrantType
    let client ← a.client
    let agent ← liveAgent s client a.clock
    exchangeFor cfg s policy client agent req a

/-! ## Assertions -/

def vetAgentClient (req : GrantRequest) (audience : Bytes) (scope : List Bytes)
    (a : TokenAnswers) : Except TokenError (MintResult × Time) :=
  if req.clientID = [] then .ok ({ scopes := scope }, 0)
  else match s.agents.agentByClientID req.clientID with
  | none => .ok ({ scopes := scope }, 0)
  | some ag =>
    match ag.liveErr a.clock with
    | some idle => .error (idleError idle)
    | none =>
      match gateMint cfg a ag
          ⟨.jwtBearer, audience, scope, decide (0 < scope.length), some ag.scope⟩ with
      | .error e => .error e
      | .ok gated => .ok (gated, ag.expiryBound)

def bearerScope (asserted : Asserted) (req : GrantRequest) (a : TokenAnswers) :
    Except TokenError (List Bytes) :=
  if asserted.isIDJAG then a.redemption else .ok req.scope

def bearerToken (req : GrantRequest) (a : TokenAnswers) : Except TokenError TokenResponse := do
  refuseIf (cfg.jwtBearer = none) .unsupportedGrantType
  let asserted ← a.assertion
  let (_, audience) ←
    orRefuse (cfg.resources.resolveResource req.resource) (.oauth .invalidResource)
  let scope ← bearerScope asserted req a
  let (gated, agentExp) ← vetAgentClient cfg s req audience scope a
  let bearerExp := tightenDuration [a.now + cfg.accessTokenTTL, agentExp]
  let (claims, access) ← issueToken a
    { iss := cfg.issuer
      sub := UlidText.string asserted.userID
      aud := audience
      exp := bearerExp.toUnix
      iat := a.now.toUnix
      jti := a.jti
      clientID := req.clientID
      scope := scopeJoin gated.scopes
      extra := { agentPolicy := agentPolicyClaim gated } }
  return ⟨claims, access, str "Bearer", seconds (bearerExp - a.now), scopeJoin gated.scopes, []⟩

def jwtBearerGrant (req : GrantRequest) (a : TokenAnswers) : Except TokenError TokenResponse :=
  match a.device with
  | some handled => handled
  | none => bearerToken cfg s req a

end

end TheAuth.Server
