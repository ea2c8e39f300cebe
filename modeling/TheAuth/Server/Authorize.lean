import Mathlib.Algebra.Group.Nat.Defs
import TheAuth.Agents.Model
import TheAuth.Library.Result
import TheAuth.Server.Refresh
import TheAuth.Server.Resource
import TheAuth.Store.Grants
import TheAuth.Store.Users

/-!
# The authorization endpoint

A request arrives inline, as a pushed request or as a signed request object, and a code is issued
for the user that the router found. Clients, pushed requests, request objects, details and consent
are answers of collaborators.
-/

set_option autoImplicit false

namespace TheAuth.Server

open Go Store Agents Library.Result

/-- A request to authorize. -/
structure AuthorizeRequest where
  clientID : Bytes
  (redirectURI responseType : Bytes := [])
  scope : List Bytes := []
  (state codeChallenge codeChallengeMethod resource nonce : Bytes := [])
  maxAge : Option Int := none
  acrValues : List Bytes := []
  (prompt authorizationDetails : Bytes := [])

structure AuthorizeQuery where
  clientID : Bytes
  (requestURI requestObject redirectURI responseType scope state codeChallenge
    codeChallengeMethod resource nonce maxAge acrValues prompt authorizationDetails : Bytes := [])

/-- A registered client. -/
structure OAuthClient where
  clientID : Bytes
  clientName : Bytes := []
  (redirectURIs grantTypes : List Bytes := [])
  scope : Bytes := []
  deriving DecidableEq

/-- How the user signed in. -/
structure AuthContext where
  authTime : Time := 0
  amr : List Bytes := []
  (acr sessionID : Bytes := [])

inductive AuthorizeError where
  | unsupportedResponseType | invalidRequest | invalidResource | invalidClient | invalidScope
  | scopeRequired
  | authorizationDetails (text : Bytes)
  | loginRequired | reauthRequired
  | consent (text : Bytes)

/-- What the consent step ends with. -/
inductive ConsentOutcome where
  | redirect (url : Bytes)
  | granted (scope : List Bytes) (expiry : Time)

/-- What the endpoint answers. -/
inductive AuthorizeResult where
  | code (redirectURI code state : Bytes)
  | consent (url : Bytes)

/-- `loopbackEquivalent`: loopback redirect URIs match on any port. `consentHandler`: the host asks
for consent. -/
structure AuthorizeConfig where
  resources : ResourceConfig
  (requirePAR requireJAR requireState dropUnknownScopes oidc : Bool := false)
  loopbackEquivalent : Option (Bytes → Bytes → Bool) := none
  acrFor : AuthContext → Bytes := AuthContext.acr
  consentHandler : Bool := false
  authorizationCodeTTL : Int

/-- What the environment answers. -/
structure AuthorizeAnswers where
  now : Time
  consumePushedRequest : Bytes → Option AuthorizeRequest := fun _ => none
  parseRequestObject : OAuthClient → Bytes → Option AuthorizeRequest := fun _ _ => none
  resolveClient : Bytes → Option OAuthClient
  parseAuthorizationDetails : OAuthClient → Bytes → Except Bytes Bytes := fun _ _ => .ok []
  consentStep : AuthorizeRequest → OAuthClient → User → List Bytes →
    Except Bytes ConsentOutcome := fun _ _ _ scope => .ok (.granted scope 0)
  newToken : Bytes

def validateScopeAgainstResource (requested : List Bytes) (resource : ProtectedResource) :
    Except AuthorizeError (List Bytes) :=
  if requested = [] then .error .scopeRequired
  else if resource.scopes = [] ∨ requested.all resource.scopes.contains then .ok requested
  else .error .invalidScope

def inScopeSet (scopes : List Bytes) (scope : Bytes) : Bool :=
  scopes.isEmpty || scopes.contains scope

def isOIDCScope (scope : Bytes) : Bool := [str "openid", str "profile", str "email"].contains scope

namespace AuthorizeConfig

variable (cfg : AuthorizeConfig)

def narrowResourceScopes (requested : List Bytes) (resource : ProtectedResource)
    (client : OAuthClient) : Except AuthorizeError (List Bytes) :=
  if !cfg.dropUnknownScopes ∨ requested = [] then validateScopeAgainstResource requested resource
  else
    let out := requested.filter fun scope =>
      inScopeSet resource.scopes scope && inScopeSet (fields client.scope) scope
    if out = [] then .error .invalidScope else .ok out

def narrowScopes (requested : List Bytes) (resource : ProtectedResource) (client : OAuthClient) :
    Except AuthorizeError (List Bytes) :=
  let std := requested.filter isOIDCScope
  let rest := requested.filter fun scope => !isOIDCScope scope
  if cfg.oidc ∧ std ≠ [] then
    if rest = [] then .ok std
    else (std ++ ·) <$> cfg.narrowResourceScopes rest resource client
  else cfg.narrowResourceScopes requested resource client

def redirectURIRegistered (registered : List Bytes) (uri : Bytes) : Bool :=
  uri ≠ [] && (registered.contains uri ||
    cfg.loopbackEquivalent.any fun equivalent => registered.any fun r => equivalent r uri)

def secondsDuration (n : Int) : Int := (n * 1000000000).bmod (2 ^ 64)

def reauthNeeded (req : AuthorizeRequest) (ac : Option AuthContext) (now : Time) : Bool :=
  (req.maxAge.any fun maxAge =>
    ac.all fun ac =>
      ac.authTime.isZero || maxAge ≤ 0 || secondsDuration maxAge < now - ac.authTime) ||
  (req.acrValues ≠ [] &&
    ac.all fun ac => !(cfg.acrFor ac ≠ [] && req.acrValues.contains (cfg.acrFor ac)))

end AuthorizeConfig

section

variable (cfg : AuthorizeConfig) (a : AuthorizeAnswers)

def AuthorizeQuery.hasInlineAuthorizeParams (q : AuthorizeQuery) : Bool :=
  [q.responseType, q.redirectURI, q.scope, q.state, q.codeChallenge, q.codeChallengeMethod,
    q.resource, q.nonce, q.authorizationDetails, q.maxAge, q.acrValues, q.prompt].any (· ≠ [])

def parseMaxAge [StdLib] (raw : Bytes) : Except AuthorizeError (Option Int) :=
  if raw = [] then .ok none
  else match StdLib.parseInt raw with
  | none => .error .invalidRequest
  | some n => if n < 0 then .error .invalidRequest else .ok (some n)

def resolveRequest [StdLib] (q : AuthorizeQuery) : Except AuthorizeError AuthorizeRequest :=
  if q.requestURI ≠ [] ∧ q.requestObject ≠ [] then .error .invalidRequest
  else if q.requestURI ≠ [] then do
    refuseIf (q.hasInlineAuthorizeParams = true) .invalidRequest
    let req ← orRefuse (a.consumePushedRequest q.requestURI) .invalidRequest
    refuseIf (q.clientID ≠ [] ∧ req.clientID ≠ q.clientID) .invalidRequest
    return req
  else if q.requestObject ≠ [] then do
    let client ← orRefuse (a.resolveClient q.clientID) .invalidClient
    let req ← orRefuse (a.parseRequestObject client q.requestObject) .invalidRequest
    return if req.clientID = [] then { req with clientID := q.clientID } else req
  else do
    refuseIf (cfg.requirePAR = true ∨ cfg.requireJAR = true) .invalidRequest
    let maxAge ← parseMaxAge q.maxAge
    return {
      clientID := q.clientID
      redirectURI := q.redirectURI
      responseType := q.responseType
      scope := scopeSplit q.scope
      state := q.state
      codeChallenge := q.codeChallenge
      codeChallengeMethod := q.codeChallengeMethod
      resource := q.resource
      nonce := q.nonce
      maxAge
      acrValues := fields q.acrValues
      prompt := q.prompt
      authorizationDetails := q.authorizationDetails }

/-- A request that passed the checks. -/
structure Checked where
  client : OAuthClient
  scope : List Bytes
  (audience details : Bytes)

def checkAuthorize [UrlLib] (req : AuthorizeRequest) : Except AuthorizeError Checked := do
  refuseIf (req.responseType ≠ str "code") .unsupportedResponseType
  refuseIf (req.clientID = []) .invalidRequest
  refuseIf (req.codeChallenge = [] ∨ req.codeChallengeMethod ≠ str "S256") .invalidRequest
  refuseIf (cfg.requireState = true ∧ req.state = []) .invalidRequest
  let (resource, audience) ← orRefuse (cfg.resources.resolveResource req.resource) .invalidResource
  let client ← orRefuse (a.resolveClient req.clientID) .invalidClient
  refuseIf (cfg.redirectURIRegistered client.redirectURIs req.redirectURI = false) .invalidRequest
  let scope ← cfg.narrowScopes req.scope resource client
  let details ← (a.parseAuthorizationDetails client req.authorizationDetails).mapError
    .authorizationDetails
  return ⟨client, scope, audience, details⟩

def codeStorageKey (code : Bytes) : Bytes := bytesHexKey (hashToken code)

def authorizationCode (req : AuthorizeRequest) (checked : Checked) (user : User)
    (ac : AuthContext) (scope : List Bytes) (expiry : Time) : AuthorizationCode where
  code := codeStorageKey (withGrantExpiry a.newToken expiry)
  clientID := checked.client.clientID
  userID := user.id
  redirectURI := req.redirectURI
  scope
  resource := checked.audience
  codeChallenge := req.codeChallenge
  codeChallengeMethod := req.codeChallengeMethod
  nonce := req.nonce
  authorizationDetails := checked.details
  authTime := ac.authTime
  acr := cfg.acrFor ac
  amr := ac.amr
  expiresAt := a.now + cfg.authorizationCodeTTL
  createdAt := a.now

def issueCode (s : GrantStore) (req : AuthorizeRequest) (checked : Checked) (user : User)
    (ac : AuthContext) : Except AuthorizeError AuthorizeResult × GrantStore :=
  match if cfg.consentHandler then a.consentStep req checked.client user checked.scope
      else .ok (.granted checked.scope 0) with
  | .error text => (.error (.consent text), s)
  | .ok (.redirect url) => (.ok (.consent url), s)
  | .ok (.granted scope expiry) =>
    (.ok (.code req.redirectURI (withGrantExpiry a.newToken expiry) req.state),
      s.insertAuthorizationCode (authorizationCode cfg a req checked user ac scope expiry) a.now)

def startAuthorize [UrlLib] (s : GrantStore) (req : AuthorizeRequest)
    (user : Option (User × Option AuthContext)) :
    Except AuthorizeError AuthorizeResult × GrantStore :=
  match checkAuthorize cfg a req with
  | .error e => (.error e, s)
  | .ok checked =>
    match user with
    | none => (.error .loginRequired, s)
    | some (user, ac) =>
      if cfg.reauthNeeded req ac a.now then (.error .reauthRequired, s)
      else issueCode cfg a s req checked user (ac.getD {})

def handleAuthorize [StdLib] [UrlLib] (s : GrantStore) (q : AuthorizeQuery)
    (user : Option (User × Option AuthContext)) :
    Except AuthorizeError AuthorizeResult × GrantStore :=
  match resolveRequest cfg a q with
  | .error e => (.error e, s)
  | .ok req => startAuthorize cfg a s req user

variable {s : GrantStore} {userID : ULID}

theorem issueCode_nothingFor {req : AuthorizeRequest} {checked : Checked}
    {user : User} {ac : AuthContext} (other : user.id ≠ userID) :
    NothingFor userID s (issueCode cfg a s req checked user ac).2 := by
  unfold issueCode
  split
  · exact .refl _ _
  · exact .refl _ _
  · exact .insertAuthorizationCode other

theorem handleAuthorize_nothingFor [StdLib] [UrlLib] {q : AuthorizeQuery}
    {user : Option (User × Option AuthContext)} (other : ∀ found ∈ user, found.1.id ≠ userID) :
    NothingFor userID s (handleAuthorize cfg a s q user).2 := by
  unfold handleAuthorize
  split
  · exact .refl _ _
  unfold startAuthorize
  iterate 3
    split
    · exact .refl _ _
  · exact issueCode_nothingFor cfg a (other _ rfl)

end

/-- A request to redeem a code. -/
structure CodeRequest where
  (code codeVerifier redirectURI : Bytes)
  authorizationDetails : Bytes := []

/-- What a code is redeemed for. -/
structure CodeGrant where
  clientID : Bytes
  userID : ULID
  scope : List Bytes
  (resource dpopJKT authorizationDetails authCodeHash : Bytes)
  (grantExpiry authTime : Time)
  acr : Bytes
  amr : List Bytes
  nonce : Bytes
  deriving DecidableEq

structure ExchangeAnswers where
  now : Time
  client : Except OAuthError OAuthClient
  narrowDetails : OAuthClient → Bytes → Bytes → Except OAuthError Bytes :=
    fun _ _ granted => .ok granted
  jkt : Except OAuthError Bytes := .ok []

def codeChallenge (verifier : Bytes) : Bytes := base64RawURL (sum256 verifier)

section

variable [StdLib] [UrlLib] (cfg : AuthorizeConfig) (a : ExchangeAnswers)

def AuthorizeConfig.sameRedirectURI (cfg : AuthorizeConfig) (uri stored : Bytes) : Bool :=
  uri ≠ [] && (uri == stored || cfg.loopbackEquivalent.any fun equivalent => equivalent uri stored)

def redeemCode (client : OAuthClient) (req : CodeRequest) (row : AuthorizationCode) :
    Except OAuthError CodeGrant := do
  refuseIf (row.clientID ≠ client.clientID) .invalidGrant
  refuseIf (row.expiresAt ≤ a.now) .invalidGrant
  refuseIf (cfg.sameRedirectURI req.redirectURI row.redirectURI = false) .redirectURIMismatch
  refuseIf (row.codeChallengeMethod ≠ str "S256") .invalidGrant
  refuseIf (codeChallenge req.codeVerifier ≠ row.codeChallenge) .pkceMismatch
  let (_, audience) ← orRefuse (cfg.resources.resolveResource row.resource) .invalidResource
  let details ← a.narrowDetails client req.authorizationDetails row.authorizationDetails
  let jkt ← a.jkt
  return {
    clientID := client.clientID
    userID := row.userID
    scope := row.scope
    resource := audience
    dpopJKT := jkt
    authorizationDetails := details
    authCodeHash := codeStorageKey req.code
    grantExpiry := splitGrantExpiry req.code
    authTime := row.authTime
    acr := row.acr
    amr := row.amr
    nonce := row.nonce }

/-- The grant that a code is redeemed for. -/
structure Redeemed (client : OAuthClient) (req : CodeRequest) (row : AuthorizationCode)
    (g : CodeGrant) : Prop where
  owner : row.clientID = client.clientID
  live : a.now < row.expiresAt
  proof : codeChallenge req.codeVerifier = row.codeChallenge
  clientID : g.clientID = client.clientID
  userID : g.userID = row.userID
  scope : g.scope = row.scope
  resource : ∃ resource, cfg.resources.resolveResource row.resource = some (resource, g.resource)
  dpopJKT : a.jkt = .ok g.dpopJKT
  details : a.narrowDetails client req.authorizationDetails row.authorizationDetails =
    .ok g.authorizationDetails
  authCodeHash : g.authCodeHash = codeStorageKey req.code
  grantExpiry : g.grantExpiry = splitGrantExpiry req.code
  authTime : g.authTime = row.authTime
  acr : g.acr = row.acr
  amr : g.amr = row.amr

theorem redeemed_of_redeemCode {client : OAuthClient} {req : CodeRequest} {row : AuthorizationCode}
    {g : CodeGrant} (done : redeemCode cfg a client req row = .ok g) :
    Redeemed cfg a client req row g := by
  obtain ⟨owner, done⟩ := of_refuseIf done
  obtain ⟨live, done⟩ := of_refuseIf done
  obtain ⟨-, done⟩ := of_refuseIf done
  obtain ⟨-, done⟩ := of_refuseIf done
  obtain ⟨proof, done⟩ := of_refuseIf done
  obtain ⟨⟨resource, _⟩, resolved, done⟩ := of_bind done
  obtain ⟨_, narrowed, done⟩ := of_bind done
  obtain ⟨_, proved, done⟩ := of_bind done
  cases done
  exact ⟨not_not.mp owner, Int.not_le.mp live, not_not.mp proof, rfl, rfl, rfl,
    ⟨resource, orRefuse_eq_ok.mp resolved⟩, proved, narrowed, rfl, rfl, rfl, rfl, rfl⟩

def exchangeAuthorizationCode (s : GrantStore) (req : CodeRequest) :
    Except OAuthError CodeGrant × GrantStore :=
  match a.client with
  | .error e => (.error e, s)
  | .ok client =>
    if req.code = [] ∨ req.codeVerifier = [] then (.error .invalidRequest, s)
    else match s.consumeAuthorizationCode (codeStorageKey req.code) with
    | none => (.error .invalidGrant, s)
    | some (row, next) => (redeemCode cfg a client req row, next)

theorem exchangeAuthorizationCode_nothingFor {s : GrantStore} {userID : ULID}
    {req : CodeRequest} : NothingFor userID s (exchangeAuthorizationCode cfg a s req).2 := by
  unfold exchangeAuthorizationCode
  iterate 3
    split
    · exact .refl _ _
  next consumed => exact .consumeAuthorizationCode consumed

end

end TheAuth.Server
