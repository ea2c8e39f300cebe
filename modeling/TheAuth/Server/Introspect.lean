import Mathlib.Algebra.Order.Group.Int
import TheAuth.Go.Json
import TheAuth.Library.TimedCache
import TheAuth.Server.AccessTokens

/-!
# Token introspection

The answers are kept for a while. One from the cache is checked again for what may be revoked: the
token's identifier, the device, the actor chain with the delegation grant, and the subject. Chains
and subjects have caches of their own.
-/

set_option autoImplicit false

namespace TheAuth.Server

open Go Store Agents Library

/-- The nil actor is the empty chain; `cnf` is its `jkt`. -/
structure IntrospectionResponse where
  active : Bool
  (scope clientID tokenType : Bytes := [])
  (exp iat : Int := 0)
  (sub aud iss jti : Bytes := [])
  act : ActorChain := []
  (delegationGrantID cnf authorizationDetails : Bytes := [])
  authTime : Int := 0
  acr : Bytes := []
  amr : List Bytes := []
  deviceID : Bytes := []
  deriving DecidableEq

def inactive : IntrospectionResponse := { active := false }

/-- An answer that is read back as active was written as active. -/
class ResponseText where
  marshal : IntrospectionResponse → Bytes
  unmarshal : Bytes → IntrospectionResponse
  active_of_unmarshal : ∀ resp, (unmarshal (marshal resp)).active = true → resp.active = true

inductive AccountAnswer where
  | notFound | failed
  | found (disabledAt : Option Time)

/-- What introspection reads. -/
structure Records [JwtLib] where
  verificationKey : Bytes → Option (Bytes × JwtLib.Key)
  isAccessTokenDenied : Bytes → Option Bool
  opaqueAccessTokenByHash : Bytes → Option OpaqueToken
  refreshTokenByHash : Bytes → Option RefreshToken
  deviceActive : Bytes → Bool
  delegationGrantByID : ULID → Option DelegationGrant
  lookupAgent : Bytes → Option Agent
  accountStateByUserID : Option (ULID → AccountAnswer)

/-- `Validate` leaves no lifetime of answers that is not positive. -/
structure IntrospectConfig where
  issuer : Bytes
  clockSkew : Int := 0
  introspectionCacheTTL : Int := 60 * 1000000000
  subjectActiveCacheTTL : Int := 1000000000
  accessTokenRevocation : Bool := false
  ttl_pos : 0 < introspectionCacheTTL := by decide

structure ChainCacheEntry where
  active : Bool
  (checkedAt expiresAt : Time)

/-- The two caches. -/
structure Caches where
  introspect : TimedCache Bytes Bytes Time
  chain : GoMap Bytes ChainCacheEntry
  subject : GoMap Bytes Time

def chainCacheTTL : Int := 5 * 1000000000

section

variable [JwtLib] [UlidText] (cfg : IntrospectConfig) (r : Records) (now : Time)

def accessJTIRevoked (jti : Bytes) : Bool :=
  if cfg.accessTokenRevocation = false ∨ jti = [] then false
  else (r.isAccessTokenDenied jti).getD true

def agentLive (agent : Option Agent) : Bool :=
  match agent with
  | none => false
  | some ag => (ag.liveErr now).isNone

def subjectActiveLookup (sub : Bytes) : Bool :=
  if agentSubjectPrefix.isPrefixOf sub then agentLive now (r.lookupAgent sub)
  else match r.accountStateByUserID, UlidText.parse sub with
  | some account, some uid =>
    if sub = [] then true
    else match account uid with
    | .notFound => true
    | .failed => false
    | .found disabledAt => disabledAt.isNone
  | _, _ => true

def subjectActive (sub : Bytes) (caches : Caches) : Bool × Caches :=
  if cfg.subjectActiveCacheTTL ≤ 0 ∨ sub = [] then (subjectActiveLookup r now sub, caches)
  else match caches.subject.lookup sub with
  | some at_ =>
    if now - at_ < cfg.subjectActiveCacheTTL then (true, caches)
    else
      let dropped := { caches with subject := caches.subject.erase sub }
      if subjectActiveLookup r now sub then
        (true, { dropped with subject := dropped.subject.insert sub now })
      else (false, dropped)
  | none =>
    if subjectActiveLookup r now sub then
      (true, { caches with subject := caches.subject.insert sub now })
    else (false, caches)

def walkChain : ActorChain → Time → Bool × Time
  | [], earliest => (true, earliest)
  | sub :: rest, earliest =>
    match r.lookupAgent sub with
    | none => (false, earliest)
    | some ag =>
      if (ag.liveErr now).isSome then (false, earliest)
      else walkChain rest (tightenDuration [earliest, ag.expiryBound])

def grantActive (grantID : Bytes) : Bool :=
  match (UlidText.parse grantID).bind r.delegationGrantByID with
  | none => false
  | some g => g.active now

variable (resp : IntrospectionResponse)

def chainStillActive (caches : Caches) : Bool × Caches :=
  if resp.delegationGrantID ≠ [] then
    if grantActive r now resp.delegationGrantID = false then (false, caches)
    else ((walkChain r now resp.act 0).1, caches)
  else match resp.act with
  | [] => (true, caches)
  | [] :: _ => ((walkChain r now resp.act 0).1, caches)
  | cacheKey :: _ =>
    let walk (caches : Caches) : Bool × Caches :=
      let (active, earliest) := walkChain r now resp.act 0
      (active, { caches with chain := caches.chain.insert cacheKey ⟨active, now, earliest⟩ })
    match caches.chain.lookup cacheKey with
    | none => walk caches
    | some entry =>
      if now - entry.checkedAt < chainCacheTTL ∧ (entry.expiresAt = 0 ∨ now < entry.expiresAt)
      then (entry.active, caches)
      else walk { caches with chain := caches.chain.erase cacheKey }

def stillActive (caches : Caches) : Bool × Caches :=
  if accessJTIRevoked cfg r resp.jti then (false, caches)
  else if resp.deviceID ≠ [] ∧ r.deviceActive resp.deviceID = false then (false, caches)
  else if resp.act ≠ [] ∨ resp.delegationGrantID ≠ [] then
    match chainStillActive r now resp caches with
    | (false, caches) => (false, caches)
    | (true, caches) => subjectActive cfg r now resp.sub caches
  else subjectActive cfg r now resp.sub caches

def claimsResponse (c : AccessClaims) : IntrospectionResponse where
  active := true
  scope := c.scope
  clientID := c.clientID
  tokenType := if c.extra.cnfJKT = [] then str "Bearer" else str "DPoP"
  exp := c.exp
  iat := c.iat
  sub := c.sub
  aud := c.aud
  iss := c.iss
  jti := c.jti
  act := actorFromClaims c.toClaims
  delegationGrantID := c.extra.delegationGrantID
  cnf := c.extra.cnfJKT
  authorizationDetails := c.authorizationDetails
  authTime := c.authTime
  acr := c.acr
  amr := c.amr
  deviceID := c.deviceID

def introspectClaims (c : AccessClaims) (caches : Caches) : IntrospectionResponse × Caches :=
  if c.aud = [] then (inactive, caches)
  else match stillActive cfg r now (claimsResponse c) caches with
  | (false, caches) => (inactive, caches)
  | (true, caches) => (claimsResponse c, caches)

variable (token expectedAud : Bytes)

def verifyAccessJWT : Except JwtError AccessClaims :=
  verifyWith r.verificationKey
    { expectedTyp := typeAccessToken, expectedAud, skew := cfg.clockSkew } now token

variable (caches : Caches)

def introspectJWT : IntrospectionResponse × Caches :=
  match verifyAccessJWT cfg r now token expectedAud with
  | .error _ => (inactive, caches)
  | .ok claims => introspectClaims cfg r now claims caches

def opaqueClaims (token : Bytes) : Option AccessClaims :=
  lookupOpaqueClaims (r.opaqueAccessTokenByHash (hashToken token)) cfg.clockSkew now

def introspectOpaque :
    Option (IntrospectionResponse × Caches) :=
  (opaqueClaims cfg r now token).map fun claims =>
    if expectedAud ≠ [] ∧ claims.aud ≠ expectedAud then (inactive, caches)
    else introspectClaims cfg r now claims caches

def introspectRefreshToken (token : Bytes) : IntrospectionResponse :=
  match r.refreshTokenByHash (hashToken token) with
  | none => inactive
  | some rt =>
    if rt.revokedAt.isSome ∨ rt.expiresAt ≤ now then inactive
    else
      { active := true
        scope := scopeJoin rt.scope
        clientID := rt.clientID
        tokenType := str "refresh_token"
        exp := rt.expiresAt.toUnix
        iat := rt.issuedAt.toUnix
        sub := rt.userID.elim [] UlidText.string
        aud := rt.resource
        iss := cfg.issuer }

def introspectUncached :
    IntrospectionResponse × Caches :=
  if token.count 0x2E = 2 then introspectJWT cfg r now token expectedAud caches
  else match introspectOpaque cfg r now token expectedAud caches with
  | some answer => answer
  | none => (introspectRefreshToken cfg r now token, caches)

def introspectCacheKey (token aud : Bytes) : Bytes := hexEncode (hashToken token) ++ [0] ++ aud

def introspectCacheGet (token aud : Bytes) (caches : Caches) : Option Bytes × Caches :=
  let (body, kept) := caches.introspect.get now (introspectCacheKey token aud)
  (body, { caches with introspect := kept })

def introspectCacheSet (token aud body : Bytes) (caches : Caches) : Caches :=
  { caches with
    introspect := caches.introspect.set now cfg.introspectionCacheTTL
      (introspectCacheKey token aud) body }

def purgeIntrospectCache : Caches := { caches with introspect := ∅ }

def recheckCached [ResponseText] (cached : Bytes) (caches : Caches) :
    IntrospectionResponse × Bytes × Caches :=
  let resp := ResponseText.unmarshal cached
  if resp.active = false then (resp, cached, caches)
  else match stillActive cfg r now resp caches with
  | (false, caches) => (inactive, ResponseText.marshal inactive, caches)
  | (true, caches) => (resp, cached, caches)

/-- A call of introspection. -/
structure IntrospectCall where
  client : Except OAuthError Unit
  (token expectedAud : Bytes)

def introspectToken [ResponseText] (call : IntrospectCall) (caches : Caches) :
    Except OAuthError (IntrospectionResponse × Bytes) × Caches :=
  match call.client with
  | .error e => (.error e, caches)
  | .ok _ =>
    if call.token = [] then (.ok (inactive, ResponseText.marshal inactive), caches)
    else match introspectCacheGet now call.token call.expectedAud caches with
    | (some cached, caches) =>
      let (resp, body, caches) := recheckCached cfg r now cached caches
      (.ok (resp, body), caches)
    | (none, caches) =>
      let (resp, caches) := introspectUncached cfg r now call.token call.expectedAud caches
      let body := ResponseText.marshal resp
      (.ok (resp, body), introspectCacheSet cfg now call.token call.expectedAud body caches)

end

end TheAuth.Server
