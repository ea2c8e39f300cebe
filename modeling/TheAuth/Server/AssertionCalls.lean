import Mathlib.Algebra.Order.Group.Int
import TheAuth.Go.Clock
import TheAuth.Library.ReplayGuard
import TheAuth.Server.Assertions

/-!
# Requests with assertions

The identifier of an assertion is recorded in a cache of the process. The entry points are guards
over that cache. The assertions of clients and issuers are recorded before their signatures are
checked, that of a device after that.
-/

set_option autoImplicit false

namespace TheAuth.Server

open Go Store Agents Library.Result Library.ReplayGuard

structure GenericJWTHeader where
  alg : Bytes
  (typ kid : Bytes := [])

structure GenericJWTClaims where
  (iss sub aud : Bytes)
  (exp iat : Int64)
  nbf : Int64 := 0
  jti : Bytes

/-- A parsed assertion. -/
structure GenericJWT where
  header : GenericJWTHeader
  claims : GenericJWTClaims
  (signingInput sig : Bytes)

structure JwksEntry where
  kid : Bytes := []
  (alg key : Bytes)

class AssertionLib where
  parseGenericJWT : Bytes → Option GenericJWT
  verifySig : Bytes → Bytes → Bytes → Bytes → Bool

def verifyWithJWKS [AssertionLib] (keys : List JwksEntry) (token : GenericJWT) : Bool :=
  keys.any fun k =>
    (token.header.kid == [] || k.kid == [] || k.kid == token.header.kid) &&
      AssertionLib.verifySig token.header.alg k.key token.signingInput token.sig

structure TrustedJWTIssuer where
  issuer : Bytes
  allowedAlgorithms : List Bytes := []
  subjectMapper : Option (GenericJWT → Option ULID) := none
  requiredClaims : GenericJWT → Bool := fun _ => true
  audience : Bytes := []

structure JWTBearerConfig where
  trustedJWTIssuers : List TrustedJWTIssuer := []
  (clientAssertionMaxAge assertionMaxAge replayCacheTTL : Duration := 0)
  maxActorChainDepth : Int := 0

structure DeviceTokensConfig where
  (accessTokenTTL assertionMaxLifetime : Duration := 0)

/-- The configuration of assertions. -/
structure AssertionConfig where
  tokens : TokenConfig
  clockSkew : Duration := 0
  jwtBearer : Option JWTBearerConfig := none
  deviceTokens : Option DeviceTokensConfig := none

def orSeconds (d : Duration) (default : Int64) : Duration :=
  if d ≤ 0 then default * Duration.second else d

def TrustedJWTIssuer.withDefaults (issuer : TrustedJWTIssuer) : TrustedJWTIssuer :=
  if issuer.allowedAlgorithms.length = 0 then
    { issuer with allowedAlgorithms := [str "ES256", str "RS256", str "EdDSA"] }
  else issuer

def JWTBearerConfig.withDefaults (c : JWTBearerConfig) : JWTBearerConfig where
  trustedJWTIssuers := c.trustedJWTIssuers.map (·.withDefaults)
  clientAssertionMaxAge := orSeconds c.clientAssertionMaxAge 60
  assertionMaxAge := orSeconds c.assertionMaxAge 300
  replayCacheTTL := orSeconds c.replayCacheTTL 600
  maxActorChainDepth := if c.maxActorChainDepth ≤ 0 then 5 else c.maxActorChainDepth

def DeviceTokensConfig.withDefaults (c : DeviceTokensConfig) : DeviceTokensConfig where
  accessTokenTTL := orSeconds c.accessTokenTTL 600
  assertionMaxLifetime := orSeconds c.assertionMaxLifetime 300

/-- As far as it sets these values. -/
def AssertionConfig.validate (cfg : AssertionConfig) : AssertionConfig where
  tokens := cfg.tokens
  clockSkew := if cfg.clockSkew < 0 then 0 else cfg.clockSkew
  jwtBearer := cfg.jwtBearer.map (·.withDefaults)
  deviceTokens := cfg.deviceTokens.map (·.withDefaults)

def AssertionConfig.jtiReplayTTL (cfg : AssertionConfig) : Duration :=
  match cfg.jwtBearer with
  | some bearer =>
    if 0 < bearer.replayCacheTTL then bearer.replayCacheTTL else 600 * Duration.second
  | none => 600 * Duration.second

def AssertionConfig.tokenEndpointURL (cfg : AssertionConfig) : Bytes :=
  cfg.tokens.issuer ++ str "/oauth/token"

def AssertionConfig.minting (cfg : AssertionConfig) : TokenConfig :=
  { cfg.tokens with jwtBearer := cfg.jwtBearer.map (·.maxActorChainDepth) }

def unexpired (cache : GoMap Bytes Time) (now : Time) : GoMap Bytes Time :=
  cache.keepWhere fun exp => !decide (exp < now)

/-! ## The cache -/

def jtiReplayCheck (cache : GoMap Bytes Time) (p : Presentation Bytes Time) :
    Bool × GoMap Bytes Time :=
  match (unexpired cache p.now).lookup p.key with
  | some _ => (false, unexpired cache p.now)
  | none => (true, AList.insert p.key p.deadline (unexpired cache p.now))

variable {cache : GoMap Bytes Time} {p : Presentation Bytes Time}

theorem lookup_unexpired {now exp : Time} {key : Bytes} :
    (unexpired cache now).lookup key = some exp ↔ cache.lookup key = some exp ∧ ¬exp < now := by
  rw [unexpired, GoMap.lookup_keepWhere, Bool.not_eq_true', decide_eq_false_iff_not]

theorem jtiReplayCheck_of_seen {exp : Time}
    (seen : cache.lookup p.key = some exp) (live : ¬exp < p.now) :
    jtiReplayCheck cache p = (false, unexpired cache p.now) := by
  unfold jtiReplayCheck
  rw [lookup_unexpired.mpr ⟨seen, live⟩]

theorem jtiReplayCheck_of_new (new : ∀ exp, cache.lookup p.key = some exp → exp < p.now) :
    jtiReplayCheck cache p = (true, AList.insert p.key p.deadline (unexpired cache p.now)) := by
  unfold jtiReplayCheck
  cases here : (unexpired cache p.now).lookup p.key with
  | none => rfl
  | some exp =>
    obtain ⟨seen, live⟩ := lookup_unexpired.mp here
    exact absurd (new exp seen) live

theorem jtiReplayCheck_cases (cache : GoMap Bytes Time) (p : Presentation Bytes Time) :
    (∃ exp, cache.lookup p.key = some exp ∧ ¬exp < p.now) ∨
      ∀ exp, cache.lookup p.key = some exp → exp < p.now := by
  by_cases held : ∃ exp, cache.lookup p.key = some exp ∧ ¬exp < p.now
  · exact .inl held
  · refine .inr fun exp seen => ?_
    by_contra live
    exact held ⟨exp, seen, live⟩

theorem jtiReplayCheck_iff :
    (jtiReplayCheck cache p).1 = true ↔ ∀ exp, cache.lookup p.key = some exp → exp < p.now := by
  rcases jtiReplayCheck_cases cache p with ⟨exp, seen, live⟩ | new
  · rw [jtiReplayCheck_of_seen seen live]
    exact ⟨(nomatch ·), fun new => absurd (new exp seen) live⟩
  · rw [jtiReplayCheck_of_new new]
    exact ⟨fun _ => new, fun _ => rfl⟩

theorem lookup_jtiReplayCheck {key : Bytes} {exp : Time} :
    (jtiReplayCheck cache p).2.lookup key = some exp ↔
      if (jtiReplayCheck cache p).1 = true ∧ key = p.key then p.deadline = exp
      else cache.lookup key = some exp ∧ ¬exp < p.now := by
  rcases jtiReplayCheck_cases cache p with ⟨_, seen, live⟩ | new
  · rw [jtiReplayCheck_of_seen seen live]
    exact lookup_unexpired
  · rw [jtiReplayCheck_of_new new, GoMap.lookup_insert_eq]
    by_cases same : key = p.key
    · rw [if_pos same, if_pos ⟨rfl, same⟩, Option.some.injEq]
    · rw [if_neg same, if_neg (fun admitted => same admitted.2)]
      exact lookup_unexpired

def jtiCache : Memory Bytes Time (GoMap Bytes Time) where
  past exp now := exp < now
  past_of_le later past := Int.lt_of_lt_of_le past later
  seen cache key := cache.lookup key
  size _ := 0
  fits _ := True
  fits_of_le _ _ := trivial
  offer := jtiReplayCheck
  offer_iff := jtiReplayCheck_iff
  seen_admitted admitted := by
    rw [lookup_jtiReplayCheck, if_pos ⟨admitted, rfl⟩]
  keeps := by
    intro cache p key exp _ seen live
    rw [lookup_jtiReplayCheck, if_neg]
    · exact ⟨seen, live⟩
    · rintro ⟨admitted, rfl⟩
      exact live (jtiReplayCheck_iff.mp admitted exp seen)
  seen_of := by
    intro cache p key exp seen
    rw [lookup_jtiReplayCheck] at seen
    split at seen
    next admitted => exact .inl admitted
    · exact .inr seen.1
  size_offer := Nat.zero_le _

/-! ## Calls -/

inductive AssertionAuthMethod where
  | privateKeyJWT | clientSecretJWT | other

structure AssertionClient where
  clientID : Bytes
  tokenEndpointAuthMethod : AssertionAuthMethod
  jwks : Option (List JwksEntry) := none

structure ClientCall where
  (clientID assertion tokenEndpointURL : Bytes)
  client : Option AssertionClient
  (now cacheNow : Time)

structure DeviceRecord where
  subject : Bytes
  scopes : List Bytes
  active : Bool
  key : Option JwksEntry

structure BearerCall where
  req : GrantRequest
  assertion : Bytes
  state : AgentState
  answers : TokenAnswers
  holdsDevices : Bool := false
  deviceByID : ULID → Except TokenError (Option DeviceRecord) := fun _ => .ok none
  deviceLimit : Except TokenError Unit := .ok ()
  issuerJWKS : Option (List JwksEntry) := none
  cacheNow : Time

/-- A call with an assertion. -/
inductive AssertionRequest where
  | client (call : ClientCall)
  | bearer (call : BearerCall)

inductive AssertionResult where
  | client (client : AssertionClient)
  | token (resp : TokenResponse)

/-- What an assertion is used for. -/
inductive AssertionUse where
  | client | device | issuer

section

variable [UlidText]

def replayKey (claims : GenericJWTClaims) : AssertionUse → Bytes
  | .client => str "client:" ++ claims.jti
  | .device =>
    str "device:" ++ ((UlidText.parse claims.iss).map UlidText.string).getD [] ++ str ":" ++
      claims.jti
  | .issuer =>
    str "grant:" ++
      if claims.jti = [] then
        claims.iss ++ str "|" ++ claims.sub ++ str "|" ++ str (toString claims.iat.toInt)
      else claims.jti

variable [AssertionLib] (cfg : AssertionConfig)

def BearerCall.device (call : BearerCall) :
    Except TokenError (Option (EnrolledDevice × DeviceRecord × DeviceTokensConfig × GenericJWT)) :=
  match cfg.deviceTokens, AssertionLib.parseGenericJWT call.assertion with
  | some devices, some token =>
    if call.holdsDevices = false ∨ token.claims.iss = [] ∨ token.claims.iss ≠ token.claims.sub then
      .ok none
    else match UlidText.parse token.claims.iss with
    | none => .ok none
    | some id => do
      let found ← call.deviceByID id
      return found.map fun dev => (⟨id, dev.subject, dev.scopes⟩, dev, devices, token)
  | _, _ => .ok none

def allowedClientAssertionAlgs : List Bytes :=
  [str "ES256", str "ES384", str "RS256", str "PS256", str "EdDSA"]

/-- `AuthenticateClientJWT`, up to the cache. -/
def ClientCall.present (call : ClientCall) :
    Except TokenError (Presentation Bytes Time) := do
  let bearer ← orRefuse cfg.jwtBearer (.oauth .invalidClient)
  let token ← orRefuse (AssertionLib.parseGenericJWT call.assertion) (.oauth .invalidClient)
  let _ ← orRefuse call.client (.oauth .invalidClient)
  let claims := token.claims
  refuseIf (claims.iss ≠ call.clientID) (.oauth .invalidClient)
  refuseIf (claims.sub ≠ call.clientID) (.oauth .invalidClient)
  refuseIf (claims.aud ≠ call.tokenEndpointURL) (.oauth .invalidClient)
  refuseIf (claims.exp = 0 ∨ (Time.ofUnix claims.exp).add cfg.clockSkew < call.now)
    (.oauth .invalidClient)
  refuseIf (claims.iat = 0 ∨
      bearer.clientAssertionMaxAge + cfg.clockSkew < call.now.sub (Time.ofUnix claims.iat))
    (.oauth .invalidClient)
  refuseIf (claims.jti = []) (.oauth .invalidClient)
  return ⟨call.cacheNow, replayKey claims .client,
    (Time.ofUnix claims.exp).add bearer.replayCacheTTL⟩

/-- `AuthenticateClientJWT`, past the cache. -/
def ClientCall.finish (call : ClientCall) : Except TokenError AssertionResult := do
  let token ← orRefuse (AssertionLib.parseGenericJWT call.assertion) (.oauth .invalidClient)
  let client ← orRefuse call.client (.oauth .invalidClient)
  match client.tokenEndpointAuthMethod with
  | .privateKeyJWT =>
    refuseIf (token.header.alg ∉ allowedClientAssertionAlgs) (.oauth .invalidClient)
    let keys ← orRefuse client.jwks (.oauth .invalidClient)
    refuseIf (verifyWithJWKS keys token = false) (.oauth .invalidClient)
    return .client client
  | .clientSecretJWT =>
    refuseIf (token.header.alg ≠ str "HS256") (.oauth .invalidClient)
    .error (.oauth .invalidClient)
  | .other => .error (.oauth .invalidClient)

def verifyDeviceAssertion (dev : DeviceRecord) (devices : DeviceTokensConfig)
    (token : GenericJWT) (now : Time) : Except TokenError Unit := do
  refuseIf (dev.active = false) (.oauth .invalidGrant)
  let claims := token.claims
  refuseIf (claims.aud ≠ cfg.tokenEndpointURL ∨ claims.exp = 0 ∨ claims.iat = 0 ∨ claims.jti = [])
    (.oauth .invalidGrant)
  let exp := Time.ofUnix claims.exp
  let iat := Time.ofUnix claims.iat
  refuseIf (exp.add cfg.clockSkew < now ∨ now < iat.add (-cfg.clockSkew) ∨
      devices.assertionMaxLifetime < exp.sub iat) (.oauth .invalidGrant)
  refuseIf (claims.nbf ≠ 0 ∧ now < (Time.ofUnix claims.nbf).add (-cfg.clockSkew))
    (.oauth .invalidGrant)
  let key ← orRefuse dev.key (.oauth .invalidGrant)
  refuseIf (token.header.alg ≠ key.alg) (.oauth .invalidGrant)
  refuseIf (verifyWithJWKS [key] token = false) (.oauth .invalidGrant)

def JWTBearerConfig.findTrustedIssuer (bearer : JWTBearerConfig) (issuer : Bytes) :
    Option TrustedJWTIssuer :=
  bearer.trustedJWTIssuers.find? fun t => t.issuer == issuer

/-- For an issuer's assertion, up to the cache. -/
def BearerCall.presentIssuer (call : BearerCall) :
    Except TokenError (Presentation Bytes Time) := do
  let bearer ← orRefuse cfg.jwtBearer .unsupportedGrantType
  let token ← orRefuse (AssertionLib.parseGenericJWT call.assertion) (.oauth .invalidGrant)
  let claims := token.claims
  let issuer ← orRefuse (bearer.findTrustedIssuer claims.iss) (.oauth .invalidGrant)
  refuseIf (token.header.alg ∉ issuer.allowedAlgorithms) (.oauth .invalidGrant)
  refuseIf (claims.aud ≠ if issuer.audience ≠ [] then issuer.audience else cfg.tokens.issuer)
    (.oauth .invalidGrant)
  refuseIf (claims.exp = 0 ∨ (Time.ofUnix claims.exp).add cfg.clockSkew < call.answers.now)
    (.oauth .invalidGrant)
  refuseIf (claims.iat = 0 ∨
      bearer.assertionMaxAge + cfg.clockSkew < call.answers.now.sub (Time.ofUnix claims.iat))
    (.oauth .invalidGrant)
  refuseIf (claims.nbf ≠ 0 ∧
      call.answers.now < (Time.ofUnix claims.nbf).add (-cfg.clockSkew)) (.oauth .invalidGrant)
  return ⟨call.cacheNow, replayKey claims .issuer,
    (Time.ofUnix claims.exp).add bearer.replayCacheTTL⟩

def typeIDJAG : Bytes := str "oauth-id-jag+jwt"

/-- Past the cache, up to the subject. -/
def BearerCall.asserted (call : BearerCall) :
    Except TokenError Asserted := do
  let bearer ← orRefuse cfg.jwtBearer .unsupportedGrantType
  let token ← orRefuse (AssertionLib.parseGenericJWT call.assertion) (.oauth .invalidGrant)
  let issuer ← orRefuse (bearer.findTrustedIssuer token.claims.iss) (.oauth .invalidGrant)
  let keys ← orRefuse call.issuerJWKS (.oauth .invalidGrant)
  refuseIf (verifyWithJWKS keys token = false) (.oauth .invalidGrant)
  refuseIf (issuer.requiredClaims token = false) (.oauth .invalidGrant)
  let mapper ← orRefuse issuer.subjectMapper (.oauth .invalidGrant)
  let userID ← orRefuse (mapper token) (.oauth .invalidGrant)
  return ⟨userID, token.header.typ == typeIDJAG⟩

variable [StdLib] [UrlLib] (cfg : AssertionConfig)

/-- `JWTBearerGrant`, up to the cache. -/
def BearerCall.present (call : BearerCall) :
    Except TokenError (Presentation Bytes Time) := do
  match ← call.device cfg with
  | none => call.presentIssuer cfg
  | some (dev, entry, devices, token) =>
    verifyDeviceAssertion cfg entry devices token call.answers.clock
    call.deviceLimit
    let _ ← deviceResourceScope cfg.minting call.req dev
    let _ ← call.answers.proofJKT
    return ⟨call.cacheNow, replayKey token.claims .device,
      (Time.ofUnix token.claims.exp).add cfg.jtiReplayTTL⟩

/-- `JWTBearerGrant`, past the cache. -/
def BearerCall.finish (call : BearerCall) :
    Except TokenError AssertionResult := do
  match ← call.device cfg with
  | none =>
    let answers := { call.answers with device := none, assertion := call.asserted cfg }
    return .token (← jwtBearerGrant cfg.minting call.state call.req answers)
  | some (dev, _, devices, _) =>
    let answers : DeviceAssertionAnswers :=
      { now := call.answers.clock
        jti := call.answers.jti
        verified := .ok ()
        jkt := call.answers.proofJKT
        replayed := .ok ()
        onTokenIssued := call.answers.onTokenIssued
        issue := call.answers.issue }
    return .token
      (← deviceAssertionGrant cfg.minting devices.accessTokenTTL.toInt call.req dev answers)

/-- The endpoint as a guard with a memory. -/
def assertionGuard :
    Guard AssertionRequest TokenError AssertionResult Bytes Time where
  present
    | .client call => call.present cfg
    | .bearer call => call.present cfg
  replayed
    | .client _ => .oauth .invalidClient
    | .bearer _ => .oauth .invalidGrant
  finish
    | .client call => call.finish
    | .bearer call => call.finish cfg

/-- `AuthenticateClientJWT` and `JWTBearerGrant`. -/
def serveAssertion (cache : GoMap Bytes Time) (r : AssertionRequest) :
    Except TokenError AssertionResult × GoMap Bytes Time :=
  (assertionGuard cfg).serve jtiCache cache r

end

end TheAuth.Server
