import TheAuth.Server.Authorize
import TheAuth.Server.TokenExchange

/-!
# Assertions of the JWT bearer grant

The assertion of an enrolled device has a path of its own, that of an identity provider is checked
against the client and the resource, and every other one is exchanged for the scopes of the request.
-/

set_option autoImplicit false

namespace TheAuth.Server

open Go Agents Library.Result

section

variable [UrlLib] (cfg : TokenConfig)

end

structure EnrolledDevice where
  id : ULID
  subject : Bytes
  scopes : List Bytes

structure DeviceAssertionAnswers where
  now : Time
  jti : Bytes
  verified : Except TokenError Unit
  jkt : Except TokenError Bytes
  replayed : Except TokenError Unit
  onTokenIssued : Claims → Except TokenError ExtraClaims
  issue : Claims → Except TokenError Bytes

section

variable [UrlLib] [UlidText] (cfg : TokenConfig)

def deviceTarget (req : GrantRequest) : Bytes :=
  match req.resource, cfg.resources.resources with
  | [], [r] => r.identifier
  | raw, _ => raw

def deviceResourceScope (req : GrantRequest) (dev : EnrolledDevice) :
    Except TokenError (Bytes × List Bytes) := do
  let (res, audience) ←
    orRefuse (cfg.resources.resolveResource (deviceTarget cfg req)) (.oauth .invalidResource)
  let available := scopeIntersect dev.scopes res.scopes
  refuseIf (req.scope.length ≠ 0 ∧ scopeSubset req.scope available = false) (.oauth .invalidScope)
  let scope := if req.scope.length = 0 then available else req.scope
  refuseIf (scope.length = 0) (.oauth .invalidScope)
  return (audience, scope)

def deviceAssertionGrant (ttl : Int) (req : GrantRequest) (dev : EnrolledDevice)
    (a : DeviceAssertionAnswers) : Except TokenError TokenResponse := do
  a.verified
  let (audience, scope) ← deviceResourceScope cfg req dev
  let jkt ← a.jkt
  a.replayed
  let claims : Claims :=
    { iss := cfg.issuer
      sub := dev.subject
      aud := audience
      exp := (a.now + ttl).toUnix
      iat := a.now.toUnix
      jti := a.jti
      clientID := UlidText.string dev.id
      scope := scopeJoin scope
      extra := { cnfJKT := jkt } }
  let extra ← a.onTokenIssued claims
  let access ← a.issue { claims with extra }
  return ⟨{ claims with extra }, access, if jkt = [] then str "Bearer" else str "DPoP",
    seconds ttl, scopeJoin scope, []⟩

end

end TheAuth.Server
