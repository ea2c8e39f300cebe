import TheAuth.Server.Device
import TheAuth.Server.GrantFamilies

/-!
# Clients registered with a limited token

The limits of a registration token are compared with the metadata of the client, and nothing else
refers to them: a client that declares no scope and no other grant is not held by them.
-/

set_option autoImplicit false

namespace TheAuth.Server.RegistrationTokens

open Go Agents Library.Result List Bool

structure ClientRegistrationRequest where
  (clientName scope tokenEndpointAuthMethod applicationType : Bytes := [])
  (redirectURIs grantTypes responseTypes : List Bytes := [])

structure RegistrationToken where
  id : ULID
  tokenHash : Bytes
  (scopes grantTypes : List Bytes)
  (maxUses uses : ℕ)
  expiresAt : Time
  (revokedAt lastUsedAt : Option Time := none)
  deriving DecidableEq

abbrev Tokens := GoMap ULID RegistrationToken

inductive RegisterError where
  | tokenInvalid | tokenScope | denied
  | metadata (message : Bytes)
  deriving DecidableEq

def RegistrationToken.active (t : RegistrationToken) (now : Time) : Bool :=
  t.revokedAt.isNone && now < t.expiresAt && t.uses < t.maxUses

def defaultGrantTypes : List Bytes := [str "authorization_code", str "refresh_token"]

def supportedGrantTypes : List Bytes :=
  [str "authorization_code", str "refresh_token", str "client_credentials",
    str "urn:ietf:params:oauth:grant-type:token-exchange", str "urn:openid:params:grant-type:ciba",
    grantTypeDeviceCode]

def effectiveGrantTypes (grantTypes : List Bytes) : List Bytes :=
  if grantTypes = [] then defaultGrantTypes else grantTypes

def registrationWithinScope (t : RegistrationToken) (req : ClientRegistrationRequest) : Bool :=
  if t.scopes ≠ [] ∧ ¬ (scopeSplit req.scope).all t.scopes.contains then false
  else if t.grantTypes ≠ [] ∧ ¬ (effectiveGrantTypes req.grantTypes).all t.grantTypes.contains then
    false
  else true

def redeemRegistrationToken (tokens : Tokens) (raw : Bytes) (req : ClientRegistrationRequest)
    (now : Time) : Except RegisterError RegistrationToken × Tokens :=
  if !(str "rt_").isPrefixOf raw then (.error .tokenInvalid, tokens)
  else match tokens.find? fun t => t.tokenHash == hashToken raw with
  | none => (.error .tokenInvalid, tokens)
  | some (_, t) =>
    if !t.active now then (.error .tokenInvalid, tokens)
    else if !registrationWithinScope t req then (.error .tokenScope, tokens)
    else match tokens.lookup t.id with
    | none => (.error .tokenInvalid, tokens)
    | some row =>
      if !row.active now then (.error .tokenInvalid, tokens)
      else (.ok { t with uses := t.uses + 1 },
        tokens.insert t.id { row with uses := row.uses + 1, lastUsedAt := some now })

def refundRegistrationToken (tokens : Tokens) (id : ULID) : Tokens :=
  match tokens.lookup id with
  | none => tokens
  | some row => if 0 < row.uses then tokens.insert id { row with uses := row.uses - 1 } else tokens

/-- The messages of `validateRedirectURI`, and those of the checks of token and OpenID Connect
metadata. -/
structure RegistrationConfig where
  allowAnonymousRegistration : Bool := false
  redirectFault : Bytes → Option Bytes := fun _ => none
  metadataFault : ClientRegistrationRequest → Bool → Option Bytes := fun _ _ => none

def refuseFault (fault : Option Bytes) : Except RegisterError Unit :=
  match fault with
  | some message => .error (.metadata message)
  | none => .ok ()

def validateRegistrationRequest (cfg : RegistrationConfig) (req : ClientRegistrationRequest)
    (anonymous : Bool) : Except RegisterError ClientRegistrationRequest := do
  refuseIf ((req.grantTypes = [] ∨ str "authorization_code" ∈ req.grantTypes) ∧
      req.redirectURIs = [])
    (.metadata (str "redirect_uris is required for authorization_code clients"))
  refuseIf (anonymous = true ∧ 1 < req.redirectURIs.length)
    (.metadata (str "anonymous clients may register at most one redirect URI"))
  req.redirectURIs.forM fun u => refuseFault (cfg.redirectFault u)
  let grantTypes := effectiveGrantTypes req.grantTypes
  grantTypes.forM fun gt => refuseIf (gt ∉ supportedGrantTypes)
    (.metadata (str "unsupported grant_type: " ++ gt))
  let responseTypes := if req.responseTypes = [] then [str "code"] else req.responseTypes
  responseTypes.forM fun rt => refuseIf (rt ≠ str "code")
    (.metadata (str "unsupported response_type: " ++ rt))
  let method :=
    if req.tokenEndpointAuthMethod ≠ [] then req.tokenEndpointAuthMethod
    else if anonymous then str "none" else str "client_secret_basic"
  refuseIf (method ∉ [str "client_secret_basic", str "client_secret_post", str "none"])
    (.metadata (str "unsupported token_endpoint_auth_method: " ++ method))
  refuseIf (anonymous = true ∧ method ≠ str "none")
    (.metadata (str "anonymous clients must use token_endpoint_auth_method=none"))
  return { req with
    grantTypes, responseTypes, tokenEndpointAuthMethod := method
    applicationType := if req.applicationType = [] then str "web" else req.applicationType }

def registerClient (cfg : RegistrationConfig) (req : ClientRegistrationRequest) (anonymous : Bool)
    (clientID : Bytes) : Except RegisterError OAuthClient := do
  refuseIf (anonymous = true ∧ cfg.allowAnonymousRegistration = false) .denied
  let req ← validateRegistrationRequest cfg req anonymous
  refuseFault (cfg.metadataFault req anonymous)
  return {
    clientID, clientName := req.clientName, redirectURIs := req.redirectURIs
    grantTypes := req.grantTypes, scope := req.scope }

/-- `handleRegister` with a bearer token that is no static one. -/
def registerWithToken (cfg : RegistrationConfig) (tokens : Tokens) (raw : Bytes)
    (req : ClientRegistrationRequest) (now : Time) (clientID : Bytes) :
    Except RegisterError (RegistrationToken × OAuthClient) × Tokens :=
  match redeemRegistrationToken tokens raw req now with
  | (.error e, tokens) => (.error e, tokens)
  | (.ok t, tokens) =>
    match registerClient cfg req false clientID with
    | .error e => (.error e, refundRegistrationToken tokens t.id)
    | .ok client => (.ok (t, client), tokens)

variable {req : ClientRegistrationRequest} {t : RegistrationToken} {cfg : RegistrationConfig}
  {out requested : List Bytes} {resource : ProtectedResource}

variable {client : OAuthClient}

def readerToken : RegistrationToken where
  id := 1
  tokenHash := hashToken (str "rt_reader")
  scopes := [str "read"]
  grantTypes := [str "client_credentials"]
  maxUses := 1
  uses := 0
  expiresAt := Time.unix 2000

def issued : Tokens := (∅ : Tokens).insert 1 readerToken

def reader : ClientRegistrationRequest where
  grantTypes := [str "client_credentials"]
  redirectURIs := [str "https://app/cb"]

def registered : Except RegisterError (RegistrationToken × OAuthClient) × Tokens :=
  registerWithToken {} issued (str "rt_reader") reader (Time.unix 1000) (str "app")

end TheAuth.Server.RegistrationTokens
