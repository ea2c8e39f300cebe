import TheAuth.Go.Lib
import TheAuth.Go.Sha256

/-!
# Data of the authorization server

Identifiers, errors and the refresh token record that the token endpoint and the stores pass around.
-/

set_option autoImplicit false

namespace TheAuth.Server

open Go

/-- Only compared. -/
abbrev ULID := Nat

/-- Another text may name the same identifier, so only one direction is a law. -/
class UlidText where
  string : ULID → Bytes
  parse : Bytes → Option ULID
  parse_string : ∀ id, parse (string id) = some id

@[reducible]
def UlidText.unary : UlidText where
  string id := List.replicate id 0x31
  parse text := some text.length
  parse_string id := by rw [List.length_replicate]

def seconds (duration : Int) : Int := duration.tdiv 1000000000

/-- `failed` is an error of a collaborator. -/
inductive OAuthError where
  | invalidRequest | invalidClient | invalidGrant | invalidScope | invalidResource
  | redirectURIMismatch | pkceMismatch
  | dpopInvalid (detail : Bytes)
  | failed (text : Bytes)
  deriving DecidableEq

/-- A stored refresh token. -/
structure RefreshToken where
  id : ULID
  hash : Bytes
  familyID : ULID
  clientID : Bytes
  userID : Option ULID
  agentID : Option ULID := none
  scope : List Bytes
  (resource parentJTI : Bytes)
  (issuedAt expiresAt : Time)
  revokedAt : Option Time := none
  revocationNote : Bytes := []
  (dpopJKT authCodeHash authorizationDetails : Bytes)
  authTime : Time
  acr : Bytes
  amr : List Bytes
  deriving DecidableEq

def RefreshToken.live (t : RefreshToken) : Bool := t.revokedAt.isNone

def hashToken (token : Bytes) : Bytes := sum256 token

def hexDigit (n : UInt8) : UInt8 := if n < 10 then 0x30 + n else 0x57 + n

def bytesHexKey (b : Bytes) : Bytes :=
  b.flatMap fun (c : UInt8) => [hexDigit (c >>> 4), hexDigit (c &&& 0x0f)]

end TheAuth.Server
