import TheAuth.Server.AgentTokens

/-!
# Verifying access tokens

A JWT is recognised by its signature and claims, an opaque token by the row of its hash. Nothing is
assumed about base64, JSON and signatures: what a token says (`claimsOf`) is a function of its text.
-/

set_option autoImplicit false

namespace TheAuth.Server

open Go Library.Result

structure JwtHeader where
  (alg typ kid : Bytes)

/-- Absent texts are empty, absent times zero. -/
structure AccessClaims extends Claims where
  (nbf authTime : Int := 0)
  acr : Bytes := []
  amr : List Bytes := []
  (deviceID authorizationDetails : Bytes := [])

class JwtLib where
  Key : Type
  decodeBase64 : Bytes → Option Bytes
  readHeader : Bytes → Option JwtHeader
  readClaims : Bytes → Option AccessClaims
  verifyBytes : Bytes → Key → Bytes → Bytes → Bool

inductive JwtError where
  | segments | header | unsupportedAlg | unsupportedTyp | missingKid | unknownKid | algMismatch
  | signature | payload | expired | notYetValid | audMismatch

def supportedAlg (alg : Bytes) : Bool := [str "EdDSA", str "ES256", str "RS256"].contains alg

def typeAccessToken : Bytes := str "at+jwt"

structure VerifyOptions where
  (expectedTyp expectedAud : Bytes)
  skew : Int := 0
  (allowMissingTyp ignoreExpiry : Bool := false)

def checkClaims (opts : VerifyOptions) (now : Time) (c : AccessClaims) :
    Except JwtError Unit := do
  refuseIf (opts.ignoreExpiry = false ∧ (c.exp = 0 ∨ Time.unix c.exp + opts.skew < now)) .expired
  refuseIf (c.nbf ≠ 0 ∧ now < Time.unix c.nbf - opts.skew) .notYetValid
  refuseIf (opts.expectedAud ≠ [] ∧ c.aud ≠ opts.expectedAud) .audMismatch

variable {c : AccessClaims}

theorem unexpired_of_checkClaims {opts : VerifyOptions} {now : Time}
    (heeded : opts.ignoreExpiry = false) (checked : checkClaims opts now c = .ok ()) :
    now ≤ Time.unix c.exp + opts.skew := by
  obtain ⟨unexpired, -⟩ := of_refuseIf checked
  rw [not_and, not_or] at unexpired
  exact Int.not_lt.mp (unexpired heeded).2

section

variable [JwtLib] (resolve : Bytes → Option (Bytes × JwtLib.Key))

def headerKey (opts : VerifyOptions)
    (h : JwtHeader) : Except JwtError (Bytes × JwtLib.Key) := do
  refuseIf (supportedAlg h.alg = false) .unsupportedAlg
  refuseIf (h.typ ≠ opts.expectedTyp ∧ (h.typ ≠ [] ∨ opts.allowMissingTyp = false)) .unsupportedTyp
  refuseIf (h.kid = []) .missingKid
  let (alg, key) ← orRefuse (resolve h.kid) .unknownKid
  refuseIf (alg ≠ h.alg) .algMismatch
  return (alg, key)

def verifyWith (opts : VerifyOptions) (now : Time)
    (token : Bytes) : Except JwtError AccessClaims :=
  match token.splitOn 0x2E with
  | [header, payload, signature] => do
    let h ← orRefuse ((JwtLib.decodeBase64 header).bind JwtLib.readHeader) .header
    let (alg, key) ← headerKey resolve opts h
    let sig ← orRefuse (JwtLib.decodeBase64 signature) .signature
    refuseIf (JwtLib.verifyBytes alg key (header ++ [0x2E] ++ payload) sig = false) .signature
    let c ← orRefuse ((JwtLib.decodeBase64 payload).bind JwtLib.readClaims) .payload
    checkClaims opts now c
    return c
  | _ => .error .segments

def claimsOf (token : Bytes) : Option AccessClaims :=
  match token.splitOn 0x2E with
  | [_, payload, _] => (JwtLib.decodeBase64 payload).bind JwtLib.readClaims
  | _ => none

theorem verifyWith_eq_ok {resolve : Bytes → Option (Bytes × JwtLib.Key)} {opts : VerifyOptions}
    {now : Time} {token : Bytes} (verified : verifyWith resolve opts now token = .ok c) :
    claimsOf token = some c ∧ checkClaims opts now c = .ok () := by
  unfold verifyWith at verified
  unfold claimsOf
  split at verified
  next =>
    iterate 3 obtain ⟨_, -, verified⟩ := of_bind verified
    obtain ⟨-, verified⟩ := of_refuseIf verified
    obtain ⟨_, read, verified⟩ := of_bind verified
    obtain ⟨checked, verified⟩ := unit_bind_eq_ok.mp verified
    cases verified
    exact ⟨orRefuse_eq_ok.mp read, checked⟩
  · cases verified

end

structure OpaqueToken where
  clientID : Bytes
  expiresAt : Time
  revokedAt : Option Time := none
  claims : Bytes

def lookupOpaqueClaims [JwtLib] (row : Option OpaqueToken) (skew : Int) (now : Time) :
    Option AccessClaims :=
  match row with
  | none => none
  | some rec =>
    if rec.revokedAt.isSome then none
    else if rec.expiresAt + skew ≤ now then none
    else JwtLib.readClaims rec.claims

theorem unexpired_of_lookupOpaqueClaims [JwtLib] {row : Option OpaqueToken} {skew : Int}
    {now : Time} (found : lookupOpaqueClaims row skew now = some c) :
    ∃ rec, row = some rec ∧ now < rec.expiresAt + skew := by
  unfold lookupOpaqueClaims at found
  split at found
  · cases found
  rename_i rec
  split_ifs at found with _ early
  exact ⟨rec, rfl, Int.not_le.mp early⟩

end TheAuth.Server
