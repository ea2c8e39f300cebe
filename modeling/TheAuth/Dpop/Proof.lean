import TheAuth.Go.Base64
import TheAuth.Go.Clock
import TheAuth.Go.Fault
import TheAuth.Go.Sha256

/-!
# DPoP proofs

A DPoP proof is a JWT whose header carries its public key. The coordinates of a key are copied into
a buffer at an offset that depends on their length: one that is too long makes the copy panic
(`uncompressedPoint`), and nothing else here panics.
-/

set_option autoImplicit false

namespace TheAuth.Dpop

open Go Library.Result List

structure JWK where
  kty : Bytes
  (crv x y n e : Bytes := [])
  deriving DecidableEq

/-- The header of a proof. -/
structure ProofHeader where
  (typ alg : Bytes)
  jwk : Option JWK
  deriving DecidableEq

/-- The claims of a proof. -/
structure ProofClaims where
  (jti htm htu : Bytes)
  iat : Int64
  (ath nonce : Bytes := [])
  deriving DecidableEq

structure ParsedProof where
  header : ProofHeader
  claims : ProofClaims
  (sig signingInput : Bytes)
  deriving DecidableEq

inductive ProofSentinel where
  | malformedProof | unsupportedAlg | signatureInvalid | proofExpired | methodMismatch | uriMismatch
  | uriInvalid | athMismatch | athRequired | nonceRequired | nonceInvalid | nonceSecretRequired
  | replay | replayStore | jktMismatch
  deriving DecidableEq

/-- With what the text adds to that of the sentinel. Texts of the decoders are left out. -/
structure ProofError where
  sentinel : ProofSentinel
  detail : Bytes := []
  deriving DecidableEq

def joinErr (sentinel : ProofSentinel) (pairs : List (Bytes × Bytes)) : Fault ProofError :=
  let texts := pairs.map fun (key, value) => key ++ str "=" ++ value
  .error ⟨sentinel, str " (" ++ (texts.intersperse (str ", ")).flatten ++ str ")"⟩

def malformed (detail : String) : Fault ProofError := .error ⟨.malformedProof, str detail⟩

def signatureInvalid (detail : String) : Fault ProofError := .error ⟨.signatureInvalid, str detail⟩

inductive Curve where
  | p256 | p384

def Curve.byteSize : Curve → ℕ
  | .p256 => 32
  | .p384 => 48

class ProofLib where
  unmarshalHeader : Bytes → Option ProofHeader
  unmarshalClaims : Bytes → Option ProofClaims
  newPublicKey : Curve → Bytes → Bool
  ecdsaVerify : Curve → ℕ → ℕ → Bytes → ℕ → ℕ → Bool
  rsaVerify : Bool → ℕ → Int → Bytes → Bytes → Bool
  ed25519Verify : Bytes → Bytes → Bytes → Bool
  sum384 : Bytes → Bytes
  equalFold : Bytes → Bytes → Bool
  durationString : Duration → Bytes

def proofTyp : Bytes := str "dpop+jwt"

def defaultAllowedAlgs : List Bytes :=
  [str "ES256", str "ES384", str "RS256", str "PS256", str "EdDSA"]

def natOfBytes (b : Bytes) : ℕ := b.foldl (fun n c => n * 256 + c.toNat) 0

section

def byAlg (alg : Bytes) (ecdsa : Curve → Outcome ProofError Unit)
    (rsa : Bool → Outcome ProofError Unit) (eddsa other : Outcome ProofError Unit) :
    Outcome ProofError Unit :=
  if alg = str "ES256" then ecdsa .p256
  else if alg = str "ES384" then ecdsa .p384
  else if alg = str "RS256" then rsa false
  else if alg = str "PS256" then rsa true
  else if alg = str "EdDSA" then eddsa
  else other

variable [ProofLib]

def parseProof (token : Bytes) : Outcome ProofError ParsedProof :=
  match splitByte 0x2E token with
  | [first, second, third] => do
    let header ← orRefuse (decodeRawURL first) (malformed ": header decode")
    let payload ← orRefuse (decodeRawURL second) (malformed ": payload decode")
    let sig ← orRefuse (decodeRawURL third) (malformed ": signature decode")
    let hdr ← orRefuse (ProofLib.unmarshalHeader header) (malformed ": header parse")
    let claims ← orRefuse (ProofLib.unmarshalClaims payload) (malformed ": payload parse")
    return ⟨hdr, claims, sig, first ++ str "." ++ second⟩
  | _ => .error (malformed "")

variable (curve : Curve)

def Curve.digest (input : Bytes) : Bytes :=
  match curve with
  | .p256 => sum256 input
  | .p384 => ProofLib.sum384 input

omit [ProofLib] in
def uncompressedPoint (x y : Bytes) : Outcome ProofError Bytes := do
  let size := curve.byteSize
  let point ← copyAt (0x04 :: List.replicate (2 * size) 0) (1 + size - x.length) x
  copyAt point (1 + 2 * size - y.length) y

def verifyOnCurve (offCurve length : Fault ProofError) (x y input sig : Bytes) :
    Outcome ProofError Unit := do
  let point ← uncompressedPoint curve x y
  refuseIf (ProofLib.newPublicKey curve point = false) offCurve
  refuseIf (sig.length ≠ 2 * curve.byteSize) length
  let r ← sliceTo sig curve.byteSize
  let s ← sliceFrom sig curve.byteSize
  refuseIf (ProofLib.ecdsaVerify curve (natOfBytes x) (natOfBytes y) (curve.digest input)
    (natOfBytes r) (natOfBytes s) = false) (signatureInvalid "")

def verifyECDSA (jwk : JWK) (input sig : Bytes) (curve : Curve) : Outcome ProofError Unit := do
  refuseIf (jwk.kty ≠ str "EC") (malformed ": alg requires kty=EC")
  refuseIf (jwk.x = [] ∨ jwk.y = []) (malformed ": jwk missing x/y")
  let x ← orRefuse (decodeRawURL jwk.x) (malformed ": jwk x decode")
  let y ← orRefuse (decodeRawURL jwk.y) (malformed ": jwk y decode")
  verifyOnCurve curve (malformed ": jwk point off curve")
    (signatureInvalid ": signature length mismatch") x y input sig

def verifyRSA (jwk : JWK) (input sig : Bytes) (pss : Bool) : Outcome ProofError Unit := do
  refuseIf (jwk.kty ≠ str "RSA") (malformed ": alg requires kty=RSA")
  refuseIf (jwk.n = [] ∨ jwk.e = []) (malformed ": jwk missing n/e")
  let n ← orRefuse (decodeRawURL jwk.n) (malformed ": jwk n decode")
  let e ← orRefuse (decodeRawURL jwk.e) (malformed ": jwk e decode")
  refuseIf (n.length = 0 ∨ e.length = 0) (malformed ": jwk n/e empty")
  refuseIf (n.length * 8 < 2048) (malformed ": rsa modulus shorter than 2048 bits")
  let exponent := (Int64.ofNat (natOfBytes e)).toInt
  refuseIf (exponent ≤ 0 ∨ 2 ^ 31 - 1 < exponent) (malformed ": jwk e out of range")
  refuseIf (ProofLib.rsaVerify pss (natOfBytes n) exponent (sum256 input) sig = false)
    (signatureInvalid "")

/-- `ed25519.Verify` panics for a key of another length. -/
def verifyEd25519 (key input sig : Bytes) : Outcome ProofError Bool :=
  if key.length ≠ 32 then .error .panic else .ok (ProofLib.ed25519Verify key input sig)

def verifyEdDSA (jwk : JWK) (input sig : Bytes) : Outcome ProofError Unit := do
  refuseIf (jwk.kty ≠ str "OKP") (malformed ": alg requires kty=OKP")
  refuseIf (jwk.crv ≠ str "Ed25519") (malformed ": EdDSA requires crv=Ed25519")
  let x ← orRefuse (decodeRawURL jwk.x) (malformed ": jwk x decode")
  refuseIf (x.length ≠ 32) (malformed ": ed25519 public key wrong length")
  let valid ← verifyEd25519 x input sig
  refuseIf (valid = false) (signatureInvalid "")

def verifySignature (alg : Bytes) (jwk : Option JWK) (input sig : Bytes) :
    Outcome ProofError Unit := do
  let jwk ← orRefuse jwk (malformed ": missing jwk")
  byAlg alg (verifyECDSA jwk input sig) (verifyRSA jwk input sig) (verifyEdDSA jwk input sig)
    (.error (.error ⟨.unsupportedAlg, []⟩))

end

/-- The coordinates are no longer than what is before the end of their places. -/
def JWK.Fits (jwk : JWK) (curve : Curve) : Prop :=
  ∀ x y, decodeRawURL jwk.x = some x → decodeRawURL jwk.y = some y →
    x.length ≤ 1 + curve.byteSize ∧ y.length ≤ 1 + 2 * curve.byteSize

variable {curve : Curve}

theorem returns_uncompressedPoint {x y : Bytes} :
    Returns (uncompressedPoint curve x y) ↔
      x.length ≤ 1 + curve.byteSize ∧ y.length ≤ 1 + 2 * curve.byteSize := by
  have size : ((0x04 : UInt8) :: replicate (2 * curve.byteSize) 0).length =
      1 + 2 * curve.byteSize := by
    rw [length_cons, length_replicate]
    omega
  constructor
  · intro both
    have left := returns_copyAt.mp both.first
    obtain ⟨point, done⟩ : ∃ point, copyAt (0x04 :: replicate (2 * curve.byteSize) 0)
        (1 + curve.byteSize - x.length) x = (.ok point : Outcome ProofError Bytes) :=
      ⟨_, if_pos left⟩
    have right := returns_copyAt.mp (both.after done)
    omega
  · rintro ⟨left, right⟩
    refine (returns_copyAt.mpr ⟨by omega, by omega⟩).bind fun point done => ?_
    have length := length_copyAt done
    exact returns_copyAt.mpr ⟨by omega, by omega⟩

variable [ProofLib]

theorem returns_parseProof (token : Bytes) : Returns (parseProof token) := by
  unfold parseProof
  split
  · refine (returns_orRefuse _ _).bind fun _ _ => (returns_orRefuse _ _).bind fun _ _ => ?_
    refine (returns_orRefuse _ _).bind fun _ _ => (returns_orRefuse _ _).bind fun _ _ => ?_
    exact (returns_orRefuse _ _).bind fun _ _ => returns_ok _
  · exact returns_error _

theorem returns_verifyOnCurve {offCurve length : ProofError} {x y : Bytes} (input sig : Bytes) :
    Returns (verifyOnCurve curve (.error offCurve) (.error length) x y input sig) ↔
      x.length ≤ 1 + curve.byteSize ∧ y.length ≤ 1 + 2 * curve.byteSize := by
  refine Iff.trans ⟨Returns.first, fun returns => returns.bind fun point _ => ?_⟩
    returns_uncompressedPoint
  refine (returns_refuseIf _ _).bind fun _ _ => (returns_refuseIf _ _).bind fun _ same => ?_
  have length := not_not.mp (refuseIf_eq_ok.mp same)
  refine (returns_sliceTo (by omega) (by omega)).bind fun _ _ => ?_
  exact (returns_sliceFrom (by omega) (by omega)).bind fun _ _ => returns_refuseIf _ _

theorem returns_verifyECDSA {jwk : JWK} (input sig : Bytes) (curve : Curve) :
    Returns (verifyECDSA jwk input sig curve) ↔
      (jwk.kty = str "EC" → ¬(jwk.x = [] ∨ jwk.y = []) → jwk.Fits curve) := by
  constructor
  · intro returns kty full x y left right
    have read := (returns.after (refuseIf_eq_ok.mpr (not_not.mpr kty))).after
      (refuseIf_eq_ok.mpr full)
    exact (returns_verifyOnCurve input sig).mp
      ((read.after (orRefuse_eq_ok.mpr left)).after (orRefuse_eq_ok.mpr right))
  · intro fits
    refine (returns_refuseIf _ _).bind fun _ kty => (returns_refuseIf _ _).bind fun _ full => ?_
    refine (returns_orRefuse _ _).bind fun x left => (returns_orRefuse _ _).bind fun y right => ?_
    exact (returns_verifyOnCurve input sig).mpr (fits (not_not.mp (refuseIf_eq_ok.mp kty))
      (refuseIf_eq_ok.mp full) x y (orRefuse_eq_ok.mp left) (orRefuse_eq_ok.mp right))

theorem returns_verifyRSA (jwk : JWK) (input sig : Bytes) (pss : Bool) :
    Returns (verifyRSA jwk input sig pss) := by
  refine (returns_refuseIf _ _).bind fun _ _ => (returns_refuseIf _ _).bind fun _ _ => ?_
  refine (returns_orRefuse _ _).bind fun _ _ => (returns_orRefuse _ _).bind fun _ _ => ?_
  refine (returns_refuseIf _ _).bind fun _ _ => (returns_refuseIf _ _).bind fun _ _ => ?_
  exact (returns_refuseIf _ _).bind fun _ _ => returns_refuseIf _ _

theorem returns_verifyEd25519 {key : Bytes} (input sig : Bytes) (length : key.length = 32) :
    Returns (verifyEd25519 key input sig) := by
  rw [verifyEd25519, if_neg (not_not.mpr length)]
  exact returns_ok _

theorem returns_verifyEdDSA (jwk : JWK) (input sig : Bytes) :
    Returns (verifyEdDSA jwk input sig) := by
  refine (returns_refuseIf _ _).bind fun _ _ => (returns_refuseIf _ _).bind fun _ _ => ?_
  refine (returns_orRefuse _ _).bind fun x _ => (returns_refuseIf _ _).bind fun _ same => ?_
  have length := not_not.mp (refuseIf_eq_ok.mp same)
  exact (returns_verifyEd25519 input sig length).bind fun _ _ => returns_refuseIf _ _

/-- The key, where a verifier that `reads` it copies its coordinates, fits its curve. -/
def ProofHeader.Fits (hdr : ProofHeader) (reads : JWK → Prop) : Prop :=
  ∀ jwk, hdr.jwk = some jwk → jwk.kty = str "EC" → reads jwk →
    (hdr.alg = str "ES256" → jwk.Fits .p256) ∧ (hdr.alg = str "ES384" → jwk.Fits .p384)

section

variable {ecdsa : JWK → Curve → Outcome ProofError Unit}
  {rsa : JWK → Bool → Outcome ProofError Unit}
  {eddsa : JWK → Outcome ProofError Unit} {other : Outcome ProofError Unit}
  (rsa_ : ∀ jwk pss, Returns (rsa jwk pss)) (eddsa_ : ∀ jwk, Returns (eddsa jwk))
  (other_ : Returns other)
include rsa_ eddsa_ other_

omit [ProofLib] in
theorem returns_byAlg (alg : Bytes) (jwk : JWK) :
    Returns (byAlg alg (ecdsa jwk) (rsa jwk) (eddsa jwk) other) ↔
      (alg = str "ES256" → Returns (ecdsa jwk .p256)) ∧
        (alg = str "ES384" → Returns (ecdsa jwk .p384)) := by
  unfold byAlg
  by_cases first : alg = str "ES256"
  · have differ : str "ES256" ≠ str "ES384" := by decide
    rw [if_pos first]
    exact ⟨fun returns => ⟨fun _ => returns, fun second => absurd (first ▸ second) differ⟩,
      fun both => both.1 first⟩
  rw [if_neg first]
  by_cases second : alg = str "ES384"
  · rw [if_pos second]
    exact ⟨fun returns => ⟨(absurd · first), fun _ => returns⟩, fun both => both.2 second⟩
  rw [if_neg second]
  refine ⟨fun _ => ⟨(absurd · first), (absurd · second)⟩, fun _ => ?_⟩
  split
  · exact rsa_ jwk false
  split
  · exact rsa_ jwk true
  split
  · exact eddsa_ jwk
  · exact other_

omit [ProofLib] in
theorem returns_signature {hdr : ProofHeader} {reads : JWK → Prop} {missing : ProofError}
    (curves : ∀ jwk curve, Returns (ecdsa jwk curve) ↔
      (jwk.kty = str "EC" → reads jwk → jwk.Fits curve)) :
    Returns (orRefuse hdr.jwk (Fault.error missing) >>= fun jwk =>
      byAlg hdr.alg (ecdsa jwk) (rsa jwk) (eddsa jwk) other) ↔ hdr.Fits reads := by
  constructor
  · intro returns jwk found kty read
    obtain ⟨first, second⟩ := (returns_byAlg rsa_ eddsa_ other_ _ jwk).mp
      (returns.after (orRefuse_eq_ok.mpr found))
    exact ⟨fun alg => (curves _ _).mp (first alg) kty read,
      fun alg => (curves _ _).mp (second alg) kty read⟩
  · intro fits
    refine (returns_orRefuse _ _).bind fun jwk found => ?_
    have fits := fits jwk (orRefuse_eq_ok.mp found)
    exact (returns_byAlg rsa_ eddsa_ other_ _ jwk).mpr
      ⟨fun alg => (curves _ _).mpr fun kty read => (fits kty read).1 alg,
        fun alg => (curves _ _).mpr fun kty read => (fits kty read).2 alg⟩

end

omit [ProofLib] in
theorem returns_vetted {hdr : ProofHeader} {allowed : List Bytes} {wrongTyp wrongAlg : ProofError}
    {rest : Outcome ProofError Unit} {reads : JWK → Prop}
    (signed : Returns rest ↔ hdr.Fits reads) :
    Returns (do
      refuseIf (hdr.typ ≠ proofTyp) (Fault.error wrongTyp)
      refuseIf (hdr.alg ∉ allowed) (Fault.error wrongAlg)
      rest) ↔ hdr.typ = proofTyp → hdr.alg ∈ allowed → hdr.Fits reads := by
  constructor
  · intro returns typ alg
    exact signed.mp ((returns.after (refuseIf_eq_ok.mpr (not_not.mpr typ))).after
      (refuseIf_eq_ok.mpr (not_not.mpr alg)))
  · intro fits
    refine (returns_refuseIf _ _).bind fun _ typ => (returns_refuseIf _ _).bind fun _ alg => ?_
    exact signed.mpr (fits (not_not.mp (refuseIf_eq_ok.mp typ))
      (not_not.mp (refuseIf_eq_ok.mp alg)))

theorem returns_verifySignature {hdr : ProofHeader} (input sig : Bytes) :
    Returns (verifySignature hdr.alg hdr.jwk input sig) ↔
      hdr.Fits fun jwk => ¬(jwk.x = [] ∨ jwk.y = []) :=
  returns_signature (fun jwk => returns_verifyRSA jwk input sig)
    (fun jwk => returns_verifyEdDSA jwk input sig) (returns_error _)
    fun _ => returns_verifyECDSA input sig

end TheAuth.Dpop
