import TheAuth.Dpop.Service

/-!
# The verifier of a resource server

`verifyAndBind` checks a DPoP proof with fewer checks of the key and no nonce. An identifier that
comes again after its time has two places in the order of the remembered ones, and the first can
make the verifier forget it early.
-/

set_option autoImplicit false

namespace TheAuth.Mcp

open Go Dpop Library.Result Library.ReplayGuard

/-- The verifier of a resource. -/
structure DpopVerifier where
  allowedAlgs : List Bytes
  (proofMaxAge clockSkewMax : Duration)
  jtiCap : ℕ
  jtiCap_pos : 0 < jtiCap

theorem capOrDefault_pos (cap : Int) : 0 < capOrDefault cap := by
  unfold capOrDefault
  split <;> omega

def newDPoPVerifier (algs : List Bytes) (maxAge skew : Duration) (jtiCap : Int) :
    DpopVerifier where
  allowedAlgs := if algs = [] then defaultAllowedAlgs else algs
  proofMaxAge := orDefault maxAge (60 * Duration.second)
  clockSkewMax := skew
  jtiCap := capOrDefault jtiCap
  jtiCap_pos := capOrDefault_pos jtiCap

/-- The remembered keys, oldest first. -/
structure JtiOrder where
  jtiSeen : GoMap Bytes Time := ∅
  jtiOrder : List Bytes := []

def live (now : Time) (seen : GoMap Bytes Time) (jti : Bytes) : Bool :=
  (seen.lookup jti).any fun expires => !expired now expires

def dropFront (stop : GoMap Bytes Time → Bytes → List Bytes → Bool) :
    List Bytes → GoMap Bytes Time → JtiOrder
  | [], seen => ⟨seen, []⟩
  | head :: rest, seen =>
    if stop seen head rest then ⟨seen, head :: rest⟩ else dropFront stop rest (seen.erase head)

def sweepOrder (now : Time) : List Bytes → GoMap Bytes Time → JtiOrder :=
  dropFront fun seen head _ => live now seen head

def evictOrder (cap : ℕ) : List Bytes → GoMap Bytes Time → JtiOrder :=
  dropFront fun _ head rest => decide ((head :: rest).length < cap)

def JtiOrder.trim (c : JtiOrder) (cap : ℕ) (now : Time) : JtiOrder :=
  let swept := sweepOrder now c.jtiOrder c.jtiSeen
  evictOrder cap swept.jtiOrder swept.jtiSeen

def JtiOrder.push (c : JtiOrder) (jti : Bytes) (expiresAt : Time) : JtiOrder :=
  ⟨AList.insert jti expiresAt c.jtiSeen, c.jtiOrder ++ [jti]⟩

def JtiOrder.rememberJTI (cap : ℕ) (c : JtiOrder) (p : Presentation Bytes Time) :
    Bool × JtiOrder :=
  if live p.now c.jtiSeen p.key then (false, c)
  else (true, (c.trim cap p.now).push p.key p.deadline)

theorem live_eq_false {now : Time} {seen : GoMap Bytes Time} {jti : Bytes} :
    live now seen jti = false ↔ ∀ expires, seen.lookup jti = some expires → ¬now < expires := by
  unfold live
  cases seen.lookup jti with
  | none => simp
  | some => simp [expired]

section

variable {stop : GoMap Bytes Time → Bytes → List Bytes → Bool} {order : List Bytes}
  {seen : GoMap Bytes Time} {key : Bytes} {expires : Time}

theorem lookup_of_dropFront (here : (dropFront stop order seen).jtiSeen.lookup key = some expires) :
    seen.lookup key = some expires := by
  induction order generalizing seen with
  | nil => exact here
  | cons _ _ ih =>
    rw [dropFront] at here
    split at here
    · exact here
    · exact GoMap.lookup_of_lookup_erase (ih here)

theorem length_dropFront_le : (dropFront stop order seen).jtiOrder.length ≤ order.length := by
  induction order generalizing seen with
  | nil => exact Nat.le_refl _
  | cons _ _ ih =>
    rw [dropFront]
    split
    · exact Nat.le_refl _
    · exact Nat.le_succ_of_le ih

theorem lookup_sweepOrder {now : Time} (here : seen.lookup key = some expires)
    (current : now < expires) :
    (sweepOrder now order seen).jtiSeen.lookup key = some expires := by
  unfold sweepOrder
  induction order generalizing seen with
  | nil => exact here
  | cons head rest ih =>
    rw [dropFront]
    split
    · exact here
    rename_i dead
    have other : key ≠ head := by
      rintro rfl
      exact live_eq_false.mp (Bool.eq_false_iff.mpr dead) expires here current
    exact ih ((AList.lookup_erase_ne other).trans here)

theorem evictOrder_eq {cap : ℕ} (room : order.length < cap) :
    evictOrder cap order seen = ⟨seen, order⟩ := by
  unfold evictOrder
  cases order with
  | nil => rfl
  | cons => rw [dropFront, if_pos (decide_eq_true room)]

end

theorem JtiOrder.length_trim_le (c : JtiOrder) (cap : ℕ) (now : Time) :
    (c.trim cap now).jtiOrder.length ≤ c.jtiOrder.length :=
  Nat.le_trans length_dropFront_le length_dropFront_le

theorem JtiOrder.rememberJTI_cases (cap : ℕ) (c : JtiOrder) (p : Presentation Bytes Time) :
    (live p.now c.jtiSeen p.key = true ∧ c.rememberJTI cap p = (false, c)) ∨
    (live p.now c.jtiSeen p.key = false ∧
      c.rememberJTI cap p = (true, (c.trim cap p.now).push p.key p.deadline)) := by
  unfold JtiOrder.rememberJTI
  cases remembered : live p.now c.jtiSeen p.key with
  | true => exact .inl ⟨rfl, rfl⟩
  | false => exact .inr ⟨rfl, rfl⟩

def jtiOrder (cap : ℕ) : Memory Bytes Time JtiOrder where
  past expires now := ¬now < expires
  past_of_le := @Time.not_lt_of_le
  seen c key := c.jtiSeen.lookup key
  size c := c.jtiOrder.length
  fits n := n < cap
  fits_of_le := Nat.lt_of_le_of_lt
  offer := JtiOrder.rememberJTI cap
  offer_iff := by
    intro c p
    rw [← live_eq_false]
    rcases c.rememberJTI_cases cap p with ⟨remembered, done⟩ | ⟨new, done⟩
    · rw [done, remembered]
      exact ⟨(nomatch ·), (nomatch ·)⟩
    · rw [done, new]
      exact ⟨fun _ => rfl, fun _ => rfl⟩
  seen_admitted := by
    intro c p admitted
    rcases c.rememberJTI_cases cap p with ⟨_, done⟩ | ⟨_, done⟩
    · rw [done] at admitted
      cases admitted
    · rw [done]
      exact AList.lookup_insert _
  keeps := by
    intro c p key expires room here current
    rcases c.rememberJTI_cases cap p with ⟨_, done⟩ | ⟨new, done⟩
    · rw [done]
      exact here
    · have other : key ≠ p.key := by
        rintro rfl
        exact current (live_eq_false.mp new expires here)
      have trimmed : c.trim cap p.now = sweepOrder p.now c.jtiOrder c.jtiSeen :=
        evictOrder_eq (Nat.lt_of_le_of_lt length_dropFront_le room)
      rw [done, JtiOrder.push, GoMap.lookup_insert_eq, if_neg other, trimmed]
      exact lookup_sweepOrder here (not_not.mp current)
  seen_of := by
    intro c p key expires here
    rcases c.rememberJTI_cases cap p with ⟨_, done⟩ | ⟨_, done⟩ <;> rw [done] at here ⊢
    · exact .inr here
    · rw [JtiOrder.push, GoMap.lookup_insert_eq] at here
      split at here
      next same => exact .inl ⟨rfl, same⟩
      · exact .inr (lookup_of_dropFront (lookup_of_dropFront here))
  size_offer := by
    intro c p
    rcases c.rememberJTI_cases cap p with ⟨_, done⟩ | ⟨_, done⟩ <;> rw [done]
    · exact Nat.le_refl _
    · rw [JtiOrder.push, List.length_append]
      exact Nat.succ_le_succ (c.length_trim_le cap p.now)

section

def DpopVerifier.checkAge (v : DpopVerifier) (now : Time) (iat : Int64) :
    Outcome ProofError Unit := do
  refuseIf (iat = 0) (.error ⟨.proofExpired, []⟩)
  refuseIf (TooOld now iat (v.proofMaxAge + v.clockSkewMax)) (.error ⟨.proofExpired, []⟩)

variable [ProofLib]

def dpopVerifyECDSA (jwk : JWK) (input sig : Bytes) (curve : Curve) : Outcome ProofError Unit := do
  refuseIf (jwk.kty ≠ str "EC") (malformed ": alg needs EC")
  let x ← orRefuse (decodeRawURL jwk.x) (malformed ": jwk x decode")
  let y ← orRefuse (decodeRawURL jwk.y) (malformed ": jwk y decode")
  verifyOnCurve curve (malformed ": point off curve") (signatureInvalid "") x y input sig

def dpopVerifyRSA (jwk : JWK) (input sig : Bytes) (pss : Bool) : Outcome ProofError Unit := do
  refuseIf (jwk.kty ≠ str "RSA") (malformed ": alg needs RSA")
  let n ← orRefuse (decodeRawURL jwk.n) (malformed ": jwk n decode")
  let e ← orRefuse (decodeRawURL jwk.e) (malformed ": jwk e decode")
  refuseIf (n.length * 8 < 2048) (malformed ": rsa modulus shorter than 2048 bits")
  let exponent := (Int64.ofNat (natOfBytes e)).toInt
  refuseIf (exponent ≤ 0) (malformed ": jwk e out of range")
  refuseIf (ProofLib.rsaVerify pss (natOfBytes n) exponent (sum256 input) sig = false)
    (signatureInvalid "")

def dpopVerifyEdDSA (jwk : JWK) (input sig : Bytes) : Outcome ProofError Unit := do
  refuseIf (jwk.kty ≠ str "OKP" ∨ jwk.crv ≠ str "Ed25519") (malformed ": alg needs OKP/Ed25519")
  let x ← orRefuse (decodeRawURL jwk.x) (malformed ": jwk x decode")
  refuseIf (x.length ≠ 32) (malformed ": ed25519 key wrong length")
  let valid ← verifyEd25519 x input sig
  refuseIf (valid = false) (signatureInvalid "")

def dpopVerifySig [StdLib] (alg : Bytes) (jwk : Option JWK) (input sig : Bytes) :
    Outcome ProofError Unit := do
  let jwk ← orRefuse jwk (malformed ": missing jwk")
  byAlg alg (dpopVerifyECDSA jwk input sig) (dpopVerifyRSA jwk input sig)
    (dpopVerifyEdDSA jwk input sig)
    (.error (.error ⟨.malformedProof, str ": alg " ++ StdLib.quote alg⟩))

structure BindRequest extends ProofRequest where
  requiredJKT : Bytes := []

def DpopVerifier.checkKey [StdLib] (v : DpopVerifier) (proof : ParsedProof) :
    Outcome ProofError Unit := do
  refuseIf (proof.header.typ ≠ proofTyp) (malformed ": wrong typ")
  refuseIf (proof.header.alg ∉ v.allowedAlgs)
    (.error ⟨.malformedProof, str ": alg " ++ StdLib.quote proof.header.alg ++ str " not allowed"⟩)
  dpopVerifySig proof.header.alg proof.header.jwk proof.signingInput proof.sig

def checkDPoPTarget [Url.HostLib] (method url : Bytes) (claims : ProofClaims) :
    Outcome ProofError Unit := do
  refuseIf (ProofLib.equalFold claims.htm method = false) (.error ⟨.methodMismatch, []⟩)
  let want ← (canonicalDPoPURI url).mapError uriFault
  let got ← (canonicalDPoPURI claims.htu).mapError fun _ => .error ⟨.uriMismatch, []⟩
  refuseIf (got ≠ want) (.error ⟨.uriMismatch, []⟩)

/-- `verifyAndBind` up to the identifier. -/
def DpopVerifier.inspect [StdLib] [Url.HostLib] (v : DpopVerifier) (r : BindRequest) :
    Outcome ProofError ParsedProof := do
  let proof ← parseProof r.proofJWT
  v.checkKey proof
  checkDPoPTarget r.method r.url proof.claims
  v.checkAge r.reference proof.claims.iat
  refuseIf (proof.claims.jti = []) (malformed ": missing jti")
  return proof

def dpopThumbprint [StdLib] (jwk : Option JWK) : Outcome ProofError Bytes := do
  let jwk ← orRefuse jwk (malformed ": nil jwk")
  jwk.digest

/-- `verifyAndBind` from the identifier on. -/
def bindProof [StdLib] (r : BindRequest) (proof : ParsedProof) : Outcome ProofError Bytes := do
  refuseIf (proof.claims.ath = []) (.error ⟨.athRequired, []⟩)
  refuseIf (proof.claims.ath ≠ accessTokenHash r.accessToken) (.error ⟨.athMismatch, []⟩)
  let thumb ← dpopThumbprint proof.header.jwk
  refuseIf (r.requiredJKT ≠ [] ∧ thumb ≠ r.requiredJKT) (.error ⟨.jktMismatch, []⟩)
  return thumb

def DpopVerifier.verifyAndBind [StdLib] [Url.HostLib] (v : DpopVerifier) (c : JtiOrder)
    (r : BindRequest) : Outcome ProofError Bytes × JtiOrder :=
  match v.inspect r with
  | .error e => (.error e, c)
  | .ok proof =>
    match c.rememberJTI v.jtiCap (presentation v.proofMaxAge r.cacheNow proof.claims) with
    | (false, c') => (.error (.error ⟨.replay, []⟩), c')
    | (true, c') => (bindProof r proof, c')

theorem returns_dpopVerifyECDSA {jwk : JWK} (input sig : Bytes) (curve : Curve) :
    Returns (dpopVerifyECDSA jwk input sig curve) ↔
      (jwk.kty = str "EC" → True → jwk.Fits curve) := by
  constructor
  · intro returns kty _ x y left right
    exact (returns_verifyOnCurve input sig).mp (((returns.after (refuseIf_eq_ok.mpr
      (not_not.mpr kty))).after (orRefuse_eq_ok.mpr left)).after (orRefuse_eq_ok.mpr right))
  · intro fits
    refine (returns_refuseIf _ _).bind fun _ kty => (returns_orRefuse _ _).bind fun x left => ?_
    refine (returns_orRefuse _ _).bind fun y right => (returns_verifyOnCurve input sig).mpr ?_
    exact fits (not_not.mp (refuseIf_eq_ok.mp kty)) trivial x y (orRefuse_eq_ok.mp left)
      (orRefuse_eq_ok.mp right)

theorem returns_dpopVerifyRSA (jwk : JWK) (input sig : Bytes) (pss : Bool) :
    Returns (dpopVerifyRSA jwk input sig pss) := by
  refine (returns_refuseIf _ _).bind fun _ _ => (returns_orRefuse _ _).bind fun _ _ => ?_
  refine (returns_orRefuse _ _).bind fun _ _ => (returns_refuseIf _ _).bind fun _ _ => ?_
  exact (returns_refuseIf _ _).bind fun _ _ => returns_refuseIf _ _

theorem returns_dpopVerifyEdDSA (jwk : JWK) (input sig : Bytes) :
    Returns (dpopVerifyEdDSA jwk input sig) := by
  refine (returns_refuseIf _ _).bind fun _ _ => (returns_orRefuse _ _).bind fun x _ => ?_
  refine (returns_refuseIf _ _).bind fun _ same => ?_
  have length := not_not.mp (refuseIf_eq_ok.mp same)
  exact (returns_verifyEd25519 input sig length).bind fun _ _ => returns_refuseIf _ _

variable [StdLib]

theorem returns_dpopVerifySig {hdr : ProofHeader} (input sig : Bytes) :
    Returns (dpopVerifySig hdr.alg hdr.jwk input sig) ↔ hdr.Fits fun _ => True :=
  returns_signature (fun jwk => returns_dpopVerifyRSA jwk input sig)
    (fun jwk => returns_dpopVerifyEdDSA jwk input sig) (returns_error _)
    fun _ => returns_dpopVerifyECDSA input sig

omit [ProofLib] in
theorem returns_bindProof (r : BindRequest) (proof : ParsedProof) :
    Returns (bindProof r proof) := by
  refine (returns_refuseIf _ _).bind fun _ _ => (returns_refuseIf _ _).bind fun _ _ => ?_
  refine Returns.bind ?_ fun _ _ => (returns_refuseIf _ _).bind fun _ _ => returns_ok _
  exact (returns_orRefuse _ _).bind fun jwk _ => jwk.returns_digest

variable (v : DpopVerifier)

theorem DpopVerifier.returns_checkKey {proof : ParsedProof} :
    Returns (v.checkKey proof) ↔ proof.header.typ = proofTyp → proof.header.alg ∈ v.allowedAlgs →
      proof.header.Fits fun _ => True :=
  returns_vetted (returns_dpopVerifySig _ _)

variable [Url.HostLib] {r : BindRequest}

theorem DpopVerifier.returns_inspect :
    Returns (v.inspect r) ↔ ∀ proof, parseProof r.proofJWT = .ok proof →
      Returns (v.checkKey proof) := by
  constructor
  · exact fun returns proof parsed => (returns.after parsed).first
  · intro keys
    refine (returns_parseProof _).bind fun proof parsed => (keys proof parsed).bind fun _ _ => ?_
    refine Returns.bind ?_ fun _ _ => Returns.bind ?_ fun _ _ => ?_
    · refine (returns_refuseIf _ _).bind fun _ _ => (returns_uriFault _).bind fun _ _ => ?_
      exact (returns_mapError _ _).bind fun _ _ => returns_refuseIf _ _
    · exact (returns_refuseIf _ _).bind fun _ _ => returns_refuseIf _ _
    · exact (returns_refuseIf _ _).bind fun _ _ => returns_ok proof

theorem DpopVerifier.returns_verifyAndBind (c : JtiOrder) :
    Returns (v.verifyAndBind c r).1 ↔ Returns (v.inspect r) := by
  constructor
  · intro returns panics
    rw [DpopVerifier.verifyAndBind, panics] at returns
    exact returns rfl
  · intro returns
    unfold DpopVerifier.verifyAndBind
    split
    next refused => exact returns.of_error refused
    rename_i proof _
    split
    · exact returns_error _
    · exact returns_bindProof r proof

theorem DpopVerifier.inspect_eq_ok {v : DpopVerifier} {proof : ParsedProof}
    (done : v.inspect r = .ok proof) :
    parseProof r.proofJWT = .ok proof ∧
      ¬TooOld r.reference proof.claims.iat (v.proofMaxAge + v.clockSkewMax) := by
  obtain ⟨_, decoded, done⟩ := of_bind done
  obtain ⟨-, done⟩ := unit_bind_eq_ok.mp done
  obtain ⟨-, done⟩ := unit_bind_eq_ok.mp done
  obtain ⟨young, done⟩ := unit_bind_eq_ok.mp done
  obtain ⟨-, done⟩ := of_refuseIf done
  cases done
  obtain ⟨-, young⟩ := of_refuseIf young
  exact ⟨decoded, refuseIf_eq_ok.mp young⟩

theorem DpopVerifier.inspect_of_verifyAndBind {v : DpopVerifier} {c : JtiOrder}
    (accepted : (v.verifyAndBind c r).1.isOk = true) : ∃ proof, v.inspect r = .ok proof := by
  unfold DpopVerifier.verifyAndBind at accepted
  split at accepted
  · cases accepted
  next proof inspected => exact ⟨proof, inspected⟩

def DpopVerifier.guard (v : DpopVerifier) : Guard BindRequest (Fault ProofError) Bytes Bytes Time :=
  proofGuard v.proofMaxAge (·.toProofRequest) v.inspect bindProof

theorem DpopVerifier.verifyAndBind_eq (c : JtiOrder) (r : BindRequest) :
    v.verifyAndBind c r = v.guard.serve (jtiOrder v.jtiCap) c r := by
  unfold DpopVerifier.verifyAndBind
  cases inspected : v.inspect r with
  | error => exact (serve_of_refused inspected).symm
  | ok proof =>
    simp only [DpopVerifier.guard, serve_of_inspected inspected]
    cases asked : c.rememberJTI v.jtiCap (presentation v.proofMaxAge r.cacheNow proof.claims) with
    | mk fresh => cases fresh <;> simp [jtiOrder, asked]

end

end TheAuth.Mcp
