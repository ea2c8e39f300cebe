import TheAuth.Mcp.Dpop

/-!
# What the verifiers of DPoP proofs guarantee

Neither verifier panics for a key whose coordinates fit its curve. What they accept is no further
from the time of the request than the age limit and the clock skew, unless the difference is no
duration. They accept a proof once while it is younger than the age limit.
-/

set_option autoImplicit false

namespace TheAuth.Mcp

open Go Dpop Library.Result Library.ReplayGuard Service StdLib

@[reducible]
def reading (headers : List (Bytes × ProofHeader)) (claims : List (Bytes × ProofClaims)) :
    ProofLib where
  unmarshalHeader text := headers.lookup text
  unmarshalClaims text := claims.lookup text
  newPublicKey _ _ := true
  ecdsaVerify _ _ _ _ _ _ := true
  rsaVerify _ _ _ _ _ := true
  ed25519Verify _ _ _ := true
  sum384 := id
  equalFold a b := a == b
  durationString _ := []

def proofText (header claims : Bytes) : Bytes :=
  base64RawURL header ++ str "." ++ base64RawURL claims ++ str "." ++ base64RawURL (str "signature")

def sampleX : String := "AAAAAAAAAAAAAAAAAAAAAAAAAAAAAAAAAAAAAAAAAAA"

def sampleHeader : Bytes × ProofHeader :=
  (str ("\x7b\"typ\":\"dpop+jwt\",\"alg\":\"EdDSA\",\"jwk\":\x7b\"kty\":\"OKP\"," ++
      "\"crv\":\"Ed25519\",\"x\":\"" ++ sampleX ++ "\"\x7d\x7d"),
    ⟨str "dpop+jwt", str "EdDSA", some ⟨str "OKP", str "Ed25519", str sampleX, [], [], []⟩⟩)

def sampleAth : String := "PEaenWxYddN6Q_NT1PiOYfz4EsZu7jRXRlpAsNpBU-A"

def sampleClaims (iat : String) (seconds : Int64) : Bytes × ProofClaims :=
  (str ("\x7b\"jti\":\"j\",\"htm\":\"GET\",\"htu\":\"https://a/\",\"iat\":" ++ iat ++
      ",\"ath\":\"" ++ sampleAth ++ "\"\x7d"),
    ⟨str "j", str "GET", str "https://a/", seconds, str sampleAth, []⟩)

def sampleRequest (header : Bytes × ProofHeader) (claims : Bytes × ProofClaims) (now : Int) :
    ProofRequest where
  proofJWT := proofText header.1 claims.1
  method := str "GET"
  url := str "https://a/"
  accessToken := str "token"
  clock := Time.unix now
  cacheNow := Time.unix now

def sampleParsed (header : Bytes × ProofHeader) (claims : Bytes × ProofClaims) : ParsedProof where
  header := header.2
  claims := claims.2
  sig := str "signature"
  signingInput := base64RawURL header.1 ++ str "." ++ base64RawURL claims.1

def proof2020 : Bytes × ProofClaims := sampleClaims "1577836800" 1577836800

def proof2318 : Bytes × ProofClaims := sampleClaims "11000000000" 11000000000

def sampleService : Service where
  allowedAlgs := defaultAllowedAlgs
  proofMaxAge := 60 * Duration.second
  clockSkew := 0
  nonceTTL := 600 * Duration.second
  nonceSecret := str "secret"
  replay := false
  jtiCap := 4096

attribute [local instance] refusing anyHost

theorem new_sampleService : new {} (some (str "secret")) = some sampleService := rfl

def sampleVerifier : DpopVerifier := newDPoPVerifier [] 0 (60 * Duration.second) 0

theorem parse_proof2020 :
    letI := reading [sampleHeader] [proof2020]
    parseProof (proofText sampleHeader.1 proof2020.1) =
      .ok (sampleParsed sampleHeader proof2020) := by
  decide +kernel

section

variable [ProofLib]

def distance (r : ProofRequest) : Option ℕ :=
  (parseProof r.proofJWT).toOption.map fun proof =>
    (r.reference - Time.unix proof.claims.iat.toInt).natAbs

/-- No difference of times is cut to a duration: the proof is less than 2^63 nanoseconds ahead, or
within the bound, and where the bound is the largest duration not further back than that. -/
def Uncut (r : ProofRequest) (age skew : Duration) : Prop :=
  ∀ proof, parseProof r.proofJWT = .ok proof →
    let issued := Time.unix proof.claims.iat.toInt
    (issued - r.reference < 2 ^ 63 ∨ issued - r.reference ≤ age.toInt + skew.toInt) ∧
      (age + skew = Int64.maxValue → r.reference - issued ≤ age.toInt + skew.toInt)

theorem distance_le_iff {r : ProofRequest} {proof : ParsedProof} {age skew : Duration}
    (parsed : parseProof r.proofJWT = .ok proof) (nonneg : 0 ≤ age.toInt)
    (young : ¬TooOld r.reference proof.claims.iat (age + skew)) :
    ∃ d, distance r = some d ∧ ((d : Int) ≤ age.toInt + skew.toInt ↔ Uncut r age skew) := by
  refine ⟨_, by rw [distance, parsed]; rfl, (Time.natAbs_sub_le_iff nonneg young).trans ?_⟩
  constructor
  · intro uncut _ same
    cases parsed.symm.trans same
    exact uncut
  · exact fun uncut => uncut proof parsed

variable [StdLib] [Url.HostLib]

/-- **An accepted proof is close in time**, exactly where no difference of times is cut. -/
theorem accepted_within_age_iff :
    (∀ (cfg : Config) (secret : Option Bytes) (s : Service) (m : JtiList) (r : VerifyRequest),
      new cfg secret = some s → (s.verify m r).1.isOk = true →
      ∃ d, distance r.toProofRequest = some d ∧
        ((d : Int) ≤ s.proofMaxAge.toInt + s.clockSkew.toInt ↔
          Uncut r.toProofRequest s.proofMaxAge s.clockSkew)) ∧
    (∀ (algs : List Bytes) (maxAge skew : Duration) (cap : Int) (c : JtiOrder) (r : BindRequest),
      let v := newDPoPVerifier algs maxAge skew cap
      (v.verifyAndBind c r).1.isOk = true →
      ∃ d, distance r.toProofRequest = some d ∧
        ((d : Int) ≤ v.proofMaxAge.toInt + v.clockSkewMax.toInt ↔
          Uncut r.toProofRequest v.proofMaxAge v.clockSkewMax)) := by
  constructor
  · intro _ _ _ _ r made accepted
    obtain ⟨_, inspected⟩ := inspect_of_verify accepted
    obtain ⟨parsed, young⟩ := inspect_eq_ok inspected
    exact distance_le_iff parsed (proofMaxAge_nonneg made) young
  · intro _ _ _ _ _ _ _ accepted
    obtain ⟨_, inspected⟩ := DpopVerifier.inspect_of_verifyAndBind accepted
    obtain ⟨parsed, young⟩ := DpopVerifier.inspect_eq_ok inspected
    exact distance_le_iff parsed (orDefault_nonneg _ (by decide)) young

end

theorem accepted_within_age_after_a_minute :
    letI := reading [sampleHeader] [proof2020]
    let r := sampleRequest sampleHeader proof2020 1577836860
    ∃ d, distance r = some d ∧ (d : Int) ≤ 60000000000 + 0 ∧
      (d : Int) ≤ 60000000000 + 60000000000 := by
  let := reading [sampleHeader] [proof2020]
  have uncut : ∀ age skew : Duration, age + skew ≠ Int64.maxValue →
      Uncut (sampleRequest sampleHeader proof2020 1577836860) age skew := by
    intro _ _ small _ parsed
    obtain rfl := Except.ok.inj (parsed.symm.trans parse_proof2020)
    exact ⟨.inl (by decide +kernel), (absurd · small)⟩
  obtain ⟨d, here, close⟩ := accepted_within_age_iff.1 {} _ sampleService ∅
    ⟨sampleRequest sampleHeader proof2020 1577836860, false, fun _ _ => .ok false⟩
    new_sampleService (by decide +kernel)
  obtain ⟨_, here', close'⟩ := accepted_within_age_iff.2 [] 0 (60 * Duration.second) 0 {}
    ⟨sampleRequest sampleHeader proof2020 1577836860, []⟩ (by decide +kernel)
  obtain rfl := Option.some.inj (here.symm.trans here')
  exact ⟨d, here, close.mpr (uncut _ _ (by decide)), close'.mpr (uncut _ _ (by decide))⟩

/-- **A proof that is issued three centuries ahead is accepted.** -/
theorem far_future_proof_accepted :
    letI := reading [sampleHeader] [proof2318]
    let r := sampleRequest sampleHeader proof2318 1577836800
    new {} (some (str "secret")) = some sampleService ∧
      (sampleService.verify ∅ ⟨r, false, fun _ _ => .ok false⟩).1.isOk = true ∧
      ((newDPoPVerifier [] 0 (60 * Duration.second) 0).verifyAndBind {} ⟨r, []⟩).1.isOk = true ∧
      distance r = some 9422163200000000000 := by
  refine ⟨rfl, ?_, ?_, ?_⟩ <;> decide +kernel

/-- **When the verifiers return**: unless they copy a coordinate that does not fit its curve. -/
theorem verifiers_return_iff [ProofLib] [StdLib] [Url.HostLib] :
    (∀ (s : Service) (m : JtiList) (r : VerifyRequest),
      Returns (s.verify m r).1 ↔ ∀ proof, parseProof r.proofJWT = .ok proof →
        proof.header.typ = proofTyp → proof.header.alg ∈ s.allowedAlgs →
        proof.header.Fits fun jwk => ¬(jwk.x = [] ∨ jwk.y = [])) ∧
    (∀ (v : DpopVerifier) (c : JtiOrder) (r : BindRequest),
      Returns (v.verifyAndBind c r).1 ↔ ∀ proof, parseProof r.proofJWT = .ok proof →
        proof.header.typ = proofTyp → proof.header.alg ∈ v.allowedAlgs →
        proof.header.Fits fun _ => True) := by
  constructor
  · intro s m r
    rw [returns_verify, returns_inspect]
    exact forall₂_congr fun _ _ => s.returns_checkKey
  · intro v c r
    rw [v.returns_verifyAndBind, v.returns_inspect]
    exact forall₂_congr fun _ _ => v.returns_checkKey

def longHeader : Bytes × ProofHeader :=
  (str ("\x7b\"typ\":\"dpop+jwt\",\"alg\":\"ES256\",\"jwk\":\x7b\"kty\":\"EC\"," ++
      "\"crv\":\"P-256\",\"x\":\"AAA" ++ sampleX ++ "\",\"y\":\"AA\"\x7d\x7d"),
    ⟨str "dpop+jwt", str "ES256",
      some ⟨str "EC", str "P-256", str ("AAA" ++ sampleX), str "AA", [], []⟩⟩)

/-- **A coordinate that is too long makes both verifiers panic.** -/
theorem long_coordinate_panics :
    letI := reading [longHeader] [proof2020]
    let r := sampleRequest longHeader proof2020 1577836860
    (sampleService.verify ∅ ⟨r, false, fun _ _ => .ok false⟩).1 = .error .panic ∧
      (sampleVerifier.verifyAndBind {} ⟨r, []⟩).1 = .error .panic := by
  decide +kernel

/-- **A proof is accepted once**, if the requests that reach the cache do so in order and before the
age limit, and it has room. -/
theorem proof_accepted_once [ProofLib] [StdLib] [Url.HostLib] :
    (∀ (s : Service) (requests : List VerifyRequest), s.replay = false →
      requests.Pairwise (fun one two => one.cacheNow ≤ two.cacheNow) →
      (∀ r ∈ requests, ∀ proof, s.inspect r = .ok proof → r.Remembers proof s.proofMaxAge) →
      (requests.map fun r => r.proofId).dedup.length < s.jtiCap →
      ((acceptedBy s.verify ∅ requests).map fun r => r.proofId).Nodup) ∧
    (∀ (v : DpopVerifier) (requests : List BindRequest),
      requests.Pairwise (fun one two => one.cacheNow ≤ two.cacheNow) →
      (∀ r ∈ requests, ∀ proof, v.inspect r = .ok proof → r.Remembers proof v.proofMaxAge) →
      (requests.map fun r => r.proofId).dedup.length < v.jtiCap →
      ((acceptedBy v.verifyAndBind {} requests).map fun r => r.proofId).Nodup) := by
  constructor
  · intro s requests process ordered inTime room
    rw [show s.verify = s.guard.serve (jtiList s.jtiCap) from
      funext fun m => funext (verify_eq process m), ← Guard.accepted_eq]
    exact proofGuard_accepted_nodup (fun passed => (inspect_eq_ok passed).1) id id rfl
      ordered inTime room
  · intro v _ ordered inTime room
    rw [show v.verifyAndBind = v.guard.serve (jtiOrder v.jtiCap) from
      funext fun c => funext (v.verifyAndBind_eq c), ← Guard.accepted_eq]
    exact proofGuard_accepted_nodup (fun passed => (DpopVerifier.inspect_eq_ok passed).1) id id rfl
      ordered inTime room

variable (later : List Int)

def presented : List ProofRequest :=
  later.map fun seconds => sampleRequest sampleHeader proof2020 (1577836800 + seconds)

def presentedToServer : List VerifyRequest :=
  (presented later).map fun r => ⟨r, false, fun _ _ => .ok false⟩

def presentedToResource : List BindRequest := (presented later).map fun r => ⟨r, []⟩

theorem proof_accepted_once_in_half_a_minute :
    letI := reading [sampleHeader] [proof2020]
    ((acceptedBy sampleService.verify ∅ (presentedToServer [0, 30])).map
        fun r => r.proofId).Nodup ∧
      ((acceptedBy sampleVerifier.verifyAndBind {} (presentedToResource [0, 30])).map
        fun r => r.proofId).Nodup := by
  let := reading [sampleHeader] [proof2020]
  have soon : ∀ r ∈ presented [0, 30], ∀ proof, parseProof r.proofJWT = .ok proof →
      r.Remembers proof (60 * Duration.second) := by
    have early : ∀ seconds ∈ ([0, 30] : List Int), Time.unix (1577836800 + seconds) <
        (Time.ofUnix proof2020.2.iat).add (60 * Duration.second) := by decide +kernel
    intro r inside _ parsed
    obtain ⟨seconds, listed, rfl⟩ := List.mem_map.mp inside
    obtain rfl := Except.ok.inj (parsed.symm.trans parse_proof2020)
    exact early seconds listed
  refine ⟨proof_accepted_once.1 sampleService (presentedToServer [0, 30]) rfl (by decide +kernel) ?_
    (by decide +kernel), proof_accepted_once.2 sampleVerifier (presentedToResource [0, 30])
    (by decide +kernel) ?_ (by decide +kernel)⟩
  all_goals
    intro _ inside _ passed
    obtain ⟨own, listed, rfl⟩ := List.mem_map.mp inside
  · exact soon own listed _ (inspect_eq_ok passed).1
  · exact soon own listed _ (DpopVerifier.inspect_eq_ok passed).1

/-- **A proof is accepted twice**, within the clock skew after the age limit. -/
theorem proof_accepted_twice :
    letI := reading [sampleHeader] [proof2020]
    (acceptedBy sampleService.verify ∅ (presentedToServer [0, 60])).map (fun r => r.proofId) =
        [some (str "j", 1577836800), some (str "j", 1577836800)] ∧
      (acceptedBy sampleVerifier.verifyAndBind {} (presentedToResource [0, 90])).map
          (fun r => r.proofId) =
        [some (str "j", 1577836800), some (str "j", 1577836800)] := by
  decide +kernel

end TheAuth.Mcp
