import Mathlib.Algebra.Order.Group.Int
import Mathlib.Data.List.DropRight
import TheAuth.Dpop.Proof
import TheAuth.Dpop.Uri
import TheAuth.Go.Map
import TheAuth.Library.ReplayGuard

/-!
# The verifier of the authorization server

The identifier of a proof that passed its checks is remembered until the age limit after its time of
issue. The age check lets a proof pass for longer, up to the age limit and the clock skew.
-/

set_option autoImplicit false

namespace TheAuth.Dpop

open Go Library.Result Library.ReplayGuard List Option AList

/-- A request with a proof. -/
structure ProofRequest where
  (proofJWT method url : Bytes)
  accessToken : Bytes := []
  now : Time := 0
  (clock cacheNow : Time)

def orClock (now clock : Time) : Time := if now = 0 then clock else now

def ProofRequest.reference (r : ProofRequest) : Time := orClock r.now r.clock

structure VerifyRequest extends ProofRequest where
  requireNonce : Bool := false
  seen : Bytes → Duration → Except Bytes Bool := fun _ _ => .ok false

structure Config where
  allowedSignAlgs : List Bytes := []
  (proofMaxAge clockSkew nonceTTL : Duration := 0)
  nonceSecret : Bytes := []
  replayCache : Bool := false
  jtiReplayWindow : Int := 0

/-- The verifier of the server. -/
structure Service where
  allowedAlgs : List Bytes
  (proofMaxAge clockSkew nonceTTL : Duration)
  nonceSecret : Bytes
  replay : Bool
  jtiCap : ℕ

def orDefault (d default : Duration) : Duration := if d ≤ 0 then default else d

def capOrDefault (cap : Int) : ℕ := if cap ≤ 0 then 4096 else cap.toNat

def Service.new [StdLib] (cfg : Config) (newNonceSecret : Option Bytes) : Option Service :=
  let allowed := if cfg.allowedSignAlgs = [] then defaultAllowedAlgs else cfg.allowedSignAlgs
  (if cfg.nonceSecret = [] then newNonceSecret else some cfg.nonceSecret).map fun secret =>
    { allowedAlgs := allowed.map StdLib.trimSpace
      proofMaxAge := orDefault cfg.proofMaxAge (60 * Duration.second)
      clockSkew := cfg.clockSkew
      nonceTTL := orDefault cfg.nonceTTL (600 * Duration.second)
      nonceSecret := secret
      replay := cfg.replayCache
      jtiCap := capOrDefault cfg.jtiReplayWindow }

theorem orDefault_nonneg (d : Duration) {default : Duration} (nonneg : 0 ≤ default.toInt) :
    0 ≤ (orDefault d default).toInt := by
  unfold orDefault
  split
  · exact nonneg
  rename_i positive
  rw [Int64.le_iff_toInt_le, Int.not_le] at positive
  exact Int.le_of_lt positive

theorem Service.proofMaxAge_nonneg [StdLib] {cfg : Config} {secret : Option Bytes} {s : Service}
    (made : Service.new cfg secret = some s) : 0 ≤ s.proofMaxAge.toInt := by
  obtain ⟨_, -, rfl⟩ := map_eq_some_iff.mp made
  exact orDefault_nonneg _ (by decide)

/-! ## The memory of proofs -/

abbrev JtiList := GoMap Bytes Time

def expired (now expires : Time) : Bool := decide ¬now < expires

def sweep (now : Time) (m : JtiList) : JtiList where
  entries := m.entries.rdropWhile fun entry => expired now entry.2
  nodupKeys :=
    have front := List.rdropWhile_prefix _ m.entries
    m.nodupKeys.sublist front.sublist

def evict (cap : ℕ) (m : JtiList) : JtiList :=
  ⟨m.entries.take (cap - 1), m.nodupKeys.sublist (List.take_sublist _ _)⟩

def rememberJTI (cap : ℕ) (m : JtiList) (p : Presentation Bytes Time) : Bool × JtiList :=
  if (m.lookup p.key).any fun expires => !expired p.now expires then (false, m)
  else (true, AList.insert p.key p.deadline (evict cap (sweep p.now (m.erase p.key))))

variable {expires : Time} {now : Time}

theorem expired_eq_true : expired now expires = true ↔ ¬now < expires := decide_eq_true_iff

variable {m : JtiList} {key : Bytes}

theorem lookup_sweep (here : m.lookup key = some expires) (live : now < expires) :
    (sweep now m).lookup key = some expires := by
  have stored := mem_lookup_iff.mp here
  refine mem_lookup_iff.mpr ?_
  rw [← @List.rdropWhile_append_rtakeWhile _ (fun entry => expired now entry.2) m.entries] at stored
  refine (mem_append.mp stored).resolve_right fun dropped => ?_
  have past : expired now expires = true :=
    mem_rtakeWhile_imp (p := fun entry : Sigma fun _ : Bytes => Time => expired now entry.2)
      dropped
  exact expired_eq_true.mp past live

theorem evict_eq {cap : ℕ} (room : m.entries.length < cap) : evict cap m = m := by
  unfold evict
  congr
  exact take_of_length_le (Nat.le_sub_one_of_lt room)

theorem lookup_of_sweep
    (here : (sweep now m).lookup key = some expires) : m.lookup key = some expires := by
  have front := rdropWhile_prefix (fun entry => expired now entry.2) m.entries
  exact mem_lookup_iff.mpr (front.sublist.subset (mem_lookup_iff.mp here))

theorem lookup_of_evict {cap : ℕ}
    (here : (evict cap m).lookup key = some expires) : m.lookup key = some expires :=
  mem_lookup_iff.mpr (mem_of_mem_take (mem_lookup_iff.mp here))

theorem length_sweep_erase_le (now : Time) (m : JtiList) (key : Bytes) :
    (sweep now (m.erase key)).entries.length ≤ m.entries.length := by
  have front := rdropWhile_prefix (fun entry => expired now entry.2) (m.erase key).entries
  exact (front.sublist.trans (kerase_sublist key m.entries)).length_le

section

variable {cap : ℕ} {m : JtiList} {p : Presentation Bytes Time}

theorem rememberJTI_cases (cap : ℕ) (m : JtiList) (p : Presentation Bytes Time) :
    (∃ expires, m.lookup p.key = some expires ∧ p.now < expires ∧
      rememberJTI cap m p = (false, m)) ∨
    (∀ expires, m.lookup p.key = some expires → ¬p.now < expires) ∧
      rememberJTI cap m p =
        (true, AList.insert p.key p.deadline (evict cap (sweep p.now (m.erase p.key)))) := by
  unfold rememberJTI
  cases here : m.lookup p.key with
  | none => exact .inr ⟨nofun, rfl⟩
  | some expires =>
    by_cases live : p.now < expires
    · simp [expired, live]
    · refine .inr ⟨fun _ same => some.inj same ▸ live, if_neg ?_⟩
      simp [expired, live]

theorem rememberJTI_iff :
    (rememberJTI cap m p).1 = true ↔
      ∀ expires, m.lookup p.key = some expires → ¬p.now < expires := by
  rcases rememberJTI_cases cap m p with ⟨expires, here, live, done⟩ | ⟨new, done⟩ <;> rw [done]
  · exact ⟨(nomatch ·), fun new => absurd live (new expires here)⟩
  · exact ⟨fun _ => new, fun _ => rfl⟩

end

def jtiList (cap : ℕ) : Memory Bytes Time JtiList where
  past expires now := ¬now < expires
  past_of_le := @Time.not_lt_of_le
  seen m key := m.lookup key
  size m := m.entries.length
  fits n := n < cap
  fits_of_le := Nat.lt_of_le_of_lt
  offer := rememberJTI cap
  offer_iff := rememberJTI_iff
  seen_admitted := by
    intro m p admitted
    rcases rememberJTI_cases cap m p with ⟨_, _, _, done⟩ | ⟨_, done⟩
    · rw [done] at admitted
      cases admitted
    · rw [done]
      exact AList.lookup_insert _
  keeps := by
    intro m p key expires room here live
    rcases rememberJTI_cases cap m p with ⟨_, _, _, done⟩ | ⟨new, done⟩
    · rw [done]
      exact here
    · have other : key ≠ p.key := by
        rintro rfl
        exact live (new expires here)
      have kept : (sweep p.now (m.erase p.key)).lookup key = some expires :=
        lookup_sweep ((AList.lookup_erase_ne other).trans here) (not_not.mp live)
      have still := Nat.lt_of_le_of_lt (length_sweep_erase_le p.now m p.key) room
      rw [done, GoMap.lookup_insert_eq, if_neg other, evict_eq still]
      exact kept
  seen_of := by
    intro m p key expires here
    rcases rememberJTI_cases cap m p with ⟨_, _, _, done⟩ | ⟨new, done⟩ <;> rw [done] at here ⊢
    · exact .inr here
    · rw [GoMap.lookup_insert_eq] at here
      split at here
      next same => exact .inl ⟨rfl, same⟩
      · exact .inr (GoMap.lookup_of_lookup_erase (lookup_of_sweep (lookup_of_evict here)))
  size_offer := by
    intro m p
    rcases rememberJTI_cases cap m p with ⟨_, _, _, done⟩ | ⟨new, done⟩ <;> rw [done]
    · exact Nat.le_refl _
    · have smaller : (evict cap (sweep p.now (m.erase p.key))).entries.length ≤ m.entries.length :=
        Nat.le_trans (List.take_sublist _ _).length_le (length_sweep_erase_le p.now m p.key)
      rw [AList.entries_insert]
      exact Nat.succ_le_succ (Nat.le_trans (List.kerase_sublist _ _).length_le smaller)

/-! ## Checks -/

def uriFault : UriError → Fault ProofError
  | .parse => .error ⟨.uriInvalid, []⟩
  | .notAbsolute text => .error ⟨.uriInvalid, text⟩

def nonceVersion : UInt8 := 1

def nonceLen : ℕ := 1 + 8 + sha256Size

def nonceInvalid (detail : Bytes) : Fault ProofError := .error ⟨.nonceInvalid, detail⟩

section

variable [StdLib] [ProofLib] [Url.HostLib]

omit [StdLib] [Url.HostLib] in
def Service.checkKey (s : Service) (proof : ParsedProof) : Outcome ProofError Unit := do
  refuseIf (proof.header.typ ≠ proofTyp) (joinErr .malformedProof [(str "typ", proof.header.typ)])
  refuseIf (proof.header.alg ∉ s.allowedAlgs)
    (joinErr .unsupportedAlg [(str "alg", proof.header.alg)])
  verifySignature proof.header.alg proof.header.jwk proof.signingInput proof.sig

def checkTarget (method url : Bytes) (claims : ProofClaims) : Outcome ProofError Unit := do
  refuseIf (ProofLib.equalFold claims.htm method = false)
    (joinErr .methodMismatch [(str "htm", claims.htm), (str "method", method)])
  let want ← (canonicalURI url).mapError uriFault
  let got ← (canonicalURI claims.htu).mapError fun _ =>
    joinErr .uriMismatch [(str "htu", claims.htu)]
  refuseIf (got ≠ want) (joinErr .uriMismatch [(str "htu", got), (str "want", want)])

/-- The proof is further from the time than the bound, as durations are computed. -/
def TooOld (now : Time) (iat : Int64) (bound : Duration) : Prop :=
  bound < Duration.abs (now.sub (Time.ofUnix iat))

instance (now : Time) (iat : Int64) (bound : Duration) : Decidable (TooOld now iat bound) :=
  inferInstanceAs (Decidable (_ < _))

def Service.checkAge (s : Service) (now : Time) (iat : Int64) : Outcome ProofError Unit := do
  refuseIf (iat = 0) (joinErr .proofExpired [(str "iat", str "missing")])
  refuseIf (TooOld now iat (s.proofMaxAge + s.clockSkew))
    (joinErr .proofExpired
      [(str "age", ProofLib.durationString (now.sub (Time.ofUnix iat))),
        (str "max", ProofLib.durationString s.proofMaxAge)])

def nonceLives (iat now : Time) (ttl : Duration) : Outcome ProofError Unit := do
  refuseIf (ttl < now.sub iat)
    (nonceInvalid (str ": expired (age=" ++ ProofLib.durationString (now.sub iat) ++
      str ", ttl=" ++ ProofLib.durationString ttl ++ str ")"))
  refuseIf (ttl < iat.sub now) (nonceInvalid (str ": iat in the future"))

def verifyNonce (secret nonce : Bytes) (ttl : Duration) (now clock : Time) :
    Outcome ProofError Unit := do
  refuseIf (nonce = []) (nonceInvalid [])
  let raw ← orRefuse (decodeRawURL nonce) (nonceInvalid (str ": decode"))
  refuseIf (raw.length ≠ nonceLen ∨ raw.head? ≠ some nonceVersion)
    (nonceInvalid (str ": wrong shape"))
  let signed ← sliceTo raw 9
  let mac ← sliceFrom raw 9
  refuseIf (hmac256 secret signed ≠ mac) (nonceInvalid (str ": hmac mismatch"))
  let seconds ← sliceFrom signed 1
  nonceLives (Time.ofUnix (Int64.ofNat (natOfBytes seconds))) (orClock now clock) ttl

def Service.checkPresentNonce (s : Service) (nonce : Bytes) (now clock : Time) :
    Outcome ProofError Unit :=
  if nonce = [] then .ok ()
  else do
    refuseIf (s.nonceSecret = []) (.error ⟨.nonceSecretRequired, []⟩)
    verifyNonce s.nonceSecret nonce s.nonceTTL now clock

def Service.checkNonce (s : Service) (required : Bool) (nonce : Bytes) (now clock : Time) :
    Outcome ProofError Unit := do
  refuseIf (required = true ∧ nonce = []) (.error ⟨.nonceRequired, []⟩)
  s.checkPresentNonce nonce now clock

def Service.inspect (s : Service) (r : VerifyRequest) : Outcome ProofError ParsedProof := do
  let proof ← parseProof r.proofJWT
  s.checkKey proof
  checkTarget r.method r.url proof.claims
  s.checkAge r.reference proof.claims.iat
  s.checkNonce r.requireNonce proof.claims.nonce r.reference r.clock
  refuseIf (proof.claims.jti = []) (joinErr .malformedProof [(str "jti", str "missing")])
  return proof

def accessTokenHash (token : Bytes) : Bytes := base64RawURL (sum256 token)

omit [ProofLib] [Url.HostLib] in
def JWK.canonicalText (jwk : JWK) : Option Bytes :=
  if jwk.kty = str "EC" then
    some (str "\x7b\"crv\":" ++ StdLib.quote jwk.crv ++ str ",\"kty\":\"EC\",\"x\":" ++
      StdLib.quote jwk.x ++ str ",\"y\":" ++ StdLib.quote jwk.y ++ str "\x7d")
  else if jwk.kty = str "RSA" then
    some (str "\x7b\"e\":" ++ StdLib.quote jwk.e ++ str ",\"kty\":\"RSA\",\"n\":" ++
      StdLib.quote jwk.n ++ str "\x7d")
  else if jwk.kty = str "OKP" then
    some (str "\x7b\"crv\":" ++ StdLib.quote jwk.crv ++ str ",\"kty\":\"OKP\",\"x\":" ++
      StdLib.quote jwk.x ++ str "\x7d")
  else none

def JWK.checkMembers (jwk : JWK) : Outcome ProofError Unit :=
  if jwk.kty = str "EC" then
    refuseIf (jwk.crv = [] ∨ jwk.x = [] ∨ jwk.y = []) (malformed ": EC jwk missing crv/x/y")
  else if jwk.kty = str "RSA" then
    refuseIf (jwk.n = [] ∨ jwk.e = []) (malformed ": RSA jwk missing n/e")
  else if jwk.kty = str "OKP" then
    refuseIf (jwk.crv = [] ∨ jwk.x = []) (malformed ": OKP jwk missing crv/x")
  else .ok ()

def JWK.digest (jwk : JWK) : Outcome ProofError Bytes := do
  let text ← orRefuse jwk.canonicalText
    (.error ⟨.malformedProof, str ": unsupported kty " ++ StdLib.quote jwk.kty⟩)
  return base64RawURL (sum256 text)

def thumbprint (jwk : Option JWK) : Outcome ProofError Bytes := do
  let jwk ← orRefuse jwk (malformed ": nil jwk")
  jwk.checkMembers
  jwk.digest

structure Proof where
  header : ProofHeader
  claims : ProofClaims
  thumbprint : Bytes
  deriving DecidableEq

def checkAth (accessToken ath : Bytes) : Outcome ProofError Unit :=
  if accessToken = [] then .ok ()
  else do
    refuseIf (ath = []) (.error ⟨.athRequired, []⟩)
    refuseIf (ath ≠ accessTokenHash accessToken)
      (joinErr .athMismatch [(str "got", ath), (str "want", accessTokenHash accessToken)])

def conclude (r : VerifyRequest) (proof : ParsedProof) : Outcome ProofError Proof := do
  checkAth r.accessToken proof.claims.ath
  let thumb ← thumbprint proof.header.jwk
  return ⟨proof.header, proof.claims, thumb⟩

def presentation (maxAge : Duration) (cacheNow : Time) (claims : ProofClaims) :
    Presentation Bytes Time :=
  ⟨cacheNow, claims.jti, (Time.ofUnix claims.iat).add maxAge⟩

def sharedTTL (p : Presentation Bytes Time) : Duration :=
  if p.deadline.sub p.now < Duration.second then Duration.second else p.deadline.sub p.now

def Service.checkJTI (s : Service) (m : JtiList) (r : VerifyRequest)
    (p : Presentation Bytes Time) : Outcome ProofError Bool × JtiList :=
  if s.replay then
    match r.seen (str "dpop:jti:" ++ p.key) (sharedTTL p) with
    | .error text => (.error (joinErr .replayStore [(str "err", text)]), m)
    | .ok already => (.ok !already, m)
  else (.ok (rememberJTI s.jtiCap m p).1, (rememberJTI s.jtiCap m p).2)

def Service.verify (s : Service) (m : JtiList) (r : VerifyRequest) :
    Outcome ProofError Proof × JtiList :=
  match s.inspect r with
  | .error e => (.error e, m)
  | .ok proof =>
    match s.checkJTI m r (presentation s.proofMaxAge r.cacheNow proof.claims) with
    | (.error e, m') => (.error e, m')
    | (.ok false, m') => (.error (.error ⟨.replay, []⟩), m')
    | (.ok true, m') => (conclude r proof, m')

end

section

variable {R A M : Type} {maxAge : Duration} {request : R → ProofRequest}
  {inspect : R → Outcome ProofError ParsedProof} {conclude : R → ParsedProof → Outcome ProofError A}

/-- The verifier as a guard with a memory. -/
def proofGuard (maxAge : Duration) (request : R → ProofRequest)
    (inspect : R → Outcome ProofError ParsedProof)
    (conclude : R → ParsedProof → Outcome ProofError A) :
    Guard R (Fault ProofError) A Bytes Time where
  present r := (inspect r).map fun proof =>
    presentation maxAge (request r).cacheNow proof.claims
  replayed _ := .error ⟨.replay, []⟩
  finish r := inspect r >>= conclude r

variable {mem : Memory Bytes Time M} {m : M} {r : R}

theorem serve_of_refused {e : Fault ProofError} (refused : inspect r = .error e) :
    (proofGuard maxAge request inspect conclude).serve mem m r = (.error e, m) := by
  refine Guard.serve_of_error ?_
  change Except.map _ (inspect r) = _
  rw [refused]
  rfl

variable {proof : ParsedProof}

theorem serve_of_inspected (passed : inspect r = .ok proof) :
    (proofGuard maxAge request inspect conclude).serve mem m r =
      (if (mem.offer m (presentation maxAge (request r).cacheNow proof.claims)).1 then
          conclude r proof
        else .error (.error ⟨.replay, []⟩),
        (mem.offer m (presentation maxAge (request r).cacheNow proof.claims)).2) := by
  have here : (proofGuard maxAge request inspect conclude).present r =
      .ok (presentation maxAge (request r).cacheNow proof.claims) := by
    change Except.map _ (inspect r) = _
    rw [passed]
    rfl
  have finish : (proofGuard maxAge request inspect conclude).finish r = conclude r proof := by
    change inspect r >>= conclude r = _
    rw [passed]
    rfl
  rw [Guard.serve_of_ok here, finish]
  rfl

theorem exists_inspected {p : Presentation Bytes Time}
    (here : (proofGuard maxAge request inspect conclude).presented r = some p) :
    ∃ proof, inspect r = .ok proof ∧ p = presentation maxAge (request r).cacheNow proof.claims := by
  have here := Guard.presented_eq_some.mp here
  change Except.map _ (inspect r) = _ at here
  cases passed : inspect r with
  | error =>
    rw [passed] at here
    cases here
  | ok proof =>
    rw [passed] at here
    cases here
    exact ⟨proof, rfl, rfl⟩

variable [ProofLib]

def ProofRequest.proofId (r : ProofRequest) : Option (Bytes × Int64) :=
  (parseProof r.proofJWT).toOption.map fun proof => (proof.claims.jti, proof.claims.iat)

/-- The cache is reached before the time until which it will remember the proof. -/
def ProofRequest.Remembers (r : ProofRequest) (proof : ParsedProof) (maxAge : Duration) : Prop :=
  r.cacheNow < (Time.ofUnix proof.claims.iat).add maxAge

theorem proofGuard_accepted_nodup {cap : ℕ}
    (parses : ∀ {r proof}, inspect r = .ok proof → parseProof (request r).proofJWT = .ok proof)
    (past : ∀ {expires now}, mem.past expires now → ¬now < expires)
    (fits : ∀ {n}, n < cap → mem.fits n) (empty : mem.size m = 0) {requests : List R}
    (ordered : requests.Pairwise fun one two => (request one).cacheNow ≤ (request two).cacheNow)
    (inTime : ∀ r ∈ requests, ∀ proof, inspect r = .ok proof →
      (request r).Remembers proof maxAge)
    (room : (requests.map fun r => (request r).proofId).dedup.length < cap) :
    (((proofGuard maxAge request inspect conclude).accepted mem m requests).map
      fun r => (request r).proofId).Nodup := by
  have determines : ∀ {r q p p'},
      (proofGuard maxAge request inspect conclude).presented r = some p →
      (proofGuard maxAge request inspect conclude).presented q = some p' →
      (request r).proofId = (request q).proofId → p.mark = p'.mark := by
    intro r q p _ one two same
    obtain ⟨_, passed, rfl⟩ := exists_inspected one
    obtain ⟨_, passed', rfl⟩ := exists_inspected two
    rw [ProofRequest.proofId, ProofRequest.proofId, parses passed, parses passed'] at same
    obtain ⟨jti, iat⟩ := Prod.mk.inj (some.inj same)
    rw [presentation, presentation, Presentation.mark, Presentation.mark, jti, iat]
  refine nodup_names _ determines (accepted_nodup empty ?_ ?_ ?_)
  · refine ordered.imp fun {one two} before p q first second => ?_
    obtain ⟨_, -, rfl⟩ := exists_inspected first
    obtain ⟨_, -, rfl⟩ := exists_inspected second
    exact before
  · intro r inside _ here passed
    obtain ⟨proof, inspected, rfl⟩ := exists_inspected here
    exact past passed (inTime r inside proof inspected)
  · intro _ nodup among
    exact fits (Nat.lt_of_le_of_lt (length_le_of_names _ determines nodup among) room)

end

/-! ## No panic -/

theorem returns_uriFault (form : Except UriError Bytes) : Returns (form.mapError uriFault) := by
  cases form with
  | error e => cases e <;> exact returns_error _
  | ok text => exact returns_ok text

theorem JWK.returns_checkMembers (jwk : JWK) : Returns jwk.checkMembers := by
  unfold JWK.checkMembers
  iterate 3
    split
    · exact returns_refuseIf _ _
  · exact returns_ok ()

theorem returns_checkAth (accessToken ath : Bytes) : Returns (checkAth accessToken ath) := by
  unfold checkAth
  split
  · exact returns_ok ()
  · exact (returns_refuseIf _ _).bind fun _ _ => returns_refuseIf _ _

theorem JWK.returns_digest [StdLib] (jwk : JWK) : Returns jwk.digest := by
  exact (returns_orRefuse _ _).bind fun _ _ => returns_ok _

theorem returns_conclude [StdLib] (r : VerifyRequest) (proof : ParsedProof) :
    Returns (conclude r proof) := by
  refine (returns_checkAth _ _).bind fun _ _ => Returns.bind ?_ fun _ _ => returns_ok _
  refine (returns_orRefuse _ _).bind fun jwk _ => ?_
  exact jwk.returns_checkMembers.bind fun _ _ => jwk.returns_digest

variable (s : Service)

theorem Service.returns_checkJTI (m : JtiList) (r : VerifyRequest)
    (p : Presentation Bytes Time) : Returns (s.checkJTI m r p).1 := by
  unfold Service.checkJTI
  split
  · split
    · exact returns_error _
    · exact returns_ok _
  · exact returns_ok _

section

variable [ProofLib]

theorem returns_verifyNonce (secret nonce : Bytes) (ttl : Duration) (now clock : Time) :
    Returns (verifyNonce secret nonce ttl now clock) := by
  refine (returns_refuseIf _ _).bind fun _ _ => (returns_orRefuse _ _).bind fun raw _ => ?_
  refine (returns_refuseIf _ _).bind fun _ shape => ?_
  have length : raw.length = 41 := not_not.mp (not_or.mp (refuseIf_eq_ok.mp shape)).1
  refine (returns_sliceTo (by omega) (by omega)).bind fun signed cut => ?_
  refine (returns_sliceFrom (by omega) (by omega)).bind fun _ _ => ?_
  refine (returns_refuseIf _ _).bind fun _ _ => ?_
  have signed_length : signed.length = 9 := by
    rw [sliceTo, if_pos (by omega)] at cut
    cases cut
    rw [length_take, length]
    rfl
  refine (returns_sliceFrom (by omega) (by omega)).bind fun _ _ => ?_
  exact (returns_refuseIf _ _).bind fun _ _ => returns_refuseIf _ _

theorem Service.returns_checkNonce (required : Bool) (nonce : Bytes)
    (now clock : Time) : Returns (s.checkNonce required nonce now clock) := by
  unfold Service.checkNonce Service.checkPresentNonce
  refine (returns_refuseIf _ _).bind fun _ _ => ?_
  split
  · exact returns_ok ()
  · exact (returns_refuseIf _ _).bind fun _ _ => returns_verifyNonce _ _ _ _ _

theorem Service.returns_checkKey {proof : ParsedProof} :
    Returns (s.checkKey proof) ↔ proof.header.typ = proofTyp → proof.header.alg ∈ s.allowedAlgs →
      proof.header.Fits fun jwk => ¬(jwk.x = [] ∨ jwk.y = []) :=
  returns_vetted (returns_verifySignature _ _)

variable {s : Service}

theorem Service.checkAge_eq_ok {iat : Int64}
    (done : s.checkAge now iat = .ok ()) : ¬TooOld now iat (s.proofMaxAge + s.clockSkew) := by
  obtain ⟨-, done⟩ := of_refuseIf done
  exact refuseIf_eq_ok.mp done

variable [StdLib] [Url.HostLib]

theorem returns_checkTarget (method url : Bytes) (claims : ProofClaims) :
    Returns (checkTarget method url claims) := by
  refine (returns_refuseIf _ _).bind fun _ _ => (returns_uriFault _).bind fun _ _ => ?_
  exact (returns_mapError _ _).bind fun _ _ => returns_refuseIf _ _

variable {r : VerifyRequest}

theorem Service.returns_inspect :
    Returns (s.inspect r) ↔ ∀ proof, parseProof r.proofJWT = .ok proof →
      Returns (s.checkKey proof) := by
  constructor
  · exact fun returns proof parsed => (returns.after parsed).first
  · intro keys
    refine (returns_parseProof _).bind fun proof parsed => (keys proof parsed).bind fun _ _ => ?_
    refine (returns_checkTarget _ _ _).bind fun _ _ => ?_
    refine Returns.bind ((returns_refuseIf _ _).bind fun _ _ => returns_refuseIf _ _) fun _ _ => ?_
    refine (s.returns_checkNonce _ _ _ _).bind fun _ _ => ?_
    exact (returns_refuseIf _ _).bind fun _ _ => returns_ok proof

theorem Service.returns_verify (m : JtiList) :
    Returns (s.verify m r).1 ↔ Returns (s.inspect r) := by
  constructor
  · intro returns panics
    rw [Service.verify, panics] at returns
    exact returns rfl
  · intro returns
    unfold Service.verify
    split
    next refused => exact returns.of_error refused
    rename_i proof _
    split
    next asked => exact (s.returns_checkJTI m r _).of_error (congrArg Prod.fst asked)
    · exact returns_error _
    · exact returns_conclude r proof

theorem Service.inspect_eq_ok {proof : ParsedProof} (done : s.inspect r = .ok proof) :
    parseProof r.proofJWT = .ok proof ∧
      ¬TooOld r.reference proof.claims.iat (s.proofMaxAge + s.clockSkew) := by
  obtain ⟨_, decoded, done⟩ := of_bind done
  obtain ⟨-, done⟩ := unit_bind_eq_ok.mp done
  obtain ⟨-, done⟩ := unit_bind_eq_ok.mp done
  obtain ⟨young, done⟩ := unit_bind_eq_ok.mp done
  obtain ⟨-, done⟩ := unit_bind_eq_ok.mp done
  obtain ⟨-, done⟩ := of_refuseIf done
  cases done
  exact ⟨decoded, checkAge_eq_ok young⟩

theorem Service.inspect_of_verify
    (accepted : (s.verify m r).1.isOk = true) : ∃ proof, s.inspect r = .ok proof := by
  unfold Service.verify at accepted
  split at accepted
  · cases accepted
  next proof inspected => exact ⟨proof, inspected⟩

def Service.guard (s : Service) : Guard VerifyRequest (Fault ProofError) Proof Bytes Time :=
  proofGuard s.proofMaxAge (·.toProofRequest) s.inspect conclude

theorem Service.verify_eq (process : s.replay = false) (m : JtiList)
    (r : VerifyRequest) : s.verify m r = s.guard.serve (jtiList s.jtiCap) m r := by
  unfold Service.verify
  cases inspected : s.inspect r with
  | error => exact (serve_of_refused inspected).symm
  | ok proof =>
    simp only [Service.guard, serve_of_inspected inspected, Service.checkJTI, process]
    cases asked : rememberJTI s.jtiCap m (presentation s.proofMaxAge r.cacheNow proof.claims) with
    | mk fresh => cases fresh <;> simp [jtiList, asked]

end

end TheAuth.Dpop
