import TheAuth.Server.AssertionCalls

/-!
# Replays of assertions

The cache forgets an assertion a configured time after its expiry, and an assertion is accepted up
to the clock skew after its expiry: once, when the former is not the shorter one. An assertion with
a wrong signature records an identifier too.
-/

set_option autoImplicit false

namespace TheAuth.Server

open Go Store Agents Library.Result Library.ReplayGuard UlidText AssertionLib StdLib List

section

theorem replayCacheTTL_pos (cfg : AssertionConfig) (bearer : JWTBearerConfig)
    (configured : cfg.validate.jwtBearer = some bearer) : 0 < bearer.replayCacheTTL := by
  obtain ⟨given, -, rfl⟩ := Option.map_eq_some_iff.mp configured
  change 0 < orSeconds given.replayCacheTTL 600
  unfold orSeconds
  split
  · decide
  next positive => exact Int64.not_le.mp positive

theorem clockSkew_nonneg (cfg : AssertionConfig) : 0 ≤ cfg.validate.clockSkew.toInt := by
  change 0 ≤ (if cfg.clockSkew < 0 then 0 else cfg.clockSkew : Int64).toInt
  split
  · decide
  next nonneg => exact Int64.le_iff_toInt_le.mp (Int64.not_lt.mp nonneg)

variable [UlidText] [AssertionLib] [StdLib] [UrlLib]

namespace AssertionRequest

def assertion : AssertionRequest → Bytes
  | .client call => call.assertion
  | .bearer call => call.assertion

def cacheNow : AssertionRequest → Time
  | .client call => call.cacheNow
  | .bearer call => call.cacheNow

variable (cfg : AssertionConfig)

def use : AssertionRequest → AssertionUse
  | .client _ => .client
  | .bearer call =>
    match call.device cfg with
    | .ok (some _) => .device
    | _ => .issuer

def checkedAt : AssertionRequest → Time
  | .client call => call.now
  | .bearer call =>
    match call.device cfg with
    | .ok (some _) => call.answers.clock
    | _ => call.answers.now

def records (r : AssertionRequest) : Option Bytes := ((assertionGuard cfg).presented r).map (·.key)

/-- The key of the cache, with the `jti` of the assertion, and its expiry. -/
def identity (r : AssertionRequest) : Option (Bytes × Int64) :=
  (AssertionLib.parseGenericJWT r.assertion).map fun token =>
    (replayKey token.claims (r.use cfg), token.claims.exp)

end AssertionRequest

/-- The request comes to the cache with the token's key and time. -/
structure Presents (cfg : AssertionConfig) (r : AssertionRequest) (p : Presentation Bytes Time)
    (token : GenericJWT) : Prop where
  parsed : AssertionLib.parseGenericJWT r.assertion = some token
  unexpired : ¬(Time.ofUnix token.claims.exp).add cfg.clockSkew < r.checkedAt cfg
  now : p.now = r.cacheNow
  key : p.key = replayKey token.claims (r.use cfg)
  deadline : p.deadline = (Time.ofUnix token.claims.exp).add cfg.jtiReplayTTL

variable {cfg : AssertionConfig}

omit [UlidText] [AssertionLib] [StdLib] [UrlLib] in
theorem jtiReplayTTL_eq {bearer : JWTBearerConfig} (here : cfg.jwtBearer = some bearer)
    (positive : 0 < bearer.replayCacheTTL) : cfg.jtiReplayTTL = bearer.replayCacheTTL := by
  rw [AssertionConfig.jtiReplayTTL, here]
  exact if_pos positive

variable {p : Presentation Bytes Time} {call : BearerCall}

omit [StdLib] [UrlLib] in
theorem ClientCall.presents {call : ClientCall}
    (positive : ∀ bearer, cfg.jwtBearer = some bearer → 0 < bearer.replayCacheTTL)
    (passed : call.present cfg = .ok p) : ∃ token, Presents cfg (.client call) p token := by
  obtain ⟨bearer, configured, passed⟩ := of_bind passed
  obtain ⟨token, parsed, passed⟩ := of_bind passed
  obtain ⟨-, -, passed⟩ := of_bind passed
  iterate 3 obtain ⟨-, passed⟩ := of_refuseIf passed
  obtain ⟨expiry, passed⟩ := of_refuseIf passed
  obtain ⟨-, passed⟩ := of_refuseIf passed
  obtain ⟨-, passed⟩ := of_refuseIf passed
  cases passed
  have configured := orRefuse_eq_ok.mp configured
  refine ⟨token, orRefuse_eq_ok.mp parsed, fun past => expiry (.inr past), rfl, rfl, ?_⟩
  rw [jtiReplayTTL_eq configured (positive bearer configured)]

omit [StdLib] [UrlLib] in
theorem BearerCall.presents_of_issuer
    (positive : ∀ bearer, cfg.jwtBearer = some bearer → 0 < bearer.replayCacheTTL)
    (other : call.device cfg = .ok none) (passed : call.presentIssuer cfg = .ok p) :
    ∃ token, Presents cfg (.bearer call) p token := by
  obtain ⟨bearer, configured, passed⟩ := of_bind passed
  obtain ⟨token, parsed, passed⟩ := of_bind passed
  obtain ⟨_, -, passed⟩ := of_bind passed
  obtain ⟨-, passed⟩ := of_refuseIf passed
  obtain ⟨-, passed⟩ := of_refuseIf passed
  obtain ⟨expiry, passed⟩ := of_refuseIf passed
  obtain ⟨-, passed⟩ := of_refuseIf passed
  obtain ⟨-, passed⟩ := of_refuseIf passed
  cases passed
  have configured := orRefuse_eq_ok.mp configured
  refine ⟨token, orRefuse_eq_ok.mp parsed, ?_, rfl, ?_, ?_⟩
  · simp only [AssertionRequest.checkedAt, other]
    exact fun past => expiry (.inr past)
  · simp only [AssertionRequest.use, other]
  · rw [jtiReplayTTL_eq configured (positive bearer configured)]

omit [UlidText] [StdLib] [UrlLib] in
theorem unexpired_of_verifyDeviceAssertion {dev : DeviceRecord} {devices : DeviceTokensConfig}
    {token : GenericJWT} {now : Time}
    (verified : verifyDeviceAssertion cfg dev devices token now = .ok ()) :
    ¬(Time.ofUnix token.claims.exp).add cfg.clockSkew < now := by
  obtain ⟨-, verified⟩ := of_refuseIf verified
  obtain ⟨-, verified⟩ := of_refuseIf verified
  obtain ⟨times, -⟩ := of_refuseIf verified
  exact fun past => times (.inl past)

omit [StdLib] [UrlLib] in
theorem BearerCall.parsed_of_device {dev : EnrolledDevice} {entry : DeviceRecord}
    {devices : DeviceTokensConfig} {token : GenericJWT}
    (handled : call.device cfg = .ok (some (dev, entry, devices, token))) :
    parseGenericJWT call.assertion = some token := by
  unfold BearerCall.device at handled
  split at handled
  next found token' _ parsed =>
    split at handled
    · cases handled
    split at handled
    · cases handled
    obtain ⟨found, -, handled⟩ := of_bind handled
    cases found with
    | none => cases handled
    | some =>
      cases handled
      exact parsed
  · cases handled

omit [StdLib] in
theorem BearerCall.presents
    (positive : ∀ bearer, cfg.jwtBearer = some bearer → 0 < bearer.replayCacheTTL)
    (passed : call.present cfg = .ok p) : ∃ token, Presents cfg (.bearer call) p token := by
  obtain ⟨found, handled, passed⟩ := of_bind passed
  cases found with
  | none => exact call.presents_of_issuer positive handled passed
  | some named =>
    obtain ⟨_, _, _, token⟩ := named
    obtain ⟨verified, passed⟩ := unit_bind_eq_ok.mp passed
    obtain ⟨-, passed⟩ := unit_bind_eq_ok.mp passed
    obtain ⟨-, -, passed⟩ := of_bind passed
    obtain ⟨-, -, passed⟩ := of_bind passed
    cases passed
    refine ⟨token, call.parsed_of_device handled, ?_, rfl, ?_, rfl⟩
    · simp only [AssertionRequest.checkedAt, handled]
      exact unexpired_of_verifyDeviceAssertion verified
    · simp only [AssertionRequest.use, handled]

theorem presents_of_presented {r : AssertionRequest}
    (positive : ∀ bearer, cfg.jwtBearer = some bearer → 0 < bearer.replayCacheTTL)
    (passed : (assertionGuard cfg).presented r = some p) : ∃ token, Presents cfg r p token := by
  have passed := Guard.presented_eq_some.mp passed
  cases r with
  | client call | bearer call => exact call.presents positive passed

/-- The cache is read soon after the expiry was checked, before the last second of a clock. -/
structure AssertionRequest.Prompt (cfg : AssertionConfig) (late : Int) (r : AssertionRequest) :
    Prop where
  soon : r.cacheNow ≤ r.checkedAt cfg + late
  shown : r.cacheNow < Time.maxSec * Time.nsPerSecond

/-- The requests read the cache one after the other. -/
def Successive (requests : List AssertionRequest) : Prop :=
  requests.Pairwise fun one two => one.cacheNow ≤ two.cacheNow

instance (requests : List AssertionRequest) : Decidable (Successive requests) :=
  inferInstanceAs (Decidable (requests.Pairwise fun one two => one.cacheNow ≤ two.cacheNow))

theorem Successive.inOrder {requests : List AssertionRequest} (successive : Successive requests)
    (positive : ∀ bearer, cfg.jwtBearer = some bearer → 0 < bearer.replayCacheTTL) :
    (assertionGuard cfg).InOrder requests := by
  refine successive.imp fun {one two} before p q here there => ?_
  obtain ⟨_, presents⟩ := presents_of_presented positive here
  obtain ⟨_, presents'⟩ := presents_of_presented positive there
  rw [presents.now, presents'.now]
  exact before

omit [StdLib] [UrlLib] in
theorem Presents.live {r : AssertionRequest} {token : GenericJWT} {late : Int}
    (presents : Presents cfg.validate r p token) (prompt : r.Prompt cfg.validate late)
    (nonneg : 0 ≤ late)
    (covered : cfg.validate.clockSkew.toInt + late ≤ cfg.validate.jtiReplayTTL.toInt) :
    ¬p.deadline < p.now := by
  rw [presents.deadline, presents.now]
  exact Time.not_add_lt (Time.le_ofUnix _) (clockSkew_nonneg cfg) nonneg covered prompt.soon
    prompt.shown presents.unexpired

/-- **An assertion is accepted once in each use**, by a server whose cache remembers it long enough.
-/
theorem assertion_accepted_once (cfg : AssertionConfig) (late : Int)
    (requests : List AssertionRequest) (successive : Successive requests)
    (prompt : ∀ r ∈ requests, r.Prompt cfg.validate late) (nonneg : 0 ≤ late)
    (covered : cfg.validate.clockSkew.toInt + late ≤ cfg.validate.jtiReplayTTL.toInt) :
    (((assertionGuard cfg.validate).accepted jtiCache ∅ requests).map fun r =>
      r.identity cfg.validate).Nodup := by
  have positive := replayCacheTTL_pos cfg
  apply nodup_names
  · intro r q p _ here there same
    obtain ⟨token, presents⟩ := presents_of_presented positive here
    obtain ⟨token', presents'⟩ := presents_of_presented positive there
    simp only [AssertionRequest.identity, presents.parsed, presents'.parsed, Option.map_some,
      Option.some.injEq, Prod.mk.injEq] at same
    obtain ⟨key, expiry⟩ := same
    rw [Presentation.mark, Presentation.mark, presents.key, presents'.key, presents.deadline,
      presents'.deadline, key, expiry]
  · refine accepted_nodup rfl (successive.inOrder positive) ?_ fun _ _ _ => trivial
    intro r inside _ here
    obtain ⟨_, presents⟩ := presents_of_presented positive here
    exact presents.live (prompt r inside) nonneg covered

/-- **A request changes nothing for later requests that record other identifiers.** -/
theorem assertion_frame (cfg : AssertionConfig) (cache : GoMap Bytes Time) (r : AssertionRequest)
    (requests : List AssertionRequest) (successive : Successive (r :: requests))
    (others : ∀ key, r.records cfg.validate = some key →
      ∀ q ∈ requests, q.records cfg.validate ≠ some key) :
    (assertionGuard cfg.validate).outcomes jtiCache (serveAssertion cfg.validate cache r).2
        requests =
      (assertionGuard cfg.validate).outcomes jtiCache cache requests := by
  refine outcomes_after cache (fun _ => trivial)
    (successive.inOrder (replayCacheTTL_pos cfg)) fun p here q inside later there same => ?_
  refine others p.key ?_ q inside ?_
  · rw [AssertionRequest.records, here]
    rfl
  · rw [AssertionRequest.records, there, ← same]
    rfl

end

@[reducible]
def AssertionLib.samples : AssertionLib where
  parseGenericJWT
    | [id, sig] =>
      some
        { header := { alg := str "ES256" }
          claims :=
            { iss := str "c"
              sub := str "c"
              aud := str "t"
              exp := 1000
              iat := 1000
              jti := [id] }
          signingInput := []
          sig := [sig] }
    | _ => none
  verifySig _ key _ sig := key == sig

def skewedServer (skew : Int64) : AssertionConfig where
  tokens := delegationConfig
  clockSkew := skew * Duration.second
  jwtBearer := some {}

def presentedAt (assertion : Bytes) (sec : Int64) : AssertionRequest :=
  .client
    { clientID := str "c"
      assertion
      tokenEndpointURL := str "t"
      client := some
        { clientID := str "c"
          tokenEndpointAuthMethod := .privateKeyJWT
          jwks := some [{ alg := str "ES256", key := [7] }] }
      now := Time.ofUnix sec
      cacheNow := Time.ofUnix sec }

theorem presentedAt_prompt [UlidText] [AssertionLib] {cfg : AssertionConfig} {assertion : Bytes}
    {sec : Int64} (shown : Time.ofUnix sec < Time.maxSec * Time.nsPerSecond) :
    (presentedAt assertion sec).Prompt cfg 0 :=
  ⟨(Int.add_zero (Time.ofUnix sec)).ge, shown⟩

attribute [local instance] unary samples refusing UrlLib.refusing

/-- With a clock skew of 15 minutes, an assertion is accepted again 10 minutes after its expiry. -/
theorem assertion_accepted_again :
    Successive [presentedAt [1, 7] 1000, presentedAt [1, 7] 1700] ∧
      (∀ sec ∈ [1000, 1700], (presentedAt [1, 7] sec).Prompt (skewedServer 900).validate 0) ∧
      ((assertionGuard (skewedServer 900).validate).accepted jtiCache ∅
          [presentedAt [1, 7] 1000, presentedAt [1, 7] 1700]).map (·.assertion) =
        [[1, 7], [1, 7]] := by
  refine ⟨by decide +kernel, fun sec inside => presentedAt_prompt ?_, by decide +kernel⟩
  rcases mem_cons.mp inside with rfl | later
  · decide +kernel
  · cases mem_singleton.mp later
    decide +kernel

theorem assertion_not_accepted_again :
    let accepted := (assertionGuard (skewedServer 60).validate).accepted jtiCache ∅
      [presentedAt [1, 7] 1000, presentedAt [1, 7] 1030]
    accepted.map (·.assertion) = [[1, 7]] ∧
      (accepted.map fun r => r.identity (skewedServer 60).validate).Nodup := by
  refine ⟨by decide +kernel, assertion_accepted_once (skewedServer 60) 0 _ (by decide +kernel) ?_
    (by decide) (by decide +kernel)⟩
  intro _ inside
  rcases mem_cons.mp inside with rfl | later
  · exact presentedAt_prompt (by decide +kernel)
  · cases mem_singleton.mp later
    exact presentedAt_prompt (by decide +kernel)

/-- An assertion with a wrong signature burns the identifier of the client's own assertion. -/
theorem forged_assertion_burns_identifier :
    let cfg := (skewedServer 60).validate
    Successive [presentedAt [1, 8] 1000, presentedAt [1, 7] 1001] ∧
      (serveAssertion cfg ∅ (presentedAt [1, 8] 1000)).1.isOk = false ∧
      (serveAssertion cfg ∅ (presentedAt [1, 7] 1001)).1.isOk = true ∧
      (serveAssertion cfg (serveAssertion cfg ∅ (presentedAt [1, 8] 1000)).2
        (presentedAt [1, 7] 1001)).1.isOk = false := by
  refine ⟨?_, ?_, ?_, ?_⟩ <;> decide +kernel

theorem forged_assertion_elsewhere :
    let cfg := (skewedServer 60).validate
    ((assertionGuard cfg).outcomes jtiCache (serveAssertion cfg ∅ (presentedAt [2, 8] 1000)).2
      [presentedAt [1, 7] 1001]).map (·.isOk) = [true] := by
  intro _
  rw [assertion_frame (skewedServer 60) ∅ (presentedAt [2, 8] 1000) [presentedAt [1, 7] 1001]
    (by decide +kernel)]
  · decide +kernel
  · intro _ records _ inside
    cases mem_singleton.mp inside
    have other : (presentedAt [2, 8] 1000).records (skewedServer 60).validate =
        some (str "client:" ++ [2]) := by decide +kernel
    cases other.symm.trans records
    decide +kernel

end TheAuth.Server
