import TheAuth.Audit.ReceiptTexts
import TheAuth.Server.Introspect

/-!
# How long an active answer is given

An active answer was computed from the token at most `IntrospectionCacheTTL` before it is given. The
cached answer is not checked for expiry, so it can outlive the token, by that lifetime at most.
-/

set_option autoImplicit false

namespace TheAuth.Server.IntrospectRuns

open Go Store Agents Library List

section

variable [JwtLib] [UlidText] (cfg : IntrospectConfig)

/-- The last time its own checks do not find it expired; for an access token its expiry with the
tolerance. -/
inductive EndsAt (r : Records) (token : Bytes) : Time → Prop
  | jwt (c : AccessClaims) (own : claimsOf token = some c) :
      EndsAt r token (Time.unix c.exp + cfg.clockSkew)
  | opaque_ (rec : OpaqueToken) (stored : r.opaqueAccessTokenByHash (hashToken token) = some rec) :
      EndsAt r token (rec.expiresAt + cfg.clockSkew - 1)
  | refresh (rt : RefreshToken) (stored : r.refreshTokenByHash (hashToken token) = some rt) :
      EndsAt r token (rt.expiresAt - 1)

/-- The token is good beyond the time. -/
def Lasts (r : Records) (now : Time) (token : Bytes) : Prop :=
  ∃ last, EndsAt cfg r token last ∧ now ≤ last

variable {cfg} {r : Records} {now : Time} {caches : Caches} {token expectedAud : Bytes}

theorem lasts_of_introspectUncached
    (active : (introspectUncached cfg r now token expectedAud caches).1.active = true) :
    Lasts cfg r now token := by
  unfold introspectUncached at active
  split at active
  · unfold introspectJWT at active
    split at active
    · cases active
    rename_i c verified
    obtain ⟨own, checked⟩ := verifyWith_eq_ok verified
    exact ⟨_, .jwt c own, unexpired_of_checkClaims rfl checked⟩
  split at active
  next found =>
    obtain ⟨_, looked, -⟩ := Option.map_eq_some_iff.mp found
    obtain ⟨rec, stored, early⟩ := unexpired_of_lookupOpaqueClaims looked
    exact ⟨_, .opaque_ rec stored, Int.le_sub_one_of_lt early⟩
  unfold introspectRefreshToken at active
  split at active
  · cases active
  rename_i rt stored
  split at active
  · cases active
  rename_i early
  rw [not_or] at early
  exact ⟨_, .refresh rt stored, Int.le_sub_one_of_lt (Int.not_le.mp early.2)⟩

variable (cfg r now caches)

theorem introspect_subjectActive (sub : Bytes) :
    (subjectActive cfg r now sub caches).2.introspect = caches.introspect := by
  unfold subjectActive
  split
  · rfl
  split
  · split
    · rfl
    split <;> rfl
  · split <;> rfl

theorem introspect_chainStillActive (resp : IntrospectionResponse) :
    (chainStillActive r now resp caches).2.introspect = caches.introspect := by
  unfold chainStillActive
  split
  · split <;> rfl
  split
  · rfl
  · rfl
  dsimp only
  split
  · rfl
  · split <;> rfl

theorem introspect_stillActive (resp : IntrospectionResponse) :
    (stillActive cfg r now resp caches).2.introspect = caches.introspect := by
  unfold stillActive
  split
  · rfl
  split
  · rfl
  split
  · have walked := introspect_chainStillActive r now caches resp
    split
    next same => rwa [same] at walked
    rename_i kept same
    rw [same] at walked
    exact (introspect_subjectActive cfg r now kept resp.sub).trans walked
  · exact introspect_subjectActive cfg r now caches resp.sub

theorem introspect_introspectClaims (c : AccessClaims) :
    (introspectClaims cfg r now c caches).2.introspect = caches.introspect := by
  have kept := introspect_stillActive cfg r now caches (claimsResponse c)
  unfold introspectClaims
  split
  · rfl
  split
  next same => rwa [same] at kept
  rename_i same
  rwa [same] at kept

theorem introspect_introspectUncached (token expectedAud : Bytes) :
    (introspectUncached cfg r now token expectedAud caches).2.introspect = caches.introspect := by
  unfold introspectUncached
  split
  · unfold introspectJWT
    split
    · rfl
    · exact introspect_introspectClaims cfg r now caches _
  split
  next found =>
    obtain ⟨c, -, rfl⟩ := Option.map_eq_some_iff.mp found
    split
    · rfl
    · exact introspect_introspectClaims cfg r now caches c
  · rfl

end

theorem hashToken_eq_of_introspectCacheKey_eq {token token' aud aud' : Bytes}
    (same : introspectCacheKey token aud = introspectCacheKey token' aud') :
    hashToken token = hashToken token' := by
  unfold introspectCacheKey at same
  rw [append_assoc, append_assoc] at same
  have length : ∀ token : Bytes, (hexEncode (hashToken token)).length = 2 * sha256Size := by
    intro token
    rw [Audit.length_hexEncode, hashToken, length_sum256]
  exact Audit.hexEncode_inj (append_inj same ((length token).trans (length token').symm)).1

/-! ## Caching -/

section

variable [JwtLib] [UlidText] [ResponseText] (cfg : IntrospectConfig) (r : Records) (now : Time)

/-- What a call of introspection can answer and cache. -/
inductive Outcome (call : IntrospectCall) (caches : Caches) :
    Except OAuthError (IntrospectionResponse × Bytes) × Caches → Prop
  | idle (answer : Except OAuthError (IntrospectionResponse × Bytes))
      (own : ∀ resp body, answer = .ok (resp, body) → resp.active = false) :
      Outcome call caches (answer, caches)
  | cached (answer : Except OAuthError (IntrospectionResponse × Bytes)) (next : Caches)
      (body : Bytes)
      (served : (caches.introspect.get now
        (introspectCacheKey call.token call.expectedAud)).1 = some body)
      (kept : next.introspect = (caches.introspect.get now
        (introspectCacheKey call.token call.expectedAud)).2)
      (own : ∀ resp text, answer = .ok (resp, text) → resp.active = true →
        (ResponseText.unmarshal body).active = true) : Outcome call caches (answer, next)
  | fresh (resp : IntrospectionResponse) (next others : Caches)
      (missed : (caches.introspect.get now
        (introspectCacheKey call.token call.expectedAud)).1 = none)
      (own : (introspectUncached cfg r now call.token call.expectedAud others).1 = resp)
      (kept : next.introspect = (caches.introspect.get now
        (introspectCacheKey call.token call.expectedAud)).2.set now cfg.introspectionCacheTTL
          (introspectCacheKey call.token call.expectedAud) (ResponseText.marshal resp)) :
      Outcome call caches (.ok (resp, ResponseText.marshal resp), next)

theorem recheckCached_spec (cached : Bytes) (caches : Caches) :
    ((recheckCached cfg r now cached caches).1.active = true →
      (ResponseText.unmarshal cached).active = true) ∧
    (recheckCached cfg r now cached caches).2.2.introspect = caches.introspect := by
  have kept := introspect_stillActive cfg r now caches (ResponseText.unmarshal cached)
  unfold recheckCached
  dsimp only
  split
  · exact ⟨id, rfl⟩
  split
  next same =>
    rw [same] at kept
    exact ⟨nofun, kept⟩
  rename_i same
  rw [same] at kept
  exact ⟨id, kept⟩

theorem outcome_introspectToken (call : IntrospectCall) (caches : Caches) :
    Outcome cfg r now call caches (introspectToken cfg r now call caches) := by
  unfold introspectToken
  split
  · exact .idle _ nofun
  split
  · refine .idle _ fun resp body same => ?_
    cases same
    rfl
  unfold introspectCacheGet
  dsimp only
  split
  next cached others same =>
    obtain ⟨served, rfl⟩ := Prod.mk.inj same
    obtain ⟨own, kept⟩ := recheckCached_spec cfg r now cached { caches with
      introspect := (caches.introspect.get now (introspectCacheKey call.token call.expectedAud)).2 }
    refine .cached _ _ cached served kept fun resp text same active => own ?_
    cases same
    exact active
  rename_i same
  obtain ⟨missed, rfl⟩ := Prod.mk.inj same
  refine .fresh _ _ _ missed rfl ?_
  change TimedCache.set _ _ _ _ _ = _
  rw [introspect_introspectUncached]

end

/-! ## Runs -/

/-- Clock, records and caches. -/
structure System [JwtLib] where
  now : Time
  records : Records
  caches : Caches

def System.initial [JwtLib] (now : Time) (records : Records) : System := ⟨now, records, ⟨∅, ∅, ∅⟩⟩

structure RevokeCall where
  client : Except OAuthError Bytes
  token : Bytes
  denied : Bool

/-- A revocation and any other event leave the stores in some state. -/
inductive Action [JwtLib] where
  | advance (by_ : ℕ)
  | introspect (call : IntrospectCall)
  | revoke (call : RevokeCall) (records : Records)
  | invalidateChainCache (agentID : Bytes)
  | invalidateSubject (sub : Bytes)
  | change (records : Records)

section

variable [JwtLib] [UlidText] [ResponseText] (cfg : IntrospectConfig)

def revokePurges (r : Records) (now : Time) (call : RevokeCall) : Bool :=
  match call.client with
  | .error _ => false
  | .ok clientID =>
    if call.token = [] then false
    else if call.token.count 0x2E = 2 then
      match verifyAccessJWT cfg r now call.token [] with
      | .error _ => false
      | .ok c =>
        cfg.accessTokenRevocation && c.iss == cfg.issuer && c.clientID == clientID &&
          !c.jti.isEmpty && call.denied
    else match r.opaqueAccessTokenByHash (hashToken call.token) with
    | none => false
    | some rec => rec.clientID == clientID

/-- One action. -/
def step (s : System) : Action → System
  | .advance by_ => { s with now := s.now + by_ }
  | .introspect call => { s with caches := (introspectToken cfg s.records s.now call s.caches).2 }
  | .revoke call records =>
    { s with
      records
      caches := if revokePurges cfg s.records s.now call then purgeIntrospectCache s.caches
        else s.caches }
  | .invalidateChainCache agentID =>
    { s with
      caches := { s.caches with
        chain := s.caches.chain.erase agentID
        subject := s.caches.subject.erase (agentSubjectPrefix ++ agentID) } }
  | .invalidateSubject sub =>
    { s with caches := { s.caches with subject := s.caches.subject.erase sub } }
  | .change records => { s with records }

def after (start : System) (history : List Action) : System := history.foldl (step cfg) start

/-- The cached body was an answer at the time. -/
def Answered (start : System) (history : List Action) (key body : Bytes) (time : Time) : Prop :=
  ∃ before token aud resp, before <+: history ∧ key = introspectCacheKey token aud ∧
    body = ResponseText.marshal resp ∧ time = (after cfg start before).now ∧
      (resp.active = true → Lasts cfg (after cfg start before).records time token)

variable {cfg} {start : System} {history : List Action}

theorem after_snoc (a : Action) :
    after cfg start (history ++ [a]) = step cfg (after cfg start history) a := by
  unfold after
  rw [foldl_append]
  rfl

theorem Answered.grow {key body : Bytes} {time : Time}
    (answered : Answered cfg start history key body time) (a : Action) :
    Answered cfg start (history ++ [a]) key body time := by
  obtain ⟨before, token, aud, resp, begins, rest⟩ := answered
  exact ⟨before, token, aud, resp, begins.trans (prefix_append _ _), rest⟩

theorem filled_after (cfg : IntrospectConfig) (start : System) (empty : start.caches.introspect = ∅)
    (history : List Action) :
    (after cfg start history).caches.introspect.Filled cfg.introspectionCacheTTL
      (Answered cfg start history) := by
  induction history using reverseRecOn with
  | nil =>
    change TimedCache.Filled _ _ start.caches.introspect
    rw [empty]
    exact TimedCache.filled_empty
  | append_singleton history a ih =>
    have grown : (after cfg start history).caches.introspect.Filled cfg.introspectionCacheTTL
        (Answered cfg start (history ++ [a])) :=
      ih.mono fun _ _ _ answered => answered.grow a
    rw [after_snoc]
    cases a with
    | advance | change | invalidateChainCache | invalidateSubject => exact grown
    | revoke =>
      change TimedCache.Filled _ _ (Caches.introspect (ite _ _ _))
      split
      · exact TimedCache.filled_empty
      · exact grown
    | introspect call =>
      have outcome := outcome_introspectToken cfg (after cfg start history).records
        (after cfg start history).now call (after cfg start history).caches
      change TimedCache.Filled _ _ (Caches.introspect (Prod.snd _))
      generalize introspectToken cfg _ _ call _ = result at outcome
      cases outcome with
      | idle => exact grown
      | cached _ next _ _ kept =>
        rw [kept]
        exact grown.get _ _
      | fresh resp next _ _ own kept =>
        rw [kept]
        refine (grown.get _ _).set ⟨history, call.token, call.expectedAud, resp,
          prefix_append _ _, rfl, rfl, rfl, fun active => ?_⟩
        rw [← own] at active
        exact lasts_of_introspectUncached active

theorem now_le_now_after {before history : List Action} (begins : before <+: history) :
    (after cfg start before).now ≤ (after cfg start history).now := by
  obtain ⟨rest, rfl⟩ := begins
  induction rest using reverseRecOn with
  | nil => rw [append_nil]
  | append_singleton _ a ih =>
    rw [← append_assoc, after_snoc]
    refine ih.trans ?_
    cases a with
    | advance by_ => exact Int.le_add_of_nonneg_right (Int.natCast_nonneg by_)
    | introspect | revoke | invalidateChainCache
    | invalidateSubject | change => exact le_rfl

/-- **An active answer outlives the token by at most the lifetime of cached answers.** -/
theorem active_answer_outlives_token_by_at_most_cache_ttl (cfg : IntrospectConfig) (now : Time)
    (records : Records) (history : List Action) (s : System)
    (reached : s = after cfg (.initial now records) history) (call : IntrospectCall)
    (resp : IntrospectionResponse) (body : Bytes)
    (answered : (introspectToken cfg s.records s.now call s.caches).1 = .ok (resp, body))
    (active : resp.active = true) :
    ∃ before s₀ token last, before <+: history ∧ s₀ = after cfg (.initial now records) before ∧
      hashToken token = hashToken call.token ∧
      EndsAt cfg s₀.records token last ∧ s₀.now ≤ last ∧
      s₀.now ≤ s.now ∧ s.now ≤ s₀.now + cfg.introspectionCacheTTL ∧
      s.now ≤ last + cfg.introspectionCacheTTL ∧
      ((introspectCacheGet s.now call.token call.expectedAud s.caches).1 = none →
        s₀ = s ∧ token = call.token) := by
  have outcome := outcome_introspectToken cfg s.records s.now call s.caches
  generalize introspectToken cfg _ _ call _ = result at outcome answered
  cases outcome with
  | idle _ own =>
    rw [own resp body answered] at active
    cases active
  | cached _ _ stored served _ own =>
    have filled := filled_after cfg (.initial now records) rfl history
    rw [← reached] at filled
    obtain ⟨_, early, before, token, _, resp', begins, key, written, rfl, lasts⟩ :=
      filled.of_get served
    have again := own resp body answered active
    rw [written] at again
    obtain ⟨last, ends, unended⟩ := lasts (ResponseText.active_of_unmarshal resp' again)
    refine ⟨before, _, token, last, begins, rfl, ?_, ends, unended,
      reached ▸ now_le_now_after begins, early, early.trans ?_, ?_⟩
    · exact (hashToken_eq_of_introspectCacheKey_eq key).symm
    · exact Int.add_le_add_right unended _
    · intro missed
      exact absurd (served.symm.trans missed) (Option.some_ne_none stored)
  | fresh _ _ _ _ own =>
    cases answered
    rw [← own] at active
    obtain ⟨last, ends, unended⟩ := lasts_of_introspectUncached active
    have later : ∀ time : Time, time ≤ time + cfg.introspectionCacheTTL := fun time =>
      Int.le_add_of_nonneg_right cfg.ttl_pos.le
    exact ⟨history, s, call.token, last, prefix_rfl, reached, rfl, ends, unended, le_rfl,
      later _, unended.trans (later _), fun _ => ⟨rfl, rfl⟩⟩

end

@[reducible]
def plainTokens : JwtLib where
  Key := Unit
  decodeBase64 := some
  readHeader _ := some ⟨str "EdDSA", typeAccessToken, str "key"⟩
  readClaims _ := some
    { iss := [], sub := [], aud := str "api", exp := 1000, iat := 0, jti := [], clientID := [],
      scope := [] }
  verifyBytes _ _ _ _ := true

@[reducible]
def flagText : ResponseText where
  marshal resp := if resp.active then [1] else [0]
  unmarshal body := { active := body == [1] }
  active_of_unmarshal resp read := by
    cases active : resp.active with
    | true => rfl
    | false =>
      rw [active] at read
      cases read

attribute [local instance] plainTokens flagText UlidText.unary

def oneKey : letI := plainTokens; Records :=
  { verificationKey := fun _ => some (str "EdDSA", ())
    isAccessTokenDenied := fun _ => some false
    opaqueAccessTokenByHash := fun _ => none
    refreshTokenByHash := fun _ => none
    deviceActive := fun _ => true
    delegationGrantByID := fun _ => none
    lookupAgent := fun _ => none
    accountStateByUserID := none }

def defaults : IntrospectConfig where
  issuer := str "https://as"

def ask : IntrospectCall := ⟨.ok (), str "a.b.c", str "api"⟩

def askAndWait : letI := plainTokens; List Action := [.introspect ask, .advance 30000000000]

def waited : letI := plainTokens; System :=
  after defaults (.initial (Time.unix 1000) oneKey) askAndWait

theorem waited_active :
    (introspectToken defaults waited.records waited.now ask waited.caches).1 =
      .ok ({ active := true }, [1]) := by
  decide +kernel

/-- Half a minute after the token expired, the cached answer is still active. -/
theorem active_answer_for_expired_token :
    ∃ resp body,
      (introspectToken defaults waited.records waited.now ask waited.caches).1 = .ok (resp, body) ∧
      resp.active = true ∧
      verifyAccessJWT defaults waited.records waited.now ask.token ask.expectedAud =
        .error .expired :=
  ⟨_, _, waited_active, rfl, rfl⟩

theorem active_answer_outlives_token_by_half_a_minute :
    ∃ before s₀ token last, before <+: askAndWait ∧
      s₀ = after defaults (.initial (Time.unix 1000) oneKey) before ∧
      hashToken token = hashToken ask.token ∧ EndsAt defaults s₀.records token last ∧
      s₀.now ≤ last ∧ waited.now ≤ last + 60 * 1000000000 :=
  let ⟨before, s₀, token, last, begins, there, digest, ends, unended, _, _, bound, _⟩ :=
    active_answer_outlives_token_by_at_most_cache_ttl defaults (Time.unix 1000) oneKey askAndWait
      waited rfl ask _ _ waited_active rfl
  ⟨before, s₀, token, last, begins, there, digest, ends, unended, bound⟩

end TheAuth.Server.IntrospectRuns
