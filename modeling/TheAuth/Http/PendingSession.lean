import TheAuth.Http.Routes

/-!
# Requests with a pending session

`RequireAuth` refuses a session of level `pending2FA`. The authorization endpoint, the device
verification page and the logout are behind `Authn` alone, and act for its user (`Exposed`); every
other request does so only to verify the second factor.
-/

set_option autoImplicit false

namespace TheAuth.Http

open Go TheAuth.Server Store Totp Library.Run List Option Bool

/-- Every session of the cookie is the user's and waits for the second factor. -/
def PendingOnly (s : UserStore) (cookie : Bytes) (userID : ULID) : Prop :=
  ∀ ⦃id sess⦄, s.sessions.lookup id = some sess → sess.tokenHash = hashToken cookie →
    sess.userID = userID ∧ sess.authLevel = .pending2FA

namespace PendingOnly

variable {p : SessionPolicy} {s next : UserStore} {cookie : Bytes} {userID : ULID}
  {a : SessionAnswers} {sess : Session} {user : User}

section

variable (pending : PendingOnly s cookie userID)
include pending

theorem of_sessionsKept (kept : s.SessionsKept next) :
    PendingOnly next cookie userID := by
  intro _ _ here token
  obtain ⟨_, stored, holder, level⟩ := kept here
  obtain ⟨owner, unproved⟩ := pending stored (holder.tokenHash ▸ token)
  exact ⟨holder.userID.trans owner, level.trans unproved⟩

theorem signIn {proof : SignIn} (other : proof.session.tokenHash ≠ hashToken cookie) :
    PendingOnly (Http.signIn s proof) cookie userID := by
  have sessions : (proof.newUser.elim s s.createUser).sessions = s.sessions := by
    cases proof.newUser <;> rfl
  intro _ _ here token
  unfold Http.signIn UserStore.createSession at here
  rw [GoMap.lookup_insert_eq, sessions] at here
  split at here
  · cases here
    unfold UserStore.withLevel at token
    split at token <;> exact absurd token other
  · exact pending here token

theorem of_row {row : Session}
    (found : s.sessionByTokenHash (hashToken cookie) = some row) (seen : SeenAs row sess)
    (here : s.users.lookup row.userID = some user) : user.id = userID ∧ sess.isFull = false := by
  obtain ⟨stored, token⟩ := UserStore.of_sessionByTokenHash found
  obtain ⟨owner, level⟩ := pending stored token
  obtain ⟨_, rfl⟩ := seen
  refine ⟨(s.usersKeyed here).trans owner, ?_⟩
  simp only [level]
  rfl

theorem of_validate (passed : validate p s cookie a = (.ok (sess, user), next)) :
    user.id = userID ∧ sess.isFull = false := by
  obtain ⟨_, found, seen, here, -⟩ := validate_ok passed
  exact pending.of_row found seen here

theorem of_authn (found : authn p s cookie a = (some (sess, user), next)) :
    user.id = userID ∧ sess.isFull = false := by
  obtain ⟨_, stored, seen, here⟩ := authn_some found
  exact pending.of_row stored seen here

end

end PendingOnly

/-- And no other credential of the user. Another session has a fresh token. -/
structure CookieOnly (userID : ULID) (cookie : Bytes) (r : Request) : Prop where
  carries : r.cookie = cookie
  bearer : r.bearer = none
  signIn : ∀ ⦃route proof⦄, r.body = .signIn route (some proof) →
    proof.session.userID ≠ userID ∧ proof.session.tokenHash ≠ hashToken cookie

/-! ## Quiet answers -/

section

variable {srv : Server} {sys : System} {r : Request} {cookie : Bytes} {userID : ULID}

/-- The answer acts for nobody and gives the user nothing. -/
structure Quiet (cookie : Bytes) (userID : ULID) (sys : System)
    (answer : Except Refusal Served × System) : Prop where
  acts : ∀ ⦃served⦄, answer.1 = .ok served → served.actsAs = none
  pending : PendingOnly answer.2.accounts cookie userID
  grants : NothingFor userID sys.grants answer.2.grants

theorem Quiet.refused {next : UserStore} (pending : PendingOnly sys.accounts cookie userID)
    (kept : sys.accounts.SessionsKept next) (e : Refusal) :
    Quiet cookie userID sys (.error e, { sys with accounts := next }) :=
  ⟨nofun, pending.of_sessionsKept kept, .refl _ _⟩

theorem Quiet.anonymous {reply : Reply} {next : GrantStore}
    (pending : PendingOnly sys.accounts cookie userID)
    (nothing : NothingFor userID sys.grants next) :
    Quiet cookie userID sys (.ok ⟨none, reply⟩, { sys with grants := next }) := by
  refine ⟨fun served done => ?_, pending, nothing⟩
  cases done
  rfl

theorem Quiet.accounts {reply : Reply} {next : UserStore}
    (pending : PendingOnly next cookie userID) :
    Quiet cookie userID sys (.ok ⟨none, reply⟩, { sys with accounts := next }) := by
  refine ⟨fun served done => ?_, pending, .refl _ _⟩
  cases done
  rfl

theorem handleEndSession_sessionsKept (s : UserStore) (found : Option (Session × User))
    (a : EndSessionAnswers) : s.SessionsKept (handleEndSession s found a) := by
  unfold handleEndSession
  split
  · exact .refl s
  split
  · exact .revokeSession _ _
  · exact .refl s

theorem quiet_throughRequireAuth (pending : PendingOnly sys.accounts r.cookie userID)
    (handler : Session → User → System → System) :
    Quiet r.cookie userID sys (throughRequireAuth srv sys r handler) := by
  have kept := authn_sessionsKept srv.policy sys.accounts r.session r.cookie
  rw [← requireAuth_store] at kept
  unfold throughRequireAuth
  split
  next e next refused =>
    rw [refused] at kept
    exact .refused pending kept e
  rename_i passed
  obtain ⟨found, full⟩ := requireAuth_ok passed
  have unproved := (pending.of_authn found).2
  rw [full] at unproved
  cases unproved

theorem quiet_throughRequireAbility (pending : PendingOnly sys.accounts r.cookie userID)
    (bare : r.bearer = none) : Quiet r.cookie userID sys (throughRequireAbility srv sys r) := by
  have kept := validate_sessionsKept srv.policy sys.accounts r.session r.cookie
  unfold throughRequireAbility
  rw [bare]
  dsimp only
  split
  next refused =>
    rw [refused] at kept
    exact .refused pending kept _
  rename_i passed
  have unproved := (pending.of_validate passed).2
  rw [passed] at kept
  rw [unproved]
  exact .refused pending kept _

theorem quiet_throughBearer (pending : PendingOnly sys.accounts cookie userID)
    (bare : r.bearer = none) (route : BearerRoute) :
    Quiet cookie userID sys (throughBearer srv sys r route) := by
  unfold throughBearer
  rw [bare]
  exact .refused pending (.refl _) _

theorem throughPendingOrFull_refused {handler : System → Except TotpError Session × TotpState}
    (fails : ∀ {sys e}, (handler sys).1 = .error e →
      sys.accounts.SessionsKept (handler sys).2.accounts)
    (unverified : ∀ {served sess}, (throughPendingOrFull srv sys r handler).1 = .ok served →
      served.reply ≠ .secondFactor (.ok sess)) :
    sys.accounts.SessionsKept (throughPendingOrFull srv sys r handler).2.accounts ∧
      (throughPendingOrFull srv sys r handler).2.grants = sys.grants := by
  have kept := requirePendingOrFull_sessionsKept srv.policy sys.accounts r.session r.cookie
  unfold throughPendingOrFull at unverified ⊢
  split
  next refused =>
    rw [refused] at kept
    exact ⟨kept, rfl⟩
  rename_i next passed
  rw [passed] at kept unverified
  refine ⟨kept.trans ?_, rfl⟩
  cases answer : (handler { sys with accounts := next }).1 with
  | error => exact fails answer
  | ok => exact absurd (congrArg Reply.secondFactor answer) (unverified rfl)

end

section

variable [StdLib] [UrlLib] [RuneLib] [UlidText] (srv : Server) (sys : System) (r : Request)

def step : Option System := some (serve srv sys r).2

/-- The request is served on behalf of the user. -/
def ActsAs (userID : ULID) : Prop :=
  ∃ served, (serve srv sys r).1 = .ok served ∧ served.actsAs = some userID

def Reply.isVerified : Reply → Bool
  | .secondFactor (.ok _) => true
  | _ => false

/-- The request passes the second factor. -/
def Verifies : Prop :=
  ∃ served sess, (serve srv sys r).1 = .ok served ∧ served.reply = .secondFactor (.ok sess)

instance (sys : System) (r : Request) : Decidable (Verifies srv sys r) :=
  decidable_of_iff ((serve srv sys r).1.toOption.any (·.reply.isVerified) = true) <| by
    unfold Verifies
    cases (serve srv sys r).1 with
    | error => simp [Except.toOption]
    | ok served =>
      obtain ⟨_, reply⟩ := served
      rcases reply with _ | _ | _ | _ | _ | _ | (_ | _) <;> simp [Except.toOption, Reply.isVerified]

/-! ## Requests -/

/-- Behind `Authn` alone, with a cookie that validates. -/
def Exposed : Prop :=
  r.body.isBehindAuthn = true ∧ (authn srv.policy sys.accounts r.cookie r.session).1.isSome = true

variable {srv} {sys : System} {r : Request} {cookie : Bytes} {userID : ULID}

theorem quiet_serve (pending : PendingOnly sys.accounts r.cookie userID)
    (only : CookieOnly userID r.cookie r) (guarded : r.body.isBehindAuthn = false)
    (other : r.body.isSecondFactor = false) : Quiet r.cookie userID sys (serve srv sys r) := by
  unfold serve
  cases body : r.body with
  | anonymous => exact .anonymous pending (.refl _ _)
  | signIn _ proof =>
    cases proof with
    | none => exact .accounts pending
    | some => exact .accounts (pending.signIn (only.signIn body).2)
  | reset owner now =>
    cases owner with
    | none => exact .accounts pending
    | some id => exact .accounts (pending.of_sessionsKept (.revokeUserSessions id now))
  | bearer route => exact quiet_throughBearer pending only.bearer route
  | doctor => exact quiet_throughRequireAbility pending only.bearer
  | signedIn => exact quiet_throughRequireAuth pending _
  | deviceAuthorization => exact .anonymous pending (startDeviceAuthorization_nothingFor srv.device)
  | tokenCode _ a => exact .anonymous pending (exchangeAuthorizationCode_nothingFor srv.authorize a)
  | tokenDevice => exact .anonymous pending (pollDeviceToken_nothingFor srv.device)
  | totpVerify | totpRecovery =>
    rw [body] at other
    cases other
  | _ =>
    rw [body] at guarded
    cases guarded

/-- It runs for the user `Authn` found and raises no session. -/
structure BehindAuthn (srv : Server) (sys : System) (r : Request)
    (answer : Except Refusal Served × System) : Prop where
  acts : ∃ reply, answer.1 =
    .ok ⟨(authn srv.policy sys.accounts r.cookie r.session).1.map fun f => f.2.id, reply⟩
  kept : sys.accounts.SessionsKept answer.2.accounts
  grants : ∀ userID, (authn srv.policy sys.accounts r.cookie r.session).1 = none →
    NothingFor userID sys.grants answer.2.grants

theorem behindAuthn_serve (bare : r.body.isBehindAuthn = true) :
    BehindAuthn srv sys r (serve srv sys r) := by
  have kept := authn_sessionsKept srv.policy sys.accounts r.session r.cookie
  unfold serve
  cases body : r.body with
  | authorize _ a =>
    refine ⟨⟨_, rfl⟩, kept, fun userID none_ => ?_⟩
    simp only [throughAuthn, none_]
    exact handleAuthorize_nothingFor srv.authorize a nofun
  | devicePage => exact ⟨⟨_, rfl⟩, kept, fun _ _ => .refl _ _⟩
  | deviceDecision =>
    refine ⟨⟨_, rfl⟩, kept, fun userID none_ => ?_⟩
    simp only [throughAuthn, none_]
    exact handleDeviceDecision_nothingFor srv.device nofun
  | endSession =>
    exact ⟨⟨_, rfl⟩, kept.trans (handleEndSession_sessionsKept _ _ _), fun _ _ => .refl _ _⟩
  | _ =>
    rw [body] at bare
    cases bare

theorem serve_secondFactor (factor : r.body.isSecondFactor = true)
    (unverified : ¬ Verifies srv sys r) :
    sys.accounts.SessionsKept (serve srv sys r).2.accounts ∧
      (serve srv sys r).2.grants = sys.grants := by
  have refused : ∀ {served sess}, (serve srv sys r).1 = .ok served →
      served.reply ≠ .secondFactor (.ok sess) :=
    fun done proved => unverified ⟨_, _, done, proved⟩
  unfold serve at refused ⊢
  cases body : r.body with
  | totpVerify =>
    rw [body] at refused
    exact throughPendingOrFull_refused handleVerify_sessionsKept refused
  | totpRecovery =>
    rw [body] at refused
    exact throughPendingOrFull_refused handleRecovery_sessionsKept refused
  | _ =>
    rw [body] at factor
    cases factor

section

variable (pending : PendingOnly sys.accounts r.cookie userID)
include pending

theorem pendingOnly_serve
    (only : CookieOnly userID r.cookie r) (unverified : ¬ Verifies srv sys r) :
    PendingOnly (serve srv sys r).2.accounts r.cookie userID := by
  by_cases bare : r.body.isBehindAuthn = true
  · exact pending.of_sessionsKept (behindAuthn_serve bare).kept
  by_cases factor : r.body.isSecondFactor = true
  · exact pending.of_sessionsKept (serve_secondFactor factor unverified).1
  · exact (quiet_serve pending only (eq_false_iff.mpr bare)
      (eq_false_iff.mpr factor)).pending

theorem actsAs_iff_exposed (only : CookieOnly userID r.cookie r) :
    (ActsAs srv sys r userID → r.body.isSecondFactor = true) ↔ ¬ Exposed srv sys r := by
  by_cases bare : r.body.isBehindAuthn = true
  · have behind : BehindAuthn srv sys r (serve srv sys r) := behindAuthn_serve bare
    obtain ⟨_, done⟩ := behind.acts
    constructor
    · rintro acts ⟨_, found⟩
      obtain ⟨⟨_, _⟩, here⟩ := isSome_iff_exists.mp found
      have own := (pending.of_authn (Prod.ext here rfl)).1
      refine Body.not_isSecondFactor bare (acts ⟨_, done, ?_⟩)
      rw [here]
      exact congrArg some own
    · rintro hidden ⟨served, reached, acts⟩
      rw [done] at reached
      cases reached
      obtain ⟨found, here, _⟩ := map_eq_some_iff.mp acts
      exact absurd ⟨bare, isSome_iff_exists.mpr ⟨found, here⟩⟩ hidden
  · refine ⟨fun _ exposed => bare exposed.1, fun _ => ?_⟩
    rintro ⟨_, reached, acts⟩
    by_contra factor
    have quiet : Quiet r.cookie userID sys (serve srv sys r) :=
      quiet_serve pending only (eq_false_iff.mpr bare) (eq_false_iff.mpr factor)
    rw [quiet.acts reached] at acts
    cases acts

theorem nothingFor_serve (only : CookieOnly userID r.cookie r) (unverified : ¬ Verifies srv sys r)
    (hidden : ¬ Exposed srv sys r) : NothingFor userID sys.grants (serve srv sys r).2.grants := by
  by_cases bare : r.body.isBehindAuthn = true
  · refine (behindAuthn_serve bare).grants userID ?_
    rw [← not_isSome_iff_eq_none]
    exact fun found => hidden ⟨bare, found⟩
  by_cases factor : r.body.isSecondFactor = true
  · rw [(serve_secondFactor factor unverified).2]
    exact .refl _ _
  · exact (quiet_serve pending only (eq_false_iff.mpr bare)
      (eq_false_iff.mpr factor)).grants

end

/-- The request has only the cookie and does not pass the second factor. -/
def Unproved (srv : Server) (userID : ULID) (cookie : Bytes) (sys : System) (r : Request) : Prop :=
  CookieOnly userID cookie r ∧ ¬ Verifies srv sys r

theorem pendingOnly_step {next : System} (pending : PendingOnly sys.accounts cookie userID)
    (unproved : Unproved srv userID cookie sys r) (taken : step srv sys r = some next) :
    PendingOnly next.accounts cookie userID := by
  obtain ⟨only, unverified⟩ := unproved
  cases taken
  obtain rfl := only.carries
  exact pendingOnly_serve pending only unverified

/-- Since the start the session is pending and the user got nothing. -/
structure Waiting (cookie : Bytes) (userID : ULID) (start sys : System) : Prop where
  pending : PendingOnly sys.accounts cookie userID
  grants : NothingFor userID start.grants sys.grants

theorem waiting_step {start next : System} (waiting : Waiting cookie userID start sys)
    (unproved : Unproved srv userID cookie sys r) (hidden : ¬ Exposed srv sys r)
    (taken : step srv sys r = some next) : Waiting cookie userID start next := by
  refine ⟨pendingOnly_step waiting.pending unproved taken, ?_⟩
  obtain ⟨only, unverified⟩ := unproved
  cases taken
  obtain rfl := only.carries
  exact waiting.grants.trans (nothingFor_serve waiting.pending only unverified hidden)

/-- **Until the second factor is verified, the requests made with a pending session act for its
user, other than to verify the factor, exactly when they are exposed.** -/
theorem pending_session_acts_for_second_factor {requests : List Request}
    (pending : PendingOnly sys.accounts cookie userID)
    (only : ∀ r ∈ requests, CookieOnly userID cookie r)
    (unverified : Throughout (step srv) (fun sys r => ¬ Verifies srv sys r) sys requests) :
    Throughout (step srv) (fun sys r =>
        (ActsAs srv sys r userID → r.body.isSecondFactor = true) ↔ ¬ Exposed srv sys r)
      sys requests ∧
    (Throughout (step srv) (fun sys r => ¬ Exposed srv sys r) sys requests →
      ∀ last, run (step srv) sys requests = some last →
        NothingFor userID sys.grants last.grants) := by
  have unproved : Throughout (step srv) (Unproved srv userID cookie) sys requests :=
    (throughout_of_forall only).and unverified
  constructor
  · refine throughout_of_invariant pendingOnly_step (fun pending unproved => ?_) pending unproved
    obtain ⟨only, _⟩ := unproved
    obtain rfl := only.carries
    exact actsAs_iff_exposed pending only
  · intro hidden _ ran
    have waiting := invariant_of_run_throughout
      (fun waiting both taken => waiting_step waiting both.1 both.2 taken)
      (Waiting.mk pending (.refl userID sys.grants)) (unproved.and hidden) ran
    exact waiting.grants

end

namespace PasswordOnly

def token : Bytes := [1]

def system : System where
  accounts := (UserStore.empty.createUser ⟨1, str "user@example.com"⟩).createSession
    { id := 2
      userID := 1
      tokenHash := hashToken token
      expiresAt := 100
      authLevel := .pending2FA }
  factors := {}
  grants := .empty

def resources : ResourceConfig := { resources := [⟨str "https://api", [str "read"]⟩] }

def client : OAuthClient where
  clientID := str "cli"
  redirectURIs := [str "https://cli/cb"]
  grantTypes := [grantTypeDeviceCode]

def server : Server where
  policy := {}
  authorize := { resources, authorizationCodeTTL := 60 }
  device := { issuer := str "https://as", encryptionKey := [7], resources, config := some {} }
  authContext _ := {}
  signedIn _ _ _ sys := sys
  bearer _ _ sys := sys

def request (body : Body) : Request := { cookie := token, session := { now := 1 }, body }

def start : Request :=
  request <| .deviceAuthorization ⟨[str "read"], str "https://api"⟩
    { now := 1
      client := .ok client
      deviceCode := str "device"
      id := 5
      userCodes := [str "BCDFGHJK"] }

def authorize : Request :=
  request <| .authorize
    { clientID := str "cli"
      redirectURI := str "https://cli/cb"
      responseType := str "code"
      scope := str "read"
      codeChallenge := str "challenge"
      codeChallengeMethod := str "S256"
      resource := str "https://api" }
    { now := 1, resolveClient := fun _ => some client, newToken := str "code" }

def approve : Request :=
  request <| .deviceDecision (some ⟨str "bcdf-ghjk", str "approve"⟩)
    { now := 1, attemptAllowed := fun _ => some true }

theorem pendingOnly : PendingOnly system.accounts token 1 := by
  intro id sess here _
  obtain ⟨-, rfl⟩ | ⟨-, here⟩ := GoMap.of_lookup_insert here
  · exact ⟨rfl, rfl⟩
  · cases here

theorem cookieOnly {body : Body} (other : ∀ route proof, body ≠ .signIn route (some proof)) :
    CookieOnly 1 token (request body) :=
  ⟨rfl, rfl, fun route proof same => absurd same (other route proof)⟩

def taken : System → Request → Option System :=
  @step StdLib.refusing UrlLib.refusing RuneLib.ascii UlidText.unary server

def verifies : System → Request → Prop :=
  @Verifies StdLib.refusing UrlLib.refusing RuneLib.ascii UlidText.unary server

instance (sys : System) (r : Request) : Decidable (verifies sys r) :=
  inferInstanceAs (Decidable (@Verifies StdLib.refusing UrlLib.refusing RuneLib.ascii UlidText.unary
    server sys r))

def actsAs : System → Request → ULID → Prop :=
  @ActsAs StdLib.refusing UrlLib.refusing RuneLib.ascii UlidText.unary server

def me : Request := request (.signedIn .me)

theorem pending_session_acts_for_second_factor_me :
    Throughout taken (fun sys r =>
        (actsAs sys r 1 → r.body.isSecondFactor = true) ↔ ¬ Exposed server sys r)
      system [start, me] ∧
    ∃ last, run taken system [start, me] = some last ∧ NothingFor 1 system.grants last.grants := by
  have only : ∀ r ∈ [start, me], CookieOnly 1 token r := by
    intro r listed
    rcases mem_pair.mp listed with rfl | rfl <;> exact cookieOnly fun _ _ => nofun
  have guarded : ∀ r ∈ [start, me], r.body.isBehindAuthn ≠ true := by decide
  have hidden : Throughout taken (fun sys r => ¬ Exposed server sys r) system [start, me] :=
    (throughout_of_forall guarded).mono fun guarded exposed => guarded exposed.1
  obtain ⟨exact_, quiet⟩ := @pending_session_acts_for_second_factor StdLib.refusing
    UrlLib.refusing RuneLib.ascii UlidText.unary server system token 1 [start, me] pendingOnly only
    (by decide +kernel)
  exact ⟨exact_, _, rfl, quiet hidden _ rfl⟩

/-- The first request makes the authorization server issue a code, the second approves a device. -/
theorem pending_session_authorizes_and_approves :
    PendingOnly system.accounts token 1 ∧
    (∀ r ∈ [start, authorize, approve], CookieOnly 1 token r) ∧
    Throughout taken (fun sys r => ¬ verifies sys r) system [start, authorize, approve] ∧
    ∃ last, run taken system [start, authorize, approve] = some last ∧
      last.grants.authzCodes.values.map AuthorizationCode.userID = [1] ∧
      last.grants.devices.values.map (fun d => (d.status, d.userID)) = [(.approved, some 1)] := by
  refine ⟨pendingOnly, ?_, by decide +kernel, _, rfl, ?_⟩
  · intro _ listed
    rcases mem_cons.mp listed with rfl | listed
    · exact cookieOnly fun _ _ => nofun
    · rcases mem_pair.mp listed with rfl | rfl <;> exact cookieOnly fun _ _ => nofun
  · decide +kernel

end PasswordOnly

end TheAuth.Http
