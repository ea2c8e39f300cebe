import TheAuth.Library.Run
import TheAuth.Password.Credentials
import TheAuth.Store.Users

/-!
# Sign-ins and password changes

`step` is one atomic operation of a call with the computation up to the next one. Beside the store,
a system counts the changes of each user's password (`gen`) and records which password was proved
for a session (`obtained`). No call reads them.
-/

set_option autoImplicit false

namespace TheAuth.Password

open Go Store Server

/-- A stored reset token. -/
structure PasswordResetToken where
  (id userID : ULID)
  tokenHash : Bytes
  expiresAt : Time
  usedAt : Option Time := none

def PasswordResetToken.redeemable (hash : Bytes) (now : Time) (rt : PasswordResetToken) : Bool :=
  rt.tokenHash == hash && rt.usedAt.isNone && !decide (rt.expiresAt < now)

def consumePasswordResetToken (tokens : GoMap ULID PasswordResetToken) (hash : Bytes)
    (now : Time) : Option (PasswordResetToken × GoMap ULID PasswordResetToken) :=
  (tokens.find? fun rt => rt.redeemable hash now).map fun (id, rt) =>
    ({ rt with usedAt := some now }, tokens.insert id { rt with usedAt := some now })

/-- A step-up and a change are for the user of a session. -/
inductive Request where
  | signin (emailAddr password : Bytes)
  | stepUp (userID : ULID) (password : Bytes)
  | reset (token newPassword : Bytes)
  | changePassword (userID : ULID) (currentPassword newPassword : Bytes)

def Request.newPassword : Request → Bytes
  | .reset _ newPassword => newPassword
  | .changePassword _ _ newPassword => newPassword
  | _ => []

inductive Cause where
  | invalidHash | notFound | random | collaborator
  deriving DecidableEq

inductive Refusal where
  | coded (code text : Bytes)
  | fault (context : Bytes) (cause : Cause)
  deriving DecidableEq

def minPasswordLength : ℕ := 12

def defaultMaxPasswordBytes : ℕ := 72

structure Config where
  normalizeEmail : Bytes → Bytes := id
  (minLength maxBytes : Int := 0)
  (totpEnabled allowLegacyBcrypt : Bool := false)
  ttl : Int := 0

/-- What a call draws and reads. -/
structure Answers where
  (now later : Time := 0)
  salt : Option Bytes := none
  (refused breached trusted : Bool := false)
  sessionID : ULID := 0
  token : Bytes := []

/-- A generation is the number of password changes stored before the hash was read. -/
inductive Phase where
  | ready
  | upgrading (userID : ULID) (gen : ℕ) (newHash : Bytes)
  | checked (userID : ULID) (gen : ℕ)
  | issuing (userID : ULID) (gen : ℕ) (level : AuthLevel)
  | signedIn (sessionID : ULID)
  | steppedUp
  | storing (userID : ULID) (read : Option ℕ) (hash : Bytes)
  | revoking (userID : ULID) (read : Option ℕ) (gen : ℕ) (hash : Bytes)
  | finding (userID : ULID) (read gen : ℕ) (hash : Bytes)
  | reissuing (userID : ULID) (read gen : ℕ) (hash : Bytes)
  | changed (userID : ULID) (gen : ℕ) (hash : Bytes)
  | refused (e : Refusal)
  deriving DecidableEq

/-- The generation of the password that was proved, and of the change that issued it. -/
structure Obtained where
  proved : ℕ
  change : Option ℕ := none
  deriving DecidableEq

/-- The accounts, and where each call stands. -/
structure System where
  store : UserStore
  resetTokens : GoMap ULID PasswordResetToken
  phase : ℕ → Phase
  gen : ULID → ℕ
  obtained : ULID → Option Obtained

def System.initial (store : UserStore) (resetTokens : GoMap ULID PasswordResetToken) : System where
  store
  resetTokens
  phase := fun _ => .ready
  gen := fun _ => 0
  obtained := fun _ => none

def System.move (s : System) (r : ℕ) (p : Phase) : System :=
  { s with phase := Function.update s.phase r p }

section

def afterUpgrade (req : Request) (userID : ULID) (gen : ℕ) : Phase :=
  match req with
  | .signin _ _ => .checked userID gen
  | _ => .steppedUp

def storeContext : Option ℕ → Bytes
  | none => []
  | some _ => str "theauth: change password: store: "

variable [PasswordLib] (cfg : Config)

def invalidCredentials (text : String) : Refusal := .coded (str "invalid_credentials") (str text)

def passwordMust (bound : String) (n : ℕ) (unit : String) : Refusal :=
  .coded (str "weak_password") (str ("password must be " ++ bound ++ " " ++ toString n ++ unit))

def bound (configured : Int) (default : ℕ) : ℕ :=
  if configured ≤ 0 then default else configured.toNat

def validatePassword (breached : Bool) (pw : Bytes) : Option Refusal :=
  if pw.length < bound cfg.minLength minPasswordLength then
    some (passwordMust "at least" (bound cfg.minLength minPasswordLength) " characters")
  else if bound cfg.maxBytes defaultMaxPasswordBytes < pw.length then
    some (passwordMust "at most" (bound cfg.maxBytes defaultMaxPasswordBytes) " bytes")
  else if breached then
    some (.coded (str "weak_password") (str "password appears in a known data breach"))
  else none

variable (userID : ULID)

def afterSigninCheck (gen : ℕ) (v : Verdict) : Phase :=
  if v.failed then .refused (.fault [] .invalidHash)
  else if v.matched = false then .refused (invalidCredentials "invalid email or password")
  else if v.newHash ≠ [] then .upgrading userID gen v.newHash
  else .checked userID gen

variable (s : System)

def beginSignin (emailAddr password : Bytes) (a : Answers) : Phase :=
  if a.refused then .refused (.fault [] .collaborator)
  else match s.store.userByEmail (cfg.normalizeEmail emailAddr) with
  | none => .refused (invalidCredentials "invalid email or password")
  | some user =>
    if s.store.userPasswordHashByID user.id = [] then
      .refused (invalidCredentials "invalid email or password")
    else
      afterSigninCheck user.id (s.gen user.id)
        (verifyCredential password (s.store.userPasswordHashByID user.id)
          cfg.allowLegacyBcrypt a.salt)

def afterStepUpCheck (gen : ℕ) (v : Verdict) : Phase :=
  if v.failed then .refused (.fault (str "theauth: step-up: verify password: ") .invalidHash)
  else if v.newHash ≠ [] then .upgrading userID gen v.newHash
  else if v.matched = false then .refused (invalidCredentials "incorrect password")
  else .steppedUp

variable (userID : ULID)

def beginStepUp (password : Bytes) (a : Answers) : Phase :=
  if s.store.userPasswordHashByID userID = [] then
    .refused (invalidCredentials "incorrect password")
  else
    afterStepUpCheck userID (s.gen userID)
      (verifyCredential password (s.store.userPasswordHashByID userID) cfg.allowLegacyBcrypt a.salt)

def beginStoring (read : Option ℕ) (newPassword context : Bytes) (salt : Option Bytes) : Phase :=
  match salt with
  | none => .refused (.fault context .random)
  | some salt => .storing userID read (hashPassword newPassword salt)

def beginReset (token newPassword : Bytes) (a : Answers) :
    Phase × GoMap ULID PasswordResetToken :=
  if token = [] then
    (.refused (.coded (str "password_reset_invalid") (str "missing token")), s.resetTokens)
  else match validatePassword cfg a.breached newPassword with
  | some e => (.refused e, s.resetTokens)
  | none =>
    match consumePasswordResetToken s.resetTokens (hashToken token) a.now with
    | none =>
      (.refused (.coded (str "password_reset_invalid") (str "invalid or already-used token")),
        s.resetTokens)
    | some (rt, tokens) =>
      if rt.expiresAt < a.later then
        (.refused (.coded (str "password_reset_expired") (str "reset token expired")), tokens)
      else (beginStoring rt.userID none newPassword [] a.salt, tokens)

def afterChangeCheck (gen : ℕ) (newPassword : Bytes) (v : Verdict) (salt : Option Bytes) : Phase :=
  if v.failed then .refused (.fault (str "theauth: change password: verify: ") .invalidHash)
  else if v.matched = false then .refused (invalidCredentials "current password is incorrect")
  else if newPassword.length < minPasswordLength then
    .refused (passwordMust "at least" minPasswordLength " characters")
  else beginStoring userID (some gen) newPassword (str "theauth: change password: hash: ") salt

def beginChange (currentPassword newPassword : Bytes) (a : Answers) :
    Phase :=
  if s.store.userPasswordHashByID userID = [] then
    .refused (invalidCredentials "current password is incorrect")
  else
    afterChangeCheck userID (s.gen userID) newPassword
      (verifyCredential currentPassword (s.store.userPasswordHashByID userID) cfg.allowLegacyBcrypt
        a.salt) a.salt

/-- From the request to the first wait. -/
def begin_ (req : Request) (a : Answers) : Phase × GoMap ULID PasswordResetToken :=
  match req with
  | .signin emailAddr password => (beginSignin cfg s emailAddr password a, s.resetTokens)
  | .stepUp userID password => (beginStepUp cfg s userID password a, s.resetTokens)
  | .reset token newPassword => beginReset cfg s token newPassword a
  | .changePassword userID currentPassword newPassword =>
    (beginChange cfg s userID currentPassword newPassword a, s.resetTokens)

def afterGate (gen : ℕ) (a : Answers) : Phase :=
  if a.refused then .refused (.fault [] .collaborator)
  else if cfg.totpEnabled && (s.store.totpSecrets.lookup userID).any (·.confirmedAt.isSome) &&
      !a.trusted then
    .issuing userID gen .pending2FA
  else .issuing userID gen .unset

def newSession (level : AuthLevel) (a : Answers) : Session where
  id := a.sessionID
  userID
  tokenHash := hashToken a.token
  createdAt := a.now
  lastSeenAt := if level = .pending2FA then 0 else a.now
  expiresAt := a.now + if level = .pending2FA then 600 * 1000000000 else cfg.ttl
  authLevel := level

def System.createSession (s : System) (userID : ULID) (level : AuthLevel) (o : Obtained)
    (a : Answers) : System :=
  { s with
    store := s.store.createSession (newSession cfg userID level a)
    obtained := Function.update s.obtained a.sessionID (some o) }

omit [PasswordLib] in
def afterRevoke (read : Option ℕ) (gen : ℕ) (hash : Bytes) : Phase :=
  match read with
  | none => .changed userID gen hash
  | some read => .finding userID read gen hash

/-- One operation of one call. -/
inductive Action where
  | advance (r : ℕ) (a : Answers)
  | revokeSession (id : ULID) (now : Time)

variable (requests : ℕ → Request)

/-- One operation of a call. -/
def advance (s : System) (r : ℕ) (a : Answers) : Option System :=
  match s.phase r with
  | .ready =>
    some ({ s with resetTokens := (begin_ cfg s (requests r) a).2 }.move r
      (begin_ cfg s (requests r) a).1)
  | .upgrading userID gen newHash =>
    some ({ s with store := (s.store.setUserPassword userID newHash).getD s.store }.move r
      (afterUpgrade (requests r) userID gen))
  | .checked userID gen => some (s.move r (afterGate cfg s userID gen a))
  | .issuing userID gen level =>
    if a.refused then some (s.move r (.refused (.fault [] .collaborator)))
    else
      some ((s.createSession cfg userID level { proved := gen } a).move r (.signedIn a.sessionID))
  | .storing userID read hash =>
    match s.store.setUserPassword userID hash with
    | none => some (s.move r (.refused (.fault (storeContext read) .notFound)))
    | some store =>
      some ({ s with store, gen := Function.update s.gen userID (s.gen userID + 1) }.move r
        (.revoking userID read (s.gen userID + 1) hash))
  | .revoking userID read gen hash =>
    some ({ s with store := s.store.revokeUserSessions userID a.now }.move r
      (afterRevoke userID read gen hash))
  | .finding userID read gen hash =>
    match s.store.users.lookup userID with
    | none =>
      some (s.move r (.refused (.fault (str "theauth: change password: load user: ") .notFound)))
    | some _ => some (s.move r (.reissuing userID read gen hash))
  | .reissuing userID read gen hash =>
    if a.refused then
      some (s.move r
        (.refused (.fault (str "theauth: change password: issue session: ") .collaborator)))
    else
      some ((s.createSession cfg userID .unset { proved := read, change := some gen } a).move r
        (.changed userID gen hash))
  | .signedIn _ | .steppedUp | .changed _ _ _ | .refused _ => none

/-- One action. -/
def step (s : System) : Action → Option System
  | .advance r a => advance cfg requests s r a
  | .revokeSession id now => some { s with store := (s.store.revokeSession id now).getD s.store }

/-- What one operation can do. -/
inductive Stepped (requests : ℕ → Request) (s : System) : Action → System → Prop
  | begin (r : ℕ) (a : Answers) (ready : s.phase r = .ready) :
      Stepped requests s (.advance r a)
        ({ s with resetTokens := (begin_ cfg s (requests r) a).2 }.move r
          (begin_ cfg s (requests r) a).1)
  | refuse (r : ℕ) (a : Answers) (e : Refusal) :
      Stepped requests s (.advance r a) (s.move r (.refused e))
  | upgrade (r : ℕ) (a : Answers) (userID : ULID) (gen : ℕ) (newHash : Bytes)
      (here : s.phase r = .upgrading userID gen newHash) :
      Stepped requests s (.advance r a)
        ({ s with store := (s.store.setUserPassword userID newHash).getD s.store }.move r
          (afterUpgrade (requests r) userID gen))
  | gate (r : ℕ) (a : Answers) (userID : ULID) (gen : ℕ) (here : s.phase r = .checked userID gen) :
      Stepped requests s (.advance r a) (s.move r (afterGate cfg s userID gen a))
  | issue (r : ℕ) (a : Answers) (userID : ULID) (gen : ℕ) (level : AuthLevel)
      (here : s.phase r = .issuing userID gen level) :
      Stepped requests s (.advance r a)
        ((s.createSession cfg userID level { proved := gen } a).move r (.signedIn a.sessionID))
  | store (r : ℕ) (a : Answers) (userID : ULID) (read : Option ℕ) (hash : Bytes)
      (store : UserStore) (here : s.phase r = .storing userID read hash)
      (done : s.store.setUserPassword userID hash = some store) :
      Stepped requests s (.advance r a)
        ({ s with store, gen := Function.update s.gen userID (s.gen userID + 1) }.move r
          (.revoking userID read (s.gen userID + 1) hash))
  | revoke (r : ℕ) (a : Answers) (userID : ULID) (read : Option ℕ) (gen : ℕ) (hash : Bytes)
      (here : s.phase r = .revoking userID read gen hash) :
      Stepped requests s (.advance r a)
        ({ s with store := s.store.revokeUserSessions userID a.now }.move r
          (afterRevoke userID read gen hash))
  | find (r : ℕ) (a : Answers) (userID : ULID) (read gen : ℕ) (hash : Bytes)
      (here : s.phase r = .finding userID read gen hash) :
      Stepped requests s (.advance r a) (s.move r (.reissuing userID read gen hash))
  | reissue (r : ℕ) (a : Answers) (userID : ULID) (read gen : ℕ) (hash : Bytes)
      (here : s.phase r = .reissuing userID read gen hash) :
      Stepped requests s (.advance r a)
        ((s.createSession cfg userID .unset { proved := read, change := some gen } a).move r
          (.changed userID gen hash))
  | elsewhere (id : ULID) (now : Time) :
      Stepped requests s (.revokeSession id now)
        { s with store := (s.store.revokeSession id now).getD s.store }

variable {requests : ℕ → Request}

theorem stepped_of_advance {s next : System} {r : ℕ} {a : Answers}
    (taken : advance cfg requests s r a = some next) :
    Stepped cfg requests s (.advance r a) next := by
  unfold advance at taken
  split at taken
  next ready =>
    cases taken
    exact .begin r a ready
  next userID gen newHash here =>
    cases taken
    exact .upgrade r a userID gen newHash here
  next userID gen here =>
    cases taken
    exact .gate r a userID gen here
  next userID gen level here =>
    split at taken
    · cases taken
      exact .refuse r a _
    cases taken
    exact .issue r a userID gen level here
  next userID read hash here =>
    split at taken
    · cases taken
      exact .refuse r a _
    rename_i store done
    cases taken
    exact .store r a userID read hash store here done
  next userID read gen hash here =>
    cases taken
    exact .revoke r a userID read gen hash here
  next userID read gen hash here =>
    split at taken
    · cases taken
      exact .refuse r a _
    cases taken
    exact .find r a userID read gen hash here
  next userID read gen hash here =>
    split at taken
    · cases taken
      exact .refuse r a _
    cases taken
    exact .reissue r a userID read gen hash here
  all_goals cases taken

theorem stepped_of_step {s next : System} {a : Action}
    (taken : step cfg requests s a = some next) : Stepped cfg requests s a next := by
  cases a with
  | advance => exact stepped_of_advance cfg taken
  | revokeSession id now =>
    cases taken
    exact .elsewhere id now

end

end TheAuth.Password
