import TheAuth.Store.Users

/-!
# Sessions at the edge

`authn` lets every request pass, `requireAuth` refuses one without a session that has proved all
factors, and `requirePendingOrFull` accepts any session. Validating a token changes no session but
the one it found, and never its user, token or level.
-/

set_option autoImplicit false

namespace TheAuth.Http

open Go TheAuth.Server Store UserStore Bool

/-- The limits of a session. -/
structure SessionPolicy where
  (idleTimeout touchInterval : Time := 0)
  (toucher revoker credentials : Bool := false)

inductive CredentialAnswer where
  | valid | revoked | failed

/-- What a validation reads. -/
structure SessionAnswers where
  now : Time
  checkCredential : Bytes → CredentialAnswer := fun _ => .failed
  gateAllows : Bool := false

inductive SessionError where
  | invalidToken | sessionExpired | credentialUnchecked | userNotFound
  deriving DecidableEq

def expired (sess : Session) (now : Time) : Bool :=
  sess.revokedAt.isSome || !decide (now < sess.expiresAt)

def lastSeen (sess : Session) : Time :=
  if sess.lastSeenAt.isZero then sess.createdAt else sess.lastSeenAt

def checkCredential (p : SessionPolicy) (s : UserStore) (sess : Session) (a : SessionAnswers) :
    Except SessionError Unit × UserStore :=
  if !p.credentials then (.error .sessionExpired, s)
  else match a.checkCredential sess.credentialID with
  | .valid => (.ok (), s)
  | .failed => (.error .credentialUnchecked, s)
  | .revoked =>
    if p.revoker then (.error .sessionExpired, (s.revokeSession sess.id a.now).getD s)
    else (.error .sessionExpired, s)

variable (p : SessionPolicy) (s : UserStore)

def touchSeen (sess : Session) (a : SessionAnswers) :
    Session × UserStore :=
  if p.toucher ∧ 0 < p.touchInterval ∧ p.touchInterval ≤ a.now - lastSeen sess ∧
      a.gateAllows then
    match s.touchSession sess.id a.now with
    | none => (sess, s)
    | some next => ({ sess with lastSeenAt := a.now }, next)
  else (sess, s)

def validate (token : Bytes) (a : SessionAnswers) :
    Except SessionError (Session × User) × UserStore :=
  if token = [] then (.error .invalidToken, s)
  else match s.sessionByTokenHash (hashToken token) with
  | none => (.error .invalidToken, s)
  | some sess =>
    if expired sess a.now then (.error .sessionExpired, s)
    else if 0 < p.idleTimeout ∧ p.idleTimeout ≤ a.now - lastSeen sess then
      (.error .sessionExpired, s)
    else match if sess.credentialID ≠ [] then checkCredential p s sess a else (.ok (), s) with
    | (.error e, next) => (.error e, next)
    | (.ok _, next) =>
      match next.users.lookup sess.userID with
      | none => (.error .userNotFound, next)
      | some user =>
        let (seen, touched) := touchSeen p next sess a
        (.ok (seen, user), touched)

/-- `Check`: no last-seen update. -/
def check (token : Bytes) (a : SessionAnswers) : Except SessionError (Session × User) × UserStore :=
  validate { p with toucher := false } s token a

/-- Neither revoked, past its end, idle for too long, nor bound to a credential that does not
pass. -/
structure Usable (token : Bytes) (a : SessionAnswers) (sess : Session) : Prop where
  given : token ≠ []
  live : expired sess a.now = false
  active : ¬(0 < p.idleTimeout ∧ p.idleTimeout ≤ a.now - lastSeen sess)
  bound : sess.credentialID ≠ [] → p.credentials ∧ a.checkCredential sess.credentialID = .valid

variable (cookie : Bytes) (a : SessionAnswers)

def authn :
    Option (Session × User) × UserStore :=
  if cookie = [] then (none, s)
  else match validate p s cookie a with
  | (.ok found, next) => (some found, next)
  | (.error _, next) => (none, next)

inductive Refusal where
  | unauthenticated | stepUpRequired | noActiveOrg
  | forbidden (permission : Bytes)
  deriving DecidableEq

def requireAuth :
    Except Refusal (Session × User) × UserStore :=
  match authn p s cookie a with
  | (none, next) => (.error .unauthenticated, next)
  | (some (sess, user), next) =>
    if !sess.isFull then (.error .stepUpRequired, next) else (.ok (sess, user), next)

def requirePendingOrFull : Except Refusal (Session × User) × UserStore :=
  match authn p s cookie a with
  | (none, next) => (.error .unauthenticated, next)
  | (some found, next) => (.ok found, next)

section

variable (p : SessionPolicy) (s : UserStore) (a : SessionAnswers)

/-- At most the session under the identifier differs, and keeps its user, token and level. -/
def WritesOnly (id : ULID) (before after : UserStore) : Prop :=
  after = before ∨ ∃ change, ∃ kept : ∀ row, SameHolder row (change row),
    (∀ row : Session, (change row).authLevel = row.authLevel) ∧
      before.changeSession id change kept = some after

theorem writesOnly_revokeSession (id : ULID) (now : Time) :
    WritesOnly id s ((s.revokeSession id now).getD s) := by
  cases done : s.revokeSession id now with
  | none => exact .inl rfl
  | some => exact .inr ⟨fun row => { row with revokedAt := some now },
        fun _ => ⟨rfl, rfl, rfl, rfl⟩, fun _ => rfl, done⟩

theorem touch_authLevel (now : Time) (sess : Session) :
    (touch now sess).authLevel = sess.authLevel := by
  unfold touch
  split <;> rfl

theorem writesOnly_touchSeen (sess : Session) :
    WritesOnly sess.id s (touchSeen p s sess a).2 := by
  unfold touchSeen
  split
  · split
    · exact .inl rfl
    next done => exact .inr ⟨_, _, touch_authLevel a.now, done⟩
  · exact .inl rfl

theorem writesOnly_checkCredential (sess : Session) :
    WritesOnly sess.id s (checkCredential p s sess a).2 := by
  unfold checkCredential
  split
  · exact .inl rfl
  split
  · exact .inl rfl
  · exact .inl rfl
  split
  · exact writesOnly_revokeSession s sess.id a.now
  · exact .inl rfl

variable {p s a} in
theorem checkCredential_ok {sess : Session} {next : UserStore}
    (passed : checkCredential p s sess a = (.ok (), next)) :
    (p.credentials ∧ a.checkCredential sess.credentialID = .valid) ∧ next = s := by
  unfold checkCredential at passed
  split at passed
  · cases passed
  rename_i wired
  split at passed
  next valid =>
    cases passed
    exact ⟨⟨by simpa using wired, valid⟩, rfl⟩
  · cases passed
  · split at passed <;> cases passed

variable {p s a} in
theorem credential_checked {sess : Session} {next : UserStore}
    (passed : (if sess.credentialID ≠ [] then checkCredential p s sess a else (.ok (), s)) =
      (.ok (), next)) :
    (sess.credentialID ≠ [] → p.credentials ∧ a.checkCredential sess.credentialID = .valid) ∧
      next = s := by
  split at passed
  · exact (checkCredential_ok passed).imp_left fun valid _ => valid
  next unbound =>
    cases passed
    exact ⟨fun bound => absurd bound unbound, rfl⟩

theorem validate_writesOnly (token : Bytes) :
    (validate p s token a).2 = s ∨ ∃ sess,
      s.sessionByTokenHash (hashToken token) = some sess ∧
        WritesOnly sess.id s (validate p s token a).2 := by
  unfold validate
  split
  · exact .inl rfl
  split
  · exact .inl rfl
  rename_i sess found
  split
  · exact .inl rfl
  split
  · exact .inl rfl
  refine .inr ⟨sess, found, ?_⟩
  split
  next checked =>
    split at checked
    · have written := writesOnly_checkCredential p s a sess
      rwa [checked] at written
    · cases checked
  rename_i next checked
  -- A credential that passed its check leaves the store as it was.
  obtain rfl := (credential_checked checked).2
  split
  · exact .inl rfl
  · exact writesOnly_touchSeen p next a sess

variable (cookie : Bytes)

theorem authn_writesOnly :
    (authn p s cookie a).2 = s ∨ ∃ sess,
      s.sessionByTokenHash (hashToken cookie) = some sess ∧
        WritesOnly sess.id s (authn p s cookie a).2 := by
  have written := validate_writesOnly p s a cookie
  unfold authn
  split
  · exact .inl rfl
  split
  all_goals
    next done => rwa [done] at written

theorem WritesOnly.sessionsKept {id : ULID} {next : UserStore} (written : WritesOnly id s next) :
    s.SessionsKept next := by
  rcases written with rfl | ⟨_, _, level, done⟩
  · exact .refl next
  · exact .changeSession level done

theorem validate_sessionsKept (token : Bytes) : s.SessionsKept (validate p s token a).2 := by
  rcases validate_writesOnly p s a token with same | ⟨_, _, written⟩
  · rw [same]
    exact .refl s
  · exact written.sessionsKept

theorem authn_sessionsKept : s.SessionsKept (authn p s cookie a).2 := by
  rcases authn_writesOnly p s a cookie with same | ⟨_, _, written⟩
  · rw [same]
    exact .refl s
  · exact written.sessionsKept

theorem requirePendingOrFull_sessionsKept :
    s.SessionsKept (requirePendingOrFull p s cookie a).2 := by
  have kept := authn_sessionsKept p s a cookie
  unfold requirePendingOrFull
  split
  all_goals
    next found => rwa [found] at kept

theorem WritesOnly.tables {id : ULID} {next : UserStore} (written : WritesOnly id s next) :
    ∃ sessions, next.toUserTables = { s.toUserTables with sessions } := by
  rcases written with rfl | ⟨change, kept, _, done⟩
  · exact ⟨next.sessions, rfl⟩
  · unfold changeSession at done
    split at done <;> cases done
    rename_i sess _
    exact ⟨s.sessions.insert id (change sess), rfl⟩

theorem authn_tables :
    ∃ sessions, (authn p s cookie a).2.toUserTables =
      { s.toUserTables with sessions } := by
  rcases authn_writesOnly p s a cookie with same | ⟨_, _, written⟩
  · exact ⟨s.sessions, by rw [same]⟩
  · exact written.tables

theorem requireAuth_store :
    (requireAuth p s cookie a).2 = (authn p s cookie a).2 := by
  unfold requireAuth
  split
  next found => rw [found]
  rename_i found
  rw [found]
  split <;> rfl

end

/-- The user has a session with this token. -/
def Holds (userID : ULID) (token : Bytes) : Prop :=
  ∃ id sess, s.sessions.lookup id = some sess ∧ sess.tokenHash = hashToken token ∧
    sess.userID = userID

/-- The same session, but for the time at which it was seen. -/
def SeenAs (row sess : Session) : Prop := ∃ now, sess = { row with lastSeenAt := now }

theorem touchSeen_seenAs (p : SessionPolicy) (s : UserStore) (sess : Session)
    (a : SessionAnswers) : SeenAs sess (touchSeen p s sess a).1 := by
  unfold touchSeen
  split
  · split
    · exact ⟨sess.lastSeenAt, rfl⟩
    · exact ⟨a.now, rfl⟩
  · exact ⟨sess.lastSeenAt, rfl⟩

variable {user : User}

theorem validate_ok {p : SessionPolicy} {s next : UserStore} {token : Bytes} {a : SessionAnswers}
    {sess : Session} (passed : validate p s token a = (.ok (sess, user), next)) :
    ∃ row, s.sessionByTokenHash (hashToken token) = some row ∧ SeenAs row sess ∧
      s.users.lookup row.userID = some user ∧ Usable p token a row := by
  unfold validate at passed
  split at passed
  · cases passed
  rename_i given
  split at passed
  · cases passed
  rename_i row found
  split at passed
  · cases passed
  rename_i live
  split at passed
  · cases passed
  rename_i active
  split at passed
  · cases passed
  rename_i between checked
  obtain ⟨bound, rfl⟩ := credential_checked checked
  split at passed
  · cases passed
  rename_i here
  obtain ⟨⟨rfl, rfl⟩, _⟩ := passed
  exact ⟨row, found, touchSeen_seenAs p between row a, here,
    ⟨given, eq_false_iff.mpr live, active, bound⟩⟩

theorem authn_some {p : SessionPolicy} {s next : UserStore} {cookie : Bytes} {a : SessionAnswers}
    {sess : Session} (found : authn p s cookie a = (some (sess, user), next)) :
    ∃ row, s.sessionByTokenHash (hashToken cookie) = some row ∧ SeenAs row sess ∧
      s.users.lookup row.userID = some user := by
  unfold authn at found
  split at found
  · cases found
  split at found <;> cases found
  rename_i passed
  obtain ⟨row, here, seen, holder, -⟩ := validate_ok passed
  exact ⟨row, here, seen, holder⟩

section

variable {p : SessionPolicy} {s : UserStore} {a : SessionAnswers} {other : ULID} {cookie : Bytes}

theorem holds_of_sessionByTokenHash {sess : Session}
    (found : s.sessionByTokenHash (hashToken cookie) = some sess) :
    Holds s sess.userID cookie := by
  obtain ⟨stored, token⟩ := of_sessionByTokenHash found
  exact ⟨sess.id, sess, stored, token, rfl⟩

theorem holds_of_writesOnly {id : ULID} {next : UserStore} (written : WritesOnly id s next)
    (after : Holds next other cookie) : Holds s other cookie := by
  rcases written with same | ⟨_, _, _, done⟩
  · rwa [same] at after
  · obtain ⟨key, _, here, token, owner⟩ := after
    obtain ⟨before, there, same, _⟩ := sameHolder_of_changeSession done here
    exact ⟨key, before, there, same.tokenHash ▸ token, same.userID ▸ owner⟩

theorem requireAuth_ok {next : UserStore} {sess : Session}
    (passed : requireAuth p s cookie a = (.ok (sess, user), next)) :
    authn p s cookie a = (some (sess, user), next) ∧ sess.isFull = true := by
  unfold requireAuth at passed
  split at passed
  · cases passed
  rename_i found
  split at passed <;> cases passed
  rename_i full
  rw [not_eq_true, not_eq_false'] at full
  exact ⟨found, full⟩

theorem spared_authn (foreign : ¬ Holds s other cookie) :
    Spared other s.toUserTables (authn p s cookie a).2.toUserTables ∧
      ¬ Holds (authn p s cookie a).2 other cookie := by
  rcases authn_writesOnly p s a cookie with same | ⟨sess, found, written⟩
  · rw [same]
    exact ⟨.refl _ _, foreign⟩
  · refine ⟨?_, fun after => foreign (holds_of_writesOnly written after)⟩
    obtain ⟨stored, token⟩ := of_sessionByTokenHash found
    rcases written with same | ⟨_, _, _, done⟩
    · rw [same]
      exact .refl _ _
    · refine .changeSession (fun row here owner => ?_) done
      obtain rfl : sess = row := Option.some.inj (stored.symm.trans here)
      exact foreign ⟨sess.id, sess, stored, token, owner⟩

end

end TheAuth.Http
