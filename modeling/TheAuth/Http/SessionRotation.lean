import TheAuth.Http.Session

/-!
# Rotating a session

The new session takes over the recorded authentication, but is issued like that of a sign-in. So the
rotation is neutral exactly where the old session has no credential and no factor is missing, and
its user has authenticated no earlier than now.
-/

set_option autoImplicit false

namespace TheAuth.Http

open Go TheAuth.Server Store

/-- The recorded authentication. -/
structure AuthRecord where
  methods : List Bytes := []
  time : Time := 0

/-- A session and its record. -/
structure RecordedSession extends Session where
  (userAgent ip : Bytes := [])
  elevatedUntil : Option Time := none
  authMethods : List Bytes := []
  authTime : Time := 0

structure IssueOptions where
  (userAgent ip : Bytes)
  credentialID : Bytes := []
  ttl : Time := 0

/-- What a rotation draws and reads. -/
structure RotateAnswers where
  accountOk : Bool
  token : Option Bytes
  id : ULID
  (now revokedAt : Time)

inductive RotateError where
  | loadUser | account | newToken | revokeOld

section

variable [StdLib] [CaseLib]

def mergeAuthMethods (existing add : List Bytes) : List Bytes :=
  (existing ++ add).foldl
    (fun out method =>
      let method := CaseLib.toLower (StdLib.trimSpace method)
      if method = [] ∨ method ∈ out then out else out ++ [method])
    []

def AuthRecord.timeAt (record : AuthRecord) (now : Time) : Time :=
  if record.methods = [] then 0 else if record.time.isZero then now else record.time

def issueWith (ttl : Time) (s : UserStore) (userID : ULID) (opts : IssueOptions)
    (record : AuthRecord) (a : RotateAnswers) :
    Except RotateError (Bytes × RecordedSession × UserStore) :=
  if !a.accountOk then .error .account
  else match a.token with
  | none => .error .newToken
  | some token =>
    let sess : Session :=
      { id := a.id
        userID
        tokenHash := hashToken token
        createdAt := a.now
        expiresAt := a.now + if 0 < opts.ttl then opts.ttl else ttl
        authLevel := .unset
        lastSeenAt := a.now
        credentialID := opts.credentialID }
    .ok (token,
      { UserStore.withLevel sess with
        userAgent := opts.userAgent
        ip := opts.ip
        authMethods := record.methods
        authTime := record.timeAt a.now },
      s.createSession sess)

def keptRecord (ctx : AuthRecord) (old : RecordedSession) : AuthRecord :=
  if old.authMethods = [] then ctx else ⟨mergeAuthMethods [] old.authMethods, old.authTime⟩

def rotateSession (ttl : Time) (s : UserStore) (ctx : AuthRecord) (old : RecordedSession)
    (a : RotateAnswers) : Except RotateError (Bytes × RecordedSession) × UserStore :=
  match s.users.lookup old.userID with
  | none => (.error .loadUser, s)
  | some user =>
    match issueWith ttl s user.id ⟨old.userAgent, old.ip, [], 0⟩ (keptRecord ctx old) a with
    | .error e => (.error e, s)
    | .ok (token, new, issued) =>
      match issued.revokeSession old.id a.revokedAt with
      | none => (.error .revokeOld, (issued.revokeSession new.id a.revokedAt).getD issued)
      | some next => (.ok (token, new), next)

def lastAuthAt (stepUpTTL : Time) (sess : RecordedSession) : Time :=
  let t :=
    if sess.credentialID = [] ∧ sess.authTime < sess.createdAt then sess.createdAt
    else sess.authTime
  match sess.elevatedUntil with
  | none => t
  | some elevated => if t < elevated - stepUpTTL then elevated - stepUpTTL else t

/-- The credential and level of the old session; refused when its credential is revoked. -/
structure Neutral (p : SessionPolicy) (stepUpTTL : Time) (old new : RecordedSession)
    (token : Bytes) : Prop where
  credential : new.credentialID = old.credentialID
  level : new.isFull = old.isFull
  authTime : lastAuthAt stepUpTTL new ≤ lastAuthAt stepUpTTL old
  revoked : ∀ (s : UserStore) (a : SessionAnswers),
    s.sessionByTokenHash (hashToken token) = some new.toSession → old.credentialID ≠ [] →
    a.checkCredential old.credentialID = .revoked → ∀ found, (validate p s token a).1 ≠ .ok found

theorem rotateSession_eq_ok {ttl : Time} {s next : UserStore} {ctx : AuthRecord}
    {old new : RecordedSession} {a : RotateAnswers} {token : Bytes}
    (rotated : rotateSession ttl s ctx old a = (.ok (token, new), next)) (stepUpTTL bound : Time) :
    new.credentialID = [] ∧ new.isFull = true ∧ (lastAuthAt stepUpTTL new ≤ bound ↔
      a.now ≤ bound ∧ (keptRecord ctx old).timeAt a.now ≤ bound) := by
  unfold rotateSession at rotated
  split at rotated
  · cases rotated
  split at rotated
  · cases rotated
  rename_i made
  split at rotated <;> cases rotated
  unfold issueWith at made
  split at made
  · cases made
  split at made <;> cases made
  refine ⟨rfl, rfl, ?_⟩
  simp only [lastAuthAt, UserStore.withLevel, if_true, true_and]
  split
  next later => exact ⟨fun now => ⟨now, Int.le_trans (Int.le_of_lt later) now⟩, And.left⟩
  rename_i earlier
  exact ⟨fun time => ⟨Int.le_trans (Int.not_lt.mp earlier) time, time⟩, And.right⟩

end

theorem authTime_le_lastAuthAt {stepUpTTL : Time} {old : RecordedSession} :
    old.authTime ≤ lastAuthAt stepUpTTL old := by
  have created : old.authTime ≤
      if old.credentialID = [] ∧ old.authTime < old.createdAt then old.createdAt
      else old.authTime := by
    split
    next earlier => exact Int.le_of_lt earlier.2
    · exact Int.le_refl _
  unfold lastAuthAt
  cases old.elevatedUntil with
  | none => exact created
  | some elevated =>
    refine Int.le_trans created ?_
    simp only
    generalize ite (old.credentialID = [] ∧ old.authTime < old.createdAt) _ _ = t
    split
    next later => exact Int.le_of_lt later
    · exact Int.le_refl _

/-- The time recorded in the old session is never too late, and a record without a method has the
zero time. -/
theorem keptRecord_timeAt_le_iff [StdLib] [CaseLib] {stepUpTTL now : Time} {ctx : AuthRecord}
    {old : RecordedSession} (unaged : now ≤ lastAuthAt stepUpTTL old) :
    (keptRecord ctx old).timeAt now ≤ lastAuthAt stepUpTTL old ↔
      (old.authMethods = [] → ctx.timeAt now ≤ lastAuthAt stepUpTTL old) ∧
      (old.authMethods ≠ [] → mergeAuthMethods [] old.authMethods = [] →
        0 ≤ lastAuthAt stepUpTTL old) := by
  have recorded : old.authTime ≤ lastAuthAt stepUpTTL old := authTime_le_lastAuthAt
  unfold keptRecord
  split
  next none => exact ⟨fun time => ⟨fun _ => time, fun some => absurd none some⟩,
    fun clauses => clauses.1 none⟩
  next some =>
    have zero : (AuthRecord.mk (mergeAuthMethods [] old.authMethods) old.authTime).timeAt now ≤
        lastAuthAt stepUpTTL old ↔
          (mergeAuthMethods [] old.authMethods = [] → 0 ≤ lastAuthAt stepUpTTL old) := by
      unfold AuthRecord.timeAt
      split
      next blank => exact ⟨fun time _ => time, fun time => time blank⟩
      next methods =>
        refine iff_of_true ?_ fun blank => absurd blank methods
        split
        · exact unaged
        · exact recorded
    exact zero.trans ⟨fun time => ⟨fun none => absurd none some, fun _ => time⟩,
      fun clauses => clauses.2 some⟩

/-- **When a rotation is neutral.** The old session has no credential and misses no factor, and the
rotation is not after its last authentication; nor is the time that the context of the request
records where the old session has no method, nor the zero time where its methods are blank. -/
theorem rotateSession_neutral_iff [StdLib] [CaseLib] (p : SessionPolicy) (ttl stepUpTTL : Time)
    (s next : UserStore) (ctx : AuthRecord) (old new : RecordedSession) (a : RotateAnswers)
    (token : Bytes) (rotated : rotateSession ttl s ctx old a = (.ok (token, new), next)) :
    Neutral p stepUpTTL old new token ↔
      old.credentialID = [] ∧ old.isFull = true ∧ a.now ≤ lastAuthAt stepUpTTL old ∧
        (old.authMethods = [] → ctx.timeAt a.now ≤ lastAuthAt stepUpTTL old) ∧
        (old.authMethods ≠ [] → mergeAuthMethods [] old.authMethods = [] →
          0 ≤ lastAuthAt stepUpTTL old) := by
  obtain ⟨untied, full, authTime⟩ :=
    rotateSession_eq_ok rotated stepUpTTL (lastAuthAt stepUpTTL old)
  constructor
  · intro neutral
    have none : old.credentialID = [] := neutral.credential.symm.trans untied
    obtain ⟨unaged, times⟩ := authTime.mp neutral.authTime
    exact ⟨none, neutral.level.symm.trans full, unaged,
      (keptRecord_timeAt_le_iff unaged).mp times⟩
  · rintro ⟨none, level, unaged, times⟩
    exact ⟨untied.trans none.symm, full.trans level.symm,
      authTime.mpr ⟨unaged, (keptRecord_timeAt_le_iff unaged).mpr times⟩,
      fun _ _ _ tied => absurd none tied⟩

def sampleUser : User := ⟨7, str "a"⟩

def linkedSession (credentialID : Bytes) (level : AuthLevel) : RecordedSession :=
  { id := 1
    userID := 7
    tokenHash := hashToken (str "t")
    createdAt := 10
    expiresAt := 1000
    authLevel := level
    lastSeenAt := 10
    credentialID
    authMethods := [str "pwd"]
    authTime := 10 }

def withSession (sess : RecordedSession) : UserStore :=
  (UserStore.empty.createUser sampleUser).createSession sess.toSession

def rotateAt (now : Time) : RotateAnswers := ⟨true, some (str "new"), 2, now, now⟩

def checkedPolicy : SessionPolicy := { credentials := true }

def checkAt (now : Time) (answer : CredentialAnswer) : SessionAnswers :=
  { now, checkCredential := fun _ => answer }

attribute [local instance] StdLib.refusing CaseLib.ascii

theorem rotateSession_neutral_at_once :
    ∃ token new next, rotateSession 1000 (withSession (linkedSession [] .full)) {}
        (linkedSession [] .full) (rotateAt 10) = (.ok (token, new), next) ∧
      Neutral checkedPolicy 0 (linkedSession [] .full) new token := by
  refine ⟨_, _, _, rfl, ?_⟩
  exact (rotateSession_neutral_iff checkedPolicy 1000 0 (withSession (linkedSession [] .full)) _ {}
    (linkedSession [] .full) _ (rotateAt 10) _ rfl).mpr (by decide +kernel)

/-- The replacement counts as authenticated now, and outlives the credential of the old session. -/
theorem rotateSession_unties_credential :
    (∃ token new next, rotateSession 1000 (withSession (linkedSession (str "c") .full)) {}
        (linkedSession (str "c") .full) (rotateAt 100) = (.ok (token, new), next) ∧
      (validate checkedPolicy (withSession (linkedSession (str "c") .full)) (str "t")
        (checkAt 100 .valid)).1 = .ok ((linkedSession (str "c") .full).toSession, sampleUser) ∧
      (validate checkedPolicy (withSession (linkedSession (str "c") .full)) (str "t")
        (checkAt 200 .revoked)).1 = .error .sessionExpired ∧
      (validate checkedPolicy next token (checkAt 200 .revoked)).1 =
        .ok (new.toSession, sampleUser) ∧
      lastAuthAt 0 (linkedSession (str "c") .full) = 10 ∧ lastAuthAt 0 new = 100) ∧
    ∃ token new next, rotateSession 1000 (withSession (linkedSession [] .pending2FA)) {}
        (linkedSession [] .pending2FA) (rotateAt 10) = (.ok (token, new), next) ∧
      new.isFull = true := by
  refine ⟨⟨_, _, _, rfl, ?_⟩, _, _, _, rfl, rfl⟩
  decide +kernel

end TheAuth.Http
