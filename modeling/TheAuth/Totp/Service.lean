import TheAuth.Http.Session

/-!
# The second factor

`verify` and `consumeRecoveryCode` are the only operations that raise a pending session to a full
one, and every way in which they fail leaves the level of every session as it was.
-/

set_option autoImplicit false

namespace TheAuth.Totp

open Go Server Store Http

structure RecoveryCode where
  (id userID : ULID)
  codeHash : Bytes
  usedAt : Option Time := none

structure FactorTables where
  totpSteps : GoMap ULID Int := ∅
  pendingFailures : GoMap ULID ℕ := ∅
  recoveryCodes : GoMap ULID RecoveryCode := ∅

/-- Factors and sessions. -/
structure TotpState where
  accounts : UserStore
  factors : FactorTables

inductive TotpError where
  | session (e : SessionError)
  | notPending | accountLocked | sessionCap | noCredential | decrypt | invalidTOTP | notFound
  | invalidBody

structure TotpAnswers where
  session : SessionAnswers
  (mfaAllowed capRoom : Bool := true)
  enforceCap : Option (List ULID) := some []
  decrypt : Bytes → Option Bytes := some
  validateCustom : Bytes → Bytes → Time → Bool := fun _ _ _ => false
  verifyRecoveryCode : Bytes → Bytes → Bool := fun _ _ => false

def totpPeriod : Int := 30

variable (a : TotpAnswers)

def matchStep (code secret : Bytes) (now : Time) : Option Int :=
  (([0, -1, 1].map fun off : Int => now + off * totpPeriod * 1000000000).find?
    (a.validateCustom code secret)).map fun t => t.toUnix.tdiv totpPeriod

variable (f : FactorTables)

def FactorTables.advanceStep (userID : ULID) (step : Int) :
    Bool × FactorTables :=
  if (f.totpSteps.lookup userID).any fun last => step ≤ last then (false, f)
  else (true, { f with totpSteps := f.totpSteps.insert userID step })

def acceptCode (userID : ULID) (code secret : Bytes) :
    Bool × FactorTables :=
  match matchStep a code secret a.session.now with
  | none => (false, f)
  | some step => f.advanceStep userID step

/-- The first unused code that matches is spent; `none` is `ErrNotFound`. -/
def FactorTables.consumeRecoveryCode (a : TotpAnswers) (userID : ULID)
    (code : Bytes) : Option FactorTables :=
  (f.recoveryCodes.find? fun rc =>
    rc.userID == userID && rc.usedAt.isNone && a.verifyRecoveryCode rc.codeHash code).map
    fun (id, rc) =>
      { f with
        recoveryCodes := f.recoveryCodes.insert id { rc with usedAt := some a.session.now } }

def decryptSecret (s : UserStore) (userID : ULID) : Except TotpError Bytes :=
  match s.totpSecrets.lookup userID with
  | none => .error .noCredential
  | some row =>
    if row.confirmedAt.isNone then .error .noCredential
    else match a.decrypt row.secretEnc with
    | none => .error .decrypt
    | some secret => .ok secret

def pendingSessionMaxFailures : ℕ := 5

def recordPendingFailure (st : TotpState) (sessID : ULID) (now : Time) : TotpState :=
  let count := (st.factors.pendingFailures.lookup sessID).getD 0 + 1
  if pendingSessionMaxFailures ≤ count then
    { accounts := (st.accounts.revokeSession sessID now).getD st.accounts
      factors :=
        { st.factors with pendingFailures := st.factors.pendingFailures.erase sessID } }
  else
    { st with
      factors :=
        { st.factors with pendingFailures := st.factors.pendingFailures.insert sessID count } }

def evict (s : UserStore) (now : Time) (evicted : List ULID) : UserStore :=
  evicted.foldl (fun s id => (s.revokeSession id now).getD s) s

def promote (st : TotpState) (sess : Session) (a : TotpAnswers) :
    Except TotpError Session × TotpState :=
  let factors :=
    { st.factors with pendingFailures := st.factors.pendingFailures.erase sess.id }
  match a.enforceCap with
  | none => (.error .sessionCap, ⟨st.accounts, factors⟩)
  | some evicted =>
    let room := evict st.accounts a.session.now evicted
    match room.updateSessionAuthLevel sess.id .full with
    | none => (.error .notFound, ⟨room, factors⟩)
    | some next => (.ok { sess with authLevel := .full }, ⟨next, factors⟩)

variable (p : SessionPolicy)

def pendingSession (s : UserStore) (token : Bytes) (a : TotpAnswers) :
    Except TotpError Session × UserStore :=
  match validate p s token a.session with
  | (.error e, next) => (.error (.session e), next)
  | (.ok (sess, _), next) =>
    if sess.authLevel ≠ .pending2FA then (.error .notPending, next)
    else if !a.mfaAllowed then (.error .accountLocked, next)
    else if !a.capRoom then (.error .sessionCap, next)
    else (.ok sess, next)

def verify (st : TotpState) (token code : Bytes) (a : TotpAnswers) :
    Except TotpError Session × TotpState :=
  match pendingSession p st.accounts token a with
  | (.error e, next) => (.error e, { st with accounts := next })
  | (.ok sess, next) =>
    match decryptSecret a next sess.userID with
    | .error e => (.error e, { st with accounts := next })
    | .ok secret =>
      match acceptCode a st.factors sess.userID code secret with
      | (false, factors) =>
        (.error .invalidTOTP, recordPendingFailure ⟨next, factors⟩ sess.id a.session.now)
      | (true, factors) => promote ⟨next, factors⟩ sess a

def consumeRecoveryCode (p : SessionPolicy) (st : TotpState) (token code : Bytes)
    (a : TotpAnswers) : Except TotpError Session × TotpState :=
  match pendingSession p st.accounts token a with
  | (.error e, next) => (.error e, { st with accounts := next })
  | (.ok sess, next) =>
    match st.factors.consumeRecoveryCode a sess.userID code with
    | none => (.error .invalidTOTP, recordPendingFailure ⟨next, st.factors⟩ sess.id a.session.now)
    | some factors => promote ⟨next, factors⟩ sess a

def handleVerify (st : TotpState) (token code : Bytes) (a : TotpAnswers) :
    Except TotpError Session × TotpState :=
  if code = [] then (.error .invalidBody, st) else verify p st token code a

def handleRecovery (st : TotpState) (token code : Bytes) (a : TotpAnswers) :
    Except TotpError Session × TotpState :=
  if code = [] then (.error .invalidBody, st) else consumeRecoveryCode p st token code a

section

variable {p : SessionPolicy} {st : TotpState} {token code : Bytes} {a : TotpAnswers}

theorem recordPendingFailure_sessionsKept (sessID : ULID) (now : Time) :
    st.accounts.SessionsKept (recordPendingFailure st sessID now).accounts := by
  unfold recordPendingFailure
  dsimp only
  split
  · exact .revokeSession sessID now
  · exact .refl _

theorem evict_sessionsKept (s : UserStore) (now : Time) (evicted : List ULID) :
    s.SessionsKept (evict s now evicted) := by
  induction evicted generalizing s with
  | nil => exact .refl s
  | cons id _ ih => exact (UserStore.SessionsKept.revokeSession id now).trans (ih _)

variable {e : TotpError}

theorem promote_sessionsKept {sess : Session} (failed : (promote st sess a).1 = .error e) :
    st.accounts.SessionsKept (promote st sess a).2.accounts := by
  unfold promote at failed ⊢
  split
  · exact .refl _
  rename_i given
  rw [given] at failed
  dsimp only at failed ⊢
  split
  · exact evict_sessionsKept _ _ _
  rename_i raised
  rw [raised] at failed
  cases failed

theorem pendingSession_sessionsKept (s : UserStore) :
    s.SessionsKept (pendingSession p s token a).2 := by
  have validated := validate_sessionsKept p s a.session token
  unfold pendingSession
  split
  next done => rwa [done] at validated
  rename_i done
  rw [done] at validated
  split_ifs <;> exact validated

theorem verify_sessionsKept (failed : (verify p st token code a).1 = .error e) :
    st.accounts.SessionsKept (verify p st token code a).2.accounts := by
  have checked := @pendingSession_sessionsKept p token a st.accounts
  unfold verify at failed ⊢
  split
  next done => rwa [done] at checked
  rename_i sess next done
  rw [done] at checked failed
  dsimp only at failed ⊢
  split
  · exact checked
  rename_i found
  rw [found] at failed
  dsimp only at failed
  split
  · exact checked.trans (recordPendingFailure_sessionsKept sess.id a.session.now)
  rename_i accepted
  rw [accepted] at failed
  exact checked.trans (promote_sessionsKept failed)

theorem consumeRecoveryCode_sessionsKept
    (failed : (consumeRecoveryCode p st token code a).1 = .error e) :
    st.accounts.SessionsKept (consumeRecoveryCode p st token code a).2.accounts := by
  have checked := @pendingSession_sessionsKept p token a st.accounts
  unfold consumeRecoveryCode at failed ⊢
  split
  next done => rwa [done] at checked
  rename_i sess next done
  rw [done] at checked failed
  dsimp only at failed ⊢
  split
  · exact checked.trans (recordPendingFailure_sessionsKept sess.id a.session.now)
  rename_i spent
  rw [spent] at failed
  exact checked.trans (promote_sessionsKept failed)

theorem handleVerify_sessionsKept (failed : (handleVerify p st token code a).1 = .error e) :
    st.accounts.SessionsKept (handleVerify p st token code a).2.accounts := by
  unfold handleVerify at failed ⊢
  split
  · exact .refl _
  rename_i given
  rw [if_neg given] at failed
  exact verify_sessionsKept failed

theorem handleRecovery_sessionsKept (failed : (handleRecovery p st token code a).1 = .error e) :
    st.accounts.SessionsKept (handleRecovery p st token code a).2.accounts := by
  unfold handleRecovery at failed ⊢
  split
  · exact .refl _
  rename_i given
  rw [if_neg given] at failed
  exact consumeRecoveryCode_sessionsKept failed

end

end TheAuth.Totp
