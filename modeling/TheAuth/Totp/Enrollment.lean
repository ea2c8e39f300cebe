import TheAuth.Library.Run
import TheAuth.Totp.Service

/-!
# Enrolling a second factor

`beginEnrollment` stores a pending secret and keeps it in memory, where `finishEnrollment` checks a
code against it. A later enrollment replaces the pending secret only. `verify` and `checkCode`
record the time step of a code, `finishEnrollment` does not: its code is accepted once more.
-/

set_option autoImplicit false

namespace TheAuth.Totp

open Go Server Store Http Library.Run List GoMap Option

def upsertPendingTOTPSecret (s : UserStore) (sec : TOTPSecret) : UserStore :=
  if (s.totpSecrets.lookup sec.userID).any (·.confirmedAt.isSome) then s
  else { s with totpSecrets := s.totpSecrets.insert sec.userID { sec with confirmedAt := none } }

def confirmTOTPSecret (s : UserStore) (userID : ULID) (at_ : Time) : Option UserStore :=
  match s.totpSecrets.lookup userID with
  | none => none
  | some sec =>
    if sec.confirmedAt.isSome then none
    else some { s with
      totpSecrets := s.totpSecrets.insert userID { sec with confirmedAt := some at_ } }

structure Cipher where
  encrypt : Bytes → Bytes → Option Bytes
  decrypt : Bytes → Option Bytes
  opens : ∀ {nonce secret enc}, encrypt nonce secret = some enc → decrypt enc = some secret

structure Enrollment where
  userID : ULID
  secret : Bytes
  expiresAt : Time

def enrollmentTTL : Int := 10 * 60 * 1000000000

structure EnrollConfig where
  recoveryCodeCount : Option ℕ
  cipher : Cipher

/-- Secrets and enrollments. -/
structure EnrollState extends TotpState where
  enrollments : GoMap Bytes Enrollment

inductive EnrollError where
  | notConfigured | accountName | generate | encrypt | newToken | unknown | userMismatch | expired
  | invalidCode | alreadyEnrolled | confirm | recoveryCode
  deriving DecidableEq

structure BeginAnswers where
  now : Time
  generate : Option Bytes
  nonce : Bytes
  newToken : Option Bytes

structure FinishAnswers extends TotpAnswers where
  recoveryCode : ℕ → Option (Bytes × RecoveryCode) := fun _ => none

variable (cfg : EnrollConfig)

def beginEnrollment (st : EnrollState) (userID : ULID) (accountName : Bytes)
    (a : BeginAnswers) : Except EnrollError (Bytes × Bytes) × EnrollState :=
  if cfg.recoveryCodeCount.isNone then (.error .notConfigured, st)
  else if accountName = [] then (.error .accountName, st)
  else match a.generate with
  | none => (.error .generate, st)
  | some secret =>
    match cfg.cipher.encrypt a.nonce secret with
    | none => (.error .encrypt, st)
    | some enc =>
      let written := { st with accounts := upsertPendingTOTPSecret st.accounts ⟨userID, enc, none⟩ }
      match a.newToken with
      | none => (.error .newToken, written)
      | some enrollID =>
        (.ok (secret, enrollID),
          { written with
            enrollments := st.enrollments.insert enrollID ⟨userID, secret, a.now + enrollmentTTL⟩ })

def confirmEnrollment (count : ℕ) (st : EnrollState) (userID : ULID) (a : FinishAnswers) :
    Except EnrollError (List Bytes) × EnrollState :=
  if (st.accounts.totpSecrets.lookup userID).any (·.confirmedAt.isSome) then
    (.error .alreadyEnrolled, st)
  else match confirmTOTPSecret st.accounts userID a.session.now with
  | none => (.error .confirm, st)
  | some accounts =>
    let confirmed := { st with accounts }
    match (List.range count).mapM a.recoveryCode with
    | none => (.error .recoveryCode, confirmed)
    | some codes =>
      (.ok (codes.map (·.1)),
        { confirmed with
          factors := { st.factors with
            recoveryCodes := codes.foldl (fun m code => m.insert code.2.id code.2)
              st.factors.recoveryCodes } })

def finishEnrollment (st : EnrollState) (userID : ULID)
    (enrollmentID code : Bytes) (a : FinishAnswers) :
    Except EnrollError (List Bytes) × EnrollState :=
  match cfg.recoveryCodeCount with
  | none => (.error .notConfigured, st)
  | some count =>
    match st.enrollments.lookup enrollmentID with
    | none => (.error .unknown, st)
    | some enroll =>
      let taken := { st with enrollments := st.enrollments.erase enrollmentID }
      if enroll.userID ≠ userID then (.error .userMismatch, taken)
      else if enroll.expiresAt < a.session.now then (.error .expired, taken)
      else if (matchStep a.toTotpAnswers code enroll.secret a.session.now).isNone then
        (.error .invalidCode,
          { st with
            enrollments := st.enrollments.insert enrollmentID
              { enroll with expiresAt := a.session.now + enrollmentTTL } })
      else confirmEnrollment count taken userID a

def deleteTOTP (st : EnrollState) (userID : ULID) : EnrollState :=
  { st with
    accounts := { st.accounts with totpSecrets := st.accounts.totpSecrets.erase userID }
    factors := { st.factors with
      recoveryCodes := st.factors.recoveryCodes.deleteWhere fun _ rc => rc.userID == userID } }

def checkCode (st : TotpState) (sessID userID : ULID) (code : Bytes) (a : TotpAnswers) :
    Except TotpError Unit × TotpState :=
  if !a.mfaAllowed then (.error .accountLocked, st)
  else match decryptSecret a st.accounts userID with
  | .error e => (.error e, st)
  | .ok secret =>
    match acceptCode a st.factors userID code secret with
    | (false, factors) =>
      (.error .invalidTOTP, recordPendingFailure ⟨st.accounts, factors⟩ sessID a.session.now)
    | (true, factors) =>
      (.ok (), ⟨st.accounts,
        { factors with pendingFailures := factors.pendingFailures.erase sessID }⟩)

/-! ## Enrollments -/

/-- A call, with what it reads. -/
inductive EnrollCall where
  | begin (userID : ULID) (accountName : Bytes) (a : BeginAnswers)
  | finish (userID : ULID) (enrollmentID code : Bytes) (a : FinishAnswers)
  | delete (userID : ULID)

/-- What the enrollments returned, newest first, and the latest identifier of each user. -/
structure EnrollSystem extends EnrollState where
  returned : List (Bytes × Bytes) := []
  latest : ULID → Option Bytes := fun _ => none

def EnrollSystem.initial (st : TotpState) : EnrollSystem := { st with enrollments := ∅ }

def enroll (s : EnrollSystem) : EnrollCall → EnrollSystem
  | .begin userID accountName a =>
    match beginEnrollment cfg s.toEnrollState userID accountName a with
    | (.error .newToken, next) =>
      { s with toEnrollState := next, latest := Function.update s.latest userID none }
    | (.error _, next) => { s with toEnrollState := next }
    | (.ok (secret, enrollID), next) =>
      { toEnrollState := next
        returned := (enrollID, secret) :: s.returned
        latest := Function.update s.latest userID (some enrollID) }
  | .finish userID enrollmentID code a =>
    { s with toEnrollState := (finishEnrollment cfg s.toEnrollState userID enrollmentID code a).2 }
  | .delete userID => { s with toEnrollState := deleteTOTP s.toEnrollState userID }

/-- A call finishes the enrollment that was begun last. -/
def FinishesLatest (s : EnrollSystem) : EnrollCall → Prop
  | .finish userID enrollmentID _ _ => s.latest userID = some enrollmentID
  | _ => True

/-- The confirmed secret is the one that was returned, and the one the code was checked against. -/
def ConfirmsOwn (s : EnrollSystem) : EnrollCall → Prop
  | .finish userID enrollmentID code a =>
    ∀ codes next, finishEnrollment cfg s.toEnrollState userID enrollmentID code a =
        (.ok codes, next) →
      ∃ secret row, (enrollmentID, secret) ∈ s.returned ∧
        (matchStep a.toTotpAnswers code secret a.session.now).isSome ∧
        next.accounts.totpSecrets.lookup userID = some row ∧
          row.confirmedAt = some a.session.now ∧ cfg.cipher.decrypt row.secretEnc = some secret
  | _ => True

section

variable {cfg : EnrollConfig} {s : EnrollSystem} {st next : EnrollState} {userID : ULID}
  {enrollmentID code : Bytes} {a : FinishAnswers} {codes : List Bytes}

/-- What memory holds of an enrollment was returned, and the pending secret of a user is that of
their latest enrollment. -/
structure Pending (cfg : EnrollConfig) (s : EnrollSystem) : Prop where
  returned : ∀ {id e}, s.enrollments.lookup id = some e → (id, e.secret) ∈ s.returned
  sealed : ∀ {id e row}, s.latest e.userID = some id → s.enrollments.lookup id = some e →
    s.accounts.totpSecrets.lookup e.userID = some row → row.confirmedAt = none →
      cfg.cipher.decrypt row.secretEnc = some e.secret

theorem lookup_upsertPendingTOTPSecret {s : UserStore} {enc : Bytes} {key : ULID} {row : TOTPSecret}
    (here : (upsertPendingTOTPSecret s ⟨userID, enc, none⟩).totpSecrets.lookup key = some row)
    (unconfirmed : row.confirmedAt = none) :
    key = userID ∧ row.secretEnc = enc ∨ key ≠ userID ∧ s.totpSecrets.lookup key = some row := by
  unfold upsertPendingTOTPSecret at here
  split at here
  next confirmed =>
    refine .inr ⟨?_, here⟩
    rintro rfl
    rw [here, any_some, unconfirmed] at confirmed
    cases confirmed
  · obtain ⟨same, rfl⟩ | other := of_lookup_insert here
    · exact .inl ⟨same, rfl⟩
    · exact .inr other

theorem beginEnrollment_cases (cfg : EnrollConfig) (st : EnrollState) (userID : ULID)
    (accountName : Bytes) (b : BeginAnswers) :
    (∃ e, beginEnrollment cfg st userID accountName b = (.error e, st) ∧ e ≠ .newToken) ∨
      ∃ secret enc, cfg.cipher.decrypt enc = some secret ∧
        let written :=
          { st with accounts := upsertPendingTOTPSecret st.accounts ⟨userID, enc, none⟩ }
        beginEnrollment cfg st userID accountName b = (.error .newToken, written) ∨
          ∃ id, beginEnrollment cfg st userID accountName b = (.ok (secret, id),
            { written with
              enrollments := st.enrollments.insert id
                ⟨userID, secret, b.now + enrollmentTTL⟩ }) := by
  unfold beginEnrollment
  iterate 3
    split
    · exact .inl ⟨_, rfl, nofun⟩
  rename_i secret _
  split
  · exact .inl ⟨_, rfl, nofun⟩
  rename_i enc made
  refine .inr ⟨secret, enc, cfg.cipher.opens made, ?_⟩
  split
  · exact .inl rfl
  · exact .inr ⟨_, rfl⟩

theorem Pending.begin (pending : Pending cfg s) (userID : ULID) (accountName : Bytes)
    (b : BeginAnswers) : Pending cfg (enroll cfg s (.begin userID accountName b)) := by
  simp only [enroll]
  rcases beginEnrollment_cases cfg s.toEnrollState userID accountName b with
    ⟨e, done, other⟩ | ⟨secret, enc, opens, done | ⟨id, done⟩⟩
  · rw [done]
    cases e with
    | newToken => exact absurd rfl other
    | _ => exact pending
  · -- the user has no latest enrollment, and the others have their pending secrets
    rw [done]
    refine ⟨pending.returned, fun {id e row} latest here there unconfirmed => ?_⟩
    rcases update_cases latest with ⟨-, ⟨⟩⟩ | ⟨other, before⟩
    rcases lookup_upsertPendingTOTPSecret there unconfirmed with ⟨same, -⟩ | ⟨-, row⟩
    · exact absurd same other
    · exact pending.sealed before here row unconfirmed
  · rw [done]
    refine ⟨fun {id' e} here => ?_, fun {id' e row} latest here there unconfirmed => ?_⟩
    · obtain ⟨rfl, rfl⟩ | ⟨-, here⟩ := of_lookup_insert here
      · exact mem_cons_self
      · exact mem_cons_of_mem _ (pending.returned here)
    rcases update_cases latest with ⟨own, same⟩ | ⟨other, before⟩
    · obtain rfl := some.inj same
      rcases lookup_upsertPendingTOTPSecret there unconfirmed with ⟨-, rfl⟩ | ⟨other, -⟩
      · obtain ⟨-, rfl⟩ | ⟨other, -⟩ := of_lookup_insert here
        · exact opens
        · exact absurd rfl other
      · exact absurd own other
    · rcases lookup_upsertPendingTOTPSecret there unconfirmed with ⟨same, -⟩ | ⟨-, row⟩
      · exact absurd same other
      obtain ⟨-, rfl⟩ | ⟨-, here⟩ := of_lookup_insert here
      · exact absurd rfl other
      · exact pending.sealed before here row unconfirmed

theorem confirmTOTPSecret_eq_some {s after : UserStore} {now : Time}
    (done : confirmTOTPSecret s userID now = some after) :
    ∃ sec, s.totpSecrets.lookup userID = some sec ∧ sec.confirmedAt = none ∧
      after = { s with
        totpSecrets := s.totpSecrets.insert userID { sec with confirmedAt := some now } } := by
  unfold confirmTOTPSecret at done
  split at done
  · cases done
  rename_i sec here
  split at done <;> cases done
  rename_i unconfirmed
  exact ⟨sec, here, not_isSome_iff_eq_none.mp unconfirmed, rfl⟩

theorem finishEnrollment_keeps (cfg : EnrollConfig) (st : EnrollState) (userID : ULID)
    (enrollmentID code : Bytes) (a : FinishAnswers) :
    let next := (finishEnrollment cfg st userID enrollmentID code a).2
    (∀ {id e}, next.enrollments.lookup id = some e → ∃ e', st.enrollments.lookup id = some e' ∧
        e'.userID = e.userID ∧ e'.secret = e.secret) ∧
      ∀ {key row}, next.accounts.totpSecrets.lookup key = some row → row.confirmedAt = none →
        st.accounts.totpSecrets.lookup key = some row := by
  have same : ∀ {id e}, (st.enrollments.erase enrollmentID).lookup id = some e →
      ∃ e', st.enrollments.lookup id = some e' ∧ e'.userID = e.userID ∧ e'.secret = e.secret :=
    fun here => ⟨_, lookup_of_lookup_erase here, rfl, rfl⟩
  unfold finishEnrollment
  dsimp only
  split
  · exact ⟨fun here => ⟨_, here, rfl, rfl⟩, fun here _ => here⟩
  split
  · exact ⟨fun here => ⟨_, here, rfl, rfl⟩, fun here _ => here⟩
  rename_i enroll stored
  split
  · exact ⟨same, fun here _ => here⟩
  split
  · exact ⟨same, fun here _ => here⟩
  split
  · refine ⟨fun {id e} here => ?_, fun here _ => here⟩
    obtain ⟨rfl, rfl⟩ | ⟨-, here⟩ := of_lookup_insert here
    · exact ⟨enroll, stored, rfl, rfl⟩
    · exact ⟨e, here, rfl, rfl⟩
  unfold confirmEnrollment
  split
  · exact ⟨same, fun here _ => here⟩
  split
  · exact ⟨same, fun here _ => here⟩
  rename_i confirmed
  obtain ⟨sec, _, _, rfl⟩ := confirmTOTPSecret_eq_some confirmed
  have rows : ∀ {key row}, (st.accounts.totpSecrets.insert userID
      { sec with confirmedAt := some a.session.now }).lookup key = some row →
      row.confirmedAt = none → st.accounts.totpSecrets.lookup key = some row := by
    intro _ _ there none_
    obtain ⟨-, rfl⟩ | ⟨-, before⟩ := of_lookup_insert there
    · cases none_
    · exact before
  split <;> exact ⟨same, rows⟩

theorem pending_enroll (pending : Pending cfg s) (call : EnrollCall) :
    Pending cfg (enroll cfg s call) := by
  cases call with
  | begin userID accountName b => exact pending.begin userID accountName b
  | finish userID enrollmentID code a =>
    obtain ⟨kept, rows⟩ := finishEnrollment_keeps cfg s.toEnrollState userID enrollmentID code a
    refine ⟨fun here => ?_, fun latest here there unconfirmed => ?_⟩
    · obtain ⟨_, before, -, same⟩ := kept here
      exact same ▸ pending.returned before
    · obtain ⟨_, before, own, same⟩ := kept here
      rw [← same]
      rw [← own] at latest there
      exact pending.sealed latest before (rows there unconfirmed) unconfirmed
  | delete =>
    refine ⟨pending.returned, fun latest here there unconfirmed => ?_⟩
    exact pending.sealed latest here (lookup_of_lookup_erase there) unconfirmed

theorem finishEnrollment_eq_ok
    (done : finishEnrollment cfg st userID enrollmentID code a = (.ok codes, next)) :
    ∃ e sec, st.enrollments.lookup enrollmentID = some e ∧ e.userID = userID ∧
      (matchStep a.toTotpAnswers code e.secret a.session.now).isSome ∧
      st.accounts.totpSecrets.lookup userID = some sec ∧ sec.confirmedAt = none ∧
      next.accounts.totpSecrets.lookup userID =
        some { sec with confirmedAt := some a.session.now } ∧
      next.factors.totpSteps = st.factors.totpSteps := by
  unfold finishEnrollment at done
  split at done
  · cases done
  split at done
  · cases done
  rename_i e stored
  dsimp only at done
  split at done
  · cases done
  rename_i own
  split at done
  · cases done
  split at done
  · cases done
  rename_i matched
  unfold confirmEnrollment at done
  split at done
  · cases done
  split at done
  · cases done
  rename_i confirmed
  obtain ⟨sec, here, unconfirmed, rfl⟩ := confirmTOTPSecret_eq_some confirmed
  split at done <;> cases done
  exact ⟨e, sec, stored, not_not.mp own, isSome_iff_ne_none.mpr (by simpa using matched),
    here, unconfirmed, AList.lookup_insert _, rfl⟩

theorem confirmsOwn_of_pending (pending : Pending cfg s) {call : EnrollCall}
    (latest : FinishesLatest s call) : ConfirmsOwn cfg s call := by
  cases call with
  | finish =>
    intro _ _ done
    obtain ⟨e, _, stored, rfl, matched, here, unconfirmed, after, -⟩ := finishEnrollment_eq_ok done
    have opens := pending.sealed latest stored here unconfirmed
    exact ⟨e.secret, _, pending.returned stored, matched, after, rfl, opens⟩
  | _ => trivial

/-- **In every sequence of enrollment calls, an enrollment that is finished before the user begins
another one confirms the secret that was returned with it.** -/
theorem finished_enrollment_confirms_own (cfg : EnrollConfig) (st : TotpState)
    (calls : List EnrollCall)
    (latest : Throughout (fun s call => some (enroll cfg s call)) FinishesLatest (.initial st)
      calls) :
    Throughout (fun s call => some (enroll cfg s call)) (ConfirmsOwn cfg) (.initial st) calls :=
  throughout_of_invariant
    (fun pending _ taken => some.inj taken ▸ pending_enroll pending _)
    (fun pending latest => confirmsOwn_of_pending pending latest) ⟨nofun, nofun⟩ latest

end

def plainEnroll : EnrollConfig := ⟨some 1, ⟨fun _ secret => some secret, some, Eq.symm⟩⟩

def noFactors : TotpState := ⟨.empty, {}⟩

def echoAnswers (now : Time) : TotpAnswers :=
  { session := { now }, validateCustom := fun code secret _ => code == secret }

def beginAt (secret id : String) : EnrollCall :=
  .begin 1 (str "u") ⟨0, some (str secret), [], some (str id)⟩

def finishAnswers (now : Time) : FinishAnswers :=
  { echoAnswers now with recoveryCode := fun _ => some (str "r", ⟨5, 1, [], none⟩) }

def finishAt (id code : String) : EnrollCall := .finish 1 (str id) (str code) (finishAnswers 1)

instance (s : EnrollSystem) : ∀ call, Decidable (FinishesLatest s call)
  | .begin .. | .delete _ => .isTrue trivial
  | .finish .. => inferInstanceAs (Decidable (_ = _))

theorem finished_enrollment_confirms_own_of_two :
    let s := [beginAt "k" "e", beginAt "l" "f"].foldl (enroll plainEnroll) (.initial noFactors)
    ConfirmsOwn plainEnroll s (finishAt "f" "l") := by
  have own := finished_enrollment_confirms_own plainEnroll noFactors
    [beginAt "k" "e", beginAt "l" "f", finishAt "f" "l"] (by decide +kernel)
  exact ((own.2 _ rfl).2 _ rfl).1

/-- The user begins twice and finishes the first enrollment: the second secret is confirmed. -/
theorem first_enrollment_confirms_second :
    let s := [beginAt "k" "e", beginAt "l" "f"].foldl (enroll plainEnroll) (.initial noFactors)
    let done := finishEnrollment plainEnroll s.toEnrollState 1 (str "e") (str "k") (finishAnswers 1)
    done.1 = .ok [str "r"] ∧ s.returned = [(str "f", str "l"), (str "e", str "k")] ∧
      (done.2.accounts.totpSecrets.lookup 1).map (fun row =>
        (row.confirmedAt, plainEnroll.cipher.decrypt row.secretEnc)) =
          some (some 1, some (str "l")) := by
  decide +kernel

/-! ## Accepted codes -/

/-- A code that was taken, and when. -/
structure Acceptance where
  userID : ULID
  secret : Bytes
  step : Int
  time : Time
  enrolling : Bool
  deriving DecidableEq

inductive CodeCall where
  | enroll (call : EnrollCall)
  | verify (token code : Bytes) (a : TotpAnswers)
  | checkCode (sessID userID : ULID) (code : Bytes) (a : TotpAnswers)

def matched (a : TotpAnswers) (userID : ULID) (code secret : Bytes) (enrolling : Bool) :
    Option Acceptance :=
  (matchStep a code secret a.session.now).map
    fun step => ⟨userID, secret, step, a.session.now, enrolling⟩

def matchedStored (a : TotpAnswers) (accounts : UserStore) (userID : ULID) (code : Bytes) :
    Option Acceptance :=
  match decryptSecret a accounts userID with
  | .error _ => none
  | .ok secret => matched a userID code secret false

variable (p : SessionPolicy)

def acceptance (s : EnrollState) :
    CodeCall → Option Acceptance
  | .enroll (.finish userID enrollmentID code a) =>
    match finishEnrollment cfg s userID enrollmentID code a with
    | (.error _, _) => none
    | (.ok _, _) => (s.enrollments.lookup enrollmentID).bind
        fun e => matched a.toTotpAnswers userID code e.secret true
  | .enroll _ => none
  | .verify token code a =>
    match verify p s.toTotpState token code a with
    | (.error _, _) => none
    | (.ok sess, _) => matchedStored a (pendingSession p s.accounts token a).2 sess.userID code
  | .checkCode sessID userID code a =>
    match checkCode s.toTotpState sessID userID code a with
    | (.error _, _) => none
    | (.ok _, _) => matchedStored a s.accounts userID code

/-- The factors, and what was taken. -/
structure CodeSystem extends EnrollSystem where
  accepted : List Acceptance := []

def useCode (s : CodeSystem) (call : CodeCall) :
    CodeSystem :=
  let accepted := (acceptance cfg p s.toEnrollState call).toList ++ s.accepted
  match call with
  | .enroll call => { enroll cfg s.toEnrollSystem call with accepted }
  | .verify token code a =>
    { s with toTotpState := (verify p s.toTotpState token code a).2, accepted }
  | .checkCode sessID userID code a =>
    { s with toTotpState := (checkCode s.toTotpState sessID userID code a).2, accepted }

/-- A code that finishes an enrollment and another code of its secret are accepted two minutes
apart. -/
def Apart (s : CodeSystem) (call : CodeCall) : Prop :=
  ∀ x ∈ acceptance cfg p s.toEnrollState call, ∀ y ∈ s.accepted, y.userID = x.userID →
    y.secret = x.secret → (x.enrolling || y.enrolling) →
      y.time + 4 * totpPeriod * 1000000000 ≤ x.time

/-- When a code is presented, and whether to finish an enrollment. -/
def CodeCall.presented : CodeCall → Option (Time × Bool)
  | .enroll (.finish _ _ _ a) => some (a.session.now, true)
  | .enroll _ => none
  | .verify _ _ a => some (a.session.now, false)
  | .checkCode _ _ _ a => some (a.session.now, false)

/-- A code that finishes an enrollment and another code are presented two minutes apart. -/
def Spaced (first second : CodeCall) : Prop :=
  ∀ x ∈ first.presented, ∀ y ∈ second.presented, (x.2 || y.2) →
    x.1 + 4 * totpPeriod * 1000000000 ≤ y.1

section

variable {cfg : EnrollConfig} {p : SessionPolicy} {s : CodeSystem} {st next : TotpState}
  {token code : Bytes} {a : TotpAnswers} {userID : ULID} {x : Acceptance}

/-- The step is within the window around the time. -/
def Acceptance.InWindow (x : Acceptance) : Prop :=
  (x.time - totpPeriod * 1000000000).toUnix.tdiv totpPeriod ≤ x.step ∧
    x.step ≤ (x.time + totpPeriod * 1000000000).toUnix.tdiv totpPeriod

theorem inWindow_of_matched {secret : Bytes} {enrolling : Bool}
    (found : matched a userID code secret enrolling = some x) :
    x.InWindow ∧ x.userID = userID ∧ x.enrolling = enrolling := by
  obtain ⟨_, here, rfl⟩ := map_eq_some_iff.mp found
  refine ⟨?_, rfl, rfl⟩
  obtain ⟨_, at_, rfl⟩ := map_eq_some_iff.mp here
  obtain ⟨off, listed, rfl⟩ := mem_map.mp (mem_of_find?_eq_some at_)
  have bounds : -1 ≤ off ∧ off ≤ 1 := by
    simp only [mem_cons, not_mem_nil, or_false] at listed
    omega
  constructor <;>
  · refine Int.tdiv_le_tdiv (by decide) (Time.toUnix_le_toUnix ?_)
    unfold totpPeriod Time
    dsimp only
    omega

theorem Acceptance.InWindow.step_lt {x y : Acceptance} (first : y.InWindow) (second : x.InWindow)
    (apart : y.time + 4 * totpPeriod * 1000000000 ≤ x.time) : y.step < x.step := by
  refine Int.lt_of_le_of_lt first.2 (Int.lt_of_lt_of_le ?_ second.1)
  have seconds : (y.time + totpPeriod * 1000000000).toUnix + 60 ≤
      (x.time - totpPeriod * 1000000000).toUnix := by
    unfold totpPeriod Time.toUnix Time at *
    omega
  generalize (y.time + totpPeriod * 1000000000).toUnix = last at *
  generalize (x.time - totpPeriod * 1000000000).toUnix = early at *
  have low := Int.tmod_add_tdiv_mul last 30
  have high := Int.tmod_add_tdiv_mul early 30
  have := Int.lt_tmod_of_pos last (b := 30) (by decide)
  have := Int.tmod_lt_of_pos early (b := 30) (by decide)
  unfold totpPeriod
  omega

/-- The recorded steps only grow. -/
def StepsGrow (before after : FactorTables) : Prop :=
  ∀ userID last, before.totpSteps.lookup userID = some last →
    ∃ last', after.totpSteps.lookup userID = some last' ∧ last ≤ last'

/-- The acceptance advances the recorded step. -/
def Recorded (before after : FactorTables) (x : Acceptance) : Prop :=
  (∀ last, before.totpSteps.lookup x.userID = some last → last < x.step) ∧
    after.totpSteps = before.totpSteps.insert x.userID x.step

variable {before after : FactorTables}

theorem StepsGrow.of_eq (same : after.totpSteps = before.totpSteps) :
    StepsGrow before after :=
  fun _ _ here => ⟨_, same ▸ here, Int.le_refl _⟩

theorem Recorded.grow (recorded : Recorded before after x) :
    StepsGrow before after := by
  intro _ last here
  rw [recorded.2, lookup_insert_eq]
  split
  next same => exact ⟨_, rfl, Int.le_of_lt (recorded.1 last (same ▸ here))⟩
  · exact ⟨last, here, Int.le_refl _⟩

theorem acceptCode_cases (a : TotpAnswers) (f : FactorTables) (userID : ULID)
    (code secret : Bytes) :
    acceptCode a f userID code secret = (false, f) ∨
      ∃ x f', matched a userID code secret false = some x ∧ Recorded f f' x ∧
        acceptCode a f userID code secret = (true, f') := by
  unfold acceptCode matched
  cases matchStep a code secret a.session.now with
  | none => exact .inl rfl
  | some =>
    dsimp only [FactorTables.advanceStep]
    split
    · exact .inl rfl
    next later =>
      refine .inr ⟨_, _, rfl, ⟨fun last here => ?_, rfl⟩, rfl⟩
      rw [here, any_some, decide_eq_true_eq] at later
      exact Int.not_le.mp later

theorem recordPendingFailure_totpSteps (st : TotpState) (sessID : ULID) (now : Time) :
    (recordPendingFailure st sessID now).factors.totpSteps = st.factors.totpSteps := by
  unfold recordPendingFailure
  dsimp only
  split <;> rfl

theorem promote_totpSteps (st : TotpState) (sess : Session) (a : TotpAnswers) :
    (promote st sess a).2.factors.totpSteps = st.factors.totpSteps ∧
      ∀ raised, (promote st sess a).1 = .ok raised → raised.userID = sess.userID := by
  unfold promote
  dsimp only
  split
  · exact ⟨rfl, nofun⟩
  split
  · exact ⟨rfl, nofun⟩
  · exact ⟨rfl, fun _ raised => Except.ok.inj raised ▸ rfl⟩

/-- A code is accepted once: its step is recorded, or it enrolls. -/
def Spends (before after : FactorTables) (x : Option Acceptance) : Prop :=
  StepsGrow before after ∧ ∀ x' ∈ x, x'.InWindow ∧ (x'.enrolling ∨ Recorded before after x')

theorem spends_checkCode (st : EnrollState) (sessID userID : ULID) (code : Bytes) :
    Spends st.factors (checkCode st.toTotpState sessID userID code a).2.factors
      (acceptance cfg p st (.checkCode sessID userID code a)) := by
  simp only [acceptance, checkCode]
  split
  · exact ⟨.of_eq rfl, nofun⟩
  simp only [matchedStored]
  cases decryptSecret a st.accounts userID with
  | error => exact ⟨.of_eq rfl, nofun⟩
  | ok secret =>
    dsimp only
    obtain same | ⟨x, f', found, recorded, taken⟩ :=
      acceptCode_cases a st.factors userID code secret
    · rw [same]
      exact ⟨.of_eq (recordPendingFailure_totpSteps _ _ _), nofun⟩
    · rw [taken, found]
      have spent : Recorded st.factors
        { f' with pendingFailures := f'.pendingFailures.erase sessID } x := recorded
      refine ⟨spent.grow, fun x' same => ?_⟩
      cases same
      exact ⟨(inWindow_of_matched found).1, .inr spent⟩

theorem spends_verify (st : EnrollState) (token code : Bytes) :
    Spends st.factors (verify p st.toTotpState token code a).2.factors
      (acceptance cfg p st (.verify token code a)) := by
  simp only [acceptance, verify]
  cases pendingSession p st.accounts token a with
  | mk checked accounts =>
    cases checked with
    | error => exact ⟨.of_eq rfl, nofun⟩
    | ok sess =>
      dsimp only
      cases opened : decryptSecret a accounts sess.userID with
      | error => exact ⟨.of_eq rfl, nofun⟩
      | ok secret =>
        dsimp only
        obtain same | ⟨x, f', found, recorded, taken⟩ :=
          acceptCode_cases a st.factors sess.userID code secret
        · rw [same]
          exact ⟨.of_eq (recordPendingFailure_totpSteps _ _ _), nofun⟩
        · rw [taken]
          dsimp only
          obtain ⟨kept, own⟩ := promote_totpSteps ⟨accounts, f'⟩ sess a
          generalize promote ⟨accounts, f'⟩ sess a = outcome at kept own ⊢
          cases outcome with
          | mk raised next =>
            have spent : Recorded st.factors next.factors x := ⟨recorded.1, kept.trans recorded.2⟩
            refine ⟨spent.grow, ?_⟩
            cases raised with
            | error => exact nofun
            | ok raised =>
              simp only [matchedStored, own raised rfl, opened]
              intro _ same
              obtain rfl := some.inj (found.symm.trans same)
              exact ⟨(inWindow_of_matched found).1, .inr spent⟩

theorem confirmEnrollment_totpSteps (count : ℕ) (st : EnrollState) (userID : ULID)
    (a : FinishAnswers) :
    (confirmEnrollment count st userID a).2.factors.totpSteps = st.factors.totpSteps := by
  unfold confirmEnrollment
  split
  · rfl
  split
  · rfl
  split <;> rfl

theorem finishEnrollment_totpSteps (cfg : EnrollConfig) (st : EnrollState) (userID : ULID)
    (enrollmentID code : Bytes) (a : FinishAnswers) :
    (finishEnrollment cfg st userID enrollmentID code a).2.factors.totpSteps =
      st.factors.totpSteps := by
  unfold finishEnrollment
  iterate 5
    split
    · rfl
  · exact confirmEnrollment_totpSteps _ _ _ _

theorem spends_enroll (s : EnrollSystem) (call : EnrollCall) :
    Spends s.factors (enroll cfg s call).factors
      (acceptance cfg p s.toEnrollState (.enroll call)) := by
  cases call with
  | begin userID accountName b =>
    refine ⟨.of_eq ?_, nofun⟩
    simp only [enroll]
    rcases beginEnrollment_cases cfg s.toEnrollState userID accountName b with
      ⟨e, done, -⟩ | ⟨secret, enc, -, done | ⟨id, done⟩⟩
    · rw [done]
      cases e <;> rfl
    · rw [done]
    · rw [done]
  | finish =>
    refine ⟨.of_eq (finishEnrollment_totpSteps _ _ _ _ _ _), fun x here => ?_⟩
    simp only [acceptance] at here
    split at here
    · cases here
    · obtain ⟨_, -, found⟩ := bind_eq_some_iff.mp here
      obtain ⟨inside, -, enrolling⟩ := inWindow_of_matched found
      exact ⟨inside, .inl enrolling⟩
  | delete => exact ⟨.of_eq rfl, nofun⟩

theorem useCode_spends (cfg : EnrollConfig) (p : SessionPolicy) (s : CodeSystem) (call : CodeCall) :
    Spends s.factors (useCode cfg p s call).factors (acceptance cfg p s.toEnrollState call) := by
  cases call with
  | enroll call => exact spends_enroll s.toEnrollSystem call
  | verify token code => exact spends_verify s.toEnrollState token code
  | checkCode sessID userID code => exact spends_checkCode s.toEnrollState sessID userID code

theorem useCode_accepted (cfg : EnrollConfig) (p : SessionPolicy) (s : CodeSystem)
    (call : CodeCall) :
    (useCode cfg p s call).accepted =
      (acceptance cfg p s.toEnrollState call).toList ++ s.accepted := by
  cases call <;> rfl

/-- Every step that `verify` and `checkCode` accepted is at most the recorded one. -/
structure SpentOnce (s : CodeSystem) : Prop where
  once : (s.accepted.map fun x => (x.userID, x.secret, x.step)).Nodup
  recorded : ∀ x ∈ s.accepted, x.enrolling = false →
    ∃ last, s.factors.totpSteps.lookup x.userID = some last ∧ x.step ≤ last
  inWindow : ∀ x ∈ s.accepted, x.InWindow

theorem spentOnce_useCode (spent : SpentOnce s) {call : CodeCall} (apart : Apart cfg p s call) :
    SpentOnce (useCode cfg p s call) := by
  obtain ⟨grow, accepts⟩ := useCode_spends cfg p s call
  have kept : ∀ y ∈ s.accepted, y.enrolling = false → ∃ last,
      (useCode cfg p s call).factors.totpSteps.lookup y.userID = some last ∧ y.step ≤ last := by
    intro y old own
    obtain ⟨_, here, le⟩ := spent.recorded y old own
    obtain ⟨last', there, le'⟩ := grow _ _ here
    exact ⟨last', there, Int.le_trans le le'⟩
  unfold Apart at apart
  have all := useCode_accepted cfg p s call
  cases here : acceptance cfg p s.toEnrollState call with
  | none =>
    rw [here] at all
    exact ⟨all ▸ spent.once, all ▸ kept, all ▸ spent.inWindow⟩
  | some x =>
    rw [here] at all apart accepts
    obtain ⟨inside, own⟩ := accepts x rfl
    -- a recorded step is later than the recorded steps, and the others are two minutes apart
    have new : ∀ y ∈ s.accepted, y.userID = x.userID → y.secret = x.secret → y.step < x.step := by
      intro y old user secret
      by_cases enrolling : (x.enrolling || y.enrolling) = true
      · exact (spent.inWindow y old).step_lt inside (apart x rfl y old user secret enrolling)
      · rw [Bool.or_eq_true, not_or, Bool.not_eq_true, Bool.not_eq_true] at enrolling
        obtain ⟨last, before, le⟩ := spent.recorded y old enrolling.2
        obtain yes | later := own
        · rw [enrolling.1] at yes
          cases yes
        · exact Int.lt_of_le_of_lt le (later.1 last (user ▸ before))
    refine ⟨?_, ?_, ?_⟩
    · rw [all]
      refine nodup_cons.mpr ⟨fun again => ?_, spent.once⟩
      obtain ⟨y, old, same⟩ := mem_map.mp again
      simp only [Prod.mk.injEq] at same
      exact absurd same.2.2 (Int.ne_of_lt (new y old same.1 same.2.1))
    · rw [all]
      intro y listed no
      obtain rfl | old := mem_cons.mp listed
      · obtain yes | later := own
        · rw [no] at yes
          cases yes
        · exact ⟨_, later.2 ▸ AList.lookup_insert _, Int.le_refl _⟩
      · exact kept y old no
    · rw [all]
      intro y listed
      obtain rfl | old := mem_cons.mp listed
      · exact inside
      · exact spent.inWindow y old

theorem presented_of_acceptance {s : EnrollState} {call : CodeCall}
    (here : acceptance cfg p s call = some x) : call.presented = some (x.time, x.enrolling) := by
  have own : ∀ {a userID code secret enrolling}, matched a userID code secret enrolling = some x →
      (a.session.now, enrolling) = (x.time, x.enrolling) := by
    intro _ _ _ _ _ found
    obtain ⟨_, -, rfl⟩ := map_eq_some_iff.mp found
    rfl
  have stored : ∀ {a accounts userID code}, matchedStored a accounts userID code = some x →
      (a.session.now, false) = (x.time, x.enrolling) := by
    intro _ _ _ _ found
    unfold matchedStored at found
    split at found
    · cases found
    · exact own found
  cases call with
  | enroll call =>
    cases call with
    | finish =>
      simp only [acceptance] at here
      split at here
      · cases here
      · obtain ⟨_, -, found⟩ := bind_eq_some_iff.mp here
        exact congrArg some (own found)
    | _ => cases here
  | verify | checkCode =>
    simp only [acceptance] at here
    split at here
    · cases here
    · exact congrArg some (stored here)

/-- The times at which the codes are presented are enough for what `Apart` says of those that are
accepted. -/
theorem apart_of_spaced {calls : List CodeCall} (spaced : calls.Pairwise Spaced)
    (later : ∀ x ∈ s.accepted, ∀ call ∈ calls, ∀ y ∈ call.presented, (x.enrolling || y.2) →
      x.time + 4 * totpPeriod * 1000000000 ≤ y.1) :
    Throughout (fun s call => some (useCode cfg p s call)) (Apart cfg p) s calls := by
  induction calls generalizing s with
  | nil => trivial
  | cons call rest ih =>
    obtain ⟨first, spaced⟩ := pairwise_cons.mp spaced
    refine ⟨fun x here y old _ _ enrolling => ?_, fun next taken => ?_⟩
    · refine later y old call mem_cons_self _ (presented_of_acceptance here) ?_
      rwa [Bool.or_comm]
    · cases taken
      refine ih spaced fun x listed other inside => ?_
      rw [useCode_accepted, mem_append, mem_toList] at listed
      obtain new | old := listed
      · exact first other inside _ (presented_of_acceptance new)
      · exact later x old other (mem_cons_of_mem _ inside)

end

/-- **No step of a secret is accepted twice when the code that finishes an enrollment and the
other codes of its secret are accepted two minutes apart.** -/
theorem step_accepted_once (cfg : EnrollConfig) (p : SessionPolicy) (st : TotpState)
    (calls : List CodeCall)
    (apart : Throughout (fun s call => some (useCode cfg p s call)) (Apart cfg p)
      ⟨.initial st, []⟩ calls) :
    ((calls.foldl (useCode cfg p) ⟨.initial st, []⟩).accepted.map
      fun x => (x.userID, x.secret, x.step)).Nodup := by
  have initially : SpentOnce ⟨.initial st, []⟩ := ⟨nodup_nil, nofun, nofun⟩
  exact (invariant_of_run_throughout
    (fun spent apart taken => some.inj taken ▸ spentOnce_useCode spent apart)
    initially apart run_total).once

def enrollAndStepUp (later : Time) : List CodeCall :=
  [.enroll (beginAt "k" "e"), .enroll (finishAt "e" "k"),
    .checkCode 3 1 (str "k") (echoAnswers later)]

def anyPolicy : SessionPolicy := {}

instance (first second : CodeCall) : Decidable (Spaced first second) :=
  inferInstanceAs (Decidable (∀ x ∈ first.presented, _))

theorem step_accepted_once_later :
    let last := (enrollAndStepUp 200000000000).foldl (useCode plainEnroll anyPolicy)
      ⟨.initial noFactors, []⟩
    last.accepted.length = 2 ∧ (last.accepted.map fun x => (x.userID, x.secret, x.step)).Nodup :=
  ⟨by decide +kernel, step_accepted_once plainEnroll anyPolicy noFactors
    (enrollAndStepUp 200000000000) (apart_of_spaced (by decide +kernel) nofun)⟩

/-- The code that finished the enrollment is accepted again. -/
theorem enrolling_step_accepted_twice :
    let last := (enrollAndStepUp 2).foldl (useCode plainEnroll anyPolicy) ⟨.initial noFactors, []⟩
    last.accepted = [⟨1, str "k", -2071186560, 2, false⟩, ⟨1, str "k", -2071186560, 1, true⟩] := by
  decide +kernel

end TheAuth.Totp
