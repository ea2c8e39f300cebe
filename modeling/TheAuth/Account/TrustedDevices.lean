import TheAuth.Account.IdentityLink
import TheAuth.Password.Changes

/-!
# Trusted devices

A remembered device lets a password sign-in go without the second factor. A reset and a change of
the password revoke the devices of the user once the hash is stored, and only log when that fails.
Linking a password and merging accounts replace the hash too, but leave the devices.
-/

set_option autoImplicit false

namespace TheAuth.Account

open Go Server Store Library.Run List Option GoMap
open Function (update)

/-! ## The device store and its service -/

/-- A row of the device store. -/
structure TrustedDevice where
  (id userID : ULID)
  tokenHash : Bytes
  (createdAt lastUsedAt expiresAt : Time)
  revokedAt : Option Time := none

/-- `mac` is the keyed hash that signs a cookie. -/
structure DeviceService where
  mac : Bytes → Bytes
  ttl : Time

/-- The password calls, the user that a call told the account lifecycle of, and the devices. -/
structure DeviceState where
  sys : Password.System
  notified : ℕ → Option ULID
  devices : GoMap ULID TrustedDevice

/-- No call has begun. -/
def DeviceState.initial (store : UserStore) (tokens : GoMap ULID Password.PasswordResetToken)
    (devices : GoMap ULID TrustedDevice) : DeviceState :=
  ⟨.initial store tokens, fun _ => none, devices⟩

def TrustedDevice.revokeFor (userID : ULID) (now : Time) (d : TrustedDevice) : TrustedDevice :=
  if d.userID = userID ∧ d.revokedAt = none then { d with revokedAt := some now } else d

variable (devices : GoMap ULID TrustedDevice)

def revokeTrustedDevice (userID id : ULID) (now : Time) :
    Option (GoMap ULID TrustedDevice) :=
  match devices.lookup id with
  | none => none
  | some d =>
    if d.userID ≠ userID ∨ d.revokedAt.isSome then none
    else some (devices.insert id { d with revokedAt := some now })

def touchTrustedDevice (id : ULID) (now : Time) :
    GoMap ULID TrustedDevice :=
  match devices.lookup id with
  | none => devices
  | some d => devices.insert id { d with lastUsedAt := now }

namespace DeviceService

variable (svc : DeviceService)

def token (cookie : Bytes) : Option Bytes :=
  let got := (cookie.reverse.takeWhile (· ≠ 0x2E)).reverse
  let tok := cookie.take (cookie.length - got.length - 1)
  if got.length = cookie.length ∨ tok = [] ∨ got = [] then none
  else if got = svc.mac tok then some tok else none

def accepted (devices : GoMap ULID TrustedDevice) (userID : ULID) (cookie : Bytes) (now : Time) :
    Option TrustedDevice :=
  match svc.token cookie with
  | none => none
  | some tok =>
    match devices.find? fun d => d.userID == userID && d.tokenHash == hashToken tok with
    | none => none
    | some (_, d) => if d.revokedAt.isSome ∨ ¬ now < d.expiresAt then none else some d

end DeviceService

/-! ## Operations -/

/-- `passwordChanged` is what a reset or a change calls between storing the hash and revoking the
sessions; `fails` when revoking the devices fails. -/
inductive Operation where
  | remember (userID : ULID) (token : Bytes) (id : ULID) (now : Time)
  | trusted (userID : ULID) (cookie : Bytes) (now : Time)
  | revoke (userID id : ULID) (now : Time)
  | password (action : Password.Action)
  | passwordChanged (r : ℕ) (fails : Bool) (now : Time)
  | linkPassword (sessionToken password : Bytes) (a : LinkAnswers)
  | merge (sessionToken : Bytes) (secondaryID : ULID) (a : LinkAnswers)

/-- The call has stored the hash, and tells the lifecycle before it goes on. -/
def DeviceState.waits (s : DeviceState) : Password.Action → Bool
  | .advance r _ =>
    match s.sys.phase r with
    | .revoking userID _ _ _ => s.notified r != some userID
    | _ => false
  | .revokeSession _ _ => false

section

variable [Password.PasswordLib] (svc : DeviceService) (cfg : Password.Config)
  (requests : ℕ → Password.Request)

/-- One operation; `false` when it is refused or cannot be taken. -/
def perform (s : DeviceState) : Operation → Bool × DeviceState
  | .remember userID token id now =>
    (true, { s with
      devices := s.devices.insert id ⟨id, userID, hashToken token, now, now, now + svc.ttl, none⟩ })
  | .trusted userID cookie now =>
    match svc.accepted s.devices userID cookie now with
    | none => (false, s)
    | some d => (true, { s with devices := touchTrustedDevice s.devices d.id now })
  | .revoke userID id now =>
    match revokeTrustedDevice s.devices userID id now with
    | none => (false, s)
    | some devices => (true, { s with devices })
  | .password action =>
    if s.waits action then (false, s)
    else match Password.step cfg requests s.sys action with
    | none => (false, s)
    | some sys => (true, { s with sys })
  | .passwordChanged r fails now =>
    match s.sys.phase r with
    | .revoking userID _ _ _ =>
      if s.notified r = some userID then (false, s)
      else
        (true, { s with
          notified := update s.notified r (some userID)
          devices :=
            if fails then s.devices
            else s.devices.mapValues (TrustedDevice.revokeFor userID now) })
    | _ => (false, s)
  | .linkPassword sessionToken password a =>
    let (answer, store) := linkPasswordToCurrentUser s.sys.store sessionToken password a
    (answer.isOk, { s with sys := { s.sys with store } })
  | .merge sessionToken secondaryID a =>
    let (answer, store) := mergeAccounts s.sys.store sessionToken secondaryID a
    (answer.isOk, { s with sys := { s.sys with store } })

/-- The state after a history. -/
def exec (s : DeviceState) (ops : List Operation) : DeviceState :=
  ops.foldl (fun s op => (perform svc cfg requests s op).2) s

end

/-- The device was remembered in the history. -/
def Remembered (ops : List Operation) (d : TrustedDevice) : Prop :=
  ∃ token now, .remember d.userID token d.id now ∈ ops ∧ d.tokenHash = hashToken token

/-- Every live device of the user was remembered in the history. -/
def LiveSince (userID : ULID) (ops : List Operation) (devices : GoMap ULID TrustedDevice) : Prop :=
  ∀ key d, devices.lookup key = some d → d.userID = userID → d.revokedAt = none → Remembered ops d

/-! ## Devices that are live -/

section

variable {svc : DeviceService} {userID : ULID} {ops : List Operation}
  {devices : GoMap ULID TrustedDevice}

theorem Remembered.grow {d : TrustedDevice} (remembered : Remembered ops d) (op : Operation) :
    Remembered (ops ++ [op]) d := by
  obtain ⟨token, now, listed, hash⟩ := remembered
  exact ⟨token, now, mem_append_left _ listed, hash⟩

theorem LiveSince.insert {key : ULID} {row : TrustedDevice} (live : LiveSince userID ops devices)
    (own : row.userID = userID → row.revokedAt = none → Remembered ops row) :
    LiveSince userID ops (devices.insert key row) := by
  intro other d here
  obtain ⟨-, rfl⟩ | ⟨-, here⟩ := of_lookup_insert here
  · exact own
  · exact live other d here

/-- A device that is live after the revocation was live before, and is not the user's. -/
theorem of_lookup_revokeFor {key other : ULID} {now : Time} {d : TrustedDevice}
    (here : (devices.mapValues (TrustedDevice.revokeFor other now)).lookup key = some d)
    (unrevoked : d.revokedAt = none) : devices.lookup key = some d ∧ d.userID ≠ other := by
  rw [lookup_mapValues] at here
  obtain ⟨old, before, rfl⟩ := map_eq_some_iff.mp here
  unfold TrustedDevice.revokeFor at unrevoked ⊢
  split at unrevoked
  · cases unrevoked
  next kept =>
    rw [if_neg kept]
    exact ⟨before, fun own => kept ⟨own, unrevoked⟩⟩

theorem accepted_eq_some {cookie : Bytes} {now : Time} {d : TrustedDevice}
    (trusted : svc.accepted devices userID cookie now = some d) :
    (∃ key, devices.lookup key = some d) ∧ d.userID = userID ∧ d.revokedAt = none := by
  unfold DeviceService.accepted at trusted
  split at trusted
  · cases trusted
  split at trusted
  · cases trusted
  rename_i key row found
  split at trusted
  · cases trusted
  next live =>
    cases trusted
    obtain ⟨here, matched⟩ := find?_eq_some found
    rw [Bool.and_eq_true, beq_iff_eq] at matched
    rw [not_or, Bool.not_eq_true, isSome_eq_false_iff, isNone_iff_eq_none] at live
    exact ⟨⟨key, here⟩, matched.1, live.1⟩

variable [Password.PasswordLib] {cfg : Password.Config} {requests : ℕ → Password.Request}
  {s : DeviceState}

theorem liveSince_perform (live : LiveSince userID ops s.devices) (op : Operation) :
    LiveSince userID (ops ++ [op]) (perform svc cfg requests s op).2.devices := by
  have later : LiveSince userID (ops ++ [op]) s.devices :=
    fun key d here own unrevoked => (live key d here own unrevoked).grow op
  cases op with
  | remember _ token _ now =>
    refine later.insert fun _ _ => ⟨token, now, ?_, rfl⟩
    exact mem_append_right _ (mem_singleton.mpr rfl)
  | trusted =>
    simp only [perform]
    split
    · exact later
    next =>
      unfold touchTrustedDevice
      split
      · exact later
      next d here => exact later.insert (later _ d here)
  | revoke =>
    simp only [perform]
    split
    · exact later
    next done =>
      unfold revokeTrustedDevice at done
      split at done
      · cases done
      split at done <;> cases done
      exact later.insert nofun
  | password =>
    simp only [perform]
    split
    · exact later
    split <;> exact later
  | passwordChanged =>
    simp only [perform]
    split
    · split
      · exact later
      dsimp only
      split
      · exact later
      · intro key d here own unrevoked
        exact later key d (of_lookup_revokeFor here unrevoked).1 own unrevoked
    · exact later
  | linkPassword | merge => exact later

/-! ## Calls that replaced the password -/

/-- A call gets past the revocations from the phase before them. -/
theorem cleared_of_step {sys next : Password.System} {action : Password.Action} {r gen : ℕ}
    (taken : Password.step cfg requests sys action = some next)
    (here : (next.phase r).cleared = some (userID, gen)) :
    (sys.phase r).cleared = some (userID, gen) ∨ (∃ a, action = .advance r a) ∧
      ∃ read hash, sys.phase r = .revoking userID read gen hash := by
  have moves : ∀ {q p}, next.phase = update sys.phase q p →
      r = q ∧ p.cleared = some (userID, gen) ∨ (sys.phase r).cleared = some (userID, gen) := by
    intro q p moved
    rw [moved] at here
    let Past (p : Password.Phase) : Prop := p.cleared = some (userID, gen)
    exact (update_cases_of (Q := Past) here).imp_right And.right
  have stays : ∀ {q p}, next.phase = update sys.phase q p → p.cleared = none →
      (sys.phase r).cleared = some (userID, gen) := by
    intro q p moved uncleared
    obtain ⟨-, cleared⟩ | kept := moves moved
    · cases uncleared.symm.trans cleared
    · exact kept
  cases Password.stepped_of_step cfg taken with
  | begin q a =>
    exact .inl (stays rfl (Password.begun_begin cfg sys (requests q) a).uncleared)
  | refuse | issue | store => exact .inl (stays rfl rfl)
  | upgrade q _ userID gen =>
    have plain := Password.plain_afterUpgrade (requests q) userID gen
    exact .inl (stays rfl (Password.Phase.cleared_of_plain plain))
  | gate _ a userID gen =>
    have plain := Password.plain_afterGate cfg sys userID gen a
    exact .inl (stays rfl (Password.Phase.cleared_of_plain plain))
  | revoke q a user read _ hash before =>
    obtain ⟨rfl, cleared⟩ | kept := moves rfl
    · cases read <;> cases cleared <;> exact .inr ⟨⟨a, rfl⟩, _, hash, before⟩
    · exact .inl kept
  | find _ _ _ _ _ _ before | reissue _ _ _ _ _ _ before =>
    obtain ⟨rfl, cleared⟩ | kept := moves rfl
    · rw [before]
      exact .inl cleared
    · exact .inl kept
  | elsewhere => exact .inl here

/-- A call that is past the revocations has told the lifecycle. -/
def Told (s : DeviceState) : Prop :=
  ∀ {r userID gen}, (s.sys.phase r).cleared = some (userID, gen) → s.notified r = some userID

theorem told_perform (told : Told s) (op : Operation) :
    Told (perform svc cfg requests s op).2 := by
  cases op with
  | remember | linkPassword | merge => exact told
  | trusted | revoke =>
    simp only [perform]
    split <;> exact told
  | password =>
    simp only [perform]
    split
    · exact told
    rename_i goes
    split
    · exact told
    rename_i taken
    intro r _ _ here
    obtain before | ⟨⟨_, rfl⟩, _, _, before⟩ := cleared_of_step taken here
    · exact told before
    · -- it would wait otherwise
      rw [DeviceState.waits, before] at goes
      simpa using goes
  | passwordChanged q =>
    simp only [perform]
    split
    · rename_i storing
      split
      · exact told
      intro r _ _ here
      dsimp only at here ⊢
      by_cases same : r = q
      · subst same
        rw [storing] at here
        cases here
      · rw [Function.update_of_ne same]
        exact told here
    · exact told

/-- The call told the lifecycle when it had stored the user's hash, and every device of the user
that is live was remembered after that. -/
def Forgets (svc : DeviceService) (cfg : Password.Config) (requests : ℕ → Password.Request)
    (init : DeviceState) (userID : ULID) (r : ℕ) (ops : List Operation) : Prop :=
  ∃ earlier now later, ops = earlier ++ .passwordChanged r false now :: later ∧
    (∃ read gen hash,
      (exec svc cfg requests init earlier).sys.phase r = .revoking userID read gen hash) ∧
    LiveSince userID later (exec svc cfg requests init ops).devices

variable {init : DeviceState} {r : ℕ}

theorem exec_concat (op : Operation) : exec svc cfg requests init (ops ++ [op]) =
    (perform svc cfg requests (exec svc cfg requests init ops) op).2 :=
  foldl_append

theorem Forgets.grow (forgets : Forgets svc cfg requests init userID r ops) (op : Operation) :
    Forgets svc cfg requests init userID r (ops ++ [op]) := by
  obtain ⟨earlier, now, later, rfl, storing, live⟩ := forgets
  refine ⟨earlier, now, later ++ [op], by simp, storing, ?_⟩
  rw [exec_concat]
  exact liveSince_perform live op

/-- The devices of the user are revoked at this moment. -/
theorem forgets_of_revoking {read : Option ℕ} {gen : ℕ} {hash : Bytes} {now : Time}
    (untold : (exec svc cfg requests init ops).notified r ≠ some userID)
    (here : (exec svc cfg requests init ops).sys.phase r = .revoking userID read gen hash) :
    Forgets svc cfg requests init userID r (ops ++ [.passwordChanged r false now]) := by
  refine ⟨ops, now, [], rfl, ⟨read, gen, hash, here⟩, ?_⟩
  rw [exec_concat]
  simp only [perform, here, if_neg untold]
  intro _ _ there own unrevoked
  exact absurd own (of_lookup_revokeFor there unrevoked).2

/-- Along a history that begins with no call. -/
theorem forgets_of_notified (fresh : ∀ r, init.notified r = none)
    (unfailed : ∀ now, .passwordChanged r true now ∉ ops)
    (told : (exec svc cfg requests init ops).notified r = some userID) :
    Forgets svc cfg requests init userID r ops := by
  induction ops using reverseRecOn with
  | nil => cases (fresh r).symm.trans told
  | append_singleton ops op ih =>
    have earlier : (exec svc cfg requests init ops).notified r = some userID →
        Forgets svc cfg requests init userID r (ops ++ [op]) := fun told =>
      (ih (fun now listed => unfailed now (mem_append_left _ listed)) told).grow op
    rw [exec_concat] at told
    cases op with
    | remember | linkPassword | merge => exact earlier told
    | trusted | revoke =>
      simp only [perform] at told
      split at told <;> exact earlier told
    | password =>
      simp only [perform] at told
      split at told
      · exact earlier told
      split at told <;> exact earlier told
    | passwordChanged q fails now =>
      simp only [perform] at told
      split at told
      · rename_i storing
        split at told
        · exact earlier told
        rename_i untold
        dsimp only at told
        by_cases same : r = q
        · subst same
          rw [Function.update_self] at told
          cases told
          cases fails with
          | true => exact absurd (mem_append_right _ mem_cons_self) (unfailed now)
          | false => exact forgets_of_revoking untold storing
        · rw [Function.update_of_ne same] at told
          exact earlier told
      · exact earlier told

theorem told_exec (told : Told init) (ops : List Operation) :
    Told (exec svc cfg requests init ops) := by
  induction ops using reverseRecOn with
  | nil => exact told
  | append_singleton ops op ih =>
    rw [exec_concat]
    exact told_perform ih op

end

/-- **Once a reset or a change of the password has returned, only devices that were remembered after
it stored the hash are trusted,** if revoking the devices did not fail; so the next sign-in of a
user with a second factor asks for it. -/
theorem devices_forgotten_by_password_change [Password.PasswordLib] (svc : DeviceService)
    (cfg : Password.Config) (requests : ℕ → Password.Request) (store : UserStore)
    (tokens : GoMap ULID Password.PasswordResetToken) (devices : GoMap ULID TrustedDevice)
    (ops : List Operation) (r : ℕ) (userID : ULID) (gen : ℕ) (hash : Bytes) :
    let init := DeviceState.initial store tokens devices
    let last := exec svc cfg requests init ops
    last.sys.phase r = .changed userID gen hash → (∀ now, .passwordChanged r true now ∉ ops) →
    ∃ earlier now later, ops = earlier ++ .passwordChanged r false now :: later ∧
      (∃ read gen hash,
        (exec svc cfg requests init earlier).sys.phase r = .revoking userID read gen hash) ∧
      (∀ cookie time d, svc.accepted last.devices userID cookie time = some d →
        d.userID = userID ∧ Remembered later d) ∧
      ((∀ token id time, .remember userID token id time ∉ later) →
        ∀ (gen : ℕ) (a : Password.Answers) (cookie : Bytes), a.refused = false →
          cfg.totpEnabled = true →
          (last.sys.store.totpSecrets.lookup userID).any (·.confirmedAt.isSome) = true →
          a.trusted = (svc.accepted last.devices userID cookie a.now).isSome →
          Password.afterGate cfg last.sys userID gen a = .issuing userID gen .pending2FA) := by
  intro init last success unfailed
  have initially : Told init := nofun
  have cleared : (last.sys.phase r).cleared = some (userID, gen) := by
    rw [success]
    rfl
  have told : last.notified r = some userID := told_exec initially ops cleared
  obtain ⟨earlier, now, later, split, storing, live⟩ :=
    forgets_of_notified (fun _ => rfl) unfailed told
  have remembered : ∀ cookie time d, svc.accepted last.devices userID cookie time = some d →
      d.userID = userID ∧ Remembered later d := by
    intro cookie time d trusted
    obtain ⟨⟨key, here⟩, own, unrevoked⟩ := accepted_eq_some trusted
    exact ⟨own, live key d here own unrevoked⟩
  refine ⟨earlier, now, later, split, storing, remembered, ?_⟩
  intro none gen a cookie gate enabled confirmed answer
  have untrusted : a.trusted = false := by
    rw [answer]
    cases found : svc.accepted last.devices userID cookie a.now with
    | none => rfl
    | some d =>
      obtain ⟨own, token, time, listed, -⟩ := remembered _ _ d found
      exact absurd (own ▸ listed) (none token d.id time)
  unfold Password.afterGate
  rw [gate, enabled, confirmed, untrusted]
  rfl

attribute [local instance] Password.plainHashes

def plainDevices : DeviceService := ⟨fun _ => str "m", 100⟩

/-- A device is remembered, and the password is reset. -/
def resetAfterRemember (fails : Bool) : List Operation :=
  [.remember 1 (str "d") 40 1, .password (.advance 1 { salt := some (str "s1") }),
    .password (.advance 1 {}), .passwordChanged 1 fails 2, .password (.advance 1 {})]

/-- The state after the reset. -/
def afterReset (fails : Bool) : DeviceState :=
  exec plainDevices {} Password.signinAndReset (.initial Password.migrated Password.mailed ∅)
    (resetAfterRemember fails)

theorem changed_of_afterReset (fails : Bool) : (afterReset fails).sys.phase 1 =
    .changed 1 1 (Password.hashPassword (str "new password") (str "s1")) := by
  cases fails <;> decide +kernel

theorem devices_forgotten_by_reset :
    plainDevices.accepted (afterReset false).devices 1 (str "d.m") 3 = none ∧
      ∃ earlier now later, resetAfterRemember false =
          earlier ++ .passwordChanged 1 false now :: later ∧
        ∀ cookie time d, plainDevices.accepted (afterReset false).devices 1 cookie time = some d →
          d.userID = 1 ∧ Remembered later d := by
  have unfailed : ∀ now, Operation.passwordChanged 1 true now ∉ resetAfterRemember false := by
    intro now
    simp [resetAfterRemember]
  have success := changed_of_afterReset false
  unfold afterReset at success
  obtain ⟨earlier, now, later, split, -, remembered, -⟩ :=
    devices_forgotten_by_password_change _ _ _ _ _ _ _ 1 1 1 _ success unfailed
  exact ⟨by decide +kernel, earlier, now, later, split, remembered⟩

/-- The state in which user 1 has remembered a device. -/
def rememberedDevice : DeviceState :=
  exec plainDevices {} Password.signinAndReset (.initial twoUsers ∅ ∅) [.remember 1 (str "d") 40 1]

/-- User 1 links a password, or merges the account of user 2, or resets the password and the devices
cannot be revoked: the device is still trusted. -/
theorem devices_survive_password_change :
    let perform := perform plainDevices {} Password.signinAndReset rememberedDevice
    (∃ next, perform (.linkPassword (str "p") (str "correct horse") firstAnswers) = (true, next) ∧
      next.sys.store.userPasswordHashByID 1 ≠
        rememberedDevice.sys.store.userPasswordHashByID 1 ∧
      (plainDevices.accepted next.devices 1 (str "d.m") 3).isSome) ∧
    (∃ next, perform (.merge (str "p") 2 firstAnswers) = (true, next) ∧
      next.sys.store.userPasswordHashByID 1 ≠
        rememberedDevice.sys.store.userPasswordHashByID 1 ∧
      (plainDevices.accepted next.devices 1 (str "d.m") 3).isSome) ∧
    (∃ hash, (afterReset true).sys.phase 1 = .changed 1 1 hash) ∧
    (plainDevices.accepted (afterReset true).devices 1 (str "d.m") 3).isSome := by
  have succeeds {answer : Bool × DeviceState} (ok : answer.1 = true) : answer = (true, answer.2) :=
    Prod.ext ok rfl
  refine ⟨⟨_, succeeds ?_, ?_⟩, ⟨_, succeeds ?_, ?_⟩, ⟨_, changed_of_afterReset true⟩, ?_⟩
  all_goals decide +kernel

end TheAuth.Account
