import TheAuth.Go.Map
import TheAuth.Server.Model

/-!
# Authorization codes and device authorizations in the memory store

An authorization code is deleted when it is presented. The decision and the redemption of a device
authorization are conditional updates, so that each is made once. `NothingFor` says what an
operation that does nothing on behalf of a user leaves alone.
-/

set_option autoImplicit false

namespace TheAuth.Store

open Go Server Option GoMap

/-- A stored code. -/
structure AuthorizationCode where
  (code clientID : Bytes)
  userID : ULID
  redirectURI : Bytes
  scope : List Bytes
  (resource codeChallenge codeChallengeMethod nonce authorizationDetails : Bytes)
  authTime : Time
  acr : Bytes
  amr : List Bytes
  (expiresAt createdAt : Time)

inductive DeviceAuthStatus where
  | pending | approved | denied | consumed
  deriving DecidableEq

/-- A stored device code. -/
structure DeviceAuthorization where
  id : ULID
  (deviceCodeHash userCodeHash clientID : Bytes)
  scope : List Bytes
  resource : Bytes
  status : DeviceAuthStatus := .pending
  userID : Option ULID := none
  intervalSeconds : Int
  lastPollAt : Option Time := none
  (createdAt expiresAt : Time)
  decidedAt : Option Time := none
  deriving DecidableEq

/-- The codes of both grants. -/
structure GrantStore where
  authzCodes : GoMap Bytes AuthorizationCode
  devices : GoMap ULID DeviceAuthorization

namespace GrantStore

variable (s : GrantStore)

def empty : GrantStore := ⟨∅, ∅⟩

def insertAuthorizationCode (c : AuthorizationCode) (now : Time) : GrantStore :=
  let dated := if c.createdAt.isZero then { c with createdAt := now } else c
  { s with authzCodes := s.authzCodes.insert c.code dated }

def consumeAuthorizationCode (code : Bytes) : Option (AuthorizationCode × GrantStore) :=
  (s.authzCodes.lookup code).map fun c => (c, { s with authzCodes := s.authzCodes.erase code })

def deviceGrace : Int := 60 * Time.nsPerMinute

def sweepDevices (userCodeHash : Bytes) (now : Time) :
    List (Sigma fun _ : ULID => DeviceAuthorization) → GoMap ULID DeviceAuthorization →
      Bool × GoMap ULID DeviceAuthorization
  | [], devices => (false, devices)
  | ⟨id, d⟩ :: rest, devices =>
    if d.userCodeHash = userCodeHash ∧ now < d.expiresAt then (true, devices)
    else
      sweepDevices userCodeHash now rest
        (if d.expiresAt + deviceGrace < now then devices.erase id else devices)

def insertDeviceAuthorization (d : DeviceAuthorization) (now : Time) : Bool × GrantStore :=
  match sweepDevices d.userCodeHash now s.devices.entries s.devices with
  | (true, swept) => (false, { s with devices := swept })
  | (false, swept) => (true, { s with devices := swept.insert d.id d })

def deviceAuthorizationByDeviceCodeHash (hash : Bytes) : Option DeviceAuthorization :=
  (s.devices.find? fun d => d.deviceCodeHash == hash).map fun found => found.2

def keepLater (best : Option DeviceAuthorization) (d : DeviceAuthorization) :
    Option DeviceAuthorization :=
  match best with
  | none => some d
  | some b => if b.expiresAt < d.expiresAt then some d else some b

def deviceAuthorizationByUserCodeHash (hash : Bytes) : Option DeviceAuthorization :=
  (s.devices.values.filter fun d => d.userCodeHash == hash).foldl keepLater none

def decideDeviceAuthorization (id : ULID) (status : DeviceAuthStatus) (userID : ULID)
    (now : Time) : Bool × GrantStore :=
  match s.devices.lookup id with
  | none => (false, s)
  | some d =>
    if d.status ≠ .pending ∨ d.expiresAt ≤ now then (false, s)
    else
      (true, { s with
        devices := s.devices.insert id
          { d with status, userID := some userID, decidedAt := some now } })

def recordDeviceAuthorizationPoll (id : ULID) (polledAt : Time) (intervalSeconds : Int) :
    Option GrantStore :=
  (s.devices.lookup id).map fun d =>
    { s with
      devices := s.devices.insert id
        { d with lastPollAt := some polledAt, intervalSeconds } }

def consumeDeviceAuthorization (id : ULID) (now : Time) : Bool × GrantStore :=
  match s.devices.lookup id with
  | none => (false, s)
  | some d =>
    if d.status ≠ .approved ∨ d.expiresAt ≤ now then (false, s)
    else (true, { s with devices := s.devices.insert id { d with status := .consumed } })

/-! ### What the operations do -/

variable {id : ULID} {now : Time} {done : Bool}

theorem of_sweepDevices {hash : Bytes} {entries : List (Sigma fun _ : ULID => DeviceAuthorization)}
    {devices : GoMap ULID DeviceAuthorization} {d : DeviceAuthorization}
    (here : (sweepDevices hash now entries devices).2.lookup id = some d) :
    devices.lookup id = some d := by
  induction entries generalizing devices with
  | nil => exact here
  | cons _ _ ih =>
    unfold sweepDevices at here
    split at here
    · exact here
    have kept := ih here
    split at kept
    · exact lookup_of_lookup_erase kept
    · exact kept

variable {s} {next : GrantStore}

theorem lookup_insertDeviceAuthorization {d d' : DeviceAuthorization}
    (inserted : s.insertDeviceAuthorization d now = (done, next))
    (here : next.devices.lookup id = some d') :
    done = true ∧ id = d.id ∧ d' = d ∨
      (done = true → id ≠ d.id) ∧ s.devices.lookup id = some d' := by
  unfold insertDeviceAuthorization at inserted
  have swept := @of_sweepDevices id now d.userCodeHash s.devices.entries s.devices d'
  split at inserted
  next found =>
    cases inserted
    rw [found] at swept
    exact .inr ⟨nofun, swept here⟩
  rename_i found
  cases inserted
  rw [found] at swept
  obtain ⟨same, rfl⟩ | ⟨other, here⟩ := of_lookup_insert here
  · exact .inl ⟨rfl, same, rfl⟩
  · exact .inr ⟨fun _ => other, swept here⟩

variable {status : DeviceAuthStatus}

theorem decideDeviceAuthorization_eq {userID : ULID}
    (decided : s.decideDeviceAuthorization id status userID now = (done, next)) :
    done = false ∧ next = s ∨ done = true ∧ ∃ d, s.devices.lookup id = some d ∧
      d.status = .pending ∧ now < d.expiresAt ∧
        next = { s with
          devices := s.devices.insert id
            { d with status, userID := some userID, decidedAt := some now } } := by
  unfold decideDeviceAuthorization at decided
  split at decided
  · cases decided
    exact .inl ⟨rfl, rfl⟩
  rename_i d here
  split at decided
  · cases decided
    exact .inl ⟨rfl, rfl⟩
  rename_i open_
  cases decided
  rw [not_or, not_not, Int.not_le] at open_
  exact .inr ⟨rfl, d, here, open_.1, open_.2, rfl⟩

theorem consumeDeviceAuthorization_eq
    (consumed : s.consumeDeviceAuthorization id now = (done, next)) :
    done = false ∧ next = s ∨ done = true ∧ ∃ d, s.devices.lookup id = some d ∧
      d.status = .approved ∧ now < d.expiresAt ∧
        next = { s with devices := s.devices.insert id { d with status := .consumed } } := by
  unfold consumeDeviceAuthorization at consumed
  split at consumed
  · cases consumed
    exact .inl ⟨rfl, rfl⟩
  rename_i d here
  split at consumed
  · cases consumed
    exact .inl ⟨rfl, rfl⟩
  rename_i open_
  cases consumed
  rw [not_or, not_not, Int.not_le] at open_
  exact .inr ⟨rfl, d, here, open_.1, open_.2, rfl⟩

end GrantStore

/-- The decision is kept, and at most consumed. -/
structure SameDecision (before after : DeviceAuthorization) : Prop where
  userID : after.userID = before.userID
  decidedAt : after.decidedAt = before.decidedAt
  status : after.status = before.status ∨ before.status = .approved ∧ after.status = .consumed

namespace SameDecision

theorem refl (d : DeviceAuthorization) : SameDecision d d := ⟨rfl, rfl, .inl rfl⟩

theorem trans {first second third : DeviceAuthorization} (one : SameDecision first second)
    (two : SameDecision second third) : SameDecision first third := by
  refine ⟨two.userID.trans one.userID, two.decidedAt.trans one.decidedAt, ?_⟩
  rcases two.status with same | ⟨approved, consumed⟩
  · rw [same]
    exact one.status
  · rcases one.status with same | ⟨_, spent⟩
    · exact .inr ⟨same ▸ approved, consumed⟩
    · rw [spent] at approved
      cases approved

end SameDecision

/-- The user got no code and no approved device. -/
structure NothingFor (userID : ULID) (before after : GrantStore) : Prop where
  codes : ∀ ⦃key c⦄, after.authzCodes.lookup key = some c → c.userID = userID →
    before.authzCodes.lookup key = some c
  devices : ∀ ⦃id d⦄, after.devices.lookup id = some d → d.userID = some userID →
    ∃ d', before.devices.lookup id = some d' ∧ SameDecision d' d

namespace NothingFor

variable {userID : ULID} {s : GrantStore}

theorem refl (userID : ULID) (s : GrantStore) : NothingFor userID s s :=
  ⟨fun _ _ here _ => here, fun _ d here _ => ⟨d, here, .refl d⟩⟩

theorem trans {first second third : GrantStore} (one : NothingFor userID first second)
    (two : NothingFor userID second third) : NothingFor userID first third := by
  constructor
  · intro _ _ here own
    exact one.codes (two.codes here own) own
  · intro _ _ here own
    obtain ⟨_, there, same⟩ := two.devices here own
    obtain ⟨before, stored, earlier⟩ := one.devices there (same.userID ▸ own)
    exact ⟨before, stored, earlier.trans same⟩

theorem of_subset {after : GrantStore}
    (codes : ∀ ⦃key c⦄, after.authzCodes.lookup key = some c → s.authzCodes.lookup key = some c)
    (devices : ∀ ⦃id d⦄, after.devices.lookup id = some d → s.devices.lookup id = some d) :
    NothingFor userID s after :=
  ⟨fun _ _ here _ => codes here, fun _ d here _ => ⟨d, devices here, .refl d⟩⟩

variable {id : ULID} {now : Time}

theorem insertDevice {d : DeviceAuthorization}
    (own : d.userID = some userID → ∃ d', s.devices.lookup id = some d' ∧ SameDecision d' d) :
    NothingFor userID s { s with devices := s.devices.insert id d } := by
  refine ⟨fun _ _ here _ => here, ?_⟩
  intro _ row here decided
  obtain ⟨same, rfl⟩ | ⟨-, here⟩ := of_lookup_insert here
  · rw [same]
    exact own decided
  · exact ⟨row, here, .refl row⟩

theorem insertAuthorizationCode {c : AuthorizationCode} (other : c.userID ≠ userID) :
    NothingFor userID s (s.insertAuthorizationCode c now) := by
  refine ⟨?_, fun _ d here _ => ⟨d, here, .refl d⟩⟩
  intro _ _ here own
  obtain ⟨-, rfl⟩ | ⟨-, here⟩ := of_lookup_insert here
  · split at own <;> exact absurd own other
  · exact here

theorem consumeAuthorizationCode {next : GrantStore} {code : Bytes} {c : AuthorizationCode}
    (consumed : s.consumeAuthorizationCode code = some (c, next)) : NothingFor userID s next := by
  obtain ⟨_, _, done⟩ := map_eq_some_iff.mp consumed
  cases done
  exact of_subset (fun _ _ here => lookup_of_lookup_erase here) fun _ _ here => here

theorem insertDeviceAuthorization {d : DeviceAuthorization}
    (undecided : d.userID = none) : NothingFor userID s (s.insertDeviceAuthorization d now).2 := by
  have swept : NothingFor userID s { s with
      devices := (GrantStore.sweepDevices d.userCodeHash now s.devices.entries s.devices).2 } :=
    of_subset (fun _ _ here => here) fun _ _ here => GrantStore.of_sweepDevices here
  unfold GrantStore.insertDeviceAuthorization
  split
  next done => rwa [done] at swept
  rename_i done
  rw [done] at swept
  refine swept.trans (insertDevice fun own => ?_)
  rw [undecided] at own
  cases own

theorem decideDeviceAuthorization {status : DeviceAuthStatus} {decider : ULID}
    (other : decider ≠ userID) :
    NothingFor userID s (s.decideDeviceAuthorization id status decider now).2 := by
  rcases GrantStore.decideDeviceAuthorization_eq (Prod.eta _).symm with
    ⟨-, same⟩ | ⟨-, d, -, -, -, same⟩
  · rw [same]
    exact .refl _ _
  · rw [same]
    exact insertDevice fun own => absurd (some.inj own) other

theorem recordDeviceAuthorizationPoll {next : GrantStore} {polledAt : Time} {interval : Int}
    (done : s.recordDeviceAuthorizationPoll id polledAt interval = some next) :
    NothingFor userID s next := by
  obtain ⟨d, here, rfl⟩ := map_eq_some_iff.mp done
  exact insertDevice fun _ => ⟨d, here, rfl, rfl, .inl rfl⟩

theorem consumeDeviceAuthorization :
    NothingFor userID s (s.consumeDeviceAuthorization id now).2 := by
  rcases GrantStore.consumeDeviceAuthorization_eq (Prod.eta _).symm with
    ⟨-, same⟩ | ⟨-, d, here, approved, -, same⟩
  · rw [same]
    exact .refl _ _
  · rw [same]
    exact insertDevice fun _ => ⟨d, here, rfl, rfl, .inr ⟨approved, rfl⟩⟩

end NothingFor

end TheAuth.Store
