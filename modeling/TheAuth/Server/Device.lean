import TheAuth.Server.Authorize

/-!
# The device grant

A device shows a user code, a signed-in user decides on the verification page, and the device polls
with its own code. Both codes are stored as keyed hashes.
-/

set_option autoImplicit false

namespace TheAuth.Server

open Go Store Agents Library.Result

class RuneLib where
  upperRunes : Bytes → List Nat
  containsRune : Bytes → Nat → Bool
  encodeRune : Nat → Bytes

@[reducible]
def RuneLib.ascii : RuneLib where
  upperRunes s := s.map fun c => (if 0x61 ≤ c ∧ c ≤ 0x7A then c - 0x20 else c).toNat
  containsRune s rune := s.any fun c => c.toNat == rune
  encodeRune rune := [UInt8.ofNat rune]

structure DeviceConfig where
  verificationURI : Bytes := []
  expiresIn : Int := 10 * Time.nsPerMinute
  interval : Int := 5000000000
  userCodeLength : Nat := 8
  userCodeAlphabet : Bytes := str "BCDFGHJKLMNPQRSTVWXZ"

structure DeviceService where
  (issuer encryptionKey : Bytes)
  resources : ResourceConfig
  config : Option DeviceConfig

inductive DeviceError where
  | disabled
  | oauth (e : OAuthError)
  | unsupportedGrantType | noUserCode | storageNotFound | tooManyAttempts | limiter
  | userCodeInvalid | authorizationPending | slowDown | accessDenied | expiredToken

def grantTypeDeviceCode : Bytes := str "urn:ietf:params:oauth:grant-type:device_code"

variable (svc : DeviceService)

def DeviceService.codeHash (label code : Bytes) : Bytes :=
  let sub := hmac256 svc.encryptionKey (str "theauth/device-authorization/v1")
  hmac256 sub (label ++ [0] ++ code)

def normalizeUserCode [RuneLib] (input alphabet : Bytes) : Bytes :=
  ((RuneLib.upperRunes input).filter (RuneLib.containsRune alphabet)).flatMap RuneLib.encodeRune

def formatUserCode (code : Bytes) : Bytes :=
  if code.length < 4 then code
  else code.take (code.length / 2) ++ str "-" ++ code.drop (code.length / 2)

structure DeviceAuthRequest where
  scope : List Bytes
  resource : Bytes

structure DeviceAuthResponse where
  (deviceCode userCode verificationURI verificationURIComplete : Bytes)
  (expiresIn interval : Int)

/-- What a start draws and reads. -/
structure DeviceStartAnswers where
  now : Time
  client : Except OAuthError OAuthClient
  deviceCode : Bytes
  id : ULID
  userCodes : List Bytes

def deviceMaxInsertTry : Nat := 5

def DeviceService.deviceResource (id : Bytes) : Option ProtectedResource :=
  if id = [] then
    match svc.resources.resources with
    | [r] => some r
    | _ => none
  else svc.resources.resourceByIdentifier id

def DeviceService.deviceVerificationURI (cfg : DeviceConfig) : Bytes :=
  if cfg.verificationURI ≠ [] then cfg.verificationURI else svc.issuer ++ str "/oauth/device"

def sepFor (u : Bytes) : Bytes := if containsText u (str "?") then str "&" else str "?"

section

variable (svc : DeviceService)

def insertDevice (now : Time) (row : DeviceAuthorization) :
    List Bytes → GrantStore → Option Bytes × GrantStore
  | [], s => (none, s)
  | userCode :: rest, s =>
    match s.insertDeviceAuthorization
        { row with userCodeHash := svc.codeHash (str "user") userCode } now with
    | (true, next) => (some userCode, next)
    | (false, next) => insertDevice now row rest next

def checkDeviceStart (req : DeviceAuthRequest) (a : DeviceStartAnswers) :
    Except DeviceError (OAuthClient × List Bytes × ProtectedResource) := do
  let client ← a.client.mapError .oauth
  refuseIf (client.grantTypes.contains grantTypeDeviceCode = false) .unsupportedGrantType
  let resource ← orRefuse (svc.deviceResource req.resource) (.oauth .invalidResource)
  let scope ← (validateScopeAgainstResource req.scope resource).mapError
    fun _ => .oauth .invalidScope
  return (client, scope, resource)

def deviceRow (cfg : DeviceConfig) (a : DeviceStartAnswers) (client : OAuthClient)
    (scope : List Bytes) (resource : ProtectedResource) : DeviceAuthorization where
  id := a.id
  deviceCodeHash := svc.codeHash (str "device") a.deviceCode
  userCodeHash := []
  clientID := client.clientID
  scope
  resource := resource.identifier
  intervalSeconds := cfg.interval.tdiv 1000000000
  createdAt := a.now
  expiresAt := a.now + cfg.expiresIn

variable (s : GrantStore)

def startDeviceAuthorization (req : DeviceAuthRequest) (a : DeviceStartAnswers) :
    Except DeviceError DeviceAuthResponse × GrantStore :=
  match svc.config with
  | none => (.error .disabled, s)
  | some cfg =>
    match checkDeviceStart svc req a with
    | .error e => (.error e, s)
    | .ok (client, scope, resource) =>
      match insertDevice svc a.now (deviceRow svc cfg a client scope resource)
          (a.userCodes.take deviceMaxInsertTry) s with
      | (none, next) => (.error .noUserCode, next)
      | (some userCode, next) =>
        let display := formatUserCode userCode
        let base := svc.deviceVerificationURI cfg
        (.ok {
          deviceCode := a.deviceCode
          userCode := display
          verificationURI := base
          verificationURIComplete := base ++ sepFor base ++ str "user_code=" ++ queryEscape display
          expiresIn := cfg.expiresIn.tdiv 1000000000
          interval := cfg.interval.tdiv 1000000000 }, next)

/-! ## Decisions -/

structure DeviceDecideAnswers where
  now : Time
  attemptAllowed : Bytes → Option Bool
  resolveClient : Bytes → Option OAuthClient := fun _ => none

def attemptAllowed (a : DeviceDecideAnswers) (subject : Bytes) : Except DeviceError Unit :=
  match a.attemptAllowed subject with
  | none => .error .limiter
  | some false => .error .tooManyAttempts
  | some true => .ok ()

def lookupPending [RuneLib] (cfg : DeviceConfig) (s : GrantStore) (userCode : Bytes) (now : Time) :
    Except DeviceError DeviceAuthorization :=
  let norm := normalizeUserCode userCode cfg.userCodeAlphabet
  if norm.length ≠ cfg.userCodeLength then .error .userCodeInvalid
  else match s.deviceAuthorizationByUserCodeHash (svc.codeHash (str "user") norm) with
  | none => .error .userCodeInvalid
  | some row =>
    if row.status ≠ .pending ∨ row.expiresAt ≤ now then .error .userCodeInvalid else .ok row

structure DevicePending where
  (clientID clientName : Bytes)
  scope : List Bytes
  expiresAt : Time

def lookupDeviceUserCode [RuneLib] (s : GrantStore) (a : DeviceDecideAnswers)
    (subject userCode : Bytes) : Except DeviceError DevicePending := do
  let cfg ← orRefuse svc.config .disabled
  attemptAllowed a subject
  let row ← lookupPending svc cfg s userCode a.now
  let name := (a.resolveClient row.clientID).elim [] OAuthClient.clientName
  return ⟨row.clientID, if name = [] then row.clientID else name, row.scope, row.expiresAt⟩

def checkDecision [RuneLib] (s : GrantStore) (a : DeviceDecideAnswers) (subject userCode : Bytes) :
    Except DeviceError DeviceAuthorization := do
  let cfg ← orRefuse svc.config .disabled
  attemptAllowed a subject
  lookupPending svc cfg s userCode a.now

def decideDeviceUserCode [RuneLib] (s : GrantStore) (a : DeviceDecideAnswers)
    (subject userCode : Bytes) (userID : ULID) (approve : Bool) :
    Except DeviceError Unit × GrantStore :=
  match checkDecision svc s a subject userCode with
  | .error e => (.error e, s)
  | .ok row =>
    match s.decideDeviceAuthorization row.id (if approve then .approved else .denied) userID
        a.now with
    | (false, next) => (.error .userCodeInvalid, next)
    | (true, next) => (.ok (), next)

inductive DevicePage where
  | signIn | enter
  | confirm (userCode : Bytes) (pending : DevicePending)
  | done (approved : Bool)
  | error (e : DeviceError)

structure DeviceRequest where
  (userCode action : Bytes)

def deviceSubject [UlidText] (user : User) : Bytes := str "user:" ++ UlidText.string user.id

def lookupAndRender [RuneLib] (s : GrantStore) (a : DeviceDecideAnswers)
    (subject userCode : Bytes) : DevicePage :=
  match lookupDeviceUserCode svc s a subject userCode with
  | .error e => .error e
  | .ok pending => .confirm userCode pending

def handleDevicePage [RuneLib] [UlidText] (s : GrantStore) (a : DeviceDecideAnswers)
    (user : Option User) (userCode : Bytes) : DevicePage :=
  match user with
  | none => .signIn
  | some user =>
    if userCode = [] then .enter else lookupAndRender svc s a (deviceSubject user) userCode

def recordDecision [RuneLib] [UlidText] (s : GrantStore) (a : DeviceDecideAnswers) (user : User)
    (userCode : Bytes) (approve : Bool) : DevicePage × GrantStore :=
  match decideDeviceUserCode svc s a (deviceSubject user) userCode user.id approve with
  | (.error e, next) => (.error e, next)
  | (.ok _, next) => (.done approve, next)

def handleDeviceDecision [RuneLib] [UlidText] (s : GrantStore) (a : DeviceDecideAnswers)
    (user : Option User) (body : Option DeviceRequest) : DevicePage × GrantStore :=
  match user, body with
  | none, _ => (.signIn, s)
  | some _, none => (.error .userCodeInvalid, s)
  | some user, some req =>
    if req.userCode = [] then (.error .userCodeInvalid, s)
    else if req.action = [] ∨ req.action = str "lookup" then
      (lookupAndRender svc s a (deviceSubject user) req.userCode, s)
    else if req.action = str "approve" then recordDecision svc s a user req.userCode true
    else if req.action = str "deny" then recordDecision svc s a user req.userCode false
    else (.error .userCodeInvalid, s)

/-! ## Polls -/

/-- What a device gets. -/
structure DeviceGrant where
  clientID : Bytes
  userID : ULID
  scope : List Bytes
  (resource dpopJKT : Bytes)
  deriving DecidableEq

structure DevicePollAnswers where
  now : Time
  client : Except OAuthError OAuthClient
  jkt : Except OAuthError Bytes := .ok []

def deviceSlowDownStep : Int := 5

def findPolled (a : DevicePollAnswers) (deviceCode : Bytes) :
    Except DeviceError DeviceAuthorization := do
  refuseIf (svc.config.isNone = true) .unsupportedGrantType
  let client ← a.client.mapError .oauth
  refuseIf (deviceCode = []) (.oauth .invalidRequest)
  let row ← orRefuse
    (s.deviceAuthorizationByDeviceCodeHash (svc.codeHash (str "device") deviceCode))
    (.oauth .invalidGrant)
  refuseIf (row.clientID ≠ client.clientID) (.oauth .invalidGrant)
  refuseIf (row.expiresAt ≤ a.now) .expiredToken
  return row

variable (row : DeviceAuthorization)

def tooFast (now : Time) : Bool :=
  row.lastPollAt.any fun last => now - last < row.intervalSeconds * 1000000000

def approver : Except DeviceError ULID :=
  match row.status with
  | .pending => .error .authorizationPending
  | .denied => .error .accessDenied
  | .consumed => .error (.oauth .invalidGrant)
  | .approved => orRefuse row.userID (.oauth .invalidGrant)

def redeemDevice (a : DevicePollAnswers) (row : DeviceAuthorization) :
    Except DeviceError DeviceGrant × GrantStore :=
  match approver row, a.jkt with
  | .error e, _ => (.error e, s)
  | .ok _, .error e => (.error (.oauth e), s)
  | .ok userID, .ok jkt =>
    match s.consumeDeviceAuthorization row.id a.now with
    | (false, next) => (.error (.oauth .invalidGrant), next)
    | (true, next) => (.ok ⟨row.clientID, userID, row.scope, row.resource, jkt⟩, next)

def pollDeviceToken (a : DevicePollAnswers) (deviceCode : Bytes) :
    Except DeviceError DeviceGrant × GrantStore :=
  match findPolled svc s a deviceCode with
  | .error e => (.error e, s)
  | .ok row =>
    let interval := row.intervalSeconds + if tooFast row a.now then deviceSlowDownStep else 0
    match s.recordDeviceAuthorizationPoll row.id a.now interval with
    | none => (.error .storageNotFound, s)
    | some next =>
      if tooFast row a.now then (.error .slowDown, next) else redeemDevice next a row

/-! ## Frames -/

section

variable {s : GrantStore} {userID : ULID} {row : DeviceAuthorization}

theorem insertDevice_nothingFor {now : Time}
    (undecided : row.userID = none) (userCodes : List Bytes) :
    NothingFor userID s (insertDevice svc now row userCodes s).2 := by
  induction userCodes generalizing s with
  | nil => exact .refl _ _
  | cons userCode rest ih =>
    have inserted : NothingFor userID s (s.insertDeviceAuthorization
        { row with userCodeHash := svc.codeHash (str "user") userCode } now).2 :=
      .insertDeviceAuthorization undecided
    unfold insertDevice
    split
    next done => rwa [done] at inserted
    rename_i done
    rw [done] at inserted
    exact inserted.trans ih

theorem startDeviceAuthorization_nothingFor {req : DeviceAuthRequest} {a : DeviceStartAnswers} :
    NothingFor userID s (startDeviceAuthorization svc s req a).2 := by
  unfold startDeviceAuthorization
  split
  · exact .refl _ _
  rename_i cfg _
  split
  · exact .refl _ _
  rename_i client scope resource _
  have inserted : NothingFor userID s
      (insertDevice svc a.now (deviceRow svc cfg a client scope resource)
        (a.userCodes.take deviceMaxInsertTry) s).2 :=
    insertDevice_nothingFor svc rfl _
  split
  all_goals
    next done => rwa [done] at inserted

variable {a : DeviceDecideAnswers}

theorem decideDeviceUserCode_nothingFor [RuneLib]
    {subject userCode : Bytes} {decider : ULID} {approve : Bool} (other : decider ≠ userID) :
    NothingFor userID s (decideDeviceUserCode svc s a subject userCode decider approve).2 := by
  unfold decideDeviceUserCode
  split
  · exact .refl _ _
  rename_i row _
  have decided : NothingFor userID s (s.decideDeviceAuthorization row.id
      (if approve then .approved else .denied) decider a.now).2 :=
    .decideDeviceAuthorization other
  split
  all_goals
    next done => rwa [done] at decided

theorem recordDecision_nothingFor [RuneLib] [UlidText] {user : User}
    {userCode : Bytes} {approve : Bool} (other : user.id ≠ userID) :
    NothingFor userID s (recordDecision svc s a user userCode approve).2 := by
  have decided : NothingFor userID s
      (decideDeviceUserCode svc s a (deviceSubject user) userCode user.id approve).2 :=
    decideDeviceUserCode_nothingFor svc other
  unfold recordDecision
  split
  all_goals
    next done => rwa [done] at decided

theorem handleDeviceDecision_nothingFor [RuneLib] [UlidText]
    {user : Option User} {body : Option DeviceRequest} (other : ∀ u ∈ user, u.id ≠ userID) :
    NothingFor userID s (handleDeviceDecision svc s a user body).2 := by
  unfold handleDeviceDecision
  split
  · exact .refl _ _
  · exact .refl _ _
  rename_i user req
  have different : user.id ≠ userID := other user rfl
  split_ifs
  · exact .refl _ _
  · exact .refl _ _
  · exact recordDecision_nothingFor svc different
  · exact recordDecision_nothingFor svc different
  · exact .refl _ _

theorem redeemDevice_nothingFor {a : DevicePollAnswers} :
    NothingFor userID s (redeemDevice s a row).2 := by
  unfold redeemDevice
  split
  · exact .refl _ _
  · exact .refl _ _
  have consumed : NothingFor userID s (s.consumeDeviceAuthorization row.id a.now).2 :=
    .consumeDeviceAuthorization
  split
  all_goals
    next done => rwa [done] at consumed

theorem pollDeviceToken_nothingFor {a : DevicePollAnswers} {deviceCode : Bytes} :
    NothingFor userID s (pollDeviceToken svc s a deviceCode).2 := by
  unfold pollDeviceToken
  split
  · exact .refl _ _
  dsimp only
  split
  · exact .refl _ _
  rename_i polled
  have recorded : NothingFor userID s _ := .recordDeviceAuthorizationPoll polled
  split
  · exact recorded
  · exact recorded.trans redeemDevice_nothingFor

end

end

end TheAuth.Server
