import TheAuth.Go.Map
import TheAuth.Library.Result
import TheAuth.Server.Model

/-!
# API tokens of the device grant

A device asks for abilities, a user approves some of those that they hold, and the device redeems
its code for an API token. A code is claimed before the token is made, and the name, the abilities
and the lifetime of the token are checked only afterwards.
-/

set_option autoImplicit false

namespace TheAuth.ApiTokens

open Go Server Library.Result List GoMap

def abilityRoot : Bytes := str "root"

inductive AbilityFault where
  | empty | rootCombined
  | duplicate (name : Bytes)
  | malformed (name : Bytes)
  | unknown (name : Bytes)
  | notRequested (name : Bytes)
  deriving DecidableEq

inductive TokenError where
  | abilityInvalid (fault : AbilityFault)
  | abilityNotHeld | ttlInvalid | badName
  | badInput (message : Bytes)
  | tokenInvalid | pending | slowDown | expired | denied | deviceInvalid | attemptsExceeded
  | failure (message : Bytes)
  deriving DecidableEq

def holdsAbility (held : List Bytes) (need : Bytes) : Bool :=
  held.contains abilityRoot || held.contains need

def clampAbilities (requested held : List Bytes) : List Bytes :=
  requested.filter fun r =>
    if r = abilityRoot then held.contains abilityRoot else holdsAbility held r

/-- `abilityNameRE`. -/
def isAbilityName (name : Bytes) : Bool :=
  let alnum : UInt8 → Bool := fun c => (0x61 ≤ c && c ≤ 0x7A) || (0x30 ≤ c && c ≤ 0x39)
  match name with
  | [] => false
  | c :: rest => alnum c && rest.length ≤ 63 && rest.all fun c => alnum c || (str ":_.-").contains c

structure DeviceConfig where
  (codeTTL interval tokenTTL : Int)
  defaultAbilities : List Bytes
  deriving DecidableEq

structure Config where
  tokenPrefix : Bytes
  acceptUnprefixed : Bool := false
  abilities : List Bytes
  (defaultTTL maxTTL agentTTL agentMaxTTL : Int)
  device : DeviceConfig
  deriving DecidableEq

namespace Config

def scan (cfg : Config) (seen : List Bytes) : List Bytes → Except TokenError Unit
  | [] => .ok ()
  | name :: rest => do
    refuseIf (name ∈ seen) (.abilityInvalid (.duplicate name))
    refuseIf (name ≠ abilityRoot ∧ isAbilityName name = false) (.abilityInvalid (.malformed name))
    refuseIf (name ≠ abilityRoot ∧ cfg.abilities ≠ [] ∧ name ∉ cfg.abilities)
      (.abilityInvalid (.unknown name))
    cfg.scan (name :: seen) rest

def validateAbilities (cfg : Config) (abilities : List Bytes) (allowEmpty : Bool) :
    Except TokenError Unit := do
  if abilities = [] then refuseIf (allowEmpty = false) (.abilityInvalid .empty)
  else
    refuseIf (abilityRoot ∈ abilities ∧ 1 < abilities.length) (.abilityInvalid .rootCombined)
    cfg.scan [] abilities

def orDefault (d default : Int) : Int := if d ≤ 0 then default else d

def day : Int := 1440 * Time.nsPerMinute

/-- `New` with the device grant enabled. -/
def new (cfg : Config) : Except TokenError Config := do
  cfg.abilities.forM fun name =>
    refuseIf (name = abilityRoot ∨ isAbilityName name = false) (.abilityInvalid (.malformed name))
  let device : DeviceConfig :=
    { codeTTL := orDefault cfg.device.codeTTL (10 * Time.nsPerMinute)
      interval := orDefault cfg.device.interval 5000000000
      tokenTTL := orDefault cfg.device.tokenTTL (30 * day)
      defaultAbilities := cfg.device.defaultAbilities }
  cfg.validateAbilities device.defaultAbilities true
  return { cfg with
    tokenPrefix := if cfg.tokenPrefix = [] then str "tk" else cfg.tokenPrefix
    defaultTTL := orDefault cfg.defaultTTL (90 * day)
    maxTTL := orDefault cfg.maxTTL (365 * day)
    agentTTL := orDefault cfg.agentTTL (60 * Time.nsPerMinute)
    agentMaxTTL := orDefault cfg.agentMaxTTL day
    device }

end Config

/-! ## Tokens -/

inductive OwnerKind where
  | user | serviceAccount | other
  deriving DecidableEq

/-- `unset` is the empty text. -/
inductive TokenKind where
  | unset | personal | agent | other

/-- A stored token. -/
structure APIToken where
  (id ownerID : ULID)
  ownerKind : OwnerKind
  name : Bytes
  abilities : List Bytes
  (tokenHash agentName : Bytes)
  (delegatedBy agentID : Option ULID)
  expiresAt : Option Time
  (lastUsedAt revokedAt : Option Time := none)

def APIToken.usable (t : APIToken) (now : Time) : Bool :=
  t.revokedAt.isNone && t.expiresAt.all (now < ·)

structure MintInput where
  ownerID : ULID
  ownerKind : OwnerKind
  name : Bytes
  abilities : List Bytes
  ttl : Int
  kind : TokenKind := .unset
  agentName : Bytes := []
  (delegatedBy agentID : Option ULID := none)

structure MintAnswers where
  now : Time
  secret : Bytes
  id : ULID

namespace Config

/-- The limits of the kind, and the fields of an agent token. -/
def kindOf [StdLib] (cfg : Config) (input : MintInput) :
    Except TokenError (Int × Int × Bytes × Option ULID × Option ULID) :=
  match input.kind with
  | .unset | .personal =>
    if input.agentName ≠ [] ∨ input.delegatedBy.isSome ∨ input.agentID.isSome then
      .error (.badInput (str "agent_name, delegated_by and agent_id apply only to agent tokens"))
    else .ok (cfg.maxTTL, cfg.defaultTTL, [], none, none)
  | .agent => do
    refuseIf (input.ownerKind ≠ .user) (.badInput (str "agent tokens must be owned by a user"))
    let agentName := StdLib.trimSpace input.agentName
    refuseIf (agentName = [] ∨ 120 < agentName.length)
      (.badInput (str "agent name must be 1 to 120 characters"))
    refuseIf (∃ by_ ∈ input.delegatedBy, by_ ≠ input.ownerID)
      (.badInput (str "agent token delegated_by must be its owner"))
    return (cfg.agentMaxTTL, cfg.agentTTL, agentName, some input.ownerID, input.agentID)
  | .other => .error (.badInput (str "unknown token kind"))

def mint [StdLib] (cfg : Config) (input : MintInput) (a : MintAnswers) :
    Except TokenError (Bytes × APIToken) := do
  refuseIf (input.ownerKind = .other) (.badInput (str "unknown owner kind"))
  cfg.validateAbilities input.abilities false
  let (maxTTL, defTTL, agentName, delegatedBy, agentID) ← cfg.kindOf input
  let ttl := if input.ttl = 0 then defTTL else input.ttl
  refuseIf (ttl < 0 ∨ maxTTL < ttl) .ttlInvalid
  let name := StdLib.trimSpace input.name
  refuseIf (name = [] ∨ 120 < name.length) .badName
  let raw := cfg.tokenPrefix ++ str "_" ++ a.secret
  return (raw, {
    id := a.id, ownerID := input.ownerID, ownerKind := input.ownerKind, name
    abilities := input.abilities, tokenHash := hashToken raw, agentName, delegatedBy, agentID
    expiresAt := some (a.now + ttl) })

end Config

/-- Whom a token stands for. -/
structure Principal where
  (userID tokenID : ULID)
  abilities : List Bytes

structure AuthAnswers where
  now : Time
  active : Except TokenError Bool
  held : Except TokenError (List Bytes)

def APIToken.effective (t : APIToken) (held : Except TokenError (List Bytes)) :
    Except TokenError (List Bytes) :=
  if t.ownerKind = .user then clampAbilities t.abilities <$> held else .ok t.abilities

/-- `TouchAPITokenLastUsed` is an operation of its own. -/
def Config.authenticate (cfg : Config) (tokens : GoMap ULID APIToken) (raw : Bytes)
    (a : AuthAnswers) : Except TokenError Principal := do
  refuseIf (raw = [] ∨ cfg.acceptUnprefixed = false ∧
    (cfg.tokenPrefix ++ str "_").isPrefixOf raw = false) .tokenInvalid
  let (_, tok) ← orRefuse (tokens.find? fun t => t.tokenHash == hashToken raw) .tokenInvalid
  refuseIf (tok.usable a.now = false) .tokenInvalid
  let active ← a.active
  refuseIf (active = false) .tokenInvalid
  let abilities ← tok.effective a.held
  return ⟨tok.ownerID, tok.id, abilities⟩

/-! ## Device codes -/

inductive DeviceStatus where
  | pending | approved | denied | redeemed
  deriving DecidableEq

/-- A device code and what became of it. -/
structure DeviceCode where
  id : ULID := 0
  deviceCodeHash : Bytes
  userCode : Bytes := []
  status : DeviceStatus := .pending
  clientName : Bytes
  requestedAbilities : List Bytes
  approvedAbilities : List Bytes := []
  approverID : Option ULID := none
  intervalSeconds : Int
  lastPolledAt : Option Time := none
  (createdAt expiresAt : Time)
  deriving DecidableEq

/-- What a user decides on a code. -/
structure DeviceDecision where
  approve : Bool
  approverID : ULID
  abilities : List Bytes
  deriving DecidableEq

/-- Tokens and device codes. -/
structure Store where
  devices : GoMap ULID DeviceCode
  tokens : GoMap ULID APIToken

namespace Store

variable (s : Store)

def setDevice (d : DeviceCode) (id : ULID) : Store :=
  { s with devices := s.devices.insert id d }

variable (hash : Bytes)

def byHash : Option (ULID × DeviceCode) := s.devices.find? fun d => d.deviceCodeHash == hash

def byUserCode (userCode : Bytes) : Option (ULID × DeviceCode) :=
  s.devices.find? fun d => d.userCode == userCode

/-- `none` is `ErrDeviceUserCodeTaken`. -/
def insertDeviceCode (d : DeviceCode) : Option Store :=
  if (s.byUserCode d.userCode).isSome then none else some (s.setDevice d d.id)

def decideDeviceCode (userCode : Bytes) (dec : DeviceDecision) (now : Time) :
    Option (DeviceCode × Store) :=
  match s.byUserCode userCode with
  | none => none
  | some (id, d) =>
    if d.status ≠ .pending ∨ ¬ now < d.expiresAt then none
    else
      let decided : DeviceCode :=
        if dec.approve then
          { d with
            approverID := some dec.approverID, status := .approved
            approvedAbilities := dec.abilities }
        else { d with approverID := some dec.approverID, status := .denied }
      some (decided, s.setDevice decided id)

def claimDeviceCode (now : Time) : Option (DeviceCode × Store) :=
  match s.byHash hash with
  | none => none
  | some (id, d) =>
    if d.status ≠ .approved ∨ ¬ now < d.expiresAt then none
    else some ({ d with status := .redeemed }, s.setDevice { d with status := .redeemed } id)

def recordDevicePoll (time : Time) (interval : Int) : Option Store :=
  (s.byHash hash).map fun (id, d) =>
    s.setDevice { d with lastPolledAt := some time, intervalSeconds := interval } id

/-- Newest first, without the hashes. -/
def listPending (now : Time) : List DeviceCode :=
  let pending := s.devices.values.filter fun d => d.status = .pending ∧ now < d.expiresAt
  ((pending.mergeSort fun d e => e.createdAt ≤ d.createdAt).take 500).map
    fun d => { d with deviceCodeHash := [] }

end Store

structure StartInput where
  clientName : Bytes
  abilities : List Bytes

/-- The record of `StartDeviceAuth`, to which every try adds an identifier and a user code. -/
def Config.startRecord [StdLib] (cfg : Config) (input : StartInput) (deviceCode : Bytes)
    (now : Time) : Except TokenError DeviceCode := do
  let abilities := if input.abilities = [] then cfg.device.defaultAbilities else input.abilities
  cfg.validateAbilities abilities false
  return {
    deviceCodeHash := hashToken deviceCode
    clientName := (StdLib.trimSpace input.clientName).take 120
    requestedAbilities := abilities
    intervalSeconds := cfg.device.interval / 1000000000
    createdAt := now, expiresAt := now + cfg.device.codeTTL }

/-- By the user code, unless the approver is blocked, or from the list. -/
inductive Selector where
  | userCode (blocked : Bool) (code : Bytes)
  | id (id : ULID)

def Store.select (s : Store) (now : Time) : Selector → Except TokenError DeviceCode
  | .userCode blocked code => do
    refuseIf (blocked = true) .attemptsExceeded
    let (_, d) ← orRefuse (s.byUserCode code) .deviceInvalid
    refuseIf (¬ now < d.expiresAt) .expired
    refuseIf (d.status ≠ .pending) .deviceInvalid
    return d
  | .id id => orRefuse ((s.listPending now).find? (·.id == id)) .deviceInvalid

/-- What the approver asks for, with what `UserAbilities` answers. -/
structure Verdict where
  approverID : ULID
  approve : Bool
  abilities : List Bytes := []
  held : Except TokenError (List Bytes)

/-- `decideRecord` up to the store, with the abilities that the approver holds. -/
def Verdict.decide (v : Verdict) (d : DeviceCode) :
    Except TokenError (DeviceDecision × List Bytes) :=
  if v.approve = false then .ok (⟨false, v.approverID, []⟩, [])
  else
    match v.abilities.find? fun ab => !d.requestedAbilities.contains ab with
    | some ab => .error (.abilityInvalid (.notRequested ab))
    | none => do
      let chosen := if v.abilities = [] then d.requestedAbilities else v.abilities
      let held ← v.held
      refuseIf (abilityRoot ∈ chosen ∧ abilityRoot ∉ held) .abilityNotHeld
      let abilities := clampAbilities chosen held
      refuseIf (abilities = []) .abilityNotHeld
      return (⟨true, v.approverID, abilities⟩, held)

structure RedeemAnswers where
  now : Time
  ownerActive : Except TokenError Bool
  mint : MintAnswers

/-- A call of `RedeemDeviceCode` before its next operation of the store. -/
inductive Redemption where
  | ready
  | slowing (now : Time) (interval : Int)
  | polling (d : DeviceCode) (now : Time)
  | claiming (now : Time)
  | minting (raw : Bytes) (tok : APIToken)
  | issued (raw : Bytes) (tok : APIToken)
  | failed (e : TokenError)

def pollFailed : TokenError := .failure (str "theauth: record device poll")

def tokenName (clientName : Bytes) : Bytes :=
  if clientName ≠ [] then str "device: " ++ clientName else str "device login"

def DeviceCode.tooSoon (d : DeviceCode) (now : Time) : Bool :=
  d.lastPolledAt.any fun last => now - last < d.intervalSeconds * 1000000000

section

variable [StdLib] (cfg : Config)

/-- `RedeemDeviceCode` between the claim and the insertion of the token. -/
def mintClaimed (claimed : DeviceCode) (a : RedeemAnswers) :
    Except TokenError (Bytes × APIToken) := do
  let approver ← orRefuse claimed.approverID .deviceInvalid
  let active ← a.ownerActive
  refuseIf (active = false) .denied
  cfg.mint
    { ownerID := approver, ownerKind := .user, name := tokenName claimed.clientName
      abilities := claimed.approvedAbilities, ttl := cfg.device.tokenTTL } a.mint

/-- An operation of the store with the computation up to the next one. -/
def redeem (hash : Bytes) (a : RedeemAnswers) : Redemption × Store → Redemption × Store
  | (.ready, s) =>
    match s.byHash hash with
    | none => (.failed .deviceInvalid, s)
    | some (_, d) =>
      if ¬ a.now < d.expiresAt then (.failed .expired, s)
      else if d.tooSoon a.now then (.slowing a.now (d.intervalSeconds + 5), s)
      else (.polling d a.now, s)
  | (.slowing now interval, s) =>
    match s.recordDevicePoll hash now interval with
    | none => (.failed pollFailed, s)
    | some next => (.failed .slowDown, next)
  | (.polling d now, s) =>
    match s.recordDevicePoll hash now d.intervalSeconds with
    | none => (.failed pollFailed, s)
    | some next =>
      match d.status with
      | .pending => (.failed .pending, next)
      | .denied => (.failed .denied, next)
      | .redeemed => (.failed .deviceInvalid, next)
      | .approved => (.claiming now, next)
  | (.claiming now, s) =>
    match s.claimDeviceCode hash now with
    | none => (.failed .deviceInvalid, s)
    | some (claimed, next) =>
      match mintClaimed cfg claimed a with
      | .error e => (.failed e, next)
      | .ok (raw, tok) => (.minting raw tok, next)
  | (.minting raw tok, s) => (.issued raw tok, { s with tokens := s.tokens.insert tok.id tok })
  | (.issued raw tok, s) => (.issued raw tok, s)
  | (.failed e, s) => (.failed e, s)

/-- A call that nothing comes between. -/
def redeemDeviceCode (code : Bytes) (a : RedeemAnswers) (s : Store) : Redemption × Store :=
  let next := redeem cfg (hashToken code) a
  next (next (next (next (.ready, s))))

end

/-! ## Redemption -/

@[simp]
theorem mem_clampAbilities {requested held : List Bytes} {ability : Bytes} :
    ability ∈ clampAbilities requested held ↔
      ability ∈ requested ∧ holdsAbility held ability = true := by
  unfold clampAbilities holdsAbility
  by_cases root : ability = abilityRoot <;> simp [root]

namespace Config

/-- The name is that of an ability that the configuration has. -/
def Knows (cfg : Config) (name : Bytes) : Prop :=
  name ≠ abilityRoot → isAbilityName name = true ∧ (cfg.abilities = [] ∨ name ∈ cfg.abilities)

variable {cfg : Config} {abilities : List Bytes}

theorem scan_eq_ok {seen : List Bytes} :
    cfg.scan seen abilities = .ok () ↔
      abilities.Nodup ∧ ∀ name ∈ abilities, name ∉ seen ∧ cfg.Knows name := by
  induction abilities generalizing seen with
  | nil => simp [scan]
  | cons _ _ ih =>
    unfold scan Knows
    rw [refuseIf_bind_eq_ok, refuseIf_bind_eq_ok, refuseIf_bind_eq_ok, ih]
    simp only [Knows]
    grind

theorem validateAbilities_eq_ok :
    cfg.validateAbilities abilities false = .ok () ↔
      abilities ≠ [] ∧ (abilityRoot ∈ abilities → abilities.length ≤ 1) ∧ abilities.Nodup ∧
        ∀ name ∈ abilities, cfg.Knows name := by
  unfold validateAbilities
  by_cases none_ : abilities = []
  · simp [none_, refuseIf]
  · rw [if_neg none_, refuseIf_bind_eq_ok, scan_eq_ok]
    simp [none_]

theorem tokenTTL_pos_of_new {given : Config} (valid : given.new = .ok cfg) :
    0 < cfg.device.tokenTTL := by
  obtain ⟨-, -, valid⟩ := of_bind valid
  obtain ⟨-, -, valid⟩ := of_bind valid
  cases valid
  dsimp only [orDefault]
  split
  · decide
  · omega

end Config

section

variable {cfg : Config} {v : Verdict} {d : DeviceCode} {dec : DeviceDecision} {held : List Bytes}

theorem decide_eq_ok (done : v.decide d = .ok (dec, held)) (approve : v.approve = true) :
    v.held = .ok held ∧ dec.approverID = v.approverID ∧ dec.abilities ≠ [] ∧
      (∀ ab ∈ v.abilities, ab ∈ d.requestedAbilities) ∧ dec.abilities =
        clampAbilities (if v.abilities = [] then d.requestedAbilities else v.abilities) held := by
  unfold Verdict.decide at done
  rw [if_neg (by simp [approve])] at done
  split at done
  · cases done
  rename_i requested
  obtain ⟨_, answered, done⟩ := of_bind done
  obtain ⟨-, done⟩ := of_refuseIf done
  obtain ⟨some_, done⟩ := of_refuseIf done
  cases done
  refine ⟨answered, rfl, some_, fun ab member => ?_, rfl⟩
  simpa using find?_eq_none.mp requested ab member

theorem requested_of_startRecord [StdLib] {input : StartInput} {deviceCode : Bytes} {now : Time}
    (started : cfg.startRecord input deviceCode now = .ok d) :
    cfg.validateAbilities d.requestedAbilities false = .ok () := by
  obtain ⟨⟨⟩, valid, started⟩ := of_bind started
  cases started
  exact valid

/-- The abilities that were approved pass the check of `Mint` if none is there twice. -/
theorem validateAbilities_of_decide
    (requested : cfg.validateAbilities d.requestedAbilities false = .ok ())
    (done : v.decide d = .ok (dec, held)) (approve : v.approve = true) :
    cfg.validateAbilities dec.abilities false = .ok () ↔
      (v.abilities.filter (holdsAbility held)).Nodup := by
  obtain ⟨-, alone, distinct, known⟩ := Config.validateAbilities_eq_ok.mp requested
  obtain ⟨-, -, some_, inside, same⟩ := decide_eq_ok done approve
  have subset : dec.abilities ⊆ d.requestedAbilities := by
    intro ab member
    rw [same, mem_clampAbilities] at member
    split at member
    · exact member.1
    · exact inside ab member.1
  have nodup : dec.abilities.Nodup ↔ (v.abilities.filter (holdsAbility held)).Nodup := by
    have keeps : ∀ chosen, clampAbilities chosen held = chosen.filter (holdsAbility held) := by
      intro _
      refine filter_congr fun ab _ => ?_
      split <;> simp_all [holdsAbility]
    rw [same, keeps]
    split
    next none_ => simp [none_, distinct.filter]
    · rfl
  rw [Config.validateAbilities_eq_ok, ← nodup]
  refine ⟨fun valid => valid.2.2.1, fun once => ⟨some_, fun root => ?_, once, ?_⟩⟩
  · exact Nat.le_trans (subperm_of_subset once subset).length_le (alone (subset root))
  · exact fun name member => known name (subset member)

variable [StdLib]

/-- The token of a device with this name gets a name that `Mint` accepts. -/
def GoodName (clientName : Bytes) : Prop :=
  StdLib.trimSpace (tokenName clientName) ≠ [] ∧
    (StdLib.trimSpace (tokenName clientName)).length ≤ 120

theorem exists_mintClaimed {claimed : DeviceCode} {a : RedeemAnswers} {approver : ULID}
    (lasts : 0 < cfg.device.tokenTTL) (approved : claimed.approverID = some approver)
    (active : a.ownerActive = .ok true) :
    (∃ result, mintClaimed cfg claimed a = .ok result) ↔
      cfg.validateAbilities claimed.approvedAbilities false = .ok () ∧
      cfg.device.tokenTTL ≤ cfg.maxTTL ∧ GoodName claimed.clientName := by
  have ttl : (if cfg.device.tokenTTL = 0 then cfg.defaultTTL else cfg.device.tokenTTL) =
      cfg.device.tokenTTL := if_neg (by omega)
  unfold mintClaimed
  rw [approved, active]
  constructor
  · rintro ⟨_, done⟩
    obtain ⟨_, _, done⟩ := of_bind done
    obtain ⟨_, _, done⟩ := of_bind done
    obtain ⟨-, done⟩ := of_refuseIf done
    obtain ⟨-, done⟩ := of_refuseIf done
    obtain ⟨⟨⟩, valid, done⟩ := of_bind done
    obtain ⟨_, kind, done⟩ := of_bind done
    cases kind
    obtain ⟨within, done⟩ := of_refuseIf done
    obtain ⟨named, -⟩ := of_refuseIf done
    rw [ttl] at within
    exact ⟨valid, Int.not_lt.mp fun long => within (.inr long), fun none_ => named (.inl none_),
      Nat.not_lt.mp fun long => named (.inr long)⟩
  · rintro ⟨valid, _, some_, short⟩
    refine exists_bind_eq_ok rfl (exists_bind_eq_ok rfl ?_)
    refine exists_bind_eq_ok (refuseIf_eq_ok.mpr (by decide)) ?_
    refine exists_bind_eq_ok (refuseIf_eq_ok.mpr OwnerKind.noConfusion) (exists_bind_eq_ok valid ?_)
    refine exists_bind_eq_ok rfl (exists_bind_eq_ok (refuseIf_eq_ok.mpr ?_) ?_)
    · rw [ttl]
      omega
    · refine exists_bind_eq_ok (refuseIf_eq_ok.mpr ?_) ⟨_, rfl⟩
      exact fun bad => bad.elim some_ (Nat.not_lt.mpr short)

variable {s : Store} {id : ULID}

omit [StdLib] in
theorem claimDeviceCode_eq {hash : Bytes} {now : Time} (found : s.byHash hash = some (id, d))
    (approved : d.status = .approved) (early : now < d.expiresAt) :
    s.claimDeviceCode hash now =
      some ({ d with status := .redeemed }, s.setDevice { d with status := .redeemed } id) := by
  unfold Store.claimDeviceCode
  rw [found]
  exact if_neg fun late => late.elim (· approved) (· early)

theorem exists_issued_redeemDeviceCode {code : Bytes} {a : RedeemAnswers}
    (found : s.byHash (hashToken code) = some (id, d)) (approved : d.status = .approved)
    (early : a.now < d.expiresAt) (allowed : d.tooSoon a.now = false) :
    (∃ raw tok, (redeemDeviceCode cfg code a s).1 = .issued raw tok) ↔
      ∃ result, mintClaimed cfg
        { d with status := .redeemed, lastPolledAt := some a.now } a = .ok result := by
  have first : redeem cfg (hashToken code) a (.ready, s) = (.polling d a.now, s) := by
    simp [redeem, found, early, allowed]
  have second : redeem cfg (hashToken code) a (.polling d a.now, s) =
      (.claiming a.now, s.setDevice { d with lastPolledAt := some a.now } id) := by
    simp [redeem, Store.recordDevicePoll, found, approved]
  have again : (s.setDevice { d with lastPolledAt := some a.now } id).byHash (hashToken code) =
      some (id, { d with lastPolledAt := some a.now }) :=
    find?_insert (find?_eq_some found).2
  have third := claimDeviceCode_eq again approved early
  unfold redeemDeviceCode
  dsimp only
  rw [first, second, redeem.eq_4, third]
  dsimp only
  cases mintClaimed cfg { d with status := .redeemed, lastPolledAt := some a.now } a with
  | error | ok => simp [redeem]

/-- A record of an accepted request after its approval: only the polls have changed it since. -/
def ApprovedFrom (start d : DeviceCode) (dec : DeviceDecision) : Prop :=
  d = { start with
    id := d.id, userCode := d.userCode, status := .approved
    approverID := some dec.approverID, approvedAbilities := dec.abilities
    intervalSeconds := d.intervalSeconds, lastPolledAt := d.lastPolledAt }

/-- **When an approved code yields a token**, at the first poll that is made in time. -/
theorem approved_code_redeemed_iff (given : Config) (valid : given.new = .ok cfg)
    (input : StartInput) (code : Bytes) (now : Time) (start : DeviceCode)
    (started : cfg.startRecord input code now = .ok start) (v : Verdict)
    (approve : v.approve = true) (dec : DeviceDecision) (held : List Bytes)
    (decided : v.decide start = .ok (dec, held))
    (s : Store) (id : ULID) (d : DeviceCode) (found : s.byHash (hashToken code) = some (id, d))
    (approved : ApprovedFrom start d dec) (a : RedeemAnswers) (early : a.now < d.expiresAt)
    (allowed : d.tooSoon a.now = false) (active : a.ownerActive = .ok true) :
    (∃ raw tok, (redeemDeviceCode cfg code a s).1 = .issued raw tok) ↔
      GoodName start.clientName ∧ (v.abilities.filter (holdsAbility held)).Nodup ∧
        cfg.device.tokenTTL ≤ cfg.maxTTL := by
  have status : d.status = .approved := by rw [approved]
  have owner : d.approverID = some dec.approverID := by rw [approved]
  have abilities : d.approvedAbilities = dec.abilities := by rw [approved]
  have name : d.clientName = start.clientName := by rw [approved]
  have lasts := Config.tokenTTL_pos_of_new valid
  refine (exists_issued_redeemDeviceCode found status early allowed).trans ?_
  refine (exists_mintClaimed lasts owner active).trans ?_
  rw [abilities, name,
    validateAbilities_of_decide (requested_of_startRecord started) decided approve]
  tauto

end

def oneDay : Config where
  tokenPrefix := str "tk"
  abilities := []
  defaultTTL := Config.day
  maxTTL := Config.day
  agentTTL := Config.day
  agentMaxTTL := Config.day
  device := ⟨10 * Time.nsPerMinute, 5000000000, Config.day, []⟩

def oneWeek : Config :=
  { oneDay with device := { oneDay.device with tokenTTL := 7 * Config.day } }

def firstPoll : RedeemAnswers := ⟨3, .ok true, ⟨3, str "s", 1⟩⟩

def cli : DeviceCode where
  deviceCodeHash := hashToken (str "code")
  clientName := str "cli"
  requestedAbilities := [str "read"]
  intervalSeconds := 5
  createdAt := 0
  expiresAt := 10 * Time.nsPerMinute

def cliApproved : DeviceCode :=
  { cli with
    id := 7, userCode := str "BCDF", status := .approved, approverID := some 5
    approvedAbilities := [str "read"] }

def cliStore : Store := ⟨AList.insert 7 cliApproved ∅, ∅⟩

attribute [local instance] StdLib.refusing

theorem approved_code_redeemed_iff_cli :
    ∃ raw tok, (redeemDeviceCode oneDay (str "code") firstPoll cliStore).1 = .issued raw tok := by
  have found : cliStore.byHash (hashToken (str "code")) = some (7, cliApproved) :=
    find?_insert (beq_self_eq_true (hashToken (str "code")))
  exact (approved_code_redeemed_iff oneDay (by decide +kernel) ⟨str "cli", [str "read"]⟩
    (str "code") 0 cli (by decide +kernel) ⟨5, true, [], .ok [str "read"]⟩ rfl
    ⟨true, 5, [str "read"]⟩ [str "read"] (by decide +kernel) cliStore 7 cliApproved found rfl
    firstPoll (by decide) rfl rfl).mpr ⟨⟨by decide, by decide⟩, by decide, by decide⟩

/-- The flow of a request that is approved, up to the first poll. -/
def lost [StdLib] (cfg : Config) (clientName : Bytes) (chosen : List Bytes) :
    Option (TokenError × DeviceStatus) := do
  let d ← (cfg.startRecord ⟨clientName, [str "read"]⟩ (str "code") 0).toOption
  let s ← (⟨∅, ∅⟩ : Store).insertDeviceCode { d with id := 7, userCode := str "BCDF" }
  let (dec, _) ← ((⟨5, true, chosen, .ok [str "read"]⟩ : Verdict).decide d).toOption
  let (_, s) ← s.decideDeviceCode (str "BCDF") dec 1
  match redeemDeviceCode cfg (str "code") firstPoll s with
  | (.failed e, s) => (s.devices.lookup 7).map fun d => (e, d.status)
  | _ => none

/-- The name of the device is long, an ability is chosen twice, the token would live too long: the
code is claimed, and there is no token. -/
theorem claimed_code_lost :
    oneDay.new = .ok oneDay ∧ oneWeek.new = .ok oneWeek ∧
      lost oneDay (List.replicate 113 0x61) [] = some (.badName, .redeemed) ∧
      lost oneDay (str "cli") [str "read", str "read"] =
        some (.abilityInvalid (.duplicate (str "read")), .redeemed) ∧
      lost oneWeek (str "cli") [] = some (.ttlInvalid, .redeemed) := by
  decide +kernel

end TheAuth.ApiTokens
