import Mathlib.Algebra.Group.Nat.Defs
import TheAuth.Agents.Model
import TheAuth.Library.Run
import TheAuth.Store.Backchannel

/-!
# Backchannel authentication

An action of the system is one store operation of one call together with the computation up to its
next operation. The redemption compares the stored status before it writes, a decision does not: a
stale decision can turn a denied or a redeemed request into an approved one.
-/

set_option autoImplicit false

namespace TheAuth.Server.Backchannel

open Go Store Library.Run
open Function (update)

inductive BackchannelError where
  | oauth (e : OAuthError)
  | unsupportedGrantType | disabled | authorizationPending | slowDown | accessDenied | expiredToken
  | invalidRequest | userMismatch | notFound
  | notifyFailed (text : Bytes)
  deriving DecidableEq

structure CIBAConfig where
  (defaultExpiry defaultInterval maxRequestedExpiry minPollInterval : Int)

structure BackchannelConfig where
  ciba : Option CIBAConfig
  accessTokenTTL : Int

structure BackchannelAuthRequest where
  clientID : Bytes
  (loginHint loginHintToken idTokenHint : Bytes := [])
  scope : List Bytes
  (bindingMessage clientNotificationToken : Bytes := [])
  requestedExpiry : Int := 0

structure BackchannelAuthResponse where
  authReqID : Bytes
  (expiresIn interval : Int)

structure CIBANotification where
  (authReqID userID clientID : Bytes)
  scopes : List Bytes
  bindingMessage : Bytes
  expiresAt : Time

structure BackchannelTokens where
  (accessToken tokenType : Bytes)
  expiresIn : Int
  (refreshToken scope : Bytes)
  deriving DecidableEq

structure StartAnswers where
  now : Time
  client : Except BackchannelError Unit
  authReqID : Except BackchannelError Bytes
  notify : CIBANotification → Option Bytes

variable (req : BackchannelAuthRequest)

def BackchannelAuthRequest.hintCount : ℕ :=
  ([req.loginHint, req.loginHintToken, req.idTokenHint].filter (· ≠ [])).length

def CIBAConfig.expiry (cfg : CIBAConfig) (requestedExpiry : Int) : Int :=
  if 0 < requestedExpiry then
    -- a product of durations wraps round at 64 bits
    let requested := (requestedExpiry * 1000000000).bmod (2 ^ 64)
    let expiry := if requested < cfg.defaultExpiry then requested else cfg.defaultExpiry
    if cfg.maxRequestedExpiry < expiry then cfg.maxRequestedExpiry else expiry
  else cfg.defaultExpiry

def CIBAConfig.newRequest (cfg : CIBAConfig) (req : BackchannelAuthRequest) (authReqID : Bytes)
    (now : Time) : BackchannelRequest where
  authReqID
  clientID := req.clientID
  loginHint := req.loginHint
  loginHintToken := req.loginHintToken
  idTokenHint := req.idTokenHint
  scope := req.scope
  bindingMessage := req.bindingMessage
  clientNotificationToken := req.clientNotificationToken
  status := .pending
  pollInterval := seconds cfg.defaultInterval
  expiresAt := now + cfg.expiry req.requestedExpiry
  createdAt := now

variable (row : BackchannelRequest)

def BackchannelAuthRequest.notification :
    CIBANotification where
  authReqID := row.authReqID
  userID :=
    if req.loginHint ≠ [] then req.loginHint
    else if req.loginHintToken ≠ [] then req.loginHintToken
    else req.idTokenHint
  clientID := req.clientID
  scopes := req.scope
  bindingMessage := req.bindingMessage
  expiresAt := row.expiresAt

def backchannelAuthenticate (cfg : BackchannelConfig) (s : BackchannelStore)
    (req : BackchannelAuthRequest) (a : StartAnswers) :
    Except BackchannelError BackchannelAuthResponse × BackchannelStore :=
  match cfg.ciba with
  | none => (.error .disabled, s)
  | some ciba =>
    match a.client with
    | .error e => (.error e, s)
    | .ok _ =>
      if req.hintCount ≠ 1 then (.error .invalidRequest, s)
      else if req.scope.length = 0 then (.error .invalidRequest, s)
      else match a.authReqID with
      | .error e => (.error e, s)
      | .ok authReqID =>
        let row := ciba.newRequest req authReqID a.now
        match s.insertBackchannelRequest row a.now with
        | none => (.error .notFound, s)
        | some stored =>
          match a.notify (req.notification row) with
          | some text => (.error (.notifyFailed text), stored)
          | none =>
            (.ok ⟨authReqID, seconds (ciba.expiry req.requestedExpiry),
              seconds ciba.defaultInterval⟩, stored)

theorem backchannelAuthenticate_store (cfg : BackchannelConfig) (s : BackchannelStore)
    (req : BackchannelAuthRequest) (a : StartAnswers) :
    (backchannelAuthenticate cfg s req a).2 = s ∨
      ∃ row, s.insertBackchannelRequest row a.now =
        some (backchannelAuthenticate cfg s req a).2 := by
  unfold backchannelAuthenticate
  iterate 5
    split
    · exact .inl rfl
  dsimp only
  split
  · exact .inl rfl
  rename_i inserted
  split <;> exact .inr ⟨_, inserted⟩

/-! ## Calls -/

/-- A call on one request. -/
inductive Call where
  | approve (authReqID : Bytes) (userID : ULID)
  | deny (authReqID : Bytes) (userID : ULID)
  | poll (authReqID : Bytes)

def Call.authReqID : Call → Bytes
  | .approve authReqID _ => authReqID
  | .deny authReqID _ => authReqID
  | .poll authReqID => authReqID

structure LookupAnswers where
  now : Time
  client : Except BackchannelError Bytes := .ok []
  tokens : BackchannelRequest → ULID → Except BackchannelError (Bytes × Bytes) :=
    fun _ _ => .ok ([], [])

/-- Where a call stands. -/
inductive Phase where
  | ready
  /-- The poll passed the checks; before `TouchBackchannelPoll`. `slow` when it
  came too early. -/
  | touching (now : Time) (newInterval : Int) (slow : Bool)
  | redeeming (now : Time)
  | writing (row : BackchannelRequest)
  | delivered (tokens : BackchannelTokens)
  | decided
  | refused (e : BackchannelError)
  deriving DecidableEq

/-- The requests, and where each call stands. -/
structure System where
  store : BackchannelStore
  phase : ℕ → Phase

def System.initial (store : BackchannelStore) : System := ⟨store, fun _ => .ready⟩

/-- One operation of one call. -/
inductive Action where
  | start (req : BackchannelAuthRequest) (a : StartAnswers)
  | lookup (r : ℕ) (a : LookupAnswers)
  | touch (r : ℕ)
  | redeem (r : ℕ)
  | write (r : ℕ)

section

variable (cfg : BackchannelConfig) (calls : ℕ → Call)

def CIBAConfig.tooFast (ciba : CIBAConfig) (row : BackchannelRequest) (now : Time) : Bool :=
  row.lastPollAt.any fun last => decide (now - last < ciba.minPollInterval)

def CIBAConfig.slowerInterval (ciba : CIBAConfig) (row : BackchannelRequest) : Int :=
  let newInterval := row.pollInterval * 2
  let maxSeconds := seconds ciba.maxRequestedExpiry
  if maxSeconds < newInterval then maxSeconds else newInterval

variable (store : BackchannelStore) (authReqID : Bytes)

def afterPollLookup (a : LookupAnswers) : Phase :=
  match cfg.ciba with
  | none => .refused .unsupportedGrantType
  | some ciba =>
    match a.client with
    | .error e => .refused e
    | .ok client =>
      if authReqID = [] then .refused .invalidRequest
      else match store.backchannelRequestByID authReqID with
      | none => .refused (.oauth .invalidGrant)
      | some row =>
        if row.clientID ≠ client then .refused (.oauth .invalidGrant)
        else if !decide (a.now < row.expiresAt) then .refused .expiredToken
        else if ciba.tooFast row a.now then
          .touching a.now (ciba.slowerInterval row) true
        else .touching a.now row.pollInterval false

def afterTouch (now : Time) : Phase :=
  match row.status with
  | .pending => .refused .authorizationPending
  | .denied => .refused .accessDenied
  | .consumed => .refused (.oauth .invalidGrant)
  | .approved => if row.accessToken = [] then .refused .authorizationPending else .redeeming now
  | .other _ => .refused .authorizationPending

def BackchannelConfig.tokensOf (won : BackchannelRequest) : BackchannelTokens where
  accessToken := won.accessToken
  tokenType := str "Bearer"
  expiresIn := seconds cfg.accessTokenTTL
  refreshToken := won.refreshToken
  scope := TheAuth.Agents.scopeJoin won.scope

def afterApproveLookup (userID : ULID) (a : LookupAnswers) : Phase :=
  if cfg.ciba.isNone then .refused .disabled
  else match store.backchannelRequestByID authReqID with
  | none => .refused (.oauth .invalidGrant)
  | some row =>
    if row.status ≠ .pending then .refused (.oauth .invalidGrant)
    else if !decide (a.now < row.expiresAt) then .refused .expiredToken
    else if row.userID.any (· ≠ userID) then .refused .userMismatch
    else match a.tokens row userID with
    | .error e => .refused e
    | .ok (accessToken, refreshToken) =>
      .writing { row with
        userID := some userID
        status := .approved
        accessToken
        refreshToken }

def afterDenyLookup (userID : ULID) : Phase :=
  if cfg.ciba.isNone then .refused .disabled
  else match store.backchannelRequestByID authReqID with
  | none => .refused (.oauth .invalidGrant)
  | some row =>
    if row.status ≠ .pending then .refused (.oauth .invalidGrant)
    else if row.userID.any (· ≠ userID) then .refused .userMismatch
    else .writing { row with userID := some userID, status := .denied }

def afterLookup (a : LookupAnswers) : Call → Phase
  | .approve authReqID userID => afterApproveLookup cfg store authReqID userID a
  | .deny authReqID userID => afterDenyLookup cfg store authReqID userID
  | .poll authReqID => afterPollLookup cfg store authReqID a

/-- One action. -/
def step (s : System) : Action → Option System
  | .start req a => some { s with store := (backchannelAuthenticate cfg s.store req a).2 }
  | .lookup r a =>
    match s.phase r with
    | .ready => some { s with phase := update s.phase r (afterLookup cfg s.store a (calls r)) }
    | _ => none
  | .touch r =>
    match s.phase r with
    | .touching now newInterval slow =>
      match s.store.touchBackchannelPoll (calls r).authReqID now newInterval with
      | none => some { s with phase := update s.phase r (.refused .notFound) }
      | some (row, store) =>
        some ⟨store, update s.phase r (if slow then .refused .slowDown else afterTouch row now)⟩
    | _ => none
  | .redeem r =>
    match s.phase r with
    | .redeeming now =>
      match s.store.redeemBackchannelRequest (calls r).authReqID now with
      | none => some { s with phase := update s.phase r (.refused (.oauth .invalidGrant)) }
      | some (won, store) => some ⟨store, update s.phase r (.delivered (cfg.tokensOf won))⟩
    | _ => none
  | .write r =>
    match s.phase r with
    | .writing row =>
      match s.store.updateBackchannelRequest row with
      | none => some { s with phase := update s.phase r (.refused .notFound) }
      | some store => some ⟨store, update s.phase r .decided⟩
    | _ => none

end

def Call.decision : Call → Option BackchannelStatus
  | .approve _ _ => some .approved
  | .deny _ _ => some .denied
  | .poll _ => none

/-! ## What a call may write -/

/-- Neither tokens nor success; a row it is about to write is its request with its decision. -/
structure Phase.Open (call : Call) (p : Phase) : Prop where
  undelivered : ∀ tokens, p ≠ .delivered tokens
  undecided : p ≠ .decided
  writing : ∀ row, p = .writing row →
    row.authReqID = call.authReqID ∧ call.decision = some row.status

variable (call : Call)

theorem Phase.Open.refused (e : BackchannelError) :
    Phase.Open call (.refused e) :=
  ⟨fun _ => nofun, nofun, fun _ => nofun⟩

theorem Phase.Open.touching (now : Time) (newInterval : Int) (slow : Bool) :
    Phase.Open call (.touching now newInterval slow) :=
  ⟨fun _ => nofun, nofun, fun _ => nofun⟩

theorem Phase.Open.redeeming (now : Time) : Phase.Open call (.redeeming now) :=
  ⟨fun _ => nofun, nofun, fun _ => nofun⟩

variable {row : BackchannelRequest}

theorem Phase.Open.writing_row {call : Call}
    (own : row.authReqID = call.authReqID) (decision : call.decision = some row.status) :
    Phase.Open call (.writing row) := by
  refine ⟨fun _ => nofun, nofun, fun other same => ?_⟩
  cases same
  exact ⟨own, decision⟩

theorem open_afterTouch (row : BackchannelRequest) (now : Time) :
    (afterTouch row now).Open call := by
  unfold afterTouch
  split
  any_goals exact .refused _ _
  split
  · exact .refused _ _
  · exact .redeeming _ _

section

variable (cfg : BackchannelConfig)
include cfg

theorem open_afterPollLookup (store : BackchannelStore) (authReqID : Bytes) (a : LookupAnswers) :
    (afterPollLookup cfg store authReqID a).Open (.poll authReqID) := by
  unfold afterPollLookup
  split
  · exact .refused _ _
  split
  · exact .refused _ _
  split_ifs
  · exact .refused _ _
  · split
    · exact .refused _ _
    split_ifs
    any_goals exact .refused _ _
    all_goals exact .touching _ _ _ _

theorem open_afterApproveLookup (store : BackchannelStore)
    (authReqID : Bytes) (userID : ULID) (a : LookupAnswers) :
    (afterApproveLookup cfg store authReqID userID a).Open (.approve authReqID userID) := by
  unfold afterApproveLookup
  split_ifs
  · exact .refused _ _
  · split
    · exact .refused _ _
    rename_i row found
    split_ifs
    any_goals exact .refused _ _
    split
    · exact .refused _ _
    have own : row.authReqID = authReqID := store.keyed found
    exact .writing_row own rfl

theorem open_afterDenyLookup (store : BackchannelStore) (authReqID : Bytes) (userID : ULID) :
    (afterDenyLookup cfg store authReqID userID).Open (.deny authReqID userID) := by
  unfold afterDenyLookup
  split_ifs
  · exact .refused _ _
  · split
    · exact .refused _ _
    rename_i row found
    split_ifs
    · exact .refused _ _
    · exact .refused _ _
    · have own : row.authReqID = authReqID := store.keyed found
      exact .writing_row own rfl

theorem open_afterLookup (store : BackchannelStore) (a : LookupAnswers)
    (call : Call) : (afterLookup cfg store a call).Open call := by
  cases call with
  | approve authReqID userID => exact open_afterApproveLookup cfg store authReqID userID a
  | deny authReqID userID => exact open_afterDenyLookup cfg store authReqID userID
  | poll authReqID => exact open_afterPollLookup cfg store authReqID a

end

section

variable (cfg : BackchannelConfig) (calls : ℕ → Call)

/-- What one action can do. -/
inductive Stepped (s : System) : Action → System → Prop
  | start (req : BackchannelAuthRequest) (a : StartAnswers) (store : BackchannelStore)
      (kept : ∀ id st, s.store.statusOf id = some st → store.statusOf id = some st) :
      Stepped s (.start req a) ⟨store, s.phase⟩
  | quiet (act : Action) (r : ℕ) (p : Phase) (store : BackchannelStore)
      (same : ∀ id, store.statusOf id = s.store.statusOf id) (stays : p.Open (calls r)) :
      Stepped s act ⟨store, update s.phase r p⟩
  | deliver (r : ℕ) (tokens : BackchannelTokens) (store : BackchannelStore)
      (approved : s.store.statusOf (calls r).authReqID = some .approved)
      (consumed : ∀ id, store.statusOf id =
        if id = (calls r).authReqID then some .consumed else s.store.statusOf id) :
      Stepped s (.redeem r) ⟨store, update s.phase r (.delivered tokens)⟩
  | decide (r : ℕ) (row : BackchannelRequest) (store : BackchannelStore)
      (writing : s.phase r = .writing row)
      (written : ∀ id, store.statusOf id =
        if id = row.authReqID then some row.status else s.store.statusOf id) :
      Stepped s (.write r) ⟨store, update s.phase r .decided⟩

variable {cfg calls} {next s : System} {store : BackchannelStore} {st : BackchannelStatus}
  {a : Action} {r : ℕ}

theorem stepped_of_step (taken : step cfg calls s a = some next) : Stepped calls s a next := by
  cases a with
  | start req a =>
    cases taken
    refine .start req a _ fun id st here => ?_
    rcases backchannelAuthenticate_store cfg s.store req a with unchanged | ⟨row, inserted⟩
    · rw [unchanged]
      exact here
    · exact BackchannelStore.statusOf_insert inserted here
  | lookup r a =>
    cases here : s.phase r <;> simp only [step, here, Option.some.injEq, reduceCtorEq] at taken
    subst taken
    exact .quiet _ r _ _ (fun _ => rfl) (open_afterLookup cfg s.store a (calls r))
  | touch r =>
    simp only [step] at taken
    split at taken
    · split at taken <;> cases taken
      · exact .quiet _ r _ _ (fun _ => rfl) (.refused _ _)
      rename_i row store touched
      refine .quiet _ r _ _ (BackchannelStore.statusOf_touch touched) ?_
      split
      · exact .refused _ _
      · exact open_afterTouch _ row _
    · cases taken
  | redeem r =>
    simp only [step] at taken
    split at taken
    · split at taken <;> cases taken
      · exact .quiet _ r _ _ (fun _ => rfl) (.refused _ _)
      rename_i store redeemed
      obtain ⟨approved, consumed⟩ := BackchannelStore.statusOf_redeem redeemed
      exact .deliver r _ store approved consumed
    · cases taken
  | write r =>
    simp only [step] at taken
    split at taken
    next row here =>
      split at taken <;> cases taken
      · exact .quiet _ r _ _ (fun _ => rfl) (.refused _ _)
      rename_i store updated
      exact .decide r row store here (BackchannelStore.statusOf_update updated)
    · cases taken

/-- A decision over a redeemed request, or an approval over a denied one. -/
def overwrites (s : System) : Action → Bool
  | .write r =>
    match s.phase r with
    | .writing row =>
      s.store.statusOf row.authReqID == some .consumed ||
        (s.store.statusOf row.authReqID == some .denied && row.status == .approved)
    | _ => false
  | _ => false

theorem overwrites_write (writing : s.phase r = .writing row) :
    overwrites s (.write r) = false ↔
      s.store.statusOf row.authReqID ≠ some .consumed ∧
        (s.store.statusOf row.authReqID = some .denied → row.status ≠ .approved) := by
  simp only [overwrites, writing, Bool.or_eq_false_iff, Bool.and_eq_false_iff, beq_eq_false_iff_ne]
  refine and_congr_right fun _ => ⟨?_, ?_⟩
  · rintro (other | other) denied
    · exact absurd denied other
    · exact other
  · intro kept
    by_cases denied : s.store.statusOf row.authReqID = some .denied
    · exact .inr (kept denied)
    · exact .inl denied

/-! ## The invariant -/

/-- As long as no stale decision overwrites one. -/
structure Sound (calls : ℕ → Call) (s : System) : Prop where
  writing : ∀ ⦃r row⦄, s.phase r = .writing row →
    row.authReqID = (calls r).authReqID ∧ (calls r).decision = some row.status
  delivered : ∀ ⦃r tokens⦄, s.phase r = .delivered tokens →
    s.store.statusOf (calls r).authReqID = some .consumed
  once : ∀ ⦃q r first second⦄, s.phase q = .delivered first → s.phase r = .delivered second →
    (calls q).authReqID = (calls r).authReqID → q = r
  denied : ∀ ⦃r⦄, s.phase r = .decided → (calls r).decision = some .denied →
    s.store.statusOf (calls r).authReqID = some .denied

theorem Sound.initial (store : BackchannelStore) : Sound calls (.initial store) :=
  ⟨fun _ _ => nofun, fun _ _ => nofun, fun _ _ _ _ => nofun, fun _ => nofun⟩

section

variable (sound : Sound calls s)
include sound

theorem Sound.start (kept : ∀ id st, s.store.statusOf id = some st → store.statusOf id = some st) :
    Sound calls ⟨store, s.phase⟩ where
  writing := sound.writing
  delivered _ _ here := kept _ _ (sound.delivered here)
  once := sound.once
  denied _ here decision := kept _ _ (sound.denied here decision)

theorem Sound.quiet {p : Phase} (same : ∀ id, store.statusOf id = s.store.statusOf id)
    (stays : p.Open (calls r)) : Sound calls ⟨store, update s.phase r p⟩ where
  writing := by
    intro q row here
    rcases update_cases here with ⟨rfl, new⟩ | ⟨_, old⟩
    · exact stays.writing row new
    · exact sound.writing old
  delivered := by
    intro q tokens here
    have old := of_update here (stays.undelivered tokens)
    exact (same _).trans (sound.delivered old)
  once := by
    intro q _ first second here there
    have old := of_update here (stays.undelivered first)
    have old' := of_update there (stays.undelivered second)
    exact sound.once old old'
  denied := by
    intro _ here decision
    have old := of_update here stays.undecided
    exact (same _).trans (sound.denied old decision)

variable {tokens : BackchannelTokens}

theorem Sound.deliver (approved : s.store.statusOf (calls r).authReqID = some .approved)
    (consumed : ∀ id, store.statusOf id =
      if id = (calls r).authReqID then some .consumed else s.store.statusOf id) :
    Sound calls ⟨store, update s.phase r (.delivered tokens)⟩ where
  writing := by
    intro q _ here
    have old := of_update here nofun
    exact sound.writing old
  delivered := by
    intro q other here
    rw [consumed]
    rcases update_cases here with ⟨rfl, _⟩ | ⟨_, old⟩
    · exact if_pos rfl
    · split
      · rfl
      · exact sound.delivered old
  once := by
    -- The request was approved before, so nothing had been delivered for it.
    have first : ∀ {q other}, s.phase q = .delivered other →
        (calls q).authReqID ≠ (calls r).authReqID := by
      intro q _ old same
      have redeemed := sound.delivered old
      rw [same, approved] at redeemed
      cases redeemed
    intro q _ _ _ here there same
    rcases update_cases here with ⟨rfl, _⟩ | ⟨_, old⟩
    · rcases update_cases there with ⟨rfl, _⟩ | ⟨_, old'⟩
      · rfl
      · exact absurd same.symm (first old')
    · rcases update_cases there with ⟨rfl, _⟩ | ⟨_, old'⟩
      · exact absurd same (first old)
      · exact sound.once old old' same
  denied := by
    intro _ here decision
    have old := of_update here nofun
    have refused := sound.denied old decision
    rw [consumed, if_neg ?_]
    · exact refused
    · intro same
      rw [same, approved] at refused
      cases refused

theorem Sound.decide
    (writing : s.phase r = .writing row) (written : ∀ id, store.statusOf id =
      if id = row.authReqID then some row.status else s.store.statusOf id)
    (fresh : overwrites s (.write r) = false) :
    Sound calls ⟨store, update s.phase r .decided⟩ where
  writing := by
    intro q _ here
    have old := of_update here nofun
    exact sound.writing old
  delivered := by
    intro q _ here
    have old := of_update here nofun
    have redeemed := sound.delivered old
    rw [written, if_neg ?_]
    · exact redeemed
    · intro same
      rw [same] at redeemed
      exact ((overwrites_write writing).mp fresh).1 redeemed
  once := by
    intro q _ _ _ here there
    have old := of_update here nofun
    have old' := of_update there nofun
    exact sound.once old old'
  denied := by
    obtain ⟨own, decides⟩ := sound.writing writing
    intro _ here decision
    rw [written]
    rcases update_cases here with ⟨rfl, _⟩ | ⟨_, old⟩
    · rw [if_pos own.symm, ← decides, decision]
    · have refused := sound.denied old decision
      split
      next same =>
        rw [same] at refused
        have kept := ((overwrites_write writing).mp fresh).2 refused
        cases call : calls r with
        | approve =>
          rw [call] at decides
          exact absurd (Option.some.inj decides).symm kept
        | deny =>
          rw [call] at decides
          exact decides.symm
        | poll =>
          rw [call] at decides
          cases decides
      · exact refused

theorem Sound.step (fresh : overwrites s a = false)
    (taken : step cfg calls s a = some next) : Sound calls next := by
  cases stepped_of_step taken with
  | start _ _ _ kept => exact sound.start kept
  | quiet _ _ _ _ same stays => exact sound.quiet same stays
  | deliver _ _ _ approved consumed => exact sound.deliver approved consumed
  | decide _ _ _ writing written => exact sound.decide writing written fresh

end

theorem rank_of_decision {call : Call} (decision : call.decision = some st) :
    st.rank = 1 := by
  cases call with
  | approve | deny => cases decision; rfl
  | poll => cases decision

theorem rank_le_one (unredeemed : st ≠ .consumed) : st.rank ≤ 1 := by
  cases st with
  | consumed => exact absurd rfl unredeemed
  | pending | other => exact Nat.zero_le 1
  | approved | denied => exact Nat.le_refl 1

theorem rank_le_of_step (sound : Sound calls s) (fresh : overwrites s a = false)
    (taken : step cfg calls s a = some next) {id : Bytes} (here : s.store.statusOf id = some st) :
    ∃ st', next.store.statusOf id = some st' ∧ st.rank ≤ st'.rank := by
  cases stepped_of_step taken with
  | start _ _ _ kept => exact ⟨st, kept id st here, Nat.le_refl _⟩
  | quiet _ _ _ _ same => exact ⟨st, (same id).trans here, Nat.le_refl _⟩
  | deliver r _ _ approved consumed =>
    by_cases own : id = (calls r).authReqID
    · refine ⟨.consumed, (consumed id).trans (if_pos own), ?_⟩
      rw [own, approved] at here
      cases here
      exact Nat.le_succ 1
    · exact ⟨st, (consumed id).trans ((if_neg own).trans here), Nat.le_refl _⟩
  | decide _ row _ writing written =>
    by_cases own : id = row.authReqID
    · refine ⟨row.status, (written id).trans (if_pos own), ?_⟩
      rw [rank_of_decision (sound.writing writing).2]
      apply rank_le_one
      rintro rfl
      rw [own] at here
      exact ((overwrites_write writing).mp fresh).1 here
    · exact ⟨st, (written id).trans ((if_neg own).trans here), Nat.le_refl _⟩

/-- At most one call has tokens, none after a denial has returned, and the status does not fall
back. -/
structure SingleUse (calls : ℕ → Call) (s next : System) : Prop where
  once : ∀ ⦃q r first second⦄, next.phase q = .delivered first →
    next.phase r = .delivered second → (calls q).authReqID = (calls r).authReqID → q = r
  notAfterDenial : ∀ ⦃q userID r tokens⦄, calls q = .deny (calls r).authReqID userID →
    s.phase q = .decided → next.phase r = .delivered tokens → s.phase r = .delivered tokens
  forward : ∀ ⦃id st⦄, s.store.statusOf id = some st →
    ∃ st', next.store.statusOf id = some st' ∧ st.rank ≤ st'.rank

theorem not_delivered_of_denied (sound : Sound calls s) (taken : step cfg calls s a = some next)
    {q : ℕ} {userID : ULID} {tokens : BackchannelTokens}
    (denial : calls q = .deny (calls r).authReqID userID) (returned : s.phase q = .decided)
    (gets : next.phase r = .delivered tokens) : s.phase r = .delivered tokens := by
  have denied : s.store.statusOf (calls r).authReqID = some .denied := by
    have kept := sound.denied returned (by rw [denial]; rfl)
    rwa [denial] at kept
  cases stepped_of_step taken with
  | start => exact gets
  | quiet _ _ _ _ _ stays => exact of_update gets (stays.undelivered tokens)
  | deliver _ _ _ approved =>
    rcases update_cases gets with ⟨rfl, _⟩ | ⟨_, old⟩
    · rw [approved] at denied
      cases denied
    · exact old
  | decide => exact of_update gets nofun

/-- **Without stale decisions a request is used once.** -/
theorem single_use_unless_overwritten (cfg : BackchannelConfig) (calls : ℕ → Call)
    (store : BackchannelStore) (actions : List Action)
    (fresh : Throughout (step cfg calls) (fun s a => overwrites s a = false) (.initial store)
      actions) :
    Throughout (step cfg calls)
      (fun s a => ∀ next, step cfg calls s a = some next → SingleUse calls s next)
      (.initial store) actions := by
  refine throughout_of_invariant (fun sound fresh taken => Sound.step sound fresh taken) ?_
    (Sound.initial store) fresh
  intro _ _ sound fresh _ taken
  exact ⟨(sound.step fresh taken).once,
    fun _ _ _ _ denial returned gets => not_delivered_of_denied sound taken denial returned gets,
    fun _ _ here => rank_le_of_step sound fresh taken here⟩

end

namespace TwoDecisions

def server : BackchannelConfig := ⟨some ⟨300, 5, 600, 1⟩, 60000000000⟩

def waiting : BackchannelStore :=
  BackchannelStore.empty.put
    { authReqID := str "req", clientID := str "c", scope := [str "read"], status := .pending,
      pollInterval := 5, expiresAt := 100, createdAt := 1 }

def calls : ℕ → Call
  | 0 => .approve (str "req") 7
  | 1 => .deny (str "req") 7
  | 2 => .approve (str "req") 7
  | _ => .poll (str "req")

def answers (now : Time) : LookupAnswers :=
  ⟨now, .ok (str "c"), fun _ _ => .ok (str "access", str "refresh")⟩

def pollAt (r : ℕ) (now : Time) : List Action := [.lookup r (answers now), .touch r, .redeem r]

def tokens : BackchannelTokens := ⟨str "access", str "Bearer", 60, str "refresh", str "read"⟩

def outcome (first second third : ℕ) (actions : List Action) :
    Option (Phase × Phase × Phase × Option BackchannelStatus) :=
  (run (step server calls) (.initial waiting) actions).map fun s =>
    (s.phase first, s.phase second, s.phase third, s.store.statusOf (str "req"))

/-- An approval is written after the denial has returned, and another one after the tokens were
delivered. -/
theorem stale_approvals_deliver :
    outcome 0 1 3 [.lookup 0 (answers 2), .lookup 1 (answers 2), .write 1] =
        some (.writing
          { authReqID := str "req", clientID := str "c", userID := some 7, scope := [str "read"],
            status := .approved, accessToken := str "access", refreshToken := str "refresh",
            pollInterval := 5, expiresAt := 100, createdAt := 1 },
          .decided, .ready, some .denied) ∧
      outcome 0 1 3 ([.lookup 0 (answers 2), .lookup 1 (answers 2), .write 1, .write 0] ++
          pollAt 3 3) = some (.decided, .decided, .delivered tokens, some .consumed) ∧
      outcome 2 3 4 ([.lookup 0 (answers 2), .lookup 2 (answers 2), .write 0] ++ pollAt 3 3 ++
          [.write 2]) = some (.decided, .delivered tokens, .ready, some .approved) ∧
      outcome 2 3 4 ([.lookup 0 (answers 2), .lookup 2 (answers 2), .write 0] ++ pollAt 3 3 ++
          [.write 2] ++ pollAt 4 5) =
        some (.decided, .delivered tokens, .delivered tokens, some .consumed) := by
  refine ⟨?_, ?_, ?_, ?_⟩ <;> decide +kernel

def oneApproval : List Action :=
  [.lookup 0 (answers 2), .write 0] ++ pollAt 3 3 ++ [.lookup 4 (answers 5), .touch 4]

theorem single_use_of_one_approval :
    Throughout (step server calls)
        (fun s a => ∀ next, step server calls s a = some next → SingleUse calls s next)
        (.initial waiting) oneApproval ∧
      outcome 0 3 4 oneApproval =
        some (.decided, .delivered tokens, .refused (.oauth .invalidGrant), some .consumed) := by
  have fresh : Throughout (step server calls) (fun s a => overwrites s a = false)
      (.initial waiting) oneApproval := by decide +kernel
  exact ⟨single_use_unless_overwritten server calls waiting oneApproval fresh, by decide +kernel⟩

end TwoDecisions

end TheAuth.Server.Backchannel
