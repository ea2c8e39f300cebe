import TheAuth.Go.Strings
import TheAuth.Store.RefreshTokens
import TheAuth.Library.Run

/-!
# Refreshing an access token

An action of the system is one store operation of one request together with the computation up to
its next operation. A token that is found revoked, or that another request revokes first, is reused:
its family is revoked and the request refused.
-/

set_option autoImplicit false

namespace TheAuth.Server

open Go Store Library.Run Option
open Function (update)

/-- A request to refresh. -/
structure TokenRequest where
  refreshToken : Bytes
  resource : Bytes := []
  scope : List Bytes := []
  authorizationDetails : Bytes := []

structure Config where
  (accessTokenTTL refreshTokenTTL : Int)
  (dropUnknownScopes pathAudience : Bool := false)
  resolveResource : Bytes → Option Bytes := fun _ => none

/-- What a pair is minted for. -/
structure MintInput where
  clientID : Bytes
  userID : Option ULID
  scope : List Bytes
  resource : Bytes
  familyID : ULID
  dpopJKT : Bytes
  grantExpiry : Time
  authorizationDetails : Bytes
  authTime : Time
  acr : Bytes
  amr : List Bytes
  deriving DecidableEq

structure LookupAnswers where
  client : Except OAuthError Bytes
  now : Time
  jkt : Except OAuthError Bytes := .ok []
  details : Except OAuthError Bytes := .ok []

structure MintAnswers where
  now : Time
  jti : Bytes
  access : Except OAuthError Bytes := .ok []
  token : Bytes
  id : ULID

def grantExpirySep : UInt8 := 0x7e

def splitGrantExpiry [StdLib] (tok : Bytes) : Time :=
  if !tok.contains grantExpirySep then 0
  else match StdLib.parseInt (tok.reverse.takeWhile (· != grantExpirySep)).reverse with
  | none => 0
  | some n => if n ≤ 0 then 0 else Time.unix n

def withGrantExpiry (tok : Bytes) (exp : Time) : Bytes :=
  if exp.isZero then tok else tok ++ [grantExpirySep] ++ str (toString exp.toUnix)

variable (cfg : Config)

def Config.resourceMatchesGrant (requested granted : Bytes) : Bool :=
  requested == granted ||
    (cfg.pathAudience &&
      (cfg.resolveResource requested).any fun identifier =>
        trimRightSlash identifier == trimRightSlash granted)

def Config.narrowRefreshScopes (requested granted : List Bytes) :
    Except OAuthError (List Bytes) :=
  if requested.length = 0 then .ok granted
  else if requested.all granted.contains then .ok requested
  else if !cfg.dropUnknownScopes then .error .invalidScope
  else
    let out := requested.filter granted.contains
    if out.length = 0 then .error .invalidScope else .ok out

structure Narrowed where
  scope : List Bytes
  (jkt details : Bytes)

def Config.checkRefresh (req : TokenRequest) (a : LookupAnswers)
    (rt : RefreshToken) : Except OAuthError Narrowed := do
  if rt.expiresAt ≤ a.now then throw .invalidGrant
  if req.resource ≠ [] ∧ !cfg.resourceMatchesGrant req.resource rt.resource then
    throw .invalidResource
  let scope ← cfg.narrowRefreshScopes req.scope rt.scope
  let jkt ← a.jkt
  if rt.dpopJKT ≠ [] then
    if jkt = [] then throw (.dpopInvalid (str "refresh token is DPoP-bound, proof required"))
    if jkt ≠ rt.dpopJKT then throw (.dpopInvalid (str "proof key does not match the bound key"))
  let details ← if req.authorizationDetails = [] then .ok rt.authorizationDetails else a.details
  return ⟨scope, jkt, details⟩

def RefreshToken.mintInput [StdLib] (rt : RefreshToken) (client presented : Bytes)
    (n : Narrowed) : MintInput where
  clientID := client
  userID := rt.userID
  scope := n.scope
  resource := rt.resource
  familyID := rt.familyID
  dpopJKT := n.jkt
  grantExpiry := splitGrantExpiry presented
  authorizationDetails := n.details
  authTime := rt.authTime
  acr := rt.acr
  amr := rt.amr

def capExpiry (expiry grantExpiry : Time) : Time :=
  if !grantExpiry.isZero && decide (grantExpiry < expiry) then grantExpiry else expiry

def Config.successor (input : MintInput) (a : MintAnswers) : RefreshToken where
  id := a.id
  hash := hashToken (withGrantExpiry a.token input.grantExpiry)
  familyID := input.familyID
  clientID := input.clientID
  userID := input.userID
  scope := input.scope
  resource := input.resource
  parentJTI := a.jti
  issuedAt := a.now
  expiresAt := capExpiry (a.now + cfg.refreshTokenTTL) input.grantExpiry
  dpopJKT := input.dpopJKT
  authCodeHash := []
  authorizationDetails := input.authorizationDetails
  authTime := input.authTime
  acr := input.acr
  amr := input.amr

def Config.mintAccessAndRefresh (input : MintInput) (a : MintAnswers) :
    Except OAuthError RefreshToken :=
  if capExpiry (a.now + cfg.accessTokenTTL) input.grantExpiry ≤ a.now then .error .invalidGrant
  else match a.access with
  | .error e => .error e
  | .ok _ => .ok (cfg.successor input a)

theorem mintAccessAndRefresh_eq_ok {cfg : Config} {input : MintInput} {a : MintAnswers}
    {t : RefreshToken} (minted : cfg.mintAccessAndRefresh input a = .ok t) :
    a.now < capExpiry (a.now + cfg.accessTokenTTL) input.grantExpiry ∧
      (∃ access, a.access = .ok access) ∧ t = cfg.successor input a := by
  unfold Config.mintAccessAndRefresh at minted
  split at minted
  · cases minted
  rename_i live
  cases access : a.access with
  | error => rw [access] at minted; cases minted
  | ok token =>
    rw [access] at minted
    cases minted
    exact ⟨Int.not_le.mp live, ⟨token, rfl⟩, rfl⟩

/-- Where a refresh stands. -/
inductive Phase where
  | ready
  | rotating (input : MintInput)
  | reused (family : ULID)
  | inserting (t : RefreshToken)
  | issued (t : RefreshToken)
  | refused (e : OAuthError)
  | refusedForReuse (family : ULID)
  deriving DecidableEq

/-- The tokens, and where each refresh stands. -/
structure System where
  store : RefreshStore
  phase : ℕ → Phase

def System.initial (store : RefreshStore) : System := ⟨store, fun _ => .ready⟩

/-- One operation of one refresh. -/
inductive Action where
  | lookup (r : ℕ) (a : LookupAnswers)
  | revoke (r : ℕ) (now : Time) (a : MintAnswers)
  | revokeFamily (r : ℕ) (now : Time)
  | insert (r : ℕ) (idToken : Except OAuthError Unit)

section

variable [StdLib] (cfg : Config) (requests : ℕ → TokenRequest)

def afterLookup (store : RefreshStore) (req : TokenRequest) (a : LookupAnswers) : Phase :=
  match a.client with
  | .error e => .refused e
  | .ok client =>
    if req.refreshToken = [] then .refused .invalidRequest
    else match store.refreshTokenByHash (hashToken req.refreshToken) with
    | none => .refused .invalidGrant
    | some rt =>
      if rt.clientID ≠ client then .refused .invalidGrant
      else if !rt.live then .reused rt.familyID
      else match cfg.checkRefresh req a rt with
      | .error e => .refused e
      | .ok n => .rotating (rt.mintInput client req.refreshToken n)

def afterRevoke (input : MintInput) (a : MintAnswers) : Phase :=
  match cfg.mintAccessAndRefresh input a with
  | .error e => .refused e
  | .ok t => .inserting t

def afterInsert (t : RefreshToken) : Except OAuthError Unit → Phase
  | .ok _ => .issued t
  | .error e => .refused e

/-- One action. -/
def step (s : System) : Action → Option System
  | .lookup r a =>
    match s.phase r with
    | .ready =>
      some { s with
        phase := update s.phase r (afterLookup cfg s.store (requests r) a) }
    | _ => none
  | .revoke r now a =>
    match s.phase r with
    | .rotating input =>
      match s.store.revokeRefreshToken (hashToken (requests r).refreshToken) (str "rotated")
        now with
      | none => some { s with phase := update s.phase r (.reused input.familyID) }
      | some store => some ⟨store, update s.phase r (afterRevoke cfg input a)⟩
    | _ => none
  | .revokeFamily r now =>
    match s.phase r with
    | .reused family =>
      some ⟨s.store.revokeRefreshTokenFamily family (str "reuse detected") now,
        update s.phase r (.refusedForReuse family)⟩
    | _ => none
  | .insert r idToken =>
    match s.phase r with
    | .inserting t => some ⟨s.store.insertRefreshToken t, update s.phase r (afterInsert t idToken)⟩
    | _ => none

/-- What one action can do. -/
inductive Stepped (s : System) : Action → System → Prop
  | lookup (r : ℕ) (a : LookupAnswers) (ready : s.phase r = .ready) :
      Stepped s (.lookup r a) ⟨s.store, update s.phase r (afterLookup cfg s.store (requests r) a)⟩
  | lost (r : ℕ) (now : Time) (a : MintAnswers) (input : MintInput)
      (rotating : s.phase r = .rotating input)
      (dead : s.store.revokeRefreshToken (hashToken (requests r).refreshToken) (str "rotated")
        now = none) :
      Stepped s (.revoke r now a) ⟨s.store, update s.phase r (.reused input.familyID)⟩
  | won (r : ℕ) (now : Time) (a : MintAnswers) (input : MintInput) (store : RefreshStore)
      (rotating : s.phase r = .rotating input)
      (revoked : s.store.revokeRefreshToken (hashToken (requests r).refreshToken) (str "rotated")
        now = some store) :
      Stepped s (.revoke r now a) ⟨store, update s.phase r (afterRevoke cfg input a)⟩
  | revokeFamily (r : ℕ) (now : Time) (family : ULID) (reused : s.phase r = .reused family) :
      Stepped s (.revokeFamily r now)
        ⟨s.store.revokeRefreshTokenFamily family (str "reuse detected") now,
          update s.phase r (.refusedForReuse family)⟩
  | insert (r : ℕ) (idToken : Except OAuthError Unit) (t : RefreshToken)
      (inserting : s.phase r = .inserting t) :
      Stepped s (.insert r idToken)
        ⟨s.store.insertRefreshToken t, update s.phase r (afterInsert t idToken)⟩

variable {cfg requests}

theorem stepped_of_step {s next : System} {a : Action} (taken : step cfg requests s a = some next) :
    Stepped cfg requests s a next := by
  cases a with
  | lookup r a =>
    cases here : s.phase r <;> simp only [step, here, some.injEq, reduceCtorEq] at taken
    subst taken
    exact .lookup r a here
  | revoke r now a =>
    cases here : s.phase r with
    | rotating input =>
      simp only [step, here] at taken
      cases outcome : s.store.revokeRefreshToken (hashToken (requests r).refreshToken)
          (str "rotated") now with
      | none =>
        simp only [outcome, some.injEq] at taken
        subst taken
        exact .lost r now a input here outcome
      | some store =>
        simp only [outcome, some.injEq] at taken
        subst taken
        exact .won r now a input store here outcome
    | _ => simp only [step, here, reduceCtorEq] at taken
  | revokeFamily r now =>
    cases here : s.phase r <;> simp only [step, here, some.injEq, reduceCtorEq] at taken
    subst taken
    exact .revokeFamily r now _ here
  | insert r idToken =>
    cases here : s.phase r <;> simp only [step, here, some.injEq, reduceCtorEq] at taken
    subst taken
    exact .insert r idToken _ here

end

end TheAuth.Server
