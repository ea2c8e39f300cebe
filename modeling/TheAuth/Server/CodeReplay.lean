import TheAuth.Server.Authorize

/-!
# Replay of an authorization code

A code is consumed once, so at most one request returns tokens. A replay revokes the refresh tokens
that were issued from the code; only a request that has consumed the code and not yet inserted its
refresh token is out of reach.
-/

set_option autoImplicit false

namespace TheAuth.Server.CodeReplay

open Go Store Library.Result Library.Run RefreshStore Option
open Function (update)

def mintInput (g : CodeGrant) (family : ULID) : MintInput where
  clientID := g.clientID
  userID := some g.userID
  scope := g.scope
  resource := g.resource
  familyID := family
  dpopJKT := g.dpopJKT
  grantExpiry := g.grantExpiry
  authorizationDetails := g.authorizationDetails
  authTime := g.authTime
  acr := g.acr
  amr := g.amr

def mintFromCode (cfg : Config) (g : CodeGrant) (family : ULID) (a : MintAnswers) :
    Except OAuthError RefreshToken := do
  let t ← cfg.mintAccessAndRefresh (mintInput g family) a
  return { t with authCodeHash := g.authCodeHash }

variable {family : ULID} {t : RefreshToken} {codes : GrantStore} {req : CodeRequest}

theorem mintFromCode_eq_ok {cfg : Config} {g : CodeGrant} {a : MintAnswers}
    (minted : mintFromCode cfg g family a = .ok t) :
    a.now < capExpiry (a.now + cfg.accessTokenTTL) g.grantExpiry ∧
      (∃ access, a.access = .ok access) ∧
        t = { cfg.successor (mintInput g family) a with authCodeHash := g.authCodeHash } := by
  obtain ⟨_, first, done⟩ := of_bind minted
  cases done
  obtain ⟨live, access, rfl⟩ := mintAccessAndRefresh_eq_ok first
  exact ⟨live, access, rfl⟩

/-- Where an exchange stands. -/
inductive Phase where
  | ready | replaying
  | inserting (t : RefreshToken)
  | issued (t : RefreshToken)
  | refused (e : OAuthError)
  | refusedForReplay (jtis : List Bytes)
  deriving DecidableEq

/-- Codes, tokens and exchanges. -/
structure System where
  codes : GrantStore
  tokens : RefreshStore
  phase : ℕ → Phase

def System.initial (codes : GrantStore) (tokens : RefreshStore) : System :=
  ⟨codes, tokens, fun _ => .ready⟩

/-- One operation of one exchange. -/
inductive Action where
  | consume (r : ℕ) (a : ExchangeAnswers) (family : ULID) (m : MintAnswers)
  | revoke (r : ℕ) (now : Time)
  | insert (r : ℕ) (idToken : Except OAuthError Unit)

section

variable [StdLib] [UrlLib] (cfg : AuthorizeConfig) (tokenCfg : Config) (requests : ℕ → CodeRequest)

def afterConsume (a : ExchangeAnswers) (client : OAuthClient) (req : CodeRequest)
    (row : AuthorizationCode) (family : ULID) (m : MintAnswers) : Phase :=
  match redeemCode cfg a client req row with
  | .error e => .refused e
  | .ok g =>
    match mintFromCode tokenCfg g family m with
    | .error e => .refused e
    | .ok t => .inserting t

def consume (codes : GrantStore) (req : CodeRequest) (a : ExchangeAnswers) (family : ULID)
    (m : MintAnswers) : Phase × GrantStore :=
  match a.client with
  | .error e => (.refused e, codes)
  | .ok client =>
    if req.code = [] ∨ req.codeVerifier = [] then (.refused .invalidRequest, codes)
    else match codes.consumeAuthorizationCode (codeStorageKey req.code) with
    | none => (.replaying, codes)
    | some (row, next) => (afterConsume cfg tokenCfg a client req row family m, next)

def afterInsert (t : RefreshToken) : Except OAuthError Unit → Phase
  | .ok _ => .issued t
  | .error e => .refused e

def handleCodeReplay (tokens : RefreshStore) (codeKey : Bytes) (now : Time) :
    List Bytes × RefreshStore :=
  tokens.revokeRefreshTokensByAuthCode codeKey (str "authorization code replay") now

/-- One action. -/
def step (s : System) : Action → Option System
  | .consume r a family m =>
    match s.phase r with
    | .ready =>
      let (p, codes) := consume cfg tokenCfg s.codes (requests r) a family m
      some { s with codes, phase := update s.phase r p }
    | _ => none
  | .revoke r now =>
    match s.phase r with
    | .replaying =>
      let (jtis, tokens) := handleCodeReplay s.tokens (codeStorageKey (requests r).code) now
      some { s with tokens, phase := update s.phase r (.refusedForReplay jtis) }
    | _ => none
  | .insert r idToken =>
    match s.phase r with
    | .inserting t =>
      some { s with tokens := s.tokens.insertRefreshToken t,
                    phase := update s.phase r (afterInsert t idToken) }
    | _ => none

/-! ## One action -/

/-- What the exchange of a code leaves of the code. -/
inductive Consumed (codes : GrantStore) (req : CodeRequest) (family : ULID) :
    Phase → GrantStore → Prop
  | untouched (e : OAuthError) : Consumed codes req family (.refused e) codes
  | replaying (absent : codes.authzCodes.lookup (codeStorageKey req.code) = none) :
      Consumed codes req family .replaying codes
  | spent (e : OAuthError) (row : AuthorizationCode)
      (present : codes.authzCodes.lookup (codeStorageKey req.code) = some row) :
      Consumed codes req family (.refused e)
        { codes with authzCodes := codes.authzCodes.erase (codeStorageKey req.code) }
  | minted (t : RefreshToken) (row : AuthorizationCode)
      (present : codes.authzCodes.lookup (codeStorageKey req.code) = some row)
      (live : t.live = true) (issuedFrom : t.authCodeHash = codeStorageKey req.code)
      (inFamily : t.familyID = family) :
      Consumed codes req family (.inserting t)
        { codes with authzCodes := codes.authzCodes.erase (codeStorageKey req.code) }

theorem consumed_consume (codes : GrantStore) (req : CodeRequest) (a : ExchangeAnswers)
    (family : ULID) (m : MintAnswers) :
    Consumed codes req family (consume cfg tokenCfg codes req a family m).1
      (consume cfg tokenCfg codes req a family m).2 := by
  unfold consume
  cases a.client with
  | error e => exact .untouched e
  | ok client =>
    dsimp only
    split
    · exact .untouched _
    unfold GrantStore.consumeAuthorizationCode
    cases here : codes.authzCodes.lookup (codeStorageKey req.code) with
    | none => exact .replaying here
    | some row =>
      dsimp only [Option.map_some]
      unfold afterConsume
      cases redeemed : redeemCode cfg a client req row with
      | error e => exact .spent e row here
      | ok g =>
        dsimp only
        cases minted : mintFromCode tokenCfg g family m with
        | error e => exact .spent e row here
        | ok =>
          obtain ⟨-, -, rfl⟩ := mintFromCode_eq_ok minted
          have fromCode := (redeemed_of_redeemCode cfg a redeemed).authCodeHash
          exact .minted _ row here rfl fromCode rfl

/-- What one action can do. -/
inductive Stepped (s : System) : Action → System → Prop
  | consume (r : ℕ) (a : ExchangeAnswers) (family : ULID) (m : MintAnswers) (p : Phase)
      (codes : GrantStore) (ready : s.phase r = .ready)
      (done : CodeReplay.consume cfg tokenCfg s.codes (requests r) a family m = (p, codes))
      (consumed : Consumed s.codes (requests r) family p codes) :
      Stepped s (.consume r a family m) ⟨codes, s.tokens, update s.phase r p⟩
  | revoke (r : ℕ) (now : Time) (replaying : s.phase r = .replaying) :
      Stepped s (.revoke r now)
        ⟨s.codes, (handleCodeReplay s.tokens (codeStorageKey (requests r).code) now).2,
          update s.phase r
            (.refusedForReplay
              (handleCodeReplay s.tokens (codeStorageKey (requests r).code) now).1)⟩
  | insert (r : ℕ) (idToken : Except OAuthError Unit) (t : RefreshToken)
      (inserting : s.phase r = .inserting t) :
      Stepped s (.insert r idToken)
        ⟨s.codes, s.tokens.insertRefreshToken t, update s.phase r (afterInsert t idToken)⟩

variable {cfg tokenCfg requests}

theorem stepped_of_step {s next : System} {a : Action}
    (taken : step cfg tokenCfg requests s a = some next) :
    Stepped cfg tokenCfg requests s a next := by
  cases a with
  | consume r a family m =>
    cases here : s.phase r <;> simp only [step, here, some.injEq, reduceCtorEq] at taken
    subst taken
    exact .consume r a family m _ _ here rfl (consumed_consume cfg tokenCfg _ _ a family m)
  | revoke r now =>
    cases here : s.phase r <;> simp only [step, here, some.injEq, reduceCtorEq] at taken
    subst taken
    exact .revoke r now here
  | insert r idToken =>
    cases here : s.phase r <;> simp only [step, here, some.injEq, reduceCtorEq] at taken
    subst taken
    exact .insert r idToken _ here

end

variable {p : Phase}

theorem Consumed.lookup_eq_none {next : GrantStore}
    (consumed : Consumed codes req family p next) {key : Bytes}
    (absent : codes.authzCodes.lookup key = none) : next.authzCodes.lookup key = none := by
  have erased : (codes.authzCodes.erase (codeStorageKey req.code)).lookup key = none := by
    cases here : (codes.authzCodes.erase (codeStorageKey req.code)).lookup key with
    | none => rfl
    | some =>
      rw [GoMap.lookup_of_lookup_erase here] at absent
      cases absent
  cases consumed with
  | untouched | replaying => exact absent
  | spent | minted => exact erased

def Phase.token? : Phase → Option RefreshToken
  | .inserting t => some t
  | .issued t => some t
  | _ => none

theorem Consumed.of_token? {next : GrantStore}
    (consumed : Consumed codes req family p next) (token : p.token? = some t) :
    (∃ row, codes.authzCodes.lookup (codeStorageKey req.code) = some row) ∧
      next.authzCodes.lookup (codeStorageKey req.code) = none ∧ t.live = true ∧
        t.authCodeHash = codeStorageKey req.code ∧ t.familyID = family := by
  cases consumed with
  | untouched | replaying | spent => cases token
  | minted _ row present live issuedFrom inFamily =>
    cases token
    exact ⟨⟨row, present⟩, AList.lookup_erase _ _, live, issuedFrom, inFamily⟩

/-! ## Spent codes -/

section

variable {requests : ℕ → CodeRequest} {s : System}

/-- Who was told of a replay or has passed the checks finds the code gone; one request has passed
them. -/
structure Spent (requests : ℕ → CodeRequest) (s : System) : Prop where
  replaying : ∀ {r}, s.phase r = .replaying →
    s.codes.authzCodes.lookup (codeStorageKey (requests r).code) = none
  redeemed : ∀ {r t}, (s.phase r).token? = some t →
    s.codes.authzCodes.lookup (codeStorageKey (requests r).code) = none
  once : ∀ {r q t u}, (s.phase r).token? = some t → (s.phase q).token? = some u →
    codeStorageKey (requests r).code = codeStorageKey (requests q).code → r = q
  inserting : ∀ {r t}, s.phase r = .inserting t →
    t.live = true ∧ t.authCodeHash = codeStorageKey (requests r).code

variable {r : ℕ} {a : Action}

theorem Spent.consume (spent : Spent requests s) {family : ULID}
    {codes : GrantStore} (consumed : Consumed s.codes (requests r) family p codes) :
    Spent requests ⟨codes, s.tokens, update s.phase r p⟩ where
  replaying := by
    intro q here
    rcases update_cases here with ⟨rfl, rfl⟩ | ⟨_, old⟩
    · cases consumed with
      | replaying absent => exact absent
    · exact consumed.lookup_eq_none (spent.replaying old)
  redeemed := by
    intro q t here
    rcases update_cases_of (Q := fun p : Phase => p.token? = some t) here with ⟨rfl, new⟩ | ⟨_, old⟩
    · exact (consumed.of_token? new).2.1
    · exact consumed.lookup_eq_none (spent.redeemed old)
  once := by
    -- another request that has passed its checks for this code has left none to find
    have alone : ∀ {q t u}, p.token? = some t → (s.phase q).token? = some u →
        codeStorageKey (requests r).code ≠ codeStorageKey (requests q).code := by
      intro q t u new old same
      obtain ⟨_, present⟩ := (consumed.of_token? new).1
      rw [same, spent.redeemed old] at present
      cases present
    intro q _ t u here there same
    rcases update_cases_of (Q := fun p : Phase => p.token? = some t) here with ⟨rfl, new⟩ | ⟨_, old⟩
    · rcases update_cases_of (Q := fun p : Phase => p.token? = some u) there with
        ⟨rfl, _⟩ | ⟨_, old'⟩
      · rfl
      · exact absurd same (alone new old')
    · rcases update_cases_of (Q := fun p : Phase => p.token? = some u) there with
        ⟨rfl, new⟩ | ⟨_, old'⟩
      · exact absurd same.symm (alone new old)
      · exact spent.once old old' same
  inserting := by
    intro _ _ here
    rcases update_cases here with ⟨rfl, rfl⟩ | ⟨_, old⟩
    · obtain ⟨-, -, live, issuedFrom, -⟩ := consumed.of_token? rfl
      exact ⟨live, issuedFrom⟩
    · exact spent.inserting old

theorem Spent.settle (spent : Spent requests s) {tokens : RefreshStore}
    (ended : p ≠ .replaying ∧ ∀ t, p ≠ .inserting t)
    (had : ∀ t, p.token? = some t → (s.phase r).token? = some t) :
    Spent requests ⟨s.codes, tokens, update s.phase r p⟩ := by
  have before : ∀ {q t}, (update s.phase r p q).token? = some t →
      (s.phase q).token? = some t := by
    intro q t here
    rcases update_cases_of (Q := fun p : Phase => p.token? = some t) here with ⟨rfl, new⟩ | ⟨_, old⟩
    · exact had t new
    · exact old
  refine ⟨?_, fun here => spent.redeemed (before here), fun here there =>
    spent.once (before here) (before there), ?_⟩
  · intro q here
    have old := of_update here ended.1
    exact spent.replaying old
  · intro _ t here
    have old := of_update here (ended.2 t)
    exact spent.inserting old

theorem afterInsert_ended (t : RefreshToken) (idToken : Except OAuthError Unit) :
    afterInsert t idToken ≠ .replaying ∧ ∀ u, afterInsert t idToken ≠ .inserting u := by
  cases idToken <;> exact ⟨nofun, nofun⟩

/-- The family of a new token is used nowhere. -/
def FreshFamily (s : System) : Action → Prop
  | .consume _ _ family _ =>
    (∀ key t, s.tokens.refreshTokens.lookup key = some t → t.familyID ≠ family) ∧
      ∀ q t, s.phase q = .inserting t → t.familyID ≠ family
  | _ => True

theorem codeStorageKey_ne_nil (code : Bytes) : codeStorageKey code ≠ [] := by
  intro empty
  have long := congrArg List.length empty
  simp [codeStorageKey, bytesHexKey, hashToken, sha256Size] at long

variable [StdLib] [UrlLib] {cfg : AuthorizeConfig} {tokenCfg : Config} {next : System}

theorem Spent.step (spent : Spent requests s)
    (taken : step cfg tokenCfg requests s a = some next) : Spent requests next := by
  cases stepped_of_step taken with
  | consume _ _ _ _ _ _ _ _ consumed => exact spent.consume consumed
  | revoke =>
    exact spent.settle ⟨nofun, nofun⟩
      nofun
  | insert _ idToken t inserting =>
    refine spent.settle (afterInsert_ended t idToken) fun u token => ?_
    rw [inserting]
    cases idToken with
    | ok => exact token
    | error => cases token

/-- A token that is being inserted begins a family of its own. -/
structure NewFamilies (s : System) : Prop where
  stored : ∀ {r t key u}, s.phase r = .inserting t → s.tokens.refreshTokens.lookup key = some u →
    u.familyID ≠ t.familyID
  distinct : ∀ {r q t u}, r ≠ q → s.phase r = .inserting t → s.phase q = .inserting u →
    t.familyID ≠ u.familyID

theorem NewFamilies.step (families : NewFamilies s)
    (fresh : FreshFamily s a) (taken : step cfg tokenCfg requests s a = some next) :
    NewFamilies next := by
  cases stepped_of_step taken with
  | consume _ _ family _ p _ _ _ consumed =>
    have drawn : ∀ {t}, p = .inserting t → t.familyID = family := by
      rintro t rfl
      exact (consumed.of_token? rfl).2.2.2.2
    refine ⟨fun {q t key u} here stored => ?_, fun {q q' t u} different here there => ?_⟩
    · rcases update_cases here with ⟨_, new⟩ | ⟨_, old⟩
      · rw [drawn new]
        exact fresh.1 key u stored
      · exact families.stored old stored
    · rcases update_cases here with ⟨first, new⟩ | ⟨_, old⟩
      · rcases update_cases there with ⟨second, _⟩ | ⟨_, old'⟩
        · exact absurd (first.trans second.symm) different
        · rw [drawn new]
          exact (fresh.2 q' u old').symm
      · rcases update_cases there with ⟨_, new⟩ | ⟨_, old'⟩
        · rw [drawn new]
          exact fresh.2 q t old
        · exact families.distinct different old old'
  | revoke =>
    refine ⟨fun {q t key u} here stored => ?_, fun {q q' t u} different here there => ?_⟩
    · have old := of_update here nofun
      obtain ⟨_, kept, same, -⟩ := back_revokeRefreshTokensByAuthCode stored
      rw [same]
      exact families.stored old kept
    · have old := of_update here nofun
      have old' := of_update there nofun
      exact families.distinct different old old'
  | insert _ idToken t inserting =>
    refine ⟨fun {q u key v} here stored => ?_, fun {q q' u v} different here there => ?_⟩
    · rcases update_cases here with ⟨_, new⟩ | ⟨other, old⟩
      · exact absurd new ((afterInsert_ended t idToken).2 u)
      · obtain ⟨-, rfl⟩ | ⟨-, stored⟩ := GoMap.of_lookup_insert stored
        · exact families.distinct other.symm inserting old
        · exact families.stored old stored
    · have old := of_update here ((afterInsert_ended t idToken).2 u)
      have old' := of_update there ((afterInsert_ended t idToken).2 v)
      exact families.distinct different old old'

/-- No token issued from the code is live. -/
def CodeRevoked (code : Bytes) (s : System) : Prop :=
  ∀ key t, s.tokens.refreshTokens.lookup key = some t → s.tokens.IssuedFrom code t → t.live = false

/-- No token of the code is being inserted. -/
def NoneInserting (code : Bytes) (s : System) : Prop :=
  ∀ r t, s.phase r = .inserting t → t.authCodeHash ≠ code

/-- The code is gone, and nothing of it lives or will. -/
structure Closed (code : Bytes) (s : System) : Prop where
  absent : s.codes.authzCodes.lookup code = none
  revoked : CodeRevoked code s
  none : NoneInserting code s

theorem Closed.step {code : Bytes} (closed : Closed code s) (families : NewFamilies s)
    (taken : step cfg tokenCfg requests s a = some next) :
    Closed code next := by
  cases stepped_of_step taken with
  | consume _ _ _ _ _ _ _ _ consumed =>
    refine ⟨consumed.lookup_eq_none closed.absent, closed.revoked, fun q t here same => ?_⟩
    rcases update_cases here with ⟨_, rfl⟩ | ⟨_, old⟩
    · obtain ⟨⟨_, present⟩, -, -, issuedFrom, -⟩ := consumed.of_token? rfl
      rw [← issuedFrom, same, closed.absent] at present
      cases present
    · exact closed.none q t old same
  | revoke =>
    refine ⟨closed.absent, fun key t here issued => ?_, fun q t here => ?_⟩
    · obtain ⟨before, kept, same, -, live⟩ := back_revokeRefreshTokensByAuthCode here
      obtain ⟨other, first, stored, fromCode, family⟩ := issued.of_revokeRefreshTokensByAuthCode
      have dead := closed.revoked key before kept
        ⟨other, first, stored, fromCode, family.trans same⟩
      rw [← Bool.not_eq_true]
      intro alive
      rw [live alive] at dead
      cases dead
    · have old := of_update here nofun
      exact closed.none q t old
  | insert r idToken t inserting =>
    -- the first token of the family that is looked for is not the inserted one
    have before : ∀ {u}, (s.tokens.insertRefreshToken t).IssuedFrom code u →
        s.tokens.IssuedFrom code u := by
      rintro u ⟨key, first, stored, fromCode, family⟩
      obtain ⟨-, rfl⟩ | ⟨-, stored⟩ := GoMap.of_lookup_insert stored
      · exact absurd fromCode (closed.none r t inserting)
      · exact ⟨key, first, stored, fromCode, family⟩
    refine ⟨closed.absent, fun key u here issued => ?_, fun q u here => ?_⟩
    · obtain ⟨-, rfl⟩ | ⟨-, here⟩ := GoMap.of_lookup_insert here
      · obtain ⟨_, _, stored, -, family⟩ := before issued
        exact absurd family (families.stored inserting stored)
      · exact closed.revoked key u here (before issued)
    · have old := of_update here ((afterInsert_ended t idToken).2 u)
      exact closed.none q u old

theorem codeRevoked_of_revoke {now : Time}
    (taken : step cfg tokenCfg requests s (.revoke r now) = some next) :
    CodeRevoked (codeStorageKey (requests r).code) next := by
  cases stepped_of_step taken with
  | revoke r =>
    intro _ _ here issued
    exact live_of_revokeRefreshTokensByAuthCode
      (codeStorageKey_ne_nil (requests r).code) here issued

/-- **A code is redeemed once, and when a replay is final.** -/
theorem replay_revokes_code_tokens_iff (cfg : AuthorizeConfig) (tokenCfg : Config)
    (requests : ℕ → CodeRequest) (codes : GrantStore) (tokens : RefreshStore)
    (actions : List Action) (s : System)
    (fresh : Throughout (step cfg tokenCfg requests) FreshFamily (.initial codes tokens) actions)
    (ran : run (step cfg tokenCfg requests) (.initial codes tokens) actions = some s) :
    (∀ r q t u, s.phase r = .issued t → s.phase q = .issued u →
      codeStorageKey (requests r).code = codeStorageKey (requests q).code → r = q) ∧
    ∀ r now next, step cfg tokenCfg requests s (.revoke r now) = some next →
      ((∀ later last, Throughout (step cfg tokenCfg requests) FreshFamily next later →
          run (step cfg tokenCfg requests) next later = some last →
            CodeRevoked (codeStorageKey (requests r).code) last) ↔
        NoneInserting (codeStorageKey (requests r).code) next) := by
  have keeps : ∀ {s a next}, Spent requests s ∧ NewFamilies s → FreshFamily s a →
      step cfg tokenCfg requests s a = some next → Spent requests next ∧ NewFamilies next :=
    fun before fresh taken => ⟨before.1.step taken, before.2.step fresh taken⟩
  have initially : Spent requests (.initial codes tokens) ∧ NewFamilies (.initial codes tokens) :=
    ⟨⟨nofun, nofun, nofun, nofun⟩, ⟨nofun, nofun⟩⟩
  obtain ⟨spent, families⟩ := invariant_of_run_throughout keeps initially fresh ran
  refine ⟨fun r q t u here there => ?_, fun r now next refused => ?_⟩
  · exact spent.once (t := t) (u := u) (by rw [here]; rfl) (by rw [there]; rfl)
  have spentNext : Spent requests next := spent.step refused
  have familiesNext : NewFamilies next := families.step (a := .revoke r now) trivial refused
  constructor
  · -- a pending insertion can be the next action
    intro stays q t inserting fromCode
    have inserted : step cfg tokenCfg requests next (.insert q (.ok ())) =
        some ⟨next.codes, next.tokens.insertRefreshToken t,
          update next.phase q (afterInsert t (.ok ()))⟩ := by
      simp only [step, inserting]
    have here := AList.lookup_insert (a := bytesHexKey t.hash) (b := t) next.tokens.refreshTokens
    have dead := stays [.insert q (.ok ())] _ ⟨trivial, fun _ _ => trivial⟩
      (run_cons_eq_some.mpr ⟨_, inserted, rfl⟩) (bytesHexKey t.hash) t here
      ⟨bytesHexKey t.hash, t, here, fromCode, rfl⟩
    rw [(spentNext.inserting inserting).1] at dead
    cases dead
  · intro noneLeft _ _ freshLater ranLater
    have absent : next.codes.authzCodes.lookup (codeStorageKey (requests r).code) = none := by
      cases stepped_of_step refused with
      | revoke _ _ replaying => exact spent.replaying replaying
    have closed : Closed (codeStorageKey (requests r).code) next :=
      ⟨absent, codeRevoked_of_revoke refused, noneLeft⟩
    have keepsClosed : ∀ {s a next}, NewFamilies s ∧ Closed (codeStorageKey (requests r).code) s →
        FreshFamily s a → step cfg tokenCfg requests s a = some next →
          NewFamilies next ∧ Closed (codeStorageKey (requests r).code) next :=
      fun before fresh taken => ⟨before.1.step fresh taken, before.2.step before.1 taken⟩
    exact (invariant_of_run_throughout keepsClosed ⟨familiesNext, closed⟩ freshLater
      ranLater).2.revoked

end

/-! ## A race -/

def oneResource : AuthorizeConfig where
  resources := ⟨[⟨str "https://api", []⟩], false, false⟩
  authorizationCodeTTL := 60

def tokenLifetimes : Config where
  accessTokenTTL := 10
  refreshTokenTTL := 20

def storedCode : AuthorizationCode where
  code := codeStorageKey (str "code")
  clientID := str "c"
  userID := 3
  redirectURI := str "https://c/cb"
  scope := [str "read"]
  resource := str "https://api"
  codeChallenge := codeChallenge (str "verifier")
  codeChallengeMethod := str "S256"
  nonce := []
  authorizationDetails := []
  authTime := 0
  acr := []
  amr := []
  expiresAt := 100
  createdAt := 0

def sameCode (_ : ℕ) : CodeRequest where
  code := str "code"
  codeVerifier := str "verifier"
  redirectURI := str "https://c/cb"

def clientAnswers : ExchangeAnswers where
  now := 1
  client := .ok { clientID := str "c" }

def race : List Action :=
  [.consume 0 clientAnswers 7 ⟨1, [], .ok [], str "t1", 1⟩,
    .consume 1 clientAnswers 8 ⟨1, [], .ok [], str "t2", 2⟩, .revoke 1 1, .insert 0 (.ok ())]

theorem token_survives_replay :
    (run (@step StdLib.refusing UrlLib.refusing oneResource tokenLifetimes sameCode)
        (.initial (GrantStore.empty.insertAuthorizationCode storedCode 0) .empty) race).map
      (fun s => (s.phase 1,
        (s.tokens.refreshTokens.lookup (bytesHexKey (hashToken (str "t1")))).map
          fun t => (decide (t.authCodeHash = codeStorageKey (str "code")), t.live))) =
      some (.refusedForReplay [], some (true, true)) := by
  decide +kernel

def issuedToken : RefreshToken where
  id := 1
  hash := hashToken (str "t1")
  familyID := 7
  clientID := str "c"
  userID := some 3
  scope := [str "read"]
  resource := str "https://api"
  parentJTI := str "j1"
  issuedAt := 1
  expiresAt := 21
  dpopJKT := []
  authCodeHash := codeStorageKey (str "code")
  authorizationDetails := []
  authTime := 0
  acr := []
  amr := []

attribute [local instance] StdLib.refusing UrlLib.refusing

theorem replay_of_redeemed_code_is_final :
    ∃ s next, run (step oneResource tokenLifetimes sameCode)
        (.initial .empty (empty.insertRefreshToken issuedToken))
        [.consume 1 clientAnswers 8 ⟨1, [], .ok [], str "t2", 2⟩] = some s ∧
      step oneResource tokenLifetimes sameCode s (.revoke 1 1) = some next ∧
      issuedToken.live = true ∧
      ∀ later last, Throughout (step oneResource tokenLifetimes sameCode) FreshFamily next later →
        run (step oneResource tokenLifetimes sameCode) next later = some last →
          CodeRevoked (codeStorageKey (str "code")) last := by
  have fresh : Throughout (step oneResource tokenLifetimes sameCode) FreshFamily
      (.initial .empty (empty.insertRefreshToken issuedToken))
      [.consume 1 clientAnswers 8 ⟨1, [], .ok [], str "t2", 2⟩] := by
    refine ⟨⟨fun key t here => ?_, nofun⟩, fun _ _ => trivial⟩
    obtain ⟨-, rfl⟩ | ⟨-, ⟨⟩⟩ := GoMap.of_lookup_insert here
    decide
  have ran : run (step oneResource tokenLifetimes sameCode)
      (.initial .empty (empty.insertRefreshToken issuedToken))
      [.consume 1 clientAnswers 8 ⟨1, [], .ok [], str "t2", 2⟩] =
        some ⟨.empty, empty.insertRefreshToken issuedToken,
          update (fun _ => .ready) 1 .replaying⟩ := rfl
  refine ⟨_, _, ran, rfl, rfl, ?_⟩
  refine ((replay_revokes_code_tokens_iff oneResource tokenLifetimes sameCode _ _ _ _
    fresh ran).2 1 1 _ rfl).mpr ?_
  intro q _ here
  have old := of_update here nofun
  obtain ⟨_, ⟨⟩⟩ | ⟨_, ready⟩ :=
    update_cases (show update (fun _ => Phase.ready) 1 .replaying q = _ from old)
  cases ready

end TheAuth.Server.CodeReplay
