import Mathlib.Logic.Relation
import TheAuth.Server.AgentTokens
import TheAuth.Server.AuthorizationDetails
import TheAuth.Server.CodeReplay
import TheAuth.Server.Consent
import TheAuth.Server.RefreshReuse

/-!
# The tokens of one authorization

A user authorizes a client (`Issue`), the client exchanges the code (`Exchanged`) and refreshes pair
after pair (`Refreshes`). Every step computes the grant of the next pair from what the one before
has stored.
-/

set_option autoImplicit false

namespace TheAuth.Server.GrantFamilies

open Go Store Agents Library.Result Rar JsonFloat Time StdLib Prod
open Server.CodeReplay (mintInput mintFromCode mintFromCode_eq_ok)

structure GrantServer where
  issuer : Bytes
  authorize : AuthorizeConfig
  tokens : Config
  maxGrantTTL : Int
  rar : Option RARConfig

/-- What it was checked to, and what the user has consented to. -/
structure Issue where
  answers : AuthorizeAnswers
  consent : ConsentAnswers
  resume : Option ConsentDecision
  request : AuthorizeRequest
  user : User
  context : AuthContext
  checked : Checked
  scope : List Bytes
  expiry : Time

section

variable [StdLib] [UrlLib] [JsonFloat] (srv : GrantServer)

/-- The answer is that of the parser. -/
def ParsesDetails (a : AuthorizeAnswers) : Prop :=
  ∀ client raw encoded, a.parseAuthorizationDetails client raw = .ok encoded →
    ∃ clientTypes list, parseAuthorizationDetails srv.rar clientTypes raw = .ok (list, encoded)

namespace Issue

variable (i : Issue)

def row : AuthorizationCode :=
  authorizationCode srv.authorize i.answers i.request i.checked i.user i.context i.scope i.expiry

def code : Bytes := withGrantExpiry i.answers.newToken i.expiry

/-- The row and the code are made by the endpoint. -/
structure Made : Prop where
  details : ParsesDetails srv i.answers
  checked : checkAuthorize srv.authorize i.answers i.request = .ok i.checked
  granted : (if srv.authorize.consentHandler then
      consentStep srv.maxGrantTTL i.resume i.consent i.request i.checked.client i.user
        i.checked.scope
    else .ok (.granted i.checked.scope 0)) = .ok (.granted i.scope i.expiry)

end Issue

end

/-- What it was minted for, the key of its code, and what came from elsewhere. -/
structure Pair where
  input : MintInput
  authCodeHash : Bytes
  answers : MintAnswers

structure PairClaims [JsonFloat] extends Claims where
  authTime : Int
  acr : Bytes
  amr : List Bytes
  authorizationDetails : Option (List Value)

namespace Pair

variable [UlidText] [JsonFloat] (srv : GrantServer) (p : Pair)

def row : RefreshToken :=
  { srv.tokens.successor p.input p.answers with authCodeHash := p.authCodeHash }

def text : Bytes := withGrantExpiry p.answers.token p.input.grantExpiry

def accessExp : Time := capExpiry (p.answers.now + srv.tokens.accessTokenTTL) p.input.grantExpiry

def claims : Except RarError PairClaims := do
  let details ← authorizationDetailsClaim p.input.authorizationDetails
  return {
    iss := srv.issuer
    sub := (p.input.userID.map UlidText.string).getD []
    aud := p.input.resource
    exp := (p.accessExp srv).toUnix
    iat := p.answers.now.toUnix
    jti := p.answers.jti
    clientID := p.input.clientID
    scope := scopeJoin p.input.scope
    extra := { cnfJKT := p.input.dpopJKT }
    authTime := if p.input.authTime.isZero then 0 else p.input.authTime.toUnix
    acr := p.input.acr
    amr := p.input.amr
    authorizationDetails := details }

end Pair

/-! ## Families -/

section

variable [StdLib] [UrlLib] [JsonFloat] (srv : GrantServer)

/-- The code is still stored, and the client presents it. -/
inductive Exchanged (i : Issue) : Pair → Prop
  | exchange {codes next : GrantStore} {req : CodeRequest} {a : ExchangeAnswers} {g : CodeGrant}
      {family : ULID} {m : MintAnswers} {t : RefreshToken}
      (stored : codes.authzCodes.lookup (codeStorageKey i.code) = some (i.row srv))
      (presented : req.code = i.code)
      (narrows : ∀ client raw granted details, a.narrowDetails client raw granted = .ok details →
        ∃ clientTypes, narrowAuthorizationDetails srv.rar clientTypes raw granted = .ok details)
      (done : exchangeAuthorizationCode srv.authorize a codes req = (.ok g, next))
      (minted : mintFromCode srv.tokens g family m = .ok t) :
      Exchanged i ⟨mintInput g family, g.authCodeHash, m⟩

/-- The row is stored and not revoked, and the client presents the token. -/
inductive Refreshes (p : Pair) : Pair → Prop
  | refresh {tokens : RefreshStore} {req : TokenRequest} {a : LookupAnswers} {input : MintInput}
      {m : MintAnswers} {t : RefreshToken}
      (stored : tokens.refreshTokenByHash (hashToken p.text) = some (p.row srv))
      (presented : req.refreshToken = p.text)
      (narrows : ∀ details, a.details = .ok details →
        ∃ clientTypes, narrowAuthorizationDetails srv.rar clientTypes req.authorizationDetails
          p.input.authorizationDetails = .ok details)
      (rotates : afterLookup srv.tokens tokens req a = .rotating input)
      (minted : afterRevoke srv.tokens input m = .inserting t) :
      Refreshes p ⟨input, [], m⟩

end

variable {cfg : Config}

theorem narrowRefreshScopes_subset {requested granted scope : List Bytes}
    (done : cfg.narrowRefreshScopes requested granted = .ok scope) : scope ⊆ granted := by
  unfold Config.narrowRefreshScopes at done
  split at done
  · cases done
    exact List.Subset.refl _
  split at done
  next all =>
    cases done
    exact fun word asked => by simpa using List.all_eq_true.mp all word asked
  split at done
  · cases done
  dsimp only at done
  split at done <;> cases done
  exact fun word kept => by simpa using (List.mem_filter.mp kept).2

/-- The checks that a refresh has passed. -/
structure RefreshChecked (cfg : Config) (req : TokenRequest) (a : LookupAnswers)
    (rt : RefreshToken) (n : Narrowed) : Prop where
  scope : cfg.narrowRefreshScopes req.scope rt.scope = .ok n.scope
  jkt : rt.dpopJKT ≠ [] → n.jkt = rt.dpopJKT
  details : req.authorizationDetails = [] ∧ n.details = rt.authorizationDetails ∨
    a.details = .ok n.details

variable {a : LookupAnswers} {n : Narrowed} {req : TokenRequest} {rt : RefreshToken}
  {input : MintInput} {store : RefreshStore} {codes : GrantStore} {g : CodeGrant}

theorem refreshChecked_of_checkRefresh (done : cfg.checkRefresh req a rt = .ok n) :
    RefreshChecked cfg req a rt n := by
  unfold Config.checkRefresh at done
  by_cases expired : rt.expiresAt ≤ a.now
  · rw [if_pos expired] at done
    cases done
  by_cases other : req.resource ≠ [] ∧ !cfg.resourceMatchesGrant req.resource rt.resource
  · simp only [if_neg expired, if_pos other] at done
    cases done
  simp only [if_neg expired, if_neg other] at done
  obtain ⟨scope, narrowed, done⟩ := of_bind done
  obtain ⟨jkt, -, done⟩ := of_bind done
  have bound : rt.dpopJKT ≠ [] → jkt = rt.dpopJKT := by
    intro bound
    by_contra differs
    rw [if_pos bound] at done
    split at done <;> cases done
  -- past the check of the key only the details are left
  have rest : (if req.authorizationDetails = [] then do
        let details ← Except.ok rt.authorizationDetails
        pure (Narrowed.mk scope jkt details)
      else do
        let details ← a.details
        pure (Narrowed.mk scope jkt details)) = Except.ok n := by
    split at done
    next present =>
      rwa [if_neg fun absent => present ((bound present).symm.trans absent),
        if_neg (not_not.mpr (bound present))] at done
    · exact done
  split at rest
  next kept =>
    cases rest
    exact ⟨narrowed, bound, .inl ⟨kept, rfl⟩⟩
  obtain ⟨_, asked, rest⟩ := of_bind rest
  cases rest
  exact ⟨narrowed, bound, .inr asked⟩

theorem afterLookup_eq_rotating [StdLib] (rotates : afterLookup cfg store req a = .rotating input) :
    ∃ client rt n, store.refreshTokenByHash (hashToken req.refreshToken) = some rt ∧
      cfg.checkRefresh req a rt = .ok n ∧ input = rt.mintInput client req.refreshToken n := by
  unfold afterLookup at rotates
  split at rotates
  · cases rotates
  rename_i client _
  split at rotates
  · cases rotates
  split at rotates
  · cases rotates
  rename_i rt found
  split at rotates
  · cases rotates
  split at rotates
  · cases rotates
  split at rotates <;> cases rotates
  rename_i n checked
  exact ⟨client, rt, n, found, checked, rfl⟩

theorem checkAuthorize_eq_ok [UrlLib] {cfg : AuthorizeConfig} {a : AuthorizeAnswers}
    {req : AuthorizeRequest} {checked : Checked} (done : checkAuthorize cfg a req = .ok checked) :
    ∃ resource,
      cfg.resources.resolveResource req.resource = some (resource, checked.audience) ∧
        cfg.narrowScopes req.scope resource checked.client = .ok checked.scope ∧
          a.parseAuthorizationDetails checked.client req.authorizationDetails =
            .ok checked.details := by
  iterate 4 obtain ⟨-, done⟩ := of_refuseIf done
  obtain ⟨⟨resource, _⟩, resolved, done⟩ := of_bind done
  obtain ⟨_, -, done⟩ := of_bind done
  obtain ⟨-, done⟩ := of_refuseIf done
  obtain ⟨_, narrowed, done⟩ := of_bind done
  obtain ⟨_, parsed, done⟩ := of_bind done
  cases done
  exact ⟨resource, orRefuse_eq_ok.mp resolved, narrowed, mapError_eq_ok.mp parsed⟩

theorem exchangeAuthorizationCode_eq_ok [StdLib] [UrlLib] {cfg : AuthorizeConfig}
    {a : ExchangeAnswers} {next : GrantStore} {req : CodeRequest}
    (done : exchangeAuthorizationCode cfg a codes req = (.ok g, next)) :
    ∃ client row, codes.authzCodes.lookup (codeStorageKey req.code) = some row ∧
      Redeemed cfg a client req row g := by
  unfold exchangeAuthorizationCode at done
  split at done
  · cases done
  rename_i client _
  split at done
  · cases done
  split at done
  · cases done
  rename_i row _ consumed
  obtain ⟨redeemed, rfl⟩ := mk.inj done
  obtain ⟨_, found, same⟩ := Option.map_eq_some_iff.mp consumed
  cases same
  exact ⟨client, row, found, redeemed_of_redeemCode cfg a redeemed⟩

theorem capExpiry_le {expiry grantExpiry : Time} (limited : grantExpiry ≠ 0) :
    capExpiry expiry grantExpiry ≤ grantExpiry := by
  unfold capExpiry
  split
  · exact Int.le_refl _
  rename_i keeps
  have present : grantExpiry.isZero = false := beq_false_of_ne limited
  rw [present, Bool.not_false, Bool.true_and, decide_eq_true_eq] at keeps
  exact Int.not_lt.mp keeps

theorem unix_toUnix_le (t : Time) : unix t.toUnix ≤ t := by
  unfold unix toUnix
  rw [Int.sub_add_cancel]
  exact Int.ediv_mul_le _ (by decide)

/-! ## Narrowing -/

section

variable [JsonFloat] {srv : GrantServer} {i : Issue} {p q r : Pair}

/-- It stays bound to its key. -/
structure Narrower (srv : GrantServer) (p q : Pair) : Prop where
  familyID : q.input.familyID = p.input.familyID
  scope : q.input.scope ⊆ p.input.scope
  resource : q.input.resource = p.input.resource
  userID : q.input.userID = p.input.userID
  authTime : q.input.authTime = p.input.authTime
  acr : q.input.acr = p.input.acr
  amr : q.input.amr = p.input.amr
  dpopJKT : p.input.dpopJKT ≠ [] → q.input.dpopJKT = p.input.dpopJKT
  details : DetailsWithin srv.rar q.input.authorizationDetails p.input.authorizationDetails

/-- The pair is for what the row grants. -/
structure OfGrant (srv : GrantServer) (i : Issue) (p : Pair) : Prop where
  scope : p.input.scope ⊆ (i.row srv).scope
  resource : p.input.resource = (i.row srv).resource
  userID : p.input.userID = some (i.row srv).userID
  authTime : p.input.authTime = (i.row srv).authTime
  acr : p.input.acr = (i.row srv).acr
  amr : p.input.amr = (i.row srv).amr
  details : DetailsWithin srv.rar p.input.authorizationDetails (i.row srv).authorizationDetails
  grantExpiry : i.expiry ≠ 0 → p.input.grantExpiry = i.expiry

theorem Narrower.trans (first : Narrower srv p q) (second : Narrower srv q r) :
    Narrower srv p r where
  familyID := second.familyID.trans first.familyID
  scope := List.Subset.trans second.scope first.scope
  resource := second.resource.trans first.resource
  userID := second.userID.trans first.userID
  authTime := second.authTime.trans first.authTime
  acr := second.acr.trans first.acr
  amr := second.amr.trans first.amr
  dpopJKT := by
    intro bound
    have kept := first.dpopJKT bound
    exact (second.dpopJKT (kept ▸ bound)).trans kept
  details := second.details.trans first.details

theorem OfGrant.narrower_self (ofGrant : OfGrant srv i p) : Narrower srv p p := by
  obtain ⟨_, -, written, -⟩ := ofGrant.details
  exact ⟨rfl, List.Subset.refl _, rfl, rfl, rfl, rfl, rfl, fun _ => rfl, written.within⟩

/-- The refresh token keeps to the row. -/
structure RowWithin (srv : GrantServer) (i : Issue) (rt : RefreshToken) : Prop where
  scope : rt.scope ⊆ (i.row srv).scope
  resource : rt.resource = (i.row srv).resource
  subject : rt.userID = some (i.row srv).userID
  authTime : rt.authTime = (i.row srv).authTime
  acr : rt.acr = (i.row srv).acr
  amr : rt.amr = (i.row srv).amr
  details : DetailsWithin srv.rar rt.authorizationDetails (i.row srv).authorizationDetails
  expiry : i.expiry ≠ 0 → rt.expiresAt ≤ i.expiry

/-- The claims keep to the row. -/
structure ClaimsWithin [UlidText] (srv : GrantServer) (i : Issue) (p : Pair)
    (claims : PairClaims) : Prop where
  scope : claims.scope = scopeJoin p.input.scope
  resource : claims.aud = (i.row srv).resource
  subject : claims.sub = UlidText.string (i.row srv).userID
  authTime : claims.authTime =
    if (i.row srv).authTime.isZero then 0 else (i.row srv).authTime.toUnix
  acr : claims.acr = (i.row srv).acr
  amr : claims.amr = (i.row srv).amr
  dpopJKT : claims.extra.cnfJKT = p.input.dpopJKT
  details : ∀ values, claims.authorizationDetails = some values →
    ∃ list grants, toAny list = .ok values ∧
      WrittenFor srv.rar (i.row srv).authorizationDetails grants ∧
        ∀ d ∈ list, ∃ g ∈ grants, Covered d g
  expiry : i.expiry ≠ 0 → Time.unix claims.exp ≤ i.expiry

theorem OfGrant.rowWithin (ofGrant : OfGrant srv i p) : RowWithin srv i (p.row srv) where
  scope := ofGrant.scope
  resource := ofGrant.resource
  subject := ofGrant.userID
  authTime := ofGrant.authTime
  acr := ofGrant.acr
  amr := ofGrant.amr
  details := ofGrant.details
  expiry := by
    intro limited
    have cap := ofGrant.grantExpiry limited
    exact cap ▸ capExpiry_le (cap ▸ limited)

theorem OfGrant.claimsWithin [UlidText] (ofGrant : OfGrant srv i p) {claims : PairClaims}
    (made : p.claims srv = .ok claims) : ClaimsWithin srv i p claims := by
  obtain ⟨details, claimed, made⟩ := of_bind made
  cases made
  exact {
    scope := rfl
    resource := ofGrant.resource
    subject := by rw [ofGrant.userID]; rfl
    authTime := by rw [ofGrant.authTime]
    acr := ofGrant.acr
    amr := ofGrant.amr
    dpopJKT := rfl
    details := by
      rintro _ rfl
      exact ofGrant.details.claim claimed
    expiry := by
      intro limited
      have cap := ofGrant.grantExpiry limited
      exact Int.le_trans (unix_toUnix_le _) (cap ▸ capExpiry_le (cap ▸ limited)) }

end

section

variable [StdLib] [JsonFloat] {srv : GrantServer} {i : Issue} {p q : Pair}

theorem Refreshes.exists_checked (refreshed : Refreshes srv p q) :
    ∃ req a client n, RefreshChecked srv.tokens req a (p.row srv) n ∧
      q.input = (p.row srv).mintInput client p.text n ∧
        ∀ details, a.details = .ok details → ∃ clientTypes,
          narrowAuthorizationDetails srv.rar clientTypes req.authorizationDetails
            p.input.authorizationDetails = .ok details := by
  obtain ⟨stored, presented, narrows, rotates, -⟩ := refreshed
  obtain ⟨client, _, n, found, checked, rfl⟩ := afterLookup_eq_rotating rotates
  rw [presented, stored] at found
  cases found
  refine ⟨_, _, client, n, refreshChecked_of_checkRefresh checked, ?_, narrows⟩
  rw [presented]

theorem OfGrant.narrower_of_refreshes (ofGrant : OfGrant srv i p) (refreshed : Refreshes srv p q) :
    Narrower srv p q ∧ q.input.grantExpiry = splitGrantExpiry p.text := by
  obtain ⟨_, _, _, n, checks, input, narrows⟩ := refreshed.exists_checked
  obtain ⟨_, -, written, -⟩ := ofGrant.details
  have details : DetailsWithin srv.rar n.details p.input.authorizationDetails := by
    rcases checks.details with ⟨-, kept⟩ | asked
    · rw [kept]
      exact written.within
    · obtain ⟨_, narrowed⟩ := narrows _ asked
      exact within_of_narrow written narrowed
  rw [input]
  refine ⟨?_, rfl⟩
  constructor <;> rw [input]
  · rfl
  · exact narrowRefreshScopes_subset checks.scope
  · rfl
  · rfl
  · rfl
  · rfl
  · rfl
  · exact checks.jkt
  · exact details

section

variable (carries : i.expiry ≠ 0 → ∀ tok,
  splitGrantExpiry (withGrantExpiry tok i.expiry) = i.expiry)
include carries

theorem OfGrant.refresh
    (ofGrant : OfGrant srv i p) (refreshed : Refreshes srv p q) : OfGrant srv i q := by
  obtain ⟨narrower, expiry⟩ := ofGrant.narrower_of_refreshes refreshed
  exact {
    scope := List.Subset.trans narrower.scope ofGrant.scope
    resource := narrower.resource.trans ofGrant.resource
    userID := narrower.userID.trans ofGrant.userID
    authTime := narrower.authTime.trans ofGrant.authTime
    acr := narrower.acr.trans ofGrant.acr
    amr := narrower.amr.trans ofGrant.amr
    details := narrower.details.trans ofGrant.details
    grantExpiry := by
      intro limited
      rw [expiry, Pair.text, ofGrant.grantExpiry limited]
      exact carries limited _ }

theorem OfGrant.refreshes
    (ofGrant : OfGrant srv i p) (later : Relation.ReflTransGen (Refreshes srv) p q) :
    OfGrant srv i q ∧ Narrower srv p q := by
  induction later with
  | refl => exact ⟨ofGrant, ofGrant.narrower_self⟩
  | tail _ refreshed ih =>
    obtain ⟨before, narrower⟩ := ih
    exact ⟨before.refresh carries refreshed,
      narrower.trans (before.narrower_of_refreshes refreshed).1⟩

end

variable [UrlLib]

omit [StdLib] in
theorem Issue.Made.consented (made : i.Made srv) :
    i.scope ⊆ i.checked.scope ∧ UsableExpiry i.consent.now i.expiry := by
  have granted := made.granted
  split at granted
  · exact granted_of_consentStep granted
  obtain ⟨scope, expiry⟩ := ConsentOutcome.granted.inj (Except.ok.inj granted)
  exact ⟨scope ▸ List.Subset.refl _, .inl expiry.symm⟩

theorem Issue.Made.carries (made : i.Made srv) (reads : ReadsDecimals)
    (clock : unix 0 ≤ i.consent.now) (fits : i.expiry.toUnix < 2 ^ 63)
    (limited : i.expiry ≠ 0) (tok : Bytes) :
    splitGrantExpiry (withGrantExpiry tok i.expiry) = i.expiry := by
  obtain ⟨later, whole⟩ := made.consented.2.resolve_left limited
  have positive : 0 < i.expiry.toUnix := by
    by_contra nonpositive
    have before := unix_le_unix (Int.not_lt.mp nonpositive)
    rw [whole] at before
    exact absurd (Int.lt_of_le_of_lt clock later) (Int.not_lt.mpr before)
  exact splitGrantExpiry_withGrantExpiry reads tok whole positive fits

theorem Exchanged.exists_redeemed (exchanged : Exchanged srv i p) :
    ∃ a client req g family, Redeemed srv.authorize a client req (i.row srv) g ∧
      p.input = mintInput g family ∧ req.code = i.code ∧
        ∀ client raw granted details, a.narrowDetails client raw granted = .ok details →
          ∃ clientTypes,
            narrowAuthorizationDetails srv.rar clientTypes raw granted = .ok details := by
  obtain ⟨stored, presented, narrows, done, -⟩ := exchanged
  obtain ⟨client, _, found, redeemed⟩ := exchangeAuthorizationCode_eq_ok done
  rw [presented, stored] at found
  cases found
  exact ⟨_, client, _, _, _, redeemed, rfl, presented, narrows⟩

theorem Redeemed.resource_eq {a : ExchangeAnswers} {client : OAuthClient} {req : CodeRequest}
    {g : CodeGrant} (made : i.Made srv)
    (redeemed : Redeemed srv.authorize a client req (i.row srv) g) :
    g.resource = i.checked.audience := by
  obtain ⟨_, resolved, -⟩ := checkAuthorize_eq_ok made.checked
  obtain ⟨_, again⟩ := redeemed.resource
  obtain ⟨_, _, same⟩ := ResourceConfig.resolveResource_eq_some resolved
  exact (mk.inj (Option.some.inj (again.symm.trans same))).2

theorem ofGrant_of_exchanged (made : i.Made srv)
    (carries : i.expiry ≠ 0 → ∀ tok, splitGrantExpiry (withGrantExpiry tok i.expiry) = i.expiry)
    (exchanged : Exchanged srv i p) : OfGrant srv i p := by
  obtain ⟨_, _, _, _, _, redeemed, input, presented, narrows⟩ := exchanged.exists_redeemed
  obtain ⟨_, -, -, parsed⟩ := checkAuthorize_eq_ok made.checked
  obtain ⟨_, _, read⟩ := made.details _ _ _ parsed
  obtain ⟨_, narrowed⟩ := narrows _ _ _ _ redeemed.details
  constructor <;> rw [input]
  · exact redeemed.scope ▸ List.Subset.refl _
  · exact Redeemed.resource_eq made redeemed
  · exact congrArg some redeemed.userID
  · exact redeemed.authTime
  · exact redeemed.acr
  · exact redeemed.amr
  · exact within_of_narrow (writtenFor_of_parse read) narrowed
  · intro limited
    exact redeemed.grantExpiry.trans (presented ▸ carries limited _)

/-- **Refreshing stays within the user's consent.** -/
theorem family_within_consent [UlidText] (srv : GrantServer) (reads : ReadsDecimals) (i : Issue)
    (made : i.Made srv) (clock : unix 0 ≤ i.consent.now) (fits : i.expiry.toUnix < 2 ^ 63)
    (first p q : Pair) (exchanged : Exchanged srv i first)
    (earlier : Relation.ReflTransGen (Refreshes srv) first p)
    (later : Relation.ReflTransGen (Refreshes srv) p q) :
    Narrower srv p q ∧ RowWithin srv i (q.row srv) ∧
      ∀ claims, q.claims srv = .ok claims → ClaimsWithin srv i q claims := by
  have carries := made.carries reads clock fits
  have start := ofGrant_of_exchanged made carries exchanged
  obtain ⟨before, -⟩ := start.refreshes carries earlier
  obtain ⟨after, narrower⟩ := before.refreshes carries later
  exact ⟨narrower, after.rowWithin, fun _ claimed => after.claimsWithin claimed⟩

end

/-! ## A consent for ten minutes -/

def consentServer : GrantServer where
  issuer := str "https://as"
  authorize :=
    { resources := ⟨[⟨str "https://api", []⟩], false, false⟩
      consentHandler := true
      authorizationCodeTTL := Time.nsPerMinute }
  tokens := ⟨60 * Time.nsPerMinute, 1440 * Time.nsPerMinute, false, false, fun _ => none⟩
  maxGrantTTL := 0
  rar := none

def app : OAuthClient := { clientID := str "app", redirectURIs := [str "https://app/cb"] }

def tenMinutes : Issue where
  answers :=
    { now := Time.unix 1000
      resolveClient := fun _ => some app
      parseAuthorizationDetails := fun _ raw => if raw = [] then .ok [] else .error []
      newToken := str "code" }
  consent :=
    { now := Time.unix 1000
      consentHandler := fun _ _ _ _ => .ok
        { action := .approve, grantedScopes := [str "read"], expiresAt := Time.unix 1600 } }
  resume := none
  request :=
    { clientID := str "app"
      redirectURI := str "https://app/cb"
      responseType := str "code"
      scope := [str "read", str "write"]
      codeChallenge := codeChallenge (str "verifier")
      codeChallengeMethod := str "S256"
      resource := str "https://api" }
  user := ⟨3, []⟩
  context := {}
  checked := ⟨app, [str "read", str "write"], str "https://api", []⟩
  scope := [str "read"]
  expiry := Time.unix 1600

attribute [local instance] decimal UrlLib.refusing bits UlidText.unary

theorem tenMinutes_made :
    tenMinutes.Made consentServer := by
  refine ⟨?_, ?_, by rfl⟩
  · intro client raw encoded parsed
    dsimp only [tenMinutes] at parsed
    split at parsed <;> cases parsed
    rename_i empty
    exact ⟨none, [], by rw [empty]; rfl⟩
  · have challenged : codeChallenge (str "verifier") ≠ [] := by decide +kernel
    refine refuseIf_bind_eq_ok.mpr ⟨by decide, refuseIf_bind_eq_ok.mpr ⟨by decide, ?_⟩⟩
    refine refuseIf_bind_eq_ok.mpr ⟨?_, by rfl⟩
    exact fun missing => missing.elim challenged fun other => other rfl

def firstPair [StdLib] : Pair where
  input :=
    { clientID := str "app"
      userID := some 3
      scope := [str "read"]
      resource := str "https://api"
      familyID := 7
      dpopJKT := []
      grantExpiry := splitGrantExpiry tenMinutes.code
      authorizationDetails := []
      authTime := 0
      acr := []
      amr := [] }
  authCodeHash := codeStorageKey tenMinutes.code
  answers := ⟨Time.unix 1001, str "j1", .ok [], str "r1", 1⟩

abbrev exchangeRequest : CodeRequest := ⟨tenMinutes.code, str "verifier", str "https://app/cb", []⟩

def exchangeAnswers : ExchangeAnswers where
  now := Time.unix 1001
  client := .ok app
  narrowDetails := fun _ raw granted => if raw = [] then .ok granted else .error .invalidRequest

def codeGrant [StdLib] : CodeGrant where
  clientID := str "app"
  userID := 3
  scope := [str "read"]
  resource := str "https://api"
  dpopJKT := []
  authorizationDetails := []
  authCodeHash := codeStorageKey tenMinutes.code
  grantExpiry := splitGrantExpiry tenMinutes.code
  authTime := 0
  acr := []
  amr := []
  nonce := []

theorem firstPair_exchanged :
    Exchanged consentServer tenMinutes firstPair := by
  have done : (exchangeAuthorizationCode consentServer.authorize exchangeAnswers
      (GrantStore.empty.insertAuthorizationCode (tenMinutes.row consentServer) (unix 1000))
      exchangeRequest).1 = .ok codeGrant := by decide +kernel
  have minted : mintFromCode consentServer.tokens codeGrant 7 firstPair.answers =
      .ok (firstPair.row consentServer) := by decide +kernel
  have answered := (eta _).symm.trans (congrArg (mk · _) done)
  refine .exchange (AList.lookup_insert _) rfl ?_ answered minted
  intro client raw granted details narrowed
  dsimp only [exchangeAnswers] at narrowed
  split at narrowed <;> cases narrowed
  rename_i empty
  exact ⟨none, by rw [narrowAuthorizationDetails, if_pos empty]⟩

def secondPair [StdLib] : Pair where
  input := (firstPair.row consentServer).mintInput (str "app") firstPair.text ⟨[str "read"], [], []⟩
  authCodeHash := []
  answers := ⟨Time.unix 1300, str "j2", .ok [], str "r2", 2⟩

abbrev refreshRequest [StdLib] : TokenRequest := { refreshToken := firstPair.text }

def refreshAnswers : LookupAnswers where
  client := .ok (str "app")
  now := Time.unix 1300

theorem secondPair_refreshes :
    Refreshes consentServer firstPair secondPair := by
  have stored : (RefreshStore.empty.insertRefreshToken
      (firstPair.row consentServer)).refreshTokenByHash (hashToken firstPair.text) =
        some (firstPair.row consentServer) := by
    rw [RefreshStore.refreshTokenByHash_eq]
    exact AList.lookup_insert _
  have rotates : afterLookup consentServer.tokens (RefreshStore.empty.insertRefreshToken
      (firstPair.row consentServer)) refreshRequest refreshAnswers =
        .rotating secondPair.input := by decide +kernel
  have minted : afterRevoke consentServer.tokens secondPair.input secondPair.answers =
      .inserting (secondPair.row consentServer) := by decide +kernel
  refine .refresh stored rfl ?_ rotates minted
  intro _ kept
  cases kept
  exact ⟨none, rfl⟩

/-- The refreshed tokens end with the consent, long before the hour is over. -/
theorem refreshed_tokens_end_with_consent :
    Exchanged consentServer tenMinutes firstPair ∧ Refreshes consentServer firstPair secondPair ∧
      Narrower consentServer firstPair secondPair ∧
        (secondPair.row consentServer).expiresAt ≤ unix 1600 ∧
          ∀ claims, secondPair.claims consentServer = .ok claims → unix claims.exp ≤ unix 1600 := by
  obtain ⟨narrower, row, claims⟩ := family_within_consent consentServer readsDecimals_decimal
    tenMinutes tenMinutes_made (by decide) (by decide) firstPair firstPair secondPair
    firstPair_exchanged .refl (.single secondPair_refreshes)
  exact ⟨firstPair_exchanged, secondPair_refreshes, narrower, row.expiry (by decide),
    fun c made => (claims c made).expiry (by decide)⟩

end TheAuth.Server.GrantFamilies
