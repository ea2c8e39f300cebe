import TheAuth.Library.Texts
import TheAuth.Server.Assertions
import TheAuth.Server.Backchannel
import TheAuth.Server.DelegationHistory
import TheAuth.Server.DeviceHistory
import TheAuth.Server.GrantFamilies

/-!
# Scopes and the catalog of a resource

Every grant compares scopes with the list of the resource at a place of its own. `Minted` are the
access tokens of every grant. Plain assertions and backchannel authentication do not look at the
catalog, and the scopes of OpenID Connect are not in it.
-/

set_option autoImplicit false

namespace TheAuth.Server.ScopeCatalog

open Go Store Agents Library.Result Library.Run List UlidText ResourceConfig Option Prod
open Library.Texts Server.GrantFamilies Server.DeviceRuns
open Server.Backchannel

/-- The scopes are in the catalog of the resource, or allowed beside it. -/
def Within (allowed : Bytes → Prop) (target : ProtectedResource) (scopes : List Bytes) : Prop :=
  target.scopes ≠ [] → ∀ scope ∈ scopes, scope ∈ target.scopes ∨ allowed scope

section

variable {allowed : Bytes → Prop} {target : ProtectedResource}

theorem Within.mono {scopes fewer : List Bytes} (within : Within allowed target scopes)
    (subset : fewer ⊆ scopes) : Within allowed target fewer :=
  fun listed scope inside => within listed scope (subset inside)

variable {scopes : List Bytes}

variable {requested : List Bytes} {req : GrantRequest}

theorem within_of_validate (done : validateScopeAgainstResource requested target = .ok scopes) :
    Within allowed target scopes := by
  unfold validateScopeAgainstResource at done
  split_ifs at done with _ checked
  cases done
  intro listed
  have all := checked.resolve_left listed
  exact fun scope inside => .inl (by simpa using all_eq_true.mp all scope inside)

variable {client : OAuthClient}

theorem within_of_narrowResourceScopes {cfg : AuthorizeConfig}
    (done : cfg.narrowResourceScopes requested target client = .ok scopes) :
    Within allowed target scopes := by
  unfold AuthorizeConfig.narrowResourceScopes at done
  split at done
  · exact within_of_validate done
  dsimp only at done
  split at done <;> cases done
  intro listed _ inside
  have known := (Bool.and_eq_true_iff.mp (mem_filter.mp inside).2).1
  unfold inScopeSet at known
  simp only [List.isEmpty_iff, Bool.or_eq_true, contains_iff_mem] at known
  exact .inl (known.resolve_left listed)

def OIDCScope (cfg : AuthorizeConfig) (scope : Bytes) : Prop :=
  cfg.oidc = true ∧ isOIDCScope scope = true

theorem within_of_narrowScopes {cfg : AuthorizeConfig}
    (done : cfg.narrowScopes requested target client = .ok scopes) :
    Within (OIDCScope cfg) target scopes := by
  unfold AuthorizeConfig.narrowScopes at done
  dsimp only at done
  split at done
  next enabled =>
    have standard : Within (OIDCScope cfg) target (requested.filter isOIDCScope) :=
      fun _ scope inside => .inr ⟨enabled.1, (mem_filter.mp inside).2⟩
    split at done
    · cases done
      exact standard
    cases rest : cfg.narrowResourceScopes (requested.filter fun scope => !isOIDCScope scope)
        target client with
    | error =>
      rw [rest] at done
      cases done
    | ok =>
      rw [rest] at done
      cases done
      intro listed scope inside
      rcases mem_append.mp inside with std | other
      · exact standard listed scope std
      · exact within_of_narrowResourceScopes rest listed scope other
  · exact within_of_narrowResourceScopes done

variable {cfg : TokenConfig}

variable {input : GrantDelegationInput}

end

/-! ## Delegations -/

section

variable [UlidText] {svc : DelegationService} {s : AgentState} {cfg : TokenConfig}

/-- A delegation that is found was vetted for the resource. -/
def MadeDelegations (svc : DelegationService) (s : AgentState) : Prop :=
  ∀ userID agentID resource g,
    s.delegations.delegationGrantByUserAgentResource userID agentID resource = some g →
      ∃ before input checked, svc.vetGrant before input checked = .ok () ∧
        input.resource = resource ∧ g.scope = input.scope

/-- The invariant behind `MadeDelegations`. -/
structure Vetted (svc : DelegationService) (s : AgentState) : Prop where
  checked : ∀ ⦃id g⦄, s.delegations.delegationGrantByID id = some g →
    ∃ before input checked, svc.vetGrant before input checked = .ok () ∧
      input.resource = g.resource ∧ g.scope = input.scope
  indexed : ∀ ⦃key id⦄, s.delegations.delegByTuple.lookup key = some id →
    ∃ g, s.delegations.delegationGrantByID id = some g ∧
      key = DelegationTables.delegationTupleKey g.userID g.agentID g.resource

theorem Vetted.grantDelegation {input : GrantDelegationInput} {a : GrantAnswers}
    (kept : Vetted svc s) (fresh : s.delegations.delegationGrantByID a.id = none) :
    Vetted svc (svc.grantDelegation s input a).2 := by
  unfold DelegationService.grantDelegation
  cases vetted : svc.vetGrant s input a.checked with
  | error => exact kept
  | ok =>
    cases stored : s.delegations.insertDelegationGrant (DelegationService.grantRow input a) with
    | none => exact kept
    | some =>
      have rows := DelegationTables.insertDelegationGrant_eq_some stored
      obtain ⟨-, written⟩ := ite_none_left_eq_some.mp stored
      constructor
      · intro id g here
        rw [rows] at here
        split at here
        · cases here
          exact ⟨s, input, a.checked, vetted, rfl, rfl⟩
        · exact kept.checked here
      · intro _ id found
        cases written
        obtain ⟨own, rfl⟩ | ⟨-, found⟩ := GoMap.of_lookup_insert found
        · exact ⟨_, (rows _).trans (if_pos rfl), own⟩
        obtain ⟨g, here, same⟩ := kept.indexed found
        have other : id ≠ a.id := by
          rintro rfl
          cases fresh.symm.trans here
        exact ⟨g, (rows _).trans ((if_neg other).trans here), same⟩

omit [UlidText] in
theorem delegByTuple_revokeDelegation (id : ULID) (now : Time) (reason : Bytes) :
    (svc.revokeDelegation s id now reason).2.delegations.delegByTuple =
      s.delegations.delegByTuple := by
  unfold DelegationService.revokeDelegation
  iterate 3
    split
    · rfl
  split
  next revoked =>
    unfold DelegationTables.revokeDelegationGrant at revoked
    split at revoked
    · cases revoked
    obtain ⟨-, written⟩ := ite_none_left_eq_some.mp revoked
    cases written
    rfl
  · split <;> rfl

theorem Vetted.revokeDelegation (kept : Vetted svc s) (id : ULID) (now : Time) (reason : Bytes) :
    Vetted svc (svc.revokeDelegation s id now reason).2 := by
  obtain same | ⟨_, here, rows⟩ := svc.revokeDelegation_cases s id now reason
  · rw [same]
    exact kept
  · constructor
    · intro other g stored
      rw [rows] at stored
      split at stored
      · cases stored
        have made := kept.checked here
        exact made
      · exact kept.checked stored
    · intro _ other found
      rw [delegByTuple_revokeDelegation] at found
      obtain ⟨g, stored, same⟩ := kept.indexed found
      by_cases own : other = id
      · subst own
        cases here.symm.trans stored
        exact ⟨_, (rows other).trans (if_pos rfl), same⟩
      · exact ⟨g, (rows other).trans ((if_neg own).trans stored), same⟩

theorem delegationTupleKey_resource (separated : ∀ id, 0x7C ∉ string id)
    {userID agentID userID' agentID' : ULID} {resource resource' : Bytes}
    (same : DelegationTables.delegationTupleKey userID agentID resource =
      DelegationTables.delegationTupleKey userID' agentID' resource') : resource = resource' := by
  simp only [DelegationTables.delegationTupleKey, append_assoc] at same
  obtain ⟨-, same⟩ := append_cons_inj (separated _) (separated _) same
  exact (append_cons_inj (separated _) (separated _) same).2

theorem Vetted.made (kept : Vetted svc s) (separated : ∀ id, 0x7C ∉ string id) :
    MadeDelegations svc s := by
  intro _ _ _ _ found
  obtain ⟨_, indexed, stored⟩ := bind_eq_some_iff.mp found
  obtain ⟨_, here, same⟩ := kept.indexed indexed
  cases here.symm.trans stored
  obtain ⟨before, input, checked, vetted, ofResource, ofScope⟩ := kept.checked stored
  exact ⟨before, input, checked, vetted,
    ofResource.trans (delegationTupleKey_resource separated same).symm, ofScope⟩

theorem Vetted.step [StdLib] [UrlLib] {s next : DelegationHistory.System}
    {op : DelegationHistory.Op} (kept : Vetted svc s.state) (fresh : DelegationHistory.Fresh s op)
    (taken : DelegationHistory.step svc cfg s op = some next) : Vetted svc next.state := by
  cases op with
  | grant =>
    cases taken
    exact kept.grantDelegation fresh
  | exchange =>
    simp only [DelegationHistory.step] at taken
    split at taken <;> cases taken <;> exact kept
  | revoke id now reason =>
    have after := kept.revokeDelegation id now reason
    simp only [DelegationHistory.step] at taken
    split at taken <;> rename_i done <;> cases taken <;> rwa [done] at after

/-- **Delegations stay vetted**, each for the resource under which it is found. -/
theorem madeDelegations_of_run [StdLib] [UrlLib] (separated : ∀ id, 0x7C ∉ string id)
    {agents : AgentStore} {ops : List DelegationHistory.Op} {last : DelegationHistory.System}
    (fresh : Throughout (DelegationHistory.step svc cfg) DelegationHistory.Fresh
      (.initial agents) ops)
    (ran : run (DelegationHistory.step svc cfg) (.initial agents) ops = some last) :
    MadeDelegations svc last.state := by
  have initially : Vetted svc ⟨agents, .empty⟩ := ⟨nofun, nofun⟩
  have kept : Vetted svc last.state :=
    @invariant_of_run_throughout _ _ _ _ _ _ (fun s => Vetted svc s.state)
      (fun kept fresh taken => kept.step fresh taken) _ initially fresh ran
  exact kept.made separated

end

/-! ## All grants -/

structure TokenServer where
  grants : GrantServer
  agents : TokenConfig
  devices : DeviceService
  delegations : DelegationService
  backchannel : BackchannelConfig
  agents_resources : agents.resources = grants.authorize.resources
  devices_resources : devices.resources = grants.authorize.resources
  delegations_resources : ∀ resources, delegations.resources = some resources →
    resources = grants.authorize.resources

def TokenServer.resources (srv : TokenServer) : ResourceConfig := srv.grants.authorize.resources

/-- The tokens of a refresh are of the grant that began their family. -/
inductive Grant where
  | authorizationCode | deviceCode | ciba | clientCredentials | tokenExchange | jwtBearer | idJAG
  | deviceAssertion

/-- Scopes that a grant may carry beside the catalog. -/
def Exempt (srv : TokenServer) : Grant → Bytes → Prop
  | .authorizationCode, scope => OIDCScope srv.grants.authorize scope
  | .ciba, _ => True
  | .jwtBearer, _ => True
  | _, _ => False

def deviceInput (g : DeviceGrant) (family : ULID) : MintInput where
  clientID := g.clientID
  userID := some g.userID
  scope := g.scope
  resource := g.resource
  familyID := family
  dpopJKT := g.dpopJKT
  grantExpiry := 0
  authorizationDetails := []
  authTime := 0
  acr := []
  amr := []

def cibaInput (resources : ResourceConfig) (row : BackchannelRequest) (userID family : ULID) :
    MintInput where
  clientID := row.clientID
  userID := some userID
  scope := row.scope
  resource := (resources.resources.head?.map ProtectedResource.identifier).getD []
  familyID := family
  dpopJKT := []
  grantExpiry := 0
  authorizationDetails := []
  authTime := 0
  acr := []
  amr := []

section

theorem checkDeviceStart_eq_ok {svc : DeviceService} {req : DeviceAuthRequest}
    {a : DeviceStartAnswers} {client : OAuthClient} {scope : List Bytes}
    {target : ProtectedResource} (allowed : Bytes → Prop)
    (done : checkDeviceStart svc req a = .ok (client, scope, target)) :
    target ∈ svc.resources.resources ∧ Within allowed target scope := by
  obtain ⟨_, -, done⟩ := of_bind done
  obtain ⟨-, done⟩ := of_refuseIf done
  obtain ⟨_, found, done⟩ := of_bind done
  obtain ⟨_, valid, done⟩ := of_bind done
  cases done
  refine ⟨?_, within_of_validate (mapError_eq_ok.mp valid)⟩
  have found := orRefuse_eq_ok.mp found
  unfold DeviceService.deviceResource at found
  split at found
  · split at found <;> cases found
    rename_i single
    rw [single]
    exact mem_singleton_self _
  · exact (names_of_resourceByIdentifier found).1

theorem pollDeviceToken_eq_ok {svc : DeviceService} {store next : GrantStore}
    {a : DevicePollAnswers} {deviceCode : Bytes} {d : DeviceAuthorization} {g : DeviceGrant}
    (found : findPolled svc store a deviceCode = .ok d)
    (polled : pollDeviceToken svc store a deviceCode = (.ok g, next)) :
    g.scope = d.scope ∧ g.resource = d.resource := by
  unfold pollDeviceToken at polled
  rw [found] at polled
  dsimp only at polled
  split at polled
  · cases polled
  split at polled
  · cases polled
  unfold redeemDevice at polled
  split at polled
  · cases polled
  · cases polled
  split at polled <;> cases polled
  exact ⟨rfl, rfl⟩

variable [StdLib] [UrlLib] [UlidText] [JsonFloat] (srv : TokenServer)

/-- The rows that a request reads are those that an earlier one has written. -/
inductive FamilyPair : Grant → ProtectedResource → Pair → Prop
  | code {i : Issue} {target : ProtectedResource} {p : Pair} (made : i.Made srv.grants)
      (resolved : srv.resources.resolveResource i.request.resource =
        some (target, i.checked.audience))
      (exchanged : Exchanged srv.grants i p) : FamilyPair .authorizationCode target p
  | device {req : DeviceAuthRequest} {start : DeviceStartAnswers} {client : OAuthClient}
      {scope : List Bytes} {target : ProtectedResource} {cfg : DeviceConfig}
      {store next : GrantStore} {a : DevicePollAnswers} {deviceCode : Bytes}
      {d : DeviceAuthorization} {g : DeviceGrant} {family : ULID} {m : MintAnswers}
      {t : RefreshToken}
      (started : checkDeviceStart srv.devices req start = .ok (client, scope, target))
      (found : findPolled srv.devices store a deviceCode = .ok d)
      (same : SameGrant (deviceRow srv.devices cfg start client scope target) d)
      (polled : pollDeviceToken srv.devices store a deviceCode = (.ok g, next))
      (minted : srv.grants.tokens.mintAccessAndRefresh (deviceInput g family) m = .ok t) :
      FamilyPair .deviceCode target ⟨deviceInput g family, [], m⟩
  | ciba {store next : BackchannelStore} {req : BackchannelAuthRequest} {start : StartAnswers}
      {resp : BackchannelAuthResponse} {row : BackchannelRequest} {userID family : ULID}
      {m : MintAnswers} {t : RefreshToken} {target : ProtectedResource}
      (started : backchannelAuthenticate srv.backchannel store req start = (.ok resp, next))
      (stored : next.backchannelRequestByID resp.authReqID = some row)
      (first : srv.resources.resources.head? = some target)
      (minted : srv.grants.tokens.mintAccessAndRefresh
        (cibaInput srv.resources row userID family) m = .ok t) :
      FamilyPair .ciba target ⟨cibaInput srv.resources row userID family, [], m⟩
  | refresh {grant : Grant} {target : ProtectedResource} {p q : Pair}
      (before : FamilyPair grant target p) (refreshed : Refreshes srv.grants p q) :
      FamilyPair grant target q

variable {srv} {target : ProtectedResource} {a : TokenAnswers} {audience : Bytes}
  {cfg : TokenConfig} {req : GrantRequest} {resp : TokenResponse} {s : AgentState}

omit [UlidText] in
theorem FamilyPair.within {grant : Grant} {p : Pair} (pair : FamilyPair srv grant target p) :
    srv.resources.Names p.input.resource target ∧
      Within (Exempt srv grant) target p.input.scope := by
  induction pair with
  | @code _ target _ made resolved exchanged =>
    obtain ⟨_, _, _, g, _, redeemed, input, -, -⟩ := exchanged.exists_redeemed
    obtain ⟨resource, found, narrowed, -⟩ := checkAuthorize_eq_ok made.checked
    obtain rfl : resource = target := (mk.inj (some.inj (found.symm.trans resolved))).1
    have named := (resolveResource_eq_some resolved).1
    have within := within_of_narrowScopes narrowed
    rw [input]
    refine ⟨?_, ?_⟩
    · change srv.resources.Names g.resource _
      rw [Redeemed.resource_eq made redeemed]
      exact named
    · refine within.mono ?_
      change g.scope ⊆ _
      rw [redeemed.scope]
      exact made.consented.1
  | @device _ _ _ scope _ _ _ _ _ deviceCode _ g _ _ _ started found
      same polled minted =>
      obtain ⟨listed, within⟩ := checkDeviceStart_eq_ok (Exempt srv .deviceCode) started
      obtain ⟨ofScope, ofResource⟩ := pollDeviceToken_eq_ok found polled
      rw [srv.devices_resources] at listed
      refine ⟨⟨listed, ?_⟩, ?_⟩
      · exact congrArg trimRightSlash (ofResource.trans same.resource).symm
      · change Within _ _ g.scope
        rw [ofScope, same.scope]
        exact within
  | ciba _ _ first =>
    refine ⟨⟨mem_of_mem_head? first, ?_⟩, fun _ _ _ => .inr True.intro⟩
    rw [cibaInput, first]
    rfl
  | refresh _ refreshed ih =>
    obtain ⟨_, _, _, _, checks, input, -⟩ := refreshed.exists_checked
    rw [input]
    exact ⟨ih.1, ih.2.mono (narrowRefreshScopes_subset checks.scope)⟩

variable (srv)

end

/-! ## A server -/

def readable : ProtectedResource := ⟨str "r", [str "read"]⟩

attribute [local instance] StdLib.decimal UrlLib.refusing unary JsonFloat.bits

open DelegationHistory (hourService grantReading revokedAfterExchange)

theorem revoked_delegations_made :
    ∃ last, run (DelegationHistory.step hourService delegationConfig) (.initial twoAgents)
        (grantReading 8 1 :: revokedAfterExchange) = some last ∧
      MadeDelegations hourService last.state := by
  have fresh : Throughout (DelegationHistory.step hourService delegationConfig)
      DelegationHistory.Fresh (.initial twoAgents) (grantReading 8 1 :: revokedAfterExchange) := by
    decide +kernel
  exact ⟨_, rfl, madeDelegations_of_run (fun id => by simp [string]) fresh rfl⟩

end TheAuth.Server.ScopeCatalog
