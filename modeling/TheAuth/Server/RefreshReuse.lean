import TheAuth.Server.Refresh

/-!
# Reuse of a refresh token revokes its family

After a request was refused for reuse, every token of the family is revoked, and stays so as long as
no rotation is still to insert its successor. That a random token has a hash of its own is an
assumption on the actions (`FreshMint`).
-/

set_option autoImplicit false

namespace TheAuth.Server

open Go Store Library.Run RefreshStore StdLib
open Function (update)

/-- The phases that can follow on a lookup. -/
def FollowsLookup (store : RefreshStore) (req : TokenRequest) : Phase → Prop
  | .inserting _ => False
  | .rotating input =>
    ∃ t, store.refreshTokens.lookup (bytesHexKey (hashToken req.refreshToken)) = some t ∧
      t.familyID = input.familyID
  | _ => True

theorem followsLookup_afterLookup [StdLib] (cfg : Config) (store : RefreshStore)
    (req : TokenRequest) (a : LookupAnswers) :
    FollowsLookup store req (afterLookup cfg store req a) := by
  unfold afterLookup
  rw [store.refreshTokenByHash_eq]
  cases a.client with
  | error => trivial
  | ok =>
    dsimp only
    split
    · trivial
    cases here : store.refreshTokens.lookup (bytesHexKey (hashToken req.refreshToken)) with
    | none => trivial
    | some rt =>
      dsimp only
      split
      · trivial
      split
      · trivial
      cases cfg.checkRefresh req a rt with
      | error => trivial
      | ok => exact ⟨rt, here, rfl⟩

theorem eq_successor_of_afterRevoke {cfg : Config} {input : MintInput} {a : MintAnswers}
    {t : RefreshToken} (inserting : afterRevoke cfg input a = .inserting t) :
    cfg.mintAccessAndRefresh input a = .ok t ∧ t = cfg.successor input a := by
  unfold afterRevoke at inserting
  cases minted : cfg.mintAccessAndRefresh input a with
  | error => rw [minted] at inserting; cases inserting
  | ok =>
    rw [minted] at inserting
    cases inserting
    exact ⟨rfl, (mintAccessAndRefresh_eq_ok minted).2.2⟩

theorem afterInsert_ne_inserting {t u : RefreshToken} {idToken : Except OAuthError Unit} :
    afterInsert t idToken ≠ .inserting u := by
  cases idToken <;> exact nofun

section

variable {cfg : Config} {requests : ℕ → TokenRequest} {s : System}

/-- Neither a stored one nor one about to be inserted. -/
def FreshMint (cfg : Config) (s : System) : Action → Prop
  | .revoke r _ a =>
    ∀ input t, s.phase r = .rotating input → cfg.mintAccessAndRefresh input a = .ok t →
      s.store.refreshTokens.lookup (bytesHexKey t.hash) = none ∧
        ∀ q u, s.phase q = .inserting u → bytesHexKey u.hash ≠ bytesHexKey t.hash
  | _ => True

/-- The invariant: tokens to be inserted are new and distinct. -/
structure Consistent (requests : ℕ → TokenRequest) (s : System) : Prop where
  inserting : ∀ {r t}, s.phase r = .inserting t →
    t.live = true ∧ s.store.refreshTokens.lookup (bytesHexKey t.hash) = none
  distinct : ∀ {r q t u}, r ≠ q → s.phase r = .inserting t → s.phase q = .inserting u →
    bytesHexKey t.hash ≠ bytesHexKey u.hash
  rotating : ∀ {r input}, s.phase r = .rotating input →
    ∃ t, s.store.refreshTokens.lookup (bytesHexKey (hashToken (requests r).refreshToken)) =
      some t ∧ t.familyID = input.familyID

theorem consistent_initial (store : RefreshStore) : Consistent requests (.initial store) where
  inserting := nofun
  distinct := nofun
  rotating := nofun

variable {r : ℕ} {family : ULID}

theorem Consistent.move (consistent : Consistent requests s) {store : RefreshStore}
    (aged : s.store.Aged store) {p : Phase} (minted : ∀ t, p = .inserting t → t.live = true ∧
      s.store.refreshTokens.lookup (bytesHexKey t.hash) = none ∧
        ∀ q u, s.phase q = .inserting u → bytesHexKey u.hash ≠ bytesHexKey t.hash)
    (found : ∀ input, p = .rotating input →
      ∃ t, store.refreshTokens.lookup (bytesHexKey (hashToken (requests r).refreshToken)) =
        some t ∧ t.familyID = input.familyID) :
    Consistent requests ⟨store, update s.phase r p⟩ where
  inserting := by
    intro q t here
    rcases update_cases here with ⟨rfl, new⟩ | ⟨_, old⟩
    · obtain ⟨live, unused, _⟩ := minted t new
      exact ⟨live, aged.lookup_eq_none unused⟩
    · obtain ⟨live, unused⟩ := consistent.inserting old
      exact ⟨live, aged.lookup_eq_none unused⟩
  distinct := by
    intro q q' t u different here there
    rcases update_cases here with ⟨rfl, new⟩ | ⟨_, old⟩
    · rcases update_cases there with ⟨rfl, _⟩ | ⟨_, old'⟩
      · exact absurd rfl different
      · exact ((minted t new).2.2 q' u old').symm
    · rcases update_cases there with ⟨rfl, new⟩ | ⟨_, old'⟩
      · exact (minted u new).2.2 q t old
      · exact consistent.distinct different old old'
  rotating := by
    intro _ input here
    rcases update_cases here with ⟨rfl, new⟩ | ⟨_, old⟩
    · exact found input new
    · obtain ⟨_, stored, family⟩ := consistent.rotating old
      obtain ⟨t', still, same⟩ := aged.forth stored
      exact ⟨t', still, same.trans family⟩

theorem Consistent.insert (consistent : Consistent requests s) {t : RefreshToken}
    (inserting : s.phase r = .inserting t) (idToken : Except OAuthError Unit) :
    Consistent requests
      ⟨s.store.insertRefreshToken t, update s.phase r (afterInsert t idToken)⟩ where
  inserting := by
    intro q u here
    rcases update_cases here with ⟨_, new⟩ | ⟨other, old⟩
    · exact absurd new afterInsert_ne_inserting
    · obtain ⟨live, unused⟩ := consistent.inserting old
      refine ⟨live, (RefreshTables.lookup_insertRefreshToken _ _ _).trans ?_⟩
      rw [if_neg (consistent.distinct other old inserting)]
      exact unused
  distinct := by
    intro q _ u _ different here there
    have old := of_update here afterInsert_ne_inserting
    have old' := of_update there afterInsert_ne_inserting
    exact consistent.distinct different old old'
  rotating := by
    intro _ _ here
    rcases update_cases here with ⟨_, new⟩ | ⟨_, old⟩
    · cases idToken <;> cases new
    · obtain ⟨u, stored, family⟩ := consistent.rotating old
      refine ⟨u, (RefreshTables.lookup_insertRefreshToken _ _ _).trans ?_, family⟩
      -- the key of the successor is not in use
      rw [if_neg, stored]
      intro same
      rw [same, (consistent.inserting inserting).2] at stored
      cases stored

variable {next : System}

theorem Consistent.step [StdLib] (consistent : Consistent requests s) {a : Action}
    (fresh : FreshMint cfg s a) (taken : step cfg requests s a = some next) :
    Consistent requests next := by
  cases stepped_of_step taken with
  | lookup r a =>
    have follows := followsLookup_afterLookup cfg s.store (requests r) a
    refine consistent.move (.refl _) (fun t same => ?_) (fun input same => ?_)
    · rw [same] at follows
      exact follows.elim
    · rwa [same] at follows
  | lost =>
    exact consistent.move (.refl _) nofun nofun
  | won _ _ _ input _ rotating revoked =>
    refine consistent.move (revokeRefreshToken_eq_some revoked).2
      (fun t same => ?_) (fun input' same => ?_)
    · obtain ⟨minted, rfl⟩ := eq_successor_of_afterRevoke same
      exact ⟨rfl, fresh input _ rotating minted⟩
    · unfold afterRevoke at same
      split at same <;> cases same
  | revokeFamily _ now family =>
    exact consistent.move (s.store.aged_revokeRefreshTokenFamily family _ now)
      nofun nofun
  | insert _ idToken _ inserting => exact consistent.insert inserting idToken

/-- No token of the family is live. -/
def FamilyRevoked (family : ULID) (s : System) : Prop :=
  ∀ key t, s.store.refreshTokens.lookup key = some t → t.familyID = family → t.live = false

/-- No token of the family is being inserted. -/
def NoneInserting (family : ULID) (s : System) : Prop :=
  ∀ r t, s.phase r = .inserting t → t.familyID ≠ family

theorem familyRevoked_of_revokeFamily [StdLib] {now : Time} (reused : s.phase r = .reused family)
    (taken : step cfg requests s (.revokeFamily r now) = some next) :
    FamilyRevoked family next := by
  cases stepped_of_step taken with
  | revokeFamily _ now family' reused' =>
    obtain rfl : family = family' := by
      rw [reused] at reused'
      cases reused'
      rfl
    intro _ _ here member
    exact s.store.live_of_lookup_revokeRefreshTokenFamily family _ now here member

/-- Nothing of the family lives or will. -/
structure Closed (family : ULID) (s : System) : Prop where
  revoked : FamilyRevoked family s
  none : NoneInserting family s

theorem Closed.move (closed : Closed family s) {store : RefreshStore} (aged : s.store.Aged store)
    {p : Phase} (other : ∀ t, p = .inserting t → t.familyID ≠ family) :
    Closed family ⟨store, update s.phase r p⟩ where
  revoked := by
    intro key _ here member
    obtain ⟨t, stored, same, live⟩ := aged.back here
    have dead := closed.revoked key t stored (same.symm.trans member)
    rw [← Bool.not_eq_true]
    intro alive
    rw [live alive] at dead
    cases dead
  none := by
    intro q t here
    rcases update_cases here with ⟨_, new⟩ | ⟨_, old⟩
    · exact other t new
    · exact closed.none q t old

theorem Closed.step [StdLib] (closed : Closed family s) (consistent : Consistent requests s)
    {a : Action} (taken : step cfg requests s a = some next) : Closed family next := by
  cases stepped_of_step taken with
  | lookup r a =>
    have follows := followsLookup_afterLookup cfg s.store (requests r) a
    refine closed.move (.refl _) fun t same => ?_
    rw [same] at follows
    exact follows.elim
  | lost => exact closed.move (.refl _) nofun
  | won _ _ _ _ _ rotating revoked =>
    obtain ⟨⟨t, stored, live⟩, aged⟩ := revokeRefreshToken_eq_some revoked
    refine closed.move aged fun u same member => ?_
    obtain ⟨_, rfl⟩ := eq_successor_of_afterRevoke same
    obtain ⟨t', stored', extends_⟩ := consistent.rotating rotating
    obtain rfl : t = t' := Option.some.inj (stored.symm.trans stored')
    rw [closed.revoked _ t stored (extends_.trans member)] at live
    cases live
  | revokeFamily _ now family' =>
    exact closed.move (s.store.aged_revokeRefreshTokenFamily family' _ now)
      nofun
  | insert r _ t inserting =>
    refine ⟨fun key u here member => ?_, fun q u here => ?_⟩
    · obtain ⟨-, rfl⟩ | ⟨-, here⟩ := GoMap.of_lookup_insert here
      · exact absurd member (closed.none r t inserting)
      · exact closed.revoked key u here member
    · have old := of_update here afterInsert_ne_inserting
      exact closed.none q u old

/-- **When a refusal for reuse is final.** -/
theorem reuse_revokes_family_iff [StdLib] (cfg : Config) (requests : ℕ → TokenRequest)
    (store : RefreshStore) (actions : List Action) (s next : System) (r : ℕ) (now : Time)
    (family : ULID)
    (fresh : Throughout (step cfg requests) (FreshMint cfg) (.initial store) actions)
    (ran : run (step cfg requests) (.initial store) actions = some s)
    (reused : s.phase r = .reused family)
    (refused : step cfg requests s (.revokeFamily r now) = some next) :
    (∀ later last, Throughout (step cfg requests) (FreshMint cfg) next later →
        run (step cfg requests) next later = some last → FamilyRevoked family last) ↔
      NoneInserting family next := by
  have consistent : Consistent requests s :=
    invariant_of_run_throughout (fun before fresh taken => before.step fresh taken)
      (consistent_initial store) fresh ran
  have mintsNothing : FreshMint cfg s (.revokeFamily r now) := trivial
  have consistentNext : Consistent requests next := consistent.step mintsNothing refused
  constructor
  · -- a pending insertion can be the next action
    intro stays q t inserting member
    have inserted : step cfg requests next (.insert q (.ok ())) =
        some ⟨next.store.insertRefreshToken t, update next.phase q (afterInsert t (.ok ()))⟩ := by
      simp only [step, inserting]
    have dead := stays [.insert q (.ok ())] _ ⟨trivial, fun _ _ => trivial⟩
      (run_cons_eq_some.mpr ⟨_, inserted, rfl⟩) (bytesHexKey t.hash) t
      (AList.lookup_insert _) member
    rw [(consistentNext.inserting inserting).1] at dead
    cases dead
  · intro none _ _ freshLater ranLater
    have closed : Closed family next := ⟨familyRevoked_of_revokeFamily reused refused, none⟩
    have keeps : ∀ {s a next}, Consistent requests s ∧ Closed family s → FreshMint cfg s a →
        step cfg requests s a = some next → Consistent requests next ∧ Closed family next :=
      fun before fresh taken => ⟨before.1.step fresh taken, before.2.step before.1 taken⟩
    exact (invariant_of_run_throughout keeps ⟨consistentNext, closed⟩ freshLater ranLater).2.revoked

end

def firstToken (revokedAt : Option Time) : RefreshToken where
  id := 1
  hash := hashToken (str "t1")
  familyID := 7
  clientID := str "c"
  userID := some 3
  scope := []
  resource := []
  parentJTI := []
  issuedAt := 0
  expiresAt := 100
  revokedAt
  dpopJKT := []
  authCodeHash := []
  authorizationDetails := []
  authTime := 0
  acr := []
  amr := []

def shortLived : Config where
  accessTokenTTL := 10
  refreshTokenTTL := 20

def sameToken (_ : ℕ) : TokenRequest where
  refreshToken := str "t1"

def clientAnswers : LookupAnswers where
  client := .ok (str "c")
  now := 1

def race : List Action :=
  [.lookup 0 clientAnswers, .revoke 0 1 ⟨1, [], .ok [], str "t2", 2⟩, .lookup 1 clientAnswers,
    .revokeFamily 1 1, .insert 0 (.ok ())]

theorem successor_survives_reuse :
    (run (@step refusing shortLived sameToken)
        (.initial (empty.insertRefreshToken (firstToken none))) race).map
      (fun s => (s.phase 1,
        (s.store.refreshTokens.lookup (bytesHexKey (hashToken (str "t2")))).map
          fun t => (t.familyID, t.live))) =
      some (.refusedForReuse 7, some (7, true)) := by
  decide +kernel

theorem reuse_of_revoked_token_is_final :
    ∃ s next, run (@step refusing shortLived sameToken)
        (.initial (empty.insertRefreshToken (firstToken (some 0))))
        [.lookup 0 clientAnswers] = some s ∧
      s.phase 0 = .reused 7 ∧
      @step refusing shortLived sameToken s (.revokeFamily 0 2) = some next ∧
      ∀ later last, Throughout (@step refusing shortLived sameToken)
          (FreshMint shortLived) next later →
        run (@step refusing shortLived sameToken) next later = some last →
          FamilyRevoked 7 last := by
  have reused : @afterLookup refusing shortLived
      (empty.insertRefreshToken (firstToken (some 0))) (sameToken 0) clientAnswers =
        .reused 7 := by decide +kernel
  have ran : run (@step refusing shortLived sameToken)
      (.initial (empty.insertRefreshToken (firstToken (some 0))))
      [.lookup 0 clientAnswers] =
        some ⟨empty.insertRefreshToken (firstToken (some 0)),
          update (fun _ => .ready) 0 (.reused 7)⟩ := by
    rw [← reused]
    rfl
  refine ⟨_, _, ran, rfl, rfl, ?_⟩
  refine (@reuse_revokes_family_iff refusing shortLived sameToken _ _ _ _ 0 2 7
    (by exact ⟨trivial, fun _ _ => trivial⟩) ran rfl rfl).mpr ?_
  intro q t here
  have old := of_update here nofun
  have before : update (fun _ => Phase.ready) 0 (.reused 7) q = .inserting t := old
  cases of_update before nofun

end TheAuth.Server
