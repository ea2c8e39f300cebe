import TheAuth.Server.RefreshReuse

/-!
# One live token in a family

A family that starts with one token never has two live ones: while a rotation has not yet stored its
successor, every token of the family is revoked, and no second rotation can be under way (`Single`).
At most one request gets a successor for a token (`SpentOnce`).
-/

set_option autoImplicit false

namespace TheAuth.Server.Rotation

open Go Store Library.Run RefreshStore
open Function (update)

/-- A refresh, or a change by others. -/
inductive Event where
  | refresh (a : Action)
  | revokeFamily (family : ULID) (reason : Bytes) (now : Time)
  | revokeCode (codeHash reason : Bytes) (now : Time)

/-- One event. -/
def step [StdLib] (cfg : Config) (requests : ℕ → TokenRequest) (s : System) :
    Event → Option System
  | .refresh a => Server.step cfg requests s a
  | .revokeFamily family reason now =>
    some { s with store := s.store.revokeRefreshTokenFamily family reason now }
  | .revokeCode codeHash reason now =>
    some { s with store := (s.store.revokeRefreshTokensByAuthCode codeHash reason now).2 }

/-- A refresh draws a fresh token. -/
def FreshEvent (cfg : Config) (s : System) : Event → Prop
  | .refresh a => FreshMint cfg s a
  | _ => True

variable {e : Event}

theorem step_cases [StdLib] {cfg : Config} {requests : ℕ → TokenRequest} {s next : System}
    (taken : step cfg requests s e = some next) :
    (∃ a, e = .refresh a ∧ Server.step cfg requests s a = some next) ∨
      ∃ store, s.store.Aged store ∧ next = { s with store } := by
  cases e with
  | refresh a => exact .inl ⟨a, rfl, taken⟩
  | revokeFamily family reason now =>
    cases taken
    exact .inr ⟨_, s.store.aged_revokeRefreshTokenFamily family reason now, rfl⟩
  | revokeCode codeHash reason now =>
    cases taken
    exact .inr ⟨_, .of_reads (s.store.lookup_revokeByAuthCode codeHash reason now), rfl⟩

section

variable {cfg : Config} {requests : ℕ → TokenRequest} {s : System} {family : ULID}
  {store : RefreshStore} {t : RefreshToken}

theorem consistent_of_aged (consistent : Consistent requests s)
    (aged : s.store.Aged store) : Consistent requests { s with store } where
  inserting := by
    intro r _ here
    obtain ⟨live, unused⟩ := consistent.inserting here
    exact ⟨live, aged.lookup_eq_none unused⟩
  distinct := consistent.distinct
  rotating := by
    intro _ _ here
    obtain ⟨_, stored, same⟩ := consistent.rotating here
    obtain ⟨t', still, kept⟩ := aged.forth stored
    exact ⟨t', still, kept.trans same⟩

/-! ## One live token -/

/-- With those about to be stored: at most one. -/
structure Single (family : ULID) (s : System) : Prop where
  stored : ∀ ⦃key key' t t'⦄, s.store.refreshTokens.lookup key = some t →
    s.store.refreshTokens.lookup key' = some t' → t.familyID = family → t'.familyID = family →
      t.live = true → t'.live = true → key = key'
  pending : ∀ ⦃r t⦄, s.phase r = .inserting t → t.familyID = family → FamilyRevoked family s
  alone : ∀ ⦃r q t u⦄, s.phase r = .inserting t → s.phase q = .inserting u →
    t.familyID = family → u.familyID = family → r = q

theorem familyRevoked_of_aged (aged : s.store.Aged store)
    (revoked : FamilyRevoked family s) {phase : ℕ → Phase} :
    FamilyRevoked family ⟨store, phase⟩ := by
  intro key _ here member
  obtain ⟨t, stored, same, live⟩ := aged.back here
  have dead := revoked key t stored (same.symm.trans member)
  rw [← Bool.not_eq_true]
  intro alive
  rw [live alive] at dead
  cases dead

section

variable (single : Single family s)
include single

theorem Single.age (aged : s.store.Aged store) :
    Single family { s with store } where
  stored := by
    intro _ _ _ _ here here' member member' live live'
    obtain ⟨_, stored, same, alive⟩ := aged.back here
    obtain ⟨_, stored', same', alive'⟩ := aged.back here'
    exact single.stored stored stored' (same.symm.trans member) (same'.symm.trans member')
      (alive live) (alive' live')
  pending := fun _ _ here member => familyRevoked_of_aged aged (single.pending here member)
  alone := single.alone

variable {r : ℕ}

theorem Single.move {p : Phase} (other : ∀ t, p = .inserting t → t.familyID ≠ family) :
    Single family { s with phase := update s.phase r p } where
  stored := single.stored
  pending := by
    intro q t here member
    rcases update_cases here with ⟨-, new⟩ | ⟨-, old⟩
    · exact absurd member (other t new)
    · exact single.pending old member
  alone := by
    intro _ _ t u here here' member member'
    rcases update_cases here with ⟨-, new⟩ | ⟨-, old⟩
    · exact absurd member (other t new)
    · rcases update_cases here' with ⟨-, new⟩ | ⟨-, old'⟩
      · exact absurd member' (other u new)
      · exact single.alone old old' member member'

theorem Single.won {hash reason : Bytes}
    {now : Time} (found : s.store.refreshTokens.lookup (bytesHexKey hash) = some t)
    (member : t.familyID = family)
    (revoked : s.store.revokeRefreshToken hash reason now = some store) (p : Phase) :
    Single family ⟨store, update s.phase r p⟩ := by
  obtain ⟨⟨_, found', live⟩, aged⟩ := revokeRefreshToken_eq_some revoked
  cases found.symm.trans found'
  -- no successor was about to be stored, as a token was live
  have idle : ∀ q u, s.phase q = .inserting u → u.familyID ≠ family := by
    intro q u inserting own
    have dead := single.pending inserting own _ t found member
    rw [live] at dead
    cases dead
  have dead : FamilyRevoked family ⟨store, update s.phase r p⟩ := by
    intro key u here own
    obtain ⟨_, stored, same, alive⟩ := aged.back here
    rw [← Bool.not_eq_true]
    intro still
    have key_eq := single.stored stored found (same.symm.trans own) member (alive still) live
    rw [key_eq] at here
    exact Bool.false_ne_true ((live_of_lookup_revokeRefreshToken revoked here).symm.trans still)
  constructor
  · intro key _ u u' here _ own _ alive _
    rw [dead key u here own] at alive
    cases alive
  · intro _ _ _ _
    exact dead
  · intro q q' u u' here here' own own'
    rcases update_cases here with ⟨same, -⟩ | ⟨-, old⟩
    · rcases update_cases here' with ⟨same', -⟩ | ⟨-, old'⟩
      · exact same.trans same'.symm
      · exact absurd own' (idle q' u' old')
    · exact absurd own (idle q u old)

theorem Single.insert_own (inserting : s.phase r = .inserting t) (idToken : Except OAuthError Unit)
    (own : t.familyID = family) :
    Single family
      ⟨s.store.insertRefreshToken t, update s.phase r (afterInsert t idToken)⟩ := by
  have revoked := single.pending inserting own
  -- what is live is the successor
  have only : ∀ key u, (s.store.insertRefreshToken t).refreshTokens.lookup key = some u →
      u.familyID = family → u.live = true → key = bytesHexKey t.hash := by
    intro key u here member live
    obtain ⟨same, -⟩ | ⟨-, here⟩ := GoMap.of_lookup_insert here
    · exact same
    · rw [revoked key u here member] at live
      cases live
  -- and no other request was about to store one
  have idle : ∀ q u, update s.phase r (afterInsert t idToken) q = .inserting u →
      u.familyID ≠ family := by
    intro q u here member
    rcases update_cases here with ⟨-, new⟩ | ⟨other, old⟩
    · exact afterInsert_ne_inserting new
    · exact other (single.alone old inserting member own)
  constructor
  · intro key key' u u' here here' member member' live live'
    exact (only key u here member live).trans (only key' u' here' member' live').symm
  · intro q u here member
    exact absurd member (idle q u here)
  · intro q _ u _ here _ member _
    exact absurd member (idle q u here)

theorem Single.insert_other (idToken : Except OAuthError Unit) (other : t.familyID ≠ family) :
    Single family
      ⟨s.store.insertRefreshToken t, update s.phase r (afterInsert t idToken)⟩ := by
  have before : ∀ key u, (s.store.insertRefreshToken t).refreshTokens.lookup key = some u →
      u.familyID = family → s.store.refreshTokens.lookup key = some u := by
    intro key u here member
    obtain ⟨-, rfl⟩ | ⟨-, here⟩ := GoMap.of_lookup_insert here
    · exact absurd member other
    · exact here
  have moved := single.move (r := r) (p := afterInsert t idToken)
    fun u same => absurd same afterInsert_ne_inserting
  constructor
  · intro key key' u u' here here' member member' live live'
    exact single.stored (before key u here member) (before key' u' here' member') member member'
      live live'
  · intro _ _ here member key v there member'
    exact moved.pending here member key v (before key v there member') member'
  · exact moved.alone

theorem Single.insert (inserting : s.phase r = .inserting t) (idToken : Except OAuthError Unit) :
    Single family
      ⟨s.store.insertRefreshToken t, update s.phase r (afterInsert t idToken)⟩ := by
  by_cases own : t.familyID = family
  · exact single.insert_own inserting idToken own
  · exact single.insert_other idToken own

theorem Single.step [StdLib] (consistent : Consistent requests s)
    {next : System} (taken : step cfg requests s e = some next) :
    Single family next := by
  rcases step_cases taken with ⟨a, rfl, taken⟩ | ⟨store, aged, rfl⟩
  · cases stepped_of_step taken with
    | lookup r a =>
      have follows := followsLookup_afterLookup cfg s.store (requests r) a
      refine single.move fun t same => ?_
      rw [same] at follows
      exact follows.elim
    | lost => exact single.move nofun
    | won _ _ _ input _ rotating revoked =>
      obtain ⟨_, found, extends_⟩ := consistent.rotating rotating
      by_cases own : input.familyID = family
      · exact single.won found (extends_.trans own) revoked _
      · refine (single.age (revokeRefreshToken_eq_some revoked).2).move ?_
        intro _ same
        obtain ⟨-, rfl⟩ := eq_successor_of_afterRevoke same
        exact own
    | revokeFamily _ now other =>
      refine (single.age (s.store.aged_revokeRefreshTokenFamily other _ now)).move ?_
      exact nofun
    | insert _ idToken _ inserting => exact single.insert inserting idToken
  · exact single.age aged

end

/-! ## Spent tokens -/

def exchanged : Phase → Bool
  | .inserting _ | .issued _ => true
  | _ => false

def presented (requests : ℕ → TokenRequest) (r : ℕ) : Bytes :=
  bytesHexKey (hashToken (requests r).refreshToken)

/-- The token is stored and revoked. -/
def Dead (store : RefreshStore) (key : Bytes) : Prop :=
  ∃ t, store.refreshTokens.lookup key = some t ∧ t.live = false

/-- A token is exchanged by one request at most, and is dead then. -/
structure SpentOnce (requests : ℕ → TokenRequest) (s : System) : Prop where
  spent : ∀ ⦃r⦄, exchanged (s.phase r) = true → Dead s.store (presented requests r)
  once : ∀ ⦃r q⦄, r ≠ q → exchanged (s.phase r) = true → exchanged (s.phase q) = true →
    presented requests r ≠ presented requests q

theorem dead_of_aged (aged : s.store.Aged store) {key : Bytes}
    (dead : Dead s.store key) : Dead store key := by
  obtain ⟨_, stored, revoked⟩ := dead
  obtain ⟨t', still, -⟩ := aged.forth stored
  obtain ⟨_, before, -, live⟩ := aged.back still
  cases stored.symm.trans before
  refine ⟨t', still, ?_⟩
  rw [← Bool.not_eq_true]
  intro alive
  rw [live alive] at revoked
  cases revoked

theorem SpentOnce.move {r : ℕ} {p : Phase} (spent : SpentOnce requests s)
    (stays : ∀ key, Dead s.store key → Dead store key)
    (first : exchanged p = true → Dead store (presented requests r) ∧
      ∀ q, q ≠ r → exchanged (s.phase q) = true → presented requests q ≠ presented requests r) :
    SpentOnce requests ⟨store, update s.phase r p⟩ where
  spent := by
    intro q here
    rcases update_cases_of (Q := fun p => exchanged p = true) here with ⟨rfl, new⟩ | ⟨-, old⟩
    · exact (first new).1
    · exact stays _ (spent.spent old)
  once := by
    intro q q' different here here'
    rcases update_cases_of (Q := fun p => exchanged p = true) here with ⟨rfl, new⟩ | ⟨other, old⟩
    · rcases update_cases_of (Q := fun p => exchanged p = true) here' with ⟨rfl, -⟩ | ⟨-, old'⟩
      · exact absurd rfl different
      · exact ((first new).2 q' different.symm old').symm
    · rcases update_cases_of (Q := fun p => exchanged p = true) here' with ⟨rfl, new⟩ | ⟨-, old'⟩
      · exact (first new).2 q other old
      · exact spent.once different old old'

theorem exchanged_afterLookup [StdLib] (store : RefreshStore) (req : TokenRequest)
    (a : LookupAnswers) : exchanged (afterLookup cfg store req a) = false := by
  unfold afterLookup
  repeat' split
  all_goals rfl

theorem SpentOnce.step [StdLib] (spent : SpentOnce requests s) (consistent : Consistent requests s)
    {next : System} (taken : step cfg requests s e = some next) :
    SpentOnce requests next := by
  rcases step_cases taken with ⟨a, rfl, taken⟩ | ⟨store, aged, rfl⟩
  · cases stepped_of_step taken with
    | lookup =>
      refine spent.move (fun _ dead => dead) fun same => ?_
      rw [exchanged_afterLookup] at same
      cases same
    | lost _ _ _ _ _ dead =>
      exact spent.move (fun _ dead => dead) nofun
    | won _ _ _ _ _ _ revoked =>
      obtain ⟨⟨_, found, live⟩, aged⟩ := revokeRefreshToken_eq_some revoked
      refine spent.move (fun _ => dead_of_aged aged) fun _ => ⟨?_, fun q _ old same => ?_⟩
      · obtain ⟨t', still, -⟩ := aged.forth found
        exact ⟨t', still, live_of_lookup_revokeRefreshToken revoked still⟩
      · -- the token was live, so no request had exchanged it
        obtain ⟨_, stored, dead⟩ := spent.spent old
        rw [same] at stored
        cases found.symm.trans stored
        rw [live] at dead
        cases dead
    | revokeFamily _ now other =>
      exact spent.move (fun _ => dead_of_aged (s.store.aged_revokeRefreshTokenFamily other _ now))
        nofun
    | insert r _ t inserting =>
      have unused := (consistent.inserting inserting).2
      have before : exchanged (s.phase r) = true := by rw [inserting]; rfl
      have stays : ∀ key, Dead s.store key → Dead (s.store.insertRefreshToken t) key := by
        rintro _ ⟨u, stored, dead⟩
        refine ⟨u, (RefreshTables.lookup_insertRefreshToken _ _ _).trans ?_, dead⟩
        rw [if_neg, stored]
        rintro rfl
        cases unused.symm.trans stored
      refine spent.move stays fun _ => ⟨stays _ (spent.spent before), fun q other old => ?_⟩
      exact spent.once other old before
  · exact ⟨fun r here => dead_of_aged aged (spent.spent here), spent.once⟩

end

section

variable [StdLib] {cfg : Config} {requests : ℕ → TokenRequest}

/-- The invariant of a run of rotations. -/
structure Sound (requests : ℕ → TokenRequest) (family : ULID) (s : System) : Prop where
  consistent : Consistent requests s
  single : Single family s
  spent : SpentOnce requests s

theorem Sound.step {family : ULID} {s next : System} (sound : Sound requests family s)
    (fresh : FreshEvent cfg s e) (taken : step cfg requests s e = some next) :
    Sound requests family next where
  consistent := by
    rcases step_cases taken with ⟨_, rfl, taken⟩ | ⟨_, aged, rfl⟩
    · exact sound.consistent.step fresh taken
    · exact consistent_of_aged sound.consistent aged
  single := sound.single.step sound.consistent taken
  spent := sound.spent.step sound.consistent taken

omit [StdLib] in
theorem sound_initial {store : RefreshStore} {first : RefreshToken}
    (only : ∀ key t, store.refreshTokens.lookup key = some t → t.familyID = first.familyID →
      t = first) : Sound requests first.familyID (.initial store) where
  consistent := consistent_initial store
  single :=
    { stored := by
        intro key key' t t' here here' member member' _ _
        rw [store.keyed key t here, store.keyed key' t' here', only key t here member,
          only key' t' here' member']
      pending := nofun
      alone := fun _ _ _ _ here => nomatch here }
  spent := ⟨nofun, nofun⟩

/-- **A family that starts with one token has at most one live token at every moment, and a
token is exchanged at most once**, in any interleaving of requests and revocations with
fresh successors. -/
theorem family_rotates_singly (cfg : Config) (requests : ℕ → TokenRequest) (store : RefreshStore)
    (first : RefreshToken)
    (only : ∀ key t, store.refreshTokens.lookup key = some t → t.familyID = first.familyID →
      t = first)
    (events : List Event) (s : System)
    (fresh : Throughout (step cfg requests) (FreshEvent cfg) (.initial store) events)
    (ran : run (step cfg requests) (.initial store) events = some s) :
    (∀ key key' t t', s.store.refreshTokens.lookup key = some t →
        s.store.refreshTokens.lookup key' = some t' → t.familyID = first.familyID →
          t'.familyID = first.familyID → t.live = true → t'.live = true → key = key' ∧ t = t') ∧
      ∀ r q t u, s.phase r = .issued t → s.phase q = .issued u →
        (requests r).refreshToken = (requests q).refreshToken → r = q := by
  have sound : Sound requests first.familyID s :=
    invariant_of_run_throughout (fun before fresh taken => before.step fresh taken)
      (sound_initial only) fresh ran
  constructor
  · intro _ _ t _ here here' member member' live live'
    obtain rfl := sound.single.stored here here' member member' live live'
    exact ⟨rfl, Option.some.inj (here.symm.trans here')⟩
  · intro _ _ _ _ issued issued' same
    by_contra different
    refine sound.spent.once different (by rw [issued]; rfl) (by rw [issued']; rfl) ?_
    rw [presented, presented, same]

end

def oneToken : RefreshStore := RefreshStore.empty.insertRefreshToken (firstToken none)

def rotation : List Event :=
  [.refresh (.lookup 0 clientAnswers), .refresh (.revoke 0 1 ⟨1, [], .ok [], str "t2", 2⟩),
    .refresh (.insert 0 (.ok ()))]

def rotationInput : MintInput :=
  @RefreshToken.mintInput StdLib.refusing (firstToken none) (str "c") (str "t1") ⟨[], [], []⟩

attribute [local instance] StdLib.refusing

theorem rotation_fresh :
    Throughout (step shortLived sameToken)
      (FreshEvent shortLived) (.initial oneToken) rotation := by
  have looked : afterLookup shortLived oneToken (sameToken 0) clientAnswers =
      .rotating rotationInput := by decide +kernel
  refine ⟨trivial, fun next taken => ⟨?_, fun _ _ => ⟨trivial, fun _ _ => trivial⟩⟩⟩
  have here : next = ⟨oneToken, update (fun _ => .ready) 0 (.rotating rotationInput)⟩ := by
    rw [← looked]
    exact (Option.some.inj taken).symm
  subst here
  intro _ _ rotating minted
  cases rotating
  constructor
  · obtain ⟨-, -, rfl⟩ := mintAccessAndRefresh_eq_ok minted
    decide +kernel
  · intro q u inserting
    have before : update (fun _ => Phase.ready) 0 (.rotating rotationInput) q =
        .inserting u := inserting
    cases of_update before nofun

theorem rotation_leaves_successor :
    ∃ s, run (step shortLived sameToken) (.initial oneToken) rotation = some s ∧
      (∃ t, s.store.refreshTokens.lookup (bytesHexKey (hashToken (str "t2"))) = some t ∧
        t.familyID = 7 ∧ t.live = true) ∧
        ∀ key t, s.store.refreshTokens.lookup key = some t → t.familyID = 7 → t.live = true →
          key = bytesHexKey (hashToken (str "t2")) := by
  obtain ⟨s, ran, t, stored, member, live⟩ : ∃ s,
      run (step shortLived sameToken) (.initial oneToken) rotation = some s ∧
        ∃ t, s.store.refreshTokens.lookup (bytesHexKey (hashToken (str "t2"))) = some t ∧
          t.familyID = 7 ∧ t.live = true := by decide +kernel
  have only : ∀ key u, oneToken.refreshTokens.lookup key = some u →
      u.familyID = (firstToken none).familyID → u = firstToken none := by
    intro key u here _
    obtain ⟨-, same⟩ | ⟨-, ⟨⟩⟩ := GoMap.of_lookup_insert here
    exact same.symm
  refine ⟨s, ran, ⟨t, stored, member, live⟩, fun key u here own alive => ?_⟩
  exact ((family_rotates_singly shortLived sameToken oneToken (firstToken none) only rotation s
    rotation_fresh ran).1 key _ u t here stored own member alive live).1

end TheAuth.Server.Rotation
