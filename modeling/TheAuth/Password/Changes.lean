import TheAuth.Password.Operations

/-!
# Passwords after a change

After a change has returned, the stored hash is that of the new password, and every live session of
the user rests on it or on a later one. That holds if no change is stored while a call of the same
user is between its read of the hash and its writes (`Undisturbed`).
-/

set_option autoImplicit false

namespace TheAuth.Password

open Go Store Server Library.Run UserStore Nat Function GoMap
open Function (update)

def Phase.rests : Phase → Option (ULID × ℕ)
  | .upgrading userID gen _ => some (userID, gen)
  | .issuing userID gen _ => some (userID, gen)
  | .storing userID (some read) _ => some (userID, read)
  | .reissuing userID _ gen _ => some (userID, gen)
  | _ => none

/-- The user's password has not changed since it was read. -/
def Current (s : System) : Option (ULID × ℕ) → Prop
  | none => True
  | some (userID, gen) => s.gen userID = gen

/-- No change of the user's password was stored since the hash was read. -/
def Undisturbed (s : System) : Action → Prop
  | .advance r _ => Current s (s.phase r).rests
  | .revokeSession _ _ => True

instance (s : System) : (a : Action) → Decidable (Undisturbed s a)
  | .advance r _ =>
    match here : (s.phase r).rests with
    | none => .isTrue (by rw [Undisturbed, here]; trivial)
    | some (userID, gen) =>
      decidable_of_iff (s.gen userID = gen) (by rw [Undisturbed, here]; exact Iff.rfl)
  | .revokeSession _ _ => .isTrue trivial

def Phase.stored : Phase → Option (ULID × ℕ × Bytes)
  | .revoking userID _ gen hash => some (userID, gen, hash)
  | .finding userID _ gen hash => some (userID, gen, hash)
  | .reissuing userID _ gen hash => some (userID, gen, hash)
  | .changed userID gen hash => some (userID, gen, hash)
  | _ => none

def Phase.cleared : Phase → Option (ULID × ℕ)
  | .finding userID _ gen _ => some (userID, gen)
  | .reissuing userID _ gen _ => some (userID, gen)
  | .changed userID gen _ => some (userID, gen)
  | _ => none

def Phase.replaced : Phase → Option (ℕ × ℕ)
  | .revoking _ (some read) gen _ => some (read, gen)
  | .finding _ read gen _ => some (read, gen)
  | .reissuing _ read gen _ => some (read, gen)
  | _ => none

def Phase.plain : Phase → Bool
  | .ready | .checked _ _ | .issuing _ _ _ | .signedIn _ | .steppedUp | .refused _ => true
  | _ => false

theorem Phase.ne_upgrading {p : Phase} (plain : p.plain = true) (userID : ULID) (gen : ℕ)
    (newHash : Bytes) : p ≠ .upgrading userID gen newHash := by
  rintro rfl
  cases plain

theorem Phase.cleared_of_plain {p : Phase} (plain : p.plain = true) : p.cleared = none := by
  cases p with
  | finding | reissuing | changed => cases plain
  | _ => rfl

/-- On a password of the generation or a later one, or issued by that change. -/
def Obtained.Since (o : Obtained) (gen : ℕ) : Prop := gen ≤ o.proved ∨ o.change = some gen

variable {gen : ℕ} {userID : ULID} {now : Time} {sess : Session}

theorem since_of_change {read earlier : ℕ} (next : gen = read + 1) (before : earlier ≤ gen) :
    Obtained.Since { proved := read, change := some gen } earlier := by
  rcases lt_or_eq_of_le before with less | same
  · exact .inl (le_of_lt_succ (next ▸ less))
  · exact .inr (by rw [same])

/-! ## Sessions -/

/-- Every live session was obtained after the change. -/
structure Cleared (s : System) (userID : ULID) (gen : ℕ) : Prop where
  reached : gen ≤ s.gen userID
  live : ∀ {id sess}, s.store.sessions.lookup id = some sess → sess.userID = userID →
    sess.revokedAt = none → ∃ o, s.obtained id = some o ∧ o.Since gen

theorem userPasswordHashByID_setUserPassword {store after : UserStore} {hash : Bytes}
    (done : store.setUserPassword userID hash = some after) (other : ULID) :
    after.userPasswordHashByID other =
      if other = userID then hash else store.userPasswordHashByID other := by
  unfold setUserPassword at done
  split at done <;> cases done
  unfold userPasswordHashByID
  rw [lookup_insert_eq]
  split <;> rfl

theorem sessions_setUserPassword {store after : UserStore} {hash : Bytes}
    (done : store.setUserPassword userID hash = some after) : after.sessions = store.sessions := by
  unfold setUserPassword at done
  split at done <;> cases done
  rfl

theorem live_revokeUserSessions {store : UserStore} {id : ULID}
    (here : (store.revokeUserSessions userID now).sessions.lookup id = some sess)
    (live : sess.revokedAt = none) :
    store.sessions.lookup id = some sess ∧ sess.userID ≠ userID := by
  unfold revokeUserSessions at here
  rw [lookup_mapValues] at here
  obtain ⟨_, stored, rfl⟩ := Option.map_eq_some_iff.mp here
  unfold revokeFor at live ⊢
  split at live
  · cases live
  rename_i other
  rw [if_neg other]
  exact ⟨stored, fun same => other ⟨same, live⟩⟩

theorem live_revokeSession {store : UserStore} {id key : ULID}
    (here : ((store.revokeSession id now).getD store).sessions.lookup key = some sess)
    (live : sess.revokedAt = none) : store.sessions.lookup key = some sess := by
  cases done : store.revokeSession id now with
  | none => rwa [done] at here
  | some =>
    rw [done] at here
    obtain ⟨_, stored, -, rfl | rfl⟩ := sameHolder_of_changeSession done here
    · exact stored
    · cases live

theorem passwordHashes_revokeSession {store : UserStore} {id : ULID} :
    ((store.revokeSession id now).getD store).passwordHashes = store.passwordHashes := by
  unfold revokeSession changeSession
  split <;> rfl

theorem lookup_createSession (cfg : Config) (s : System) (userID : ULID) (level : AuthLevel)
    (o : Obtained) (a : Answers) {id : ULID}
    (here : (s.createSession cfg userID level o a).store.sessions.lookup id = some sess) :
    (sess.userID = userID ∧ (s.createSession cfg userID level o a).obtained id = some o) ∨
      (s.store.sessions.lookup id = some sess ∧
        (s.createSession cfg userID level o a).obtained id = s.obtained id) := by
  obtain ⟨same, rfl⟩ | ⟨other, here⟩ := of_lookup_insert here
  · refine .inl ⟨?_, ?_⟩
    · unfold withLevel
      split <;> rfl
    · rw [same]
      exact update_self _ _ _
  · exact .inr ⟨here, update_of_ne other _ _⟩

variable {s next : System}

theorem Cleared.of_live (cleared : Cleared s userID gen)
    (grown : s.gen userID ≤ next.gen userID) (obtained : next.obtained = s.obtained)
    (live : ∀ {id sess}, next.store.sessions.lookup id = some sess → sess.revokedAt = none →
      s.store.sessions.lookup id = some sess) : Cleared next userID gen where
  reached := le_trans cleared.reached grown
  live here user unrevoked := by
    rw [obtained]
    exact cleared.live (live here unrevoked) user unrevoked

theorem Cleared.create {other : ULID} (cleared : Cleared s userID gen) (cfg : Config)
    (level : AuthLevel) (o : Obtained) (a : Answers) (since : other = userID → o.Since gen) :
    Cleared (s.createSession cfg other level o a) userID gen where
  reached := cleared.reached
  live here user unrevoked := by
    rcases lookup_createSession cfg s other level o a here with ⟨owner, recorded⟩ | ⟨before, same⟩
    · exact ⟨o, recorded, since (owner.symm.trans user)⟩
    · rw [same]
      exact cleared.live before user unrevoked

theorem calm_move {r : ℕ} {p : Phase} (moved : next.phase = update s.phase r p)
    (other : ∀ newHash, p ≠ .upgrading userID gen newHash)
    (calm : ∀ r newHash, s.phase r ≠ .upgrading userID gen newHash) (q : ℕ) (newHash : Bytes) :
    next.phase q ≠ .upgrading userID gen newHash := by
  intro here
  rw [moved] at here
  rcases update_cases here with ⟨-, same⟩ | ⟨-, before⟩
  · exact other _ same
  · exact calm q newHash before

theorem plain_afterUpgrade (req : Request) (userID : ULID) (gen : ℕ) :
    (afterUpgrade req userID gen).plain = true := by
  cases req <;> rfl

theorem plain_afterGate (cfg : Config) (s : System) (userID : ULID) (gen : ℕ) (a : Answers) :
    (afterGate cfg s userID gen a).plain = true := by
  unfold afterGate
  split
  · rfl
  · split <;> rfl

theorem afterRevoke_ne_upgrading (userID other : ULID) (read : Option ℕ) (gen upgraded : ℕ)
    (hash newHash : Bytes) :
    afterRevoke userID read gen hash ≠ .upgrading other upgraded newHash := by
  cases read <;> exact nofun

section

theorem cleared_revoke {r : ℕ} {p : Phase} (reached : gen ≤ s.gen userID) :
    Cleared ({ s with store := s.store.revokeUserSessions userID now }.move r p) userID gen where
  reached
  live here user unrevoked := absurd user (live_revokeUserSessions here unrevoked).2

variable [PasswordLib]

/-! ## The invariant -/

/-- And no call is about to overwrite it with an upgrade. -/
structure Kept (s : System) (userID : ULID) (gen : ℕ) (hash : Bytes) : Prop where
  new : ∃ password salt, hash = hashPassword password salt
  reached : gen ≤ s.gen userID
  stored : s.gen userID = gen → s.store.userPasswordHashByID userID = hash
  calm : ∀ r newHash, s.phase r ≠ .upgrading userID gen newHash

/-- What a call has read and stored, by the phase it is in. -/
structure Fine (requests : ℕ → Request) (s : System) (r : ℕ) (p : Phase) : Prop where
  upgrading : ∀ {userID gen newHash}, p = .upgrading userID gen newHash → gen ≤ s.gen userID
  storing : ∀ {userID read hash}, p = .storing userID read hash →
    ∃ salt, hash = hashPassword (requests r).newPassword salt
  stored : ∀ {userID gen hash}, p.stored = some (userID, gen, hash) →
    Kept s userID gen hash ∧ ∃ salt, hash = hashPassword (requests r).newPassword salt
  cleared : ∀ {userID gen}, p.cleared = some (userID, gen) → Cleared s userID gen
  replaced : ∀ {read gen}, p.replaced = some (read, gen) → gen = read + 1

/-- Every call is fine in its phase. -/
def Consistent (requests : ℕ → Request) (s : System) : Prop := ∀ r, Fine requests s r (s.phase r)

/-- Generations only grow, and what a change has left stays. -/
structure Grows (s next : System) : Prop where
  gen : ∀ userID, s.gen userID ≤ next.gen userID
  kept : ∀ {userID gen hash}, Kept s userID gen hash → Kept next userID gen hash
  cleared : ∀ {userID gen}, Cleared s userID gen → Cleared next userID gen

variable {requests : ℕ → Request} {p : Phase} {r : ℕ} {hash : Bytes} {cfg : Config}

theorem Fine.grow (fine : Fine requests s r p) (grows : Grows s next) :
    Fine requests next r p where
  upgrading same := le_trans (fine.upgrading same) (grows.gen _)
  storing := fine.storing
  stored same := ⟨grows.kept (fine.stored same).1, (fine.stored same).2⟩
  cleared same := grows.cleared (fine.cleared same)
  replaced := fine.replaced

theorem Consistent.move (consistent : Consistent requests s)
    (moved : next.phase = update s.phase r p) (grows : Grows s next)
    (new : Fine requests next r p) : Consistent requests next := by
  unfold Consistent
  rw [moved]
  refine (forall_update_iff s.phase fun q p => Fine requests next q p).mpr ⟨new, ?_⟩
  exact fun q _ => (consistent q).grow grows

theorem Fine.plain (plain : p.plain = true) : Fine requests s r p := by
  cases p <;> cases plain <;> exact ⟨nofun, nofun, nofun, nofun, nofun⟩

theorem Kept.of_same (kept : Kept s userID gen hash)
    (grown : s.gen userID ≤ next.gen userID) (same : next.gen userID = gen →
      next.store.userPasswordHashByID userID = s.store.userPasswordHashByID userID)
    (calm : ∀ r newHash, next.phase r ≠ .upgrading userID gen newHash) :
    Kept next userID gen hash where
  new := kept.new
  reached := le_trans kept.reached grown
  stored now := by
    rw [same now]
    exact kept.stored (le_antisymm (now ▸ grown) kept.reached)
  calm

/-- The phases in which a call can begin. -/
inductive Begun (cfg : Config) (s : System) (req : Request) : Phase → Prop
  | upgrading (userID : ULID) (password : Bytes) (salt : Option Bytes)
      (new : (verifyCredential password (s.store.userPasswordHashByID userID)
        cfg.allowLegacyBcrypt salt).newHash ≠ []) :
      Begun cfg s req (.upgrading userID (s.gen userID)
        (verifyCredential password (s.store.userPasswordHashByID userID)
          cfg.allowLegacyBcrypt salt).newHash)
  | checked (userID : ULID) : Begun cfg s req (.checked userID (s.gen userID))
  | steppedUp : Begun cfg s req .steppedUp
  | storing (userID : ULID) (read : Option ℕ) (salt : Bytes) :
      Begun cfg s req (.storing userID read (hashPassword req.newPassword salt))
  | refused (e : Refusal) : Begun cfg s req (.refused e)

theorem Begun.uncleared {req : Request} (begun : Begun cfg s req p) : p.cleared = none := by
  cases begun <;> rfl

theorem Begun.unless {req : Request} {c : Prop} [Decidable c] {e : Refusal}
    (rest : ¬c → Begun cfg s req p) : Begun cfg s req (if c then .refused e else p) := by
  split
  · exact .refused e
  next passed => exact rest passed

theorem begun_beginSignin (cfg : Config) (s : System) (req : Request) (emailAddr password : Bytes)
    (a : Answers) : Begun cfg s req (beginSignin cfg s emailAddr password a) := by
  refine .unless fun _ => ?_
  cases s.store.userByEmail (cfg.normalizeEmail emailAddr) with
  | none => exact .refused _
  | some user =>
    refine .unless fun _ => .unless fun _ => .unless fun _ => ?_
    split
    next new => exact .upgrading user.id password a.salt new
    · exact .checked user.id

theorem begun_beginStepUp (cfg : Config) (s : System) (req : Request) (userID : ULID)
    (password : Bytes) (a : Answers) : Begun cfg s req (beginStepUp cfg s userID password a) := by
  refine .unless fun _ => .unless fun _ => ?_
  split
  next new => exact .upgrading userID password a.salt new
  · exact .unless fun _ => .steppedUp

theorem begun_beginStoring (cfg : Config) (s : System) (req : Request) (userID : ULID)
    (read : Option ℕ) (context : Bytes) (salt : Option Bytes) :
    Begun cfg s req (beginStoring userID read req.newPassword context salt) := by
  cases salt with
  | none => exact .refused _
  | some salt => exact .storing userID read salt

theorem begun_beginReset (cfg : Config) (s : System) (token newPassword : Bytes) (a : Answers) :
    Begun cfg s (.reset token newPassword) (beginReset cfg s token newPassword a).1 := by
  have storing := begun_beginStoring cfg s (.reset token newPassword)
  unfold beginReset
  split
  · exact .refused _
  cases validatePassword cfg a.breached newPassword with
  | some e => exact .refused e
  | none =>
    cases consumePasswordResetToken s.resetTokens (hashToken token) a.now with
    | none => exact .refused _
    | some consumed =>
      dsimp only
      split
      · exact .refused _
      · exact storing consumed.1.userID none [] a.salt

theorem begun_beginChange (cfg : Config) (s : System) (userID : ULID)
    (currentPassword newPassword : Bytes) (a : Answers) :
    Begun cfg s (.changePassword userID currentPassword newPassword)
      (beginChange cfg s userID currentPassword newPassword a) := by
  have storing := begun_beginStoring cfg s (.changePassword userID currentPassword newPassword)
  exact .unless fun _ => .unless fun _ =>
    .unless fun _ => .unless fun _ => storing userID _ _ a.salt

theorem begun_begin (cfg : Config) (s : System) (req : Request) (a : Answers) :
    Begun cfg s req (begin_ cfg s req a).1 := by
  cases req with
  | signin emailAddr password => exact begun_beginSignin cfg s _ emailAddr password a
  | stepUp userID password => exact begun_beginStepUp cfg s _ userID password a
  | reset token newPassword => exact begun_beginReset cfg s token newPassword a
  | changePassword userID currentPassword newPassword =>
    exact begun_beginChange cfg s userID currentPassword newPassword a

theorem Begun.calm {req : Request} (begun : Begun cfg s req p) (kept : Kept s userID gen hash)
    (newHash : Bytes) : p ≠ .upgrading userID gen newHash := by
  rintro rfl
  cases begun with
  | upgrading _ password salt new =>
    obtain ⟨own, own_salt, rfl⟩ := kept.new
    rw [kept.stored rfl] at new
    exact new (newHash_of_hashPassword password own own_salt _ salt)

theorem Begun.fine (begun : Begun cfg s (requests r) p)
    (gen : next.gen = s.gen) : Fine requests next r p := by
  cases begun with
  | upgrading =>
    refine ⟨fun same => ?_, nofun, nofun, nofun, nofun⟩
    cases same
    rw [gen]
  | checked | steppedUp | refused => exact .plain rfl
  | storing _ _ salt =>
    refine ⟨nofun, fun same => ?_, nofun, nofun, nofun⟩
    cases same
    exact ⟨salt, rfl⟩

theorem Grows.quiet (moved : next.phase = update s.phase r p)
    (store : next.store = s.store) (gen : next.gen = s.gen) (obtained : next.obtained = s.obtained)
    (calm : ∀ {userID gen hash}, Kept s userID gen hash →
      ∀ newHash, p ≠ .upgrading userID gen newHash) : Grows s next where
  gen userID := le_of_eq (congrFun gen userID).symm
  kept {userID _ _} kept := by
    refine kept.of_same (le_of_eq (congrFun gen userID).symm) (fun _ => by rw [store]) ?_
    exact calm_move moved (calm kept) kept.calm
  cleared {userID _} cleared := by
    refine cleared.of_live (le_of_eq (congrFun gen userID).symm) obtained fun here _ => ?_
    rwa [store] at here

section

variable (calm : ∀ userID gen newHash, p ≠ .upgrading userID gen newHash)
include calm

theorem Grows.sessions (moved : next.phase = update s.phase r p)
    (hashes : next.store.passwordHashes = s.store.passwordHashes) (gen : next.gen = s.gen)
    (cleared : ∀ {userID gen}, Cleared s userID gen → Cleared next userID gen) : Grows s next where
  gen userID := le_of_eq (congrFun gen userID).symm
  kept {userID _ _} kept := by
    refine kept.of_same (le_of_eq (congrFun gen userID).symm) (fun _ => ?_)
      (calm_move moved (calm _ _) kept.calm)
    rw [userPasswordHashByID, hashes]
    rfl
  cleared

theorem Grows.upgrade {newHash : Bytes} (here : s.phase r = .upgrading userID gen newHash)
    (current : s.gen userID = gen) :
    Grows s
      ({ s with store := (s.store.setUserPassword userID newHash).getD s.store }.move r p) := by
  cases done : s.store.setUserPassword userID newHash with
  | none => exact .quiet rfl rfl rfl rfl fun _ => calm _ _
  | some =>
    refine ⟨fun _ => le_refl _, fun {other _ _} kept => ?_, fun cleared => ?_⟩
    · refine kept.of_same (le_refl _) (fun now => ?_) (calm_move rfl (calm _ _) kept.calm)
      refine (userPasswordHashByID_setUserPassword done other).trans (if_neg ?_)
      rintro rfl
      have same : gen = _ := current.symm.trans now
      exact kept.calm r newHash (same ▸ here)
    · refine cleared.of_live (le_refl _) rfl fun stored _ => ?_
      rw [← sessions_setUserPassword done]
      exact stored

theorem Grows.store {store : UserStore} (done : s.store.setUserPassword userID hash = some store) :
    Grows s ({ s with store, gen := update s.gen userID (s.gen userID + 1) }.move r p) := by
  have grown : ∀ other, s.gen other ≤ update s.gen userID (s.gen userID + 1) other :=
    (forall_update_iff s.gen fun other n => s.gen other ≤ n).mpr ⟨le_succ _, fun _ _ => le_refl _⟩
  refine ⟨grown, fun {other gen _} kept => ?_, fun {other _} cleared => ?_⟩
  · refine kept.of_same (grown other) (fun now => ?_) (calm_move rfl (calm _ _) kept.calm)
    refine (userPasswordHashByID_setUserPassword done other).trans (if_neg ?_)
    rintro rfl
    have reached := kept.reached
    have later : s.gen other + 1 = gen := (update_self ..).symm.trans now
    omega
  · refine cleared.of_live (grown other) rfl fun stored _ => ?_
    rw [← sessions_setUserPassword done]
    exact stored

theorem Consistent.kept_store (consistent : Consistent requests s) {password salt : Bytes}
    {store : UserStore}
    (done : s.store.setUserPassword userID (hashPassword password salt) = some store) :
    Kept ({ s with store, gen := update s.gen userID (s.gen userID + 1) }.move r p)
      userID (s.gen userID + 1) (hashPassword password salt) where
  new := ⟨password, salt, rfl⟩
  reached := by
    change _ ≤ update s.gen userID (s.gen userID + 1) userID
    rw [update_self]
  stored _ := (userPasswordHashByID_setUserPassword done userID).trans (if_pos rfl)
  calm := by
    refine calm_move rfl (calm _ _) fun q newHash here => ?_
    have bounded := (consistent q).upgrading here
    omega

theorem Grows.create (cfg : Config) (level : AuthLevel) (o : Obtained) (a : Answers)
    (current : s.gen userID = gen) (since : ∀ earlier, earlier ≤ gen → o.Since earlier) :
    Grows s ((s.createSession cfg userID level o a).move r p) := by
  refine .sessions calm rfl rfl rfl fun {other earlier} cleared => ?_
  have created : Cleared (s.createSession cfg userID level o a) other earlier := by
    refine cleared.create cfg level o a ?_
    rintro rfl
    exact since earlier (current ▸ cleared.reached)
  exact ⟨created.reached, created.live⟩

theorem Grows.revoke (userID : ULID) (now : Time) :
    Grows s ({ s with store := s.store.revokeUserSessions userID now }.move r p) :=
  .sessions calm rfl rfl rfl fun cleared =>
    cleared.of_live (le_refl _) rfl fun here unrevoked =>
      (live_revokeUserSessions here unrevoked).1

end

theorem Grows.elsewhere (id : ULID) (now : Time) :
    Grows s { s with store := (s.store.revokeSession id now).getD s.store } where
  gen _ := le_refl _
  kept kept := kept.of_same (le_refl _)
    (fun _ => by
      rw [userPasswordHashByID, passwordHashes_revokeSession]
      rfl)
    kept.calm
  cleared cleared := cleared.of_live (le_refl _) rfl live_revokeSession

theorem Fine.revoke {read : Option ℕ} (fine : Fine requests s r (.revoking userID read gen hash))
    (now : Time) :
    Fine requests
      ({ s with store := s.store.revokeUserSessions userID now }.move r
        (afterRevoke userID read gen hash)) r (afterRevoke userID read gen hash) := by
  obtain ⟨kept, salt⟩ := fine.stored rfl
  have grows := Grows.revoke (s := s) (r := r)
    (afterRevoke_ne_upgrading userID · read gen · hash ·) userID now
  cases read with
  | none =>
    refine ⟨nofun, nofun, fun same => ?_, fun same => ?_, nofun⟩
    · cases same
      exact ⟨grows.kept kept, salt⟩
    · cases same
      exact cleared_revoke kept.reached
  | some =>
    refine ⟨nofun, nofun, fun same => ?_, fun same => ?_, fun same => ?_⟩
    · cases same
      exact ⟨grows.kept kept, salt⟩
    · cases same
      exact cleared_revoke kept.reached
    · cases same
      exact fine.replaced rfl

theorem Consistent.step {a : Action} (consistent : Consistent requests s)
    (undisturbed : Undisturbed s a) (taken : step cfg requests s a = some next) :
    Consistent requests next := by
  cases stepped_of_step cfg taken with
  | begin r a =>
    have begun := begun_begin cfg s (requests r) a
    exact consistent.move rfl (.quiet rfl rfl rfl rfl begun.calm) (begun.fine rfl)
  | refuse => exact consistent.move rfl (.quiet rfl rfl rfl rfl fun _ _ => nofun) (.plain rfl)
  | upgrade r _ userID gen _ here =>
    -- the hash that was checked is still of the current generation, so no change is undone
    rw [Undisturbed, here] at undisturbed
    have plain := plain_afterUpgrade (requests r) userID gen
    exact consistent.move rfl (.upgrade (Phase.ne_upgrading plain) here undisturbed) (.plain plain)
  | gate _ a userID gen =>
    have plain := plain_afterGate cfg s userID gen a
    exact consistent.move rfl (.quiet rfl rfl rfl rfl fun _ => Phase.ne_upgrading plain _ _)
      (.plain plain)
  | issue _ a _ _ level here =>
    rw [Undisturbed, here] at undisturbed
    refine consistent.move rfl (.create (by nofun) cfg level _ a undisturbed ?_) (.plain rfl)
    exact fun _ earlier => .inl earlier
  | store r a _ read _ store here done =>
    obtain ⟨salt, rfl⟩ := (consistent r).storing here
    rw [Undisturbed, here] at undisturbed
    refine consistent.move rfl (.store (by nofun) done) ⟨nofun, nofun, fun same => ?_, nofun, ?_⟩
    · -- the change starts a generation of its own, on which no upgrade rests yet
      cases same
      exact ⟨consistent.kept_store (by nofun) done, salt, rfl⟩
    · cases read with
      | none => exact nofun
      | some =>
        intro _ _ same
        cases same
        exact congrArg (· + 1) undisturbed
  | revoke r a userID read gen hash here =>
    have fine := here ▸ consistent r
    exact consistent.move rfl
      (.revoke (afterRevoke_ne_upgrading userID · read gen · hash ·) userID a.now)
      (fine.revoke a.now)
  | find r _ userID read gen hash here =>
    have grows : Grows s (s.move r (.reissuing userID read gen hash)) :=
      .quiet rfl rfl rfl rfl fun _ _ => nofun
    have fine := (here ▸ consistent r : Fine requests s r (.finding userID read gen hash))
    refine consistent.move rfl grows ⟨nofun, nofun, ?_, ?_, ?_⟩
    · exact (fine.grow grows).stored
    · exact (fine.grow grows).cleared
    · exact fine.replaced
  | reissue r a userID read gen hash here =>
    rw [Undisturbed, here] at undisturbed
    -- the session rests on the generation before the change, and counts as the change's own
    have fine := (here ▸ consistent r : Fine requests s r (.reissuing userID read gen hash))
    have grows : Grows s
        ((s.createSession cfg userID .unset _ a).move r (.changed userID gen hash)) :=
      .create (by nofun) cfg .unset _ a undisturbed fun _ => since_of_change (fine.replaced rfl)
    refine consistent.move rfl grows ⟨nofun, nofun, ?_, ?_, nofun⟩
    · exact (fine.grow grows).stored
    · exact (fine.grow grows).cleared
  | elsewhere id now => exact fun q => (consistent q).grow (.elsewhere id now)

/-- **A change lasts**, where no call is overtaken by a change. -/
theorem change_lasts (cfg : Config) (requests : ℕ → Request) (store : UserStore)
    (resetTokens : GoMap ULID PasswordResetToken) (actions : List Action) (last : System)
    (undisturbed : Throughout (step cfg requests) Undisturbed (.initial store resetTokens) actions)
    (ran : run (step cfg requests) (.initial store resetTokens) actions = some last) (r : ℕ)
    (userID : ULID) (gen : ℕ) (hash : Bytes) (success : last.phase r = .changed userID gen hash) :
    (∃ salt, hash = hashPassword (requests r).newPassword salt) ∧
      (last.gen userID = gen → last.store.userPasswordHashByID userID = hash) ∧
        ∀ id sess, last.store.sessions.lookup id = some sess → sess.userID = userID →
          sess.revokedAt = none → ∃ o, last.obtained id = some o ∧ o.Since gen := by
  have consistent : Consistent requests last :=
    invariant_of_run_throughout (fun before current taken => before.step current taken)
      (fun _ => .plain rfl) undisturbed ran
  have fine := (success ▸ consistent r : Fine requests last r (.changed userID gen hash))
  obtain ⟨kept, new⟩ := fine.stored rfl
  exact ⟨new, kept.stored, fun _ _ => (fine.cleared rfl).live⟩

end

/-! ## A migrated user -/

@[reducible]
def plainHashes : PasswordLib where
  verifyPassword plain stored := some ((splitByte 0x24 stored).getLast? == some plain)
  verifyLegacyBcrypt plain stored := some (stored == str "$2a$10$" ++ plain)
  verifyLegacyPBKDF2 _ _ := none
  idKey plain _ := plain
  rawStd := id
  scanCosts _ := some (65536, 3, 4)
  scanCosts_new := rfl

def migrated : UserStore :=
  { UserStore.empty.createUser ⟨1, str "user@example.com"⟩ with
    passwordHashes := (∅ : GoMap ULID Bytes).insert 1 (str "$2a$10$old password") }

def mailed : GoMap ULID PasswordResetToken :=
  (∅ : GoMap ULID PasswordResetToken).insert 9 ⟨9, 1, hashToken (str "t"), 100, none⟩

def signinAndReset : ℕ → Request
  | 0 => .signin (str "user@example.com") (str "old password")
  | 1 => .reset (str "t") (str "new password")
  | _ => .signin (str "user@example.com") (str "new password")

def wholeReset : List Action :=
  [.advance 1 { salt := some (str "s1") }, .advance 1 {}, .advance 1 {}]

def restOfSignin : List Action :=
  [.advance 0 {}, .advance 0 {}, .advance 0 { sessionID := 30, token := str "a" }]

def signinChecked : Action := .advance 0 { salt := some (str "s0") }

def inTurn : List Action :=
  signinChecked :: restOfSignin ++ wholeReset ++
    [.advance 2 {}, .advance 2 {}, .advance 2 { sessionID := 31, token := str "b" }]

theorem change_lasts_in_turn :
    letI := plainHashes
    ∃ last, run (step { allowLegacyBcrypt := true } signinAndReset) (.initial migrated mailed)
        inTurn = some last ∧
      last.store.userPasswordHashByID 1 = hashPassword (str "new password") (str "s1") ∧
        ∀ id sess, last.store.sessions.lookup id = some sess → sess.userID = 1 →
          sess.revokedAt = none → ∃ o, last.obtained id = some o ∧ o.Since 1 := by
  let := plainHashes
  have ran : ((run (step { allowLegacyBcrypt := true } signinAndReset) (.initial migrated mailed)
      inTurn).map fun last => (last.phase 1, last.gen 1)) =
        some (.changed 1 1 (hashPassword (str "new password") (str "s1")), 1) := by decide +kernel
  obtain ⟨last, ran, same⟩ := Option.map_eq_some_iff.mp ran
  obtain ⟨success, current⟩ := Prod.mk.inj same
  obtain ⟨-, stored, live⟩ := change_lasts _ _ _ _ _ last (by decide +kernel) ran 1 1 1 _ success
  exact ⟨last, ran, stored current, live⟩

/-- A sign-in checks the old password, the reset returns, and the sign-in stores a hash of the old
password. -/
theorem old_password_outlives_reset :
    letI := plainHashes
    ∃ last, run (step { allowLegacyBcrypt := true } signinAndReset) (.initial migrated mailed)
        (signinChecked :: wholeReset ++ restOfSignin) = some last ∧
      last.phase 1 = .changed 1 1 (hashPassword (str "new password") (str "s1")) ∧
      last.gen 1 = 1 ∧
      last.store.userPasswordHashByID 1 = hashPassword (str "old password") (str "s0") ∧
      hashPassword (str "old password") (str "s0") ≠ hashPassword (str "new password") (str "s1") ∧
      (∃ sess, last.store.sessions.lookup 30 = some sess ∧ sess.userID = 1 ∧
        sess.revokedAt = none) ∧
      last.obtained 30 = some { proved := 0 } := by
  decide +kernel

end TheAuth.Password
