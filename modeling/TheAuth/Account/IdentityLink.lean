import TheAuth.Http.Session

/-!
# Linking and merging identities

Merging takes the identifier of the other user and nothing that proves control of that account: it
moves the credentials and revokes the sessions of the user it names. Linking and unlinking change
the caller's own credentials only.
-/

set_option autoImplicit false

namespace TheAuth.Account

open Go Server Store Http List UlidText GoMap

inductive LinkError where
  | refused (refusal : Refusal)
  | validationInvalid (message : Bytes)
  | stepUpRequired
  | identityConflict (conflictingUserID : ULID)
  | weakPassword | hashFailed | userNotFound | mergeSelf
  | moveFailed (provider providerUserID : Bytes)
  | lastAuthMethod
  | notLinked (provider : Bytes)
  deriving DecidableEq

/-- What the environment answers a link. -/
structure LinkAnswers extends SessionAnswers where
  id : ULID
  hashPassword : Bytes → Option Bytes

variable (s : UserStore) (sessionToken : Bytes)

def requireFullSession : Except LinkError Session :=
  match s.sessionByTokenHash (hashToken sessionToken) with
  | none => .error .stepUpRequired
  | some sess =>
    if sess.revokedAt.isSome then .error .stepUpRequired
    else if !sess.isFull then .error .stepUpRequired
    else .ok sess

def authMethodCount (userID : ULID) : ℕ :=
  (if s.userPasswordHashByID userID = [] then 0 else 1) +
    (s.oauthAccountsByUserID userID).length +
    (s.webAuthnCredentialsByUserID userID).length +
    if (s.totpSecrets.lookup userID).any fun totp => totp.confirmedAt.isSome then 1 else 0

def withFullSession
    (use : Session → Except LinkError Unit × UserStore) : Except LinkError Unit × UserStore :=
  match requireFullSession s sessionToken with
  | .error e => (.error e, s)
  | .ok sess => use sess

def linkOAuthToCurrentUser (account : OAuthAccount)
    (a : LinkAnswers) : Except LinkError Unit × UserStore :=
  withFullSession s sessionToken fun sess =>
    match s.oauthAccountByProviderUserID account.provider account.providerUserID with
    | some existing =>
      if existing.userID = sess.userID then (.ok (), s)
      else (.error (.identityConflict existing.userID), s)
    | none =>
      (.ok (), s.upsertOAuthAccount
        { account with
          id := a.id
          userID := sess.userID
          createdAt := a.now
          updatedAt := a.now }
        a.now)

def linkPasswordToCurrentUser (sessionToken password : Bytes)
    (a : LinkAnswers) : Except LinkError Unit × UserStore :=
  withFullSession s sessionToken fun sess =>
    if password.length < 12 then (.error .weakPassword, s)
    else match a.hashPassword password with
    | none => (.error .hashFailed, s)
    | some hash =>
      match s.setUserPassword sess.userID hash with
      | none => (.error .userNotFound, s)
      | some next => (.ok (), next)

def moveAccounts (primaryID : ULID) (now : Time) :
    UserStore → List OAuthAccount → Except LinkError Unit × UserStore
  | s, [] => (.ok (), s)
  | s, oa :: rest =>
    match s.moveOAuthAccount oa.provider oa.providerUserID primaryID now with
    | none => (.error (.moveFailed oa.provider oa.providerUserID), s)
    | some next => moveAccounts primaryID now next rest

def moveRest (primaryID secondaryID : ULID) (now : Time) : UserStore :=
  (((s.movePasswordHash primaryID secondaryID).moveWebAuthnCredentials primaryID
    secondaryID).moveTOTPSecret primaryID secondaryID).revokeUserSessions secondaryID now

def mergeAccounts (secondaryID : ULID) (a : LinkAnswers) : Except LinkError Unit × UserStore :=
  withFullSession s sessionToken fun sess =>
    if sess.userID = secondaryID then (.error .mergeSelf, s)
    else if (s.users.lookup secondaryID).isNone then (.error .userNotFound, s)
    else match moveAccounts sess.userID a.now s (s.oauthAccountsByUserID secondaryID) with
    | (.error e, next) => (.error e, next)
    | (.ok _, next) => (.ok (), moveRest next sess.userID secondaryID a.now)

def unlinkOAuthProvider (sessionToken provider : Bytes) :
    Except LinkError Unit × UserStore :=
  withFullSession s sessionToken fun sess =>
    if authMethodCount s sess.userID ≤ 1 then (.error .lastAuthMethod, s)
    else match s.deleteOAuthAccountByProvider sess.userID provider with
    | none => (.error (.notLinked provider), s)
    | some next => (.ok (), next)

/-- A call of the service. -/
inductive LinkRequest where
  | linkOAuth (account : OAuthAccount)
  | linkPassword (password : Bytes)
  | merge (secondaryUserID : Bytes)
  | unlink (provider : Bytes)

def handle [UlidText] (s : UserStore) (sessToken : Bytes) (req : LinkRequest)
    (a : LinkAnswers) : Except LinkError Unit × UserStore :=
  match req with
  | .linkOAuth account => linkOAuthToCurrentUser s sessToken account a
  | .linkPassword password =>
    if password = [] then (.error (.validationInvalid (str "password required")), s)
    else linkPasswordToCurrentUser s sessToken password a
  | .merge secondaryUserID =>
    if secondaryUserID = [] then
      (.error (.validationInvalid (str "secondaryUserId required")), s)
    else match UlidText.parse secondaryUserID with
    | none => (.error (.validationInvalid (str "invalid secondaryUserId")), s)
    | some secondaryID => mergeAccounts s sessToken secondaryID a
  | .unlink provider =>
    if provider = [] then (.error (.validationInvalid (str "provider required")), s)
    else unlinkOAuthProvider s sessToken provider

/-- One call of the service. -/
def serve [UlidText] (p : SessionPolicy) (s : UserStore) (cookie : Bytes) (req : LinkRequest)
    (a : LinkAnswers) : Except LinkError Unit × UserStore :=
  match requireAuth p s cookie a.toSessionAnswers with
  | (.error refusal, next) => (.error (.refused refusal), next)
  | (.ok _, next) => handle next cookie req a

/-! ## Frames -/

section

variable {s : UserStore} {sessionToken : Bytes} {other : ULID} {a : LinkAnswers}

section

variable (foreign : ¬ Holds s other sessionToken)
include foreign

theorem spared_withFullSession {use : Session → Except LinkError Unit × UserStore}
    (spares : ∀ sess, sess.userID ≠ other → Spared other s.toUserTables (use sess).2.toUserTables) :
    Spared other s.toUserTables (withFullSession s sessionToken use).2.toUserTables := by
  unfold withFullSession requireFullSession
  split
  · exact .refl _ _
  rename_i sess resolved
  split at resolved
  · cases resolved
  rename_i found
  split at resolved
  · cases resolved
  split at resolved <;> cases resolved
  exact spares sess fun owner => foreign (owner ▸ holds_of_sessionByTokenHash found)

theorem spared_linkOAuthToCurrentUser {account : OAuthAccount}
    (fresh : s.oauthAccounts.lookup a.id = none) :
    Spared other s.toUserTables
      (linkOAuthToCurrentUser s sessionToken account a).2.toUserTables := by
  refine spared_withFullSession foreign fun sess different => ?_
  split
  · split <;> exact .refl _ _
  next unlinked => exact .upsertOAuthAccount unlinked fresh different

theorem spared_linkPasswordToCurrentUser {password : Bytes} :
    Spared other s.toUserTables
      (linkPasswordToCurrentUser s sessionToken password a).2.toUserTables := by
  refine spared_withFullSession foreign fun sess different => ?_
  iterate 3
    split
    · exact .refl _ _
  next done => exact .setUserPassword different done

theorem spared_unlinkOAuthProvider {provider : Bytes} :
    Spared other s.toUserTables
      (unlinkOAuthProvider s sessionToken provider).2.toUserTables := by
  refine spared_withFullSession foreign fun sess different => ?_
  split
  · exact .refl _ _
  split
  · exact .refl _ _
  next done => exact .deleteOAuthAccountByProvider different done

end

theorem spared_moveAccounts {primaryID : ULID} {now : Time} (different : primaryID ≠ other)
    {accounts : List OAuthAccount}
    (elsewhere : ∀ oa ∈ accounts,
      LinkedElsewhere other s.toUserTables oa.provider oa.providerUserID) :
    Spared other s.toUserTables (moveAccounts primaryID now s accounts).2.toUserTables := by
  induction accounts generalizing s with
  | nil => exact .refl _ _
  | cons oa rest ih =>
    unfold moveAccounts
    split
    · exact .refl _ _
    rename_i moved
    have first := Spared.moveOAuthAccount (elsewhere oa mem_cons_self) different moved
    refine first.trans (ih fun later listed => ?_)
    intro _ _ here provider user
    rcases UserStore.of_moveOAuthAccount moved here with owner | before
    · rw [owner]
      exact different
    · exact elsewhere later (mem_cons_of_mem _ listed) before provider user

theorem linkedElsewhere_of_listed {secondaryID : ULID} (different : secondaryID ≠ other)
    {oa : OAuthAccount} (listed : oa ∈ s.oauthAccountsByUserID secondaryID) :
    LinkedElsewhere other s.toUserTables oa.provider oa.providerUserID := by
  obtain ⟨stored, owned⟩ := mem_filter.mp listed
  obtain ⟨_, there⟩ := mem_values.mp stored
  intro _ a here provider user
  obtain rfl := s.linkedOnce here there provider user
  obtain rfl : a = oa := Option.some.inj (here.symm.trans there)
  rw [beq_iff_eq.mp owned]
  exact different

theorem spared_moveRest {primaryID secondaryID : ULID} (first : primaryID ≠ other)
    (second : secondaryID ≠ other) (now : Time) :
    Spared other s.toUserTables (moveRest s primaryID secondaryID now).toUserTables :=
  (((Spared.movePasswordHash first second).trans
    (.moveWebAuthnCredentials first second)).trans
      (.moveTOTPSecret first second)).trans (.revokeUserSessions second now)

theorem spared_mergeAccounts {secondaryID : ULID} (foreign : ¬ Holds s other sessionToken)
    (unnamed : secondaryID ≠ other) :
    Spared other s.toUserTables
      (mergeAccounts s sessionToken secondaryID a).2.toUserTables := by
  refine spared_withFullSession foreign fun sess different => ?_
  have moved : Spared other s.toUserTables (moveAccounts sess.userID a.now s
      (s.oauthAccountsByUserID secondaryID)).2.toUserTables :=
    spared_moveAccounts different fun _ listed => linkedElsewhere_of_listed unnamed listed
  split
  · exact .refl _ _
  split
  · exact .refl _ _
  split
  next stopped => rwa [stopped] at moved
  rename_i done
  rw [done] at moved
  exact moved.trans (spared_moveRest different unnamed a.now)

variable [UlidText]

theorem spared_handle {req : LinkRequest} (foreign : ¬ Holds s other sessionToken)
    (fresh : s.oauthAccounts.lookup a.id = none)
    (unnamed : ∀ text, req = .merge text → parse text ≠ some other) :
    Spared other s.toUserTables (handle s sessionToken req a).2.toUserTables := by
  cases req with
  | linkOAuth => exact spared_linkOAuthToCurrentUser foreign fresh
  | linkPassword =>
    dsimp only [handle]
    split
    · exact .refl _ _
    · exact spared_linkPasswordToCurrentUser foreign
  | merge text =>
    dsimp only [handle]
    split
    · exact .refl _ _
    split
    · exact .refl _ _
    rename_i parsed
    refine spared_mergeAccounts foreign fun same => ?_
    exact unnamed text rfl (parsed.trans (congrArg some same))
  | unlink =>
    dsimp only [handle]
    split
    · exact .refl _ _
    · exact spared_unlinkOAuthProvider foreign

end

/-- **An identity link request changes nothing of another user, unless it is a merge that names that
user.** -/
theorem identity_link_spares_others [UlidText] (p : SessionPolicy) (s : UserStore)
    (cookie : Bytes) (req : LinkRequest) (a : LinkAnswers) (other : ULID)
    (foreign : ¬ Holds s other cookie) (fresh : s.oauthAccounts.lookup a.id = none)
    (unnamed : ∀ text, req = .merge text → parse text ≠ some other) :
    Spared other s.toUserTables (serve p s cookie req a).2.toUserTables := by
  obtain ⟨guarded, still⟩ := spared_authn (p := p) (a := a.toSessionAnswers) foreign
  obtain ⟨_, tables⟩ := authn_tables p s a.toSessionAnswers cookie
  rw [← requireAuth_store] at guarded still tables
  unfold serve
  split
  next refused => rwa [refused] at guarded
  rename_i passed
  rw [passed] at guarded still tables
  refine guarded.trans (spared_handle still ?_ unnamed)
  rw [tables]
  exact fresh

/-! ## Unlinking -/

/-- A method that alone starts a sign-in. A second factor is none. -/
abbrev CanSignIn (s : UserStore) (userID : ULID) : Prop :=
  s.userPasswordHashByID userID ≠ [] ∨ s.webAuthnCredentialsByUserID userID ≠ [] ∨
    s.oauthAccountsByUserID userID ≠ []

theorem unlinkOAuthProvider_eq_ok {s next : UserStore} {sessionToken provider : Bytes}
    {sess : Session} (full : requireFullSession s sessionToken = .ok sess)
    (done : unlinkOAuthProvider s sessionToken provider = (.ok (), next)) :
    s.deleteOAuthAccountByProvider sess.userID provider = some next := by
  rw [unlinkOAuthProvider, withFullSession, full] at done
  dsimp only at done
  split at done
  · cases done
  split at done <;> cases done
  rename_i deleted
  exact deleted

theorem deleteOAuthAccountByProvider_eq_some {s next : UserStore} {userID : ULID}
    {provider : Bytes} (done : s.deleteOAuthAccountByProvider userID provider = some next) :
    next.userPasswordHashByID userID = s.userPasswordHashByID userID ∧
      next.webAuthnCredentialsByUserID userID = s.webAuthnCredentialsByUserID userID ∧
        ∃ before a after, a.provider = provider ∧
          s.oauthAccountsByUserID userID = before ++ a :: after ∧
            next.oauthAccountsByUserID userID = before ++ after := by
  unfold UserStore.deleteOAuthAccountByProvider at done
  split at done <;> cases done
  rename_i a found
  obtain ⟨stored, holds⟩ := GoMap.find?_eq_some found
  rw [Bool.and_eq_true] at holds
  obtain ⟨before, after, whole, rest⟩ := GoMap.values_erase stored
  refine ⟨rfl, rfl, before.filter (·.userID == userID), a, after.filter (·.userID == userID),
    beq_iff_eq.mp holds.2, ?_, ?_⟩
  · rw [UserStore.oauthAccountsByUserID, whole, filter_append, filter_cons, if_pos holds.1]
  · rw [UserStore.oauthAccountsByUserID, rest, filter_append]

/-- **When a user who unlinks a provider keeps a sign-in method and no account of the provider.** -/
theorem unlink_keeps_signIn_iff (s next : UserStore) (sessionToken provider : Bytes)
    (sess : Session) (full : requireFullSession s sessionToken = .ok sess)
    (done : unlinkOAuthProvider s sessionToken provider = (.ok (), next)) :
    (CanSignIn next sess.userID ∧
        ∀ a ∈ next.oauthAccountsByUserID sess.userID, a.provider ≠ provider) ↔
      (s.oauthAccountsByUserID sess.userID).countP (·.provider == provider) = 1 ∧
        (s.userPasswordHashByID sess.userID ≠ [] ∨
          s.webAuthnCredentialsByUserID sess.userID ≠ [] ∨
            ∃ a ∈ s.oauthAccountsByUserID sess.userID, a.provider ≠ provider) := by
  obtain ⟨password, passkeys, before, gone, after, own, accounts, left⟩ :=
    deleteOAuthAccountByProvider_eq_some (unlinkOAuthProvider_eq_ok full done)
  have single : (before ++ gone :: after).countP (·.provider == provider) = 1 ↔
      ∀ a ∈ before ++ after, a.provider ≠ provider := by
    rw [countP_append, countP_cons, if_pos (beq_iff_eq.mpr own), ← Nat.add_assoc,
      ← countP_append, Nat.add_eq_right, countP_eq_zero]
    simp only [beq_iff_eq]
  unfold CanSignIn
  rw [password, passkeys, accounts, left, single, and_comm]
  refine and_congr_right fun none_ => or_congr_right (or_congr_right ?_)
  constructor
  · intro some_
    obtain ⟨a, listed⟩ := exists_mem_of_ne_nil _ some_
    refine ⟨a, ?_, none_ a listed⟩
    exact (mem_append.mp listed).elim (mem_append_left _)
      fun later => mem_append_right _ (mem_cons_of_mem _ later)
  · rintro ⟨_, listed, elsewhere⟩ empty
    obtain ⟨rfl, rfl⟩ := append_eq_nil_iff.mp empty
    obtain rfl := mem_singleton.mp listed
    exact elsewhere own

/-! ## Two users -/

def twoUsers : UserStore :=
  let users := (UserStore.empty.createUser ⟨1, str "p"⟩).createUser ⟨2, str "s"⟩
  let signedIn := (users.createSession
      ⟨10, 1, hashToken (str "p"), 0, 9, none, .full, none, 0, []⟩).createSession
      ⟨20, 2, hashToken (str "s"), 0, 9, none, .full, none, 0, []⟩
  { signedIn with passwordHashes := signedIn.passwordHashes.insert 2 (str "hash") }

def firstAnswers : LinkAnswers where
  now := 1
  id := 30
  hashPassword := some

theorem not_holds_twoUsers : ¬ Holds twoUsers 2 (str "p") := by
  rintro ⟨id, _, here, token, owner⟩
  change ((AList.insert 20 _ (AList.insert 10 _ ∅) : GoMap ULID Session)).lookup id = _ at here
  rw [lookup_insert_eq, lookup_insert_eq] at here
  split at here
  · cases here
    exact absurd token (by decide +kernel)
  split at here
  · cases here
    cases owner
  · cases here

attribute [local instance] unary

theorem identity_link_spares_others_password :
    Spared 2 twoUsers.toUserTables
      (serve {} twoUsers (str "p") (.linkPassword (str "correct horse"))
        firstAnswers).2.toUserTables := by
  refine @identity_link_spares_others unary {} twoUsers (str "p") _ firstAnswers 2
    not_holds_twoUsers rfl ?_
  intro _ named
  cases named

/-- The request carries the first user's session only, and takes the second user's password. -/
theorem merge_takes_credentials :
    let after := (serve {} twoUsers (str "p") (.merge (string 2)) firstAnswers).2
    ¬ Holds twoUsers 2 (str "p") ∧ twoUsers.oauthAccounts.lookup firstAnswers.id = none ∧
      twoUsers.passwordHashes.lookup 2 = some (str "hash") ∧
      after.passwordHashes.lookup 2 = none ∧
      after.passwordHashes.lookup 1 = some (str "hash") ∧
      (after.sessions.lookup 20).bind Session.revokedAt = some 1 := by
  refine ⟨not_holds_twoUsers, rfl, ?_⟩
  decide +kernel

def linkedUsers (accounts : List OAuthAccount) : UserStore :=
  let linked := accounts.foldl (fun s a => s.upsertOAuthAccount a 1) twoUsers
  { linked with totpSecrets := linked.totpSecrets.insert 1 ⟨1, str "k", some 1⟩ }

def accountAt (id userID : ULID) (providerUserID : Bytes) : OAuthAccount :=
  { id, userID, provider := str "g", providerUserID }

theorem unlink_keeps_signIn_password :
    let after := unlinkOAuthProvider (linkedUsers [accountAt 30 2 (str "a")]) (str "s") (str "g")
    after.1 = .ok () ∧ CanSignIn after.2 2 ∧
      ∀ a ∈ after.2.oauthAccountsByUserID 2, a.provider ≠ str "g" := by
  intro after
  have done : after.1 = .ok () := by decide +kernel
  have full : requireFullSession (linkedUsers [accountAt 30 2 (str "a")]) (str "s") =
      .ok ⟨20, 2, hashToken (str "s"), 0, 9, none, .full, none, 0, []⟩ := by decide +kernel
  have whole : after = (.ok (), after.2) := by rw [← done]
  exact ⟨done, (unlink_keeps_signIn_iff _ _ _ _ _ full whole).mpr (by decide +kernel)⟩

/-- The first user unlinks their only account. Of two accounts at the provider, one stays. -/
theorem unlink_locks_out :
    let one := unlinkOAuthProvider (linkedUsers [accountAt 30 1 (str "a")]) (str "p") (str "g")
    let two := unlinkOAuthProvider
      (linkedUsers [accountAt 30 1 (str "a"), accountAt 31 1 (str "b")]) (str "p") (str "g")
    (one.1 = .ok () ∧ ¬ CanSignIn one.2 1) ∧
      two.1 = .ok () ∧ ∃ a ∈ two.2.oauthAccountsByUserID 1, a.provider = str "g" := by
  decide +kernel

theorem requireFullSession_eq_ok {s : UserStore} {token : Bytes} {sess : Session}
    (full : requireFullSession s token = .ok sess) :
    s.sessionByTokenHash (hashToken token) = some sess ∧ sess.isFull = true := by
  unfold requireFullSession at full
  split at full
  · cases full
  split at full
  · cases full
  split at full <;> cases full
  simp_all

/-- **When a session that may change identities is one that session validation accepts.** -/
theorem fullSession_checked_iff (p : SessionPolicy) (s : UserStore) (token : Bytes)
    (a : SessionAnswers) (sess : Session) :
    (requireFullSession s token = .ok sess →
        ∃ found user, (check p s token a).1 = .ok (found, user) ∧ found.isFull = true) ↔
      (requireFullSession s token = .ok sess →
        Usable p token a sess ∧ (s.users.lookup sess.userID).isSome) := by
  refine imp_congr_right fun accepted => ?_
  obtain ⟨here, full⟩ := requireFullSession_eq_ok accepted
  constructor
  · rintro ⟨_, user, done, -⟩
    obtain ⟨_, there, -, holder, usable⟩ := validate_ok (Prod.ext done rfl)
    obtain rfl := Option.some.inj (here.symm.trans there)
    exact ⟨⟨usable.given, usable.live, usable.active, usable.bound⟩, by simp [holder]⟩
  · rintro ⟨usable, known⟩
    obtain ⟨user, holder⟩ := Option.isSome_iff_exists.mp known
    have checked : (if sess.credentialID ≠ [] then
        checkCredential { p with toucher := false } s sess a else (.ok (), s)) = (.ok (), s) := by
      split
      next bound => simp [checkCredential, usable.bound bound]
      · rfl
    refine ⟨sess, user, ?_, full⟩
    unfold check validate
    rw [if_neg usable.given, here]
    dsimp only
    rw [if_neg (by simp [usable.live]), if_neg usable.active, checked]
    simp [holder, touchSeen]

/-- The session ends at 9. -/
theorem expired_session_links :
    ∃ sess, requireFullSession twoUsers (str "p") = .ok sess ∧
      (check {} twoUsers (str "p") { now := 9 }).1 = .error .sessionExpired ∧
      (linkPasswordToCurrentUser twoUsers (str "p") (str "correct horse")
        { firstAnswers with now := 9 }).1 = .ok () :=
  ⟨⟨10, 1, hashToken (str "p"), 0, 9, none, .full, none, 0, []⟩, by decide +kernel⟩

end TheAuth.Account
