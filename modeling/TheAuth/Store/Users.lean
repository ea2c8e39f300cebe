import TheAuth.Go.Map
import TheAuth.Library.Frame
import TheAuth.Server.Model

/-!
# Users, their credentials and their sessions in the memory store

Passwords and second factors stand under their user; OAuth accounts, passkeys and sessions under an
identifier. `UserStore` adds that an account of a provider is linked once.
-/

set_option autoImplicit false

namespace TheAuth.Store

open Go Server Library.Frame GoMap Option AList

structure User where
  id : ULID
  email : Bytes
  deriving DecidableEq

inductive AuthLevel where
  | unset | full | pending2FA
  deriving DecidableEq

/-- A stored session. -/
structure Session where
  (id userID : ULID)
  tokenHash : Bytes
  createdAt : Time := 0
  expiresAt : Time
  revokedAt : Option Time := none
  authLevel : AuthLevel
  activeOrganizationID : Option ULID := none
  lastSeenAt : Time := 0
  credentialID : Bytes := []
  deriving DecidableEq

def Session.isFull (sess : Session) : Bool := sess.authLevel == .unset || sess.authLevel == .full

/-- The same session of the same user. -/
structure SameHolder (before after : Session) : Prop where
  id : after.id = before.id
  userID : after.userID = before.userID
  tokenHash : after.tokenHash = before.tokenHash
  active : after.activeOrganizationID = before.activeOrganizationID

theorem SameHolder.trans {first second third : Session} (one : SameHolder first second)
    (two : SameHolder second third) : SameHolder first third :=
  ⟨two.id.trans one.id, two.userID.trans one.userID, two.tokenHash.trans one.tokenHash,
    two.active.trans one.active⟩

structure OAuthAccount where
  (id userID : ULID)
  (provider providerUserID : Bytes)
  (accessTokenEnc refreshTokenEnc : Bytes := [])
  expiresAt : Option Time := none
  scope : Bytes := []
  (createdAt updatedAt : Time := 0)

def OAuthAccount.isOf (provider providerUserID : Bytes) (a : OAuthAccount) : Bool :=
  a.provider == provider && a.providerUserID == providerUserID

structure WebAuthnCredential where
  (id userID : ULID)
  credentialID : Bytes

structure TOTPSecret where
  userID : ULID
  secretEnc : Bytes
  confirmedAt : Option Time := none

/-- All that belongs to users. -/
structure UserTables where
  users : GoMap ULID User
  sessions : GoMap ULID Session
  passwordHashes : GoMap ULID Bytes
  oauthAccounts : GoMap ULID OAuthAccount
  webauthnCreds : GoMap ULID WebAuthnCredential
  totpSecrets : GoMap ULID TOTPSecret

/-- An account of a provider is linked once. -/
def LinkedOnce (accounts : GoMap ULID OAuthAccount) : Prop :=
  ∀ ⦃id id' a a'⦄, accounts.lookup id = some a → accounts.lookup id' = some a' →
    a.provider = a'.provider → a.providerUserID = a'.providerUserID → id = id'

/-- Users and sessions stand under their identifiers, and accounts are linked once. -/
structure UserStore extends UserTables where
  usersKeyed : users.Keyed User.id
  sessionsKeyed : sessions.Keyed Session.id
  linkedOnce : LinkedOnce oauthAccounts

variable {accounts : GoMap ULID OAuthAccount} {a : OAuthAccount}

theorem LinkedOnce.insert (linked : LinkedOnce accounts) {id : ULID}
    (own : ∀ {id' a'}, accounts.lookup id' = some a' → a'.provider = a.provider →
      a'.providerUserID = a.providerUserID → id' = id) :
    LinkedOnce (accounts.insert id a) := by
  intro _ _ _ _ here there provider user
  rw [lookup_insert_eq] at here there
  split at here
  next same =>
    cases here
    split at there
    next same' => rw [same, same']
    · rw [same, own there provider.symm user.symm]
  split at there
  next same' =>
    cases there
    rw [same', own here provider user]
  · exact linked here there provider user

theorem LinkedOnce.erase (linked : LinkedOnce accounts)
    (id : ULID) : LinkedOnce (accounts.erase id) :=
  fun _ _ _ _ here there =>
    linked (lookup_of_lookup_erase here) (lookup_of_lookup_erase there)

namespace UserStore

variable (s : UserStore)

def empty : UserStore where
  users := ∅
  sessions := ∅
  passwordHashes := ∅
  oauthAccounts := ∅
  webauthnCreds := ∅
  totpSecrets := ∅
  usersKeyed := .empty
  sessionsKeyed := .empty
  linkedOnce := nofun

def createUser (u : User) : UserStore :=
  { s with users := s.users.insert u.id u, usersKeyed := s.usersKeyed.insert rfl }

def userByEmail (email : Bytes) : Option User :=
  (s.users.find? fun u => u.email == email).map Prod.snd

def withLevel (sess : Session) : Session :=
  if sess.authLevel = .unset then { sess with authLevel := .full } else sess

def createSession (sess : Session) : UserStore :=
  { s with
    sessions := s.sessions.insert sess.id (withLevel sess)
    sessionsKeyed := s.sessionsKeyed.insert <| by
      unfold withLevel
      split <;> rfl }

def sessionByTokenHash (hash : Bytes) : Option Session :=
  (s.sessions.find? fun sess => sess.tokenHash == hash).map Prod.snd

variable (userID : ULID)

def revokeFor (now : Time) (sess : Session) : Session :=
  if sess.userID = userID ∧ sess.revokedAt = none then { sess with revokedAt := some now }
  else sess

def revokeUserSessions (now : Time) : UserStore :=
  { s with
    sessions := s.sessions.mapValues (revokeFor userID now)
    sessionsKeyed := s.sessionsKeyed.mapValues fun sess => by
      unfold revokeFor
      split <;> rfl }

variable (id : ULID)

def changeSession (change : Session → Session)
    (kept : ∀ sess, SameHolder sess (change sess)) : Option UserStore :=
  match found : s.sessions.lookup id with
  | none => none
  | some sess => some
      { s with
        sessions := s.sessions.insert id (change sess)
        sessionsKeyed := s.sessionsKeyed.insert ((kept sess).id.trans (s.sessionsKeyed found)) }

variable {s} in
theorem sameHolder_of_changeSession {id : ULID} {change : Session → Session}
    {kept : ∀ sess, SameHolder sess (change sess)} {next : UserStore}
    (done : s.changeSession id change kept = some next) {key : ULID} {after : Session}
    (here : next.sessions.lookup key = some after) :
    ∃ before, s.sessions.lookup key = some before ∧ SameHolder before after ∧
      (after = before ∨ after = change before) := by
  unfold changeSession at done
  split at done <;> cases done
  rename_i sess found
  obtain ⟨same, rfl⟩ | ⟨-, here⟩ := of_lookup_insert here
  · exact ⟨sess, same ▸ found, kept sess, .inr rfl⟩
  · exact ⟨after, here, ⟨rfl, rfl, rfl, rfl⟩, .inl rfl⟩

variable {s} in
theorem of_sessionByTokenHash {hash : Bytes} {sess : Session}
    (found : s.sessionByTokenHash hash = some sess) :
    s.sessions.lookup sess.id = some sess ∧ sess.tokenHash = hash := by
  obtain ⟨⟨_, _⟩, first, rfl⟩ := map_eq_some_iff.mp found
  obtain ⟨stored, holds⟩ := find?_eq_some first
  rw [s.sessionsKeyed stored]
  exact ⟨stored, beq_iff_eq.mp holds⟩

def revokeSession (now : Time) : Option UserStore :=
  s.changeSession id (fun sess => { sess with revokedAt := some now }) fun _ => ⟨rfl, rfl, rfl, rfl⟩

def touch (now : Time) (sess : Session) : Session :=
  if now > sess.lastSeenAt then { sess with lastSeenAt := now } else sess

theorem touch_sameHolder (now : Time) (sess : Session) : SameHolder sess (touch now sess) := by
  unfold touch
  split <;> exact ⟨rfl, rfl, rfl, rfl⟩

def touchSession (now : Time) : Option UserStore :=
  s.changeSession id (touch now) (touch_sameHolder now)

def updateSessionAuthLevel (level : AuthLevel) : Option UserStore :=
  s.changeSession id (fun sess => { sess with authLevel := level }) fun _ => ⟨rfl, rfl, rfl, rfl⟩

/-- None has another user, token or level. -/
def SessionsKept (before after : UserStore) : Prop :=
  ∀ ⦃id sess⦄, after.sessions.lookup id = some sess →
    ∃ row, before.sessions.lookup id = some row ∧ SameHolder row sess ∧
      sess.authLevel = row.authLevel

namespace SessionsKept

theorem refl (s : UserStore) : SessionsKept s s :=
  fun _ sess here => ⟨sess, here, ⟨rfl, rfl, rfl, rfl⟩, rfl⟩

theorem trans {first second third : UserStore} (one : SessionsKept first second)
    (two : SessionsKept second third) : SessionsKept first third := by
  intro _ _ here
  obtain ⟨_, there, holder, level⟩ := two here
  obtain ⟨row, stored, earlier, same⟩ := one there
  exact ⟨row, stored, earlier.trans holder, level.trans same⟩

variable {s}

theorem changeSession {id : ULID} {change : Session → Session}
    {kept : ∀ sess, SameHolder sess (change sess)} {next : UserStore}
    (level : ∀ sess, (change sess).authLevel = sess.authLevel)
    (done : s.changeSession id change kept = some next) : SessionsKept s next := by
  intro _ sess here
  obtain ⟨row, stored, holder, rfl | rfl⟩ := sameHolder_of_changeSession done here
  · exact ⟨sess, stored, holder, rfl⟩
  · exact ⟨row, stored, holder, level row⟩

theorem revokeSession (id : ULID) (now : Time) :
    SessionsKept s ((s.revokeSession id now).getD s) := by
  cases done : s.revokeSession id now with
  | none => exact .refl s
  | some next =>
    exact @changeSession s id (fun sess => { sess with revokedAt := some now }) _ next
      (fun _ => rfl) done

theorem revokeUserSessions (userID : ULID) (now : Time) :
    SessionsKept s (s.revokeUserSessions userID now) := by
  intro _ _ here
  unfold UserStore.revokeUserSessions at here
  rw [lookup_mapValues] at here
  obtain ⟨row, stored, rfl⟩ := map_eq_some_iff.mp here
  refine ⟨row, stored, ?_⟩
  unfold revokeFor
  split <;> exact ⟨⟨rfl, rfl, rfl, rfl⟩, rfl⟩

end SessionsKept

def setUserPassword (passwordHash : Bytes) : Option UserStore :=
  if (s.users.lookup userID).isNone then none
  else some { s with passwordHashes := s.passwordHashes.insert userID passwordHash }

def userPasswordHashByID : Bytes := (s.passwordHashes.lookup userID).getD []

variable (primaryID secondaryID : ULID)

def movePasswordHash : UserStore :=
  let hash := s.userPasswordHashByID secondaryID
  if hash = [] then s
  else { s with
    passwordHashes := (s.passwordHashes.insert primaryID hash).erase secondaryID }

def webAuthnCredentialsByUserID : List WebAuthnCredential :=
  s.webauthnCreds.values.filter fun cred => cred.userID == userID

def moveCredential (cred : WebAuthnCredential) :
    WebAuthnCredential :=
  if cred.userID = secondaryID then { cred with userID := primaryID } else cred

def moveWebAuthnCredentials : UserStore :=
  { s with webauthnCreds := s.webauthnCreds.mapValues (moveCredential primaryID secondaryID) }

def moveTOTPSecret : UserStore :=
  match s.totpSecrets.lookup secondaryID with
  | none => s
  | some sec =>
    let moved :=
      if (s.totpSecrets.lookup primaryID).isSome then s.totpSecrets
      else s.totpSecrets.insert primaryID { sec with userID := primaryID }
    { s with totpSecrets := moved.erase secondaryID }

variable (provider providerUserID : Bytes)

def oauthAccountByProviderUserID : Option OAuthAccount :=
  (s.oauthAccounts.find? (OAuthAccount.isOf provider providerUserID)).map Prod.snd

def oauthAccountsByUserID : List OAuthAccount :=
  s.oauthAccounts.values.filter fun a => a.userID == userID

def setAccount (a : OAuthAccount)
    (own : ∀ {id' a'}, s.oauthAccounts.lookup id' = some a' → a'.provider = a.provider →
      a'.providerUserID = a.providerUserID → id' = id) : UserStore :=
  { s with
    oauthAccounts := s.oauthAccounts.insert id a
    linkedOnce := s.linkedOnce.insert own }

def upsertOAuthAccount (a : OAuthAccount) (now : Time) : UserStore :=
  match found : s.oauthAccounts.find? (OAuthAccount.isOf a.provider a.providerUserID) with
  | some (id, existing) =>
    s.setAccount id
      { existing with
        userID := a.userID
        accessTokenEnc := a.accessTokenEnc
        refreshTokenEnc := a.refreshTokenEnc
        expiresAt := a.expiresAt
        scope := a.scope
        updatedAt := now }
      (fun here provider user =>
        s.linkedOnce here (GoMap.find?_eq_some found).1 provider user)
  | none =>
    s.setAccount a.id
      { a with createdAt := if a.createdAt.isZero then now else a.createdAt, updatedAt := now }
      (fun here provider user => by
        have other := GoMap.find?_eq_none found here
        rw [OAuthAccount.isOf, provider, user, beq_self_eq_true, beq_self_eq_true] at other
        cases other)

def moveOAuthAccount (newUserID : ULID) (now : Time) :
    Option UserStore :=
  match found : s.oauthAccounts.find? (OAuthAccount.isOf provider providerUserID) with
  | none => none
  | some (id, a) => some <|
      s.setAccount id { a with userID := newUserID, updatedAt := now }
        (fun here sameProvider sameUser =>
          s.linkedOnce here (GoMap.find?_eq_some found).1 sameProvider sameUser)

variable {s} in
theorem of_moveOAuthAccount {provider providerUserID : Bytes} {newUserID : ULID} {now : Time}
    {next : UserStore} (done : s.moveOAuthAccount provider providerUserID newUserID now = some next)
    {id : ULID} (here : next.oauthAccounts.lookup id = some a) :
    a.userID = newUserID ∨ s.oauthAccounts.lookup id = some a := by
  unfold moveOAuthAccount at done
  split at done <;> cases done
  obtain ⟨-, rfl⟩ | ⟨-, here⟩ := of_lookup_insert here
  · exact .inl rfl
  · exact .inr here

def deleteOAuthAccountByProvider (provider : Bytes) : Option UserStore :=
  match s.oauthAccounts.find? fun a => a.userID == userID && a.provider == provider with
  | none => none
  | some (id, _) => some
      { s with
        oauthAccounts := s.oauthAccounts.erase id
        linkedOnce := s.linkedOnce.erase id }

end UserStore

/-! ## Frames -/

/-- The provider's account is not the other user's. -/
def LinkedElsewhere (other : ULID) (t : UserTables) (provider providerUserID : Bytes) : Prop :=
  ∀ {id a}, t.oauthAccounts.lookup id = some a → a.provider = provider →
    a.providerUserID = providerUserID → a.userID ≠ other

section

variable {s : UserStore} {kind : Session → Prop}
  (stable : ∀ {row sess}, SameHolder row sess → kind sess → kind row)
include stable

theorem UserStore.spares_changeSession {id : ULID} {change : Session → Session}
    {kept : ∀ sess, SameHolder sess (change sess)} {next : UserStore}
    (old : ∀ sess, s.sessions.lookup id = some sess → ¬ kind sess)
    (done : s.changeSession id change kept = some next) :
    Spares kind s.sessions next.sessions := by
  unfold UserStore.changeSession at done
  split at done <;> cases done
  rename_i sess found
  exact .insert old fun held => old sess found (stable (kept sess) held)

theorem UserStore.spares_revokeUserSessions {userID : ULID} {now : Time}
    (old : ∀ {id sess}, s.sessions.lookup id = some sess → sess.userID = userID → ¬ kind sess) :
    Spares kind s.sessions (s.revokeUserSessions userID now).sessions := by
  have kept : ∀ id sess, s.sessions.lookup id = some sess → kind sess →
      UserStore.revokeFor userID now sess = sess :=
    fun _ _ here held => if_neg fun ⟨same, _⟩ => old here same held
  refine .of_lookup (fun key => lookup_mapValues _ _ key) kept
    (fun id sess here held => kept id sess here (stable ?_ held))
  unfold UserStore.revokeFor
  split <;> exact ⟨rfl, rfl, rfl, rfl⟩

end

/-- Everything of the other user is as it was. -/
structure Spared (other : ULID) (before after : UserTables) : Prop where
  password : after.passwordHashes.lookup other = before.passwordHashes.lookup other
  totp : after.totpSecrets.lookup other = before.totpSecrets.lookup other
  oauth : Spares (fun a => a.userID = other) before.oauthAccounts after.oauthAccounts
  passkeys : Spares (fun cred => cred.userID = other) before.webauthnCreds after.webauthnCreds
  sessions : Spares (fun sess => sess.userID = other) before.sessions after.sessions

namespace Spared

variable {s : UserStore} {other userID primaryID secondaryID : ULID}

theorem refl (other : ULID) (t : UserTables) : Spared other t t :=
  ⟨rfl, rfl, .refl _ _, .refl _ _, .refl _ _⟩

theorem trans {before between after : UserTables} (first : Spared other before between)
    (second : Spared other between after) : Spared other before after where
  password := second.password.trans first.password
  totp := second.totp.trans first.totp
  oauth := first.oauth.trans second.oauth
  passkeys := first.passkeys.trans second.passkeys
  sessions := first.sessions.trans second.sessions

theorem revokeUserSessions (different : userID ≠ other) (now : Time) :
    Spared other s.toUserTables (s.revokeUserSessions userID now).toUserTables :=
  ⟨rfl, rfl, .refl _ _, .refl _ _, UserStore.spares_revokeUserSessions
    (fun holder held => holder.userID.symm.trans held)
    fun _ owner held => different (owner.symm.trans held)⟩

variable {next : UserStore}

theorem changeSession {id : ULID} {change : Session → Session}
    {kept : ∀ sess, SameHolder sess (change sess)}
    (owner : ∀ sess, s.sessions.lookup id = some sess → sess.userID ≠ other)
    (done : s.changeSession id change kept = some next) :
    Spared other s.toUserTables next.toUserTables := by
  have spared := UserStore.spares_changeSession
    (fun holder held => holder.userID.symm.trans held) owner done
  unfold UserStore.changeSession at done
  split at done <;> cases done
  exact ⟨rfl, rfl, .refl _ _, .refl _ _, spared⟩

theorem setUserPassword (different : userID ≠ other) {hash : Bytes}
    (done : s.setUserPassword userID hash = some next) :
    Spared other s.toUserTables next.toUserTables := by
  unfold UserStore.setUserPassword at done
  split at done <;> cases done
  exact ⟨lookup_insert_ne different.symm, rfl, .refl _ _, .refl _ _, .refl _ _⟩

theorem movePasswordHash (first : primaryID ≠ other) (second : secondaryID ≠ other) :
    Spared other s.toUserTables (s.movePasswordHash primaryID secondaryID).toUserTables := by
  unfold UserStore.movePasswordHash
  dsimp only
  split
  · exact .refl _ _
  refine ⟨?_, rfl, .refl _ _, .refl _ _, .refl _ _⟩
  exact (lookup_erase_ne second.symm).trans (lookup_insert_ne first.symm)

theorem moveWebAuthnCredentials (first : primaryID ≠ other) (second : secondaryID ≠ other) :
    Spared other s.toUserTables (s.moveWebAuthnCredentials primaryID secondaryID).toUserTables where
  password := rfl
  totp := rfl
  oauth := .refl _ _
  passkeys := by
    refine .of_lookup (fun key => lookup_mapValues _ _ key) (fun _ cred _ held => ?_)
      (fun _ cred _ held => ?_)
    · exact if_neg fun same => second (same.symm.trans held)
    · rw [UserStore.moveCredential] at held ⊢
      split at held
      · exact absurd held first
      next away => exact if_neg away
  sessions := .refl _ _

theorem moveTOTPSecret (first : primaryID ≠ other) (second : secondaryID ≠ other) :
    Spared other s.toUserTables (s.moveTOTPSecret primaryID secondaryID).toUserTables := by
  unfold UserStore.moveTOTPSecret
  split
  · exact .refl _ _
  refine ⟨rfl, (lookup_erase_ne second.symm).trans ?_, .refl _ _, .refl _ _, .refl _ _⟩
  split
  · rfl
  · exact lookup_insert_ne first.symm

theorem moveOAuthAccount {provider providerUserID : Bytes} {now : Time}
    (elsewhere : LinkedElsewhere other s.toUserTables provider providerUserID)
    (different : userID ≠ other)
    (done : s.moveOAuthAccount provider providerUserID userID now = some next) :
    Spared other s.toUserTables next.toUserTables := by
  unfold UserStore.moveOAuthAccount at done
  split at done <;> cases done
  rename_i a found
  obtain ⟨stored, holds⟩ := find?_eq_some found
  rw [OAuthAccount.isOf, Bool.and_eq_true, beq_iff_eq, beq_iff_eq] at holds
  refine ⟨rfl, rfl, .insert (fun a' here => ?_) different, .refl _ _, .refl _ _⟩
  obtain rfl : a = a' := some.inj (stored.symm.trans here)
  exact elsewhere stored holds.1 holds.2

theorem upsertOAuthAccount {now : Time}
    (unlinked : s.oauthAccountByProviderUserID a.provider a.providerUserID = none)
    (fresh : s.oauthAccounts.lookup a.id = none) (different : a.userID ≠ other) :
    Spared other s.toUserTables (s.upsertOAuthAccount a now).toUserTables := by
  have absent := map_eq_none_iff.mp unlinked
  unfold UserStore.upsertOAuthAccount
  split
  next found =>
    rw [absent] at found
    cases found
  refine ⟨rfl, rfl, .insert (fun a' here => ?_) different, .refl _ _, .refl _ _⟩
  rw [fresh] at here
  cases here

theorem deleteOAuthAccountByProvider (different : userID ≠ other) {provider : Bytes}
    (done : s.deleteOAuthAccountByProvider userID provider = some next) :
    Spared other s.toUserTables next.toUserTables := by
  unfold UserStore.deleteOAuthAccountByProvider at done
  split at done <;> cases done
  rename_i a found
  obtain ⟨stored, holds⟩ := find?_eq_some found
  rw [Bool.and_eq_true, beq_iff_eq] at holds
  refine ⟨rfl, rfl, .erase fun a' here => ?_, .refl _ _, .refl _ _⟩
  obtain rfl : a = a' := some.inj (stored.symm.trans here)
  rw [holds.1]
  exact different

end Spared

end TheAuth.Store
