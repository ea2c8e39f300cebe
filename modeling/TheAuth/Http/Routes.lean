import TheAuth.Server.Device
import TheAuth.Totp.Service

/-!
# The router

Every route of the library with its middleware. Modelled in full are the handlers that issue codes,
decide device authorizations, verify a second factor or redeem a grant; what the others do behind
`RequireAuth` and behind a bearer token is a parameter.
-/

set_option autoImplicit false

namespace TheAuth.Http

open Go TheAuth.Server Store Totp

inductive AnonymousRoute where
  | magicLinkRequest | bootstrapStatus | forgot | providerStart | webauthnLoginBegin | samlLogin
  | samlMetadata | apiDeviceCode | apiDeviceToken | asMetadata | protectedResourceMetadata | jwks
  | otherToken | revoke | introspect | register | par | bcAuthorize | userInfo | deviceChallenge
  | deviceEnroll

inductive SignInRoute where
  | magicLinkVerify | signup | signin | providerCallback | webauthnLoginFinish | samlACS
  | sessionLinkConsume

inductive BearerRoute where
  | tokenCurrent | tokenCurrentRevoke | scim
  deriving DecidableEq

inductive SignedInRoute where
  -- The session and its user.
  | me
  | sessionDelete
  | sessionList
  | sessionRevokeByID
  | sessionRevokeOthers
  | stepUp
  | stepUpPasskeyBegin
  | passwordChange
  | trustedDeviceList
  | trustedDeviceRevoke
  | trustedDeviceRevokeAll
  | accountDelete
  -- Second factors.
  | enrollBegin
  | enrollFinish
  | totpDelete
  | totpStatus
  | regenerate
  | registerBegin
  | registerFinish
  | credentialsList
  | credentialsDelete
  | credentialsRename
  -- Organizations, with their SAML connections and SCIM tokens.
  | orgCreate
  | orgList
  | orgGet
  | addMember
  | removeMember
  | activate
  | clearActive
  | connectionCreate
  | connectionList
  | connectionGet
  | connectionUpdate
  | connectionDelete
  | scimTokenCreate
  | scimTokenList
  | scimTokenDelete
  -- API tokens and their device flow.
  | tokenCreate
  | tokenList
  | tokenRevoke
  | deviceApprove
  | deviceRequests
  | deviceRequestApprove
  | deviceRequestDeny
  -- The account.
  | selfDelete
  | accountListAgents
  | accountCreateAgent
  | accountRevokeAgent
  | accountListDelegations
  | accountCreateDelegation
  | accountRevokeDelegation
  | linkOAuthBegin
  | linkOAuthCallback
  | linkPassword
  | merge
  | unlinkProvider
  -- The admin API.
  | listUsers
  | getUser
  | inviteUser
  | patchUser
  | removeUser
  | deleteUserAccount
  | listSessions
  | revokeSession
  | listRoles
  | createRole
  | updateRole
  | deleteRole
  | queryAudit
  | listOAuthAccounts
  | listAgents
  | createAgent
  | patchAgent
  | deleteAgent
  | listDelegations
  | createDelegation
  | revokeDelegation
  | createRegistrationToken
  | listRegistrationTokens
  | revokeRegistrationToken
  | createJoinToken
  | revokeJoinToken
  | listDevices
  | revokeDevice

structure SignIn where
  newUser : Option User := none
  session : Session

structure EndSessionAnswers where
  now : Time
  accepted : Option ULID → Bool

/-- The token endpoint stands once for each grant that these tables keep. -/
inductive Body where
  | anonymous (route : AnonymousRoute)
  | signIn (route : SignInRoute) (proof : Option SignIn)
  | reset (userID : Option ULID) (now : Time)
  | bearer (route : BearerRoute)
  | doctor
  | signedIn (route : SignedInRoute)
  | totpVerify (code : Bytes) (a : TotpAnswers)
  | totpRecovery (code : Bytes) (a : TotpAnswers)
  | deviceAuthorization (req : DeviceAuthRequest) (a : DeviceStartAnswers)
  | tokenCode (req : CodeRequest) (a : ExchangeAnswers)
  | tokenDevice (deviceCode : Bytes) (a : DevicePollAnswers)
  | authorize (q : AuthorizeQuery) (a : AuthorizeAnswers)
  | devicePage (userCode : Bytes) (a : DeviceDecideAnswers)
  | deviceDecision (req : Option DeviceRequest) (a : DeviceDecideAnswers)
  | endSession (a : EndSessionAnswers)

/-- A request at the edge. -/
structure Request where
  cookie : Bytes := []
  bearer : Option (Option ULID) := none
  session : SessionAnswers
  isRoot : ULID → Bool := fun _ => false
  body : Body

def Body.isSecondFactor : Body → Bool
  | .totpVerify _ _ => true
  | .totpRecovery _ _ => true
  | _ => false

def Body.isBehindAuthn : Body → Bool
  | .authorize _ _ => true
  | .devicePage _ _ => true
  | .deviceDecision _ _ => true
  | .endSession _ => true
  | _ => false

theorem Body.not_isSecondFactor {b : Body} (bare : b.isBehindAuthn = true) :
    b.isSecondFactor ≠ true := by
  cases b with
  | authorize | devicePage | deviceDecision | endSession => exact Bool.false_ne_true
  | _ => cases bare

/-- All that the handlers change. -/
structure System extends TotpState where
  grants : GrantStore

/-- What a handler answers. -/
inductive Reply where
  | done
  | start (result : Except DeviceError DeviceAuthResponse)
  | codeGrant (result : Except OAuthError CodeGrant)
  | deviceGrant (result : Except DeviceError DeviceGrant)
  | authorize (result : Except AuthorizeError AuthorizeResult)
  | device (page : DevicePage)
  | secondFactor (result : Except TotpError Session)

/-- An answer, and on whose behalf. -/
structure Served where
  actsAs : Option ULID
  reply : Reply

/-- The configuration of all handlers. -/
structure Server where
  policy : SessionPolicy
  authorize : AuthorizeConfig
  device : DeviceService
  authContext : Session → AuthContext
  signedIn : SignedInRoute → Session → User → System → System
  bearer : BearerRoute → ULID → System → System

section

variable [StdLib] [UrlLib] [RuneLib] [UlidText] (srv : Server) (sys : System) (r : Request)

def throughAuthn (handler : Option (Session × User) → System → Reply × System) :
    Except Refusal Served × System :=
  let found := authn srv.policy sys.accounts r.cookie r.session
  let answer := handler found.1 { sys with accounts := found.2 }
  (.ok ⟨found.1.map fun f => f.2.id, answer.1⟩, answer.2)

def throughRequireAuth (handler : Session → User → System → System) :
    Except Refusal Served × System :=
  match requireAuth srv.policy sys.accounts r.cookie r.session with
  | (.error e, next) => (.error e, { sys with accounts := next })
  | (.ok (sess, user), next) =>
    (.ok ⟨some user.id, .done⟩, handler sess user { sys with accounts := next })

def throughPendingOrFull (handler : System → Except TotpError Session × TotpState) :
    Except Refusal Served × System :=
  match requirePendingOrFull srv.policy sys.accounts r.cookie r.session with
  | (.error e, next) => (.error e, { sys with accounts := next })
  | (.ok (_, user), next) =>
    let answer := handler { sys with accounts := next }
    (.ok ⟨some user.id, .secondFactor answer.1⟩, ⟨answer.2, sys.grants⟩)

def throughBearer (route : BearerRoute) : Except Refusal Served × System :=
  match r.bearer with
  | none => (.error .unauthenticated, sys)
  | some none => (.error .unauthenticated, sys)
  | some (some owner) =>
    (.ok ⟨if route = .scim then none else some owner, .done⟩, srv.bearer route owner sys)

def requireRoot (userID : ULID) : Except Refusal Served :=
  if r.isRoot userID then .ok ⟨some userID, .done⟩ else .error (.forbidden (str "root"))

def throughRequireAbility : Except Refusal Served × System :=
  match r.bearer with
  | some none => (.error .unauthenticated, sys)
  | some (some owner) => (requireRoot r owner, sys)
  | none =>
    match validate srv.policy sys.accounts r.cookie r.session with
    | (.error _, next) => (.error .unauthenticated, { sys with accounts := next })
    | (.ok (sess, user), next) =>
      if !sess.isFull then (.error .stepUpRequired, { sys with accounts := next })
      else (requireRoot r user.id, { sys with accounts := next })

def signIn (s : UserStore) (proof : SignIn) : UserStore :=
  (proof.newUser.elim s s.createUser).createSession proof.session

def handleEndSession (s : UserStore) (found : Option (Session × User)) (a : EndSessionAnswers) :
    UserStore :=
  match found with
  | none => s
  | some (sess, user) =>
    if a.accepted (some user.id) then (s.revokeSession sess.id a.now).getD s else s

/-- A request goes to its handler. -/
def serve : Except Refusal Served × System :=
  match r.body with
  | .anonymous _ => (.ok ⟨none, .done⟩, sys)
  | .signIn _ proof =>
    (.ok ⟨none, .done⟩, { sys with accounts := proof.elim sys.accounts (signIn sys.accounts) })
  | .reset userID now =>
    (.ok ⟨none, .done⟩,
      { sys with
        accounts := userID.elim sys.accounts fun id => sys.accounts.revokeUserSessions id now })
  | .bearer route => throughBearer srv sys r route
  | .doctor => throughRequireAbility srv sys r
  | .signedIn route => throughRequireAuth srv sys r (srv.signedIn route)
  | .totpVerify code a =>
    throughPendingOrFull srv sys r fun sys =>
      handleVerify srv.policy sys.toTotpState r.cookie code a
  | .totpRecovery code a =>
    throughPendingOrFull srv sys r fun sys =>
      handleRecovery srv.policy sys.toTotpState r.cookie code a
  | .deviceAuthorization req a =>
    let answer := startDeviceAuthorization srv.device sys.grants req a
    (.ok ⟨none, .start answer.1⟩, { sys with grants := answer.2 })
  | .tokenCode req a =>
    let answer := exchangeAuthorizationCode srv.authorize a sys.grants req
    (.ok ⟨none, .codeGrant answer.1⟩, { sys with grants := answer.2 })
  | .tokenDevice deviceCode a =>
    let answer := pollDeviceToken srv.device sys.grants a deviceCode
    (.ok ⟨none, .deviceGrant answer.1⟩, { sys with grants := answer.2 })
  | .authorize q a =>
    throughAuthn srv sys r fun found sys =>
      let answer := handleAuthorize srv.authorize a sys.grants q
        (found.map fun f => (f.2, some (srv.authContext f.1)))
      (.authorize answer.1, { sys with grants := answer.2 })
  | .devicePage userCode a =>
    throughAuthn srv sys r fun found sys =>
      (.device (handleDevicePage srv.device sys.grants a (found.map Prod.snd) userCode), sys)
  | .deviceDecision req a =>
    throughAuthn srv sys r fun found sys =>
      let answer := handleDeviceDecision srv.device sys.grants a (found.map Prod.snd) req
      (.device answer.1, { sys with grants := answer.2 })
  | .endSession a =>
    throughAuthn srv sys r fun found sys =>
      (.done, { sys with accounts := handleEndSession sys.accounts found a })

end

end TheAuth.Http
