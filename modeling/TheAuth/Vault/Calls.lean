import Mathlib.Data.List.Sort
import TheAuth.Go.Lib
import TheAuth.Library.Result
import TheAuth.Library.Run
import TheAuth.Library.VersionedCell
import TheAuth.Vault.KeyRing

/-!
# The token vault

A call is a sequence of atomic operations of the memory store, and a refresh and `Rewrap` write with
a compare and swap on the version that they have read. The version starts at one whenever a
credential is created. Beside the store, a system counts the deletions (`life`) and records the
tokens that were stored (`stored`); no call reads them.
-/

set_option autoImplicit false

namespace TheAuth.Vault

open Go Library Library.Run Option

inductive VaultStatus where
  | active | needsReauth
  deriving DecidableEq

/-- A stored credential. -/
structure VaultCredential where
  (id userID provider accountID : Bytes)
  scopes : List Bytes
  (accessCT refreshCT : Bytes)
  accessExpiresAt : Time
  status : VaultStatus
  version : ℤ
  (createdAt updatedAt : Time)
  deriving DecidableEq

def vaultKey (userID provider : Bytes) : Bytes := userID ++ 0 :: provider

def VaultCredential.key (c : VaultCredential) : Bytes := vaultKey c.userID c.provider

/-- Credentials by user and provider. -/
structure VaultStore where
  rows : GoMap Bytes VaultCredential
  keyed : rows.Keyed VaultCredential.key

namespace VaultStore

variable (s : VaultStore) (c : VaultCredential)

def write : VaultStore := ⟨s.rows.insert c.key c, s.keyed.insert rfl⟩

def putVaultCredential (newID : Bytes) (now : Time) : VaultCredential :=
  match s.rows.lookup c.key with
  | some old =>
    { c with
      id := old.id
      createdAt := old.createdAt
      version := old.version + 1
      updatedAt := now }
  | none =>
    { c with
      id := if c.id = [] then newID else c.id
      createdAt := now
      version := 1
      updatedAt := now }

def vaultCredentialByUserProvider (userID provider : Bytes) : Option VaultCredential :=
  s.rows.lookup (vaultKey userID provider)

def swapVaultCredential (expectedVersion : ℤ) (now : Time) :
    Option VaultCredential :=
  match s.rows.lookup c.key with
  | none => none
  | some old =>
    if old.version = expectedVersion then
      some { c with
        id := old.id
        createdAt := old.createdAt
        version := expectedVersion + 1
        updatedAt := now }
    else none

def scanVaultCredentials (afterID : Bytes) (limit : ℕ) : List VaultCredential :=
  ((s.rows.values.filter fun c => decide (afterID < c.id)).insertionSort fun a b =>
    a.id ≤ b.id).take limit

def deleteVaultCredential (key : Bytes) : VaultStore := ⟨s.rows.erase key, s.keyed.erase key⟩

end VaultStore

structure Config where
  keys : KeyRing
  providers : List Bytes
  expirySkew : ℤ

structure ConnectInput where
  (userID provider accountID accessToken refreshToken : Bytes)
  expiresAt : Time
  scopes : List Bytes

/-- Who asks for which scopes. -/
structure TokenRequest where
  (agentID userID provider : Bytes)
  scopes : List Bytes

def TokenRequest.key (req : TokenRequest) : Bytes := vaultKey req.userID req.provider

structure AccessToken where
  (token tokenType : Bytes)
  expiresAt : Time
  scopes : List Bytes

structure TokenResponse where
  (accessToken refreshToken : Bytes)
  expiresIn : ℤ
  scopes : List Bytes

inductive RefreshAnswer where
  | invalidGrant | failed
  | response (resp : TokenResponse)

/-- A call of the vault. -/
inductive Request where
  | connect (input : ConnectInput)
  | disconnect (userID provider : Bytes)
  | accessToken (req : TokenRequest)
  | rewrap

/-- What a call draws and reads. -/
structure Answers where
  clock : Time := 0
  (later storeNow : Time := 0)
  delegated : Option Bool := some true
  audited : Bool := true
  refresh : RefreshAnswer := .failed
  newID : Bytes := []
  (accessNonce refreshNonce : Option (ℕ → UInt8) := none)

inductive VaultError where
  | invalidInput | scopesRequired | notDelegated | notConnected | scopeNotGranted | reauthRequired
  | tokenExpired | refreshFailed | auditFailed | delegationLookup | notFound | nonce
  | key (e : KeyError)

/-- What is sealed in a row. -/
structure Contents where
  (access refresh : Option Bytes)

/-- Where a call stands. -/
inductive Phase where
  | ready
  | refreshing (req : TokenRequest)
  | swapping (req : TokenRequest) (read : Reading VaultCredential) (next : VaultCredential)
      (refreshed : Option Contents)
  | rereading (req : TokenRequest)
  | outrun (req : TokenRequest)
  | issued (req : TokenRequest) (tok : AccessToken) (source : VaultCredential)
  | connected | disconnected
  | scanning (after : Bytes) (moved : ℕ)
  | rewrapping (read : Reading VaultCredential) (next : VaultCredential)
      (rest : List (Reading VaultCredential)) (moved : ℕ)
  | rewrapped (moved : ℕ)
  | stopped (moved : ℕ) (e : VaultError)
  | refused (e : VaultError)

/-- The rows, and where each call stands. -/
structure System where
  store : VaultStore
  phase : ℕ → Phase
  life : Bytes → ℕ
  stored : List (Bytes × Contents)

def System.initial (store : VaultStore) : System where
  store
  phase := fun _ => .ready
  life := fun _ => 0
  stored := []

def System.cell (s : System) (key : Bytes) : Cell VaultCredential :=
  ⟨s.life key, s.store.rows.lookup key⟩

/-- What an operation does to the rows. -/
inductive Effect where
  | quiet
  | write (row : VaultCredential) (tokens : Option Contents)
  | delete (key : Bytes)

def System.apply (s : System) : Effect → System
  | .quiet => s
  | .write row tokens =>
    { s with
      store := s.store.write row
      stored := (tokens.map fun tokens => (row.key, tokens)).toList ++ s.stored }
  | .delete key =>
    { s with
      store := s.store.deleteVaultCredential key
      life := Function.update s.life key (s.life key + 1) }

/-! ## Operations -/

def aad (userID provider field : Bytes) : Bytes :=
  str "tokenvault/v1" ++ 0 :: (userID ++ 0 :: (provider ++ 0 :: field))

def accessAAD (userID provider : Bytes) : Bytes := aad userID provider (str "access")

def refreshAAD (userID provider : Bytes) : Bytes := aad userID provider (str "refresh")

def subset (sub sup : List Bytes) : Bool := sub.all fun s => sup.contains s

section

variable (cfg : Config) (c : VaultCredential)

def contents : Contents where
  access := (cfg.keys.open_ c.accessCT (accessAAD c.userID c.provider)).toOption
  refresh := (cfg.keys.open_ c.refreshCT (refreshAAD c.userID c.provider)).toOption

def stale (now : Time) : Bool :=
  !c.accessExpiresAt.isZero && !decide (now + cfg.expirySkew < c.accessExpiresAt)

def issue (req : TokenRequest) (cred : VaultCredential) (a : Answers) : Phase :=
  match cfg.keys.open_ cred.accessCT (accessAAD cred.userID cred.provider) with
  | .error e => .refused (.key e)
  | .ok pt =>
    if a.audited then .issued req ⟨pt, str "Bearer", cred.accessExpiresAt, req.scopes⟩ cred
    else .refused .auditFailed

def beginToken (s : System) (req : TokenRequest) (a : Answers) : Phase :=
  if req.scopes = [] then .refused .scopesRequired
  else match a.delegated with
  | none => .refused .delegationLookup
  | some false => .refused .notDelegated
  | some true =>
    match s.store.vaultCredentialByUserProvider req.userID req.provider with
    | none => .refused .notConnected
    | some cred =>
      if cred.status = .needsReauth then .refused .reauthRequired
      else if subset req.scopes cred.scopes = false then .refused .scopeNotGranted
      else if stale cfg cred a.clock then .refreshing req
      else issue cfg req cred a

def sealRefresh (token otherwise aad : Bytes) (random : Option (ℕ → UInt8)) : Option Bytes :=
  if token = [] then some otherwise else cfg.keys.seal_ token aad random

def refreshedRow (req : TokenRequest) (cur : VaultCredential) (resp : TokenResponse)
    (a : Answers) : Option VaultCredential := do
  let accessCT ← cfg.keys.seal_ resp.accessToken (accessAAD req.userID req.provider) a.accessNonce
  let refreshCT ← sealRefresh cfg resp.refreshToken cur.refreshCT
    (refreshAAD req.userID req.provider) a.refreshNonce
  return { cur with
    accessCT
    refreshCT
    accessExpiresAt := if 0 < resp.expiresIn then a.later + resp.expiresIn else 0
    scopes := if resp.scopes = [] then cur.scopes else resp.scopes }

def refreshedContents (cur : VaultCredential) (resp : TokenResponse) : Contents where
  access := some resp.accessToken
  refresh :=
    if resp.refreshToken = [] then (contents cfg cur).refresh else some resp.refreshToken

def afterRefresh (req : TokenRequest) (read : Reading VaultCredential) (a : Answers) : Phase :=
  match a.refresh with
  | .invalidGrant => .swapping req read { read.row with status := .needsReauth } none
  | .failed => .refused .refreshFailed
  | .response resp =>
    if resp.accessToken = [] then .refused .refreshFailed
    else match refreshedRow cfg req read.row resp a with
    | none => .refused .nonce
    | some next => .swapping req read next (some (refreshedContents cfg read.row resp))

def beginRefresh (s : System) (req : TokenRequest) (a : Answers) : Phase :=
  match s.store.vaultCredentialByUserProvider req.userID req.provider with
  | none => .refused .notConnected
  | some cur =>
    if cur.status = .needsReauth then .refused .reauthRequired
    else if stale cfg cur a.clock = false then issue cfg req cur a
    else if cur.refreshCT = [] ∨ req.provider ∉ cfg.providers then .refused .tokenExpired
    else match cfg.keys.open_ cur.refreshCT (refreshAAD req.userID req.provider) with
    | .error e => .refused (.key e)
    | .ok _ => afterRefresh cfg req ⟨s.life req.key, cur⟩ a

def reread (s : System) (req : TokenRequest) (a : Answers) : Phase :=
  match s.store.vaultCredentialByUserProvider req.userID req.provider with
  | none => .refused .notFound
  | some cred => issue cfg req cred a

def useWinner (s : System) (req : TokenRequest) (a : Answers) : Phase :=
  match s.store.vaultCredentialByUserProvider req.userID req.provider with
  | none => .refused .refreshFailed
  | some won => if stale cfg won a.clock then .refused .refreshFailed else issue cfg req won a

def connectedRow (input : ConnectInput) (a : Answers) : Option VaultCredential := do
  let accessCT ←
    cfg.keys.seal_ input.accessToken (accessAAD input.userID input.provider) a.accessNonce
  let refreshCT ← sealRefresh cfg input.refreshToken [] (refreshAAD input.userID input.provider)
    a.refreshNonce
  return {
    id := []
    userID := input.userID
    provider := input.provider
    accountID := input.accountID
    scopes := input.scopes
    accessCT
    refreshCT
    accessExpiresAt := input.expiresAt
    status := .active
    version := 0
    createdAt := 0
    updatedAt := 0 }

def ConnectInput.contents (input : ConnectInput) : Contents where
  access := some input.accessToken
  refresh := if input.refreshToken = [] then none else some input.refreshToken

def connect (s : System) (input : ConnectInput) (a : Answers) : Phase × Effect :=
  if input.userID = [] ∨ input.provider = [] ∨ input.accessToken = [] then
    (.refused .invalidInput, .quiet)
  else match connectedRow cfg input a with
  | none => (.refused .nonce, .quiet)
  | some c =>
    (if a.audited then .connected else .refused .auditFailed,
      .write (s.store.putVaultCredential c a.newID a.storeNow) (some input.contents))

def reseal (blob aad : Bytes) (random : Option (ℕ → UInt8)) : Except VaultError (Bytes × Bool) :=
  if blob = [] then .ok (blob, false)
  else match keyID blob with
  | .error e => .error (.key e)
  | .ok id =>
    if id = cfg.keys.active then .ok (blob, false)
    else match cfg.keys.open_ blob aad with
    | .error e => .error (.key e)
    | .ok pt =>
      match cfg.keys.seal_ pt aad random with
      | none => .error .nonce
      | some sealed => .ok (sealed, true)

def resealed (a : Answers) : Except VaultError (Option VaultCredential) := do
  let access ← reseal cfg c.accessCT (accessAAD c.userID c.provider) a.accessNonce
  let refresh ← reseal cfg c.refreshCT (refreshAAD c.userID c.provider) a.refreshNonce
  return if access.2 || refresh.2 then some { c with accessCT := access.1, refreshCT := refresh.1 }
    else none

def rewrapFrom (a : Answers) (moved : ℕ) : Bytes → List (Reading VaultCredential) → Phase
  | after, [] => .scanning after moved
  | _, read :: rest =>
    match resealed cfg read.row a with
    | .error e => .stopped moved e
    | .ok none => rewrapFrom a moved read.row.id rest
    | .ok (some next) => .rewrapping read next rest moved

def scanPage (s : System) (after : Bytes) (moved : ℕ) (a : Answers) : Phase :=
  match s.store.scanVaultCredentials after 100 with
  | [] => if moved = 0 ∨ a.audited then .rewrapped moved else .stopped moved .auditFailed
  | c :: rest => rewrapFrom cfg a moved after ((c :: rest).map fun c => ⟨s.life c.key, c⟩)

/-- From the request to the first wait. -/
def begin_ (s : System) (req : Request) (a : Answers) : Phase × Effect :=
  match req with
  | .connect input => connect cfg s input a
  | .disconnect userID provider =>
    (if a.audited then .disconnected else .refused .auditFailed, .delete (vaultKey userID provider))
  | .accessToken req => (beginToken cfg s req a, .quiet)
  | .rewrap => (scanPage cfg s [] 0 a, .quiet)

def afterSwap (req : TokenRequest) (refreshed : Option Contents) (swapped : Bool) : Phase :=
  if refreshed.isNone then .refused .reauthRequired
  else if swapped then .rereading req
  else .outrun req

def swap (s : System) (next : VaultCredential) (read : Reading VaultCredential)
    (tokens : Option Contents) (now : Time) (after : Bool → Phase) : Phase × Effect :=
  match s.store.swapVaultCredential next read.row.version now with
  | none => (after false, .quiet)
  | some row => (after true, .write row tokens)

/-- One operation of a call. -/
def operate (s : System) (req : Request) (a : Answers) : Phase → Option (Phase × Effect)
  | .ready => some (begin_ cfg s req a)
  | .refreshing req => some (beginRefresh cfg s req a, .quiet)
  | .swapping req read next refreshed =>
    some (swap s next read refreshed a.storeNow (afterSwap req refreshed))
  | .rereading req => some (reread cfg s req a, .quiet)
  | .outrun req => some (useWinner cfg s req a, .quiet)
  | .scanning after moved => some (scanPage cfg s after moved a, .quiet)
  | .rewrapping read next rest moved =>
    some (swap s next read none a.storeNow fun swapped =>
      rewrapFrom cfg a (if swapped then moved + 1 else moved) read.row.id rest)
  | _ => none

/-- One operation of one call. -/
structure Action where
  call : ℕ
  answers : Answers

/-- One action. -/
def step (requests : ℕ → Request) (s : System) (act : Action) : Option System :=
  (operate cfg s (requests act.call) act.answers (s.phase act.call)).map fun (phase, effect) =>
    { s.apply effect with phase := Function.update s.phase act.call phase }

end

/-! ## What operations do -/

namespace VaultStore

variable {s : VaultStore} {c row : VaultCredential} {now : Time}

def swappedRow (c old : VaultCredential) (now : Time) : VaultCredential :=
  { c with
    id := old.id
    createdAt := old.createdAt
    version := old.version + 1
    updatedAt := now }

theorem swapVaultCredential_eq_some {expectedVersion : ℤ} :
    s.swapVaultCredential c expectedVersion now = some row ↔
      ∃ old, s.rows.lookup c.key = some old ∧ old.version = expectedVersion ∧
        row = swappedRow c old now := by
  unfold swapVaultCredential
  constructor
  · intro done
    split at done
    · cases done
    rename_i old found
    split at done <;> cases done
    rename_i same
    subst same
    exact ⟨old, found, rfl, rfl⟩
  · rintro ⟨_, found, rfl, rfl⟩
    rw [found]
    exact if_pos rfl

theorem key_putVaultCredential (newID : Bytes) :
    (s.putVaultCredential c newID now).key = c.key := by
  unfold putVaultCredential
  split <;> rfl

theorem lookup_write (key : Bytes) :
    (s.write c).rows.lookup key = if key = c.key then some c else s.rows.lookup key :=
  GoMap.lookup_insert_eq s.rows c.key key c

theorem lookup_deleteVaultCredential (deleted key : Bytes) :
    (s.deleteVaultCredential deleted).rows.lookup key =
      if key = deleted then none else s.rows.lookup key := by
  split
  next same =>
    rw [same]
    exact AList.lookup_erase _ _
  next other => exact AList.lookup_erase_ne other

end VaultStore

namespace Phase

def readings : Phase → List (Reading VaultCredential)
  | .swapping _ read _ _ => [read]
  | .rewrapping read _ rest _ => read :: rest
  | _ => []

def inFlight : Phase → Option TokenRequest
  | .refreshing req => some req
  | .swapping req _ _ _ => some req
  | .rereading req => some req
  | .outrun req => some req
  | _ => none

end Phase

section

variable {cfg : Config} {requests : ℕ → Request} {s next : System} {act : Action}
  {req : Request} {a : Answers} {old phase : Phase} {effect : Effect}

theorem step_eq_some :
    step cfg requests s act = some next ↔ ∃ phase effect,
      operate cfg s (requests act.call) act.answers (s.phase act.call) = some (phase, effect) ∧
      next = { s.apply effect with phase := Function.update s.phase act.call phase } := by
  unfold step
  rw [map_eq_some_iff]
  constructor
  · rintro ⟨⟨phase, effect⟩, done, rfl⟩
    exact ⟨phase, effect, done, rfl⟩
  · rintro ⟨phase, effect, done, rfl⟩
    exact ⟨(phase, effect), done, rfl⟩

theorem swap_cases {row : VaultCredential} {read : Reading VaultCredential}
    {tokens : Option Contents} {now : Time} {after : Bool → Phase}
    (done : swap s row read tokens now after = (phase, effect)) :
    phase = after false ∧ effect = .quiet ∧
        (∀ old, s.store.rows.lookup row.key = some old → old.version ≠ read.row.version) ∨
      ∃ old, s.store.rows.lookup row.key = some old ∧ old.version = read.row.version ∧
        phase = after true ∧ effect = .write (VaultStore.swappedRow row old now) tokens := by
  unfold swap at done
  split at done
  next lost =>
    cases done
    refine .inl ⟨rfl, rfl, fun old found same => ?_⟩
    rw [VaultStore.swapVaultCredential_eq_some.mpr ⟨old, found, same, rfl⟩] at lost
    cases lost
  rename_i swapped
  cases done
  obtain ⟨old, found, same, rfl⟩ := VaultStore.swapVaultCredential_eq_some.mp swapped
  exact .inr ⟨old, found, same, rfl, rfl⟩

/-- The call is over. -/
def Phase.Ended : Phase → Prop
  | .connected | .disconnected | .stopped _ _ | .refused _ => True
  | _ => False

/-- What one operation can do, by phase and effect. -/
inductive Operated (cfg : Config) (s : System) (req : Request) (a : Answers) :
    Phase → Phase → Effect → Prop where
  | quits (old : Phase) {phase : Phase} (ended : phase.Ended) :
      Operated cfg s req a old phase .quiet
  | disconnects {userID provider : Bytes} {phase : Phase}
      (asked : req = .disconnect userID provider) (ended : phase.Ended) :
      Operated cfg s req a .ready phase (.delete (vaultKey userID provider))
  | connects {input : ConnectInput} {c : VaultCredential} {phase : Phase}
      (asked : req = .connect input) (sealed : connectedRow cfg input a = some c)
      (ended : phase.Ended) :
      Operated cfg s req a .ready phase
        (.write (s.store.putVaultCredential c a.newID a.storeNow) (some input.contents))
  | begins {token : TokenRequest} {cred : VaultCredential} (asked : req = .accessToken token)
      (found : s.store.rows.lookup token.key = some cred)
      (covers : subset token.scopes cred.scopes = true) :
      Operated cfg s req a .ready (.refreshing token) .quiet
  | issues {old : Phase} {token : TokenRequest} {cred : VaultCredential} {tok : AccessToken}
      (continues : old.inFlight = some token ∨
        old = .ready ∧ req = .accessToken token ∧ subset token.scopes cred.scopes = true)
      (found : s.store.rows.lookup token.key = some cred) (scopes : tok.scopes = token.scopes) :
      Operated cfg s req a old (.issued token tok cred) .quiet
  | marks {token : TokenRequest} {cred : VaultCredential}
      (found : s.store.rows.lookup token.key = some cred) :
      Operated cfg s req a (.refreshing token) (.swapping token ⟨s.life token.key, cred⟩
        { cred with status := .needsReauth } none) .quiet
  | refreshes {token : TokenRequest} {cred next : VaultCredential} {resp : TokenResponse}
      (found : s.store.rows.lookup token.key = some cred) (answered : a.refresh = .response resp)
      (made : refreshedRow cfg token cred resp a = some next) :
      Operated cfg s req a (.refreshing token) (.swapping token ⟨s.life token.key, cred⟩ next
        (some (refreshedContents cfg cred resp))) .quiet
  | swaps {token : TokenRequest} {read : Reading VaultCredential} {row : VaultCredential}
      {refreshed : Option Contents} {phase : Phase} {effect : Effect}
      (done : swap s row read refreshed a.storeNow (afterSwap token refreshed) = (phase, effect)) :
      Operated cfg s req a (.swapping token read row refreshed) phase effect
  | scans {old : Phase} {after : Bytes} {moved : ℕ}
      (here : old = .scanning after moved ∨ old = .ready ∧ after = []) :
      Operated cfg s req a old (scanPage cfg s after moved a) .quiet
  | rewraps {read : Reading VaultCredential} {row : VaultCredential}
      {rest : List (Reading VaultCredential)} {moved : ℕ} {phase : Phase} {effect : Effect}
      (done : swap s row read none a.storeNow (fun swapped =>
        rewrapFrom cfg a (if swapped then moved + 1 else moved) read.row.id rest) =
          (phase, effect)) :
      Operated cfg s req a (.rewrapping read row rest moved) phase effect

variable {token : TokenRequest}

theorem operated_issue {cred : VaultCredential}
    (continues : old.inFlight = some token ∨
      old = .ready ∧ req = .accessToken token ∧ subset token.scopes cred.scopes = true)
    (found : s.store.rows.lookup token.key = some cred) :
    Operated cfg s req a old (issue cfg token cred a) .quiet := by
  unfold issue
  split
  · exact .quits old trivial
  split
  · exact .issues continues found rfl
  · exact .quits old trivial

theorem operated_beginToken (asked : req = .accessToken token) :
    Operated cfg s req a .ready (beginToken cfg s token a) .quiet := by
  have refused (e : VaultError) : Operated cfg s req a .ready (.refused e) .quiet :=
    .quits .ready trivial
  unfold beginToken
  split
  · exact refused _
  split
  · exact refused _
  · exact refused _
  split
  · exact refused _
  rename_i found
  split
  · exact refused _
  split
  · exact refused _
  rename_i covers
  rw [Bool.not_eq_false] at covers
  split
  · exact .begins asked found covers
  · exact operated_issue (.inr ⟨rfl, asked, covers⟩) found

theorem operated_beginRefresh :
    Operated cfg s req a (.refreshing token) (beginRefresh cfg s token a) .quiet := by
  have refused (e : VaultError) : Operated cfg s req a (.refreshing token) (.refused e) .quiet :=
    .quits _ trivial
  unfold beginRefresh
  split
  · exact refused _
  rename_i found
  split
  · exact refused _
  split
  · exact operated_issue (.inl rfl) found
  split
  · exact refused _
  split
  · exact refused _
  unfold afterRefresh
  split
  · exact .marks found
  · exact refused _
  rename_i answered
  split
  · exact refused _
  split
  · exact refused _
  next made => exact .refreshes found answered made

theorem operated_of_operate (done : operate cfg s req a old = some (phase, effect)) :
    Operated cfg s req a old phase effect := by
  cases old with
  | ready =>
    obtain done := some.inj done
    unfold begin_ at done
    split at done
    next =>
      unfold connect at done
      split at done
      · cases done
        exact .quits .ready trivial
      split at done
      · cases done
        exact .quits .ready trivial
      rename_i sealed
      cases done
      exact .connects rfl sealed (by split <;> trivial)
    · cases done
      exact .disconnects rfl (by split <;> trivial)
    · cases done
      exact operated_beginToken rfl
    cases done
    exact .scans (.inr ⟨rfl, rfl⟩)
  | refreshing =>
    cases done
    exact operated_beginRefresh
  | swapping => exact .swaps (some.inj done)
  | rereading =>
    cases done
    unfold reread
    split
    · exact .quits _ trivial
    next found => exact operated_issue (.inl rfl) found
  | outrun =>
    cases done
    unfold useWinner
    split
    · exact .quits _ trivial
    rename_i found
    split
    · exact .quits _ trivial
    · exact operated_issue (.inl rfl) found
  | scanning =>
    cases done
    exact .scans (.inl rfl)
  | rewrapping => exact .rewraps (some.inj done)
  | issued | connected | disconnected | rewrapped | stopped | refused => cases done

/-- Where an effect comes from. -/
inductive Origin (cfg : Config) (s : System) (req : Request) (a : Answers) (old : Phase) :
    Effect → Prop where
  | quiet : Origin cfg s req a old .quiet
  | disconnect {userID provider : Bytes} (here : old = .ready)
      (asked : req = .disconnect userID provider) :
      Origin cfg s req a old (.delete (vaultKey userID provider))
  | connect {input : ConnectInput} {c : VaultCredential} (here : old = .ready)
      (asked : req = .connect input) (sealed : connectedRow cfg input a = some c) :
      Origin cfg s req a old
        (.write (s.store.putVaultCredential c a.newID a.storeNow) (some input.contents))
  | refresh {token : TokenRequest} {read : Reading VaultCredential} {row now : VaultCredential}
      {refreshed : Option Contents} (here : old = .swapping token read row refreshed)
      (found : s.store.rows.lookup row.key = some now) (same : now.version = read.row.version) :
      Origin cfg s req a old (.write (VaultStore.swappedRow row now a.storeNow) refreshed)
  | rewrap {read : Reading VaultCredential} {row now : VaultCredential}
      {rest : List (Reading VaultCredential)} {moved : ℕ}
      (here : old = .rewrapping read row rest moved)
      (found : s.store.rows.lookup row.key = some now) (same : now.version = read.row.version) :
      Origin cfg s req a old (.write (VaultStore.swappedRow row now a.storeNow) none)

theorem origin_of_operate (done : operate cfg s req a old = some (phase, effect)) :
    Origin cfg s req a old effect := by
  cases operated_of_operate done with
  | quits | begins | issues | marks | refreshes | scans => exact .quiet
  | disconnects asked => exact .disconnect rfl asked
  | connects asked sealed => exact .connect rfl asked sealed
  | swaps done =>
    obtain ⟨-, rfl, -⟩ | ⟨_, found, same, -, rfl⟩ := swap_cases done
    · exact .quiet
    · exact .refresh rfl found same
  | rewraps done =>
    obtain ⟨-, rfl, -⟩ | ⟨_, found, same, -, rfl⟩ := swap_cases done
    · exact .quiet
    · exact .rewrap rfl found same

end

end TheAuth.Vault
