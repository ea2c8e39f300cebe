import TheAuth.Go.Map
import TheAuth.Go.Lib
import TheAuth.Go.Sha256
import TheAuth.Library.Run

/-!
# Client authentication and the rotation of a secret

A secret that was verified is cached under the identifier of its client, bound to its digest, and
a rotation drops the entry after it has stored the new hash. An authentication that has read the
row before can still put its answer afterwards, and the old secret is then served from the cache.
-/

set_option autoImplicit false

namespace TheAuth.Server.ClientAuth

open Go Library.Run Function GoMap AList

inductive AuthMethod where
  | none | secretBasic | secretPost | unset | privateKeyJWT | clientSecretJWT | other
  deriving DecidableEq

structure Client where
  tokenEndpointAuthMethod : AuthMethod
  clientSecretHash : Bytes
  deriving DecidableEq

/-- A cached client. -/
structure Entry where
  secretDigest : Bytes
  value : Client
  expiresAt : Time

abbrev Cache := GoMap Bytes Entry

def Cache.get (c : Cache) (clientID secret : Bytes) (now : Time) : Option Client × Cache :=
  match c.lookup clientID with
  | none => (none, c)
  | some e =>
    if ¬ now < e.expiresAt then (none, c.erase clientID)
    else if e.secretDigest ≠ sum256 secret then (none, c)
    else (some e.value, c.insert clientID e)

def Cache.trim (c : Cache) (maxEntries : ℕ) : Cache :=
  ⟨c.entries.take maxEntries, c.nodupKeys.sublist (List.take_sublist ..)⟩

def Cache.put (c : Cache) (maxEntries : ℕ) (ttl : Time) (clientID secret : Bytes) (value : Client)
    (now : Time) : Cache :=
  let added := c.insert clientID ⟨sum256 secret, value, now + ttl⟩
  if (c.lookup clientID).isSome then added else Cache.trim added maxEntries

/-- An authentication or a rotation. -/
structure Request where
  (clientID clientSecret : Bytes)

/-- `crypto.VerifyPassword` takes a secret and a hash, and `goodURL` are the checks of
`LooksLikeCIMD` on the parsed URL. -/
structure Config where
  maxEntries : ℕ
  ttl : Time
  verifyPassword : Bytes → Bytes → Option Bool
  goodURL : Bytes → Bool

variable (cfg : Config)

def Config.looksLikeCIMD (clientID : Bytes) : Bool :=
  (str "https://").isPrefixOf clientID && cfg.goodURL clientID

/-- Where a call stands. -/
inductive Phase where
  | start | resolving
  | putting (client : Client)
  | accepted (client : Client)
  | refused
  deriving DecidableEq

/-- `AuthenticateClient` from the row of the client to the cache. -/
def Config.check (req : Request) (client : Client) (busy : Bool) : Phase :=
  match client.tokenEndpointAuthMethod with
  | .none => if req.clientSecret ≠ [] then .refused else .accepted client
  | .secretBasic | .secretPost | .unset =>
    if req.clientSecret = [] ∨ client.clientSecretHash = [] then .refused
    else if !busy ∧ cfg.verifyPassword req.clientSecret client.clientSecretHash = some true then
      .putting client
    else .refused
  | .privateKeyJWT | .clientSecretJWT | .other => .refused

/-- An operation of `AuthenticateClient` with the computation up to the next one. -/
def Config.next (req : Request) (clients : GoMap Bytes Client) (cache : Cache)
    (now : Time) (cimd : Option Client) (busy : Bool) : Phase → Phase × Cache
  | .start =>
    if req.clientID = [] then (.refused, cache)
    else if req.clientSecret = [] then (.resolving, cache)
    else
      match cache.get req.clientID req.clientSecret now with
      | (some client, cache) => (.accepted client, cache)
      | (none, cache) => (.resolving, cache)
  | .resolving =>
    match if cfg.looksLikeCIMD req.clientID then cimd else clients.lookup req.clientID with
    | none => (.refused, cache)
    | some client => (cfg.check req client busy, cache)
  | .putting client =>
    (.accepted client, cache.put cfg.maxEntries cfg.ttl req.clientID req.clientSecret client now)
  | .accepted client => (.accepted client, cache)
  | .refused => (.refused, cache)

/-! ## Rotations -/

/-- `MintAgentCredential`, before it loads the row of the client and before its next operations. -/
inductive Rotation where
  | loading
  | storing (client : Client)
  | invalidating | invalidated | failed
  deriving DecidableEq

/-- Rows, cache and calls. -/
structure System (ι : Type) where
  clients : GoMap Bytes Client
  cache : Cache := ∅
  phase : ι → Phase := fun _ => .start
  rotation : Rotation := .loading
  late : ι → Bool := fun _ => false

def rotate (clientID hash : Bytes) {ι : Type} (s : System ι) : System ι :=
  match s.rotation with
  | .loading =>
    match s.clients.lookup clientID with
    | none => { s with rotation := .failed }
    | some client => { s with rotation := .storing { client with clientSecretHash := hash } }
  | .storing client =>
    match s.clients.lookup clientID with
    | none => { s with rotation := .failed }
    | some _ => { s with clients := s.clients.insert clientID client, rotation := .invalidating }
  | .invalidating => { s with cache := s.cache.erase clientID, rotation := .invalidated }
  | .invalidated | .failed => s

def agentClientID (ulid : Bytes) : Bytes := str "agent-" ++ ulid

/-- The next operation of an authentication, with what the CIMD service resolves its client to and
whether no verification could be run, or of the rotation. -/
inductive Action (ι : Type) where
  | advance (r : ι) (now : Time) (cimd : Option Client) (busy : Bool)
  | rotate

/-- One action. -/
def step {ι : Type} [DecidableEq ι] (cfg : Config) (reqs : ι → Request) (ulid hash : Bytes)
    (s : System ι) : Action ι → System ι
  | .advance r now cimd busy =>
    let after := cfg.next (reqs r) s.clients s.cache now cimd busy (s.phase r)
    { s with
      cache := after.2, phase := Function.update s.phase r after.1
      late := if s.phase r = .start then
          Function.update s.late r (decide (s.rotation = .invalidated))
        else s.late }
  | .rotate => rotate (agentClientID ulid) hash s

def Phase.read : Phase → Option Client
  | .putting client => some client
  | _ => none

/-- Who puts the client into the cache after the invalidation has read the row that is stored. -/
def PutsCurrent {ι : Type} (reqs : ι → Request) (clientID : Bytes) (s : System ι) :
    Action ι → Prop
  | .advance r .. => s.rotation = .invalidated → (reqs r).clientID = clientID →
    (s.phase r).read = none ∨ (s.phase r).read = s.clients.lookup clientID
  | .rotate => True

section

variable {cache : Cache} {key : Bytes} {e : Entry} {clientID secret : Bytes}

theorem Cache.lookup_of_get {now : Time} {answer : Option Client}
    {after : Cache} (got : cache.get clientID secret now = (answer, after))
    (here : after.lookup key = some e) : cache.lookup key = some e := by
  unfold Cache.get at got
  split at got
  · cases got
    exact here
  rename_i there
  split at got
  · cases got
    exact lookup_of_lookup_erase here
  split at got
  · cases got
    exact here
  cases got
  obtain ⟨rfl, rfl⟩ | ⟨-, before⟩ := of_lookup_insert here
  · exact there
  · exact before

theorem Cache.get_eq_some {now : Time} {client : Client} {after : Cache}
    (served : cache.get clientID secret now = (some client, after)) :
    ∃ e, cache.lookup clientID = some e ∧ e.secretDigest = sum256 secret := by
  unfold Cache.get at served
  split at served
  · cases served
  rename_i e here
  split at served
  · cases served
  split at served
  · cases served
  rename_i same
  exact ⟨e, here, not_not.mp same⟩

theorem Cache.of_lookup_put {max : ℕ} {ttl now : Time} {value : Client}
    (here : (cache.put max ttl clientID secret value now).lookup key = some e) :
    key = clientID ∧ e.secretDigest = sum256 secret ∨ cache.lookup key = some e := by
  have added : (cache.insert clientID ⟨sum256 secret, value, now + ttl⟩).lookup key = some e := by
    unfold Cache.put at here
    split at here
    · exact here
    · exact mem_lookup_iff.mpr (List.mem_of_mem_take (mem_lookup_iff.mp here))
  obtain ⟨same, rfl⟩ | ⟨-, before⟩ := of_lookup_insert added
  · exact .inl ⟨same, rfl⟩
  · exact .inr before

variable {cfg : Config} {req : Request} {client : Client} {busy : Bool}

theorem Config.check_putting {read : Client} (checked : cfg.check req read busy = .putting client) :
    cfg.verifyPassword req.clientSecret client.clientSecretHash = some true := by
  unfold Config.check at checked
  split at checked
  · split at checked <;> cases checked
  iterate 3
    split at checked
    · cases checked
    split at checked
    · rename_i verified
      cases checked
      exact verified.2
    · cases checked
  all_goals cases checked

theorem Config.check_refused (some_ : req.clientSecret ≠ [])
    (wrong : cfg.verifyPassword req.clientSecret client.clientSecretHash ≠ some true) :
    cfg.check req client busy = .refused := by
  unfold Config.check
  split <;> simp [some_, wrong]

variable {clients : GoMap Bytes Client} {now : Time} {cimd : Option Client} {p : Phase}

theorem Config.next_putting
    (moved : (cfg.next req clients cache now cimd busy p).1 = .putting client) :
    cfg.verifyPassword req.clientSecret client.clientSecretHash = some true := by
  cases p with
  | start =>
    dsimp only [Config.next] at moved
    split at moved
    · cases moved
    split at moved
    · cases moved
    split at moved <;> cases moved
  | resolving =>
    dsimp only [Config.next] at moved
    split at moved
    · cases moved
    · exact Config.check_putting moved
  | _ => cases moved

theorem Config.of_lookup_next
    (here : (cfg.next req clients cache now cimd busy p).2.lookup key = some e) :
    (∃ client, p = .putting client ∧ key = req.clientID ∧
      e.secretDigest = sum256 req.clientSecret) ∨ cache.lookup key = some e := by
  cases p with
  | start =>
    dsimp only [Config.next] at here
    split at here
    · exact .inr here
    split at here
    · exact .inr here
    split at here <;> rename_i got <;> exact .inr (Cache.lookup_of_get got here)
  | resolving =>
    dsimp only [Config.next] at here
    split at here <;> exact .inr here
  | putting client =>
    rcases Cache.of_lookup_put here with ⟨same, digest⟩ | before
    · exact .inl ⟨client, rfl, same, digest⟩
    · exact .inr before
  | _ => exact .inr here

end

/-! ## The invariant -/

section

variable {ι : Type} [DecidableEq ι] {cfg : Config} {reqs : ι → Request} {ulid hash : Bytes}
  {s : System ι} {r : ι}

/-- Request `r` is for the client, and its secret is not the new one. No other secret that is
presented has its digest. -/
structure Old (cfg : Config) (reqs : ι → Request) (ulid hash : Bytes) (r : ι) : Prop where
  own : (reqs r).clientID = agentClientID ulid
  nonempty : (reqs r).clientSecret ≠ []
  wrong : cfg.verifyPassword (reqs r).clientSecret hash ≠ some true
  apart : ∀ q, sum256 (reqs q).clientSecret = sum256 (reqs r).clientSecret →
    (reqs q).clientSecret = (reqs r).clientSecret

/-- After the invalidation what is cached of the client was verified against the new hash. -/
structure Sound (cfg : Config) (reqs : ι → Request) (ulid hash : Bytes) (r : ι) (s : System ι) :
    Prop where
  storing : ∀ {client}, s.rotation = .storing client → client.clientSecretHash = hash
  stored : s.rotation = .invalidating ∨ s.rotation = .invalidated →
    ∃ client, s.clients.lookup (agentClientID ulid) = some client ∧ client.clientSecretHash = hash
  checked : ∀ {q client}, s.phase q = .putting client →
    cfg.verifyPassword (reqs q).clientSecret client.clientSecretHash = some true
  cached : s.rotation = .invalidated → ∀ {e}, s.cache.lookup (agentClientID ulid) = some e →
    ∃ q, e.secretDigest = sum256 (reqs q).clientSecret ∧
      cfg.verifyPassword (reqs q).clientSecret hash = some true
  late : s.late r = true → s.rotation = .invalidated ∧
    (s.phase r = .resolving ∨ s.phase r = .refused)

omit [DecidableEq ι] in
theorem Sound.rotate (sound : Sound cfg reqs ulid hash r s) :
    Sound cfg reqs ulid hash r (rotate (agentClientID ulid) hash s) := by
  unfold ClientAuth.rotate
  split
  · rename_i loading
    have early : s.late r = true → False := fun late =>
      nomatch loading.symm.trans (sound.late late).1
    split
    · exact ⟨nofun, nofun, sound.checked, nofun, fun late => (early late).elim⟩
    · refine ⟨fun same => ?_, nofun, sound.checked, nofun, fun late => (early late).elim⟩
      cases same
      rfl
  · rename_i client storing
    have early : s.late r = true → False := fun late =>
      nomatch storing.symm.trans (sound.late late).1
    split
    · exact ⟨nofun, nofun, sound.checked, nofun, fun late => (early late).elim⟩
    · exact ⟨nofun, fun _ => ⟨client, lookup_insert _, sound.storing storing⟩,
        sound.checked, nofun, fun late => (early late).elim⟩
  · rename_i invalidating
    refine ⟨nofun, fun _ => sound.stored (.inl invalidating), sound.checked, fun _ e here => ?_,
      fun late => ⟨rfl, (sound.late late).2⟩⟩
    rw [lookup_erase] at here
    cases here
  · exact sound
  · exact sound

theorem agentClientID_ne_nil : agentClientID ulid ≠ [] :=
  List.append_ne_nil_of_left_ne_nil (by decide) ulid

theorem Sound.advance (sound : Sound cfg reqs ulid hash r s) (old : Old cfg reqs ulid hash r)
    {q : ι} {now : Time} {cimd : Option Client} {busy : Bool}
    (current : PutsCurrent reqs (agentClientID ulid) s (.advance q now cimd busy)) :
    Sound cfg reqs ulid hash r (step cfg reqs ulid hash s (.advance q now cimd busy)) where
  storing := sound.storing
  stored := sound.stored
  checked {q' client} here := by
    rcases update_cases here with ⟨rfl, moved⟩ | ⟨-, before⟩
    · exact Config.next_putting moved
    · exact sound.checked before
  cached done {e} here := by
    rcases Config.of_lookup_next here with ⟨client, putting, own, digest⟩ | before
    · obtain ⟨_, stored, rfl⟩ := sound.stored (.inr done)
      have read := current done own.symm
      rw [putting, stored] at read
      obtain no | same := read
      · cases no
      · cases same
        exact ⟨q, digest, sound.checked putting⟩
    · exact sound.cached done before
  late here := by
    change s.rotation = .invalidated ∧
      (update s.phase q _ r = .resolving ∨ update s.phase q _ r = .refused)
    by_cases self : r = q
    · subst self
      have before : s.phase r ≠ .start → s.late r = true := fun no => by simpa [step, no] using here
      rw [update_self]
      cases phase : s.phase r with
      | start =>
        have done : s.rotation = .invalidated := by simpa [step, phase] using here
        refine ⟨done, .inl ?_⟩
        dsimp only [Config.next]
        rw [old.own, if_neg agentClientID_ne_nil, if_neg old.nonempty]
        split
        · rename_i served
          obtain ⟨_, cached, digest⟩ := Cache.get_eq_some served
          obtain ⟨q, same, verified⟩ := sound.cached done cached
          rw [old.apart q (same.symm.trans digest)] at verified
          exact absurd verified old.wrong
        · rfl
      | resolving =>
        obtain ⟨done, -⟩ := sound.late (before (phase ▸ nofun))
        obtain ⟨_, stored, rfl⟩ := sound.stored (.inr done)
        refine ⟨done, .inr ?_⟩
        dsimp only [Config.next]
        rw [old.own, stored]
        exact Config.check_refused old.nonempty old.wrong
      | refused => exact ⟨(sound.late (before (phase ▸ nofun))).1, .inr rfl⟩
      | _ => simpa [phase] using (sound.late (before (phase ▸ nofun))).2
    · rw [update_of_ne self]
      refine sound.late ?_
      dsimp only [step] at here
      split at here
      · rwa [update_of_ne self] at here
      · exact here

/-- **After a rotation has stored the new hash and dropped the cached entry, no authentication that
begins succeeds with the old secret, when those that still put the client have read the new
row.** -/
theorem old_secret_refused (cfg : Config) (reqs : ι → Request) (ulid hash : Bytes)
    (clients : GoMap Bytes Client) (r : ι) (old : Old cfg reqs ulid hash r)
    (actions : List (Action ι))
    (current : Throughout (fun s a => some (step cfg reqs ulid hash s a))
      (PutsCurrent reqs (agentClientID ulid)) { clients } actions) (client : Client) :
    let last := actions.foldl (step cfg reqs ulid hash) { clients }
    last.late r = true → last.phase r ≠ .accepted client := by
  intro last late accepted
  have initially : Sound cfg reqs ulid hash r { clients } := ⟨nofun, nofun, nofun, nofun, nofun⟩
  have sound : Sound cfg reqs ulid hash r last := invariant_of_run_throughout
    (fun {_ a _} sound current taken => Option.some.inj taken ▸ match a with
      | .advance .. => sound.advance old current
      | .rotate => sound.rotate) initially current run_total
  simpa [accepted] using (sound.late late).2

end

def plainConfig : Config := ⟨9, 9, fun secret hash => some (secret == hash), fun _ => false⟩

def presented (_ : Fin 2) : Request := ⟨agentClientID [], [1]⟩

def oldClients : GoMap Bytes Client := AList.insert (agentClientID []) ⟨.secretPost, [1]⟩ ∅

instance {ι : Type} (reqs : ι → Request) (clientID : Bytes) (s : System ι) :
    ∀ a, Decidable (PutsCurrent reqs clientID s a)
  | .advance .. => inferInstanceAs (Decidable (_ → _))
  | .rotate => .isTrue trivial

/-- The first request reads the new row during the rotation, and puts it afterwards. -/
def readDuringRotation : List (Action (Fin 2)) :=
  [.advance 0 0 none false, .rotate, .rotate, .advance 0 0 none false, .rotate,
    .advance 0 0 none false, .advance 1 0 none false]

theorem old_secret_refused_after_rotation :
    let last := readDuringRotation.foldl (step plainConfig presented [] [2])
      { clients := oldClients }
    last.late 1 = true ∧ last.phase 1 ≠ .accepted ⟨.secretPost, [1]⟩ := by
  intro last
  have late : last.late 1 = true := by decide +kernel
  exact ⟨late, old_secret_refused plainConfig presented [] [2] oldClients 1
    ⟨rfl, by decide, by decide, fun _ _ => rfl⟩ readDuringRotation (by decide +kernel)
    ⟨.secretPost, [1]⟩ late⟩

/-- The first request reads the row before the rotation, and puts it afterwards. -/
theorem old_secret_accepted :
    let last := [.advance 0 0 none false, .advance 0 0 none false, .rotate, .rotate, .rotate,
      .advance 0 0 none false, .advance 1 0 none false].foldl
        (step plainConfig presented [] [2]) { clients := oldClients }
    last.late 1 = true ∧ last.phase 1 = .accepted ⟨.secretPost, [1]⟩ := by
  decide +kernel

end TheAuth.Server.ClientAuth
