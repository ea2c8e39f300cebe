import TheAuth.Vault.Calls

/-!
# Versions and lives of a credential

Within one life of a credential a swap replaces exactly the row that was read. A credential that is
deleted and connected again starts with version one, so a refresh of the old life can replace it. No
refresh makes a deleted credential present again.
-/

set_option autoImplicit false

namespace TheAuth.Vault

open Go Library Library.Result Library.Run List VaultStore VaultCredential Function Option

theorem aad_eq_of_key {userID provider userID' provider' : Bytes}
    (same : vaultKey userID provider = vaultKey userID' provider') (field : Bytes) :
    aad userID provider field = aad userID' provider' field := by
  have split (u p : Bytes) : aad u p field =
      str "tokenvault/v1" ++ 0 :: (vaultKey u p ++ 0 :: field) := by
    unfold aad vaultKey
    rw [append_assoc, cons_append]
  rw [split, split, same]

/-- Both blobs are empty or sealed under the active key. -/
def SealedActive (cfg : Config) (c : VaultCredential) : Prop :=
  (c.accessCT = [] ∨ keyID c.accessCT = .ok cfg.keys.active) ∧
    (c.refreshCT = [] ∨ keyID c.refreshCT = .ok cfg.keys.active)

instance (cfg : Config) (c : VaultCredential) : Decidable (SealedActive cfg c) :=
  inferInstanceAs (Decidable ((_ ∨ _) ∧ (_ ∨ _)))

/-- What a call is about to swap in. -/
inductive Prepared (cfg : Config) : Phase → Prop where
  | marking (req : TokenRequest) (read : Reading VaultCredential) :
      Prepared cfg (.swapping req read { read.row with status := .needsReauth } none)
  | refreshed {req : TokenRequest} {read : Reading VaultCredential} {next : VaultCredential}
      {tokens : Contents} (key : next.key = read.row.key) (holds : contents cfg next = tokens) :
      Prepared cfg (.swapping req read next (some tokens))
  | rewrapping {read : Reading VaultCredential} {next : VaultCredential}
      {rest : List (Reading VaultCredential)} {moved : ℕ} (key : next.key = read.row.key)
      (scopes : next.scopes = read.row.scopes)
      (holds : contents cfg next = contents cfg read.row) (sealed : SealedActive cfg next) :
      Prepared cfg (.rewrapping read next rest moved)
  | other {phase : Phase} (nothing : phase.readings = []) : Prepared cfg phase

section

variable {cfg : Config} {s : System} {a : Answers}

theorem contents_refreshedRow {req : TokenRequest} {cur next : VaultCredential}
    {resp : TokenResponse} (key : cur.key = req.key)
    (made : refreshedRow cfg req cur resp a = some next) :
    next.key = cur.key ∧ contents cfg next = refreshedContents cfg cur resp := by
  have access := aad_eq_of_key key (str "access")
  have refresh := aad_eq_of_key key (str "refresh")
  obtain ⟨_, first, made⟩ := bind_eq_some_iff.mp made
  obtain ⟨_, second, made⟩ := bind_eq_some_iff.mp made
  cases made
  refine ⟨rfl, ?_⟩
  unfold contents refreshedContents
  congr 1
  · rw [accessAAD, access, ← accessAAD, KeyRing.open_seal first]
    rfl
  · unfold sealRefresh at second
    split at second
    next unchanged =>
      cases second
      rw [if_pos unchanged]
      rfl
    rename_i renewed
    rw [if_neg renewed, refreshAAD, refresh, ← refreshAAD, KeyRing.open_seal second]
    rfl

theorem reseal_spec {blob aad sealed : Bytes} {random : Option (ℕ → UInt8)} {changed : Bool}
    (done : reseal cfg blob aad random = .ok (sealed, changed)) :
    (cfg.keys.open_ sealed aad).toOption = (cfg.keys.open_ blob aad).toOption ∧
      (sealed = [] ∨ keyID sealed = .ok cfg.keys.active) ∧ (changed = false → sealed = blob) := by
  unfold reseal at done
  split at done
  next empty =>
    cases done
    exact ⟨rfl, .inl empty, fun _ => rfl⟩
  split at done
  · cases done
  rename_i named
  split at done
  next current =>
    cases done
    subst current
    exact ⟨rfl, .inr named, fun _ => rfl⟩
  split at done
  · cases done
  rename_i opened
  split at done <;> cases done
  rename_i made
  rw [KeyRing.open_seal made, opened]
  exact ⟨rfl, .inr (KeyRing.keyID_seal made), fun off => Bool.noConfusion off⟩

theorem resealed_spec {c : VaultCredential} {result : Option VaultCredential}
    (done : resealed cfg c a = .ok result) :
    result = none ∧ SealedActive cfg c ∨
      ∃ next, result = some next ∧ next.key = c.key ∧ next.scopes = c.scopes ∧
        contents cfg next = contents cfg c ∧ SealedActive cfg next := by
  obtain ⟨⟨_, _⟩, access, done⟩ := of_bind done
  obtain ⟨⟨_, _⟩, refresh, done⟩ := of_bind done
  obtain ⟨_, sealedAccess, keptAccess⟩ := reseal_spec access
  obtain ⟨_, sealedRefresh, keptRefresh⟩ := reseal_spec refresh
  cases done
  split
  · refine .inr ⟨_, rfl, rfl, rfl, ?_, sealedAccess, sealedRefresh⟩
    unfold contents
    congr 1
  rename_i neither
  rw [Bool.or_eq_true, not_or, Bool.not_eq_true, Bool.not_eq_true] at neither
  rw [keptAccess neither.1] at sealedAccess
  rw [keptRefresh neither.2] at sealedRefresh
  exact .inl ⟨rfl, sealedAccess, sealedRefresh⟩

end

section

variable (cfg : Config) (s : System) (a : Answers)

theorem rewrapFrom_cases (moved : ℕ) (after : Bytes) (page : List (Reading VaultCredential)) :
    (∃ e, rewrapFrom cfg a moved after page = .stopped moved e) ∨
      (∃ seen read rest, page = seen ++ read :: rest ∧ (∀ r ∈ seen, SealedActive cfg r.row) ∧
        ∃ next, next.key = read.row.key ∧ next.scopes = read.row.scopes ∧
          contents cfg next = contents cfg read.row ∧ SealedActive cfg next ∧
          rewrapFrom cfg a moved after page = .rewrapping read next rest moved) ∨
      (∀ r ∈ page, SealedActive cfg r.row) ∧
        rewrapFrom cfg a moved after page =
          .scanning ((page.map fun r => r.row.id).getLastD after) moved := by
  induction page generalizing after with
  | nil => exact .inr (.inr ⟨nofun, rfl⟩)
  | cons read rest ih =>
    unfold rewrapFrom
    split
    next e failed => exact .inl ⟨e, rfl⟩
    next unchanged =>
      rcases resealed_spec unchanged with ⟨-, sealed⟩ | ⟨next, ⟨⟩, -⟩
      have both {seen : List (Reading VaultCredential)}
          (all : ∀ r ∈ seen, SealedActive cfg r.row) :
          ∀ r ∈ read :: seen, SealedActive cfg r.row := by
        intro r listed
        rcases mem_cons.mp listed with rfl | later
        · exact sealed
        · exact all r later
      rcases ih read.row.id with
        stopped | ⟨seen, found, rest', rfl, all, next⟩ | ⟨all, scans⟩
      · exact .inl stopped
      · exact .inr (.inl ⟨read :: seen, found, rest', rfl, both all, next⟩)
      · refine .inr (.inr ⟨both all, ?_⟩)
        rw [scans, map_cons, getLastD_cons]
    rename_i next changed
    rcases resealed_spec changed with ⟨⟨⟩, -⟩ | ⟨_, same, key, scopes, holds, sealed⟩
    cases same
    exact .inr (.inl ⟨[], read, rest, rfl, nofun, next, key, scopes, holds, sealed, rfl⟩)

theorem scanPage_cases (after : Bytes) (moved : ℕ) :
    s.store.scanVaultCredentials after 100 = [] ∧
        (scanPage cfg s after moved a = .rewrapped moved ∨
          ∃ e, scanPage cfg s after moved a = .stopped moved e) ∨
      s.store.scanVaultCredentials after 100 ≠ [] ∧
        scanPage cfg s after moved a = rewrapFrom cfg a moved after
          ((s.store.scanVaultCredentials after 100).map fun c => ⟨s.life c.key, c⟩) := by
  unfold scanPage
  split
  next empty =>
    refine .inl ⟨empty, ?_⟩
    split
    · exact .inl rfl
    · exact .inr ⟨_, rfl⟩
  rename_i c rest page
  rw [page]
  exact .inr ⟨cons_ne_nil c rest, rfl⟩

end

/-! ## Readings -/

/-- What the new phase has read and prepared. -/
structure Holding (cfg : Config) (s : System) (old phase : Phase) : Prop where
  prepared : Prepared cfg phase
  readings : ∀ read ∈ phase.readings,
    read ∈ old.readings ∨ s.cell read.row.key = ⟨read.life, some read.row⟩

section

variable {cfg : Config} {s : System} {a : Answers} {req : TokenRequest} {old phase : Phase}

theorem Holding.of_nothing (nothing : phase.readings = []) : Holding cfg s old phase := by
  refine ⟨.other nothing, fun read held => ?_⟩
  rw [nothing] at held
  cases held

theorem readings_of_ended (ended : phase.Ended) : phase.readings = [] := by
  cases phase <;> first | rfl | cases ended

theorem readings_afterSwap (refreshed : Option Contents) (swapped : Bool) :
    (afterSwap req refreshed swapped).readings = [] := by
  unfold afterSwap
  split
  · rfl
  · split <;> rfl

variable {refreshed : Option Contents}

theorem Holding.of_read {cred next : VaultCredential}
    (found : s.store.rows.lookup req.key = some cred)
    (prepared : Prepared cfg (.swapping req ⟨s.life req.key, cred⟩ next refreshed)) :
    Holding cfg s old (.swapping req ⟨s.life req.key, cred⟩ next refreshed) := by
  refine ⟨prepared, fun read held => .inr ?_⟩
  obtain rfl := mem_singleton.mp held
  have key : cred.key = req.key := s.store.keyed found
  unfold System.cell
  rw [key, found]

variable {page : List (Reading VaultCredential)} {after : Bytes}

theorem holding_rewrapFrom {moved : ℕ}
    (held : ∀ read ∈ page, read ∈ old.readings ∨ s.cell read.row.key = ⟨read.life, some read.row⟩) :
    Holding cfg s old (rewrapFrom cfg a moved after page) := by
  rcases rewrapFrom_cases cfg a moved after page with
    ⟨e, same⟩ | ⟨seen, read, rest, rfl, -, next, key, scopes, holds, sealed, same⟩ | ⟨-, same⟩
  · rw [same]
    exact .of_nothing rfl
  · rw [same]
    exact ⟨.rewrapping key scopes holds sealed, fun r listed => held r (mem_append_right _ listed)⟩
  · rw [same]
    exact .of_nothing rfl

theorem mem_of_mem_scan {limit : ℕ} {c : VaultCredential}
    (listed : c ∈ s.store.scanVaultCredentials after limit) :
    s.store.rows.lookup c.key = some c ∧ after < c.id := by
  have sorted := mem_of_mem_take listed
  rw [mem_insertionSort, mem_filter, decide_eq_true_iff] at sorted
  obtain ⟨_, found⟩ := GoMap.mem_values.mp sorted.1
  rw [s.store.keyed found]
  exact ⟨found, sorted.2⟩

theorem holding_scanPage (after : Bytes) (moved : ℕ) :
    Holding cfg s old (scanPage cfg s after moved a) := by
  rcases scanPage_cases cfg s a after moved with
    ⟨-, same | ⟨e, same⟩⟩ | ⟨-, same⟩
  · rw [same]
    exact .of_nothing rfl
  · rw [same]
    exact .of_nothing rfl
  · rw [same]
    refine holding_rewrapFrom fun read listed => .inr ?_
    obtain ⟨_, scanned, rfl⟩ := mem_map.mp listed
    unfold System.cell
    rw [(mem_of_mem_scan scanned).1]

theorem readings_rewrapFrom {moved : ℕ}
    {r : Reading VaultCredential} (held : r ∈ (rewrapFrom cfg a moved after page).readings) :
    r ∈ page := by
  rcases rewrapFrom_cases cfg a moved after page with
    ⟨e, same⟩ | ⟨seen, found, rest, rfl, -, next, -, -, -, -, same⟩ | ⟨-, same⟩
  · rw [same] at held
    cases held
  · rw [same] at held
    exact mem_append_right seen held
  · rw [same] at held
    cases held

theorem holding_of_operate {request : Request} {effect : Effect}
    (done : operate cfg s request a old = some (phase, effect)) :
    Holding cfg s old phase ∧ (effect ≠ .quiet → ∀ read ∈ phase.readings, read ∈ old.readings) := by
  have ends (nothing : phase.readings = []) : Holding cfg s old phase ∧
      (effect ≠ .quiet → ∀ read ∈ phase.readings, read ∈ old.readings) :=
    ⟨.of_nothing nothing, fun _ => nothing ▸ nofun⟩
  cases operated_of_operate done with
  | quits _ ended | disconnects _ ended | connects _ _ ended => exact ends (readings_of_ended ended)
  | begins | issues => exact ends rfl
  | marks found => exact ⟨.of_read found (.marking _ _), fun loud => absurd rfl loud⟩
  | refreshes found _ made =>
    obtain ⟨kept, holds⟩ := contents_refreshedRow (s.store.keyed found) made
    exact ⟨.of_read found (.refreshed kept holds), fun loud => absurd rfl loud⟩
  | swaps done =>
    obtain ⟨rfl, -, -⟩ | ⟨-, -, -, rfl, -⟩ := swap_cases done
    all_goals exact ends (readings_afterSwap _ _)
  | scans => exact ⟨holding_scanPage _ _, fun loud => absurd rfl loud⟩
  | @rewraps read _ _ _ _ _ done =>
    obtain ⟨rfl, -, -⟩ | ⟨-, -, -, rfl, -⟩ := swap_cases done
    all_goals exact ⟨holding_rewrapFrom fun r listed => .inl (mem_cons_of_mem read listed),
      fun _ r held => mem_cons_of_mem read (readings_rewrapFrom held)⟩

end

/-! ## Cells -/

section

variable {cfg : Config} {requests : ℕ → Request} {s next : System} {act : Action}

theorem cell_write {row : VaultCredential} (tokens : Option Contents)
    (higher : ∀ old, s.store.rows.lookup row.key = some old → old.version < row.version)
    (key : Bytes) :
    Cell.Step version (s.cell key) ((s.apply (.write row tokens)).cell key) := by
  change Cell.Step _ ⟨s.life key, _⟩ ⟨s.life key, (s.store.write row).rows.lookup key⟩
  rw [lookup_write]
  split
  next same =>
    subst same
    cases found : s.store.rows.lookup row.key with
    | none => exact .create _ row
    | some old => exact .replace (higher old found)
  · exact .stay _

theorem cell_delete (deleted key : Bytes) :
    Cell.Step version (s.cell key) ((s.apply (.delete deleted)).cell key) := by
  change Cell.Step _ _ ⟨update s.life deleted (s.life deleted + 1) key,
    (s.store.deleteVaultCredential deleted).rows.lookup key⟩
  rw [lookup_deleteVaultCredential]
  split
  next same =>
    subst same
    rw [update_self]
    exact .empty _
  rename_i other
  rw [update_of_ne other]
  exact .stay _

theorem cell_step (taken : step cfg requests s act = some next) (key : Bytes) :
    Cell.Step version (s.cell key) (next.cell key) := by
  obtain ⟨_, _, done, rfl⟩ := step_eq_some.mp taken
  cases origin_of_operate done with
  | quiet => exact .stay _
  | disconnect => exact cell_delete _ key
  | @connect input =>
    refine cell_write (some input.contents) (fun old found => ?_) key
    rw [key_putVaultCredential] at found
    unfold putVaultCredential
    rw [found]
    exact Int.lt_add_one_iff.mpr (Int.le_refl old.version)
  | @refresh _ _ _ now refreshed _ found =>
    refine cell_write refreshed (fun old held => ?_) key
    obtain rfl : now = old := some.inj (found.symm.trans held)
    exact Int.lt_add_one_iff.mpr (Int.le_refl now.version)
  | @rewrap _ _ now _ _ _ found =>
    refine cell_write none (fun old held => ?_) key
    obtain rfl : now = old := some.inj (found.symm.trans held)
    exact Int.lt_add_one_iff.mpr (Int.le_refl now.version)

/-- No call in flight holds the version of an earlier life. -/
def Unrevived (cfg : Config) (requests : ℕ → Request) (s : System) (act : Action) : Prop :=
  ∀ next, step cfg requests s act = some next → ∀ q, ∀ read ∈ (s.phase q).readings,
    ¬ read.Revived VaultCredential.version (next.cell read.row.key)

/-- Only `disconnect` ends a life. -/
theorem life_eq_of_step (stays : ∀ q userID provider, requests q ≠ .disconnect userID provider)
    (taken : step cfg requests s act = some next) : next.life = s.life := by
  obtain ⟨_, _, done, rfl⟩ := step_eq_some.mp taken
  cases origin_of_operate done with
  | quiet | connect | refresh | rewrap => rfl
  | disconnect _ asked => exact absurd asked (stays _ _ _)

/-- Where nothing is disconnected, no version comes back. -/
theorem throughout_unrevived {store : VaultStore} {actions : List Action}
    (stays : ∀ q userID provider, requests q ≠ .disconnect userID provider) :
    Throughout (step cfg requests) (Unrevived cfg requests) (.initial store) actions := by
  have keeps {s next : System} {act : Action} (lives : ∀ key, s.life key = 0) (_ : True)
      (taken : step cfg requests s act = some next) (key : Bytes) : next.life key = 0 :=
    (congrFun (life_eq_of_step stays taken) key).trans (lives key)
  have gives {s : System} {act : Action} (lives : ∀ key, s.life key = 0) (_ : True) :
      Unrevived cfg requests s act := by
    intro next taken q read _ revived
    have later : read.life < next.life read.row.key := revived.1
    rw [keeps lives trivial taken] at later
    exact Nat.not_lt_zero _ later
  have anyway : Throughout (step cfg requests) (fun _ _ => True) (.initial store) actions :=
    throughout_of_forall fun _ _ => trivial
  exact throughout_of_invariant keeps gives (fun _ => rfl) anyway

/-- The invariant: what is prepared fits what was read. -/
structure Sound (cfg : Config) (s : System) : Prop where
  prepared : ∀ q, Prepared cfg (s.phase q)
  fits : ∀ q, ∀ read ∈ (s.phase q).readings, read.Fits VaultCredential.version (s.cell read.row.key)

theorem sound_initial (cfg : Config) (store : VaultStore) : Sound cfg (System.initial store) :=
  ⟨fun _ => .other rfl, nofun⟩

theorem sound_step (sound : Sound cfg s) (unrevived : Unrevived cfg requests s act)
    (taken : step cfg requests s act = some next) : Sound cfg next := by
  have cells := cell_step taken
  have later := unrevived next taken
  obtain ⟨_, effect, done, rfl⟩ := step_eq_some.mp taken
  obtain ⟨holding, noNew⟩ := holding_of_operate done
  constructor
  · intro q
    by_cases same : q = act.call
    · subst same
      dsimp only
      rw [update_self]
      exact holding.prepared
    · dsimp only
      rw [update_of_ne same]
      exact sound.prepared q
  · intro q read held
    have kept {q : ℕ} (before : read ∈ (s.phase q).readings) :
        read.Fits version _ :=
      (sound.fits q read before).step (cells read.row.key) (later q read before)
    rcases update_cases_of (Q := fun p : Phase => read ∈ p.readings) held with
        ⟨rfl, new⟩ | ⟨-, before⟩
    · rcases holding.readings read new with before | here
      · exact kept before
      · by_cases quiet : effect = .quiet
        · subst quiet
          change read.Fits version (s.cell read.row.key)
          rw [here]
          exact .of_read
        · exact kept (noNew quiet read new)
    · exact kept before

end

section

variable {cfg : Config} {requests : ℕ → Request} {s next : System} {act : Action}
  {req : TokenRequest}

theorem key_of_prepared {token : TokenRequest} {read : Reading VaultCredential}
    {row : VaultCredential} {refreshed : Option Contents}
    (prepared : Prepared cfg (.swapping token read row refreshed)) : row.key = read.row.key := by
  cases prepared with
  | marking => rfl
  | refreshed key => exact key
  | other nothing => cases nothing

theorem refresh_effect (taken : step cfg requests s act = some next)
    (refreshes : (s.phase act.call).inFlight = some req) :
    next.store = s.store ∨
      ∃ read row refreshed now, s.phase act.call = .swapping req read row refreshed ∧
        s.store.rows.lookup row.key = some now ∧ now.version = read.row.version ∧
        next.store = s.store.write (swappedRow row now act.answers.storeNow) := by
  obtain ⟨_, _, done, rfl⟩ := step_eq_some.mp taken
  cases origin_of_operate done with
  | quiet => exact .inl rfl
  | disconnect here | connect here | rewrap here =>
    rw [here] at refreshes
    cases refreshes
  | @refresh _ read row now refreshed here found same =>
    rw [here] at refreshes
    cases refreshes
    exact .inr ⟨read, row, refreshed, now, here, found, same, rfl⟩

theorem absent_of_refresh (taken : step cfg requests s act = some next)
    (refreshes : (s.phase act.call).inFlight = some req) {key : Bytes}
    (absent : s.store.rows.lookup key = none) : next.store.rows.lookup key = none := by
  rcases refresh_effect taken refreshes with same | ⟨_, _, _, _, -, found, -, same⟩
  · rw [same]
    exact absent
  · rw [same, lookup_write]
    split
    next here =>
      subst here
      cases found.symm.trans absent
    · exact absent

theorem replaced_of_refresh (sound : Sound cfg s) (taken : step cfg requests s act = some next)
    (refreshes : (s.phase act.call).inFlight = some req) {key : Bytes}
    (changed : next.store.rows.lookup key ≠ s.store.rows.lookup key) :
    ∃ read ∈ (s.phase act.call).readings, read.row.key = key ∧ read.life = s.life key ∧
      s.store.rows.lookup key = some read.row ∧ (next.store.rows.lookup key).isSome := by
  rcases refresh_effect taken refreshes with
    same | ⟨read, row, refreshed, now, here, found, version, same⟩
  · exact absurd (by rw [same]) changed
  · have prepared := sound.prepared act.call
    have fits := sound.fits act.call
    rw [here] at prepared fits ⊢
    have own : row.key = read.row.key := key_of_prepared prepared
    rw [own] at found
    have held : read ∈ (Phase.swapping req read row refreshed).readings := mem_singleton_self _
    obtain ⟨life, rfl⟩ := (fits read held).same found version
    rw [same, lookup_write] at changed ⊢
    split at changed
    next other =>
      obtain rfl : key = read.row.key := other.trans own
      rw [if_pos other]
      exact ⟨read, held, rfl, life, found, rfl⟩
    · exact absurd rfl changed

end

/-- **A refresh replaces only the row that it has read**, and makes no absent credential present. -/
theorem refresh_spares_reconnected (cfg : Config) (requests : ℕ → Request) (store : VaultStore)
    (actions : List Action) (last next : System) (act : Action) (req : TokenRequest)
    (ran : run (step cfg requests) (.initial store) actions = some last)
    (refreshes : (last.phase act.call).inFlight = some req)
    (taken : step cfg requests last act = some next) :
    (∀ key, last.store.rows.lookup key = none → next.store.rows.lookup key = none) ∧
      (Throughout (step cfg requests) (Unrevived cfg requests) (.initial store) actions →
        ∀ key, next.store.rows.lookup key ≠ last.store.rows.lookup key →
          ∃ read ∈ (last.phase act.call).readings, read.row.key = key ∧
            read.life = last.life key ∧ last.store.rows.lookup key = some read.row ∧
            (next.store.rows.lookup key).isSome) := by
  refine ⟨fun key absent => absent_of_refresh taken refreshes absent, fun unrevived key => ?_⟩
  have sound : Sound cfg last :=
    invariant_of_run_throughout sound_step (sound_initial cfg store) unrevived ran
  exact replaced_of_refresh sound taken refreshes

/-! ## A vault -/

def plainAead : Aead where
  nonceSize := 0
  overhead := 0
  seal_ _ plaintext _ := plaintext
  open_ _ ciphertext _ := some ciphertext
  length_seal _ _ _ := rfl
  open_seal _ _ _ _ := rfl

theorem plainKey_named : ([107] : Bytes) ≠ [] ∧ ([107] : Bytes).length ≤ maxKeyIDLen := by decide

def plainConfig : Config where
  keys := ⟨[107], fun _ => some plainAead, rfl, plainKey_named⟩
  providers := [str "p"]
  expirySkew := 60

def plainBlob (token : String) : Bytes := [1, 1, 107] ++ str token

def expired : VaultCredential where
  id := str "1"
  userID := str "u"
  provider := str "p"
  accountID := str "old"
  scopes := [str "read"]
  accessCT := plainBlob "a1"
  refreshCT := plainBlob "r1"
  accessExpiresAt := 100
  status := .active
  version := 1
  createdAt := 1
  updatedAt := 1

def oneCredential (c : VaultCredential) : VaultStore := VaultStore.write ⟨∅, .empty⟩ c

def reconnects : ℕ → Request
  | 0 => .accessToken ⟨str "agent", str "u", str "p", [str "read"]⟩
  | 1 => .disconnect (str "u") (str "p")
  | _ => .connect ⟨str "u", str "p", str "new", str "a2", str "r2", 900, [str "read"]⟩

def at500 : Answers where
  clock := 500
  later := 500
  storeNow := 500
  refresh := .response ⟨str "a3", [], 3600, []⟩
  newID := str "2"
  accessNonce := some fun _ => 0
  refreshNonce := some fun _ => 0

/-- The connected token has expired. -/
def at2000 : Answers := { at500 with clock := 2000, later := 2000, storeNow := 2000 }

/-- The provider is disconnected and connected again, and a call looks at the credential. -/
def reconnectThenRead : List Action := [⟨1, at500⟩, ⟨2, at500⟩, ⟨0, at2000⟩, ⟨0, at2000⟩]

theorem unrevived_reconnectThenRead : Throughout (step plainConfig reconnects)
    (Unrevived plainConfig reconnects) (.initial (oneCredential expired)) reconnectThenRead := by
  -- no call holds a reading before the last action
  have idle {s : System} (none_ : ∀ q, (s.phase q).readings = []) (act : Action) :
      Unrevived plainConfig reconnects s act := by
    intro _ _ q read held
    rw [none_ q] at held
    cases held
  refine ⟨idle (fun _ => rfl) _, fun _ taken => ?_⟩
  cases taken
  refine ⟨idle ?_ _, fun _ taken => ?_⟩
  · rintro (_ | _ | _) <;> rfl
  cases taken
  refine ⟨idle ?_ _, fun _ taken => ?_⟩
  · rintro (_ | _ | _ | _) <;> rfl
  cases taken
  refine ⟨idle ?_ _, fun _ _ => trivial⟩
  rintro (_ | _ | _ | _) <;> rfl

theorem refresh_spares_reconnected_account :
    ∃ last next, run (step plainConfig reconnects) (.initial (oneCredential expired))
        reconnectThenRead = some last ∧
      step plainConfig reconnects last ⟨0, at2000⟩ = some next ∧
      ∀ key, next.store.rows.lookup key ≠ last.store.rows.lookup key →
        (last.store.rows.lookup key).map accountID = some (str "new") := by
  refine ⟨_, _, rfl, rfl, fun key changed => ?_⟩
  obtain ⟨read, held, -, -, here, -⟩ := (refresh_spares_reconnected plainConfig reconnects
    (oneCredential expired) reconnectThenRead _ _ ⟨0, at2000⟩
    ⟨str "agent", str "u", str "p", [str "read"]⟩ rfl rfl rfl).2 unrevived_reconnectThenRead key
    changed
  rw [here]
  cases held with
  | head => rfl
  | tail _ later => cases later

/-- The provider is connected again with another account, and the refresh replaces this credential.
-/
theorem refresh_overwrites_reconnected :
    ∃ between last,
      run (step plainConfig reconnects) (.initial (oneCredential expired))
        [⟨0, at500⟩, ⟨0, at500⟩, ⟨1, at500⟩, ⟨2, at500⟩] = some between ∧
      run (step plainConfig reconnects) between [⟨0, at500⟩] = some last ∧
      (between.store.rows.lookup expired.key).map accountID = some (str "new") ∧
      (last.store.rows.lookup expired.key).map accountID = some (str "old") ∧
      (last.store.rows.lookup expired.key).map refreshCT = some (plainBlob "r1") := by
  refine ⟨_, _, rfl, rfl, ?_, ?_, ?_⟩ <;> decide +kernel

end TheAuth.Vault
