import TheAuth.Go.Lib
import TheAuth.Go.Map
import TheAuth.Library.Run

/-!
# The keys of a resource server

A lookup that misses, or finds the cache old, fetches the document again. The throttle is read
before the fetch begins, and only a fetch that brought a key sets the time that it compares with.
-/

set_option autoImplicit false

namespace TheAuth.Mcp.JwksCache

open Go Library.Run List
open Function (update)

structure JwksKey where
  (key alg : Bytes)

/-- A key that is malformed or of no supported type is `none`. -/
structure Jwk where
  (kid alg use : Bytes)
  key : Option Bytes

structure Config where
  (ttl minRefreshInterval maxStale : Int)

/-- Where a lookup stands. -/
inductive Phase where
  | idle
  | missed (kid : Bytes)
  | passed (kid : Bytes)
  | fetching (kid : Bytes)
  | refreshed (kid : Bytes) (failed : Bool)
  | done (key : Option JwksKey)

/-- With the times at which fetches began, the last one first. -/
structure System (ι : Type) where
  now : Time
  keys : GoMap Bytes JwksKey := ∅
  lastFetched : Time := 0
  phase : ι → Phase := fun _ => .idle
  fetches : List Time := []

def usable (doc : List Jwk) : GoMap Bytes JwksKey :=
  doc.foldl (fun fresh k =>
    match k.key with
    | some key =>
      if (k.use = [] ∨ k.use = str "sig") ∧ k.kid ≠ [] then fresh.insert k.kid ⟨key, k.alg⟩
      else fresh
    | none => fresh) ∅

/-- A document that could not be fetched or parsed is `none`. -/
inductive Action (ι : Type) where
  | lookup (r : ι) (kid : Bytes)
  | throttle (r : ι)
  | fetch (r : ι)
  | fetched (r : ι) (doc : Option (List Jwk))
  | answer (r : ι)
  | advance (d : ℕ)

def Config.throttled {ι : Type} (cfg : Config) (s : System ι) : Bool :=
  s.now - s.lastFetched < cfg.minRefreshInterval && s.keys.entries ≠ []

def Config.staleLimit (cfg : Config) : Int :=
  if 0 < cfg.maxStale then cfg.maxStale else 60 * Time.nsPerMinute

variable {ι : Type} [DecidableEq ι]

/-- One action. -/
def step (cfg : Config) (s : System ι) : Action ι → Option (System ι)
  | .lookup r kid =>
    match s.phase r with
    | .idle =>
      match (s.keys.lookup kid).filter fun _ => s.now - s.lastFetched ≤ cfg.ttl with
      | some key => some { s with phase := update s.phase r (.done key) }
      | none => some { s with phase := update s.phase r (.missed kid) }
    | _ => none
  | .throttle r =>
    match s.phase r with
    | .missed kid =>
      if cfg.throttled s then some { s with phase := update s.phase r (.refreshed kid false) }
      else some { s with phase := update s.phase r (.passed kid) }
    | _ => none
  | .fetch r =>
    match s.phase r with
    | .passed kid =>
      some { s with phase := update s.phase r (.fetching kid), fetches := s.now :: s.fetches }
    | _ => none
  | .fetched r doc =>
    match s.phase r with
    | .fetching kid =>
      let keys := usable (doc.getD [])
      if keys.entries = [] then some { s with phase := update s.phase r (.refreshed kid true) }
      else some { s with
        keys, lastFetched := s.now, phase := update s.phase r (.refreshed kid false) }
    | _ => none
  | .answer r =>
    match s.phase r with
    | .refreshed kid failed =>
      let served := !failed || s.now - s.lastFetched ≤ cfg.staleLimit
      some { s with
        phase := update s.phase r (.done ((s.keys.lookup kid).filter fun _ => served)) }
    | _ => none
  | .advance d => some { s with now := s.now + d }

def Phase.busy : Phase → Bool
  | .passed _ | .fetching _ => true
  | _ => false

/-- No refresh begins, or begins to fetch, beside another one, and every fetch brings a key. -/
def Calm (cfg : Config) (s : System ι) : Action ι → Prop
  | .throttle _ => cfg.throttled s = false → ∀ q, (s.phase q).busy = false
  | .fetch r => ∀ q, q ≠ r → (s.phase q).busy = false
  | .fetched _ doc => (usable (doc.getD [])).entries ≠ []
  | _ => True

/-- The invariant: fetches are spaced by the least interval. -/
structure Spaced (cfg : Config) (s : System ι) : Prop where
  past : ∀ f ∈ s.fetches, f ≤ s.now
  apart : s.fetches.Pairwise fun later earlier => cfg.minRefreshInterval ≤ later - earlier
  ready : ∀ {q kid}, s.phase q = .passed kid → ∀ f ∈ s.fetches, cfg.minRefreshInterval ≤ s.now - f
  quiet : (∀ q, (s.phase q).busy = false) →
    s.fetches = [] ∨ s.keys.entries ≠ [] ∧ ∀ f ∈ s.fetches, f ≤ s.lastFetched

variable {cfg : Config} {s next : System ι} {a : Action ι} {r : ι} {p : Phase}

theorem Spaced.move (spaced : Spaced cfg s) (before : (s.phase r).busy = false)
    (after : p.busy = false) : Spaced cfg { s with phase := update s.phase r p } := by
  refine { spaced with
    ready := fun here => spaced.ready (of_update here ?_)
    quiet := fun idle => spaced.quiet fun q => ?_ }
  · rintro rfl
    cases after
  · by_cases same : q = r
    · exact same ▸ before
    · simpa only [Function.update_of_ne same] using idle q

theorem Spaced.step (spaced : Spaced cfg s) (calm : Calm cfg s a)
    (taken : step cfg s a = some next) : Spaced cfg next := by
  cases a with
  | lookup =>
    dsimp only [JwksCache.step] at taken
    split at taken
    next here =>
      split at taken <;> cases taken
      all_goals exact spaced.move (here ▸ rfl) rfl
    · cases taken
  | throttle r =>
    dsimp only [JwksCache.step] at taken
    split at taken
    next here =>
      split at taken <;> cases taken
      · exact spaced.move (here ▸ rfl) rfl
      next free =>
        refine { spaced with ready := fun _ f told => ?_, quiet := fun idle => ?_ }
        · obtain no | ⟨filled, last⟩ := spaced.quiet (calm (Bool.eq_false_iff.mpr free))
          · exact absurd (no ▸ told) not_mem_nil
          · have old : cfg.minRefreshInterval ≤ s.now - s.lastFetched := by
              simpa [Config.throttled, filled] using free
            exact Int.le_trans old (Int.sub_le_sub_left (last f told) _)
        · cases (congrArg Phase.busy (Function.update_self r _ _)).symm.trans (idle r)
    · cases taken
  | fetch r =>
    dsimp only [JwksCache.step] at taken
    split at taken <;> cases taken
    next here =>
    refine ⟨?_, pairwise_cons.mpr ⟨spaced.ready here, spaced.apart⟩,
      fun there => ?_, fun idle => ?_⟩
    · exact forall_mem_cons.mpr ⟨Int.le_refl _, spaced.past⟩
    · obtain ⟨-, ⟨⟩⟩ | ⟨other, there⟩ := update_cases there
      cases (calm _ other).symm.trans (congrArg Phase.busy there)
    · cases (congrArg Phase.busy (Function.update_self r _ _)).symm.trans (idle r)
  | fetched =>
    dsimp only [JwksCache.step] at taken
    split at taken
    · rw [if_neg calm] at taken
      cases taken
      exact { spaced with
        ready := fun there => spaced.ready (of_update there nofun)
        quiet := fun _ => .inr ⟨calm, spaced.past⟩ }
    · cases taken
  | answer =>
    dsimp only [JwksCache.step] at taken
    split at taken <;> cases taken
    next here => exact spaced.move (here ▸ rfl) rfl
  | advance d =>
    cases taken
    have later : s.now ≤ s.now + d := Int.le_add_of_nonneg_right (Int.natCast_nonneg d)
    exact { spaced with
      past := fun f told => Int.le_trans (spaced.past f told) later
      ready := fun here f told =>
        Int.le_trans (spaced.ready here f told) (Int.sub_le_sub_right later f) }

/-- **Two fetches begin at least the interval apart**, when no two overlap and none fails. -/
theorem fetches_apart_when_calm {now : Time} {actions : List (Action ι)}
    (calm : Throughout (step cfg) (Calm cfg) { now } actions)
    (ran : run (step cfg) { now } actions = some s) :
    s.fetches.Pairwise fun later earlier => cfg.minRefreshInterval ≤ later - earlier := by
  have initially : Spaced cfg ({ now } : System ι) := ⟨nofun, .nil, nofun, fun _ => .inl rfl⟩
  exact (invariant_of_run_throughout Spaced.step initially calm ran).apart

def fiveSeconds : Config := { ttl := 300, minRefreshInterval := 5, maxStale := 0 }

def miss (r : Bool) (doc : Option (List Jwk)) : List (Action Bool) :=
  [.lookup r [1], .throttle r, .fetch r, .fetched r doc]

instance {s : System Bool} : ∀ a, Decidable (Calm cfg s a)
  | .throttle _ => inferInstanceAs (Decidable (_ → ∀ _, _ = false))
  | .fetch _ => inferInstanceAs (Decidable (∀ _, _ ≠ _ → _ = false))
  | .fetched .. => inferInstanceAs (Decidable (_ ≠ []))
  | .lookup .. | .answer _ | .advance _ => .isTrue trivial

def twoMisses : List (Action Bool) :=
  let doc := some [⟨[2], [], [], some []⟩]
  miss false doc ++ .advance 5 :: miss true doc

theorem two_misses_apart :
    ∃ s, run (step fiveSeconds) { now := 9 } twoMisses = some s ∧ s.fetches = [14, 9] ∧
      Throughout (step fiveSeconds) (Calm fiveSeconds) { now := 9 } twoMisses ∧
      s.fetches.Pairwise fun later earlier => 5 ≤ later - earlier := by
  have calm : Throughout (step fiveSeconds) (Calm fiveSeconds) { now := 9 } twoMisses := by
    decide +kernel
  exact ⟨_, rfl, rfl, calm, fetches_apart_when_calm calm rfl⟩

/-- After a fetch that fails, and beside one that is under way. -/
theorem fetches_together :
    (∃ s, run (step fiveSeconds) { now := 9 } (miss false none ++ miss true none) = some s ∧
      s.fetches = [9, 9]) ∧
    ∃ s, run (step fiveSeconds) { now := 9 } [.lookup false [1], .lookup true [1],
      .throttle false, .throttle true, .fetch false, .fetch true] = some s ∧
        s.fetches = [9, 9] :=
  ⟨⟨_, rfl, rfl⟩, _, rfl, rfl⟩

end TheAuth.Mcp.JwksCache
