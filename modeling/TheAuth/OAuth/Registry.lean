import TheAuth.Go.Lib
import TheAuth.Go.Map
import TheAuth.Library.Run

/-!
# The registry of providers

A lookup asks the resolver with the lock released and caches the answer afterwards, unless the
generation has changed since it read the cache. An answer names the lookup whose call of the
resolver gave it: that call began after the lookup did. Nothing sees what the resolver returned
before the lock is taken again, so the return and the write are one step. The generation counts the
invalidations: it is a number without a bound, so the results are about runs with fewer than 2^64 of
them.
-/

set_option autoImplicit false

namespace TheAuth.OAuth

open Go Library.Run GoMap
open Function (update)

variable {P : Type}

/-- A cached answer of the resolver. -/
structure CacheEntry (P : Type) where
  /-- The answer that there is no such provider is `none`. -/
  p : Option P
  expires : Time
  asker : ℕ

/-- Configured providers, and whether to ask for more. -/
structure Registry (P : Type) where
  static : Bytes → Option P
  nameOf : P → Bytes
  (hasResolver resolverFirst : Bool)
  ttl : Int

/-- What a lookup returns. -/
inductive Answer (P : Type) where
  | found (p : Option P) (asker : Option ℕ)
  | unavailable

/-- Where a lookup stands. -/
inductive Phase (P : Type) where
  | idle
  | asked (name : Bytes) (gen : ℕ)
  | done (name : Bytes) (answer : Answer P)

structure System (P : Type) where
  gen : ℕ := 0
  cache : GoMap Bytes (CacheEntry P) := ∅
  now : Time
  phase : ℕ → Phase P := fun _ => .idle

def maxCachedProviders : ℕ := 1024

def lowerOrDigit (c : UInt8) : Bool := 0x61 ≤ c && c ≤ 0x7A || 0x30 ≤ c && c ≤ 0x39

def validProviderName : Bytes → Bool
  | [] => false
  | c :: rest =>
    lowerOrDigit c && rest.length ≤ 62 && rest.all fun c => lowerOrDigit c || c == 0x5F || c == 0x2D

namespace Registry

variable (cfg : Registry P)

/-- The end of `Lookup`, with what `resolve` returned. -/
def finish (name : Bytes) (p : Option P) (asker : Option ℕ) : Phase P :=
  .done name (.found (if p.isNone && cfg.resolverFirst then cfg.static name else p) asker)

def lookup (cfg : Registry P) (s : System P) (name : Bytes) : Phase P :=
  if !cfg.hasResolver || (!cfg.resolverFirst && (cfg.static name).isSome) then
    .done name (.found (cfg.static name) none)
  else if !validProviderName name then cfg.finish name none none
  else
    match s.cache.lookup name with
    | some e => if s.now < e.expires then cfg.finish name e.p e.asker else .asked name s.gen
    | none => .asked name s.gen

/-- What the resolver returned; an error is `none`. -/
def resolved (name : Bytes) : Option (Option P × Bool) → Option (Option P)
  | none => none
  | some (_, false) => some none
  | some (p, true) => if p.any fun p => cfg.nameOf p = name then some p else none

def makeRoom (s : System P) : GoMap Bytes (CacheEntry P) :=
  if s.cache.entries.length < maxCachedProviders then s.cache
  else s.cache.deleteWhere fun _ e => !decide (s.now < e.expires)

def store (s : System P) (name : Bytes) (entry : CacheEntry P) (gen : ℕ) :
    GoMap Bytes (CacheEntry P) :=
  if cfg.ttl ≤ 0 ∨ gen ≠ s.gen then s.cache
  else if (makeRoom s).entries.length < maxCachedProviders then (makeRoom s).insert name entry
  else makeRoom s

end Registry

/-- One operation of one lookup. -/
inductive Action (P : Type) where
  | lookup (r : ℕ) (name : Bytes)
  | answer (r : ℕ) (answer : Option (Option P × Bool))
  | invalidate (name : Bytes)
  | advance (d : ℕ)

/-- One action. -/
def step (cfg : Registry P) (s : System P) : Action P → Option (System P)
  | .lookup r name =>
    match s.phase r with
    | .idle => some { s with phase := update s.phase r (cfg.lookup s name) }
    | _ => none
  | .answer r answer =>
    match s.phase r with
    | .asked name gen =>
      match cfg.resolved name answer with
      | none => some { s with phase := update s.phase r (.done name .unavailable) }
      | some p =>
        some { s with
          cache := cfg.store s name ⟨p, s.now + cfg.ttl, r⟩ gen
          phase := update s.phase r (cfg.finish name p r) }
    | _ => none
  | .invalidate name => some { s with gen := s.gen + 1, cache := s.cache.erase name }
  | .advance d => some { s with now := s.now + d }

/-- What was asked was asked at this generation or before. -/
def Phase.Within (gen : ℕ) : Phase P → Prop
  | .asked _ g => g ≤ gen
  | _ => True

/-- Where lookup `r` may stand after `name` was invalidated in `s`. -/
def Phase.Since (s : System P) (name : Bytes) (r : ℕ) : Phase P → Prop
  | .idle => s.phase r = .idle
  | .asked _ g => s.gen < g → s.phase r = .idle
  | .done other (.found _ (some asker)) => s.phase r = .idle → other = name → s.phase asker = .idle
  | .done _ _ => True

/-- After the invalidation of a name nothing older is cached or about to be. -/
structure Invalidated (s : System P) (name : Bytes) (t : System P) : Prop where
  newer : s.gen < t.gen
  cached : ∀ e, t.cache.lookup name = some e → s.phase e.asker = .idle
  phases : ∀ r, (t.phase r).Since s name r

variable {cfg : Registry P} {s t next : System P} {name : Bytes} {a : Action P}

theorem within_step (within : ∀ r, (s.phase r).Within s.gen) (taken : step cfg s a = some next) :
    ∀ r, (next.phase r).Within next.gen := by
  have moved (r : ℕ) {p : Phase P} (own : p.Within s.gen) :
      ∀ q, (update s.phase r p q).Within s.gen :=
    (Function.forall_update_iff s.phase fun _ => Phase.Within s.gen).mpr ⟨own, fun q _ => within q⟩
  cases a with
  | lookup r =>
    simp only [step] at taken
    split at taken <;> cases taken
    refine moved r ?_
    unfold Registry.lookup Registry.finish
    repeat' split
    all_goals first | trivial | exact Nat.le_refl _
  | answer r =>
    simp only [step] at taken
    split at taken
    · split at taken <;> cases taken <;> exact moved r trivial
    · cases taken
  | invalidate =>
    cases taken
    intro r
    have own := within r
    revert own
    cases s.phase r with
    | asked => exact Nat.le_succ_of_le
    | idle | done => exact id
  | advance =>
    cases taken
    exact within

theorem lookup_makeRoom {e : CacheEntry P} (here : (Registry.makeRoom s).lookup name = some e) :
    s.cache.lookup name = some e := by
  unfold Registry.makeRoom at here
  split at here
  · exact here
  · exact ((lookup_deleteWhere _ _).mp here).1

theorem lookup_store {entry e : CacheEntry P} {other : Bytes} {gen : ℕ}
    (here : (cfg.store s other entry gen).lookup name = some e) :
    s.cache.lookup name = some e ∨ entry = e ∧ gen = s.gen := by
  unfold Registry.store at here
  split at here
  · exact .inl here
  next current =>
  split at here
  · rcases of_lookup_insert here with ⟨-, rfl⟩ | ⟨-, old⟩
    · exact .inr ⟨rfl, Decidable.not_not.mp fun stale => current (.inr stale)⟩
    · exact .inl (lookup_makeRoom old)
  · exact .inl (lookup_makeRoom here)

theorem Invalidated.step (inv : Invalidated s name t) (taken : step cfg t a = some next) :
    Invalidated s name next := by
  have moved (r : ℕ) {p : Phase P} (own : p.Since s name r) :
      ∀ q, (update t.phase r p q).Since s name q :=
    (Function.forall_update_iff t.phase (Phase.Since s name)).mpr ⟨own, fun q _ => inv.phases q⟩
  cases a with
  | lookup r =>
    simp only [OAuth.step] at taken
    split at taken <;> cases taken
    next here =>
    have idle := inv.phases r
    rw [here] at idle
    refine { inv with phases := moved r ?_ }
    unfold Registry.lookup Registry.finish
    split
    · trivial
    split
    · trivial
    split
    · next e hit =>
      split
      · exact fun _ same => inv.cached e (same ▸ hit)
      · exact fun _ => idle
    · exact fun _ => idle
  | answer r =>
    simp only [OAuth.step] at taken
    split at taken
    · next here =>
      have own := inv.phases r
      rw [here] at own
      split at taken <;> cases taken
      · exact { inv with phases := moved r trivial }
      · refine ⟨inv.newer, fun e stored => ?_, moved r fun idle _ => idle⟩
        rcases lookup_store stored with old | ⟨rfl, rfl⟩
        · exact inv.cached e old
        · exact own inv.newer
    · cases taken
  | invalidate =>
    cases taken
    exact ⟨Nat.lt_succ_of_lt inv.newer,
      fun e here => inv.cached e (lookup_of_lookup_erase here), inv.phases⟩
  | advance =>
    cases taken
    exact { inv with }

theorem Invalidated.initially (within : ∀ r, (s.phase r).Within s.gen)
    (taken : OAuth.step cfg s (.invalidate name) = some next) : Invalidated s name next := by
  cases taken
  refine ⟨Nat.lt_succ_self _, fun e here => ?_, fun r => ?_⟩
  · rw [AList.lookup_erase] at here
    cases here
  · have own := within r
    generalize place : s.phase r = p at own
    cases p with
    | idle => exact place
    | asked => exact fun newer => absurd newer (Nat.not_lt.mpr own)
    | done _ answer =>
      rcases answer with ⟨_, _ | _⟩ | _
      · trivial
      · exact fun idle => nomatch place.symm.trans idle
      · trivial

/-- **A lookup that begins after an invalidation returns no answer of a call of the resolver that
had begun before it.** -/
theorem answer_asked_after_invalidate {now : Time} {before after : List (Action P)} {r asker : ℕ}
    {p : Option P} (ran : run (step cfg) { now } before = some s)
    (dropped : step cfg s (.invalidate name) = some next)
    (later : run (step cfg) next after = some t) (unbegun : s.phase r = .idle)
    (answered : t.phase r = .done name (.found p asker)) : s.phase asker = .idle := by
  have free {u : System P} {actions : List (Action P)} :
      Throughout (step cfg) (fun _ _ => True) u actions := throughout_of_forall fun _ _ => trivial
  have initially : ∀ r, (({ now } : System P).phase r).Within 0 := fun _ => trivial
  have within := invariant_of_run_throughout (fun old _ => within_step old) initially free ran
  have inv := invariant_of_run_throughout (fun old _ => Invalidated.step old)
    (.initially within dropped) free later
  have own := inv.phases r
  rw [answered] at own
  exact own unbegun rfl

def selfNamed : Registry Bytes :=
  { static := fun _ => none, nameOf := id, hasResolver := true, resolverFirst := false, ttl := 60 }

/-- The answer of a slow resolver comes after the invalidation and is not cached: the next lookup
asks again, and the one after it gets that answer. -/
theorem slow_answer_is_asked_again :
    let name := str "a"
    ∃ s next t : System Bytes,
      run (step selfNamed) { now := 0 } [.lookup 0 name] = some s ∧
      step selfNamed s (.invalidate name) = some next ∧
      run (step selfNamed) next [.answer 0 (some (name, true)), .lookup 1 name,
        .answer 1 (some (name, true)), .lookup 2 name] = some t ∧
      t.phase 2 = .done name (.found name (some 1)) ∧ s.phase 1 = .idle := by
  refine ⟨?s, ?next, ?t, ?ran, ?dropped, ?later, ?answered,
    answer_asked_after_invalidate ?ran ?dropped ?later ?unbegun ?answered⟩
  case ran | dropped | later | unbegun | answered => rfl

end TheAuth.OAuth
