import TheAuth.Go.Json
import TheAuth.Go.Lib
import TheAuth.Go.Map
import TheAuth.Library.Result
import TheAuth.Library.Run

/-!
# The receiver of security events

A token is marked as seen before its handlers run, and forgotten again when one of them fails. What
is delivered in between is acknowledged, although no handler may ever succeed.
-/

set_option autoImplicit false

namespace TheAuth.Signals

open Go Library.Result Library.Run List GoMap
open Function (update)

/-- The types of the events stand for the events, which have distinct types. -/
structure SET where
  jti : Bytes
  (audience events : List Bytes)

structure ReceiverConfig where
  audience : Bytes
  issuers : GoMap Bytes Bytes
  handlers : ℕ
  replayWindow : Time
  maxReplayEntries : ℕ

structure Refusal where
  status : ℕ
  (code description : String)
  deriving DecidableEq

/-- A request, and what the libraries find in its body. -/
structure Delivery where
  (post authenticated readable resolver : Bool)
  contentType : Bytes
  peekIssuer : Option Bytes
  verified : Option SET
  now : Time

/-- The key of the token in the replay cache, and its events. -/
def check (cfg : ReceiverConfig) (d : Delivery) : Except Refusal (Bytes × List Bytes) := do
  refuseIf (!d.post) ⟨405, "invalid_request", "POST required"⟩
  refuseIf (!d.authenticated) ⟨401, "authentication_failed", "authentication failed"⟩
  refuseIf (¬ str "application/secevent+jwt" <+: d.contentType)
    ⟨400, "invalid_request", "Content-Type must be application/secevent+jwt"⟩
  refuseIf (!d.readable) ⟨400, "invalid_request", "unreadable body"⟩
  let iss ← orRefuse d.peekIssuer ⟨400, "invalid_request", "malformed SET"⟩
  refuseIf ((cfg.issuers.lookup iss).isNone) ⟨400, "invalid_issuer", "issuer is not trusted"⟩
  refuseIf (!d.resolver) ⟨400, "invalid_key", "issuer keys unavailable"⟩
  let set ← orRefuse d.verified ⟨400, "invalid_key", "SET verification failed"⟩
  refuseIf (cfg.audience ∉ set.audience)
    ⟨400, "invalid_audience", "SET is not addressed to this receiver"⟩
  return (iss ++ [0] ++ set.jti, set.events)

inductive MarkError where
  | replay | full

def makeRoom (cfg : ReceiverConfig) (seen : GoMap Bytes Time) (now : Time) : GoMap Bytes Time :=
  if cfg.maxReplayEntries ≤ seen.entries.length then
    seen.deleteWhere fun _ exp => !decide (now < exp)
  else seen

def markSeen (cfg : ReceiverConfig) (seen : GoMap Bytes Time) (key : Bytes) (now : Time) :
    Except MarkError (GoMap Bytes Time) :=
  if (seen.lookup key).any (now < ·) then .error .replay
  else if cfg.maxReplayEntries ≤ (makeRoom cfg seen now).entries.length then .error .full
  else .ok ((makeRoom cfg seen now).insert key (now + cfg.replayWindow))

/-- An event and the number of a handler. -/
abbrev Job := Bytes × ℕ

/-- Where a delivery stands. -/
inductive Phase where
  | ready
  | handling (key : Bytes) (left : List Job)
  | accepted (key : Bytes)
  | refused (why : Refusal)
  | panicked
  deriving DecidableEq

def ReceiverConfig.jobs (cfg : ReceiverConfig) (events : List Bytes) : List Job :=
  events.flatMap fun event => (List.range cfg.handlers).map fun handler => (event, handler)

def processingFailed : Refusal := ⟨500, "server_error", "processing failed"⟩

/-- With the successful calls of handlers. -/
structure System where
  seen : GoMap Bytes Time := ∅
  phase : ℕ → Phase := fun _ => .ready
  completed : List (Bytes × Job) := []

def System.move (s : System) (r : ℕ) (p : Phase) : System :=
  { s with phase := update s.phase r p }

/-- The error of a handler may wrap that of a replay, or one with a code and a description. -/
inductive Outcome where
  | ok
  | error (wrapsReplay : Bool) (received : Option (String × String))
  | panic

def refusal : Option (String × String) → Refusal
  | some (code, description) => ⟨400, code, description⟩
  | none => processingFailed

/-- One operation of one delivery. -/
inductive Action where
  | receive (r : ℕ) (d : Delivery)
  | handle (r : ℕ) (outcome : Outcome)

/-- One action. -/
def step (cfg : ReceiverConfig) (s : System) : Action → Option System
  | .receive r d =>
    match s.phase r, check cfg d with
    | .ready, .error why => some (s.move r (.refused why))
    | .ready, .ok (key, events) =>
      match markSeen cfg s.seen key d.now with
      | .error .replay => some (s.move r (.accepted key))
      | .error .full => some (s.move r (.refused processingFailed))
      | .ok seen => some ({ s with seen }.move r (.handling key (cfg.jobs events)))
    | _, _ => none
  | .handle r outcome =>
    match s.phase r, outcome with
    | .handling key [], _ => some (s.move r (.accepted key))
    | .handling key (job :: left), .ok =>
      some ({ s with completed := (key, job) :: s.completed }.move r (.handling key left))
    | .handling key _, .error wrapsReplay received =>
      some ({ s with seen := s.seen.erase key }.move r
        (if wrapsReplay then .accepted key else .refused (refusal received)))
    | .handling _ _, .panic => some (s.move r .panicked)
    | _, _ => none

/-- No delivery finds its token while the handlers of another one run, a token tells the same events
each time, and no handler panics or fails with the error of a replay. -/
def Undisturbed (cfg : ReceiverConfig) (events : Bytes → List Bytes) (s : System) : Action → Prop
  | .receive _ d => ∀ key told, check cfg d = .ok (key, told) → told.Perm (events key) ∧
      ∀ q left, s.phase q ≠ .handling key left
  | .handle _ outcome => outcome = .ok ∨ ∃ received, outcome = .error false received

variable {cfg : ReceiverConfig} {events : Bytes → List Bytes} {s next : System} {a : Action}
  {r : ℕ} {key : Bytes} {completed : List (Bytes × Job)} {p : Phase}

/-- The call has marked the key as seen. -/
def Phase.Holds (key : Bytes) : Phase → Prop
  | .handling k _ | .accepted k => k = key
  | _ => False

/-- The handlers have succeeded, but for the calls that are left. -/
def Phase.Ok (cfg : ReceiverConfig) (events : Bytes → List Bytes)
    (completed : List (Bytes × Job)) : Phase → Prop
  | .handling key left => ∀ job ∈ cfg.jobs (events key), job ∈ left ∨ (key, job) ∈ completed
  | .accepted key => ∀ job ∈ cfg.jobs (events key), (key, job) ∈ completed
  | _ => True

theorem Phase.Ok.grow (ok : p.Ok cfg events s.completed) (grown : s.completed ⊆ completed) :
    p.Ok cfg events completed := by
  cases p with
  | handling => exact fun job listed => (ok job listed).imp_right (grown ·)
  | accepted => exact fun job listed => grown (ok job listed)
  | _ => trivial

/-- The invariant: what was seen is in some call's hands. -/
structure Processed (cfg : ReceiverConfig) (events : Bytes → List Bytes) (s : System) : Prop where
  seen : ∀ {key exp}, s.seen.lookup key = some exp → ∃ q, (s.phase q).Holds key
  ok : ∀ q, (s.phase q).Ok cfg events s.completed

theorem Processed.move (processed : Processed cfg events s) {seen : GoMap Bytes Time}
    (grown : s.completed ⊆ completed)
    (marks : ∀ {key exp}, seen.lookup key = some exp → s.seen.lookup key = some exp ∨ p.Holds key)
    (stays : ∀ {key exp}, (s.phase r).Holds key → seen.lookup key = some exp → p.Holds key)
    (ok : p.Ok cfg events completed) :
    Processed cfg events ⟨seen, update s.phase r p, completed⟩ where
  seen {key exp} here := by
    refine (Function.exists_update_iff s.phase fun _ => Phase.Holds key).mpr ?_
    rcases marks here with before | new
    · obtain ⟨q, held⟩ := processed.seen before
      by_cases same : q = r
      · exact .inl (stays (same ▸ held) here)
      · exact .inr ⟨q, same, held⟩
    · exact .inl new
  ok := (Function.forall_update_iff s.phase fun _ => Phase.Ok cfg events completed).mpr
    ⟨ok, fun q _ => (processed.ok q).grow grown⟩

theorem lookup_of_replay {seen : GoMap Bytes Time} {now : Time}
    (replay : markSeen cfg seen key now = .error .replay) : ∃ exp, seen.lookup key = some exp := by
  unfold markSeen at replay
  split at replay
  next found => exact Option.isSome_iff_exists.mp (Option.isSome_of_any found)
  · split at replay <;> cases replay

theorem lookup_of_markSeen {seen next : GoMap Bytes Time} {now exp : Time} {other : Bytes}
    (marked : markSeen cfg seen key now = .ok next) (here : next.lookup other = some exp) :
    seen.lookup other = some exp ∨ other = key := by
  unfold markSeen at marked
  split_ifs at marked
  cases marked
  refine (of_lookup_insert here).symm.imp (fun kept => ?_) And.left
  unfold makeRoom at kept
  split at kept
  · exact ((lookup_deleteWhere _ _).mp kept.2).1
  · exact kept.2

theorem Processed.step (processed : Processed cfg events s)
    (undisturbed : Undisturbed cfg events s a) (taken : step cfg s a = some next) :
    Processed cfg events next := by
  cases a with
  | receive r =>
    dsimp only [Signals.step] at taken
    split at taken
    next ready _ =>
      cases taken
      exact processed.move (.refl _) .inl (ready ▸ False.elim) trivial
    next key told ready admitted =>
      obtain ⟨same, alone⟩ := undisturbed key told admitted
      have idle : ∀ {other exp}, (s.phase r).Holds other → exp := ready ▸ False.elim
      split at taken <;> cases taken
      next replay =>
        -- the delivery that was found handles the token no more
        obtain ⟨_, found⟩ := lookup_of_replay replay
        obtain ⟨q, held⟩ := processed.seen found
        have done := processed.ok q
        have apart := alone q
        refine processed.move (.refl _) .inl (fun held => idle held) ?_
        generalize s.phase q = found at held done apart
        cases found <;> cases held
        · exact absurd rfl (apart _)
        · exact done
      · exact processed.move (.refl _) .inl (fun held => idle held) trivial
      next marked =>
        refine processed.move (.refl _) (fun here => ?_)
          (fun held => idle held) fun job listed => ?_
        · exact (lookup_of_markSeen marked here).imp_right Eq.symm
        · exact .inl ((same.flatMap_right _).mem_iff.mpr listed)
    · cases taken
  | handle r =>
    have ok := processed.ok r
    dsimp only [Signals.step] at taken
    split at taken <;> cases taken
    next here =>
      rw [here] at ok
      refine processed.move (.refl _) .inl (fun held _ => by rwa [here] at held)
        fun job listed => ?_
      exact (ok job listed).resolve_left not_mem_nil
    next here =>
      rw [here] at ok
      refine processed.move (subset_cons_self _ _) .inl (fun held _ => by rwa [here] at held)
        fun other listed => ?_
      rcases ok other listed with todo | done
      · rcases mem_cons.mp todo with rfl | later
        · exact .inr mem_cons_self
        · exact .inl later
      · exact .inr (mem_cons_of_mem _ done)
    next here =>
      obtain no | ⟨_, same⟩ := undisturbed
      · cases no
      cases same
      refine processed.move (.refl _) (fun there => .inl (lookup_of_lookup_erase there))
        (fun held there => ?_) trivial
      rw [here] at held
      cases held
      rw [AList.lookup_erase] at there
      cases there
    next =>
      obtain no | ⟨_, no⟩ := undisturbed
      all_goals cases no

/-- **A delivery is acknowledged after every handler has succeeded for the token**, when nothing
disturbs the handlers. -/
theorem accepted_after_handlers (cfg : ReceiverConfig) (events : Bytes → List Bytes)
    (actions : List Action) (s : System)
    (undisturbed : Throughout (step cfg) (Undisturbed cfg events) {} actions)
    (ran : run (step cfg) {} actions = some s) (r : ℕ) (key : Bytes)
    (accepted : s.phase r = .accepted key) :
    ∀ event ∈ events key, ∀ handler < cfg.handlers, (key, event, handler) ∈ s.completed := by
  have initially : Processed cfg events {} := ⟨nofun, fun _ => trivial⟩
  have processed := invariant_of_run_throughout Processed.step initially undisturbed ran
  intro event told handler registered
  have listed : (event, handler) ∈ cfg.jobs (events key) := by
    simp [ReceiverConfig.jobs, told, registered]
  have all := processed.ok r
  rw [accepted] at all
  exact all _ listed

def oneHandler : ReceiverConfig :=
  { audience := str "rp", issuers := (∅ : GoMap Bytes Bytes).insert (str "tx") [], handlers := 1,
    replayWindow := 9, maxReplayEntries := 9 }

def logout : Delivery :=
  { post := true, authenticated := true, readable := true, resolver := true, now := 1
    contentType := str "application/secevent+jwt", peekIssuer := some (str "tx")
    verified := some ⟨str "1", [str "rp"], [str "logout"]⟩ }

theorem accepted_after_one_handler :
    ∃ s, run (step oneHandler) {} [.receive 0 logout, .handle 0 .ok, .handle 0 .ok] = some s ∧
      s.phase 0 = .accepted (str "tx" ++ [0] ++ str "1") ∧
      ∀ event ∈ [str "logout"], ∀ handler < 1,
        (str "tx" ++ [0] ++ str "1", event, handler) ∈ s.completed := by
  refine ⟨_, rfl, rfl, accepted_after_handlers oneHandler (fun _ => [str "logout"])
    [.receive 0 logout, .handle 0 .ok, .handle 0 .ok] _ ⟨?_, fun _ _ => ⟨.inl rfl, fun _ _ =>
      ⟨.inl rfl, fun _ _ => trivial⟩⟩⟩ rfl 0 _ rfl⟩
  intro _ _ admitted
  cases admitted
  exact ⟨.refl _, nofun⟩

/-- The second delivery is acknowledged while the handler runs, which then fails. -/
theorem accepted_before_handler_fails :
    ∃ s, run (step oneHandler) {}
        [.receive 0 logout, .receive 1 logout, .handle 0 (.error false none)] = some s ∧
      s.phase 1 = .accepted (str "tx" ++ [0] ++ str "1") ∧ s.phase 0 = .refused processingFailed ∧
      s.completed = [] := by
  decide +kernel

end TheAuth.Signals
