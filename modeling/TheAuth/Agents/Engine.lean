import Mathlib.Data.List.Destutter
import TheAuth.Agents.Gate
import TheAuth.Policy.Meaning

/-!
# The policy engine for agents

The engine of `agentpolicy` answers the gate. An agent without policies is not restricted; an allow
list lets nothing pass that no statement allows, a deny list what no statement matches.
-/

set_option autoImplicit false

namespace TheAuth.Agents

open Go Server Store Library.Result

/-- What holds where no policy speaks. -/
inductive Mode where
  | allowList | denyList
  deriving DecidableEq

/-- An engine that `New` built: it has validated the static policies. -/
structure Engine [StdLib] where
  base : List Policy.Policy
  valid : ∀ p ∈ base, p.validate = .ok ()
  mode : Mode
  eval : Policy.Evaluator

/-- What the resolver found. -/
structure Resolution where
  policies : List Policy.Policy
  rateLimit : Option Window := none

/-- What the resolver answers. -/
structure EngineAnswers where
  wall : Time
  resolver : Option (Agent → Except Bytes Resolution) := none
  hash : List Policy.Policy → Bytes

def Window.normalize (r : Window) : Except Bytes Window :=
  if r.requests < 0 ∨ r.per < 0 ∨ r.burst < 0 then
    .error (str "theauth: invalid AgentConfig.RateLimit: negative value")
  else if r.requests = 0 then
    .error (str "theauth: invalid AgentConfig.RateLimit: Requests must be positive")
  else .ok
    { r with
      per := if r.per = 0 then Time.nsPerMinute else r.per
      burst := if r.burst = 0 then r.requests else r.burst }

variable (pols : List Policy.Policy)

def hasAllow : Bool := pols.any fun p => p.statements.any fun s => s.effect == .allow

def errNoAllowStatement : Bytes :=
  str "agentpolicy: allow list mode needs at least one allow statement " ++
    str "(use DenyList mode for a deny only policy)"

def errInvalidRateLimit : Bytes := str "agentpolicy: invalid per agent rate limit"

def policyIDs : List Bytes :=
  (Policy.sortStrings ((pols.map (·.id)).filter (· ≠ []))).destutter (· ≠ ·)

def verdict (d : Policy.Decision) : PolicyVerdict where
  effect :=
    match d.effect with
    | .allow => .allow
    | .deny => .deny
    | .escalate => .escalate
    -- no statement matched, or a refusal that has a reason but no effect
    | .other _ _ => if d.policyID ≠ [] ∨ d.taint.isSome then .deny else .none
  policyID := d.policyID
  statementID := d.statementID
  reason := d.reason

namespace Engine

/-- Nothing that is permitted has been spoken against. -/
theorem unopposed_of_permits [StdLib] {e : Policy.Evaluator} {wall : Time} {req : Policy.Request}
    {pols : List (Option Policy.Policy)} {denyList : Bool} (known : Policy.EffectsKnown pols)
    (permitted : permits (verdict (e.evaluate wall req pols)) denyList = true) :
    Policy.MayRun e (e.prepare wall req) pols ∨
      denyList = true ∧ ∀ s ∈ Policy.statementsOf pols, s.matches (e.prepare wall req) = false := by
  obtain ⟨-, declared⟩ := Policy.evaluate_effect e wall req known
  unfold permits verdict at permitted
  cases effect : (e.evaluate wall req pols).effect with
  | allow => exact .inl ((Policy.mayRun_iff _ _ _).mpr (declared ▸ effect))
  | deny | escalate =>
    rw [effect] at permitted
    cases permitted
  | other text =>
    have silent := Policy.not_matches_of_declaredEffect e known (declared ▸ effect)
    rw [effect] at permitted
    by_cases refused : (e.evaluate wall req pols).policyID ≠ [] ∨
        (e.evaluate wall req pols).taint.isSome
    · rw [if_pos refused] at permitted
      cases permitted
    · rw [if_neg refused] at permitted
      exact .inr ⟨permitted, silent⟩

variable [StdLib] [UlidText] (e : Engine) (a : EngineAnswers)

def validateResolved (policies : List Policy.Policy) : Except Bytes Unit :=
  forM policies.zipIdx fun (p, i) =>
    p.validate.mapError fun text =>
      str "agentpolicy: resolver returned invalid policy " ++ str (toString i) ++ str ": " ++ text

variable (ag : Agent)

def resolve : Except Bytes (List Policy.Policy × Option Window) :=
  match a.resolver with
  | none => .ok (e.base, none)
  | some resolver => do
    let res ← (resolver ag).mapError (str "agentpolicy: resolver: " ++ ·)
    validateResolved res.policies
    match res.rateLimit with
    | none => return (e.base ++ res.policies, none)
    | some limit =>
      let normal ← limit.normalize.mapError (errInvalidRateLimit ++ str ": " ++ ·)
      return (e.base ++ res.policies, some normal)

omit [UlidText] in
variable {e a ag} in
theorem effectsKnown_of_resolve {pols : List Policy.Policy} {limit : Option Window}
    (resolved : e.resolve a ag = .ok (pols, limit)) : Policy.EffectsKnown (pols.map some) := by
  suffices valid : ∀ p ∈ pols, p.validate = .ok () by
    intro s inside
    obtain ⟨_, listed, inside⟩ := List.mem_flatMap.mp inside
    obtain ⟨p, member, rfl⟩ := List.mem_map.mp listed
    exact Policy.Policy.effect_known_of_validate (valid p member) inside
  unfold resolve at resolved
  split at resolved
  · cases resolved
    exact e.valid
  obtain ⟨res, -, resolved⟩ := of_bind resolved
  obtain ⟨checked, resolved⟩ := unit_bind_eq_ok.mp resolved
  have same : pols = e.base ++ res.policies := by
    split at resolved
    · cases resolved
      rfl
    · obtain ⟨_, -, resolved⟩ := of_bind resolved
      cases resolved
      rfl
  intro p listed
  rw [same, List.mem_append] at listed
  rcases listed with static | listed
  · exact e.valid p static
  · obtain ⟨i, inside, rfl⟩ := List.getElem_of_mem listed
    exact mapError_eq_ok.mp (Policy.ok_of_forM checked (res.policies[i], i)
      (List.mk_mem_zipIdx_iff_getElem?.mpr (List.getElem?_eq_getElem inside)))

def request (q : PolicyQuery) : Policy.Request where
  action := q.action
  resource := q.resource
  attributes := (AList.insert (str "client_id") ag.clientID ∅).insert (str "agent_id")
    (UlidText.string ag.id)
  ip := []
  now := 0
  amount := 0
  currency := []
  dataClass := []
  irreversible := false
  provenance := ∅

def decision (pols : List Policy.Policy) (q : PolicyQuery) : Policy.Decision :=
  e.eval.evaluate a.wall (request ag q) (pols.map some)

def decide (queries : List PolicyQuery) : Except Bytes PolicyDecision := do
  let (pols, limit) ← e.resolve a ag
  if pols.length = 0 then
    return { applies := false, denyList := e.mode == .denyList, rateLimit := limit }
  refuseIf (e.mode = .allowList ∧ hasAllow pols = false) errNoAllowStatement
  return {
    applies := true
    denyList := e.mode == .denyList
    rateLimit := limit
    ids := policyIDs pols
    hash := a.hash pols
    verdicts := queries.map fun q => verdict (e.decision a ag pols q) }

variable {e a}

theorem decide_eq_ok {ag : Agent} {queries : List PolicyQuery} {dec : PolicyDecision}
    (done : e.decide a ag queries = .ok dec) (applies : dec.applies = true) :
    ∃ pols limit, e.resolve a ag = .ok (pols, limit) ∧ dec.denyList = (e.mode == .denyList) ∧
      dec.verdicts = queries.map fun q => verdict (e.decision a ag pols q) := by
  obtain ⟨⟨pols, limit⟩, resolved, done⟩ := of_bind done
  refine ⟨pols, limit, resolved, ?_⟩
  dsimp only at done
  by_cases unrestricted : pols.length = 0
  · rw [if_pos unrestricted] at done
    cases done
    cases applies
  · rw [if_neg unrestricted] at done
    obtain ⟨-, done⟩ := of_refuseIf done
    cases done
    exact ⟨rfl, rfl⟩

/-- **Agents get what their policies allow**, or a deny list does not speak against. -/
theorem engine_mint_allowed {g : Gate} {answers : GateAnswers} {ag : Agent} {req : MintRequest}
    {res : MintResult} {dec : PolicyDecision} (asks : answers.decide = e.decide a)
    (done : authorizeMint (some g) answers ag req = .ok res)
    (decided : decisionOn (some g) answers ag req = some dec) :
    ∃ pols limit, e.resolve a ag = .ok (pols, limit) ∧ ∀ scope ∈ res.scopes,
      let asked := e.eval.prepare a.wall (request ag ⟨scope, req.resource⟩)
      Policy.MayRun e.eval asked (pols.map some) ∨
        e.mode = .denyList ∧
          ∀ s ∈ Policy.statementsOf (pols.map some), s.matches asked = false := by
  have made := decided
  unfold decisionOn at made
  dsimp only at made
  split at made
  · cases made
  split at made
  · cases made
  rename_i answered
  obtain ⟨applies, made⟩ := Option.ite_none_right_eq_some.mp made
  cases made
  rw [asks] at answered
  obtain ⟨pols, limit, resolved, mode, verdicts⟩ := decide_eq_ok answered applies
  refine ⟨pols, limit, resolved, fun scope inside => ?_⟩
  obtain ⟨_, zipped, passed⟩ := passes_of_mem_scopes done decided inside
  rw [verdicts, List.map_map, ← List.map_prod_left_eq_zip] at zipped
  obtain ⟨_, -, same⟩ := List.mem_map.mp zipped
  cases same
  have permitted := (passes_eq_true.mp passed).2
  rw [mode] at permitted
  rcases unopposed_of_permits (effectsKnown_of_resolve resolved) permitted with allowed | silent
  · exact .inl allowed
  · exact .inr (silent.imp_left eq_of_beq)

end Engine

attribute [local instance] StdLib.refusing UlidText.unary

def openEngine : Engine := ⟨[Policy.catchAll .allow], by decide, .allowList, {}⟩

def plainAnswers : EngineAnswers := ⟨1, none, fun _ => []⟩

def asking : GateAnswers := { allowing true with decide := openEngine.decide plainAnswers }

theorem engine_mint_read :
    ∃ res, authorizeMint (some ⟨true, true⟩) asking sampleAgent (mintBoth false) = .ok res ∧
      res.scopes ≠ [] ∧ ∀ scope ∈ res.scopes, Policy.MayRun openEngine.eval
        (openEngine.eval.prepare plainAnswers.wall (Engine.request sampleAgent ⟨scope, str "r"⟩))
        (openEngine.base.map some) := by
  have done : ∃ res, authorizeMint (some ⟨true, true⟩) asking sampleAgent (mintBoth false) =
      .ok res := exists_eq_ok (by decide +kernel)
  obtain ⟨res, done⟩ := done
  obtain ⟨_, _, resolved, allowed⟩ := Engine.engine_mint_allowed rfl done rfl
  cases resolved
  exact ⟨res, done, (authorizeMint_scopes done).2 nofun,
    fun scope inside => (allowed scope inside).resolve_right nofun⟩

end TheAuth.Agents
