import TheAuth.Policy.Evaluate

/-!
# What a decision means

A deny wins, then an escalation, then an allowance, which the risk tiers and the taint rules may
still hold back. The evaluator takes a statement of an unknown effect for an allowance; documents
that pass validation have none.
-/

set_option autoImplicit false

namespace TheAuth.Policy

open Go List StdLib

variable (policies : List (Option Policy))

def statementsOf : List Statement := policies.flatMap fun p => p.elim [] fun p => p.statements

/-- Every effect is one of the three that there are. -/
def EffectsKnown : Prop := ∀ s ∈ statementsOf policies, s.effect.known = true

def taintVerdict (taint : List TaintRule) (req : Request) : Verdict :=
  (evaluateTaint taint req).elim .clean fun v => v.verdict

theorem statement_located :
    (located policies).map Located.statement = statementsOf policies := by
  rw [located, map_flatMap]
  congr 1
  funext p
  cases p with
  | none => rfl
  | some => simp [locatedIn, Function.comp_def]

theorem isSome_find?_located (test : Statement → Bool) :
    ((located policies).find? fun l => test l.statement).isSome =
      (statementsOf policies).any test := by
  rw [← statement_located, any_map, Bool.eq_iff_iff, find?_isSome, any_eq_true]
  rfl

/-- Allowed is said exactly with the effect allow. -/
def Decision.Coherent (d : Decision) : Prop := d.allowed = true ↔ d.effect = .allow

def taintedEffect (effect : Effect) : Verdict → Effect
  | .clean => effect
  | .escalate => .escalate
  | .deny => .deny

theorem taintVerdict_nil (req : Request) : taintVerdict [] req = .clean := by
  unfold taintVerdict evaluateTaint
  by_cases supplied : (normalizeProvenance req.provenance).isNone = true
  · simp [supplied]
  · simp [supplied, verdictOf]

theorem taintVerdict_eq_clean_iff (taint : List TaintRule) (req : Request) :
    taintVerdict taint req = .clean ↔
      ∀ v, evaluateTaint taint req = some v → v.verdict = .clean := by
  cases evaluated : evaluateTaint taint req <;> simp [taintVerdict, evaluated]

theorem applyTaint_effect (taint : List TaintRule) (req : Request) {d : Decision}
    (coherent : d.Coherent) :
    (applyTaint taint req d).Coherent ∧
      (applyTaint taint req d).effect =
        if d.effect = .allow ∨ d.effect = .escalate then
          taintedEffect d.effect (taintVerdict taint req)
        else d.effect := by
  by_cases passes : d.effect = .allow ∨ d.effect = .escalate
  · have checked : ¬ (d.allowed = false ∧ d.effect ≠ .escalate) := by
      rintro ⟨refused, other⟩
      have allowed := coherent.mpr (passes.resolve_right other)
      rw [refused] at allowed
      cases allowed
    rw [if_pos passes]
    cases taint with
    | nil =>
      rw [taintVerdict_nil]
      exact ⟨coherent, rfl⟩
    | cons rule rules =>
      rw [applyTaint, if_neg (by simpa using checked), taintVerdict]
      cases evaluateTaint (rule :: rules) req with
      | none => exact ⟨coherent, rfl⟩
      | some v =>
        cases verdict : v.verdict with
        | clean => simpa [verdict, taintedEffect, Decision.Coherent] using coherent
        | deny => simp [verdict, taintedEffect, Decision.Coherent]
        | escalate =>
          by_cases already : d.effect = .escalate
          · simpa [verdict, taintedEffect, Decision.Coherent, already] using coherent
          · simp [verdict, taintedEffect, Decision.Coherent, already]
  · have refused : d.allowed = false := by
      rw [← Bool.not_eq_true]
      exact fun allowed => passes (Or.inl (coherent.mp allowed))
    rw [if_neg passes, applyTaint, if_pos (Or.inr ⟨refused, fun same => passes (Or.inr same)⟩)]
    exact ⟨coherent, rfl⟩

section

variable [StdLib] {policies : List (Option Policy)}

def anyMatch (effect : Effect) (req : Request) (policies : List (Option Policy)) : Bool :=
  (statementsOf policies).any fun s => s.effect == effect && s.matches req

def declaredEffect (e : Evaluator) (req : Request) (policies : List (Option Policy)) : Effect :=
  if anyMatch .deny req policies then .deny
  else if anyMatch .escalate req policies then
    taintedEffect .escalate (taintVerdict e.taint req)
  else if anyMatch .allow req policies then
    taintedEffect (if (classify e.risk req).isSome then .escalate else .allow)
      (taintVerdict e.taint req)
  else .zero

theorem find?_permits_isSome (known : EffectsKnown policies) (req : Request) :
    ((located policies).find? (Located.permits req)).isSome = anyMatch .allow req policies := by
  refine (isSome_find?_located policies fun s =>
    s.effect != .deny && s.effect != .escalate && s.matches req).trans ?_
  rw [anyMatch, Bool.eq_iff_iff, any_eq_true, any_eq_true]
  refine exists_congr fun s => and_congr_right fun member => ?_
  have sort := known s member
  cases effect : s.effect <;> simp_all [Effect.known]

theorem effect_of_find?_permits (known : EffectsKnown policies) {req : Request} {l : Located}
    (here : (located policies).find? (Located.permits req) = some l) :
    l.statement.effect = .allow := by
  have permits := find?_some here
  have member : l.statement ∈ statementsOf policies := by
    rw [← statement_located]
    exact mem_map_of_mem (mem_of_find?_eq_some here)
  have sort := known _ member
  cases effect : l.statement.effect <;> simp_all [Effect.known, Located.permits]

variable (e : Evaluator)

theorem evaluateStatements_effect (known : EffectsKnown policies) (req : Request) :
    (e.evaluateStatements req policies).Coherent ∧
      (e.evaluateStatements req policies).effect =
        if anyMatch .deny req policies then .deny
        else if anyMatch .escalate req policies then .escalate
        else if anyMatch .allow req policies then
          if (classify e.risk req).isSome then .escalate else .allow
        else .zero := by
  have denies : ((located policies).find? (Located.denies req)).isSome =
      anyMatch .deny req policies :=
    isSome_find?_located policies fun s => s.effect == .deny && s.matches req
  have escalates : ((located policies).find? (Located.escalates req)).isSome =
      anyMatch .escalate req policies :=
    isSome_find?_located policies fun s => s.effect == .escalate && s.matches req
  have permits := find?_permits_isSome known req
  rw [Evaluator.evaluateStatements_eq, ← denies, ← escalates, ← permits]
  cases (located policies).find? (Located.denies req) with
  | some => simp [Decision.Coherent, Located.denied]
  | none =>
    cases (located policies).find? (Located.escalates req) with
    | some => simp [Decision.Coherent, Located.escalated]
    | none =>
      cases here : (located policies).find? (Located.permits req) with
      | none => simp [Decision.Coherent, defaultDeny, Effect.zero]
      | some =>
        have effect := effect_of_find?_permits known here
        cases tier : classify e.risk req with
        | none => simp [Decision.Coherent, applyRisk, tier, Located.permitted, effect]
        | some => simp [Decision.Coherent, applyRisk, tier]

theorem evaluate_effect (wall : Time) (req : Request) (known : EffectsKnown policies) :
    (e.evaluate wall req policies).Coherent ∧
      (e.evaluate wall req policies).effect = declaredEffect e (e.prepare wall req) policies := by
  obtain ⟨coherent, walked⟩ := evaluateStatements_effect e known (e.prepare wall req)
  obtain ⟨still, tainted⟩ := applyTaint_effect e.taint (e.prepare wall req) coherent
  refine ⟨still, tainted.trans ?_⟩
  rw [walked, declaredEffect]
  split
  · rfl
  split
  · rfl
  split
  · split <;> rfl
  · rfl

/-- The policies let the request run. -/
structure MayRun (e : Evaluator) (req : Request) (policies : List (Option Policy)) : Prop where
  noDeny : ∀ s ∈ statementsOf policies, s.effect = .deny → s.matches req = false
  noEscalate : ∀ s ∈ statementsOf policies, s.effect = .escalate → s.matches req = false
  someAllow : ∃ s ∈ statementsOf policies, s.effect = .allow ∧ s.matches req = true
  noRisk : ∀ t ∈ e.risk, t.matches req = true → t.require.strength = 0
  noTaint : ∀ v, evaluateTaint e.taint req = some v → v.verdict = .clean

theorem anyMatch_eq_true_iff (effect : Effect) (req : Request) (policies : List (Option Policy)) :
    anyMatch effect req policies = true ↔
      ∃ s ∈ statementsOf policies, s.effect = effect ∧ s.matches req = true := by
  simp [anyMatch]

theorem anyMatch_eq_false_iff (effect : Effect) (req : Request) (policies : List (Option Policy)) :
    anyMatch effect req policies = false ↔
      ∀ s ∈ statementsOf policies, s.effect = effect → s.matches req = false := by
  simp [anyMatch]

theorem declaredEffect_eq_allow_iff (req : Request) (policies : List (Option Policy)) :
    declaredEffect e req policies = .allow ↔
      anyMatch .deny req policies = false ∧ anyMatch .escalate req policies = false ∧
        anyMatch .allow req policies = true ∧ classify e.risk req = none ∧
          taintVerdict e.taint req = .clean := by
  unfold declaredEffect
  cases anyMatch .deny req policies with
  | true => simp
  | false =>
    cases anyMatch .escalate req policies with
    | true => cases taintVerdict e.taint req <;> simp [taintedEffect]
    | false =>
      cases anyMatch .allow req policies with
      | false => simp [Effect.zero]
      | true =>
        cases classify e.risk req <;> cases taintVerdict e.taint req <;>
          simp [taintedEffect]

/-- Without a declared effect no statement speaks. -/
theorem not_matches_of_declaredEffect {req : Request} {text : Bytes} {unknown}
    (known : EffectsKnown policies) (other : declaredEffect e req policies = .other text unknown) :
    ∀ s ∈ statementsOf policies, s.matches req = false := by
  unfold declaredEffect at other
  split at other
  · cases other
  split at other
  · cases verdict : taintVerdict e.taint req <;> rw [verdict] at other <;> cases other
  split at other
  · split at other <;> cases verdict : taintVerdict e.taint req <;> rw [verdict] at other <;>
      cases other
  rename_i noDeny noEscalate noAllow
  rw [Bool.not_eq_true, anyMatch_eq_false_iff] at noDeny noEscalate noAllow
  intro s inside
  cases effect : s.effect with
  | deny => exact noDeny s inside effect
  | escalate => exact noEscalate s inside effect
  | allow => exact noAllow s inside effect
  | other =>
    have sort := known s inside
    rw [effect] at sort
    cases sort

theorem mayRun_iff (req : Request) (policies : List (Option Policy)) :
    MayRun e req policies ↔ declaredEffect e req policies = .allow := by
  rw [declaredEffect_eq_allow_iff, anyMatch_eq_false_iff, anyMatch_eq_false_iff,
    anyMatch_eq_true_iff, classify_eq_none_iff, taintVerdict_eq_clean_iff]
  exact ⟨fun ⟨deny, escalate, allow, risk, taint⟩ => ⟨deny, escalate, allow, risk, taint⟩,
    fun ⟨deny, escalate, allow, risk, taint⟩ => ⟨deny, escalate, allow, risk, taint⟩⟩

theorem allowed_iff_mayRun (wall : Time) (req : Request) (known : EffectsKnown policies) :
    (e.evaluate wall req policies).allowed = true ↔ MayRun e (e.prepare wall req) policies := by
  obtain ⟨coherent, effect⟩ := evaluate_effect e wall req known
  rw [mayRun_iff, ← effect]
  exact coherent

end

def catchAll (effect : Effect) : Policy where
  version := policyVersion
  id := str "p"
  statements := [⟨str "s", effect, [str "*"], [str "*"], [], [], .zero⟩]

def plainRequest : Request := ⟨str "read", str "doc:1", ∅, [], 1, 0, [], [], false, ∅⟩

end TheAuth.Policy
