import TheAuth.Policy.Meaning

/-!
# Explaining a decision

`explain` evaluates a request and looks for the statement that the decision names, with the clock
read a second time. Identifiers need not be unique: what it finds is the first statement under them
that matches.
-/

set_option autoImplicit false

namespace TheAuth.Policy

open Go List Bool

structure MatchedStatement where
  (policyID statementID : Bytes)
  effect : Effect

structure ConditionResult extends Condition where
  (policyID statementID : Bytes)
  passed : Bool

/-- A decision and what was checked. -/
structure Explanation where
  decision : Decision
  code : DecisionCode := decision.code
  matched : Option MatchedStatement := none
  conditions : List ConditionResult := []

theorem Located.statementID_ne_nil (l : Located) : l.statementID ≠ [] := by
  unfold Located.statementID
  split
  · exact append_ne_nil_of_left_ne_nil (by decide) _
  · assumption

section

variable [StdLib] (req : Request) (policies : List (Option Policy))

def conditionResult (policyID statement : Bytes) (c : Condition) : ConditionResult :=
  ⟨c, policyID, statement, c.holds req⟩

/-- The statements under these identifiers that match. -/
def Located.named (policyID statementID : Bytes) (l : Located) : Bool :=
  l.policy.id == policyID && l.statementID == statementID && l.statement.matches req

def findDecided (d : Decision) : Option Located :=
  (located policies).find? (Located.named req d.policyID d.statementID)

def failedConditions : List ConditionResult :=
  (located policies).flatMap fun l =>
    if l.statement.effect ≠ .allow ∨ !l.statement.matchesTarget req then []
    else (l.statement.conditions.map (conditionResult req l.policy.id l.statementID)).filter
      fun r => !r.passed

def Evaluator.explain (e : Evaluator) (later : Option Time) (wall wall' : Time) (req : Request)
    (policies : List (Option Policy)) : Explanation :=
  let d := e.evaluate wall req policies
  let req := { e with now := later }.prepare wall' req
  if d.statementID ≠ [] then
    { decision := d
      matched := some ⟨d.policyID, d.statementID, if d.effect = .zero then .allow else d.effect⟩
      conditions := (findDecided req policies d).elim [] fun l =>
        l.statement.conditions.map (conditionResult req l.policy.id d.statementID) }
  else if d.effect ≠ .zero ∨ d.allowed then { decision := d }
  else { decision := d, conditions := failedConditions req policies }

/-- The statement that the walk ends with. -/
def decider : Option Located :=
  ((located policies).find? (Located.denies req)).or
    (((located policies).find? (Located.escalates req)).or
      ((located policies).find? (Located.permits req)))

def Located.decision (risk : List RiskTier) (l : Located) : Decision :=
  if l.statement.effect = .deny then l.denied
  else if l.statement.effect = .escalate then l.escalated
  else applyRisk risk req l.permitted

variable {req policies}

theorem Evaluator.evaluateStatements_decider (e : Evaluator) :
    e.evaluateStatements req policies =
      (decider req policies).elim (defaultDeny req policies) (Located.decision req e.risk) := by
  rw [e.evaluateStatements_eq, decider]
  cases denies : (located policies).find? (Located.denies req) with
  | some =>
    have deny := find?_some denies
    simp only [Located.denies, and_eq_true, beq_iff_eq] at deny
    exact (if_pos deny.1).symm
  | none =>
    cases escalates : (located policies).find? (Located.escalates req) with
    | some =>
      have escalate := find?_some escalates
      simp only [Located.escalates, and_eq_true, beq_iff_eq] at escalate
      simp [Located.decision, escalate.1]
    | none =>
      cases permits : (located policies).find? (Located.permits req) with
      | none => rfl
      | some =>
        have permit := find?_some permits
        simp only [Located.permits, and_eq_true, bne_iff_ne] at permit
        simp [Located.decision, permit.1]

theorem Evaluator.ids_evaluate (e : Evaluator) (wall : Time) (req : Request)
    (policies : List (Option Policy)) :
    let d := e.evaluate wall req policies
    (d.policyID, d.statementID) =
      (decider (e.prepare wall req) policies).elim ([], [])
        fun l => (l.policy.id, l.statementID) := by
  have kept : ∀ d : Decision, (applyTaint e.taint (e.prepare wall req) d).policyID = d.policyID ∧
      (applyTaint e.taint (e.prepare wall req) d).statementID = d.statementID := by
    intro _
    unfold applyTaint
    repeat' split
    all_goals exact ⟨rfl, rfl⟩
  dsimp only [Evaluator.evaluate]
  rw [(kept _).1, (kept _).2, e.evaluateStatements_decider]
  cases decider (e.prepare wall req) policies with
  | none => rfl
  | some =>
    dsimp only [Option.elim, Located.decision, applyRisk]
    repeat' split
    all_goals rfl

theorem Evaluator.effect_evaluate (e : Evaluator) (wall : Time) {l : Located}
    (decides : decider (e.prepare wall req) policies = some l) :
    ({ e with risk := [], taint := [] }.evaluate wall req policies).effect =
      l.statement.effect := by
  change (evaluateStatements _ (e.prepare wall req) policies).effect = _
  rw [evaluateStatements_decider, decides]
  dsimp only [Option.elim, Located.decision]
  split
  next deny => exact deny.symm
  split
  next escalate => exact escalate.symm
  · rfl

/-- `k` has the identifiers of `l` and matches. -/
def Located.Rivals (req : Request) (l k : Located) : Prop :=
  k.policy.id = l.policy.id ∧ k.statementID = l.statementID ∧ k.statement.matches req = true

theorem Located.named_iff {l k : Located} :
    k.named req l.policy.id l.statementID = true ↔ l.Rivals req k := by
  simp only [named, Rivals, and_eq_true, beq_iff_eq]
  exact and_assoc

/-- `k` is the first of the statements that have the identifiers of `l` and match. -/
def Located.First (req : Request) (policies : List (Option Policy)) (l k : Located) : Prop :=
  l.Rivals req k ∧ ∃ before after, located policies = before ++ k :: after ∧
    ∀ earlier ∈ before, ¬ l.Rivals req earlier

theorem Located.first_iff {l k : Located} :
    (located policies).find? (named req l.policy.id l.statementID) = some k ↔
      l.First req policies k := by
  rw [find?_eq_some_iff_append, named_iff, First]
  simp only [Bool.not_eq_eq_eq_not, Bool.not_true, Bool.eq_false_iff, ne_eq, named_iff]

/-- **What an explanation lists.** The conditions are those of the deciding statement where the
first statement with its identifiers that matches at the second reading has the same. -/
theorem explain_lists_decider_iff (e : Evaluator) (later : Option Time) (wall wall' : Time)
    (req : Request) (policies : List (Option Policy)) :
    let x := e.explain later wall wall' req policies
    let again := { e with now := later }.prepare wall' req
    x.decision = e.evaluate wall req policies ∧
      match decider (e.prepare wall req) policies with
      | none => x.matched = none
      | some l =>
        x.matched.map (fun m => (m.policyID, m.statementID)) = some (l.policy.id, l.statementID) ∧
        ({ e with risk := [], taint := [] }.evaluate wall req policies).effect =
          l.statement.effect ∧
        (x.conditions.map (·.toCondition) = l.statement.conditions ↔
          (∃ k, l.First again policies k ∧ k.statement.conditions = l.statement.conditions) ∨
          (∀ k ∈ located policies, ¬ l.Rivals again k) ∧ l.statement.conditions = []) := by
  intro x again
  have ids := e.ids_evaluate wall req policies
  dsimp only at ids
  cases decides : decider (e.prepare wall req) policies with
  | none =>
    rw [decides] at ids
    dsimp only [x, Evaluator.explain]
    rw [if_neg (not_not.mpr (Prod.mk.inj ids).2)]
    split <;> exact ⟨rfl, rfl⟩
  | some l =>
    rw [decides] at ids
    obtain ⟨policy, statement⟩ := Prod.mk.inj ids
    dsimp only [x, Evaluator.explain, findDecided]
    rw [if_pos (statement ▸ l.statementID_ne_nil), policy, statement]
    refine ⟨rfl, rfl, e.effect_evaluate wall decides, ?_⟩
    dsimp only
    cases found : (located policies).find? (Located.named again l.policy.id l.statementID) with
    | none =>
      have nobody : ∀ k ∈ located policies, ¬ l.Rivals again k := fun k listed rivals =>
        find?_eq_none.mp found k listed (Located.named_iff.mpr rivals)
      constructor
      · exact fun listed => .inr ⟨nobody, listed.symm⟩
      · rintro (⟨k, first, -⟩ | ⟨-, none_⟩)
        · cases found.symm.trans (Located.first_iff.mpr first)
        · exact none_.symm
    | some k =>
      have first := Located.first_iff.mp found
      have listed : ((k.statement.conditions.map
          (conditionResult again k.policy.id l.statementID)).map (·.toCondition)) =
            k.statement.conditions := by
        simp [conditionResult, Function.comp_def]
      rw [Option.elim_some, listed]
      constructor
      · exact fun same => .inl ⟨k, first, same⟩
      · rintro (⟨other, first', same⟩ | ⟨nobody, -⟩)
        · cases found.symm.trans (Located.first_iff.mpr first')
          exact same
        · exact absurd first.1 (nobody k (mem_of_find?_eq_some found))

end

/-- A condition of an allowance is listed for the denial that has the same identifiers. -/
theorem explain_lists_other_statement :
    letI := StdLib.refusing
    let guarded : Condition := ⟨.notEquals, str "department", [str "legal"]⟩
    let policies := [some { catchAll .allow with
      statements := [⟨str "s", .allow, [str "*"], [str "*"], [guarded], [], .zero⟩] },
      some (catchAll .deny)]
    let x := Evaluator.explain {} none 1 1 plainRequest policies
    x.decision.effect = .deny ∧ x.conditions.map (·.toCondition) = [guarded] ∧
      (decider plainRequest policies).map (·.statement.conditions) = some [] := by
  decide +kernel

end TheAuth.Policy
