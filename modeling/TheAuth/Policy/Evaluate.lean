import TheAuth.Policy.Risk
import TheAuth.Policy.Taint

/-!
# Evaluating a request

A matching deny ends the walk through the statements; the first matching escalation and the first
matching allowance are kept. What is left of an allowance passes the risk tiers, and what is not
refused then the taint rules.
-/

set_option autoImplicit false

namespace TheAuth.Policy

open Go

inductive DecisionCode where
  | allowed | approvalConsumed | noPermission | rateLimited | ipNotAllowed | timeRestricted
  | argumentRejected | approvalRequired | approvalInvalid | agentNotFound | agentRevoked
  | agentExpired | invalidToken | ownerMismatch | hookDenied | hookTimeout | hookError
  | taintViolation | riskEscalation | policyIndeterminate

structure Escalation where
  tier : Bytes
  requirement : Requirement
  reason : Bytes

/-- The answer to a request. -/
structure Decision where
  allowed : Bool := false
  effect : Effect := .zero
  (policyID statementID : Bytes := [])
  reason : Bytes
  code : DecisionCode
  boundary : Bool := false
  escalation : Option Escalation := none
  taint : Option TaintVerdict := none

/-- Risk tiers, taint rules and a clock. -/
structure Evaluator where
  now : Option Time := none
  risk : List RiskTier := []
  taint : List TaintRule := []

/-- A statement and its policy. -/
structure Located where
  policy : Policy
  index : Nat
  statement : Statement

def statementIndexID (i : Nat) : Bytes := str "stmt-" ++ str (toString i)

variable (l : Located)

def Located.statementID : Bytes :=
  if l.statement.id = [] then statementIndexID l.index else l.statement.id

def Located.denied : Decision where
  effect := .deny
  policyID := l.policy.id
  statementID := l.statementID
  reason := str "explicit deny"
  code := .noPermission

def Located.escalated : Decision where
  effect := .escalate
  policyID := l.policy.id
  statementID := l.statementID
  reason := str "escalation required by statement"
  code := .approvalRequired
  escalation := some
    { tier := l.statement.tier
      requirement := if l.statement.require = .zero then .approval else l.statement.require
      reason := str "escalation required by statement" }

def Located.permitted : Decision where
  allowed := true
  effect := l.statement.effect
  policyID := l.policy.id
  statementID := l.statementID
  reason := str "allowed by statement"
  code := .allowed

def locatedIn (p : Policy) : List Located := p.statements.zipIdx.map fun (s, i) => ⟨p, i, s⟩

def located (policies : List (Option Policy)) : List Located :=
  policies.flatMap fun p => p.elim [] locatedIn

/-- What the walk has found so far. -/
structure Found where
  (allow escalate : Option Decision := none)

section

variable [StdLib] (req : Request)

def scanStatement (found : Found) (l : Located) : Except Decision Found :=
  if !l.statement.matches req then .ok found
  else if l.statement.effect = .deny then .error l.denied
  else if l.statement.effect = .escalate then
    .ok { found with escalate := found.escalate.or (some l.escalated) }
  else .ok { found with allow := found.allow.or (some l.permitted) }

def conditionCode (c : Condition) : Option DecisionCode :=
  if c.holds req then none
  else match c.op with
  | .ipCIDR | .notIPCIDR => some .ipNotAllowed
  | .timeWindow | .dailyWindow => some .timeRestricted
  | _ => none

variable (policies : List (Option Policy))

def defaultDenyCode : DecisionCode :=
  ((located policies).findSome? fun l =>
    if l.statement.effect ≠ .allow ∨ !l.statement.matchesTarget req then none
    else l.statement.conditions.findSome? (conditionCode req)).getD .noPermission

def defaultDeny : Decision where
  reason := str "no matching allow statement (default deny)"
  code := defaultDenyCode req policies

def applyRisk (risk : List RiskTier) (req : Request) (d : Decision) : Decision :=
  match classify risk req with
  | none => d
  | some t =>
    let reason := str "risk tier " ++ t.name ++ str " requires " ++ t.require.text
    { d with
      allowed := false
      effect := .escalate
      code := .riskEscalation
      reason
      escalation := some ⟨t.name, t.require, reason⟩ }

variable (e : Evaluator)

/-- The unexported `evaluate`: the walk and the risk tiers. -/
def Evaluator.evaluateStatements (req : Request)
    (policies : List (Option Policy)) : Decision :=
  match (located policies).foldlM (scanStatement req) {} with
  | .error d => d
  | .ok found =>
    match found.escalate, found.allow with
    | some d, _ => d
    | none, some d => applyRisk e.risk req d
    | none, none => defaultDeny req policies

def applyTaint (taint : List TaintRule) (req : Request) (d : Decision) : Decision :=
  if taint.length = 0 ∨ (d.allowed = false ∧ d.effect ≠ .escalate) then d
  else match evaluateTaint taint req with
  | none => d
  | some v =>
    let marked := { d with taint := some v }
    match v.verdict with
    | .clean => marked
    | .deny =>
      { marked with
        allowed := false
        effect := .deny
        escalation := none
        code := .taintViolation
        reason := str "taint violation: " ++ describeTaint v }
    | .escalate =>
      if d.effect = .escalate then marked
      else
        { marked with
          allowed := false
          effect := .escalate
          code := .taintViolation
          reason := describeTaint v
          escalation := some ⟨taintTier taint v, .approval, describeTaint v⟩ }

def Evaluator.prepare (wall : Time) (req : Request) : Request :=
  if req.now.isZero then { req with now := e.now.getD wall } else req

/-- The decision on a request. -/
def Evaluator.evaluate (wall : Time) (req : Request)
    (policies : List (Option Policy)) : Decision :=
  let req := e.prepare wall req
  applyTaint e.taint req (e.evaluateStatements req policies)

variable (l : Located)

def Located.denies : Bool := l.statement.effect == .deny && l.statement.matches req

def Located.escalates : Bool := l.statement.effect == .escalate && l.statement.matches req

def Located.permits : Bool :=
  l.statement.effect != .deny && l.statement.effect != .escalate && l.statement.matches req

theorem scan_eq (req : Request) (list : List Located) (found : Found) :
    list.foldlM (scanStatement req) found =
      match list.find? (Located.denies req) with
      | some l => .error l.denied
      | none => .ok
          { allow := found.allow.or ((list.find? (Located.permits req)).map Located.permitted)
            escalate :=
              found.escalate.or ((list.find? (Located.escalates req)).map Located.escalated) } := by
  induction list generalizing found with
  | nil => simp [pure, Except.pure]
  | cons l _ ih =>
    rw [List.foldlM_cons, scanStatement]
    by_cases covers : l.statement.matches req = true
    · rw [if_neg (by simp [covers])]
      by_cases deny : l.statement.effect = .deny
      · rw [if_pos deny, List.find?_cons_of_pos (by simp [Located.denies, deny, covers])]
        rfl
      · rw [if_neg deny, List.find?_cons_of_neg (by simp [Located.denies, deny])]
        by_cases escalate : l.statement.effect = .escalate
        · rw [if_pos escalate]
          refine (ih _).trans ?_
          rw [List.find?_cons_of_pos (p := Located.escalates req)
              (by simp [Located.escalates, escalate, covers]),
            List.find?_cons_of_neg (p := Located.permits req) (by simp [Located.permits, escalate])]
          simp
        · rw [if_neg escalate]
          refine (ih _).trans ?_
          rw [List.find?_cons_of_neg (p := Located.escalates req)
              (by simp [Located.escalates, escalate]),
            List.find?_cons_of_pos
              (by simp [Located.permits, escalate, deny, covers])]
          simp
    · rw [if_pos (by simp [covers])]
      refine (ih _).trans ?_
      simp [Located.denies, Located.escalates, Located.permits, covers]

theorem Evaluator.evaluateStatements_eq (e : Evaluator) (req : Request)
    (policies : List (Option Policy)) :
    e.evaluateStatements req policies =
      match (located policies).find? (Located.denies req) with
      | some l => l.denied
      | none =>
        match (located policies).find? (Located.escalates req),
          (located policies).find? (Located.permits req) with
        | some l, _ => l.escalated
        | none, some l => applyRisk e.risk req l.permitted
        | none, none => defaultDeny req policies := by
  rw [Evaluator.evaluateStatements, scan_eq]
  cases (located policies).find? (Located.denies req) with
  | some => rfl
  | none =>
    cases (located policies).find? (Located.escalates req) with
    | some => rfl
    | none => cases (located policies).find? (Located.permits req) <;> rfl

end

end TheAuth.Policy
