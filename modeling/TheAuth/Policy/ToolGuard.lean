import TheAuth.Go.Json
import TheAuth.Policy.Evaluate

/-!
# The tool guard

The policies decide first, then the hook, and a call that was escalated is permitted only by
spending an approval. What the policies, the hook and the random reader answer is part of the
`Attempt`.
-/

set_option autoImplicit false

namespace TheAuth.Policy.ToolGuard

open Go TheAuth.Policy

abbrev Provenance := GoMap Bytes (List Bytes)

/-- A call of a tool. -/
structure Call where
  (agentID tool : Bytes)
  (action resource : Bytes := [])
  amount : Float := 0
  (currency dataClass : Bytes := [])
  irreversible : Bool := false
  attributes : Attributes := ∅
  provenance : Provenance := ∅

def Call.actionOf (c : Call) : Bytes := if c.action = [] then str "execute" else c.action

def Call.resourceOf (c : Call) : Bytes :=
  if c.resource = [] then str "tool:" ++ c.tool else c.resource

def addLabels (set labels : List Bytes) : List Bytes :=
  labels.foldl (fun set l => if l.isEmpty then set else appendNew set l) set

def mergeProvenance (maps : List Provenance) : Provenance :=
  let sets : Provenance := maps.foldl (fun sets m => m.entries.foldl (fun sets entry =>
    sets.insert entry.1 (addLabels ((sets.lookup entry.1).getD []) entry.2)) sets) ∅
  sets.entries.foldl (fun out entry =>
    if entry.2.isEmpty then out else out.insert entry.1 (sortStrings entry.2)) ∅

inductive HookDecision where
  | allow | deny | escalate
  | other (text : Bytes) (unknown : text ∉ [str "allow", str "deny", str "escalate"])

structure HookVerdict where
  decision : HookDecision
  reason : Bytes

inductive HookAnswer where
  | verdict (v : HookVerdict)
  | failed (timedOut : Bool)
  | panicked

/-- What the hook's run ends with. -/
structure Outcome where
  decision : HookDecision
  code : Option DecisionCode := none
  reason : Bytes := []

/-- A hook and its timeout. -/
structure Runner where
  hasHook : Bool
  timeout : ℕ

def Runner.fail (r : Runner) (timedOut : Bool) : Outcome :=
  if timedOut then
    { decision := .deny
      code := some .hookTimeout
      reason := str "beforeAuthorize hook timed out after " ++
        str (toString r.timeout) ++ str "ms" }
  else
    { decision := .deny, code := some .hookError, reason := str "beforeAuthorize hook failed" }

def orDefault (s default : Bytes) : Bytes := if s = [] then default else s

def Runner.verdict (r : Runner) (v : HookVerdict) : Outcome :=
  match v.decision with
  | .allow => { decision := .allow }
  | .deny =>
    { decision := .deny
      code := some .hookDenied
      reason := orDefault v.reason (str "Blocked by beforeAuthorize hook") }
  | .escalate =>
    { decision := .escalate
      code := some .approvalRequired
      reason := orDefault v.reason (str "beforeAuthorize hook requires approval") }
  | .other _ _ => r.fail false

def Runner.run (r : Runner) (answer : HookAnswer) : Outcome :=
  if !r.hasHook then r.fail false
  else match answer with
  | .verdict v => r.verdict v
  | .failed timedOut => r.fail timedOut
  | .panicked => r.fail false

structure ApprovalRequired where
  (tool agentID reason tier : Bytes)
  requirement : Requirement
  approvalID : Bytes := []
  code : DecisionCode

inductive GuardError where
  | failed (code : DecisionCode) (text : Bytes)
  | denied (tool agentID reason : Bytes) (code : DecisionCode)
  | taintViolation (tool agentID reason : Bytes) (verdict : TaintVerdict) (code : DecisionCode)
  | approvalRequired (e : ApprovalRequired)

def guardFailed (code : DecisionCode) (text : Bytes) : GuardError :=
  .failed code (str "toolguard: check failed: " ++ text)

inductive LimitError where
  | rateLimited (text : Bytes)
  | agentNotFound (text : Bytes)
  | other (text : Bytes)

def limitCode : LimitError → DecisionCode
  | .rateLimited _ => .rateLimited
  | .agentNotFound _ => .agentNotFound
  | .other _ => .policyIndeterminate

def LimitError.text : LimitError → Bytes
  | .rateLimited text | .agentNotFound text | .other text => text

/-- An approval that was asked for. -/
structure MemRequest where
  (agentID action resource : Bytes)
  (approved spent : Bool := false)
  approver : Bytes := []
  deriving DecidableEq

abbrev MemoryApprovals := GoMap Bytes MemRequest

/-- The approval was asked for this call. -/
def MemRequest.For (r : MemRequest) (c : Call) : Prop :=
  r.agentID = c.agentID ∧ r.action = c.actionOf ∧ r.resource = c.resourceOf

instance (r : MemRequest) (c : Call) : Decidable (r.For c) := inferInstanceAs (Decidable (_ ∧ _))

variable (m : MemoryApprovals)

def MemoryApprovals.open (id : Bytes) (c : Call) : MemoryApprovals :=
  m.insert id { agentID := c.agentID, action := c.actionOf, resource := c.resourceOf }

def MemoryApprovals.approve (id approver : Bytes) :
    Except Bytes Unit × MemoryApprovals :=
  match m.lookup id with
  | none => (.error (str "toolguard: approval " ++ id ++ str " not found"), m)
  | some r => (.ok (), m.insert id { r with approved := true, approver })

def MemoryApprovals.consume (id : Bytes) (c : Call) : Option MemoryApprovals :=
  match m.lookup id with
  | none => none
  | some r =>
    if r.approved = false ∨ r.spent = true then none
    else if ¬ r.For c then none
    else some (m.insert id { r with spent := true })

/-- `configured` says that there is a policy source, `hasApprovals` an approval store. -/
structure Guard where
  configured : Bool := true
  evaluator : Evaluator := {}
  hasApprovals : Bool := true
  beforeAuthorize : Option Runner := none

/-- With the approval id on its context, and what is answered while it is decided. -/
structure Attempt where
  call : Call
  approvalID : Bytes := []
  wall : Time := 0
  limit : Option LimitError := none
  policies : Except Bytes (List (Option Policy))
  tracked : Provenance := ∅
  subjectError : Option Bytes := none
  badArguments : Bool := false
  answer : HookAnswer := .failed true
  random : Except Bytes Bytes

structure Decided where
  provenance : Provenance := ∅
  decision : Option Decision := none
  hook : Option Outcome := none
  result : Except GuardError Unit
  approvals : MemoryApprovals

def Attempt.attributes (a : Attempt) : Attributes :=
  (a.call.attributes.insert (str "agent_id") a.call.agentID).insert (str "tool") a.call.tool

def Attempt.provenance (a : Attempt) : Provenance := mergeProvenance [a.call.provenance, a.tracked]

variable (a : Attempt)

def Attempt.request : Request where
  action := a.call.actionOf
  resource := a.call.resourceOf
  attributes := a.attributes
  ip := []
  now := 0
  amount := a.call.amount
  currency := a.call.currency
  dataClass := a.call.dataClass
  irreversible := a.call.irreversible
  provenance := a.provenance

variable (d : Decision)

def escalationOf : Escalation := d.escalation.getD ⟨[], .approval, d.reason⟩

def Attempt.approvalRequired : ApprovalRequired where
  tool := a.call.tool
  agentID := a.call.agentID
  reason := d.reason
  tier := (escalationOf d).tier
  requirement := (escalationOf d).requirement
  code := d.code

def Attempt.openRequest (e : ApprovalRequired) (m : MemoryApprovals) :
    Except GuardError Unit × MemoryApprovals :=
  match a.random with
  | .error text =>
    (.error (guardFailed .policyIndeterminate
      (str "open approval: toolguard: generate approval id: " ++ text)), m)
  | .ok b =>
    (.error (.approvalRequired { e with approvalID := hexEncode b }), m.open (hexEncode b) a.call)

def Guard.escalate (g : Guard) (a : Attempt) (d : Decision) (m : MemoryApprovals) :
    Except GuardError Unit × MemoryApprovals :=
  let e := a.approvalRequired d
  if g.hasApprovals = false then (.error (.approvalRequired e), m)
  else if a.approvalID ≠ [] ∧ (escalationOf d).requirement = .approval then
    match m.consume a.approvalID a.call with
    | some spent => (.ok (), spent)
    | none => a.openRequest { e with code := .approvalInvalid } m
  else a.openRequest e m

section

variable [StdLib] (g : Guard)

def Guard.loaded (a : Attempt) : Except GuardError (List (Option Policy)) :=
  if g.configured = false then
    .error (guardFailed .policyIndeterminate (str "no policy source configured"))
  else if a.call.agentID = [] then
    .error (guardFailed .policyIndeterminate
      (str "no agent id for tool " ++ StdLib.quote a.call.tool))
  else match a.limit with
  | some e =>
    .error (guardFailed (limitCode e)
      (str "limit for agent " ++ a.call.agentID ++ str ": " ++ e.text))
  | none =>
    a.policies.mapError fun e => guardFailed .policyIndeterminate
      (str "load policies for agent " ++ a.call.agentID ++ str ": " ++ e)

def Guard.decisionOn (a : Attempt) (policies : List (Option Policy)) : Decision :=
  g.evaluator.evaluate a.wall a.request policies

def Attempt.refusal : GuardError :=
  match d.taint with
  | some v =>
    if v.verdict = .deny then .taintViolation a.call.tool a.call.agentID d.reason v d.code
    else .denied a.call.tool a.call.agentID d.reason d.code
  | none => .denied a.call.tool a.call.agentID d.reason d.code

def Guard.evaluate (a : Attempt) (m : MemoryApprovals) : Decided :=
  match g.loaded a with
  | .error e => { result := .error e, approvals := m }
  | .ok policies =>
    let d := g.decisionOn a policies
    let decided : Decided :=
      { provenance := a.provenance, decision := some d, result := .ok (), approvals := m }
    match d.effect with
    | .allow => decided
    | .escalate =>
      if g.beforeAuthorize.isSome then decided
      else
        let (result, approvals) := g.escalate a d m
        { decided with result, approvals }
    | _ => { decided with result := .error (a.refusal d) }

def Attempt.outcome (r : Runner) : Outcome :=
  if a.badArguments then
    { decision := .deny, code := some .hookError, reason := str "beforeAuthorize hook failed" }
  else r.run a.answer

def escalatedByHook (out : Outcome) : Decision :=
  if d.effect = .escalate then d
  else
    { d with
      effect := .escalate
      allowed := false
      code := .approvalRequired
      reason := out.reason
      escalation := some ⟨[], .approval, out.reason⟩ }

def Guard.applyHook (r : Runner) (a : Attempt) (d : Decision) (decided : Decided) :
    Decided :=
  match decided.result, a.subjectError with
  | .error _, _ => decided
  | .ok (), some e =>
    { decided with result := .error (guardFailed .policyIndeterminate
      (str "describe agent " ++ a.call.agentID ++ str " for the hook: " ++ e)) }
  | .ok (), none =>
    let out := a.outcome r
    match out.decision with
    | .allow =>
      if d.effect = .escalate then
        let (result, approvals) := g.escalate a d decided.approvals
        { decided with hook := some out, result, approvals }
      else { decided with hook := some out }
    | .escalate =>
      let d := escalatedByHook d out
      let (result, approvals) := g.escalate a d decided.approvals
      { decided with decision := some d, hook := some out, result, approvals }
    | _ =>
      let code := out.code.getD .hookError
      { decided with
        decision := some { d with
          effect := .deny, allowed := false, code, reason := out.reason, escalation := none }
        hook := some out
        result := .error (.denied a.call.tool a.call.agentID out.reason code) }

/-- And `Guard.Authorize`: a wrapped tool runs exactly when there is no error. -/
def Guard.authorize (a : Attempt) (m : MemoryApprovals) : Decided :=
  let decided := g.evaluate a m
  match decided.decision, g.beforeAuthorize with
  | some d, some r =>
    if d.effect ≠ .allow ∧ d.effect ≠ .escalate then decided
    else g.applyHook r a d decided
  | _, _ => decided

end

end TheAuth.Policy.ToolGuard
