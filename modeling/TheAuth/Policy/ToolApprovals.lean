import Mathlib.Data.List.Induction
import TheAuth.Policy.ToolGuard

/-!
# When a guarded tool runs

`authorized_authorize` lists the ways in which a guarded call ends, with what each does to the
approvals. An approval is spent by the call it permits and by nothing else, and along a run no id
permits two calls.
-/

set_option autoImplicit false

namespace TheAuth.Policy.ToolGuard

open Go TheAuth.Policy List GoMap

/-- The hook, if there is one, allows the call or escalates it. -/
def Guard.LetsThrough (g : Guard) (a : Attempt) : Prop :=
  ∀ r, g.beforeAuthorize = some r →
    (a.outcome r).decision = .allow ∨ (a.outcome r).decision = .escalate

theorem MemoryApprovals.consume_eq_some {m spent : MemoryApprovals} {id : Bytes} {c : Call}
    (done : m.consume id c = some spent) :
    ∃ r, m.lookup id = some r ∧ r.approved = true ∧ r.spent = false ∧ r.For c ∧
      spent = m.insert id { r with spent := true } := by
  unfold MemoryApprovals.consume at done
  cases found : m.lookup id with
  | none =>
    rw [found] at done
    cases done
  | some r =>
    rw [found] at done
    dsimp only at done
    split at done
    · cases done
    rename_i free
    rw [not_or, Bool.not_eq_false, Bool.not_eq_true] at free
    split at done
    · cases done
    rename_i own
    exact ⟨r, rfl, free.1, free.2, not_not.mp own, (Option.some.inj done).symm⟩

/-- What an escalation answers and leaves in the store. -/
inductive Escalated (a : Attempt) (d : Decision) (m : MemoryApprovals) :
    Except GuardError Unit → MemoryApprovals → Prop where
  | refused (e : GuardError) : Escalated a d m (.error e) m
  | opened (e : ApprovalRequired) (b : Bytes) (drawn : a.random = .ok b)
      (named : e.approvalID = hexEncode b) :
      Escalated a d m (.error (.approvalRequired e)) (m.open (hexEncode b) a.call)
  | spent (r : MemRequest) (needed : (escalationOf d).requirement = .approval)
      (found : m.lookup a.approvalID = some r) (approved : r.approved = true)
      (unspent : r.spent = false) (own : r.For a.call) :
      Escalated a d m (.ok ()) (m.insert a.approvalID { r with spent := true })

theorem escalated_openRequest (a : Attempt) (d : Decision) (e : ApprovalRequired)
    (m : MemoryApprovals) : Escalated a d m (a.openRequest e m).1 (a.openRequest e m).2 := by
  unfold Attempt.openRequest
  split
  next => exact .refused _
  next b drawn => exact .opened _ b drawn rfl

theorem escalated_escalate (g : Guard) (a : Attempt) (d : Decision) (m : MemoryApprovals) :
    Escalated a d m (g.escalate a d m).1 (g.escalate a d m).2 := by
  unfold Guard.escalate
  split
  · exact .refused _
  split
  next presented =>
    split
    next consumed =>
      obtain ⟨r, found, approved, unspent, own, rfl⟩ := MemoryApprovals.consume_eq_some consumed
      exact .spent r presented.2 found approved unspent own
    · exact escalated_openRequest a d _ m
  · exact escalated_openRequest a d _ m

section

variable [StdLib]

/-- That of the policies, or the one the hook makes of an allowance. -/
inductive EscalatedBy (g : Guard) (a : Attempt) (policies : List (Option Policy)) :
    Decision → Prop where
  | policy (escalates : (g.decisionOn a policies).effect = .escalate) :
      EscalatedBy g a policies (g.decisionOn a policies)
  | hook (allows : (g.decisionOn a policies).effect = .allow) (r : Runner)
      (set : g.beforeAuthorize = some r) (escalates : (a.outcome r).decision = .escalate) :
      EscalatedBy g a policies (escalatedByHook (g.decisionOn a policies) (a.outcome r))

/-- What a call of the guard answers and leaves in the store. -/
inductive Authorized (g : Guard) (a : Attempt) (m : MemoryApprovals) :
    Except GuardError Unit → MemoryApprovals → Prop where
  | refused (e : GuardError) : Authorized g a m (.error e) m
  | allowed (policies : List (Option Policy)) (loaded : g.loaded a = .ok policies)
      (allows : (g.decisionOn a policies).effect = .allow)
      (hook : ∀ r, g.beforeAuthorize = some r → (a.outcome r).decision = .allow) :
      Authorized g a m (.ok ()) m
  | escalated (policies : List (Option Policy)) (loaded : g.loaded a = .ok policies) (d : Decision)
      (by_ : EscalatedBy g a policies d) (hook : g.LetsThrough a)
      {result : Except GuardError Unit} {after : MemoryApprovals}
      (ended : Escalated a d m result after) : Authorized g a m result after

variable {a : Attempt} {g : Guard} {policies : List (Option Policy)}

theorem authorized_applyHook {r : Runner} (decided : Decided)
    (set : g.beforeAuthorize = some r) (loaded : g.loaded a = .ok policies)
    (passes : (g.decisionOn a policies).effect = .allow ∨
      (g.decisionOn a policies).effect = .escalate) (fine : decided.result = .ok ()) :
    Authorized g a decided.approvals
      (g.applyHook r a (g.decisionOn a policies) decided).result
      (g.applyHook r a (g.decisionOn a policies) decided).approvals := by
  unfold Guard.applyHook
  rw [fine]
  split
  next failed => cases failed
  · exact .refused _
  dsimp only
  split
  next allow =>
    have own : ∀ r', g.beforeAuthorize = some r' → (a.outcome r').decision = .allow :=
      fun r' same => Option.some.inj (set.symm.trans same) ▸ allow
    split
    next escalates =>
      exact .escalated policies loaded _ (.policy escalates) (fun r' same => .inl (own r' same))
        (escalated_escalate g a _ _)
    rename_i other
    exact .allowed policies loaded (passes.resolve_right other) own
  next escalate =>
    refine .escalated policies loaded _ ?_
      (fun r' same => .inr (Option.some.inj (set.symm.trans same) ▸ escalate))
      (escalated_escalate g a _ _)
    by_cases escalates : (g.decisionOn a policies).effect = .escalate
    · rw [escalatedByHook, if_pos escalates]
      exact .policy escalates
    · exact .hook (passes.resolve_right escalates) r set escalate
  · exact .refused _

theorem authorized_authorize (g : Guard) (a : Attempt) (m : MemoryApprovals) :
    Authorized g a m (g.authorize a m).result (g.authorize a m).approvals := by
  unfold Guard.authorize Guard.evaluate
  cases loaded : g.loaded a with
  | error e => exact .refused e
  | ok policies =>
    dsimp only
    cases set : g.beforeAuthorize with
    | none =>
      cases effect : (g.decisionOn a policies).effect with
      | allow => exact .allowed policies loaded effect (by rw [set]; exact nofun)
      | deny | other => exact .refused _
      | escalate =>
        exact .escalated policies loaded _ (.policy effect)
          (by rw [Guard.LetsThrough, set]; exact nofun) (escalated_escalate g a _ m)
    | some =>
      let passed : Decided :=
        { provenance := a.provenance
          decision := some (g.decisionOn a policies)
          result := .ok ()
          approvals := m }
      cases effect : (g.decisionOn a policies).effect with
      | allow =>
        dsimp only
        rw [if_neg (by simp [effect])]
        exact authorized_applyHook passed set loaded (.inl effect) rfl
      | deny | other =>
        dsimp only
        rw [if_pos (by simp [effect])]
        exact .refused _
      | escalate =>
        rw [if_pos (Option.isSome_some)]
        dsimp only
        rw [if_neg (by simp [effect])]
        exact authorized_applyHook passed set loaded (.inr effect) rfl

/-! ## Runs -/

/-- A call, or an answer to an approval. -/
inductive Event where
  | call (g : Guard) (a : Attempt)
  | approve (id approver : Bytes)

def Event.apply (m : MemoryApprovals) : Event → MemoryApprovals
  | .call g a => (g.authorize a m).approvals
  | .approve id approver => (m.approve id approver).2

/-- The approvals after the events. -/
def afterEvents (events : List Event) : MemoryApprovals := events.foldl Event.apply ∅

def Event.drawn : Event → Option Bytes
  | .call _ a => a.random.toOption.map hexEncode
  | .approve _ _ => none

theorem afterEvents_concat (events : List Event) (e : Event) :
    afterEvents (events ++ [e]) = e.apply (afterEvents events) := by
  rw [afterEvents, foldl_append]
  rfl

/-- What one event makes of an approval. -/
inductive Moved (m : MemoryApprovals) (id : Bytes) : Event → Option MemRequest → Prop where
  | kept (event : Event) : Moved m id event (m.lookup id)
  | opened (g : Guard) (a : Attempt) (e : ApprovalRequired)
      (answered : (g.authorize a m).result = .error (.approvalRequired e))
      (named : e.approvalID = id) (drawn : (Event.call g a).drawn = some id) :
      Moved m id (.call g a)
        (some ⟨a.call.agentID, a.call.actionOf, a.call.resourceOf, false, false, []⟩)
  | approved (r : MemRequest) (found : m.lookup id = some r) (approver : Bytes) :
      Moved m id (.approve id approver) (some { r with approved := true, approver })
  | spent (g : Guard) (a : Attempt) (r : MemRequest) (presented : a.approvalID = id)
      (found : m.lookup id = some r) (done : (g.authorize a m).result = .ok ()) :
      Moved m id (.call g a) (some { r with spent := true })

theorem moved_apply (m : MemoryApprovals) (id : Bytes) (event : Event) :
    Moved m id event ((event.apply m).lookup id) := by
  cases event with
  | approve other approver =>
    rw [Event.apply, MemoryApprovals.approve]
    cases found : m.lookup other with
    | none => exact .kept _
    | some r =>
      rw [lookup_insert_eq]
      split
      next same =>
        subst same
        exact .approved r found approver
      · exact .kept _
  | call g a =>
    have ended := authorized_authorize g a m
    rw [Event.apply]
    generalize answered : (g.authorize a m).result = result at ended
    generalize (g.authorize a m).approvals = after at ended
    cases ended with
    | refused | allowed => exact .kept _
    | escalated _ _ _ _ _ ended =>
      cases ended with
      | refused => exact .kept _
      | opened e _ drawn named =>
        rw [MemoryApprovals.open, lookup_insert_eq]
        split
        next same =>
          refine .opened g a e answered (named.trans same.symm) ?_
          rw [Event.drawn, drawn, same]
          rfl
        · exact .kept _
      | spent r _ found =>
        rw [lookup_insert_eq]
        split
        next same =>
          subst same
          exact .spent g a r rfl found answered
        · exact .kept _

/-- Opened by a call that was answered with its id, and approved only by a human. -/
structure Trace (events : List Event) (id : Bytes) (r : MemRequest) : Prop where
  opened : ∃ front g a back e, events = front ++ .call g a :: back ∧
    (g.authorize a (afterEvents front)).result = .error (.approvalRequired e) ∧
      e.approvalID = id ∧ r.For a.call
  approved : r.approved = true → ∃ approver, .approve id approver ∈ events
  drawn : id ∈ events.filterMap Event.drawn

variable {events : List Event} {id : Bytes} {r : MemRequest}

theorem Trace.concat (trace : Trace events id r)
    (event : Event) : Trace (events ++ [event]) id r where
  opened := by
    obtain ⟨front, g, a, back, e, rfl, rest⟩ := trace.opened
    exact ⟨front, g, a, back ++ [event], e, by simp, rest⟩
  approved := fun approved => by
    obtain ⟨approver, listed⟩ := trace.approved approved
    exact ⟨approver, mem_append_left _ listed⟩
  drawn := by
    rw [filterMap_append]
    exact mem_append_left _ trace.drawn

theorem trace_of_lookup (events : List Event)
    (found : (afterEvents events).lookup id = some r) : Trace events id r := by
  induction events using reverseRecOn generalizing r with
  | nil => cases found
  | append_singleton events event ih =>
    rw [afterEvents_concat] at found
    have moved := moved_apply (afterEvents events) id event
    rw [found] at moved
    generalize now : some r = row at moved
    cases moved with
    | kept => exact (ih now.symm).concat event
    | opened g a e answered named drawn =>
      cases now
      refine ⟨⟨events, g, a, [], e, rfl, answered, named, rfl, rfl, rfl⟩, nofun, ?_⟩
      exact mem_filterMap.mpr ⟨_, mem_append_right _ mem_cons_self, drawn⟩
    | approved _ listed approver =>
      cases now
      have earlier := (ih listed).concat (.approve id approver)
      exact ⟨earlier.opened, fun _ => ⟨approver, by simp⟩, earlier.drawn⟩
    | spent g a _ _ listed =>
      cases now
      have earlier := (ih listed).concat (.call g a)
      exact ⟨earlier.opened, earlier.approved, earlier.drawn⟩

theorem spent_of_spent {front back : List Event}
    (distinct : ((front ++ back).filterMap Event.drawn).Nodup)
    (found : (afterEvents front).lookup id = some r) (spent : r.spent = true) :
    ∃ later, (afterEvents (front ++ back)).lookup id = some later ∧ later.spent = true := by
  induction back using reverseRecOn with
  | nil => exact ⟨r, by rwa [append_nil], spent⟩
  | append_singleton back event ih =>
    rw [← append_assoc, filterMap_append] at distinct
    obtain ⟨before, here, used⟩ := ih (nodup_append.mp distinct).1
    rw [← append_assoc, afterEvents_concat]
    have moved := moved_apply (afterEvents (front ++ back)) id event
    generalize (event.apply (afterEvents (front ++ back))).lookup id = row at moved
    cases moved with
    | kept => exact ⟨before, here, used⟩
    | opened g a _ _ _ drawn =>
      have seen := (trace_of_lookup _ here).drawn
      have again : id ∈ [Event.call g a].filterMap Event.drawn :=
        mem_filterMap.mpr ⟨_, mem_cons_self, drawn⟩
      exact absurd rfl ((nodup_append.mp distinct).2.2 id seen id again)
    | approved _ found =>
      cases here.symm.trans found
      exact ⟨_, rfl, used⟩
    | spent => exact ⟨_, rfl, rfl⟩

/-- The event spends the approval. -/
def Spends (events : List Event) (event : Event) (id : Bytes) : Prop :=
  (∃ r, (afterEvents events).lookup id = some r ∧ r.spent = false) ∧
    ∃ r, (afterEvents (events ++ [event])).lookup id = some r ∧ r.spent = true

/-! ## Permission -/

/-- The policies and the hook allow the call, or it spends an approval that was given for it. -/
inductive Permitted (events : List Event) (g : Guard) (a : Attempt) : Prop where
  | allowed (policies : List (Option Policy)) (loaded : g.loaded a = .ok policies)
      (allows : (g.decisionOn a policies).effect = .allow)
      (hook : ∀ r, g.beforeAuthorize = some r → (a.outcome r).decision = .allow)
  | approved (policies : List (Option Policy)) (loaded : g.loaded a = .ok policies)
      (escalated : (g.decisionOn a policies).effect = .escalate ∧
          (escalationOf (g.decisionOn a policies)).requirement = .approval ∨
        (g.decisionOn a policies).effect = .allow ∧
          ∃ r, g.beforeAuthorize = some r ∧ (a.outcome r).decision = .escalate)
      (hook : g.LetsThrough a)
      (r : MemRequest) (own : r.For a.call) (approved : r.approved = true)
      (trace : Trace events a.approvalID r) (spends : Spends events (.call g a) a.approvalID)

theorem EscalatedBy.cases {d : Decision}
    (by_ : EscalatedBy g a policies d) (needed : (escalationOf d).requirement = .approval) :
    (g.decisionOn a policies).effect = .escalate ∧
        (escalationOf (g.decisionOn a policies)).requirement = .approval ∨
      (g.decisionOn a policies).effect = .allow ∧
        ∃ r, g.beforeAuthorize = some r ∧ (a.outcome r).decision = .escalate := by
  cases by_ with
  | policy escalates => exact .inl ⟨escalates, needed⟩
  | hook allows r set escalates => exact .inr ⟨allows, r, set, escalates⟩

theorem permitted_of_ok
    (done : (g.authorize a (afterEvents events)).result = .ok ()) : Permitted events g a := by
  have ended := authorized_authorize g a (afterEvents events)
  generalize result : (g.authorize a (afterEvents events)).result = outcome at ended
  generalize left : (g.authorize a (afterEvents events)).approvals = after at ended
  cases ended with
  | refused => cases result.symm.trans done
  | allowed policies loaded allows hook => exact .allowed policies loaded allows hook
  | escalated policies loaded _ by_ hook ended =>
    cases ended with
    | refused | opened => cases result.symm.trans done
    | spent r needed found approved unspent own =>
      refine .approved policies loaded (by_.cases needed) hook r own approved
        (trace_of_lookup _ found) ⟨⟨r, found, unspent⟩, { r with spent := true }, ?_, rfl⟩
      rw [afterEvents_concat, Event.apply, left, lookup_insert_eq, if_pos rfl]

theorem permitted_of_spends {event : Event} (spends : Spends events event id) :
    ∃ g a, event = .call g a ∧ a.approvalID = id ∧
      (g.authorize a (afterEvents events)).result = .ok () := by
  obtain ⟨⟨_, before, unspent⟩, later, after, spent⟩ := spends
  rw [afterEvents_concat] at after
  have moved := moved_apply (afterEvents events) id event
  rw [after] at moved
  generalize now : some later = row at moved
  cases moved with
  | kept =>
    cases now.trans before
    cases unspent.symm.trans spent
  | opened =>
    cases now
    cases spent
  | approved _ found =>
    cases now
    cases before.symm.trans found
    cases unspent.symm.trans spent
  | spent g a _ presented _ done => exact ⟨g, a, rfl, presented, done⟩

/-- **When a guarded tool runs**, along any events. -/
theorem guarded_tool_runs_only_if_permitted :
    (∀ events g a, (g.authorize a (afterEvents events)).result = .ok () →
        Permitted events g a) ∧
      (∀ events event id, Spends events event id →
        ∃ g a, event = .call g a ∧ a.approvalID = id ∧
          (g.authorize a (afterEvents events)).result = .ok ()) ∧
      ∀ front first middle second id,
        ((front ++ first :: middle).filterMap Event.drawn).Nodup →
        Spends front first id → ¬ Spends (front ++ first :: middle) second id := by
  refine ⟨fun _ _ _ => permitted_of_ok, fun _ _ _ => permitted_of_spends, ?_⟩
  intro front first middle _ _ distinct spends again
  obtain ⟨-, _, found, spent⟩ := spends
  obtain ⟨⟨_, before, unspent⟩, -⟩ := again
  rw [show front ++ first :: middle = front ++ [first] ++ middle by simp] at distinct before
  obtain ⟨_, here, used⟩ := spent_of_spent distinct found spent
  cases here.symm.trans before
  cases used.symm.trans unspent

end

def escalatedCall (id : Bytes) : Attempt where
  call := { agentID := str "a", tool := str "pay" }
  approvalID := id
  wall := 1
  policies := .ok [some ⟨policyVersion, str "p",
    [⟨[], .escalate, [str "*"], [str "*"], [], [], .zero⟩]⟩]
  random := .ok [id.length.toUInt8]

def approvedEvents : List Event := [.call {} (escalatedCall []), .approve (str "00") (str "h")]

attribute [local instance] StdLib.refusing

theorem approved_retry_permitted_once :
    Permitted approvedEvents {} (escalatedCall (str "00")) ∧
      Spends approvedEvents (.call {} (escalatedCall (str "00"))) (str "00") ∧
      ¬ Spends (approvedEvents ++ [.call {} (escalatedCall (str "00"))])
        (.call {} (escalatedCall (str "00"))) (str "00") := by
  obtain ⟨permits, -, once⟩ := guarded_tool_runs_only_if_permitted
  have evaluated : (Guard.authorize {} (escalatedCall (str "00"))
      (afterEvents approvedEvents)).result.toOption = some () := by decide +kernel
  have done : (Guard.authorize {} (escalatedCall (str "00"))
      (afterEvents approvedEvents)).result = .ok () := by
    generalize (Guard.authorize {} (escalatedCall (str "00"))
      (afterEvents approvedEvents)).result = result at evaluated
    cases result with
    | error => cases evaluated
    | ok => rfl
  have spends : Spends approvedEvents (.call {} (escalatedCall (str "00"))) (str "00") := by
    constructor
    · exact ⟨⟨str "a", str "execute", str "tool:pay", true, false, str "h"⟩, by decide +kernel, rfl⟩
    · exact ⟨⟨str "a", str "execute", str "tool:pay", true, true, str "h"⟩, by decide +kernel, rfl⟩
  refine ⟨permits _ _ _ done, spends, once approvedEvents _ [] _ _ ?_ spends⟩
  decide +kernel

end TheAuth.Policy.ToolGuard
