import TheAuth.Go.Json
import TheAuth.Library.Grouping
import TheAuth.Policy.Evaluate

/-!
# Shrinking the permissions of an agent

The rows of an agent's recorded decisions are attributed to its grants, the unused grants are
proposed for removal, and the rows are replayed against the proposal. Permissions are compared by
texts, and siblings are grouped by such keys.
-/

set_option autoImplicit false

namespace TheAuth.Policy.Shrink

open Go Library.Grouping

/-- A recorded decision. -/
structure DecisionRow where
  id : Bytes := []
  (action resource result : Bytes)
  reason : Bytes := []
  timestamp : Time := 0
  delegationChain : List Bytes := []

inductive RowClass where
  | internal | allow | denyNoGrant | denyOther
  deriving DecidableEq

def internalActions : List Bytes :=
  [str "agent.cascade.revoked", str "delegation.create", str "delegation.granted",
    str "delegation.revoked", str "approval.request", str "approval.decided"]

def noGrantReasons : List Bytes :=
  [str "no matching allow statement", str "no permission grants",
    str "policy_no_matching_permission"]

def classify [CaseLib] (r : DecisionRow) : RowClass :=
  if (str "audit.").isPrefixOf r.action then .internal
  else if internalActions.contains r.action then .internal
  else if r.result = str "allowed" then .allow
  else if r.result = str "denied" ∧
      noGrantReasons.any fun p => p.isPrefixOf (CaseLib.toLower r.reason) then .denyNoGrant
  else .denyOther

/-- One action on one resource. -/
structure Permission where
  (action resource : Bytes)
  conditions : List Condition := []
  deriving DecidableEq

inductive SourceKind where
  | own | delegation
  deriving DecidableEq

structure Origin where
  kind : SourceKind := .own
  (policyID statementID chainID : Bytes := [])

/-- A permission and where it comes from. -/
structure Grant where
  permission : Permission
  source : Origin := {}

def conditionJSON (c : Condition) : Bytes :=
  jsonObject ([(str "op", jsonString c.op.text)] ++
    (if c.key = [] then [] else [(str "key", jsonString c.key)]) ++
      [(str "values", jsonArray (c.values.map jsonString))])

def extrasKey (p : Permission) : Bytes :=
  if p.conditions.length = 0 then str "null" else jsonArray (p.conditions.map conditionJSON)

def atomKey (p : Permission) : Bytes := p.resource ++ 0 :: (p.action ++ 0 :: extrasKey p)

def Permission.covers (p : Permission) (action resource : Bytes) : Bool :=
  globMatch p.action action && globMatch p.resource resource

def covers (outer inner : Permission) : Bool := outer.covers inner.action inner.resource

def firstMatch (perms : List Permission) (action resource : Bytes) : Option ℕ :=
  perms.findIdx? fun p => p.covers action resource

def statementKey (p : Permission) : Bytes := p.resource ++ 0 :: extrasKey p

def Permission.statement (p : Permission) : Statement where
  id := []
  effect := .allow
  actions := [p.action]
  resources := [p.resource]
  conditions := p.conditions
  tier := []
  require := .zero

def addAction (s : Statement) (action : Bytes) : Statement :=
  { s with actions := if s.actions.contains action then s.actions else s.actions ++ [action] }

def statements (perms : List Permission) : List Statement :=
  (groupBy statementKey Permission.statement (fun s p => addAction s p.action) perms).map Prod.snd

def policyOf (list : List Statement) : Policy := ⟨policyVersion, [], list⟩

def statementGrants (policyID : Bytes) (s : Statement) (i : ℕ) : List Grant :=
  let id := if s.id = [] then str "statement-" ++ str (toString i) else s.id
  s.resources.flatMap fun res => s.actions.map fun act =>
    ⟨⟨act, res, s.conditions⟩, { kind := .own, policyID, statementID := id }⟩

def addGrant (out : List Grant) (g : Grant) : List Grant :=
  if out.any fun other => atomKey other.permission == atomKey g.permission then out else out ++ [g]

def policyGrants (pols : List (Option Policy)) : List Grant :=
  (pols.flatMap fun p => p.elim [] fun p =>
    p.statements.zipIdx.flatMap fun (s, i) =>
      if s.effect ≠ .allow then [] else statementGrants p.id s i).foldl addGrant []

structure Pair where
  (action resource : Bytes)
  deriving DecidableEq

structure Evidence where
  (rowsScanned allowedRows noGrantDenials otherDenials internalRows uncoveredAllows : ℕ := 0)

def distinctCap : ℕ := 5000

structure UseState where
  count : ℕ
  (first last : Time)
  chains : List Bytes

/-- The counts while rows are read. -/
structure UsageAccumulator where
  agentID : Bytes
  (since until_ : Time)
  grants : List Grant
  used : GoMap ℕ UseState := ∅
  attempted : List ℕ := []
  denied : List Pair := []
  uncovered : GoMap Pair ℕ := ∅
  ev : Evidence := {}

variable (u : UsageAccumulator)

def UsageAccumulator.perms : List Permission := u.grants.map (·.permission)

def addTo {α : Type} [DecidableEq α] (set : List α) (value : α) : List α :=
  if value ∈ set then set else set ++ [value]

def UseState.record (s : UseState) (r : DecisionRow) (source : Origin) : UseState where
  count := s.count + 1
  first := if r.timestamp < s.first then r.timestamp else s.first
  last := if s.last < r.timestamp then r.timestamp else s.last
  chains :=
    let own := if source.chainID = [] then s.chains else addTo s.chains source.chainID
    if source.kind = .delegation then r.delegationChain.foldl addTo own else own

namespace UsageAccumulator

def tally (change : Evidence → Evidence) : UsageAccumulator :=
  { u with ev := change u.ev }

def addUncovered (p : Pair) : UsageAccumulator :=
  { u with
    uncovered :=
      if (u.uncovered.lookup p).isSome ∨ u.uncovered.entries.length < distinctCap then
        u.uncovered.insert p ((u.uncovered.lookup p).getD 0 + 1)
      else u.uncovered
    ev := { u.ev with uncoveredAllows := u.ev.uncoveredAllows + 1 } }

def addUse (r : DecisionRow) (i : ℕ) : UsageAccumulator :=
  let old := (u.used.lookup i).getD ⟨0, r.timestamp, r.timestamp, []⟩
  let source := (u.grants[i]?.map (·.source)).getD {}
  { u with used := u.used.insert i (old.record r source) }

def addAllowed (r : DecisionRow) : UsageAccumulator :=
  match firstMatch u.perms r.action r.resource with
  | none => u.addUncovered ⟨r.action, r.resource⟩
  | some i => u.addUse r i

def addDenied (p : Pair) : UsageAccumulator :=
  { u with denied := if u.denied.length < distinctCap then addTo u.denied p else u.denied }

def addAttempt (r : DecisionRow) : UsageAccumulator :=
  match firstMatch u.perms r.action r.resource with
  | none => u
  | some i => { u with attempted := addTo u.attempted i }

def add [CaseLib] (u : UsageAccumulator) (r : DecisionRow) : UsageAccumulator :=
  let u := u.tally fun ev => { ev with rowsScanned := ev.rowsScanned + 1 }
  match classify r with
  | .internal => u.tally fun ev => { ev with internalRows := ev.internalRows + 1 }
  | .denyNoGrant =>
    (u.tally fun ev => { ev with noGrantDenials := ev.noGrantDenials + 1 }).addDenied
      ⟨r.action, r.resource⟩
  | .denyOther => (u.tally fun ev => { ev with otherDenials := ev.otherDenials + 1 }).addAttempt r
  | .allow => (u.tally fun ev => { ev with allowedRows := ev.allowedRows + 1 }).addAllowed r

end UsageAccumulator

structure UsedPermission where
  permission : Permission
  count : ℕ
  (firstSeen lastSeen : Time := 0)
  via : List Bytes := []
  deriving DecidableEq

/-- Which grants were used. -/
structure UsageAnalysis where
  agentID : Bytes := []
  (since until_ : Time := 0)
  grants : List Grant
  used : List UsedPermission := []
  (unused attemptedOnly : List Permission := [])
  deniedNoGrant : List Pair := []
  uncovered : List (Pair × ℕ) := []
  evidence : Evidence := {}

def UsageAnalysis.granted (a : UsageAnalysis) : List Permission := a.grants.map (·.permission)

def pairLE (a b : Pair) : Bool :=
  decide (a.resource < b.resource) || (a.resource == b.resource && decide (a.action ≤ b.action))

def UseState.entry (s : UseState) (p : Permission) : UsedPermission :=
  ⟨p, s.count, s.first, s.last, s.chains.mergeSort fun a b => decide (a ≤ b)⟩

def UsageAccumulator.finish : UsageAnalysis :=
  let indexed := u.grants.zipIdx
  let idle := indexed.filter fun (_, i) => (u.used.lookup i).isNone
  { agentID := u.agentID
    since := u.since
    until_ := u.until_
    grants := u.grants
    used := indexed.filterMap fun (g, i) => (u.used.lookup i).map (·.entry g.permission)
    attemptedOnly := (idle.filter fun (_, i) => u.attempted.contains i).map (·.1.permission)
    unused := (idle.filter fun (_, i) => !u.attempted.contains i).map (·.1.permission)
    deniedNoGrant := u.denied.mergeSort pairLE
    uncovered := (u.uncovered.entries.map fun entry => (entry.1, entry.2)).mergeSort fun a b =>
      pairLE a.1 b.1
    evidence := u.ev }

def analyze [CaseLib] (agentID : Bytes) (grants : List Grant) (since until_ : Time)
    (rows : List DecisionRow) : UsageAnalysis :=
  (rows.foldl .add { agentID, since, until_, grants : UsageAccumulator }).finish

structure Options where
  minObservations : Int := 0
  generalize : Bool := false
  generalizeMin : Int := 0

structure Rewrite where
  from_ : List Permission
  to_ : Permission
  deriving DecidableEq

/-- What to keep, and what not. -/
structure Suggestion where
  (keep remove : List Permission)
  rewrites : List Rewrite

def colon : UInt8 := 0x3A

def isSpecial (c : UInt8) : Bool := c == starByte || c == backslash || c == openBrace

def parentOf (resource : Bytes) : Bytes :=
  if resource.any isSpecial then []
  else ((resource.reverse.dropWhile (· != colon)).drop 1).reverse

structure Group where
  (parent action : Bytes)
  extras : Permission
  indexes : List ℕ

def groupKey (p : Permission) : Bytes := parentOf p.resource ++ 0 :: (p.action ++ 0 :: extrasKey p)

def mergeable (observed : List Bytes) (p : Permission) : Bool :=
  observed.contains (atomKey p) && !(parentOf p.resource).isEmpty

def siblings (kept : List Permission) (observed : List Bytes) : List (Bytes × Group) :=
  groupBy (fun (p, _) => groupKey p) (fun (p, i) => ⟨parentOf p.resource, p.action, p, [i]⟩)
    (fun g (_, i) => { g with indexes := g.indexes ++ [i] })
    (kept.zipIdx.filter fun (p, _) => mergeable observed p)

def Group.wildcard (g : Group) : Permission :=
  ⟨g.action, g.parent ++ [colon, starByte], g.extras.conditions⟩

def Options.groupMin (opts : Options) : Int :=
  max 2 (if opts.generalizeMin = 0 then 3 else opts.generalizeMin)

/-- Large enough, a grant covers the wildcard, and it covers no call that was denied for lack of a
grant. -/
def Group.merges (a : UsageAnalysis) (opts : Options) (g : Group) : Bool :=
  decide (opts.groupMin ≤ g.indexes.length) &&
    (a.granted.any fun gr => Shrink.covers gr g.wildcard) &&
      !a.deniedNoGrant.any fun d => g.wildcard.covers d.action d.resource

def rewritten (merged : List Group) (entry : Permission × ℕ) : Option Permission :=
  let (p, i) := entry
  if merged.any fun g => g.indexes.tail.contains i then none
  else some ((merged.find? fun g => g.indexes.head? = some i).elim p Group.wildcard)

def mergedGroups (a : UsageAnalysis) (kept : List Permission) (observed : List Bytes)
    (opts : Options) : List Group :=
  ((siblings kept observed).map Prod.snd).filter (Group.merges a opts)

def generalize (a : UsageAnalysis) (kept : List Permission) (observed : List Bytes)
    (opts : Options) : List Permission × List Rewrite :=
  let merged := mergedGroups a kept observed opts
  (kept.zipIdx.filterMap (rewritten merged),
    merged.map fun g => ⟨g.indexes.filterMap (kept[·]?), g.wildcard⟩)

def usedCount (a : UsageAnalysis) : GoMap Bytes ℕ :=
  a.used.foldl (fun m u => m.insert (atomKey u.permission) u.count) ∅

def isObserved (a : UsageAnalysis) (opts : Options) (p : Permission) : Bool :=
  decide (max 1 opts.minObservations ≤ ((usedCount a).lookup (atomKey p)).getD 0)

def isKept (a : UsageAnalysis) (opts : Options) (p : Permission) : Bool :=
  isObserved a opts p || (a.attemptedOnly.map atomKey).contains (atomKey p)

def suggestShrink (a : UsageAnalysis) (opts : Options) : Suggestion :=
  let kept := a.granted.filter (isKept a opts)
  let removed := a.granted.filter fun p => !isKept a opts p
  let observed := (a.granted.filter (isObserved a opts)).map atomKey
  if opts.generalize then
    let (kept, rewrites) := generalize a kept observed opts
    ⟨kept, removed, rewrites⟩
  else ⟨kept, removed, []⟩

structure RowRef where
  (id action resource : Bytes)
  timestamp : Time

def ref (r : DecisionRow) : RowRef := ⟨r.id, r.action, r.resource, r.timestamp⟩

structure BlastRadius where
  (replayedAllows stillAllowed newlyDeniedCount : ℕ := 0)
  newlyDenied : List RowRef := []
  wouldAlsoAllowCount : ℕ := 0
  wouldAlsoAllow : List RowRef := []
  ignoredRows : ℕ := 0
  perPermission : List (Permission × ℕ) := []
  truncated : Bool := false

/-- The counts of a replay. -/
structure Replay where
  proposed : List Permission
  max : ℕ
  report : BlastRadius

namespace Replay

def deny (r : Replay) (row : DecisionRow) (rep : BlastRadius) : BlastRadius :=
  let rep := { rep with newlyDeniedCount := rep.newlyDeniedCount + 1 }
  if rep.newlyDenied.length < r.max then
    { rep with newlyDenied := rep.newlyDenied ++ [ref row] }
  else { rep with truncated := true }

def alsoAllow (r : Replay) (row : DecisionRow) (rep : BlastRadius) : BlastRadius :=
  let rep := { rep with wouldAlsoAllowCount := rep.wouldAlsoAllowCount + 1 }
  if rep.wouldAlsoAllow.length < r.max then
    { rep with wouldAlsoAllow := rep.wouldAlsoAllow ++ [ref row] }
  else { rep with truncated := true }

def keep (rep : BlastRadius) (hit : ℕ) : BlastRadius :=
  { rep with
    stillAllowed := rep.stillAllowed + 1
    perPermission := rep.perPermission.modify hit fun (p, n) => (p, n + 1) }

def add [CaseLib] (r : Replay) (row : DecisionRow) : Replay :=
  let hit := firstMatch r.proposed row.action row.resource
  { r with
    report :=
      match classify row with
      | .internal | .denyOther => { r.report with ignoredRows := r.report.ignoredRows + 1 }
      | .allow =>
        let rep := { r.report with replayedAllows := r.report.replayedAllows + 1 }
        match hit with
        | some i => keep rep i
        | none => r.deny row rep
      | .denyNoGrant => if hit.isSome then r.alsoAllow row r.report else r.report }

end Replay

end TheAuth.Policy.Shrink
