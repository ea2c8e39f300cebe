import TheAuth.Policy.Matching

/-!
# Taint rules

A taint rule names the tools it guards and the labels that must not, or must, reach them. One
violation of a denying rule makes the verdict a denial, any other violation an escalation.
-/

set_option autoImplicit false

namespace TheAuth.Policy

open Go

def callLabelsKey : Bytes := str "*"

inductive UnlabeledMode where
  | allow | violate
  | other (text : Bytes) (unknown : text ∉ [str "allow", str "violate"])
  deriving DecidableEq

structure ArgRule where
  (forbid require : List Bytes)

/-- Where tainted arguments may go. -/
structure TaintRule where
  (id resource : Bytes)
  (actions forbid require : List Bytes)
  args : GoMap Bytes ArgRule
  effect : Effect
  tier : Bytes
  unlabeled : UnlabeledMode

inductive Verdict where
  | clean | escalate | deny
  deriving DecidableEq

def Verdict.text : Verdict → Bytes
  | .clean => str "clean"
  | .escalate => str "escalate"
  | .deny => str "deny"

inductive TaintKind where
  | forbid | require
  deriving DecidableEq

structure TaintMatch where
  rule : Bytes
  kind : TaintKind
  arg : Bytes
  labels : List Bytes
  effect : Effect

structure TaintVerdict where
  verdict : Verdict
  found : List TaintMatch
  labels : GoMap Bytes (List Bytes)

def sortStrings (list : List Bytes) : List Bytes := list.mergeSort fun a b => decide (a ≤ b)

def joinStrings (parts : List Bytes) (separator : Bytes) : Bytes := separator.intercalate parts

def matchLabel (pattern label : Bytes) : Bool :=
  if pattern = str "*" then true
  else if pattern.getLast? = some starByte then pattern.dropLast.isPrefixOf label
  else pattern == label

def appendNew (list : List Bytes) (l : Bytes) : List Bytes :=
  if list.contains l then list else list ++ [l]

def cleanLabels (labels : List Bytes) : List Bytes :=
  labels.foldl (fun clean l => if l.isEmpty then clean else appendNew clean l) []

def normalizeProvenance (raw : GoMap Bytes (List Bytes)) : Option (GoMap Bytes (List Bytes)) :=
  raw.entries.foldl (fun out entry =>
    let clean := cleanLabels entry.2
    if clean.isEmpty then out
    else some ((out.getD ∅).insert entry.1 (sortStrings clean))) none

variable (r : TaintRule)

def TaintRule.effectOf : Effect := if r.effect = .deny then .deny else .escalate

def TaintRule.idOf (i : Nat) : Bytes :=
  if r.id ≠ [] then r.id else str (toString i)

def checkLabels (id arg : Bytes) (labels : List Bytes) (spec : ArgRule) :
    List TaintMatch :=
  let bad := labels.filter fun l => spec.forbid.any fun p => matchLabel p l
  let missing := spec.require.filter fun p => !labels.any fun l => matchLabel p l
  (if bad.isEmpty then [] else [⟨id, .forbid, arg, bad, r.effectOf⟩]) ++
    if labels.isEmpty ∧ r.unlabeled ≠ .violate then []
    else if missing.isEmpty then [] else [⟨id, .require, arg, missing, r.effectOf⟩]

def TaintRule.applies (req : Request) : Bool :=
  globMatch r.resource req.resource &&
    (r.actions.isEmpty || r.actions.any fun p => globMatch p req.action)

variable (prov : Option (GoMap Bytes (List Bytes)))

def labelsOf (arg : Bytes) : List Bytes := (prov.bind fun labels => labels.lookup arg).getD []

def allLabels : List Bytes :=
  sortStrings
    ((prov.elim [] fun labels => labels.entries.flatMap fun entry => entry.2).foldl appendNew [])

def argLabels (arg : Bytes) : List Bytes :=
  sortStrings ((labelsOf prov callLabelsKey).foldl appendNew (labelsOf prov arg))

def ruleMatches (req : Request) (r : TaintRule) (i : Nat) : List TaintMatch :=
  if !r.applies req then []
  else if prov.isNone ∧ r.unlabeled ≠ .violate then []
  else
    checkLabels r (r.idOf i) callLabelsKey (allLabels prov) ⟨r.forbid, r.require⟩ ++
      (sortStrings r.args.keys).flatMap fun n =>
        checkLabels r (r.idOf i) n (argLabels prov n) ((r.args.lookup n).getD ⟨[], []⟩)

def verdictOf (found : List TaintMatch) : Verdict :=
  if found.isEmpty then .clean
  else if found.any fun m => m.effect == .deny then .deny
  else .escalate

def evaluateTaint (taint : List TaintRule) (req : Request) : Option TaintVerdict :=
  let prov := normalizeProvenance req.provenance
  let found := taint.zipIdx.flatMap fun (r, i) => ruleMatches prov req r i
  if prov.isNone ∧ found.isEmpty then none
  else some ⟨verdictOf found, found, prov.getD ∅⟩

def taintTier (taint : List TaintRule) (v : TaintVerdict) : Bytes :=
  match v.found.find? fun m => m.effect.text == v.verdict.text with
  | none => str "taint"
  | some m =>
    match taint.zipIdx.find? fun (r, i) => r.idOf i == m.rule && !r.tier.isEmpty with
    | none => str "taint"
    | some (r, _) => r.tier

def describeTaint (v : TaintVerdict) : Bytes :=
  let part (m : TaintMatch) : Bytes :=
    (if m.kind = .require then str "missing" else str "forbidden") ++ str " " ++
      joinStrings m.labels (str ",") ++ str " on " ++ m.arg
  str "taint: " ++ joinStrings (v.found.map part) (str "; ")

end TheAuth.Policy
