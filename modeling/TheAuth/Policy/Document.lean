import TheAuth.Go.Lib
import TheAuth.Library.Result

/-!
# Policy documents

The constants of the source are constructors, and `other` holds a text that is none of them. The
evaluator reads any document; what it decides about an unknown effect is a fact about the evaluator
and not about valid documents.
-/

set_option autoImplicit false

set_option linter.dupNamespace false

namespace TheAuth.Policy

open Go List Library.Result

/-- What a statement does. -/
inductive Effect where
  | allow | deny | escalate
  | other (text : Bytes) (unknown : text ∉ [str "allow", str "deny", str "escalate"])
  deriving DecidableEq

def Effect.zero : Effect := .other [] (by decide)

def Effect.text : Effect → Bytes
  | .allow => str "allow"
  | .deny => str "deny"
  | .escalate => str "escalate"
  | .other text _ => text

def Effect.known : Effect → Bool
  | .other _ _ => false
  | _ => true

inductive Requirement where
  | none | approval | stepUp
  | other (text : Bytes) (unknown : text ∉ [str "none", str "approval", str "step_up"])
  deriving DecidableEq

def Requirement.zero : Requirement := .other [] (by decide)

def Requirement.text : Requirement → Bytes
  | .none => str "none"
  | .approval => str "approval"
  | .stepUp => str "step_up"
  | .other text _ => text

def opTexts : List Bytes :=
  [str "equals", str "not_equals", str "in", str "not_in", str "ip_cidr", str "not_ip_cidr",
    str "time_window", str "daily_window"]

inductive Op where
  | equals | notEquals | in_ | notIn | ipCIDR | notIPCIDR | timeWindow | dailyWindow
  | other (text : Bytes) (unknown : text ∉ opTexts)
  deriving DecidableEq

def Op.text : Op → Bytes
  | .equals => str "equals"
  | .notEquals => str "not_equals"
  | .in_ => str "in"
  | .notIn => str "not_in"
  | .ipCIDR => str "ip_cidr"
  | .notIPCIDR => str "not_ip_cidr"
  | .timeWindow => str "time_window"
  | .dailyWindow => str "daily_window"
  | .other text _ => text

/-- A test on an attribute. -/
structure Condition where
  op : Op
  key : Bytes
  values : List Bytes
  deriving DecidableEq

/-- Actions and resources with an effect. -/
structure Statement where
  id : Bytes
  effect : Effect
  (actions resources : List Bytes)
  conditions : List Condition
  tier : Bytes
  require : Requirement
  deriving DecidableEq

/-- A document of statements. -/
structure Policy where
  (version id : Bytes)
  statements : List Statement
  deriving DecidableEq

theorem ok_of_forM {α ε : Type} {check : α → Except ε Unit} {list : List α}
    (passed : forM list check = .ok ()) : ∀ a ∈ list, check a = .ok () := by
  induction list with
  | nil => exact nofun
  | cons first _ ih =>
    rw [forM_cons] at passed
    obtain ⟨head, rest⟩ := unit_bind_eq_ok.mp passed
    exact forall_mem_cons.mpr ⟨head, ih rest⟩

section

variable [StdLib]

def policyVersion : Bytes := str "1"

def maxStatements : Nat := 256

def maxPatternLen : Nat := 512

def maxListLen : Nat := 256

def parseClock (v : Bytes) : Option Int :=
  (StdLib.timeParse (str "15:04") (StdLib.trimSpace v)).map fun t => t.hour * 60 + t.minute

def checkPatterns (field : Bytes) (list : List Bytes) : Except Bytes Unit :=
  if list.length = 0 then .error (field ++ str " must not be empty")
  else if list.length > maxListLen then .error (field ++ str " has more than 256 entries")
  else if list.any fun v => v.isEmpty || v.length > maxPatternLen then
    .error (field ++ str " entry must be 1 to 512 bytes")
  else .ok ()

def firstBad (good : Bytes → Bool) (values : List Bytes) (error : Bytes → Bytes) :
    Except Bytes Unit :=
  match values.find? fun v => !good v with
  | none => .ok ()
  | some v => .error (error v)

def Condition.validate (c : Condition) : Except Bytes Unit :=
  if c.values.length > maxListLen then .error (str "condition has too many values")
  else if c.values.any fun v => v.length > maxPatternLen then
    .error (str "condition value too long")
  else match c.op with
  | .equals | .notEquals =>
    if c.key.isEmpty || c.values.length != 1 then
      .error (c.op.text ++ str " needs a key and exactly one value")
    else .ok ()
  | .in_ | .notIn =>
    if c.key.isEmpty || c.values.length == 0 then
      .error (c.op.text ++ str " needs a key and at least one value")
    else .ok ()
  | .ipCIDR | .notIPCIDR =>
    if c.values.length == 0 then .error (c.op.text ++ str " needs at least one CIDR")
    else
      firstBad (fun v => (StdLib.parsePrefix v).isSome) c.values fun v =>
        c.op.text ++ str ": bad CIDR " ++ StdLib.quote v
  | .timeWindow =>
    if c.values.length != 2 || c.values.all List.isEmpty then
      .error (str "time_window needs [start, end] RFC 3339, one may be empty")
    else
      firstBad (fun v => v.isEmpty || (StdLib.timeParse rfc3339 v).isSome) c.values fun v =>
        str "time_window: bad time " ++ StdLib.quote v
  | .dailyWindow =>
    if c.values.length != 2 then .error (str "daily_window needs [start, end] as HH:MM UTC")
    else
      firstBad (fun v => (parseClock v).isSome) c.values fun v =>
        str "daily_window: bad time " ++ StdLib.quote v
  | .other text _ => .error (str "unknown condition op " ++ StdLib.quote text)

def Statement.validate (s : Statement) : Except Bytes Unit := do
  if !s.effect.known then
    throw (str "effect must be allow, deny or escalate, got " ++ StdLib.quote s.effect.text)
  if s.effect = .escalate ∧ s.require ∉ [.zero, .approval, .stepUp] then
    throw (str "require must be approval or step_up, got " ++ StdLib.quote s.require.text)
  checkPatterns (str "actions") s.actions
  checkPatterns (str "resources") s.resources
  if s.conditions.length > maxListLen then throw (str "too many conditions")
  forM s.conditions Condition.validate

def errInvalid : Bytes := str "policy: invalid document"

def Policy.validate (p : Policy) : Except Bytes Unit :=
  if p.version ≠ policyVersion then
    .error (errInvalid ++ str ": version must be " ++ StdLib.quote policyVersion ++ str ", got " ++
      StdLib.quote p.version)
  else if p.statements.length > maxStatements then
    .error (errInvalid ++ str ": more than 256 statements")
  else
    forM p.statements.zipIdx fun (s, i) =>
      s.validate.mapError fun text =>
        errInvalid ++ str ": statement " ++ str (toString i) ++ str ": " ++ text

theorem Statement.effect_known_of_validate {s : Statement} (valid : s.validate = .ok ()) :
    s.effect.known = true := by
  by_contra unknown
  rw [Statement.validate, if_pos (by simpa using unknown)] at valid
  cases valid

theorem Policy.effect_known_of_validate {p : Policy} (valid : p.validate = .ok ())
    {s : Statement} (member : s ∈ p.statements) : s.effect.known = true := by
  unfold Policy.validate at valid
  split_ifs at valid
  obtain ⟨i, inside, rfl⟩ := getElem_of_mem member
  exact Statement.effect_known_of_validate (mapError_eq_ok.mp (ok_of_forM valid
    (p.statements[i], i) (mk_mem_zipIdx_iff_getElem?.mpr (getElem?_eq_getElem inside))))

end

end TheAuth.Policy
