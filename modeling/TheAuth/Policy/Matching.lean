import TheAuth.Policy.Document
import TheAuth.Policy.Expand

/-!
# Matching a statement against a request

A statement covers a request by one of its action patterns and one of its resource patterns. A deny
statement whose variables cannot be filled in covers it all the same.
-/

set_option autoImplicit false

namespace TheAuth.Policy

open Go

/-- What is to be decided. -/
structure Request where
  (action resource : Bytes)
  attributes : Attributes
  ip : Bytes
  now : Time
  amount : Float
  (currency dataClass : Bytes)
  irreversible : Bool
  provenance : GoMap Bytes (List Bytes)

section

variable [StdLib]

def inCIDR (cidrs : List Bytes) (ip : Bytes) : Bool :=
  match StdLib.parseAddr ip with
  | none => false
  | some addr =>
    cidrs.any fun c =>
      match StdLib.parsePrefix c with
      | none => false
      | some range => StdLib.contains range (StdLib.unmap addr)

def inAbsoluteWindow (v : List Bytes) (now : Time) : Bool :=
  match v with
  | [start, stop] =>
    (start.isEmpty || (StdLib.timeParse rfc3339 start).any fun t => !decide (now < t)) &&
      (stop.isEmpty || (StdLib.timeParse rfc3339 stop).any fun t => decide (now < t))
  | _ => false

def inDailyWindow (v : List Bytes) (now : Time) : Bool :=
  match v with
  | [first, last] =>
    match parseClock first, parseClock last with
    | some start, some stop =>
      let cur := now.hour * 60 + now.minute
      if start ≤ stop then decide (start ≤ cur ∧ cur < stop)
      else decide (start ≤ cur ∨ cur < stop)
    | _, _ => false
  | _ => false

variable (c : Condition) (req : Request)

def Condition.subject : Option Bytes :=
  if c.key = str "ip" then if req.ip.isEmpty then none else some req.ip
  else req.attributes.lookup c.key

def Condition.want : List Bytes :=
  c.values.filterMap fun v =>
    match expand v req.attributes false with
    | (x, true) => some x
    | (_, false) => none

def Condition.holds : Bool :=
  match c.op with
  | .timeWindow => inAbsoluteWindow c.values req.now
  | .dailyWindow => inDailyWindow c.values req.now
  | .equals => (c.subject req).any fun val => c.want req == [val]
  | .notEquals => (c.subject req).all fun val => !(c.want req == [val])
  | .in_ => (c.subject req).any fun val => (c.want req).contains val
  | .notIn => (c.subject req).all fun val => !(c.want req).contains val
  | .ipCIDR => (c.subject req).any fun val => inCIDR c.values val
  | .notIPCIDR => (c.subject req).all fun val => !inCIDR c.values val
  | .other _ _ => false

end

def Statement.matchesResource (s : Statement) (req : Request) (unresolvedMatches : Bool) : Bool :=
  s.resources.any fun pat =>
    match expand pat req.attributes true with
    | (_, false) => unresolvedMatches
    | (exp, true) => globMatch exp req.resource

def Statement.matchesTarget (s : Statement) (req : Request) : Bool :=
  (s.actions.any fun p => globMatch p req.action) && s.matchesResource req (s.effect == .deny)

def Statement.matches [StdLib] (s : Statement) (req : Request) : Bool :=
  s.matchesTarget req && s.conditions.all fun c => c.holds req

end TheAuth.Policy
