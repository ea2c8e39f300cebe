import TheAuth.Policy.Matching

/-!
# Risk tiers

An allowed request may still need an approval or a second factor. `classify` keeps the strongest
tier that matches.
-/

set_option autoImplicit false

namespace TheAuth.Policy

open Go

/-- What a risk asks for. -/
structure RiskTier where
  name : Bytes
  minAmount : Float
  currency : Bytes
  dataClasses : List Bytes
  irreversible : Option Bool
  require : Requirement

def RiskTier.matches (t : RiskTier) (req : Request) : Bool :=
  !(decide (t.minAmount > 0) && decide (req.amount < t.minAmount)) &&
    (t.currency.isEmpty || t.currency == req.currency) &&
    (t.dataClasses.isEmpty || t.dataClasses.contains req.dataClass) &&
    t.irreversible.all fun wanted => wanted == req.irreversible

def Requirement.strength : Requirement → Nat
  | .stepUp => 2
  | .approval => 1
  | .none | .other _ _ => 0

def keepStronger (req : Request) (best : Option RiskTier) (t : RiskTier) : Option RiskTier :=
  if !t.matches req then best
  else match best with
  | none => some t
  | some b => if t.require.strength > b.require.strength then some t else some b

def classify (risk : List RiskTier) (req : Request) : Option RiskTier :=
  match risk.foldl (keepStronger req) none with
  | none => none
  | some best => if best.require.strength = 0 then none else some best

def strengthOf (best : Option RiskTier) : Nat := best.elim 0 fun t => t.require.strength

theorem strengthOf_keepStronger (req : Request) (best : Option RiskTier) (t : RiskTier) :
    strengthOf (keepStronger req best t) =
      if t.matches req then max (strengthOf best) t.require.strength else strengthOf best := by
  unfold keepStronger
  by_cases covers : t.matches req = true
  · rw [if_neg (by simp [covers]), if_pos covers]
    cases best with
    | none => simp [strengthOf]
    | some =>
      dsimp only
      split
      next stronger => exact (Nat.max_eq_right (Nat.le_of_lt stronger)).symm
      next weaker => exact (Nat.max_eq_left (Nat.le_of_not_lt weaker)).symm
  · rw [if_pos (by simp [covers]), if_neg covers]

theorem strengthOf_foldl_eq_zero (req : Request) (risk : List RiskTier) (best : Option RiskTier) :
    strengthOf (risk.foldl (keepStronger req) best) = 0 ↔
      strengthOf best = 0 ∧ ∀ t ∈ risk, t.matches req = true → t.require.strength = 0 := by
  induction risk generalizing best with
  | nil => simp
  | cons t _ ih =>
    rw [List.foldl_cons, ih, strengthOf_keepStronger]
    by_cases covers : t.matches req = true
    · simp [covers, and_assoc]
    · simp [covers]

theorem classify_eq_none_iff (risk : List RiskTier) (req : Request) :
    classify risk req = none ↔ ∀ t ∈ risk, t.matches req = true → t.require.strength = 0 := by
  have scanned := strengthOf_foldl_eq_zero req risk none
  rw [and_iff_right (show strengthOf none = 0 from rfl)] at scanned
  rw [← scanned, classify]
  cases risk.foldl (keepStronger req) none with
  | none | some => simp [strengthOf]

end TheAuth.Policy
