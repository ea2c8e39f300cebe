import TheAuth.Policy.Meaning
import TheAuth.Server.Model

/-!
# Permission boundaries

Policies that are attached to a token bound what its owner may do. The boundary is asked only about
what is allowed: an escalation by the owner's policies may stand above what the boundary alone
decides.
-/

set_option autoImplicit false

namespace TheAuth.Policy

open Go Library.Result Server Decision List Bool

def Decision.rank (d : Decision) : ℕ :=
  if d.allowed = true then 2 else if d.effect = .escalate then 1 else 0

theorem Decision.rank_eq_two_iff (d : Decision) : d.rank = 2 ↔ d.allowed = true := by
  unfold Decision.rank
  split
  next allowed => simp [allowed]
  next refused => split <;> simp [refused]

theorem Decision.rank_le_two (d : Decision) : d.rank ≤ 2 := by
  unfold Decision.rank
  split
  · exact Nat.le_refl 2
  · split <;> decide

variable {req : Request}

def Verdict.rank : Verdict → ℕ
  | .clean => 2
  | .escalate => 1
  | .deny => 0

theorem rank_applyTaint (taint : List TaintRule) {d : Decision}
    (coherent : d.allowed = true → d.effect ≠ .escalate) :
    (applyTaint taint req d).rank = min d.rank (taintVerdict taint req).rank := by
  have most := d.rank_le_two
  unfold applyTaint
  split
  next passed =>
    rcases passed with empty | ⟨refused, other⟩
    · rw [length_eq_zero_iff.mp empty, taintVerdict_nil]
      exact (Nat.min_eq_left most).symm
    · simp [rank, refused, other]
  cases evaluated : evaluateTaint taint req with
  | none => simp [taintVerdict, evaluated, Verdict.rank, most]
  | some v =>
    cases verdict : v.verdict with
    | clean =>
      simp only [taintVerdict, evaluated, Option.elim, verdict]
      exact (Nat.min_eq_left most).symm
    | deny => simp [taintVerdict, evaluated, verdict, Verdict.rank, rank]
    | escalate =>
      by_cases already : d.effect = .escalate
      · have held : d.allowed = false := eq_false_iff.mpr fun allowed => coherent allowed already
        simp [taintVerdict, evaluated, verdict, Verdict.rank, rank, already, held]
      · have allowed : d.allowed = true := by simp_all
        simp [taintVerdict, evaluated, verdict, Verdict.rank, rank, already, allowed]

theorem taintVerdict_prepare (taint : List TaintRule) (e : Evaluator) (wall : Time)
    (req : Request) : taintVerdict taint (e.prepare wall req) = taintVerdict taint req := by
  unfold Evaluator.prepare
  split <;> rfl

section

variable [StdLib]

def Evaluator.evaluateWithBoundary (e : Evaluator) (later : Option Time) (wall wall' : Time)
    (req : Request) (identity boundary : List (Option Policy)) : Decision :=
  let d := e.evaluate wall req identity
  if d.allowed = false ∨ boundary.length = 0 then d
  else
    let again := { e with now := later }
    let b := again.evaluateStatements (again.prepare wall' req) boundary
    if b.allowed = false then
      { b with boundary := true, reason := str "permission boundary: " ++ b.reason }
    else d

theorem Evaluator.effect_ne_escalate_of_allowed (e : Evaluator) (req : Request)
    (policies : List (Option Policy)) :
    (e.evaluateStatements req policies).allowed = true →
      (e.evaluateStatements req policies).effect ≠ .escalate := by
  rw [Evaluator.evaluateStatements_eq]
  cases (located policies).find? (Located.denies req) with
  | some => exact nofun
  | none =>
    cases (located policies).find? (Located.escalates req) with
    | some => exact nofun
    | none =>
      cases found : (located policies).find? (Located.permits req) with
      | none => exact nofun
      | some =>
        have permits := List.find?_some found
        simp only [Located.permits, and_eq_true] at permits
        cases tier : classify e.risk req with
        | none => simpa [applyRisk, tier, Located.permitted] using permits.1.2
        | some => simp [applyRisk, tier]

theorem Evaluator.evaluate_rank (e : Evaluator) (wall : Time) (req : Request)
    (policies : List (Option Policy)) :
    (e.evaluate wall req policies).rank =
      min (e.evaluateStatements (e.prepare wall req) policies).rank
        (taintVerdict e.taint req).rank := by
  rw [← taintVerdict_prepare e.taint e wall]
  exact rank_applyTaint e.taint (e.effect_ne_escalate_of_allowed _ _)

theorem evaluateWithBoundary_rank (e : Evaluator) (later : Option Time) (wall wall' : Time)
    (req : Request) (identity boundary : List (Option Policy)) (present : boundary ≠ []) :
    (e.evaluateWithBoundary later wall wall' req identity boundary).rank =
      if (e.evaluate wall req identity).allowed = true then
        ({ e with now := later }.evaluate wall' req boundary).rank
      else (e.evaluate wall req identity).rank := by
  have listed : ¬ boundary.length = 0 := fun none_ => present (List.length_eq_zero_iff.mp none_)
  by_cases allowed : (e.evaluate wall req identity).allowed = true
  · have clean := (rank_eq_two_iff _).mpr allowed
    rw [Evaluator.evaluate_rank] at clean
    have alone : ({ e with now := later }.evaluate wall' req boundary).rank =
        ({ e with now := later }.evaluateStatements
          ({ e with now := later }.prepare wall' req) boundary).rank := by
      rw [Evaluator.evaluate_rank]
      exact Nat.min_eq_left (Nat.le_trans (rank_le_two _) (clean ▸ Nat.min_le_right _ _))
    rw [alone, Evaluator.evaluateWithBoundary]
    dsimp only
    rw [if_neg (by simp [allowed, listed])]
    split
    next refused => simp [rank]
    rename_i permitted
    rw [(rank_eq_two_iff _).mpr allowed]
    exact ((rank_eq_two_iff _).mpr (by simpa using permitted)).symm
  · rw [if_neg allowed, Evaluator.evaluateWithBoundary]
    rw [if_pos (Or.inl (Bool.eq_false_iff.mpr allowed))]

theorem evaluateWithBoundary_allowed (e : Evaluator) (later : Option Time) (wall wall' : Time)
    (req : Request) (identity boundary : List (Option Policy)) :
    (e.evaluateWithBoundary later wall wall' req identity boundary).allowed = true ↔
      (e.evaluate wall req identity).allowed = true ∧ (boundary ≠ [] →
        ({ e with now := later }.evaluate wall' req boundary).allowed = true) := by
  by_cases present : boundary = []
  · rw [present, Evaluator.evaluateWithBoundary, if_pos (Or.inr length_nil)]
    simp
  · rw [← rank_eq_two_iff, evaluateWithBoundary_rank _ _ _ _ _ _ _ present]
    split <;> simp_all [rank_eq_two_iff]

/-- **A boundary narrows what is allowed**, but an escalation is not asked about. -/
theorem boundary_narrows_allowances (e : Evaluator) (later : Option Time) (wall wall' : Time)
    (req : Request) (identity boundary : List (Option Policy)) (present : boundary ≠ []) :
    let owner := e.evaluate wall req identity
    let bound := { e with now := later }.evaluate wall' req boundary
    let both := e.evaluateWithBoundary later wall wall' req identity boundary
    both.rank ≤ owner.rank ∧
      (both.allowed = true ↔ owner.allowed = true ∧ bound.allowed = true) ∧
        (bound.rank < both.rank ↔ owner.rank = 1 ∧ bound.rank = 0) := by
  intro owner bound both
  have combined : both.rank = if owner.allowed = true then bound.rank else owner.rank :=
    evaluateWithBoundary_rank e later wall wall' req identity boundary present
  have most := owner.rank_le_two
  have boundMost := bound.rank_le_two
  rw [← rank_eq_two_iff, ← rank_eq_two_iff, ← rank_eq_two_iff]
  split at combined
  next allowed =>
    rw [← rank_eq_two_iff] at allowed
    omega
  rename_i held
  rw [← rank_eq_two_iff] at held
  omega

end

attribute [local instance] StdLib.refusing

/-- The owner's policies escalate a request that the boundary refuses, and the
escalation is returned. -/
theorem escalation_returned_over_boundary_deny :
    (Evaluator.evaluateWithBoundary {} none 1 1 plainRequest [some (catchAll .escalate)]
          [some (catchAll .deny)]).rank = 1 ∧
      (Evaluator.evaluate {} 1 plainRequest [some (catchAll .deny)]).rank = 0 := by
  decide +kernel

/-- A boundary that escalates turns an allowance of the owner into an escalation. -/
theorem boundary_escalation_holds_allowance :
    (Evaluator.evaluateWithBoundary {} none 1 1 plainRequest [some (catchAll .allow)]
        [some (catchAll .escalate)]).allowed = false := by
  have narrow := (boundary_narrows_allowances {} none 1 1 plainRequest [some (catchAll .allow)]
    [some (catchAll .escalate)] (cons_ne_nil _ _)).2.1
  refine eq_false_iff.mpr fun allowed => ?_
  have bound := (narrow.mp allowed).2
  revert bound
  decide +kernel

inductive SubjectKind where
  | user | group | role | token
  | other (text : Bytes)
    (unknown : text ∉ [str "user", str "group", str "role", str "token"])
  deriving DecidableEq

/-- To whom a policy is attached. -/
structure Subject where
  kind : SubjectKind
  id : Bytes

structure Attached where
  subject : Subject
  (recordID document : Bytes)

/-- On whose behalf a call runs. -/
structure Principal where
  userID : ULID
  (delegatedBy tokenID : Option ULID)

/-- The strict decoder also says whether data follows the document. -/
structure Guard where
  subjects : Option (Principal → Except Bytes (List Subject))
  policiesFor : List Subject → Except Bytes (List Attached)
  decode : Bytes → Except Bytes (Policy × Bool)
  evaluator : Evaluator

def principalSubjects [UlidText] (p : Principal) : List Subject :=
  ⟨.user, UlidText.string (p.delegatedBy.getD p.userID)⟩ ::
    p.tokenID.toList.map fun id => ⟨.token, UlidText.string id⟩

def maxDocumentBytes : ℕ := 1048576

section

variable [StdLib]

def parse (decode : Bytes → Except Bytes (Policy × Bool)) (data : Bytes) : Except Bytes Policy := do
  refuseIf (data.length > maxDocumentBytes) (errInvalid ++ str ": document exceeds 1048576 bytes")
  let (p, more) ← (decode data).mapError fun e => errInvalid ++ str ": " ++ e
  refuseIf more (errInvalid ++ str ": trailing data")
  p.validate
  return p

def Guard.document (g : Guard) (a : Attached) : Except Bytes (Subject × Option Policy) := do
  let doc ← (parse g.decode a.document).mapError fun e =>
    str "policy: stored policy " ++ StdLib.quote a.recordID ++ str ": " ++ e
  return (a.subject, some { doc with id := a.recordID })

variable (docs : List (Subject × Option Policy))

def identityOf : List (Option Policy) := (docs.filter fun d => d.1.kind ≠ .token).map Prod.snd

def boundaryOf : List (Option Policy) := (docs.filter fun d => d.1.kind = .token).map Prod.snd

def indeterminate : Decision where
  reason := []
  code := .policyIndeterminate

def Guard.extraSubjects (g : Guard) (p : Principal) : Except Bytes (List Subject) :=
  match g.subjects with
  | none => .ok []
  | some resolve => (resolve p).mapError (str "policy: resolve subjects: " ++ ·)

theorem validate_of_parse {decode : Bytes → Except Bytes (Policy × Bool)} {data : Bytes}
    {p : Policy} (done : parse decode data = .ok p) : p.validate = .ok () := by
  rw [parse, refuseIf_bind_eq_ok] at done
  obtain ⟨-, done⟩ := done
  obtain ⟨⟨_, _⟩, -, done⟩ := of_bind done
  obtain ⟨-, done⟩ := of_refuseIf done
  obtain ⟨valid, done⟩ := unit_bind_eq_ok.mp done
  cases done
  exact valid

variable [UlidText]

def Guard.documents (g : Guard) (p : Principal) :
    Except Bytes (List (Subject × Option Policy)) := do
  let extra ← g.extraSubjects p
  let attached ← (g.policiesFor (principalSubjects p ++ extra)).mapError
    (str "policy: load policies: " ++ ·)
  attached.mapM g.document

def Guard.decide (g : Guard) (later : Option Time) (wall wall' : Time) (p : Principal)
    (req : Request) : Except (Decision × Bytes) Decision := do
  let docs ← (g.documents p).mapError fun e => (indeterminate, e)
  return g.evaluator.evaluateWithBoundary later wall wall' req (identityOf docs) (boundaryOf docs)

theorem Guard.effectsKnown_documents {g : Guard} {p : Principal}
    {docs : List (Subject × Option Policy)} (loaded : g.documents p = .ok docs)
    {policies : List (Option Policy)} (subset : policies ⊆ docs.map Prod.snd) :
    EffectsKnown policies := by
  obtain ⟨_, -, loaded⟩ := of_bind loaded
  obtain ⟨_, -, loaded⟩ := of_bind loaded
  intro _ inside
  obtain ⟨_, listed, inside⟩ := mem_flatMap.mp inside
  obtain ⟨_, loadedToo, rfl⟩ := mem_map.mp (subset listed)
  obtain ⟨_, -, built⟩ := exists_of_mem_mapM loaded loadedToo
  obtain ⟨_, parsed, built⟩ := of_bind built
  cases built
  exact Policy.effect_known_of_validate (validate_of_parse (mapError_eq_ok.mp parsed)) inside

/-- **The guard follows the documents.** It allows what the owner's policies let run and, where the
token has policies, those of the token too. -/
theorem guard_allows_iff (g : Guard) (later : Option Time) (wall wall' : Time) (p : Principal)
    (req : Request) :
    let again := { g.evaluator with now := later }
    (∃ d, g.decide later wall wall' p req = .ok d ∧ d.allowed = true) ↔
      ∃ docs, g.documents p = .ok docs ∧
        MayRun g.evaluator (g.evaluator.prepare wall req) (identityOf docs) ∧
          (boundaryOf docs ≠ [] → MayRun again (again.prepare wall' req) (boundaryOf docs)) := by
  intro again
  have decided : (∃ d, g.decide later wall wall' p req = .ok d ∧ d.allowed = true) ↔
      ∃ docs, g.documents p = .ok docs ∧ (g.evaluator.evaluateWithBoundary later wall wall' req
        (identityOf docs) (boundaryOf docs)).allowed = true := by
    constructor
    · rintro ⟨_, done, allowed⟩
      obtain ⟨docs, loaded, done⟩ := of_bind done
      cases done
      exact ⟨docs, mapError_eq_ok.mp loaded, allowed⟩
    · rintro ⟨docs, loaded, allowed⟩
      exact ⟨_, by rw [Guard.decide, loaded]; rfl, allowed⟩
  rw [decided]
  refine exists_congr fun docs => and_congr_right fun loaded => ?_
  have identity : EffectsKnown (identityOf docs) :=
    g.effectsKnown_documents loaded (map_subset _ (filter_subset_self _))
  have boundary : EffectsKnown (boundaryOf docs) :=
    g.effectsKnown_documents loaded (map_subset _ (filter_subset_self _))
  rw [evaluateWithBoundary_allowed, allowed_iff_mayRun _ _ _ identity,
    allowed_iff_mayRun _ _ _ boundary]

end

end TheAuth.Policy
