import TheAuth.Go.Strings
import TheAuth.Server.Model

/-!
# Agents and delegations

The agent record, the grant by which a user lets an agent act, and the helpers on actor chains,
scopes and expiries that the token endpoint shares.
-/

set_option autoImplicit false

namespace TheAuth.Agents

open Go Server List

/-- The status of an agent. -/
inductive Status where
  | active | suspended | revoked
  deriving DecidableEq

def Status.text : Status → Bytes
  | .active => str "active"
  | .suspended => str "suspended"
  | .revoked => str "revoked"

/-- A registered agent. -/
structure Agent where
  id : ULID
  (ownerUserID organizationID : Option ULID := none)
  name : Bytes
  status : Status
  clientID : Bytes
  scope : List Bytes := []
  expiresAt : Option Time := none

def Agent.agentExpired (ag : Agent) (now : Time) : Bool :=
  match ag.expiresAt with
  | none => false
  | some at_ => !decide (now < at_)

def agentSubjectPrefix : Bytes := str "agent:"

def Agent.subject [UlidText] (ag : Agent) : Bytes := agentSubjectPrefix ++ UlidText.string ag.id

/-- A user lets an agent act. -/
structure DelegationGrant where
  (id userID agentID : ULID)
  scope : List Bytes
  resource : Bytes
  maxDurationSeconds : Int
  createdAt : Time
  (expiresAt revokedAt : Option Time := none)
  revocationNote : Bytes := []

def DelegationGrant.active (g : DelegationGrant) (now : Time) : Bool :=
  g.revokedAt.isNone &&
    match g.expiresAt with
    | none => true
    | some at_ => decide (now < at_)

/-- The actor that acts now first. The nil actor is the empty chain. -/
abbrev ActorChain := List Bytes

def depth (act : ActorChain) : ℕ := 1 + act.length

def prepend (newActorSub : Bytes) (existing : ActorChain) : ActorChain := newActorSub :: existing

def scopeSubset (sub sup : List Bytes) : Bool := sub.all sup.contains

def scopeIntersect (a b : List Bytes) : List Bytes := a.filter b.contains

def tightenDuration (candidates : List Time) : Time :=
  candidates.foldl
    (fun out c => if c.isZero then out else if out.isZero || decide (c < out) then c else out) 0

def narrowScope (requested subjectScope grantScope : List Bytes) : Option (List Bytes) :=
  if requested.length = 0 then
    let base := if subjectScope.length = 0 then grantScope else subjectScope
    some (scopeIntersect base grantScope)
  else if !scopeSubset requested subjectScope then none
  else if !scopeSubset requested grantScope then none
  else some requested

def scopeSplit (s : Bytes) : List Bytes :=
  (fields s).foldl (fun out word => if out.contains word then out else out ++ [word]) []

def scopeJoin (scope : List Bytes) : Bytes := joinSpace scope

variable {candidates : List Time}

theorem foldl_earlier_eq_foldl_min (out : Time) (some_ : out ≠ 0)
    (nonzero : ∀ c ∈ candidates, c ≠ 0) :
    candidates.foldl (fun out c => if out.isZero || decide (c < out) then c else out) out =
      candidates.foldl min out := by
  induction candidates generalizing out with
  | nil => rfl
  | cons first _ ih =>
    have kept : (if out.isZero || decide (first < out) then first else out) = min out first := by
      have notZero : out.isZero = false := by simpa [Time.isZero] using some_
      rw [notZero, Bool.false_or]
      by_cases earlier : first < out
      · rw [if_pos (decide_eq_true earlier), Int.min_eq_right (Int.le_of_lt earlier)]
      · rw [if_neg (by simpa using earlier), Int.min_eq_left (Int.not_lt.mp earlier)]
    rw [foldl_cons, kept]
    apply ih
    · rcases Int.le_total out first with before | after
      · rw [Int.min_eq_left before]
        exact some_
      · rw [Int.min_eq_right after]
        exact nonzero first mem_cons_self
    · exact fun c later => nonzero c (mem_cons_of_mem _ later)

theorem tightenDuration_eq (candidates : List Time) :
    tightenDuration candidates = ((candidates.filter fun c => !c.isZero).min?).getD 0 := by
  have skipped : tightenDuration candidates =
      (candidates.filter fun c => !c.isZero).foldl
        (fun out c => if out.isZero || decide (c < out) then c else out) 0 := by
    rw [foldl_filter, tightenDuration]
    congr 1
    funext out c
    cases c.isZero <;> rfl
  rw [skipped]
  cases here : candidates.filter fun c => !c.isZero with
  | nil => rfl
  | cons first rest =>
    have nonzero : ∀ c ∈ first :: rest, c ≠ 0 := by
      intro c member
      rw [← here] at member
      simpa [Time.isZero] using (mem_filter.mp member).2
    have first_ : first ≠ 0 := nonzero first mem_cons_self
    exact foldl_earlier_eq_foldl_min first first_ fun c later =>
      nonzero c (mem_cons_of_mem _ later)

theorem tightenDuration_le {c : Time} (member : c ∈ candidates)
    (some_ : c ≠ 0) : tightenDuration candidates ≤ c := by
  have kept : c ∈ candidates.filter fun c => !c.isZero :=
    mem_filter.mpr ⟨member, by simpa [Time.isZero] using some_⟩
  rw [tightenDuration_eq]
  cases found : (candidates.filter fun c => !c.isZero).min? with
  | none =>
    rw [min?_eq_none_iff.mp found] at kept
    cases kept
  | some first => exact (le_min?_iff found).mp (Int.le_refl first) c kept

theorem tightenDuration_mem (some_ : tightenDuration candidates ≠ 0) :
    tightenDuration candidates ∈ candidates := by
  rw [tightenDuration_eq] at some_ ⊢
  cases found : (candidates.filter fun c => !c.isZero).min? with
  | none =>
    rw [found] at some_
    exact absurd rfl some_
  | some => exact (mem_filter.mp (min?_mem found)).1
theorem mem_scopeSplit {s word : Bytes} : word ∈ scopeSplit s ↔ word ∈ fields s := by
  have kept : ∀ (words out : List Bytes),
      word ∈ words.foldl (fun out w => if out.contains w then out else out ++ [w]) out ↔
        word ∈ out ∨ word ∈ words := by
    intro words
    induction words with
    | nil => simp
    | cons first _ ih =>
      intro out
      rw [foldl_cons, ih, mem_cons]
      by_cases seen : out.contains first = true
      · rw [if_pos seen]
        have here : first ∈ out := by simpa using seen
        constructor
        · exact Or.imp_right .inr
        · rintro (old | rfl | later)
          · exact .inl old
          · exact .inl here
          · exact .inr later
      · rw [if_neg seen, mem_append, mem_singleton, or_assoc]
  exact (kept (fields s) []).trans (or_iff_right not_mem_nil)

theorem mem_scopeSplit_scopeJoin {scope : List Bytes} {word : Bytes} :
    word ∈ scopeSplit (scopeJoin scope) ↔ ∃ text ∈ scope, word ∈ fields text := by
  rw [mem_scopeSplit, scopeJoin, fields_joinSpace, mem_flatMap]

theorem mem_scopeSplit_scopeJoin_of_words {scope : List Bytes} {s word : Bytes}
    (words : scope ⊆ scopeSplit s) : word ∈ scopeSplit (scopeJoin scope) ↔ word ∈ scope := by
  have single : ∀ {text}, text ∈ scope → fields text = [text] := fun inside =>
    fields_of_mem_fields (mem_scopeSplit.mp (words inside))
  rw [mem_scopeSplit_scopeJoin]
  constructor
  · rintro ⟨_, inside, here⟩
    rw [single inside, mem_singleton] at here
    rwa [here]
  · intro inside
    exact ⟨word, inside, by rw [single inside, mem_singleton]⟩

theorem scopeSubset_eq_true {sub sup : List Bytes} : scopeSubset sub sup = true ↔ sub ⊆ sup := by
  simp [scopeSubset, subset_def]

theorem narrowScope_eq_some {requested subjectScope grantScope narrowed : List Bytes}
    (done : narrowScope requested subjectScope grantScope = some narrowed) :
    narrowed ⊆ grantScope ∧ (subjectScope ≠ [] → narrowed ⊆ subjectScope) := by
  unfold narrowScope at done
  split at done
  · cases done
    refine ⟨fun word kept => ?_, fun some_ => ?_⟩
    · simpa using (mem_filter.mp kept).2
    · rw [if_neg (by simpa using some_)]
      exact filter_subset_self _
  split_ifs at done with inSubject inGrant
  cases done
  exact ⟨scopeSubset_eq_true.mp (by simpa using inGrant),
    fun _ => scopeSubset_eq_true.mp (by simpa using inSubject)⟩

/-- Why an agent may not act. -/
inductive Idle where
  | inactive | expired

def Agent.liveErr (ag : Agent) (now : Time) : Option Idle :=
  if ag.status ≠ .active then some .inactive
  else if ag.agentExpired now then some .expired
  else none

def Agent.expiryBound (ag : Agent) : Time := ag.expiresAt.getD 0

end TheAuth.Agents
