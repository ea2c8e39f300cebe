import TheAuth.Policy.Meaning
import TheAuth.Policy.ShrinkReplay

/-!
# What the statements of a suggestion allow

When no two permissions with one key have different conditions (`StatementKeys`), the statements
allow what some permission of the list allows. A wildcard of a merge was covered by a grant only as
a text and without regard to conditions.
-/

set_option autoImplicit false

namespace TheAuth.Policy.Shrink

open Go Library.Wildcard Library.Grouping List

theorem zero_notMem_extrasKey (p : Permission) : 0 ∉ extrasKey p := by
  unfold extrasKey
  split
  · decide
  apply zero_notMem_jsonArray
  intro text written
  obtain ⟨_, -, rfl⟩ := mem_map.mp written
  apply zero_notMem_jsonObject
  intro _ member
  simp only [mem_append, mem_cons, not_mem_nil, or_false] at member
  obtain (rfl | key) | rfl := member
  · exact zero_notMem_jsonString _
  · split at key
    · cases key
    · cases mem_singleton.mp key
      exact zero_notMem_jsonString _
  · apply zero_notMem_jsonArray
    intro _ value
    obtain ⟨v, -, rfl⟩ := mem_map.mp value
    exact zero_notMem_jsonString v

theorem append_zero_inj {first second tail other : Bytes} (clean : 0 ∉ tail) (clean' : 0 ∉ other)
    (same : first ++ 0 :: tail = second ++ 0 :: other) : first = second ∧ tail = other := by
  obtain ⟨middle, rfl, equal⟩ | ⟨middle, rfl, equal⟩ := append_eq_append_iff.mp same
  · cases middle with
    | nil => exact ⟨(append_nil first).symm, (cons.inj equal).2⟩
    | cons =>
      rw [(cons.inj equal).2] at clean
      exact absurd (mem_append_right _ mem_cons_self) clean
  · cases middle with
    | nil => exact ⟨append_nil second, (cons.inj equal).2.symm⟩
    | cons =>
      rw [(cons.inj equal).2] at clean'
      exact absurd (mem_append_right _ mem_cons_self) clean'

theorem statementKey_inj {p q : Permission} (same : statementKey p = statementKey q) :
    p.resource = q.resource ∧ extrasKey p = extrasKey q :=
  append_zero_inj (zero_notMem_extrasKey p) (zero_notMem_extrasKey q) same

theorem groupKey_extrasKey {p q : Permission} (same : groupKey p = groupKey q) :
    extrasKey p = extrasKey q := by
  have cut : ∀ p, groupKey p = (parentOf p.resource ++ 0 :: p.action) ++ 0 :: extrasKey p := by
    intro p
    rw [groupKey, append_assoc, cons_append]
  rw [cut, cut] at same
  exact (append_zero_inj (zero_notMem_extrasKey p) (zero_notMem_extrasKey q) same).2

variable (perms : List Permission)

/-- Different conditions have different keys. -/
def ConditionKeys : Prop :=
  ∀ p ∈ perms, ∀ q ∈ perms, extrasKey p = extrasKey q → p.conditions = q.conditions

instance (perms : List Permission) : Decidable (ConditionKeys perms) :=
  inferInstanceAs (Decidable (∀ p ∈ perms, ∀ q ∈ perms, extrasKey p = extrasKey q →
    p.conditions = q.conditions))

/-- Permissions that are compacted into one statement have the same conditions. -/
def StatementKeys : Prop :=
  ∀ p ∈ perms, ∀ q ∈ perms, statementKey p = statementKey q → p.conditions = q.conditions

instance (perms : List Permission) : Decidable (StatementKeys perms) :=
  inferInstanceAs (Decidable (∀ p ∈ perms, ∀ q ∈ perms, statementKey p = statementKey q →
    p.conditions = q.conditions))

theorem ConditionKeys.statementKeys {perms : List Permission} (keys : ConditionKeys perms) :
    StatementKeys perms :=
  fun p inP q inQ same => keys p inP q inQ (statementKey_inj same).2

theorem StatementKeys.mono {perms larger : List Permission} (keys : StatementKeys larger)
    (subset : perms ⊆ larger) : StatementKeys perms :=
  fun p inP q inQ => keys p (subset inP) q (subset inQ)

theorem ConditionKeys.mono {perms larger : List Permission} (keys : ConditionKeys larger)
    (known : ∀ p ∈ perms, ∃ q ∈ larger, p.conditions = q.conditions) : ConditionKeys perms := by
  have extras : ∀ {p q : Permission}, p.conditions = q.conditions → extrasKey p = extrasKey q := by
    intro p q same
    rw [extrasKey, extrasKey, same]
  intro p inP q inQ same
  obtain ⟨p', inP', sameP⟩ := known p inP
  obtain ⟨q', inQ', sameQ⟩ := known q inQ
  rw [sameP, sameQ]
  exact keys p' inP' q' inQ' ((extras sameP).symm.trans (same.trans (extras sameQ)))

/-! ## Patterns -/

/-- A letter that means itself only after a backslash. -/
def Escapable (c : UInt8) : Prop := c = starByte ∨ c = backslash

instance (c : UInt8) : Decidable (Escapable c) :=
  inferInstanceAs (Decidable (c = starByte ∨ c = backslash))

variable {pattern : Bytes}

theorem instance_of_denotes {word : Bytes} (denotes : Denotes pattern word) :
    Instance Escapable pattern word := by
  induction denotes with
  | nil => exact .nil
  | star swallowed _ ih => exact .other (.inl rfl) swallowed ih
  | escaped c _ ih => exact .other (.inr rfl) [] (.same c ih)
  | loneBackslash => exact .same _ .nil
  | plain c _ _ _ ih => exact .same c ih

/-- No star, and no backslash that stands for itself. -/
def Unescaped (pattern : Bytes) : Prop := ∀ t ∈ tokens pattern, ∀ c, t = .lit c → ¬ Escapable c

instance (pattern : Bytes) : Decidable (Unescaped pattern) :=
  have (t : Tok UInt8) : Decidable (∀ c, t = .lit c → ¬ Escapable c) :=
    match t with
    | .star => .isTrue nofun
    | .lit c => decidable_of_iff (¬ Escapable c) ⟨fun strict _ same => by cases same; exact strict,
        fun all => all c rfl⟩
  inferInstanceAs (Decidable (∀ t ∈ tokens pattern, ∀ c, t = .lit c → ¬ Escapable c))

theorem globMatch_of_text {outer inner word : Bytes} (strict : Unescaped outer)
    (text : globMatch outer inner = true) (matched : globMatch inner word = true) :
    globMatch outer word = true := by
  rw [globMatch_iff] at text matched ⊢
  exact text.of_instance (fun c inside => strict _ inside c rfl)
    (instance_of_denotes ((denotes_iff_matches inner word).mpr matched))

theorem lit_mem_tokens {c : UInt8} (plain : ¬ Escapable c) (inside : c ∈ pattern) :
    .lit c ∈ tokens pattern := by
  fun_induction tokens pattern with
  | case1 => cases inside
  | case2 => exact absurd (.inl (mem_singleton.mp inside)) plain
  | case3 => exact mem_singleton.mpr (congrArg _ (mem_singleton.mp inside))
  | case4 _ _ ih =>
    rcases mem_cons.mp inside with rfl | later
    · exact absurd (.inl rfl) plain
    · exact mem_cons_of_mem _ (ih later)
  | case5 _ _ _ ih =>
    rcases mem_cons.mp inside with rfl | later
    · exact absurd (.inr rfl) plain
    · rcases mem_cons.mp later with rfl | later
      · exact mem_cons_self
      · exact mem_cons_of_mem _ (ih later)
  | case6 _ _ _ _ _ ih =>
    rcases mem_cons.mp inside with rfl | later
    · exact mem_cons_self
    · exact mem_cons_of_mem _ (ih later)

theorem no_brace_of_globMatch {text : Bytes} (matched : globMatch pattern text = true)
    (plain : openBrace ∉ text) : openBrace ∉ pattern :=
  fun inside => plain (((globMatch_iff pattern text).mp matched).mem_of_lit
    (lit_mem_tokens (by decide) inside))

theorem foldl_addAction (rest : List Permission) (s : Statement) :
    ∃ actions, rest.foldl (fun s p => addAction s p.action) s = { s with actions } ∧
      ∀ action, action ∈ actions ↔ action ∈ s.actions ∨ ∃ p ∈ rest, p.action = action := by
  induction rest generalizing s with
  | nil => exact ⟨s.actions, rfl, by simp⟩
  | cons p _ ih =>
    obtain ⟨actions, shape, members⟩ := ih (addAction s p.action)
    refine ⟨actions, shape, fun action => (members action).trans ?_⟩
    have joined : action ∈ (addAction s p.action).actions ↔
        action ∈ s.actions ∨ p.action = action := by
      unfold addAction
      split
      next present =>
        have here : p.action ∈ s.actions := by simpa using present
        exact ⟨.inl, fun either => either.elim id fun same => same ▸ here⟩
      · rw [mem_append, mem_singleton, eq_comm]
    rw [joined, exists_mem_cons_iff, or_assoc]

section

theorem no_brace_of_parent {resource : Bytes} (some_ : parentOf resource ≠ []) :
    openBrace ∉ parentOf resource ++ [colon, starByte] := by
  obtain ⟨plain, _, cut⟩ := parentOf_spec some_
  intro inside
  rcases mem_append.mp inside with inParent | tail
  · have whole : openBrace ∈ resource := by
      rw [cut]
      exact mem_append_left _ inParent
    exact (not_special (plain _ whole)).2.2 rfl
  · revert tail
    decide

variable [StdLib]

/-! ## Statements -/

def Permission.allows (p : Permission) (req : Request) : Bool := p.statement.matches req

def Permission.admits (p : Permission) (req : Request) : Bool :=
  p.statement.matchesResource req false && p.conditions.all fun c => c.holds req

theorem matches_with_actions (p : Permission) (actions : List Bytes) (req : Request) :
    ({ p.statement with actions } : Statement).matches req = true ↔
      (∃ action ∈ actions, globMatch action req.action = true) ∧ p.admits req = true := by
  rw [Statement.matches, Statement.matchesTarget, Bool.and_eq_true, Bool.and_eq_true,
    any_eq_true, Permission.admits, Bool.and_eq_true, and_assoc]
  rfl

variable {p : Permission} {a : UsageAnalysis} {kept : List Permission} {observed : List Bytes}
  {opts : Options} {req : Request}

theorem allows_iff :
    p.allows req = true ↔ globMatch p.action req.action = true ∧ p.admits req = true := by
  refine (matches_with_actions p [p.action] req).trans ?_
  simp

theorem admits_congr {q : Permission} (resource : p.resource = q.resource)
    (conditions : p.conditions = q.conditions) (req : Request) : p.admits req = q.admits req := by
  cases q
  cases resource
  cases conditions
  rfl

variable {perms : List Permission}

theorem exists_matches_statements (keys : StatementKeys perms) (req : Request) :
    (∃ s ∈ statements perms, s.matches req = true) ↔ ∃ p ∈ perms, p.allows req = true := by
  -- permissions of one key admit the same requests
  have alike : ∀ {p q}, p ∈ perms → q ∈ perms → statementKey p = statementKey q →
      p.admits req = q.admits req := by
    intro p q inP inQ same
    exact admits_congr (statementKey_inj same).1 (keys p inP q inQ same) req
  have inGroup : ∀ {key first rest p},
      perms.filter (fun p => statementKey p = key) = first :: rest →
      (p ∈ first :: rest ↔ p ∈ perms ∧ statementKey p = key) := by
    intro _ first rest p filtered
    rw [← filtered, mem_filter, decide_eq_true_eq]
  constructor
  · rintro ⟨_, inside, matched⟩
    obtain ⟨⟨_, _⟩, member, rfl⟩ := mem_map.mp inside
    obtain ⟨first, rest, filtered, rfl⟩ := mem_groupBy.mp member
    obtain ⟨_, shape, members⟩ := foldl_addAction rest first.statement
    rw [shape, matches_with_actions] at matched
    obtain ⟨⟨action, listed, covered⟩, _⟩ := matched
    obtain ⟨p, inRest, rfl⟩ : ∃ p ∈ first :: rest, p.action = action := by
      rw [exists_mem_cons_iff]
      refine ((members action).mp listed).imp_left fun own => ?_
      exact (mem_singleton.mp own).symm
    obtain ⟨inPerms, keyed⟩ := (inGroup filtered).mp inRest
    obtain ⟨firstIn, firstKey⟩ := (inGroup filtered).mp mem_cons_self
    refine ⟨p, inPerms, allows_iff.mpr ⟨covered, ?_⟩⟩
    rwa [alike inPerms firstIn (keyed.trans firstKey.symm)]
  · rintro ⟨p, inPerms, allowed⟩
    obtain ⟨covered, _⟩ := allows_iff.mp allowed
    have some_ : perms.filter (fun q => statementKey q = statementKey p) ≠ [] :=
      ne_nil_of_mem (mem_filter.mpr ⟨inPerms, by simp⟩)
    obtain ⟨first, rest, filtered⟩ := exists_cons_of_ne_nil some_
    obtain ⟨_, shape, members⟩ := foldl_addAction rest first.statement
    refine ⟨_, mem_map.mpr ⟨(statementKey p, _),
      mem_groupBy.mpr ⟨first, rest, filtered, rfl⟩, rfl⟩, ?_⟩
    rw [shape, matches_with_actions]
    obtain ⟨firstIn, firstKey⟩ := (inGroup filtered).mp mem_cons_self
    refine ⟨⟨p.action, (members p.action).mpr ?_, covered⟩, ?_⟩
    · rcases mem_cons.mp ((inGroup filtered).mpr ⟨inPerms, rfl⟩) with rfl | later
      · exact .inl (mem_singleton.mpr rfl)
      · exact .inr ⟨p, later, rfl⟩
    · rwa [alike firstIn inPerms firstKey]

omit [StdLib] in
theorem effect_of_mem_statements {s : Statement}
    (inside : s ∈ statements perms) : s.effect = .allow := by
  obtain ⟨⟨_, _⟩, member, rfl⟩ := mem_map.mp inside
  obtain ⟨first, rest, -, rfl⟩ := mem_groupBy.mp member
  obtain ⟨_, shape, -⟩ := foldl_addAction rest first.statement
  rw [shape]
  rfl

/-- Whatever the policies are. -/
def Unrestricted (e : Evaluator) (req : Request) : Prop :=
  TheAuth.Policy.classify e.risk req = none ∧ taintVerdict e.taint req = .clean

theorem evaluate_allowed_iff (e : Evaluator) (wall : Time) (req : Request)
    {policies : List (Option Policy)} (allow : ∀ s ∈ statementsOf policies, s.effect = .allow) :
    (e.evaluate wall req policies).allowed = true ↔
      (∃ s ∈ statementsOf policies, s.matches (e.prepare wall req) = true) ∧
        Unrestricted e (e.prepare wall req) := by
  have known : EffectsKnown policies := fun s inside => by rw [allow s inside]; rfl
  have never : ∀ effect, effect ≠ .allow →
      anyMatch effect (e.prepare wall req) policies = false := by
    intro effect other
    refine (anyMatch_eq_false_iff _ _ _).mpr fun s inside same => ?_
    exact absurd (same.symm.trans (allow s inside)) other
  obtain ⟨coherent, effect⟩ := evaluate_effect e wall req known
  refine coherent.trans ?_
  rw [effect, declaredEffect_eq_allow_iff, anyMatch_eq_true_iff]
  constructor
  · rintro ⟨-, -, ⟨s, inside, -, matched⟩, clean⟩
    exact ⟨⟨s, inside, matched⟩, clean⟩
  · rintro ⟨⟨s, inside, matched⟩, clean⟩
    exact ⟨never .deny nofun, never .escalate nofun, ⟨s, inside, allow s inside, matched⟩, clean⟩

theorem evaluate_statements_iff (e : Evaluator) (wall : Time) (req : Request)
    (keys : StatementKeys perms) :
    (e.evaluate wall req [some (policyOf (statements perms))]).allowed = true ↔
      (∃ p ∈ perms, p.allows (e.prepare wall req) = true) ∧
        Unrestricted e (e.prepare wall req) := by
  have same : statementsOf [some (policyOf (statements perms))] = statements perms := append_nil _
  rw [evaluate_allowed_iff e wall req (by rw [same]; exact fun s => effect_of_mem_statements), same,
    exists_matches_statements keys]

section

omit [StdLib]

/-! ## Merges -/

/-- The wildcard of the siblings of a permission. -/
def Permission.widened (p : Permission) : Permission :=
  ⟨p.action, parentOf p.resource ++ [colon, starByte], p.conditions⟩

/-- Observed, and with a parent. -/
def inGroup (a : UsageAnalysis) (opts : Options) (p : Permission) : Bool :=
  isObserved a opts p && !(parentOf p.resource).isEmpty

/-- The siblings of a grant are merged: there are enough of them, a grant covers their wildcard as a
text, and no call under it was denied for lack of a grant. -/
structure Merges (a : UsageAnalysis) (opts : Options) (p : Permission) : Prop where
  generalize : opts.generalize = true
  observed : inGroup a opts p = true
  siblings : opts.groupMin ≤ a.granted.countP fun q => inGroup a opts q && groupKey q = groupKey p
  covered : (a.granted.any fun gr => Shrink.covers gr p.widened) = true
  undenied : (a.deniedNoGrant.any fun d => p.widened.covers d.action d.resource) = false

instance (a : UsageAnalysis) (opts : Options) (p : Permission) : Decidable (Merges a opts p) :=
  decidable_of_iff (opts.generalize = true ∧ inGroup a opts p = true ∧
      (opts.groupMin ≤ a.granted.countP fun q => inGroup a opts q && groupKey q = groupKey p) ∧
      (a.granted.any fun gr => Shrink.covers gr p.widened) = true ∧
      (a.deniedNoGrant.any fun d => p.widened.covers d.action d.resource) = false)
    ⟨fun ⟨on, own, enough, covered, undenied⟩ => ⟨on, own, enough, covered, undenied⟩,
      fun ⟨on, own, enough, covered, undenied⟩ => ⟨on, own, enough, covered, undenied⟩⟩

theorem inGroup_of_mergeable
    (eligible : mergeable ((a.granted.filter (isObserved a opts)).map atomKey) p = true) :
    inGroup a opts p = true := by
  obtain ⟨listed, parent⟩ := Bool.and_eq_true_iff.mp eligible
  obtain ⟨q, observed, same⟩ := mem_map.mp (contains_iff_mem.mp listed)
  refine Bool.and_eq_true_iff.mpr ⟨?_, parent⟩
  rw [isObserved, ← same]
  exact (mem_filter.mp observed).2

theorem length_entriesOf (key : Bytes) : (entriesOf kept observed key).length =
    kept.countP fun p => groupKey p = key && mergeable observed p := by
  have composed := countP_map (p := fun p => groupKey p = key && mergeable observed p)
    (f := Prod.fst) (l := kept.zipIdx)
  rw [zipIdx_map_fst] at composed
  rw [entriesOf, filter_filter, ← countP_eq_length_filter]
  exact composed.symm

theorem length_entriesOf_le (a : UsageAnalysis) (opts : Options) (key : Bytes) :
    (entriesOf (a.granted.filter (isKept a opts))
        ((a.granted.filter (isObserved a opts)).map atomKey) key).length ≤
      a.granted.countP fun q => inGroup a opts q && groupKey q = key := by
  rw [length_entriesOf]
  refine Nat.le_trans (countP_mono_left fun q _ here => ?_) filter_sublist.countP_le
  obtain ⟨same, eligible⟩ := Bool.and_eq_true_iff.mp here
  exact Bool.and_eq_true_iff.mpr ⟨inGroup_of_mergeable eligible, same⟩

theorem wildcard_spec {g : Group} (on : opts.generalize = true)
    (merged : g ∈ mergedGroups a (a.granted.filter (isKept a opts))
      ((a.granted.filter (isObserved a opts)).map atomKey) opts) :
    ∃ q ∈ a.granted, Merges a opts q ∧ g.wildcard = q.widened := by
  obtain ⟨key, sibling⟩ := exists_key_of_mem_mergedGroups merged
  obtain ⟨⟨q, i⟩, rest, entries, rfl⟩ := mem_siblings.mp sibling
  obtain ⟨here, eligible, rfl⟩ := mem_entriesOf.mp
    (entries ▸ mem_cons_self : (q, i) ∈ entriesOf _ _ key)
  obtain ⟨enough, undenied⟩ := Bool.and_eq_true_iff.mp (mem_filter.mp merged).2
  obtain ⟨large, covered⟩ := Bool.and_eq_true_iff.mp enough
  refine ⟨q, (mem_filter.mp (mem_of_getElem? here)).1, ?_, rfl⟩
  refine ⟨on, inGroup_of_mergeable eligible, ?_, covered, ?_⟩
  · have bound := length_entriesOf_le a opts (groupKey q)
    rw [entries] at bound
    rw [decide_eq_true_eq, length_map] at large
    exact Int.le_trans large (Int.ofNat_le.mpr bound)
  · rw [Bool.not_eq_true'] at undenied
    exact undenied

theorem mem_generalize_cases (inside : p ∈ (generalize a kept observed opts).1) :
    p ∈ kept ∨ ∃ g ∈ mergedGroups a kept observed opts, p = g.wildcard := by
  obtain ⟨⟨_, i⟩, listed, made⟩ := mem_filterMap.mp inside
  rw [rewritten, Option.ite_none_left_eq_some, Option.some.injEq] at made
  cases found : (mergedGroups a kept observed opts).find? fun g => g.indexes.head? = some i with
  | none =>
    rw [found] at made
    cases made.2
    exact .inl (mem_of_getElem? (mk_mem_zipIdx_iff_getElem?.mp listed))
  | some g =>
    rw [found] at made
    exact .inr ⟨g, mem_of_find?_eq_some found, made.2.symm⟩

theorem mem_keep (inside : p ∈ (suggestShrink a opts).keep) :
    p ∈ a.granted ∨ ∃ q ∈ a.granted, Merges a opts q ∧ p = q.widened := by
  rw [suggestShrink] at inside
  cases merging : opts.generalize with
  | false =>
    rw [merging] at inside
    exact .inl (mem_filter.mp inside).1
  | true =>
    rw [merging] at inside
    obtain kept | ⟨g, merged, rfl⟩ := mem_generalize_cases inside
    · exact .inl (mem_filter.mp kept).1
    · exact .inr (wildcard_spec merging merged)

theorem conditionKeys_keep {a : UsageAnalysis} (keys : ConditionKeys a.granted) (opts : Options) :
    ConditionKeys (suggestShrink a opts).keep := by
  refine keys.mono fun p inside => ?_
  obtain granted | ⟨q, granted, -, rfl⟩ := mem_keep inside
  · exact ⟨p, granted, rfl⟩
  · exact ⟨q, granted, rfl⟩

/-- The grants, and the wildcards of those that are merged. -/
def candidates (a : UsageAnalysis) (opts : Options) : List Permission :=
  a.granted ++ (a.granted.filter fun p => Merges a opts p).map .widened

end

theorem admits_of_no_brace (plain : openBrace ∉ p.resource) (req : Request) :
    p.admits req = true ↔ globMatch p.resource req.resource = true ∧
      ∀ c ∈ p.conditions, c.holds req = true := by
  have copied : expand p.resource req.attributes true = (p.resource, true) := by
    simp [expand, plain]
  simp [Permission.admits, Statement.matchesResource, Permission.statement, copied]

/-- As a pattern too, with no further condition. -/
structure Encloses (outer inner : Permission) : Prop where
  covers : Shrink.covers outer inner = true
  action : Unescaped outer.action
  resource : Unescaped outer.resource
  conditions : outer.conditions ⊆ inner.conditions

theorem Encloses.allows {outer inner : Permission} (encloses : Encloses outer inner)
    (plain : openBrace ∉ inner.resource) (allowed : inner.allows req = true) :
    outer.allows req = true := by
  obtain ⟨action, resource⟩ := Bool.and_eq_true_iff.mp encloses.covers
  have plainOuter : openBrace ∉ outer.resource := no_brace_of_globMatch resource plain
  rw [allows_iff, admits_of_no_brace plain] at allowed
  rw [allows_iff, admits_of_no_brace plainOuter]
  obtain ⟨byAction, byResource, held⟩ := allowed
  exact ⟨globMatch_of_text encloses.action action byAction,
    globMatch_of_text encloses.resource resource byResource,
    fun c inside => held c (encloses.conditions inside)⟩

theorem exists_allows_generalize (siblings : SiblingKeys kept) (keys : ConditionKeys kept)
    (inside : p ∈ kept) (allowed : p.allows req = true) :
    ∃ q ∈ (generalize a kept observed opts).1, q.allows req = true := by
  obtain stays | ⟨parent, q, inKept, same, there⟩ :=
    generalize_cases (siblings.mono (filter_subset_self _)) inside
  · exact ⟨p, stays, allowed⟩
  · refine ⟨_, there, ?_⟩
    have plain : openBrace ∉ p.resource := fun brace =>
      (not_special ((parentOf_spec parent).1 _ brace)).2.2 rfl
    rw [allows_iff, admits_of_no_brace plain] at allowed
    rw [allows_iff, admits_of_no_brace (no_brace_of_parent parent)]
    obtain ⟨byAction, byResource, held⟩ := allowed
    have conditions : p.conditions = q.conditions :=
      keys p inside q inKept (groupKey_extrasKey same)
    exact ⟨byAction, globMatch_parent parent byResource, conditions ▸ held⟩

variable [CaseLib]

/-- **A call that was allowed stays allowed** when a grant that allows it has an allowed row of its
own. -/
theorem call_of_used_grant_stays_allowed (agentID : Bytes) (pols : List (Option Policy))
    (since until_ : Time) (rows : List DecisionRow) (opts : Options)
    (allow : ∀ s ∈ statementsOf pols, s.effect = .allow) (few : opts.minObservations ≤ 1)
    (keys : ConditionKeys ((policyGrants pols).map (·.permission)))
    (siblings : opts.generalize = true → SiblingKeys ((policyGrants pols).map (·.permission)))
    (e : Evaluator) (wall : Time) (req : Request)
    (before : (e.evaluate wall req pols).allowed = true) (r : DecisionRow) (inside : r ∈ rows)
    (recorded : classify r = .allow) (p : Permission)
    (used : attributed ((policyGrants pols).map (·.permission)) r = some p)
    (own : p.allows (e.prepare wall req) = true) :
    (e.evaluate wall req [some (policyOf (statements (suggestShrink
      (analyze agentID (policyGrants pols) since until_ rows) opts).keep))]).allowed = true := by
  obtain ⟨-, clean⟩ := (evaluate_allowed_iff e wall req allow).mp before
  have kept := kept_of_attributed agentID since until_ few inside recorded used
  obtain ⟨granted, -⟩ := analyze_granted agentID (policyGrants pols) since until_ rows
  generalize analyze agentID (policyGrants pols) since until_ rows = a at *
  rw [← granted] at keys siblings
  rw [evaluate_statements_iff e wall req (conditionKeys_keep keys opts).statementKeys]
  refine ⟨?_, clean⟩
  rw [suggestShrink]
  cases merging : opts.generalize with
  | false => exact ⟨p, kept, own⟩
  | true =>
    have smaller := filter_subset_self (p := isKept a opts) a.granted
    exact exists_allows_generalize ((siblings merging).mono smaller)
      (keys.mono fun q inside => ⟨q, smaller inside, rfl⟩) kept own

end

/-! ## Siblings -/

def reading (resource : Bytes) : Request := ⟨str "read", resource, ∅, [], 1, 0, [], [], false, ∅⟩

def decides (req : Request) : Bool :=
  (@Evaluator.evaluate StdLib.refusing {} 1 req [some (policyOf (statements perms))]).allowed

def inProduction : Condition := ⟨.equals, str "env", [str "prod"]⟩

/-- The first conditions are for all documents, none for one document. -/
def documentPolicy (first : List Condition) : Policy :=
  policyOf [⟨str "all", .allow, [str "read"], [str "docs:*"], first, [], .zero⟩,
    ⟨str "one", .allow, [str "read"], [str "docs:x"], [], [], .zero⟩]

def usageOfDocument (first : List Condition) : UsageAnalysis :=
  @analyze CaseLib.ascii [] (policyGrants [some (documentPolicy first)]) 0 0
    [allowedRow (str "read") (str "docs:x")]

/-- The row of the call is attributed to the first statement, whose condition did not hold, and the
second is removed. -/
theorem misattributed_call_denied :
    (@Evaluator.evaluate StdLib.refusing {} 1 (reading (str "docs:x"))
        [some (documentPolicy [inProduction])]).allowed = true ∧
      decides (suggestShrink (usageOfDocument [inProduction]) {}).keep (reading (str "docs:x")) =
        false := by
  decide +kernel

theorem attributed_call_stays_allowed :
    (suggestShrink (usageOfDocument []) {}).keep = [⟨str "read", str "docs:*", []⟩] ∧
      decides (suggestShrink (usageOfDocument []) {}).keep (reading (str "docs:x")) = true :=
  ⟨by decide +kernel, @call_of_used_grant_stays_allowed StdLib.refusing CaseLib.ascii []
    [some (documentPolicy [])] 0 0 [allowedRow (str "read") (str "docs:x")] {} (by decide +kernel)
    (by decide) (by decide +kernel) nofun {} 1 (reading (str "docs:x")) (by decide +kernel) _
    mem_cons_self (by decide +kernel) ⟨str "read", str "docs:*", []⟩ (by decide +kernel)
    (by decide +kernel)⟩

end TheAuth.Policy.Shrink
