import TheAuth.Policy.Shrink

/-!
# Replaying the rows a suggestion was made from

A suggestion that asks for at most one observation keeps the grants in use, or merges them into a
wildcard that covers them. Permissions with other actions get into a group when their texts contain
the zero byte of its key (`SiblingKeys`).
-/

set_option autoImplicit false

namespace TheAuth.Policy.Shrink

open Go Library.Wildcard Library.Grouping List GoMap

theorem tokens_plain_append {s : Bytes} (plain : ∀ c ∈ s, c ≠ starByte ∧ c ≠ backslash)
    (rest : Bytes) : tokens (s ++ rest) = s.map .lit ++ tokens rest := by
  induction s with
  | nil => rfl
  | cons c _ ih =>
    have here := plain c mem_cons_self
    have later := ih fun d inside => plain d (mem_cons_of_mem c inside)
    rw [cons_append, tokens_plain here.1 here.2, later]
    rfl

theorem parentOf_spec {resource : Bytes} (some_ : parentOf resource ≠ []) :
    (∀ c ∈ resource, isSpecial c = false) ∧
      ∃ rest, resource = parentOf resource ++ colon :: rest := by
  unfold parentOf at some_ ⊢
  split at some_
  · exact absurd rfl some_
  rename_i plain
  have clean : ∀ c ∈ resource, isSpecial c = false := by simpa using plain
  refine ⟨clean, ?_⟩
  rw [if_neg plain]
  have parts := takeWhile_append_dropWhile (p := (· != colon)) (l := resource.reverse)
  cases after : resource.reverse.dropWhile (· != colon) with
  | nil =>
    rw [after] at some_
    exact absurd rfl some_
  | cons c =>
    have isColon : c = colon := by
      have stops := head?_dropWhile_not (· != colon) resource.reverse
      rw [after] at stops
      simpa using stops
    subst isColon
    refine ⟨(resource.reverse.takeWhile (· != colon)).reverse, ?_⟩
    rw [after] at parts
    have flipped := congrArg reverse parts
    rw [reverse_reverse, reverse_append, reverse_cons] at flipped
    rw [append_cons]
    exact flipped.symm

theorem not_special {c : UInt8} (plain : isSpecial c = false) :
    c ≠ starByte ∧ c ≠ backslash ∧ c ≠ openBrace := by
  simpa [isSpecial, and_assoc] using plain

theorem globMatch_parent {resource target : Bytes} (some_ : parentOf resource ≠ [])
    (covered : globMatch resource target = true) :
    globMatch (parentOf resource ++ [colon, starByte]) target = true := by
  obtain ⟨plain, rest, cut⟩ := parentOf_spec some_
  have letters : ∀ c ∈ resource, c ≠ starByte ∧ c ≠ backslash := fun c inside =>
    ⟨(not_special (plain c inside)).1, (not_special (plain c inside)).2.1⟩
  rw [globMatch_iff] at covered ⊢
  rw [← append_nil resource, tokens_plain_append letters, matches_literals_append] at covered
  obtain ⟨tail, rfl, ended⟩ := covered
  rw [show tail = [] from ended, append_nil]
  generalize parentOf resource = parent at *
  subst cut
  rw [append_cons] at letters
  rw [append_cons parent colon [starByte], append_cons parent colon rest,
    tokens_plain_append fun c inside => letters c (mem_append_left rest inside),
    matches_literals_append]
  exact ⟨rest, rfl, rest, [], (append_nil rest).symm, rfl⟩

/-! ## Groups -/

def entriesOf (kept : List Permission) (observed : List Bytes) (key : Bytes) :
    List (Permission × ℕ) :=
  (kept.zipIdx.filter fun (p, _) => mergeable observed p).filter fun (p, _) => groupKey p = key

variable {g : Group} {kept : List Permission} {observed : List Bytes} {key : Bytes}

theorem mem_siblings :
    (key, g) ∈ siblings kept observed ↔
      ∃ first rest, entriesOf kept observed key = first :: rest ∧
        g = ⟨parentOf first.1.resource, first.1.action, first.1, (first :: rest).map Prod.snd⟩ := by
  have joined : ∀ (rest : List (Permission × ℕ)) (g : Group),
      rest.foldl (fun g entry => { g with indexes := g.indexes ++ [entry.2] }) g =
        { g with indexes := g.indexes ++ rest.map Prod.snd } := by
    intro rest
    induction rest with
    | nil => simp
    | cons _ _ ih =>
      intro _
      rw [foldl_cons, ih]
      simp
  rw [siblings, mem_groupBy]
  refine exists_congr fun first => exists_congr fun rest => and_congr_right fun _ => ?_
  exact Eq.congr_right (joined rest _)

variable {i : ℕ} {p : Permission}

theorem mem_entriesOf :
    (p, i) ∈ entriesOf kept observed key ↔
      kept[i]? = some p ∧ mergeable observed p = true ∧ groupKey p = key := by
  simp only [entriesOf, mem_filter, mk_mem_zipIdx_iff_getElem?, decide_eq_true_eq, and_assoc]

theorem nodup_indexes (kept : List Permission) (observed : List Bytes) (key : Bytes) :
    ((entriesOf kept observed key).map Prod.snd).Nodup := by
  have all : (kept.zipIdx.map Prod.snd).Nodup := by
    rw [zipIdx_map_snd]
    exact nodup_range'
  exact all.sublist ((filter_sublist.trans filter_sublist).map _)

theorem group_unique {key other : Bytes} {h : Group}
    (one : (key, g) ∈ siblings kept observed) (two : (other, h) ∈ siblings kept observed)
    (inOne : i ∈ g.indexes) (inTwo : i ∈ h.indexes) : g = h := by
  obtain ⟨_, _, entries, rfl⟩ := mem_siblings.mp one
  obtain ⟨_, _, entries', rfl⟩ := mem_siblings.mp two
  obtain ⟨⟨_, _⟩, inside, rfl⟩ := mem_map.mp inOne
  obtain ⟨⟨_, _⟩, inside', rfl⟩ := mem_map.mp inTwo
  rw [← entries] at inside
  rw [← entries'] at inside'
  obtain ⟨at_, -, rfl⟩ := mem_entriesOf.mp inside
  obtain ⟨at', -, rfl⟩ := mem_entriesOf.mp inside'
  cases at_.symm.trans at'
  obtain ⟨rfl, rfl⟩ := cons.inj (entries.symm.trans entries')
  rfl

theorem exists_key_of_mem_mergedGroups {a : UsageAnalysis} {opts : Options}
    (merged : g ∈ mergedGroups a kept observed opts) : ∃ key,
    (key, g) ∈ siblings kept observed := by
  obtain ⟨⟨key, _⟩, sibling, same⟩ := mem_map.mp (mem_filter.mp merged).1
  exact ⟨key, same ▸ sibling⟩

section

variable {a : UsageAnalysis} {kept : List Permission} {observed : List Bytes} {opts : Options}

theorem rewritten_of_not_merged (apart : ∀ g ∈ mergedGroups a kept observed opts, i ∉ g.indexes) :
    rewritten (mergedGroups a kept observed opts) (p, i) = some p := by
  have stays : ¬ ((mergedGroups a kept observed opts).any
      fun g => g.indexes.tail.contains i) = true := by
    intro dropped
    obtain ⟨g, merged, inTail⟩ := any_eq_true.mp dropped
    exact apart g merged (mem_of_mem_tail (by simpa using inTail))
  have unled : ((mergedGroups a kept observed opts).find?
      fun g => g.indexes.head? = some i) = none := by
    refine find?_eq_none.mpr fun g merged leads => ?_
    exact apart g merged (mem_of_mem_head? (by simpa using leads))
  rw [rewritten, if_neg stays, unled]
  rfl

theorem rewritten_of_first {g : Group} (merged : g ∈ mergedGroups a kept observed opts)
    (sibling : (key, g) ∈ siblings kept observed) :
    ∃ p i, kept[i]? = some p ∧
      rewritten (mergedGroups a kept observed opts) (p, i) = some g.wildcard := by
  obtain ⟨⟨p, i⟩, _, entries, shape⟩ := mem_siblings.mp sibling
  have head : g.indexes.head? = some i := by rw [shape]; rfl
  have first : (p, i) ∈ entriesOf kept observed key := entries ▸ mem_cons_self
  have only : ∀ h ∈ mergedGroups a kept observed opts, i ∈ h.indexes → h = g := by
    intro h inMerged inside
    obtain ⟨_, sibling'⟩ := exists_key_of_mem_mergedGroups inMerged
    exact group_unique sibling' sibling inside (mem_of_mem_head? head)
  have once : i ∉ g.indexes.tail := by
    have distinct := nodup_indexes kept observed key
    rw [entries, map_cons, nodup_cons] at distinct
    rw [shape]
    exact distinct.1
  have stays : ¬ ((mergedGroups a kept observed opts).any
      fun g => g.indexes.tail.contains i) = true := by
    intro dropped
    obtain ⟨h, inMerged, inTail⟩ := any_eq_true.mp dropped
    have inTail : i ∈ h.indexes.tail := by simpa using inTail
    rw [only h inMerged (mem_of_mem_tail inTail)] at inTail
    exact once inTail
  refine ⟨p, i, (mem_entriesOf.mp first).1, ?_⟩
  rw [rewritten, if_neg stays]
  cases found : (mergedGroups a kept observed opts).find? fun g => g.indexes.head? = some i with
  | none => exact absurd head (by simpa using find?_eq_none.mp found g merged)
  | some h =>
    have leads : h.indexes.head? = some i := by simpa using find?_some found
    rw [only h (mem_of_find?_eq_some found) (mem_of_mem_head? leads)]
    rfl

variable (a observed opts) in
theorem mem_generalize (here : kept[i]? = some p) :
    p ∈ (generalize a kept observed opts).1 ∨
      ∃ key g, (key, g) ∈ siblings kept observed ∧ i ∈ g.indexes ∧
        g.wildcard ∈ (generalize a kept observed opts).1 := by
  by_cases grouped : ∃ g ∈ mergedGroups a kept observed opts, i ∈ g.indexes
  · obtain ⟨g, merged, inside⟩ := grouped
    obtain ⟨key, sibling⟩ := exists_key_of_mem_mergedGroups merged
    obtain ⟨q, j, first, replaced⟩ := rewritten_of_first merged sibling
    refine .inr ⟨key, g, sibling, inside, ?_⟩
    exact mem_filterMap.mpr ⟨(q, j), mk_mem_zipIdx_iff_getElem?.mpr first, replaced⟩
  · have left : rewritten (mergedGroups a kept observed opts) (p, i) = some p :=
      rewritten_of_not_merged fun g merged inside => grouped ⟨g, merged, inside⟩
    exact .inl (mem_filterMap.mpr ⟨(p, i), mk_mem_zipIdx_iff_getElem?.mpr here, left⟩)

end

section

theorem one_le_usedCount {a : UsageAnalysis} {u : UsedPermission}
    (counted : ∀ u ∈ a.used, 1 ≤ u.count) (inside : u ∈ a.used) :
    1 ≤ ((usedCount a).lookup (atomKey u.permission)).getD 0 := by
  have walked : ∀ (list : List UsedPermission) (m : GoMap Bytes ℕ), (∀ u ∈ list, 1 ≤ u.count) →
      (u ∈ list ∨ 1 ≤ (m.lookup (atomKey u.permission)).getD 0) →
        1 ≤ ((list.foldl (fun m u => m.insert (atomKey u.permission) u.count) m).lookup
          (atomKey u.permission)).getD 0 := by
    intro list
    induction list with
    | nil => exact fun m _ here => here.resolve_left not_mem_nil
    | cons first rest ih =>
      intro m all here
      refine ih _ (fun v later => all v (mem_cons_of_mem _ later)) ?_
      by_cases later : u ∈ rest
      · exact .inl later
      · refine .inr ?_
        rw [lookup_insert_eq]
        split
        · exact all first mem_cons_self
        rename_i other
        refine here.resolve_left fun inList => ?_
        rcases mem_cons.mp inList with rfl | inRest
        · exact other rfl
        · exact later inRest
  exact walked a.used ∅ counted (.inl inside)

variable [CaseLib] (perms : List Permission)

/-! ## Counts -/

def uncoveredBy (r : DecisionRow) : Bool :=
  decide (classify r = .allow) && (firstMatch perms r.action r.resource).isNone

namespace Replay

end Replay

namespace UsageAccumulator

omit [CaseLib] in
theorem addAttempt_keeps (u : UsageAccumulator) (r : DecisionRow) :
    (u.addAttempt r).grants = u.grants ∧ (u.addAttempt r).used = u.used ∧
      (u.addAttempt r).ev.uncoveredAllows = u.ev.uncoveredAllows := by
  unfold addAttempt
  split <;> exact ⟨rfl, rfl, rfl⟩

omit [CaseLib] in
theorem addAllowed_grants (u : UsageAccumulator) (r : DecisionRow) :
    (u.addAllowed r).grants = u.grants := by
  unfold addAllowed
  split <;> rfl

theorem add_grants (u : UsageAccumulator) (r : DecisionRow) : (u.add r).grants = u.grants := by
  unfold add
  cases classify r with
  | internal | denyNoGrant => rfl
  | denyOther => exact (addAttempt_keeps _ r).1
  | allow => exact addAllowed_grants _ r

omit [CaseLib] in
theorem addAllowed_uncoveredAllows (u : UsageAccumulator) (r : DecisionRow) :
    (u.addAllowed r).ev.uncoveredAllows =
      u.ev.uncoveredAllows + if (firstMatch u.perms r.action r.resource).isNone then 1 else 0 := by
  unfold addAllowed
  cases firstMatch u.perms r.action r.resource <;> rfl

theorem add_uncoveredAllows (u : UsageAccumulator) (r : DecisionRow) :
    (u.add r).ev.uncoveredAllows =
      u.ev.uncoveredAllows + if uncoveredBy u.perms r then 1 else 0 := by
  unfold add uncoveredBy
  cases classify r with
  | internal | denyNoGrant => rfl
  | denyOther => exact (addAttempt_keeps _ r).2.2
  | allow => exact addAllowed_uncoveredAllows _ r

omit [CaseLib] in
theorem addAllowed_used (u : UsageAccumulator) (r : DecisionRow) :
    (u.addAllowed r).used = u.used ∧ firstMatch u.perms r.action r.resource = none ∨
      ∃ i state, firstMatch u.perms r.action r.resource = some i ∧ 1 ≤ state.count ∧
        (u.addAllowed r).used = u.used.insert i state := by
  unfold addAllowed
  cases firstMatch u.perms r.action r.resource with
  | none => exact .inl ⟨rfl, rfl⟩
  | some i => exact .inr ⟨i, _, rfl, Nat.le_add_left 1 _, rfl⟩

theorem add_used (u : UsageAccumulator) (r : DecisionRow) :
    (u.add r).used = u.used ∧
        (classify r = .allow → firstMatch u.perms r.action r.resource = none) ∨
      ∃ i state, (classify r = .allow ∧ firstMatch u.perms r.action r.resource = some i) ∧
        1 ≤ state.count ∧ (u.add r).used = u.used.insert i state := by
  unfold add
  cases classify r with
  | internal | denyNoGrant => exact .inl ⟨rfl, nofun⟩
  | denyOther => exact .inl ⟨(addAttempt_keeps _ r).2.1, nofun⟩
  | allow =>
    obtain ⟨same, missed⟩ | inserted := addAllowed_used (tally (u.tally fun ev =>
      { ev with rowsScanned := ev.rowsScanned + 1 }) fun ev =>
        { ev with allowedRows := ev.allowedRows + 1 }) r
    · exact .inl ⟨same, fun _ => missed⟩
    · obtain ⟨i, state, first, counts, used⟩ := inserted
      exact .inr ⟨i, state, ⟨rfl, first⟩, counts, used⟩

/-- A grant has a use when a row was attributed to it, and every use counts at least one row. -/
structure Recorded (u : UsageAccumulator) (seen : List DecisionRow) : Prop where
  used : ∀ r ∈ seen, classify r = .allow → ∀ i, firstMatch u.perms r.action r.resource = some i →
    (u.used.lookup i).isSome = true
  counted : ∀ i state, u.used.lookup i = some state → 1 ≤ state.count
  row : ∀ i state, u.used.lookup i = some state →
    ∃ r ∈ seen, classify r = .allow ∧ firstMatch u.perms r.action r.resource = some i

theorem Recorded.start (agentID : Bytes) (grants : List Grant) (since until_ : Time) :
    ({ agentID, since, until_, grants } : UsageAccumulator).Recorded [] where
  used _ none_ := (nomatch none_)
  counted _ _ none_ := (nomatch none_)
  row _ _ none_ := (nomatch none_)

theorem Recorded.add {u : UsageAccumulator} {seen : List DecisionRow} (kept : u.Recorded seen)
    (r : DecisionRow) : (u.add r).Recorded (seen ++ [r]) := by
  have same : (u.add r).perms = u.perms := congrArg (map _) (u.add_grants r)
  obtain ⟨unchanged, uncovered⟩ | ⟨_, _, first, counts, inserted⟩ := u.add_used r
  · refine ⟨fun row inside allowed j covered => ?_, fun j old here => ?_, fun j old here => ?_⟩
    · rw [same] at covered
      rw [unchanged]
      rcases mem_append.mp inside with earlier | last
      · exact kept.used row earlier allowed j covered
      · cases mem_singleton.mp last
        cases (uncovered allowed).symm.trans covered
    · rw [unchanged] at here
      exact kept.counted j old here
    · rw [unchanged] at here
      obtain ⟨row, earlier, own⟩ := kept.row j old here
      exact ⟨row, mem_append_left _ earlier, same ▸ own⟩
  · refine ⟨fun row inside allowed j covered => ?_, fun j old here => ?_, fun j old here => ?_⟩
    · rw [same] at covered
      rw [inserted, lookup_insert_eq]
      split
      · rfl
      rename_i other
      rcases mem_append.mp inside with earlier | last
      · exact kept.used row earlier allowed j covered
      · cases mem_singleton.mp last
        exact absurd (Option.some.inj (covered.symm.trans first.2)) other
    · rw [inserted] at here
      obtain ⟨-, rfl⟩ | ⟨-, here⟩ := of_lookup_insert here
      · exact counts
      · exact kept.counted j old here
    · rw [inserted] at here
      rw [same]
      obtain ⟨rfl, -⟩ | ⟨-, here⟩ := of_lookup_insert here
      · exact ⟨r, mem_append_right _ mem_cons_self, first⟩
      · obtain ⟨row, earlier, own⟩ := kept.row j old here
        exact ⟨row, mem_append_left _ earlier, own⟩

theorem walk_spec (rows : List DecisionRow) (u : UsageAccumulator) {seen : List DecisionRow}
    (kept : u.Recorded seen) :
    (rows.foldl .add u).grants = u.grants ∧
      (rows.foldl .add u).ev.uncoveredAllows =
        u.ev.uncoveredAllows + rows.countP (uncoveredBy u.perms) ∧
      (rows.foldl .add u).Recorded (seen ++ rows) := by
  induction rows generalizing u seen with
  | nil => exact ⟨rfl, rfl, by rwa [append_nil]⟩
  | cons r _ ih =>
    obtain ⟨grants, count, record⟩ := ih (u.add r) (kept.add r)
    have same : (u.add r).perms = u.perms := congrArg (map _) (u.add_grants r)
    refine ⟨grants.trans (u.add_grants r), ?_, by rwa [append_assoc] at record⟩
    rw [foldl_cons, count, add_uncoveredAllows, same, countP_cons]
    omega

end UsageAccumulator

variable {a : UsageAnalysis} {opts : Options} {p : Permission}

variable {grants : List Grant} {rows : List DecisionRow} {r : DecisionRow}

/-! ## Attribution -/

/-- The grant that a row is attributed to. -/
def attributed (r : DecisionRow) : Option Permission :=
  (firstMatch perms r.action r.resource).bind (perms[·]?)

theorem isObserved_of_covered (agentID : Bytes) (since until_ : Time)
    (few : opts.minObservations ≤ 1) (inside : r ∈ rows) (allowed : classify r = .allow)
    (first : firstMatch (grants.map (·.permission)) r.action r.resource = some i)
    (here : (grants.map (·.permission))[i]? = some p) :
    isObserved (analyze agentID grants since until_ rows) opts p = true := by
  obtain ⟨same, -, record⟩ := UsageAccumulator.walk_spec rows _ (.start agentID grants since until_)
  have perms : (rows.foldl UsageAccumulator.add { agentID, since, until_, grants }).perms =
      grants.map (·.permission) := congrArg (map _) same
  obtain ⟨state, used⟩ := Option.isSome_iff_exists.mp
    (record.used r inside allowed i (by rw [perms]; exact first))
  obtain ⟨g, stored, rfl⟩ : ∃ g, grants[i]? = some g ∧ g.permission = p := by
    simpa using here
  have entry : state.entry g.permission ∈ (analyze agentID grants since until_ rows).used := by
    refine mem_filterMap.mpr ⟨(g, i), ?_, ?_⟩
    · rw [same]
      exact mk_mem_zipIdx_iff_getElem?.mpr stored
    · dsimp only
      rw [used]
      rfl
  have counted : ∀ u ∈ (analyze agentID grants since until_ rows).used, 1 ≤ u.count := by
    intro _ member
    obtain ⟨⟨_, j⟩, -, made⟩ := mem_filterMap.mp member
    obtain ⟨state', used', rfl⟩ := Option.map_eq_some_iff.mp made
    exact record.counted j state' used'
  have enough := one_le_usedCount counted entry
  rw [isObserved, decide_eq_true_eq]
  have wanted : max 1 opts.minObservations = 1 := Int.max_eq_left few
  rw [wanted]
  exact_mod_cast enough

/-- Grants that fall into one group are siblings. -/
def SiblingKeys : Prop :=
  ∀ p ∈ perms, ∀ q ∈ perms, parentOf p.resource ≠ [] → parentOf q.resource ≠ [] →
    groupKey p = groupKey q → parentOf p.resource = parentOf q.resource ∧ p.action = q.action

instance (perms : List Permission) : Decidable (SiblingKeys perms) :=
  inferInstanceAs (Decidable (∀ p ∈ perms, ∀ q ∈ perms, parentOf p.resource ≠ [] →
    parentOf q.resource ≠ [] → groupKey p = groupKey q →
      parentOf p.resource = parentOf q.resource ∧ p.action = q.action))

omit [CaseLib] in
theorem generalize_cases (keys : SiblingKeys (kept.filter fun p => observed.contains (atomKey p)))
    (inside : p ∈ kept) :
    p ∈ (generalize a kept observed opts).1 ∨
      parentOf p.resource ≠ [] ∧ ∃ q ∈ kept, groupKey p = groupKey q ∧
        ⟨p.action, parentOf p.resource ++ [colon, starByte], q.conditions⟩ ∈
          (generalize a kept observed opts).1 := by
  obtain ⟨_, here⟩ := mem_iff_getElem?.mp inside
  refine (mem_generalize a observed opts here).imp_right ?_
  rintro ⟨key, _, sibling, member, there⟩
  obtain ⟨⟨q, j⟩, _, entries, rfl⟩ := mem_siblings.mp sibling
  obtain ⟨⟨_, _⟩, own, rfl⟩ := mem_map.mp member
  obtain ⟨at_, mergeable, keyed⟩ := mem_entriesOf.mp (entries ▸ own)
  cases at_.symm.trans here
  obtain ⟨first, mergeable', keyed'⟩ := mem_entriesOf.mp
    (entries ▸ mem_cons_self : (q, j) ∈ entriesOf kept observed key)
  have parent : ∀ {p : Permission}, Shrink.mergeable observed p = true →
      parentOf p.resource ≠ [] := by
    intro p eligible
    simpa using (Bool.and_eq_true_iff.mp eligible).2
  have seen : ∀ {p}, p ∈ kept → Shrink.mergeable observed p = true →
      p ∈ kept.filter fun p => observed.contains (atomKey p) :=
    fun inside eligible => mem_filter.mpr ⟨inside, (Bool.and_eq_true_iff.mp eligible).1⟩
  have same := keyed.trans keyed'.symm
  obtain ⟨sameParent, sameAction⟩ := keys p (seen inside mergeable) q
    (seen (mem_of_getElem? first) mergeable') (parent mergeable) (parent mergeable') same
  refine ⟨parent mergeable, q, mem_of_getElem? first, same, ?_⟩
  rw [sameAction, sameParent]
  exact there

theorem analyze_granted (agentID : Bytes) (grants : List Grant) (since until_ : Time)
    (rows : List DecisionRow) :
    (analyze agentID grants since until_ rows).granted = grants.map (·.permission) ∧
      (analyze agentID grants since until_ rows).evidence.uncoveredAllows =
        rows.countP (uncoveredBy (grants.map (·.permission))) := by
  obtain ⟨same, count, -⟩ := UsageAccumulator.walk_spec rows _ (.start agentID grants since until_)
  exact ⟨congrArg (map _) same, count.trans (Nat.zero_add _)⟩

omit [CaseLib] in
theorem SiblingKeys.mono {perms larger : List Permission} (keys : SiblingKeys larger)
    (subset : perms ⊆ larger) : SiblingKeys perms :=
  fun p inP q inQ => keys p (subset inP) q (subset inQ)

theorem kept_of_attributed (agentID : Bytes) (since until_ : Time) (few : opts.minObservations ≤ 1)
    (inside : r ∈ rows) (allowed : classify r = .allow)
    (own : attributed (grants.map (·.permission)) r = some p) :
    p ∈ (analyze agentID grants since until_ rows).granted.filter
      (isKept (analyze agentID grants since until_ rows) opts) := by
  obtain ⟨_, first, here⟩ := Option.bind_eq_some_iff.mp own
  have observed := isObserved_of_covered agentID since until_ few inside allowed first here
  rw [mem_filter, (analyze_granted agentID grants since until_ rows).1]
  exact ⟨mem_of_getElem? here, Bool.or_eq_true_iff.mpr (.inl observed)⟩

end

def allowedRow (action resource : Bytes) : DecisionRow :=
  { action, resource, result := str "allowed" }

end TheAuth.Policy.Shrink
