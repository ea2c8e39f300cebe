import Mathlib.Data.List.Basic
import Mathlib.Data.List.Induction
import Mathlib.Data.List.Nodup

/-!
# Hash chains in one list

A list of records of several chains is `Linked` when each record stands where the tip of its chain
expects it. The tips then determine the list, as long as no two different records have the same
digest. When records are missing, an ordered arrangement is linked exactly when a beginning of each
chain is left.
-/

set_option autoImplicit false

namespace TheAuth.Library.HashChain

open List HashChain

variable {R K H : Type*}

/-- How rows are chained. -/
structure Scheme (R K H : Type*) where
  key : R → K
  position : R → Int
  (prev digest : R → H)
  genesis : H

/-- The end of one chain. -/
structure Tip (K H : Type*) where
  key : K
  length : ℕ
  last : H

variable [DecidableEq K] (σ : Scheme R K H)

/-- The tips after one more row. -/
def push (tips : List (Tip K H)) (r : R) : List (Tip K H) :=
  match tips with
  | [] => [⟨σ.key r, 1, σ.digest r⟩]
  | tip :: older =>
    if tip.key = σ.key r then ⟨σ.key r, tip.length + 1, σ.digest r⟩ :: older
    else ⟨σ.key r, 1, σ.digest r⟩ :: tip :: older

def tips (rows : List R) : List (Tip K H) := rows.foldl (push σ) []

def expected (tips : List (Tip K H)) (key : K) : Int × H :=
  match tips with
  | [] => (1, σ.genesis)
  | tip :: _ => if tip.key = key then (tip.length + 1, tip.last) else (1, σ.genesis)

/-- The row is the next one of its chain. -/
def Fits (tips : List (Tip K H)) (r : R) : Prop :=
  (σ.position r, σ.prev r) = expected σ tips (σ.key r)

/-- Each row follows on the tips, or on the rows before it. -/
def LinkedFrom : List (Tip K H) → List R → Prop
  | _, [] => True
  | tips, r :: rest => Fits σ tips r ∧ LinkedFrom (push σ tips r) rest

/-- Each row follows on the one before it in its chain. -/
def Linked (rows : List R) : Prop := LinkedFrom σ [] rows

variable {σ}

theorem tips_concat (rows : List R) (r : R) : tips σ (rows ++ [r]) = push σ (tips σ rows) r :=
  foldl_concat _ _ _ _

variable {rows : List R} {r : R} {before : K → K → Prop}

theorem linkedFrom_concat {start : List (Tip K H)} :
    LinkedFrom σ start (rows ++ [r]) ↔
      LinkedFrom σ start rows ∧ Fits σ (rows.foldl (push σ) start) r := by
  induction rows generalizing start with
  | nil => exact ⟨fun h => ⟨trivial, h.1⟩, fun h => ⟨h.2, trivial⟩⟩
  | cons _ rest ih =>
    change _ ∧ LinkedFrom σ _ (rest ++ [r]) ↔ (_ ∧ _) ∧ _
    rw [ih, and_assoc]
    rfl

theorem linked_concat :
    Linked σ (rows ++ [r]) ↔ Linked σ rows ∧ Fits σ (tips σ rows) r :=
  linkedFrom_concat

theorem tips_map {S : Type*} {τ : Scheme S K H} {f : S → R} {rows : List S}
    (key : ∀ s, σ.key (f s) = τ.key s) (digest : ∀ s ∈ rows, σ.digest (f s) = τ.digest s) :
    tips σ (rows.map f) = tips τ rows := by
  induction rows using reverseRecOn with
  | nil => rfl
  | append_singleton _ last ih =>
    rw [map_append, map_singleton, tips_concat, tips_concat,
      ih fun s inside => digest s (mem_append_left _ inside)]
    unfold push
    rw [key, digest last (by simp)]

theorem linked_map {S : Type*} {τ : Scheme S K H} {f : S → R} {rows : List S}
    (genesis : σ.genesis = τ.genesis) (key : ∀ s, σ.key (f s) = τ.key s)
    (place : ∀ s, (σ.position (f s), σ.prev (f s)) = (τ.position s, τ.prev s))
    (digest : ∀ s ∈ rows, σ.digest (f s) = τ.digest s) :
    Linked σ (rows.map f) ↔ Linked τ rows := by
  induction rows using reverseRecOn with
  | nil => exact Iff.rfl
  | append_singleton front _ ih =>
    have digests : ∀ s ∈ front, σ.digest (f s) = τ.digest s :=
      fun s inside => digest s (mem_append_left _ inside)
    rw [map_append, map_singleton, linked_concat, linked_concat, ih digests, tips_map key digests]
    unfold Fits expected
    rw [place, key, genesis]

theorem exists_push_eq (tips : List (Tip K H)) (r : R) :
    ∃ length older, 0 < length ∧ push σ tips r = ⟨σ.key r, length, σ.digest r⟩ :: older := by
  cases tips with
  | nil => exact ⟨1, [], Nat.one_pos, rfl⟩
  | cons tip older =>
    rw [push]
    split
    · exact ⟨tip.length + 1, older, Nat.succ_pos _, rfl⟩
    · exact ⟨1, tip :: older, Nat.one_pos, rfl⟩

theorem tips_eq_nil_iff : tips σ rows = [] ↔ rows = [] := by
  rcases eq_nil_or_concat' rows with rfl | ⟨front, r, rfl⟩
  · exact ⟨fun _ => rfl, fun _ => rfl⟩
  · obtain ⟨_, _, -, shape⟩ := exists_push_eq (tips σ front) r
    rw [tips_concat, shape]
    simp

theorem length_pos_of_head {tip : Tip K H} {older : List (Tip K H)}
    (shape : tips σ rows = tip :: older) : 0 < tip.length := by
  rcases eq_nil_or_concat' rows with rfl | ⟨front, r, rfl⟩
  · cases shape
  · obtain ⟨_, _, pos, pushed⟩ := exists_push_eq (tips σ front) r
    rw [tips_concat, pushed] at shape
    cases shape
    exact pos

theorem tips_eq_of_push_eq {first second : List R} (one : Fits σ (tips σ first) r)
    (two : Fits σ (tips σ second) r)
    (same : push σ (tips σ first) r = push σ (tips σ second) r) : tips σ first = tips σ second := by
  have pos₁ := @length_pos_of_head _ _ _ _ σ first
  have pos₂ := @length_pos_of_head _ _ _ _ σ second
  -- a chain that goes on has two records or more, one that begins has one
  unfold Fits at one two
  generalize tips σ first = left at *
  generalize tips σ second = right at *
  cases left with
  | nil =>
    cases right with
    | nil => rfl
    | cons => grind [push]
  | cons tip =>
    cases right with
    | nil => grind [push]
    | cons other =>
      cases tip
      cases other
      grind [push, expected]

theorem eq_of_tips_eq {first second : List R} (one : Linked σ first) (two : Linked σ second)
    (free : ∀ a ∈ first, ∀ b ∈ second, σ.digest a = σ.digest b → a = b)
    (same : tips σ first = tips σ second) : first = second := by
  induction first using reverseRecOn generalizing second with
  | nil => exact (tips_eq_nil_iff.mp same.symm).symm
  | append_singleton first a ih =>
    rcases eq_nil_or_concat' second with rfl | ⟨second, b, rfl⟩
    · exact tips_eq_nil_iff.mp same
    · rw [linked_concat] at one two
      rw [tips_concat, tips_concat] at same
      obtain ⟨_, _, -, left⟩ := exists_push_eq (tips σ first) a
      obtain ⟨_, _, -, right⟩ := exists_push_eq (tips σ second) b
      have last : σ.digest a = σ.digest b := by
        rw [left, right] at same
        exact (Tip.mk.inj (cons.inj same).1).2.2
      cases free a (by simp) b (by simp) last
      rw [ih one.1 two.1 (fun a inA b inB => free a (mem_append_left _ inA) b
        (mem_append_left _ inB)) (tips_eq_of_push_eq one.2 two.2 same)]

theorem expected_push (tips : List (Tip K H)) (r : R) (key : K) :
    expected σ (push σ tips r) key =
      if σ.key r = key then ((expected σ tips key).1 + 1, σ.digest r) else (1, σ.genesis) := by
  cases tips with
  | nil => rfl
  | cons tip =>
    by_cases own : tip.key = σ.key r
    · rw [push, if_pos own, expected, expected, own]
      split <;> rfl
    · rw [push, if_neg own, expected, expected]
      split
      next here =>
        cases here
        rw [if_neg own]
        rfl
      · rfl

variable (σ) in
def ofKey (key : K) (rows : List R) : List R := rows.filter fun r => σ.key r = key

theorem ofKey_concat_self (rows : List R) (r : R) :
    ofKey σ (σ.key r) (rows ++ [r]) = ofKey σ (σ.key r) rows ++ [r] := by
  simp [ofKey]

variable {key : K}

theorem ofKey_concat_of_ne (other : σ.key r ≠ key) (rows : List R) :
    ofKey σ key (rows ++ [r]) = ofKey σ key rows := by
  simp [ofKey, other]

theorem key_of_mem_ofKey (inside : r ∈ ofKey σ key rows) :
    σ.key r = key := by
  simpa using (mem_filter.mp inside).2

variable (σ) in
/-- The rows are ordered by key, and by position under each key. -/
def Ordered (before : K → K → Prop) (rows : List R) : Prop :=
  rows.Pairwise fun a b =>
    before (σ.key a) (σ.key b) ∨ σ.key a = σ.key b ∧ σ.position a ≤ σ.position b

section

variable {before : K → K → Prop} (asymm : ∀ a b, before a b → ¬ before b a)
include asymm

theorem expected_ofKey {r : R} (ordered : Ordered σ before (rows ++ [r])) :
    expected σ (tips σ rows) (σ.key r) =
      expected σ (tips σ (ofKey σ (σ.key r) rows)) (σ.key r) := by
  induction rows using reverseRecOn generalizing r with
  | nil => rfl
  | append_singleton front last ih =>
    obtain ⟨inFront, -, beforeR⟩ := pairwise_append.mp ordered
    by_cases same : σ.key last = σ.key r
    · rw [← same, tips_concat, ofKey_concat_self, tips_concat, expected_push, expected_push,
        ih inFront]
    · -- the chain of the last record has ended, and that of `r` has not begun
      have lastFirst : before (σ.key last) (σ.key r) :=
        (beforeR last (by simp) r (by simp)).resolve_right fun own => same own.1
      have none_ : ofKey σ (σ.key r) front = [] := by
        refine filter_eq_nil_iff.mpr fun a inside => ?_
        intro own
        have own : σ.key a = σ.key r := by simpa using own
        rcases (pairwise_append.mp inFront).2.2 a inside last (by simp) with first | equal
        · exact asymm _ _ lastFirst (own ▸ first)
        · exact same (equal.1.symm.trans own)
      rw [tips_concat, expected_push, if_neg same, ofKey_concat_of_ne same, none_]
      rfl

theorem linked_of_ofKey (ordered : Ordered σ before rows)
    (each : ∀ key, Linked σ (ofKey σ key rows)) : Linked σ rows := by
  induction rows using reverseRecOn with
  | nil => trivial
  | append_singleton _ r ih =>
    have own := each (σ.key r)
    rw [ofKey_concat_self, linked_concat] at own
    refine linked_concat.mpr ⟨ih (pairwise_append.mp ordered).1 fun key => ?_, ?_⟩
    · by_cases same : σ.key r = key
      · exact same ▸ own.1
      · have whole := each key
        rwa [ofKey_concat_of_ne same] at whole
    · rw [Fits, expected_ofKey asymm ordered]
      exact own.2

end

theorem expected_of_one_key (one : ∀ r ∈ rows, σ.key r = key) :
    (expected σ (tips σ rows) key).1 = rows.length + 1 := by
  induction rows using reverseRecOn with
  | nil => rfl
  | append_singleton _ r ih =>
    rw [tips_concat, expected_push, if_pos (one r (by simp)),
      ih fun a inside => one a (mem_append_left _ inside)]
    simp

theorem Linked.positions (linked : Linked σ rows) (one : ∀ r ∈ rows, σ.key r = key) :
    (∀ r ∈ rows, σ.position r ≤ rows.length) ∧
      rows.Pairwise fun a b => σ.position a < σ.position b := by
  induction rows using reverseRecOn with
  | nil => exact ⟨nofun, .nil⟩
  | append_singleton front r ih =>
    have oneFront : ∀ a ∈ front, σ.key a = key := fun a inside =>
      one a (mem_append_left _ inside)
    obtain ⟨linked, fits⟩ := linked_concat.mp linked
    obtain ⟨bounded, grows⟩ := ih linked oneFront
    have here : σ.position r = front.length + 1 := by
      rw [← expected_of_one_key oneFront, ← one r (by simp)]
      exact congrArg Prod.fst fits
    constructor
    · intro a inside
      rw [length_append, length_singleton]
      rcases mem_append.mp inside with earlier | last
      · have := bounded a earlier
        omega
      · cases mem_singleton.mp last
        omega
    · refine pairwise_append.mpr ⟨grows, pairwise_singleton _ _, ?_⟩
      intro a inside _ last
      cases mem_singleton.mp last
      have := bounded a inside
      omega

theorem ofKey_eq_of_perm (asymm : ∀ a b, before a b → ¬ before b a) {written shown : List R}
    (grows : (ofKey σ key written).Pairwise fun a b => σ.position a < σ.position b)
    (same : shown.Perm written) (ordered : Ordered σ before shown) :
    ofKey σ key shown = ofKey σ key written := by
  have distinct : ((ofKey σ key written).map σ.position).Nodup :=
    (pairwise_map.mpr grows).imp Int.ne_of_lt
  have sorted : (ofKey σ key shown).Pairwise fun a b => σ.position a ≤ σ.position b := by
    refine (ordered.sublist filter_sublist).imp_of_mem fun {a b} inA inB either => ?_
    rcases either with first | own
    · rw [key_of_mem_ofKey inA, key_of_mem_ofKey inB] at first
      exact absurd first (asymm _ _ first)
    · exact own.2
  refine (same.filter _).eq_of_pairwise (fun a b inA inB le ge => ?_) sorted
    (grows.imp Int.le_of_lt)
  exact inj_on_of_nodup_map distinct ((same.filter _).mem_iff.mp inA) inB (Int.le_antisymm le ge)

theorem linked_of_perm (asymm : ∀ a b, before a b → ¬ before b a)
    {written shown : List R} (each : ∀ key, Linked σ (ofKey σ key written))
    (same : shown.Perm written) (ordered : Ordered σ before shown) : Linked σ shown := by
  refine linked_of_ofKey asymm ordered fun key => ?_
  have grows := ((each key).positions fun r inside => key_of_mem_ofKey inside).2
  exact ofKey_eq_of_perm asymm grows same ordered ▸ each key

theorem Linked.of_append {front back : List R} (linked : Linked σ (front ++ back)) :
    Linked σ front := by
  induction back using reverseRecOn with
  | nil => rwa [append_nil] at linked
  | append_singleton _ _ ih =>
    rw [← append_assoc] at linked
    exact ih (linked_concat.mp linked).1

theorem Linked.position_getElem (linked : Linked σ rows)
    (one : ∀ r ∈ rows, σ.key r = key) {i : ℕ} (inside : i < rows.length) :
    σ.position rows[i] = i + 1 := by
  have upTo : Linked σ (rows.take i ++ [rows[i]]) := by
    rw [take_append_getElem inside]
    rw [← take_append_drop (i + 1) rows] at linked
    exact linked.of_append
  have fits := congrArg Prod.fst (linked_concat.mp upTo).2
  rw [one _ (getElem_mem inside), expected_of_one_key fun r taken =>
    one r (mem_of_mem_take taken), length_take] at fits
  rwa [show min i rows.length = i by omega] at fits

theorem Linked.iff_isPrefixOf {whole part : List R} (linked : Linked σ whole)
    (one : ∀ r ∈ whole, σ.key r = key) (sub : part.Sublist whole) :
    Linked σ part ↔ part <+: whole := by
  constructor
  · intro partLinked
    refine prefix_iff_getElem.mpr ⟨sub.length_le, fun i inside => ?_⟩
    have oneKey : ∀ r ∈ part, σ.key r = key := fun r listed => one r (sub.subset listed)
    obtain ⟨j, within, same⟩ := mem_iff_getElem.mp (sub.subset (getElem_mem inside))
    have here := partLinked.position_getElem oneKey inside
    have there := linked.position_getElem one within
    rw [same] at there
    obtain rfl : i = j := by omega
    exact same.symm
  · rintro ⟨_, rfl⟩
    exact linked.of_append

section

variable {before : K → K → Prop} (asymm : ∀ a b, before a b → ¬ before b a)
include asymm

theorem Linked.ofKey (ordered : Ordered σ before rows) (linked : Linked σ rows)
    (key : K) : Linked σ (ofKey σ key rows) := by
  induction rows using reverseRecOn with
  | nil => trivial
  | append_singleton _ r ih =>
    obtain ⟨linkedFront, fits⟩ := linked_concat.mp linked
    have chain := ih (pairwise_append.mp ordered).1 linkedFront
    by_cases same : σ.key r = key
    · subst same
      rw [ofKey_concat_self]
      refine linked_concat.mpr ⟨chain, ?_⟩
      rw [Fits, ← expected_ofKey asymm ordered]
      exact fits
    · rwa [ofKey_concat_of_ne same]

theorem linked_iff_prefixes {written left shown : List R}
    (each : ∀ key, Linked σ (ofKey σ key written)) (sub : left.Sublist written)
    (same : shown.Perm left) (ordered : Ordered σ before shown) :
    Linked σ shown ↔ ∀ key, ofKey σ key left <+: ofKey σ key written := by
  have oneKey : ∀ key, ∀ r ∈ ofKey σ key written, σ.key r = key :=
    fun _ _ inside => key_of_mem_ofKey inside
  have chains : ∀ key, ofKey σ key shown = ofKey σ key left := by
    intro key
    have grows := ((each key).positions (oneKey key)).2
    exact ofKey_eq_of_perm asymm (grows.sublist (sub.filter _)) same ordered
  have prefixes : ∀ key, Linked σ (ofKey σ key left) ↔
      ofKey σ key left <+: ofKey σ key written :=
    fun key => (each key).iff_isPrefixOf (oneKey key) (sub.filter _)
  constructor
  · intro linked key
    rw [← prefixes, ← chains]
    exact linked.ofKey asymm ordered key
  · intro beginnings
    refine linked_of_ofKey asymm ordered fun key => ?_
    rw [chains, prefixes]
    exact beginnings key

end

end TheAuth.Library.HashChain
