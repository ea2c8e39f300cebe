import Mathlib.Algebra.Group.Nat.Defs
import Mathlib.Data.Nat.Log
import Mathlib.Data.List.Basic

/-!
# Append-only hash trees

A hash tree splits its leaves at the largest power of two below their number. A verifier halves
indices instead, and finds the same sides (`climb_eq_route`). A fold along a route that gives the
root has used exactly that leaf and its audit path, as long as no two different pairs that were
hashed have the same digest (`CollisionFree`).
-/

set_option autoImplicit false

namespace TheAuth.Library.MerkleTree

open List

def split (n : ℕ) : ℕ := 2 ^ Nat.log 2 (n - 1)

theorem split_pos (n : ℕ) : 0 < split n := Nat.pow_pos Nat.two_pos

variable {n a fn sn : ℕ}

theorem split_lt (large : 2 ≤ n) : split n < n := by
  have below := Nat.pow_log_le_self 2 (show n - 1 ≠ 0 by omega)
  unfold split
  omega

theorem le_two_mul_split (large : 2 ≤ n) : n ≤ 2 * split n := by
  have above := Nat.lt_pow_succ_log_self Nat.one_lt_two (n - 1)
  unfold split
  omega

theorem split_eq (below : 2 ^ a < n) (reaches : n ≤ 2 * 2 ^ a) : split n = 2 ^ a := by
  unfold split
  have exponent : Nat.log 2 (n - 1) = a := by
    apply Nat.log_eq_of_pow_le_of_lt_pow
    · omega
    · omega
  rw [exponent]

theorem split_eq_of_lt {m : ℕ} (large : 2 ≤ n) (longer : split n < m) (shorter : m ≤ n) :
    split m = split n :=
  split_eq longer (shorter.trans (le_two_mul_split large))

variable {D : Type*} (node : D → D → D) (empty : D)

/-- The root of the leaves. -/
def root (leaves : List D) : D :=
  if _large : 2 ≤ leaves.length then
    node (root (leaves.take (split leaves.length))) (root (leaves.drop (split leaves.length)))
  else leaves.headD empty
termination_by leaves.length
decreasing_by
  · have := split_lt _large
    simp only [List.length_take]
    omega
  · have := split_pos leaves.length
    simp only [List.length_drop]
    omega

def auditPath (leaves : List D) (i : ℕ) : List D :=
  if _large : 2 ≤ leaves.length then
    if i < split leaves.length then
      auditPath (leaves.take (split leaves.length)) i ++
        [root node empty (leaves.drop (split leaves.length))]
    else
      auditPath (leaves.drop (split leaves.length)) (i - split leaves.length) ++
        [root node empty (leaves.take (split leaves.length))]
  else []
termination_by leaves.length
decreasing_by
  · have := split_lt _large
    simp only [List.length_take]
    omega
  · have := split_pos leaves.length
    simp only [List.length_drop]
    omega

def rootPairs (leaves : List D) : List (D × D) :=
  if _large : 2 ≤ leaves.length then
    (root node empty (leaves.take (split leaves.length)),
      root node empty (leaves.drop (split leaves.length))) ::
      (rootPairs (leaves.take (split leaves.length)) ++
        rootPairs (leaves.drop (split leaves.length)))
  else []
termination_by leaves.length
decreasing_by
  · have := split_lt _large
    simp only [List.length_take]
    omega
  · have := split_pos leaves.length
    simp only [List.length_drop]
    omega

variable {node empty} {leaves : List D} {P : D → Prop} {r : D}

theorem root_of_large (large : 2 ≤ leaves.length) :
    root node empty leaves =
      node (root node empty (leaves.take (split leaves.length)))
        (root node empty (leaves.drop (split leaves.length))) := by
  rw [root, dif_pos large]

theorem root_singleton (leaf : D) : root node empty [leaf] = leaf := by
  rw [root]
  simp

theorem rootPairs_of_large (large : 2 ≤ leaves.length) :
    rootPairs node empty leaves =
      (root node empty (leaves.take (split leaves.length)),
        root node empty (leaves.drop (split leaves.length))) ::
        (rootPairs node empty (leaves.take (split leaves.length)) ++
          rootPairs node empty (leaves.drop (split leaves.length))) := by
  rw [rootPairs, dif_pos large]

theorem rootPairs_take_subset (large : 2 ≤ leaves.length) :
    rootPairs node empty (leaves.take (split leaves.length)) ⊆ rootPairs node empty leaves := by
  rw [rootPairs_of_large large]
  exact fun _ inPart => mem_cons_of_mem _ (mem_append_left _ inPart)

theorem rootPairs_drop_subset (large : 2 ≤ leaves.length) :
    rootPairs node empty (leaves.drop (split leaves.length)) ⊆ rootPairs node empty leaves := by
  rw [rootPairs_of_large large]
  exact fun _ inPart => mem_cons_of_mem _ (mem_append_right _ inPart)

theorem forall_root (nodes : ∀ a b, P (node a b)) (none_ : P empty)
    (all : ∀ leaf ∈ leaves, P leaf) : P (root node empty leaves) := by
  rw [root]
  split
  · exact nodes _ _
  cases leaves with
  | nil => exact none_
  | cons leaf => exact all leaf mem_cons_self

theorem forall_rootPairs (nodes : ∀ a b, P (node a b)) (none_ : P empty)
    (all : ∀ leaf ∈ leaves, P leaf) : ∀ x ∈ rootPairs node empty leaves, P x.1 ∧ P x.2 := by
  induction size : leaves.length using Nat.strong_induction_on generalizing leaves with
  | _ _ ih =>
    intro x inside
    by_cases large : 2 ≤ leaves.length
    · have low : ∀ leaf ∈ leaves.take (split leaves.length), P leaf :=
        fun leaf here => all leaf (mem_of_mem_take here)
      have high : ∀ leaf ∈ leaves.drop (split leaves.length), P leaf :=
        fun leaf here => all leaf (mem_of_mem_drop here)
      have below := split_lt large
      have positive := split_pos leaves.length
      rw [rootPairs_of_large large, mem_cons, mem_append] at inside
      obtain rfl | inLow | inHigh := inside
      · exact ⟨forall_root nodes none_ low, forall_root nodes none_ high⟩
      · exact ih _ (by rw [length_take]; omega) low rfl x inLow
      · exact ih _ (by rw [length_drop]; omega) high rfl x inHigh
    · rw [rootPairs, dif_neg large] at inside
      cases inside

theorem length_take_split (large : 2 ≤ leaves.length) :
    (leaves.take (split leaves.length)).length = split leaves.length := by
  have := split_lt large
  simp only [length_take]
  omega

/-! ## Routes -/

/-- On which side a node stands. -/
inductive Side where
  | left | right
  deriving DecidableEq

def route (n i : ℕ) : List Side :=
  if _large : 2 ≤ n then
    if i < split n then route (split n) i ++ [.right]
    else route (n - split n) (i - split n) ++ [.left]
  else []
termination_by n
decreasing_by
  · exact split_lt _large
  · have := split_pos n
    omega

def climb (fn sn : ℕ) : List Side :=
  if _zero : sn = 0 then []
  else if fn % 2 = 1 then .left :: climb (fn / 2) (sn / 2)
  else if fn = sn then climb (fn / 2) (sn / 2)
  else .right :: climb (fn / 2) (sn / 2)
termination_by sn
decreasing_by all_goals omega

theorem climb_odd (odd : fn % 2 = 1) (bound : fn ≤ sn) :
    climb fn sn = .left :: climb (fn / 2) (sn / 2) := by
  rw [climb, dif_neg (by omega), if_pos odd]

theorem climb_even_self (even : fn % 2 = 0) : climb fn fn = climb (fn / 2) (fn / 2) := by
  by_cases zero : fn = 0
  · subst zero
    rfl
  · rw [climb, dif_neg zero, if_neg (by omega), if_pos rfl]

theorem climb_even_lt (even : fn % 2 = 0) (bound : fn < sn) :
    climb fn sn = .right :: climb (fn / 2) (sn / 2) := by
  rw [climb, dif_neg (by omega), if_neg (by omega), if_neg (by omega)]

@[simp] theorem climb_zero (fn : ℕ) : climb fn 0 = [] := by
  rw [climb, dif_pos rfl]

theorem climb_low (lower : 2 ^ a ≤ sn) (upper : sn < 2 ^ (a + 1))
    (low : fn < 2 ^ a) : climb fn sn = climb fn (2 ^ a - 1) ++ [.right] := by
  induction a generalizing fn sn with
  | zero =>
    obtain rfl : sn = 1 := by simp at lower upper; omega
    obtain rfl : fn = 0 := by simpa using low
    rw [climb_even_lt rfl Nat.one_pos]
    simp
  | succ a ih =>
    rw [Nat.pow_succ] at lower upper low ⊢
    have half : climb (fn / 2) (sn / 2) = climb (fn / 2) (2 ^ a - 1) ++ [.right] :=
      ih (by omega) (by omega) (by omega)
    have halved : (2 ^ a * 2 - 1) / 2 = 2 ^ a - 1 := by omega
    rcases Nat.mod_two_eq_zero_or_one fn with even | odd
    · rw [climb_even_lt even (by omega), half, climb_even_lt even (by omega), halved]
      rfl
    · rw [climb_odd odd (by omega), half, climb_odd odd (by omega), halved]
      rfl

theorem climb_high (high : 2 ^ a ≤ fn) (bound : fn ≤ sn)
    (upper : sn < 2 ^ (a + 1)) : climb fn sn = climb (fn - 2 ^ a) (sn - 2 ^ a) ++ [.left] := by
  induction a generalizing fn sn with
  | zero =>
    obtain rfl : fn = 1 := by simp at high upper; omega
    obtain rfl : sn = 1 := by simp at upper; omega
    rw [climb_odd rfl (Nat.le_refl 1)]
    simp
  | succ a ih =>
    rw [Nat.pow_succ] at high upper ⊢
    have half : climb (fn / 2) (sn / 2) =
        climb ((fn - 2 ^ a * 2) / 2) ((sn - 2 ^ a * 2) / 2) ++ [.left] := by
      rw [show (fn - 2 ^ a * 2) / 2 = fn / 2 - 2 ^ a by omega,
        show (sn - 2 ^ a * 2) / 2 = sn / 2 - 2 ^ a by omega]
      exact ih (by omega) (by omega) (by omega)
    rcases Nat.mod_two_eq_zero_or_one fn with even | odd
    · have stays : (fn - 2 ^ a * 2) % 2 = 0 := by omega
      rcases Nat.lt_or_eq_of_le bound with below | last
      · rw [climb_even_lt even below, half, climb_even_lt stays (by omega)]
        rfl
      · subst last
        rw [climb_even_self even, half, ← climb_even_self stays]
    · have stays : (fn - 2 ^ a * 2) % 2 = 1 := by omega
      rw [climb_odd odd bound, half, climb_odd stays (by omega)]
      rfl

theorem climb_eq_route {i : ℕ} (inside : i < n) : climb i (n - 1) = route n i := by
  induction n using Nat.strongRecOn generalizing i with
  | ind n ih =>
    rw [route]
    split
    next large =>
      have below := split_lt large
      have reaches := le_two_mul_split large
      obtain ⟨a, power⟩ : ∃ a, split n = 2 ^ a := ⟨_, rfl⟩
      have upper : n - 1 < 2 ^ (a + 1) := by rw [Nat.pow_succ]; omega
      split
      next low => rw [climb_low (by omega) upper (by omega), ← power, ih _ below low]
      rw [climb_high (a := a) (by omega) (by omega) upper, ← power,
        show n - 1 - split n = n - split n - 1 by omega, ih _ (by omega) (by omega)]
    obtain rfl : n = 1 := by omega
    simp

/-! ## Replays -/

section

variable {S T : Type*}

def replayWith (combine : Side → D → S → S) : List Side → List D → S → Option S
  | [], [], r => some r
  | side :: sides, p :: path, r => replayWith combine sides path (combine side p r)
  | _, _, _ => none

theorem replayWith_concat (combine : Side → D → S → S) (sides : List Side) (side : Side)
    (path : List D) (p : D) (r : S) :
    replayWith combine (sides ++ [side]) (path ++ [p]) r =
      (replayWith combine sides path r).map (combine side p) := by
  induction sides generalizing path r with
  | nil =>
    cases path with
    | nil => rfl
    | cons _ path => cases path <;> rfl
  | cons _ sides ih =>
    cases path with
    | nil => cases sides <;> rfl
    | cons _ path => exact ih path _

variable {combine : Side → D → S → S} {side : Side} {path : List D}

theorem replayWith_level {sides : List Side}
    {p : D} {r middle : S} (part : replayWith combine sides path r = some middle) :
    replayWith combine (sides ++ [side]) (path ++ [p]) r = some (combine side p middle) := by
  rw [replayWith_concat, part]
  rfl

theorem replayWith_concat_eq_some {sides : List Side} {r result : S}
    (folded : replayWith combine (sides ++ [side]) path r = some result) :
    ∃ front p middle, path = front ++ [p] ∧ replayWith combine sides front r = some middle ∧
      combine side p middle = result := by
  rcases eq_nil_or_concat path with rfl | ⟨front, p, rfl⟩
  · cases sides <;> cases folded
  · rw [concat_eq_append, replayWith_concat] at folded
    obtain ⟨middle, folded, combined⟩ := Option.map_eq_some_iff.mp folded
    exact ⟨front, p, middle, concat_eq_append, folded, combined⟩

theorem replayWith_nil_eq_some {r result : S}
    (folded : replayWith combine [] path r = some result) : path = [] ∧ r = result := by
  cases path with
  | nil => exact ⟨rfl, Option.some.inj folded⟩
  | cons => cases folded

theorem replayWith_pair (first : Side → D → S → S) (second : Side → D → T → T)
    (sides : List Side) (path : List D) (r : S) (t : T) (r' : S) (t' : T) :
    replayWith (fun side p (state : S × T) => (first side p state.1, second side p state.2))
        sides path (r, t) = some (r', t') ↔
      replayWith first sides path r = some r' ∧ replayWith second sides path t = some t' := by
  induction sides generalizing path r t with
  | nil => cases path <;> simp [replayWith]
  | cons _ _ ih =>
    cases path with
    | nil => simp [replayWith]
    | cons _ path => exact ih path _ _

end

variable (node)

def combine : Side → D → D → D
  | .left, p, r => node p r
  | .right, p, r => node r p

def replay : List Side → List D → D → Option D := replayWith (combine node)

def pair : Side → D → D → D × D
  | .left, p, r => (p, r)
  | .right, p, r => (r, p)

def replayPairs : List Side → List D → D → List (D × D)
  | side :: sides, p :: path, r => pair side p r :: replayPairs sides path (combine node side p r)
  | _, _, _ => []

variable {node} {sides : List Side} {leaves path : List D} {i : ℕ}

theorem replayPairs_concat {side : Side} {p middle : D}
    (folded : replay node sides path r = some middle) :
    replayPairs node (sides ++ [side]) (path ++ [p]) r =
      replayPairs node sides path r ++ [pair side p middle] := by
  induction sides generalizing path r with
  | nil =>
    obtain ⟨rfl, rfl⟩ := replayWith_nil_eq_some folded
    rfl
  | cons first _ ih =>
    cases path with
    | nil => cases folded
    | cons q => exact congrArg (pair first q r :: ·) (ih folded)

theorem forall_replayPairs (nodes : ∀ a b, P (node a b)) (all : ∀ p ∈ path, P p) (start : P r) :
    ∀ x ∈ replayPairs node sides path r, P x.1 ∧ P x.2 := by
  induction sides generalizing path r with
  | nil => exact nofun
  | cons side _ ih =>
    cases path with
    | nil => exact nofun
    | cons p =>
      intro x inside
      have here := all p mem_cons_self
      rcases mem_cons.mp inside with rfl | later
      · cases side with
        | left => exact ⟨here, start⟩
        | right => exact ⟨start, here⟩
      · refine ih (fun q listed => all q (mem_cons_of_mem _ listed)) ?_ x later
        cases side with
        | left | right => exact nodes _ _

/-! ## Collisions -/

variable (node) in
/-- No pair of the first list has the hash of a different pair of the second. -/
def CollisionFree (first second : List (D × D)) : Prop :=
  ∀ x ∈ first, ∀ y ∈ second, node x.1 x.2 = node y.1 y.2 → x = y

instance [DecidableEq D] (first second : List (D × D)) :
    Decidable (CollisionFree node first second) :=
  inferInstanceAs (Decidable (∀ x ∈ first, ∀ y ∈ second, node x.1 x.2 = node y.1 y.2 → x = y))

theorem CollisionFree.mono {first second first' second' : List (D × D)}
    (free : CollisionFree node first second) (fewer : first' ⊆ first) (less : second' ⊆ second) :
    CollisionFree node first' second' :=
  fun x inFirst y inSecond => free x (fewer inFirst) y (less inSecond)

theorem replay_concat_eq_root {side : Side} (large : 2 ≤ leaves.length)
    (free : CollisionFree node (rootPairs node empty leaves)
      (replayPairs node (sides ++ [side]) path r))
    (folded : replay node (sides ++ [side]) path r = some (root node empty leaves)) :
    ∃ front p middle, path = front ++ [p] ∧ replay node sides front r = some middle ∧
      (root node empty (leaves.take (split leaves.length)),
        root node empty (leaves.drop (split leaves.length))) = pair side p middle ∧
      replayPairs node sides front r ⊆ replayPairs node (sides ++ [side]) path r := by
  obtain ⟨front, p, middle, rfl, folded, combined⟩ := replayWith_concat_eq_some folded
  refine ⟨front, p, middle, rfl, folded, ?_, ?_⟩
  · apply free
    · rw [rootPairs_of_large large]
      exact mem_cons_self
    · rw [replayPairs_concat folded]
      exact mem_append_right _ mem_cons_self
    · have hashed : combine node side p middle =
          node (pair side p middle).1 (pair side p middle).2 := by cases side <;> rfl
      rw [← hashed, combined]
      exact (root_of_large large).symm
  · rw [replayPairs_concat folded]
    exact subset_append_left _ _

theorem route_low (large : 2 ≤ n) (low : i < split n) :
    route n i = route (split n) i ++ [.right] := by
  rw [route, dif_pos large, if_pos low]

theorem route_high (large : 2 ≤ n) (high : ¬ i < split n) :
    route n i = route (n - split n) (i - split n) ++ [.left] := by
  rw [route, dif_pos large, if_neg high]

theorem auditPath_low (large : 2 ≤ leaves.length) (low : i < split leaves.length) :
    auditPath node empty leaves i =
      auditPath node empty (leaves.take (split leaves.length)) i ++
        [root node empty (leaves.drop (split leaves.length))] := by
  rw [auditPath, dif_pos large, if_pos low]

theorem auditPath_high (large : 2 ≤ leaves.length) (high : ¬ i < split leaves.length) :
    auditPath node empty leaves i =
      auditPath node empty (leaves.drop (split leaves.length)) (i - split leaves.length) ++
        [root node empty (leaves.take (split leaves.length))] := by
  rw [auditPath, dif_pos large, if_neg high]

theorem eq_root_of_mem_append {p : D} {inner outer nodes : List D}
    (deeper : p ∈ nodes → ∃ part, part ⊆ inner ∧ p = root node empty part) (inside : inner ⊆ leaves)
    (beside : outer ⊆ leaves) (member : p ∈ nodes ++ [root node empty outer]) :
    ∃ part, part ⊆ leaves ∧ p = root node empty part := by
  rcases mem_append.mp member with below | top
  · obtain ⟨part, within, rfl⟩ := deeper below
    exact ⟨part, List.Subset.trans within inside, rfl⟩
  · exact ⟨outer, beside, mem_singleton.mp top⟩

theorem eq_root_of_mem_auditPath {p : D} (member : p ∈ auditPath node empty leaves i) :
    ∃ part, part ⊆ leaves ∧ p = root node empty part := by
  induction leaves, i using auditPath.induct with
  | case1 _ _ large low ih =>
    rw [auditPath_low large low] at member
    exact eq_root_of_mem_append ih (take_subset _ _) (drop_subset _ _) member
  | case2 _ _ large high ih =>
    rw [auditPath_high large high] at member
    exact eq_root_of_mem_append ih (drop_subset _ _) (take_subset _ _) member
  | case3 _ _ small =>
    rw [auditPath, dif_neg small] at member
    cases member

theorem replay_auditPath {leaf : D} (here : leaves[i]? = some leaf) :
    replay node (route leaves.length i) (auditPath node empty leaves i) leaf =
      some (root node empty leaves) := by
  induction leaves, i using auditPath.induct with
  | case1 leaves i large low ih =>
    have inPart : (leaves.take (split leaves.length))[i]? = some leaf := by
      rw [List.getElem?_take_of_lt low, here]
    have part := ih inPart
    rw [length_take_split large] at part
    rw [auditPath_low large low, route_low large low, root_of_large large]
    exact replayWith_level part
  | case2 leaves i large high ih =>
    have inPart : (leaves.drop (split leaves.length))[i - split leaves.length]? = some leaf := by
      rw [List.getElem?_drop, Nat.add_sub_cancel' (Nat.le_of_not_lt high), here]
    have part := ih inPart
    rw [List.length_drop] at part
    rw [auditPath_high large high, route_high large high, root_of_large large]
    exact replayWith_level part
  | case3 leaves i =>
    obtain ⟨inside, rfl⟩ := List.getElem?_eq_some_iff.mp here
    obtain ⟨_, rfl⟩ := List.length_eq_one_iff.mp (show leaves.length = 1 by omega)
    obtain rfl : i = 0 := by simpa using inside
    rw [auditPath, route, root_singleton]
    rfl

theorem eq_of_replay_route {leaf : D} (inside : i < leaves.length)
    (free : CollisionFree node (rootPairs node empty leaves)
      (replayPairs node (route leaves.length i) path leaf))
    (folded : replay node (route leaves.length i) path leaf = some (root node empty leaves)) :
    leaves[i]? = some leaf ∧ path = auditPath node empty leaves i := by
  induction leaves, i using auditPath.induct generalizing path with
  | case1 _ _ large low ih =>
    rw [route_low large low] at free folded
    obtain ⟨_, _, _, rfl, part, pairs, fewer⟩ := replay_concat_eq_root large free folded
    obtain ⟨rfl, rfl⟩ := Prod.mk.inj pairs
    have lengthPart := length_take_split large
    obtain ⟨inPart, rfl⟩ := ih (by rw [lengthPart]; exact low)
      (by rw [lengthPart]; exact free.mono (rootPairs_take_subset large) fewer)
      (by rw [lengthPart]; exact part)
    rw [getElem?_take_of_lt low] at inPart
    exact ⟨inPart, (auditPath_low large low).symm⟩
  | case2 _ _ large high ih =>
    rw [route_high large high] at free folded
    obtain ⟨_, _, _, rfl, part, pairs, fewer⟩ := replay_concat_eq_root large free folded
    obtain ⟨rfl, rfl⟩ := Prod.mk.inj pairs
    obtain ⟨inPart, rfl⟩ := ih (by rw [length_drop]; omega)
      (by rw [length_drop]; exact free.mono (rootPairs_drop_subset large) fewer)
      (by rw [length_drop]; exact part)
    rw [getElem?_drop, Nat.add_sub_cancel' (Nat.le_of_not_lt high)] at inPart
    exact ⟨inPart, (auditPath_high large high).symm⟩
  | case3 leaves i =>
    obtain ⟨_, rfl⟩ := length_eq_one_iff.mp (show leaves.length = 1 by omega)
    obtain rfl : i = 0 := by simpa using inside
    rw [route, root_singleton] at folded
    obtain ⟨rfl, rfl⟩ := replayWith_nil_eq_some folded
    rw [auditPath]
    exact ⟨rfl, rfl⟩

end TheAuth.Library.MerkleTree
