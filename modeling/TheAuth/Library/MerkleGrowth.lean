import TheAuth.Library.MerkleTree

/-!
# Growing a hash tree

A consistency proof starts from the last node that the trees over `n` and over the first `m` leaves
share. `growth m n` lists the sides from there to the new root, as the recursive split yields them,
and a verifier finds them by halving the last indices.
-/

set_option autoImplicit false

namespace TheAuth.Library.MerkleTree

open List

def growth (m n : ℕ) : List Side :=
  if _grows : m < n ∧ 2 ≤ n then
    if m ≤ split n then growth m (split n) ++ [.right]
    else growth (m - split n) (n - split n) ++ [.left]
  else []
termination_by n
decreasing_by
  · exact split_lt _grows.2
  · have := split_pos n
    omega

variable {m n fn sn : ℕ}

theorem growth_low (grows : m < n) (large : 2 ≤ n) (low : m ≤ split n) :
    growth m n = growth m (split n) ++ [.right] := by
  rw [growth, dif_pos ⟨grows, large⟩, if_pos low]

theorem growth_high (grows : m < n) (large : 2 ≤ n) (high : ¬ m ≤ split n) :
    growth m n = growth (m - split n) (n - split n) ++ [.left] := by
  rw [growth, dif_pos ⟨grows, large⟩, if_neg high]

theorem growth_self (n : ℕ) : growth n n = [] := by
  rw [growth, dif_neg (by omega)]

def strip (fn sn : ℕ) : ℕ × ℕ :=
  if _odd : fn % 2 = 1 then strip (fn / 2) (sn / 2) else (fn, sn)
termination_by fn
decreasing_by omega

theorem strip_odd (odd : fn % 2 = 1) : strip fn sn = strip (fn / 2) (sn / 2) := by
  rw [strip, dif_pos odd]

theorem strip_even (even : fn % 2 = 0) : strip fn sn = (fn, sn) := by
  rw [strip, dif_neg (by omega)]

theorem strip_le (bound : fn ≤ sn) : (strip fn sn).1 ≤ (strip fn sn).2 := by
  induction fn, sn using strip.induct with
  | case1 _ _ odd ih =>
    rw [strip_odd odd]
    exact ih (Nat.div_le_div_right bound)
  | case2 _ _ even =>
    rw [strip, dif_neg even]
    exact bound

def climbStripped (fn sn : ℕ) : List Side := climb (strip fn sn).1 (strip fn sn).2

theorem climbStripped_odd (odd : fn % 2 = 1) :
    climbStripped fn sn = climbStripped (fn / 2) (sn / 2) := by
  rw [climbStripped, strip_odd odd]
  rfl

theorem climbStripped_even (even : fn % 2 = 0) : climbStripped fn sn = climb fn sn := by
  rw [climbStripped, strip_even even]

theorem climbStripped_full (a : ℕ) : climbStripped (2 ^ a - 1) (2 ^ a - 1) = [] := by
  induction a with
  | zero => rw [climbStripped_even rfl, Nat.pow_zero, climb_zero]
  | succ a ih =>
    have positive : 0 < 2 ^ a := Nat.pow_pos Nat.two_pos
    rw [Nat.pow_succ, climbStripped_odd (by omega),
      show (2 ^ a * 2 - 1) / 2 = 2 ^ a - 1 by omega, ih]

theorem climbStripped_low {a : ℕ} (lower : 2 ^ a ≤ sn) (upper : sn < 2 ^ (a + 1))
    (low : fn < 2 ^ a) : climbStripped fn sn = climbStripped fn (2 ^ a - 1) ++ [.right] := by
  induction a generalizing fn sn with
  | zero =>
    obtain rfl : fn = 0 := by simpa using low
    rw [climbStripped_even rfl, climbStripped_even rfl, climb_low lower upper low]
  | succ a ih =>
    rcases Nat.mod_two_eq_zero_or_one fn with even | odd
    · rw [climbStripped_even even, climbStripped_even even, climb_low lower upper low]
    · rw [Nat.pow_succ] at lower upper low ⊢
      rw [climbStripped_odd odd, climbStripped_odd odd,
        show (2 ^ a * 2 - 1) / 2 = 2 ^ a - 1 by omega]
      exact ih (by omega) (by omega) (by omega)

theorem climbStripped_high {a : ℕ} (high : 2 ^ a ≤ fn) (below : fn < sn)
    (upper : sn < 2 ^ (a + 1)) :
    climbStripped fn sn = climbStripped (fn - 2 ^ a) (sn - 2 ^ a) ++ [.left] := by
  induction a generalizing fn sn with
  | zero => simp at high upper; omega
  | succ a ih =>
    rcases Nat.mod_two_eq_zero_or_one fn with even | odd
    · have stays : (fn - 2 ^ (a + 1)) % 2 = 0 := by rw [Nat.pow_succ]; omega
      rw [climbStripped_even even, climbStripped_even stays,
        climb_high high (Nat.le_of_lt below) upper]
    · rw [Nat.pow_succ] at high upper ⊢
      have stays : (fn - 2 ^ a * 2) % 2 = 1 := by omega
      rw [climbStripped_odd odd, climbStripped_odd stays,
        show (fn - 2 ^ a * 2) / 2 = fn / 2 - 2 ^ a by omega,
        show (sn - 2 ^ a * 2) / 2 = sn / 2 - 2 ^ a by omega]
      exact ih (by omega) (by omega) (by omega)

theorem climbStripped_eq_growth (positive : 1 ≤ m) (grows : m < n) :
    climbStripped (m - 1) (n - 1) = growth m n := by
  induction n using Nat.strongRecOn generalizing m with
  | ind n ih =>
    have large : 2 ≤ n := by omega
    have below := split_lt large
    have reaches := le_two_mul_split large
    obtain ⟨a, power⟩ : ∃ a, split n = 2 ^ a := ⟨_, rfl⟩
    have upper : n - 1 < 2 ^ (a + 1) := by rw [Nat.pow_succ]; omega
    by_cases low : m ≤ split n
    · rw [growth_low grows large low, climbStripped_low (by omega) upper (by omega), ← power]
      rcases Nat.lt_or_eq_of_le low with shorter | same
      · rw [ih _ below positive shorter]
      · rw [same, growth_self, power, climbStripped_full]
    · rw [growth_high grows large low, climbStripped_high (by omega) (by omega) upper,
        ← power, show m - 1 - split n = m - split n - 1 by omega,
        show n - 1 - split n = n - split n - 1 by omega, ih _ (by omega) (by omega) (by omega)]

variable {D : Type*} (node : D → D → D) (empty : D)

def proofNodes (m : ℕ) (leaves : List D) : List D :=
  if _grows : m < leaves.length ∧ 2 ≤ leaves.length then
    if m ≤ split leaves.length then
      proofNodes m (leaves.take (split leaves.length)) ++
        [root node empty (leaves.drop (split leaves.length))]
    else
      proofNodes (m - split leaves.length) (leaves.drop (split leaves.length)) ++
        [root node empty (leaves.take (split leaves.length))]
  else [root node empty leaves]
termination_by leaves.length
decreasing_by
  · have := split_lt _grows.2
    simp only [List.length_take]
    omega
  · have := split_pos leaves.length
    simp only [List.length_drop]
    omega

def combineOld : Side → D → D → D
  | .left, p, r => node p r
  | .right, _, r => r

def replayOld : List Side → List D → D → Option D := replayWith (combineOld node)

variable {node empty} {leaves : List D}

theorem proofNodes_low (grows : m < leaves.length) (large : 2 ≤ leaves.length)
    (low : m ≤ split leaves.length) :
    proofNodes node empty m leaves =
      proofNodes node empty m (leaves.take (split leaves.length)) ++
        [root node empty (leaves.drop (split leaves.length))] := by
  rw [proofNodes, dif_pos ⟨grows, large⟩, if_pos low]

theorem proofNodes_high (grows : m < leaves.length) (large : 2 ≤ leaves.length)
    (high : ¬ m ≤ split leaves.length) :
    proofNodes node empty m leaves =
      proofNodes node empty (m - split leaves.length) (leaves.drop (split leaves.length)) ++
        [root node empty (leaves.take (split leaves.length))] := by
  rw [proofNodes, dif_pos ⟨grows, large⟩, if_neg high]

theorem proofNodes_self (leaves : List D) :
    proofNodes node empty leaves.length leaves = [root node empty leaves] := by
  rw [proofNodes, dif_neg (by omega)]

theorem eq_root_of_mem_proofNodes {p : D} (member : p ∈ proofNodes node empty m leaves) :
    ∃ part, part ⊆ leaves ∧ p = root node empty part := by
  induction m, leaves using proofNodes.induct with
  | case1 _ _ grows low ih =>
    rw [proofNodes_low grows.1 grows.2 low] at member
    exact eq_root_of_mem_append ih (take_subset _ _) (drop_subset _ _) member
  | case2 _ _ grows high ih =>
    rw [proofNodes_high grows.1 grows.2 high] at member
    exact eq_root_of_mem_append ih (drop_subset _ _) (take_subset _ _) member
  | case3 _ leaves ended =>
    rw [proofNodes, dif_neg ended] at member
    exact ⟨leaves, List.Subset.refl _, mem_singleton.mp member⟩

theorem root_take_of_split_lt (large : 2 ≤ leaves.length) (high : ¬ m ≤ split leaves.length)
    (within : m ≤ leaves.length) :
    root node empty (leaves.take m) =
      node (root node empty (leaves.take (split leaves.length)))
        (root node empty
          ((leaves.drop (split leaves.length)).take (m - split leaves.length))) := by
  have positive := split_pos leaves.length
  have length : (leaves.take m).length = m := by simp [within]
  have same : split m = split leaves.length := split_eq_of_lt large (Nat.lt_of_not_le high) within
  rw [root_of_large (by omega), length, same, take_take, Nat.min_eq_left (by omega), drop_take]

theorem replay_proofNodes (positive : 1 ≤ m) (within : m ≤ leaves.length) :
    ∃ seed path, proofNodes node empty m leaves = seed :: path ∧
      replay node (growth m leaves.length) path seed = some (root node empty leaves) ∧
        replayOld node (growth m leaves.length) path seed =
          some (root node empty (leaves.take m)) := by
  induction m, leaves using proofNodes.induct with
  | case1 _ leaves grows low ih =>
    have lengthPart := length_take_split grows.2
    obtain ⟨seed, path, listed, toNew, toOld⟩ := ih positive (by rw [lengthPart]; exact low)
    rw [lengthPart] at toNew toOld
    rw [take_take, Nat.min_eq_left low] at toOld
    refine ⟨seed, path ++ [root node empty (leaves.drop (split leaves.length))], ?_, ?_, ?_⟩
    · rw [proofNodes_low grows.1 grows.2 low, listed]
      rfl
    · rw [growth_low grows.1 grows.2 low, root_of_large grows.2]
      exact replayWith_level toNew
    · rw [growth_low grows.1 grows.2 low]
      exact replayWith_level toOld
  | case2 _ leaves grows high ih =>
    obtain ⟨seed, path, listed, toNew, toOld⟩ := ih (by omega) (by rw [length_drop]; omega)
    rw [length_drop] at toNew toOld
    refine ⟨seed, path ++ [root node empty (leaves.take (split leaves.length))], ?_, ?_, ?_⟩
    · rw [proofNodes_high grows.1 grows.2 high, listed]
      rfl
    · rw [growth_high grows.1 grows.2 high, root_of_large grows.2]
      exact replayWith_level toNew
    · rw [growth_high grows.1 grows.2 high, root_take_of_split_lt grows.2 high within]
      exact replayWith_level toOld
  | case3 m leaves =>
    obtain rfl : m = leaves.length := by omega
    exact ⟨root node empty leaves, [], proofNodes_self leaves,
      by rw [growth_self]; rfl, by rw [growth_self, take_length]; rfl⟩

theorem replayOld_of_replay_growth {seed : D} {path : List D}
    (positive : 1 ≤ m) (within : m ≤ leaves.length)
    (free : CollisionFree node (rootPairs node empty leaves)
      (replayPairs node (growth m leaves.length) path seed))
    (folded : replay node (growth m leaves.length) path seed = some (root node empty leaves)) :
    replayOld node (growth m leaves.length) path seed = some (root node empty (leaves.take m)) := by
  induction m, leaves using proofNodes.induct generalizing path with
  | case1 _ _ grows low ih =>
    rw [growth_low grows.1 grows.2 low] at free folded ⊢
    obtain ⟨_, _, _, rfl, part, pairs, fewer⟩ := replay_concat_eq_root grows.2 free folded
    obtain ⟨rfl, rfl⟩ := Prod.mk.inj pairs
    have lengthPart := length_take_split grows.2
    have toOld := ih positive (by rw [lengthPart]; exact low)
      (by rw [lengthPart]; exact free.mono (rootPairs_take_subset grows.2) fewer)
      (by rw [lengthPart]; exact part)
    rw [lengthPart, take_take, Nat.min_eq_left low] at toOld
    exact replayWith_level toOld
  | case2 _ _ grows high ih =>
    rw [growth_high grows.1 grows.2 high] at free folded ⊢
    obtain ⟨_, _, _, rfl, part, pairs, fewer⟩ := replay_concat_eq_root grows.2 free folded
    obtain ⟨rfl, rfl⟩ := Prod.mk.inj pairs
    have toOld := ih (by omega) (by rw [length_drop]; omega)
      (by rw [length_drop]; exact free.mono (rootPairs_drop_subset grows.2) fewer)
      (by rw [length_drop]; exact part)
    rw [length_drop] at toOld
    rw [root_take_of_split_lt grows.2 high within]
    exact replayWith_level toOld
  | case3 m leaves =>
    obtain rfl : m = leaves.length := by omega
    rw [growth_self] at folded ⊢
    obtain ⟨rfl, rfl⟩ := replayWith_nil_eq_some folded
    rw [take_length]
    rfl

end TheAuth.Library.MerkleTree
