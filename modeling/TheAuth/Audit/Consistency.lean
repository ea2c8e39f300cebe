import TheAuth.Audit.Inclusion

/-!
# Consistency proofs

`subProof` leaves out the node a proof starts from when that node is the old root, and the verifier
puts it back when the old size is a power of two. With it the proof is `proofNodes` of the library.
-/

set_option autoImplicit false

namespace TheAuth.Audit

open Go Library.MerkleTree List

variable {m : ℕ} {leaves : List Bytes}

theorem isPowerOfTwo_iff (positive : 1 ≤ m) :
    isPowerOfTwo m = true ↔ m.isPowerOfTwo := by
  rw [← Nat.and_sub_one_eq_zero_iff_isPowerOfTwo (by omega)]
  simp [isPowerOfTwo]
  omega

theorem split_isPowerOfTwo (n : ℕ) : (split n).isPowerOfTwo := ⟨Nat.log 2 (n - 1), rfl⟩

theorem not_isPowerOfTwo_of_split_lt {n : ℕ} (high : split n < m) (grows : m < n) :
    ¬ m.isPowerOfTwo := by
  rintro ⟨a, rfl⟩
  obtain ⟨b, power⟩ := split_isPowerOfTwo n
  have reaches := le_two_mul_split (show 2 ≤ n by have := split_pos n; omega)
  rw [power] at high reaches
  have exponents : b + 1 ≤ a := (Nat.pow_lt_pow_iff_right (by decide)).mp high
  have doubled : 2 ^ (b + 1) ≤ 2 ^ a := Nat.pow_le_pow_right (by decide) exponents
  omega

theorem subProof_eq (m : ℕ) (leaves : List Bytes) (complete : Bool)
    (within : 1 ≤ m ∧ m ≤ leaves.length)
    (started : complete = true → m < leaves.length ∨ leaves.length.isPowerOfTwo) :
    (if complete && isPowerOfTwo m then [merkleRoot (leaves.take m)] else []) ++
        subProof m leaves complete within =
      proofNodes nodeHash (sum256 []) m leaves := by
  fun_induction subProof m leaves complete within with
  | case1 leaves within =>
    have full : isPowerOfTwo leaves.length = true :=
      (isPowerOfTwo_iff within.1).mpr ((started rfl).resolve_left (Nat.lt_irrefl _))
    rw [proofNodes_self, ← merkleRoot_eq, full, take_length]
    rfl
  | case2 _ complete withRoot =>
    obtain rfl : complete = false := by simpa using withRoot
    rw [proofNodes_self, ← merkleRoot_eq]
    rfl
  | case3 m leaves _ _ _ low ih =>
    have large : 2 ≤ leaves.length := by omega
    have unfolded : proofNodes nodeHash (sum256 []) m leaves = _ :=
      proofNodes_low (by omega) large (splitPoint_eq large ▸ low)
    rw [← splitPoint_eq large] at unfolded
    have part := ih fun _ => Or.inr (by
      rw [splitPoint_eq large, length_take_split large]; exact split_isPowerOfTwo _)
    rw [take_take, Nat.min_eq_left low] at part
    rw [unfolded, ← part, ← merkleRoot_eq, append_assoc]
  | case4 m leaves _ within _ high ih =>
    have large : 2 ≤ leaves.length := by omega
    have beyond : ¬ m ≤ split leaves.length := splitPoint_eq large ▸ high
    have grows : m < leaves.length := by omega
    have unfolded : proofNodes nodeHash (sum256 []) m leaves = _ :=
      proofNodes_high grows large beyond
    rw [← splitPoint_eq large] at unfolded
    have other : isPowerOfTwo m = false := by
      rw [← Bool.not_eq_true, isPowerOfTwo_iff within.1]
      exact not_isPowerOfTwo_of_split_lt (Nat.lt_of_not_le beyond) grows
    have part := ih nofun
    rw [unfolded, ← part, other, ← merkleRoot_eq]
    simp

theorem consistencyPath_eq (positive : 1 ≤ m) (grows : m < leaves.length) :
    ∃ path, consistencyPath leaves m = .ok path ∧
      consistencyNodes m (merkleRoot (leaves.take m)) path =
        proofNodes nodeHash (sum256 []) m leaves := by
  have whole := subProof_eq m leaves true ⟨positive, grows.le⟩ fun _ => Or.inl grows
  refine ⟨subProof m leaves true ⟨positive, grows.le⟩, ?_, whole⟩
  rw [consistencyPath, dif_neg (by omega), dif_neg (by omega)]
  simp

theorem shiftOdd_eq (fn sn : ℕ) : shiftOdd fn sn = strip fn sn := by
  fun_induction shiftOdd fn sn with
  | case1 _ _ odd ih => rw [strip_odd odd, ih]
  | case2 _ _ even => rw [strip, dif_neg even]

theorem foldConsistency_eq_some {n : ℕ} (positive : 1 ≤ m) (grows : m < n)
    (first : Bytes) (nodes : List Bytes) (fr sr : Bytes) :
    foldConsistency (m - 1) (n - 1) first nodes = some ((fr, sr), 0) ↔
      replayOld nodeHash (growth m n) nodes first = some fr ∧
        replay nodeHash (growth m n) nodes first = some sr := by
  have sides : bySide (fun c (roots : Bytes × Bytes) => (nodeHash c roots.1, nodeHash c roots.2))
      (fun c roots => (roots.1, nodeHash roots.2 c)) =
        fun side c roots => (combineOld nodeHash side c roots.1,
          combine nodeHash side c roots.2) := by
    funext side
    cases side <;> rfl
  have bound := strip_le (show m - 1 ≤ n - 1 by omega)
  rw [foldConsistency, shiftOdd_eq]
  refine (cursorLoop_eq_replayWith _ _ nodes bound (first, first) (fr, sr)).trans ?_
  rw [sides, show climb (strip (m - 1) (n - 1)).1 (strip (m - 1) (n - 1)).2 = growth m n from
    climbStripped_eq_growth positive grows]
  exact replayWith_pair _ _ _ _ _ _ _ _

theorem verifyConsistencyPath_iff {n : ℕ} (positive : 1 ≤ m) (grows : m < n)
    (oldRoot newRoot : Bytes) (path : List Bytes) :
    verifyConsistencyPath m n oldRoot newRoot path = true ↔
      (oldRoot.length = hashBytes ∧ newRoot.length = hashBytes ∧ allHashes path = true) ∧
        ∃ first nodes, consistencyNodes m oldRoot path = first :: nodes ∧
          replayOld nodeHash (growth m n) nodes first = some oldRoot ∧
            replay nodeHash (growth m n) nodes first = some newRoot := by
  have cursors : ((m : Int) - 1).toNat = m - 1 ∧ ((n : Int) - 1).toNat = n - 1 := by omega
  by_cases lengths : oldRoot.length = hashBytes ∧ newRoot.length = hashBytes ∧ allHashes path = true
  · have undecided : consistencyTrivial m n oldRoot newRoot path = (false, false) := by
      rw [consistencyTrivial, if_neg (by omega), if_neg (by simp [lengths]), if_neg (by omega),
        if_neg (by omega)]
    rw [verifyConsistencyPath, undecided, and_iff_right lengths]
    simp only [cursors]
    cases consistencyNodes m oldRoot path with
    | nil => simp
    | cons first nodes =>
      have folds := foldConsistency_eq_some positive grows first nodes oldRoot newRoot
      simp only [cons.injEq, existsAndEq]
      rw [← folds]
      cases foldConsistency (m - 1) (n - 1) first nodes with
      | none => simp
      | some => simp [Prod.ext_iff, and_assoc, and_comm, and_left_comm]
  · have refused : consistencyTrivial m n oldRoot newRoot path = (false, true) := by
      rw [consistencyTrivial, if_neg (by omega), if_pos (by simpa [imp_iff_not_or] using lengths)]
    rw [verifyConsistencyPath, refused]
    simp [lengths]

theorem verifyConsistencyPath_self (n : ℕ) (oldRoot newRoot : Bytes) (path : List Bytes) :
    verifyConsistencyPath n n oldRoot newRoot path = true ↔
      oldRoot.length = hashBytes ∧ path = [] ∧ oldRoot = newRoot := by
  have trivially : consistencyTrivial n n oldRoot newRoot path =
      (if oldRoot.length ≠ hashBytes ∨ newRoot.length ≠ hashBytes ∨ !allHashes path then false
        else path.length == 0 && oldRoot == newRoot, true) := by
    rw [consistencyTrivial, if_neg (by omega), if_pos rfl]
    split <;> rfl
  rw [verifyConsistencyPath, trivially]
  dsimp only
  constructor
  · intro accepted
    split at accepted
    · cases accepted
    rename_i right
    have lengths := not_or.mp right
    rw [Bool.and_eq_true, beq_iff_eq, beq_iff_eq, List.length_eq_zero_iff] at accepted
    exact ⟨not_not.mp lengths.1, accepted⟩
  · rintro ⟨length, rfl, rfl⟩
    simp [length, allHashes]

def consistencyPairs (oldSize newSize : Int) (oldRoot : Bytes) (path : List Bytes) :
    List (Bytes × Bytes) :=
  match consistencyNodes oldSize oldRoot path with
  | [] => []
  | first :: nodes =>
    replayPairs nodeHash (climbStripped (oldSize - 1).toNat (newSize - 1).toNat) nodes first

theorem verifyConsistencyPath_consistencyPath (positive : 1 ≤ m)
    (within : m ≤ leaves.length) (hashes : ∀ leaf ∈ leaves, leaf.length = hashBytes) :
    ∃ path, consistencyPath leaves m = .ok path ∧
      verifyConsistencyPath m leaves.length (merkleRoot (leaves.take m)) (merkleRoot leaves) path =
        true := by
  have oldHashes : ∀ leaf ∈ leaves.take m, leaf.length = hashBytes := fun leaf member =>
    hashes leaf (take_subset m leaves member)
  have oldLength : (merkleRoot (leaves.take m)).length = hashBytes := by
    rw [merkleRoot_eq]
    exact length_root oldHashes
  rcases Nat.lt_or_eq_of_le within with grows | rfl
  · obtain ⟨path, computed, listed⟩ := consistencyPath_eq positive grows
    obtain ⟨first, nodes, started, toNew, toOld⟩ := replay_proofNodes positive within
    refine ⟨path, computed, (verifyConsistencyPath_iff positive grows _ _ _).mpr
      ⟨⟨oldLength, ?_, ?_⟩, first, nodes, listed.trans started, ?_, ?_⟩⟩
    · rw [merkleRoot_eq]
      exact length_root hashes
    · -- the path is the proof without its starting node at most
      have all : allHashes (proofNodes nodeHash (sum256 []) m leaves) = true :=
        allHashes_of_roots hashes fun _ => eq_root_of_mem_proofNodes
      rw [← listed, consistencyNodes, allHashes, all_append, Bool.and_eq_true] at all
      exact all.2
    · rw [merkleRoot_eq]
      exact toOld
    · rw [merkleRoot_eq]
      exact toNew
  · refine ⟨[], ?_, (verifyConsistencyPath_self _ _ _ _).mpr ⟨oldLength, rfl, ?_⟩⟩
    · rw [consistencyPath, dif_neg (by omega), dif_pos (Or.inr rfl)]
    · rw [take_length]

theorem oldRoot_of_verifyConsistencyPath {path : List Bytes} {oldRoot : Bytes} (positive : 1 ≤ m)
    (free : CollisionFree nodeHash (treePairs leaves)
      (consistencyPairs m leaves.length oldRoot path))
    (accepted : verifyConsistencyPath m leaves.length oldRoot (merkleRoot leaves) path = true) :
    m ≤ leaves.length ∧ oldRoot = merkleRoot (leaves.take m) := by
  have within : m ≤ leaves.length := by
    by_contra larger
    rw [verifyConsistencyPath, consistencyTrivial, if_pos (by omega)] at accepted
    cases accepted
  refine ⟨within, ?_⟩
  rcases Nat.lt_or_eq_of_le within with grows | rfl
  · obtain ⟨_, _, _, listed, toOld, toNew⟩ :=
      (verifyConsistencyPath_iff positive grows _ _ _).mp accepted
    rw [consistencyPairs, listed] at free
    simp only [show ((m : Int) - 1).toNat = m - 1 by omega,
      show ((leaves.length : Int) - 1).toNat = leaves.length - 1 by omega,
      climbStripped_eq_growth positive grows] at free
    rw [merkleRoot_eq] at toNew ⊢
    exact Option.some.inj (toOld.symm.trans (replayOld_of_replay_growth positive within free toNew))
  · rw [take_length]
    exact ((verifyConsistencyPath_self _ _ _ _).mp accepted).2.2

/-- **Consistency proofs are complete and sound**: the log cannot be rewritten. -/
theorem consistency_complete_and_sound (leaves : List Bytes) (m : ℕ) (positive : 1 ≤ m) :
    (m ≤ leaves.length → (∀ leaf ∈ leaves, leaf.length = hashBytes) →
      ∃ path, consistencyPath leaves m = .ok path ∧
        verifyConsistencyPath m leaves.length (merkleRoot (leaves.take m)) (merkleRoot leaves)
          path = true) ∧
      ∀ (oldRoot : Bytes) (path : List Bytes),
        CollisionFree nodeHash (treePairs leaves)
            (consistencyPairs m leaves.length oldRoot path) →
          verifyConsistencyPath m leaves.length oldRoot (merkleRoot leaves) path = true →
            oldRoot = merkleRoot (leaves.take m) :=
  ⟨verifyConsistencyPath_consistencyPath positive,
    fun _ _ free accepted => (oldRoot_of_verifyConsistencyPath positive free accepted).2⟩

theorem consistency_of_two_with_three :
    1 ≤ 2 ∧ (∀ leaf ∈ threeLeaves, leaf.length = hashBytes) ∧
      CollisionFree nodeHash (treePairs threeLeaves)
          (consistencyPairs 2 3 (merkleRoot (threeLeaves.take 2)) [leafHash (str "c")]) ∧
        (∃ path, consistencyPath threeLeaves 2 = .ok path ∧
          verifyConsistencyPath 2 3 (merkleRoot (threeLeaves.take 2)) (merkleRoot threeLeaves)
            path = true) ∧
          ∀ oldRoot, CollisionFree nodeHash (treePairs threeLeaves)
              (consistencyPairs 2 3 oldRoot [leafHash (str "c")]) →
            verifyConsistencyPath 2 3 oldRoot (merkleRoot threeLeaves) [leafHash (str "c")] = true →
              oldRoot = merkleRoot (threeLeaves.take 2) := by
  have hashes : ∀ leaf ∈ threeLeaves, leaf.length = hashBytes := by decide +kernel
  have sound := consistency_complete_and_sound threeLeaves 2 (by decide)
  exact ⟨by decide, hashes, by decide +kernel, sound.1 (by decide) hashes,
    fun oldRoot => sound.2 oldRoot _⟩

theorem consistency_of_short_leaf_refused :
    consistencyPath [[]] 1 = .ok [] ∧
      verifyConsistencyPath 1 1 (merkleRoot [[]]) (merkleRoot [[]]) [] = false := by
  decide +kernel

end TheAuth.Audit
