import TheAuth.Audit.Merkle

/-!
# Inclusion proofs

The recursions of the prover are those of the library's hash tree, and the verifier's loop is the
fold along the sides that halving finds. `verifyInclusionPath` refuses every hash that does not have
`hashBytes` bytes.
-/

set_option autoImplicit false

namespace TheAuth.Audit

open Go Library.MerkleTree List

@[simp] theorem length_nodeHash (left right : Bytes) :
    (nodeHash left right).length = hashBytes := length_sum256 _

@[simp] theorem length_leafHash (data : Bytes) : (leafHash data).length = hashBytes :=
  length_sum256 _

theorem merkleRoot_eq (leaves : List Bytes) :
    merkleRoot leaves = root nodeHash (sum256 []) leaves := by
  fun_induction merkleRoot leaves with
  | case1 _ none =>
    rw [root, length_eq_zero_iff.mp none]
    rfl
  | case2 _ _ one =>
    obtain ⟨_, rfl⟩ := length_eq_one_iff.mp one
    rw [root_singleton]
    rfl
  | case3 leaves _ _ takeIH dropIH =>
    have large : 2 ≤ leaves.length := by omega
    rw [takeIH, dropIH, splitPoint_eq large, root_of_large large]

def treePairs (leaves : List Bytes) : List (Bytes × Bytes) := rootPairs nodeHash (sum256 []) leaves

variable {leaves path : List Bytes}

theorem inclusionPath_eq {i : Nat} (inside : i < leaves.length) :
    inclusionPath leaves i = .ok (auditPath nodeHash (sum256 []) leaves i) := by
  induction leaves, i using auditPath.induct with
  | case1 _ _ large low ih =>
    rw [inclusionPath, if_neg (by omega), if_neg (by omega)]
    simp only [splitPoint_eq large, merkleRoot_eq]
    rw [if_pos (by omega), ih (by rw [length_take_split large]; exact low), auditPath_low large low]
    rfl
  | case2 leaves i large high ih =>
    rw [inclusionPath, if_neg (by omega), if_neg (by omega)]
    simp only [splitPoint_eq large, merkleRoot_eq]
    rw [if_neg (by omega),
      show (i : Int) - (split leaves.length : Nat) =
          ((i - split leaves.length : Nat) : Int) by omega,
      ih (by rw [length_drop]; omega), auditPath_high large high]
    rfl
  | case3 _ _ small =>
    rw [inclusionPath, if_neg (by omega), if_pos (by omega), auditPath, dif_neg small]

theorem climb_skipEvenLevels {fn sn : Nat} (bound : fn ≤ sn) (more : sn ≠ 0)
    (turn : fn % 2 = 1 ∨ fn = sn) :
    climb fn sn =
        .left :: climb ((skipEvenLevels fn sn).1 / 2) ((skipEvenLevels fn sn).2 / 2) ∧
      (skipEvenLevels fn sn).1 / 2 ≤ (skipEvenLevels fn sn).2 / 2 := by
  fun_induction skipEvenLevels fn sn with
  | case1 fn sn even ih =>
    obtain rfl : fn = sn := by omega
    rw [climb_even_self even.1]
    exact ih (Nat.le_refl _) (by omega) (.inr rfl)
  | case2 fn =>
    have odd : fn % 2 = 1 := by omega
    exact ⟨climb_odd odd bound, by simp only; omega⟩

def bySide {S : Type} (onLeft onRight : Bytes → S → S) : Side → Bytes → S → S
  | .left => onLeft
  | .right => onRight

theorem cursorLoop_eq_replayWith {S : Type} (onLeft onRight : Bytes → S → S) (path : List Bytes)
    {fn sn : Nat} (bound : fn ≤ sn) (hashed result : S) :
    cursorLoop onLeft onRight path fn sn hashed = some (result, 0) ↔
      replayWith (bySide onLeft onRight) (climb fn sn) path hashed = some result := by
  induction path generalizing fn sn hashed with
  | nil =>
    by_cases done : sn = 0
    · rw [done, climb_zero]
      simp [cursorLoop, replayWith]
    · have refused : ∀ side sides,
          replayWith (bySide onLeft onRight) (side :: sides) [] hashed ≠ some result := by
            simp [replayWith]
      by_cases turn : fn % 2 = 1 ∨ fn = sn
      · rw [(climb_skipEvenLevels bound done turn).1]
        simp [cursorLoop, done, refused]
      · rw [climb_even_lt (by omega) (by omega)]
        simp [cursorLoop, done, refused]
  | cons _ _ ih =>
    by_cases done : sn = 0
    · rw [done, climb_zero]
      simp [cursorLoop, replayWith]
    · by_cases turn : fn % 2 = 1 ∨ fn = sn
      · obtain ⟨sides, stays⟩ := climb_skipEvenLevels bound done turn
        rw [sides, cursorLoop, if_neg done, if_pos turn]
        exact ih stays _
      · rw [climb_even_lt (by omega) (by omega), cursorLoop, if_neg done, if_neg turn]
        exact ih (by omega) _

theorem rootFromInclusion_eq_some {leaf result : Bytes} {i n : Nat} (inside : i < n) :
    rootFromInclusion leaf i n path = some result ↔
      replay nodeHash (route n i) path leaf = some result := by
  have sides : bySide (fun p r => nodeHash p r) (fun p r => nodeHash r p) = combine nodeHash := by
    funext side
    cases side <;> rfl
  have folded := cursorLoop_eq_replayWith (fun p r => nodeHash p r) (fun p r => nodeHash r p) path
    (show i ≤ n - 1 by omega) leaf result
  rw [sides, climb_eq_route inside] at folded
  rw [replay, ← folded, rootFromInclusion, if_neg (by omega), Int.toNat_natCast,
    show ((n : Int) - 1).toNat = n - 1 by omega]
  dsimp only
  cases cursorLoop (fun p r => nodeHash p r) (fun p r => nodeHash r p) path i (n - 1) leaf with
  | none => simp
  | some ended =>
    obtain ⟨_, sn⟩ := ended
    by_cases done : sn = 0 <;> simp [done]

theorem verifyInclusionPath_iff (leaf : Bytes) (index size : Int) (path : List Bytes)
    (root : Bytes) :
    verifyInclusionPath leaf index size path root = true ↔
      leaf.length = hashBytes ∧ root.length = hashBytes ∧ allHashes path = true ∧
        rootFromInclusion leaf index size path = some root := by
  unfold verifyInclusionPath
  split
  next wrong =>
    simp only [Bool.false_eq_true, false_iff]
    rintro ⟨leafLength, rootLength, hashes, _⟩
    simp [leafLength, rootLength, hashes] at wrong
  rename_i right
  have lengths : leaf.length = hashBytes ∧ root.length = hashBytes ∧ allHashes path = true := by
    simpa using right
  cases rootFromInclusion leaf index size path with
  | none => simp
  | some => simp [lengths]

theorem length_root (hashes : ∀ leaf ∈ leaves, leaf.length = hashBytes) :
    (root nodeHash (sum256 []) leaves).length = hashBytes :=
  forall_root (P := fun digest : Bytes => digest.length = hashBytes) length_nodeHash
    (length_sum256 _) hashes

theorem allHashes_of_roots (hashes : ∀ leaf ∈ leaves, leaf.length = hashBytes)
    (roots : ∀ p ∈ path, ∃ part, part ⊆ leaves ∧ p = root nodeHash (sum256 []) part) :
    allHashes path = true := by
  rw [allHashes, all_eq_true]
  intro p member
  obtain ⟨_, inside, rfl⟩ := roots p member
  exact beq_iff_eq.mpr (length_root fun leaf here => hashes leaf (inside here))

def inclusionPairs (leaf : Bytes) (index size : Int) (path : List Bytes) : List (Bytes × Bytes) :=
  replayPairs nodeHash (climb index.toNat (size - 1).toNat) path leaf

theorem getElem?_of_verifyInclusionPath {leaf : Bytes} {index : Int}
    (free : CollisionFree nodeHash (treePairs leaves)
      (inclusionPairs leaf index leaves.length path))
    (accepted : verifyInclusionPath leaf index leaves.length path (merkleRoot leaves) = true) :
    ∃ i : Nat, index = i ∧ leaves[i]? = some leaf ∧ inclusionPath leaves index = .ok path := by
  obtain ⟨_, _, _, recomputed⟩ := (verifyInclusionPath_iff _ _ _ _ _).mp accepted
  have range : 0 ≤ index ∧ index < leaves.length := by
    by_contra outside
    rw [rootFromInclusion, if_pos (by omega)] at recomputed
    cases recomputed
  obtain ⟨i, rfl⟩ := Int.eq_ofNat_of_zero_le range.1
  have inside : i < leaves.length := by omega
  rw [rootFromInclusion_eq_some inside, merkleRoot_eq] at recomputed
  rw [inclusionPairs, Int.toNat_natCast,
    show ((leaves.length : Int) - 1).toNat = leaves.length - 1 by omega,
    climb_eq_route inside] at free
  obtain ⟨here, rfl⟩ := eq_of_replay_route inside free recomputed
  exact ⟨i, rfl, here, inclusionPath_eq inside⟩

theorem exists_inclusionPath {i : Nat} {leaf : Bytes} (here : leaves[i]? = some leaf) :
    ∃ path, inclusionPath leaves i = .ok path ∧
      rootFromInclusion leaf i leaves.length path = some (merkleRoot leaves) ∧
        ((∀ other ∈ leaves, other.length = hashBytes) →
          verifyInclusionPath leaf i leaves.length path (merkleRoot leaves) = true) := by
  obtain ⟨inside, rfl⟩ := List.getElem?_eq_some_iff.mp here
  have recomputed : rootFromInclusion leaves[i] i leaves.length
      (auditPath nodeHash (sum256 []) leaves i) = some (merkleRoot leaves) := by
    rw [rootFromInclusion_eq_some inside, merkleRoot_eq]
    exact replay_auditPath here
  refine ⟨_, inclusionPath_eq inside, recomputed, fun hashes => ?_⟩
  rw [verifyInclusionPath_iff, merkleRoot_eq]
  refine ⟨hashes _ (getElem_mem inside), length_root hashes,
    allHashes_of_roots hashes fun _ => eq_root_of_mem_auditPath, ?_⟩
  rw [recomputed, merkleRoot_eq]

/-- **Inclusion proofs are complete and sound.** -/
theorem inclusion_complete_and_sound (leaves : List Bytes) :
    (∀ (i : Nat) (leaf : Bytes), leaves[i]? = some leaf →
      ∃ path, inclusionPath leaves i = .ok path ∧
        rootFromInclusion leaf i leaves.length path = some (merkleRoot leaves) ∧
          ((∀ other ∈ leaves, other.length = hashBytes) →
            verifyInclusionPath leaf i leaves.length path (merkleRoot leaves) = true)) ∧
      ∀ (leaf : Bytes) (index : Int) (path : List Bytes),
        CollisionFree nodeHash (treePairs leaves)
            (inclusionPairs leaf index leaves.length path) →
          verifyInclusionPath leaf index leaves.length path (merkleRoot leaves) = true →
            ∃ i : Nat, index = i ∧ leaves[i]? = some leaf ∧
              inclusionPath leaves index = .ok path := by
  constructor
  · intro _ leaf here
    exact exists_inclusionPath here
  · intro _ _ _ free accepted
    exact getElem?_of_verifyInclusionPath free accepted

def threeLeaves : List Bytes := [leafHash (str "a"), leafHash (str "b"), leafHash (str "c")]

theorem inclusion_of_last_of_three :
    (∀ leaf ∈ threeLeaves, leaf.length = hashBytes) ∧
      ∃ path, verifyInclusionPath (leafHash (str "c")) 2 3 path (merkleRoot threeLeaves) = true ∧
        CollisionFree nodeHash (treePairs threeLeaves)
            (inclusionPairs (leafHash (str "c")) 2 3 path) ∧
          ∃ i : Nat, (2 : Int) = i ∧ threeLeaves[i]? = some (leafHash (str "c")) ∧
            inclusionPath threeLeaves 2 = .ok path := by
  have hashes : ∀ leaf ∈ threeLeaves, leaf.length = hashBytes := by
    intro _ member
    simp only [threeLeaves, mem_cons, not_mem_nil, or_false] at member
    rcases member with rfl | rfl | rfl <;> exact length_leafHash _
  obtain ⟨_, computed, _, accepted⟩ :=
    (inclusion_complete_and_sound threeLeaves).1 2 (leafHash (str "c")) rfl
  have evaluated : inclusionPath threeLeaves (2 : Nat) =
      .ok [nodeHash (leafHash (str "a")) (leafHash (str "b"))] := by decide +kernel
  obtain rfl := Except.ok.inj (computed.symm.trans evaluated)
  have free : CollisionFree nodeHash (treePairs threeLeaves) (inclusionPairs (leafHash (str "c")) 2
      3 [nodeHash (leafHash (str "a")) (leafHash (str "b"))]) := by decide +kernel
  exact ⟨hashes, _, accepted hashes, free,
    (inclusion_complete_and_sound threeLeaves).2 _ 2 _ free (accepted hashes)⟩

theorem inclusion_of_short_leaf_refused :
    inclusionPath [[]] 0 = .ok [] ∧ rootFromInclusion [] 0 1 [] = some (merkleRoot [[]]) ∧
      verifyInclusionPath [] 0 1 [] (merkleRoot [[]]) = false := by
  decide +kernel

end TheAuth.Audit
