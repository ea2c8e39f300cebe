import TheAuth.Go.Sha256
import TheAuth.Library.MerkleGrowth

/-!
# The Merkle tree of audit checkpoints

The prover recurses on the list of leaf hashes; the verifiers see only hashes and sizes, and fold
the path from the bottom with halving cursors. `nodeHash` is not injective outright: soundness needs
that the pairs hashed for the tree and by the verifier show no collision.
-/

set_option autoImplicit false

namespace TheAuth.Audit

open Go Library.MerkleTree

def hashBytes : Nat := sha256Size

def leafHash (data : Bytes) : Bytes := sum256 (0x00 :: data)

def nodeHash (left right : Bytes) : Bytes := sum256 (0x01 :: (left ++ right))

def splitPointLoop (n k : Nat) (positive : 0 < k) : Nat :=
  if k * 2 < n then splitPointLoop n (k * 2) (Nat.mul_pos positive Nat.two_pos) else k
termination_by n - k

def splitPoint (n : Nat) : Nat := splitPointLoop n 1 Nat.one_pos

theorem splitPointLoop_eq (n k a : Nat) (positive : 0 < k) (power : k = 2 ^ a) (below : k < n) :
    splitPointLoop n k positive = split n := by
  fun_induction splitPointLoop n k positive generalizing a with
  | case1 _ _ more ih => exact ih (a + 1) (by rw [power, Nat.pow_succ]) more
  | case2 =>
    subst power
    exact (split_eq below (by omega)).symm

theorem splitPoint_eq {n : Nat} (large : 2 ≤ n) : splitPoint n = split n :=
  splitPointLoop_eq n 1 0 Nat.one_pos rfl (by omega)

def merkleRoot (leaves : List Bytes) : Bytes :=
  if leaves.length = 0 then sum256 []
  else if leaves.length = 1 then leaves.headD []
  else
    nodeHash (merkleRoot (leaves.take (splitPoint leaves.length)))
      (merkleRoot (leaves.drop (splitPoint leaves.length)))
termination_by leaves.length
decreasing_by
  · have large : 2 ≤ leaves.length := by omega
    have := split_lt large
    simp only [splitPoint_eq large, List.length_take]
    omega
  · have large : 2 ≤ leaves.length := by omega
    have := split_pos leaves.length
    simp only [splitPoint_eq large, List.length_drop]
    omega

def inclusionPath (leaves : List Bytes) (index : Int) : Except String (List Bytes) :=
  if index < 0 ∨ index ≥ leaves.length then
    .error "checkpoint: inclusion index out of range"
  else if leaves.length = 1 then .ok []
  else
    let k := splitPoint leaves.length
    if index < k then do
      let sub ← inclusionPath (leaves.take k) index
      .ok (sub ++ [merkleRoot (leaves.drop k)])
    else do
      let sub ← inclusionPath (leaves.drop k) (index - k)
      .ok (sub ++ [merkleRoot (leaves.take k)])
termination_by leaves.length
decreasing_by
  · have large : 2 ≤ leaves.length := by omega
    have := split_lt large
    simp only [splitPoint_eq large, List.length_take]
    omega
  · have large : 2 ≤ leaves.length := by omega
    have := split_pos leaves.length
    simp only [splitPoint_eq large, List.length_drop]
    omega

/-- Callers keep the old size between one and the number of leaves; the source would not return
otherwise. -/
def subProof (m : Nat) (leaves : List Bytes) (complete : Bool)
    (within : 1 ≤ m ∧ m ≤ leaves.length) : List Bytes :=
  if _same : m = leaves.length then
    if complete then [] else [merkleRoot leaves]
  else if _low : m ≤ splitPoint leaves.length then
    subProof m (leaves.take (splitPoint leaves.length)) complete
      ⟨within.1, by
        have := split_lt (show 2 ≤ leaves.length by omega)
        simp only [List.length_take]
        omega⟩ ++ [merkleRoot (leaves.drop (splitPoint leaves.length))]
  else
    subProof (m - splitPoint leaves.length) (leaves.drop (splitPoint leaves.length)) false
      ⟨by omega, by simp only [List.length_drop]; omega⟩ ++
        [merkleRoot (leaves.take (splitPoint leaves.length))]
termination_by leaves.length
decreasing_by
  · have large : 2 ≤ leaves.length := by omega
    have := split_lt large
    simp only [splitPoint_eq large, List.length_take]
    omega
  · have large : 2 ≤ leaves.length := by omega
    have := split_pos leaves.length
    simp only [splitPoint_eq large, List.length_drop]
    omega

def consistencyPath (leaves : List Bytes) (oldSize : Int) : Except String (List Bytes) :=
  if _outside : oldSize < 0 ∨ oldSize > leaves.length then
    .error "checkpoint: consistency oldSize out of range"
  else if _trivial : oldSize = 0 ∨ oldSize = leaves.length then .ok []
  else .ok (subProof oldSize.toNat leaves true (by omega))

/-! ## The verifiers

The cursors are non-negative once the sizes are checked, so `& 1` is the
remainder and `>> 1` the quotient by two. -/

def skipEvenLevels (fn sn : Nat) : Nat × Nat :=
  if fn % 2 = 0 ∧ fn ≠ 0 then skipEvenLevels (fn / 2) (sn / 2) else (fn, sn)
termination_by fn
decreasing_by omega

/-- The loop of `RootFromInclusion` and `foldConsistency`: the result and the last cursor; `none`
where it returns early. -/
def cursorLoop {S : Type} (onLeft onRight : Bytes → S → S) :
    List Bytes → Nat → Nat → S → Option (S × Nat)
  | [], _, sn, hashed => some (hashed, sn)
  | p :: path, fn, sn, hashed =>
    if sn = 0 then none
    else if fn % 2 = 1 ∨ fn = sn then
      let cursors := skipEvenLevels fn sn
      cursorLoop onLeft onRight path (cursors.1 / 2) (cursors.2 / 2) (onLeft p hashed)
    else cursorLoop onLeft onRight path (fn / 2) (sn / 2) (onRight p hashed)

def rootFromInclusion (leaf : Bytes) (index size : Int) (path : List Bytes) : Option Bytes :=
  if index < 0 ∨ index ≥ size then none
  else
    let loop := cursorLoop (fun p r => nodeHash p r) (fun p r => nodeHash r p)
    match loop path index.toNat (size - 1).toNat leaf with
    | none => none
    | some (r, sn) => if sn ≠ 0 then none else some r

def allHashes (path : List Bytes) : Bool := path.all fun p => p.length == hashBytes

def verifyInclusionPath (leaf : Bytes) (index size : Int) (path : List Bytes) (root : Bytes) :
    Bool :=
  if leaf.length ≠ hashBytes ∨ root.length ≠ hashBytes ∨ !allHashes path then false
  else match rootFromInclusion leaf index size path with
  | none => false
  | some got => got == root

def isPowerOfTwo (n : Int) : Bool := 0 < n && n.toNat &&& (n.toNat - 1) == 0

def consistencyTrivial (oldSize newSize : Int) (oldRoot newRoot : Bytes) (path : List Bytes) :
    Bool × Bool :=
  if oldSize < 0 ∨ oldSize > newSize then (false, true)
  else if oldRoot.length ≠ hashBytes ∨ newRoot.length ≠ hashBytes ∨ !allHashes path then
    (false, true)
  else if oldSize = newSize then (path.length == 0 && oldRoot == newRoot, true)
  else if oldSize = 0 then (path.length == 0, true)
  else (false, false)

def shiftOdd (fn sn : Nat) : Nat × Nat :=
  if fn % 2 = 1 then shiftOdd (fn / 2) (sn / 2) else (fn, sn)
termination_by fn
decreasing_by omega

def foldConsistency (fn sn : Nat) (first : Bytes) (nodes : List Bytes) :
    Option ((Bytes × Bytes) × Nat) :=
  let cursors := shiftOdd fn sn
  let loop := cursorLoop (fun c (roots : Bytes × Bytes) => (nodeHash c roots.1, nodeHash c roots.2))
    (fun c roots => (roots.1, nodeHash roots.2 c))
  loop nodes cursors.1 cursors.2 (first, first)

/-- The old root goes in front when the old size is a power of two. -/
def consistencyNodes (oldSize : Int) (oldRoot : Bytes) (path : List Bytes) : List Bytes :=
  (if isPowerOfTwo oldSize then [oldRoot] else []) ++ path

def verifyConsistencyPath (oldSize newSize : Int) (oldRoot newRoot : Bytes)
    (path : List Bytes) : Bool :=
  match consistencyTrivial oldSize newSize oldRoot newRoot path with
  | (result, true) => result
  | (_, false) =>
    match consistencyNodes oldSize oldRoot path with
    | [] => false
    | first :: nodes =>
      match foldConsistency (oldSize - 1).toNat (newSize - 1).toNat first nodes with
      | none => false
      | some ((fr, sr), sn) => sn == 0 && fr == oldRoot && sr == newRoot

end TheAuth.Audit
