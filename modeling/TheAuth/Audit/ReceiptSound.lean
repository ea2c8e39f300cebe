import TheAuth.Audit.ReceiptCreate

/-!
# What an accepted receipt tells

A receipt that is accepted against the checkpoint of a log tells the truth about the row at its
index, where no message hashed for the log collides with one of the same kind hashed for the
receipt.
-/

set_option autoImplicit false

namespace TheAuth.Audit

open Go Library.Result Library.MerkleTree List Option

/-- No two of the messages collide. -/
def NoCollision (first second : List Bytes) : Prop :=
  ∀ m ∈ first, ∀ m' ∈ second, sum256 m = sum256 m' → m = m'

def nodeMessage (children : Bytes × Bytes) : Bytes := 0x01 :: (children.1 ++ children.2)

theorem nodeMessage_inj {x y : Bytes × Bytes} (first : x.1.length = hashBytes)
    (second : y.1.length = hashBytes) (same : nodeMessage x = nodeMessage y) : x = y := by
  obtain ⟨lefts, rights⟩ := append_inj (cons.inj same).2 (first.trans second.symm)
  exact Prod.ext lefts rights

theorem collisionFree_of_noCollision {leaves : List Bytes} {leaf : Bytes} {index size : Int}
    {path : List Bytes} (hashes : ∀ other ∈ leaves, other.length = hashBytes)
    (leafLength : leaf.length = hashBytes) (pathLengths : allHashes path = true)
    (free : NoCollision ((treePairs leaves).map nodeMessage)
      ((inclusionPairs leaf index size path).map nodeMessage)) :
    CollisionFree nodeHash (treePairs leaves) (inclusionPairs leaf index size path) := by
  have lengths : ∀ p ∈ path, p.length = hashBytes := by
    intro p inside
    exact beq_iff_eq.mp (all_eq_true.mp pathLengths p inside)
  intro x inTree y inPath same
  have left := forall_rootPairs (P := fun digest : Bytes => digest.length = hashBytes)
    length_nodeHash (length_sum256 _) hashes x inTree
  have right := forall_replayPairs
    length_nodeHash lengths leafLength y inPath
  exact nodeMessage_inj left.1 right.1
    (free _ (mem_map_of_mem inTree) _ (mem_map_of_mem inPath) same)

section

def InclusionProof.nodeMessages (p : InclusionProof) : List Bytes :=
  (inclusionPairs ((hexDecode p.leafHash).getD []) p.leafIndex p.treeSize
    ((decodeHexList (p.path.getD [])).getD [])).map nodeMessage

def loginKey : PublicKey := ⟨str "key", ⟨str "OKP", str "Ed25519", List.replicate 32 0x41⟩⟩

def loginCheckpoint (root : Bytes) : Checkpoint where
  version := 1
  alg := str "Ed25519"
  keyID := str "key"
  size := 1
  rootHash := root
  timestamp := 0
  since := none
  until_ := none
  signature := List.replicate 64 0x41

variable [FloatLib]

def Leaf.message (l : Leaf) : Bytes := 0x00 :: l.text

def Row.fieldMessage (key name : Bytes) (row : Row) : Option Bytes :=
  (canonicalJSON (row.field name)).toOption.map (commitMessage name (fieldSalt key row.hash name))

def Decision.leafMessage (d : Decision) : Option Bytes := do
  let revealed ← d.revealed
  let hidden ← d.commitments
  let commitments ← (allCommitments (fieldsFor d.hashVersion) revealed hidden).toOption
  some (0x00 :: leafText d.rowID d.rowHash d.hashVersion commitments)

def Decision.fieldMessage (d : Decision) (name : Bytes) : Option Bytes := do
  let revealed ← d.revealed
  let f ← revealed.lookup name
  let text ← (canonicalJSON f.value).toOption
  some (commitMessage name f.salt text)

/-- Nothing hashed for a log collides with what a receipt has hashed in its place. -/
structure CollisionFreeFor (key : Bytes) (leaves : List Leaf) (r : Receipt) : Prop where
  node : NoCollision ((treePairs (leaves.map (·.hash))).map nodeMessage) r.proof.nodeMessages
  leaf : NoCollision (leaves.map Leaf.message) r.decision.leafMessage.toList
  field : ∀ name, NoCollision (leaves.filterMap fun l => l.row.fieldMessage key name)
    (r.decision.fieldMessage name).toList

theorem canonicalJSON_eq_of_commitment {key name salt c : Bytes} {row : Row} {value : JsonValue}
    (hash : isHashHex salt = true) (given : fieldCommitment name salt value = .ok c)
    (stored : rowCommitment key row name = .ok c)
    (free : ∀ text, canonicalJSON value = .ok text →
      NoCollision (row.fieldMessage key name).toList [commitMessage name salt text]) :
    canonicalJSON value = canonicalJSON (row.field name) := by
  obtain ⟨text, written, rfl⟩ := fieldCommitment_eq_ok.mp given
  obtain ⟨text', written', same⟩ := fieldCommitment_eq_ok.mp stored
  have message : commitMessage name (fieldSalt key row.hash name) text' ∈
      (row.fieldMessage key name).toList := by
    simp [Row.fieldMessage, written', Except.toOption]
  have equal := free text written _ message _ mem_cons_self (hexEncode_inj same).symm
  obtain ⟨-, texts⟩ := commitMessage_inj (isHashHex_fieldSalt _ _ _) hash equal
  rw [written, written', texts]

variable {key : Bytes}

theorem rowCommitment_of_text_eq {row : Row} {l : Leaf} (built : BuiltFrom key row l)
    {d : Decision} {revealed : GoMap Bytes RevealedField} {hidden commitments : GoMap Bytes Bytes}
    (made : allCommitments (fieldsFor d.hashVersion) revealed hidden = .ok commitments)
    (same : leafText d.rowID d.rowHash d.hashVersion commitments = l.text) {name : Bytes}
    {f : RevealedField} (shown : revealed.lookup name = some f) :
    name ∈ fieldsFor row.hashVersion ∧ isHashHex f.salt = true ∧
      ∃ c, fieldCommitment name f.salt f.value = .ok c ∧ rowCommitment key row name = .ok c := by
  obtain ⟨-, -, looped⟩ := allCommitments_eq_ok.mp made
  obtain ⟨salt, allowed, c, computed, stands⟩ :=
    (recomputed_of_foldlM looped).computed ⟨name, f⟩ (AList.mem_lookup_iff.mp shown)
  obtain ⟨-, -, -, members⟩ := leafText_inj same
  obtain ⟨⟨name', c'⟩, listed, names, texts⟩ := members (name, c) (mem_textEntries.mpr stands)
  have stored := mem_textEntries.mp listed
  have named := built.committed.named name' c' stored
  obtain ⟨c'', committed, alsoStored⟩ := built.committed.commitment name' named
  obtain rfl : c' = c'' := some.inj (stored.symm.trans alsoStored)
  obtain rfl : name = name' := eq_of_jsString_eq (isPlain_field allowed) (isPlain_field named) names
  obtain rfl : c = c' := eq_of_jsString_eq
    (isPlain_of_isHashHex (isHashHex_of_fieldCommitment computed))
    (isPlain_of_isHashHex (isHashHex_of_fieldCommitment committed)) texts
  exact ⟨named, salt, c, computed, committed⟩

theorem collisionFreeFor_singleton {row : Row} {l : Leaf} (built : BuiltFrom key row l)
    (cp : Checkpoint) (reveal path : List Bytes) :
    CollisionFreeFor key [l] (receiptFor l l.row.id 0 cp reveal path) where
  node := by
    intro m inTree
    rw [treePairs, rootPairs] at inTree
    cases inTree
  leaf := by
    obtain ⟨_, made, text⟩ := built.allCommitments_splitFields reveal
    have message :
        (receiptFor l l.row.id 0 cp reveal path).decision.leafMessage = some l.message := by
      rw [Leaf.message, ← text]
      simp [Decision.leafMessage, receiptFor, made, Except.toOption]
    rw [message]
    intro m ofLog m' ofReceipt _
    exact (mem_singleton.mp ofLog).trans (mem_singleton.mp ofReceipt).symm
  field := by
    intro name _ ofLog _ ofReceipt _
    obtain ⟨_, isLeaf, stored⟩ := mem_filterMap.mp ofLog
    obtain rfl := mem_singleton.mp isLeaf
    have given := mem_toList.mp ofReceipt
    simp only [Decision.fieldMessage, receiptFor, bind_eq_bind, bind_some,
      bind_eq_some_iff] at given
    obtain ⟨f, shown, _, written, done⟩ := given
    obtain ⟨⟨named, -⟩, rfl⟩ := ((parted_splitFields _ reveal).revealed name f).mp shown
    rw [built.shown_eq named] at written done
    rw [Row.fieldMessage, written] at stored
    exact some.inj (stored.symm.trans done)

theorem verifyCheckpoint_login {root : Bytes} (hash : isHashHex root = true) :
    @verifyCheckpoint _ SignatureLib.trusting (loginCheckpoint root) [loginKey] = .ok () := by
  have shape : wellFormed (loginCheckpoint root) = true := by
    rw [wellFormed, loginCheckpoint, hash]
    rfl
  obtain ⟨text, signed⟩ := exists_signedBytes (loginCheckpoint root)
  exact (@verifyCheckpoint_eq_ok _ SignatureLib.trusting _ _).mpr
    ⟨shape, rfl, loginKey, rfl, ⟨rfl, rfl⟩, _, rfl, _, rfl, text, signed, rfl⟩

variable [SignatureLib]

theorem exists_leaf_of_verifyReceipt {rows : List Row} {leaves : List Leaf}
    (built : List.Forall₂ (BuiltFrom key) rows leaves) {r : Receipt} {keys : List PublicKey}
    (root : r.checkpoint.rootHash = rootHex leaves) (size : r.checkpoint.size = leaves.length)
    (free : CollisionFreeFor key leaves r) (accepted : verifyReceipt r keys = .ok ()) :
    ∃ revealed hidden commitments, r.decision.revealed = some revealed ∧
      allCommitments (fieldsFor r.decision.hashVersion) revealed hidden = .ok commitments ∧
        ∃ (i : ℕ) (row : Row) (l : Leaf), r.proof.leafIndex = i ∧ rows[i]? = some row ∧ l ∈ leaves ∧
          BuiltFrom key row l ∧ leafText r.decision.rowID r.decision.rowHash
            r.decision.hashVersion commitments = l.text := by
  obtain ⟨-, revealed, shown, hidden, given, -, commitments, made, ⟨-, decoded⟩, included⟩ :=
    verifyReceipt_eq_ok.mp accepted
  obtain ⟨-, -, sizes, _, read, folded⟩ := verifyInclusionProof_eq_ok.mp included
  refine ⟨revealed, hidden, commitments, shown, made, ?_⟩
  have nodes := free.node
  rw [InclusionProof.nodeMessages, read, decoded, sizes, size] at nodes
  rw [decoded, sizes, size, root, rootHex, hexDecode_hexEncode] at folded
  obtain ⟨leafLength, -, pathLengths, -⟩ := (verifyInclusionPath_iff _ _ _ _ _).mp folded
  rw [← length_map (·.hash)] at nodes folded
  obtain ⟨i, index, here, -⟩ := getElem?_of_verifyInclusionPath
    (collisionFree_of_noCollision (length_of_builtFrom built) leafLength pathLengths nodes) folded
  rw [getElem?_map] at here
  obtain ⟨l, found, sameHash⟩ := map_eq_some_iff.mp here
  obtain ⟨row, inRows, from_⟩ := exists_builtFrom built found
  have inLeaves := mem_of_getElem? found
  refine ⟨i, row, l, index, inRows, inLeaves, from_, ?_⟩
  have message : 0x00 :: leafText r.decision.rowID r.decision.rowHash r.decision.hashVersion
      commitments ∈ r.decision.leafMessage.toList := by
    simp [Decision.leafMessage, shown, given, made, Except.toOption]
  have equal := free.leaf _ (mem_map_of_mem inLeaves) _ message (from_.hash_eq.symm.trans sameHash)
  exact (cons.inj equal).2.symm

/-- **An accepted receipt tells the truth about the row at its index.** -/
theorem accepted_receipt_tells_row (lg : Log) (since until_ : Option Int) (limit : Int)
    (leaves : List Leaf) (loaded : lg.loadLeaves since until_ limit = .ok leaves) (r : Receipt)
    (keys : List PublicKey) (root : r.checkpoint.rootHash = rootHex leaves)
    (size : r.checkpoint.size = leaves.length) (free : CollisionFreeFor lg.saltKey leaves r)
    (accepted : verifyReceipt r keys = .ok ()) :
    ∃ rows revealed, lg.source = some (.ok rows) ∧ r.decision.revealed = some revealed ∧
      ∃ (i : ℕ) (row : Row), r.proof.leafIndex = i ∧
        (treeRows rows since until_ limit)[i]? = some row ∧
          canonicalJSON (.string r.decision.rowID) = canonicalJSON (.string row.id) ∧
          canonicalJSON (.string r.decision.rowHash) = canonicalJSON (.string row.hash) ∧
          canonicalJSON (.number (.int r.decision.hashVersion)) =
            canonicalJSON (.number (.int row.hashVersion)) ∧
          ∀ name f, revealed.lookup name = some f →
            name ∈ fieldsFor row.hashVersion ∧
              canonicalJSON f.value = canonicalJSON (row.field name) := by
  obtain ⟨rows, source, built⟩ := builtFrom_of_loadLeaves loaded
  obtain ⟨revealed, _, _, shown, made, i, row, l, index, inRows, inLeaves, from_, same⟩ :=
    exists_leaf_of_verifyReceipt built root size free accepted
  refine ⟨rows, revealed, source, shown, i, row, index, inRows, ?_⟩
  have parts := leafText_inj same
  rw [from_.row_eq] at parts
  obtain ⟨ids, hashes, versions, -⟩ := parts
  refine ⟨?_, ?_, ?_, fun name f listed => ?_⟩
  · rw [canonicalJSON_string, canonicalJSON_string, ids]
  · rw [canonicalJSON_string, canonicalJSON_string, hashes]
  · rw [canonicalJSON_int, canonicalJSON_int, versions]
  · obtain ⟨named, salt, _, given, stored⟩ := rowCommitment_of_text_eq from_ made same listed
    refine ⟨named, canonicalJSON_eq_of_commitment salt given stored fun text written => ?_⟩
    intro m ofRow m' ofReceipt equal
    refine free.field name m ?_ m' ?_ equal
    · exact mem_filterMap.mpr ⟨l, inLeaves, by rw [from_.row_eq]; exact mem_toList.mp ofRow⟩
    · obtain rfl := mem_singleton.mp ofReceipt
      simp [Decision.fieldMessage, shown, listed, written, Except.toOption]

def loginRow : Row where
  id := str "r"
  hash := str "h"
  hashVersion := goChainHashVersion
  timestampMs := 0
  fields := AList.singleton (str "action") (.string (str "login"))

def loginLog : Log := ⟨some (.ok [loginRow]), str "k"⟩

end

attribute [local instance] FloatLib.unary SignatureLib.trusting

theorem login_receipt_tells_login :
    ∃ (leaves : List Leaf) (r : Receipt), loginLog.loadLeaves none none 1 = .ok leaves ∧
      r.checkpoint.rootHash = rootHex leaves ∧ r.checkpoint.size = leaves.length ∧
        CollisionFreeFor loginLog.saltKey leaves r ∧ verifyReceipt r [loginKey] = .ok () ∧
          ∃ rows revealed, loginLog.source = some (.ok rows) ∧
            r.decision.revealed = some revealed ∧ ∃ (i : ℕ) (row : Row), r.proof.leafIndex = i ∧
              (treeRows rows none none 1)[i]? = some row ∧
              canonicalJSON (.string r.decision.rowID) = canonicalJSON (.string row.id) ∧
              canonicalJSON (.string r.decision.rowHash) = canonicalJSON (.string row.hash) ∧
              canonicalJSON (.number (.int r.decision.hashVersion)) =
                canonicalJSON (.number (.int row.hashVersion)) ∧
              ∀ name f, revealed.lookup name = some f → name ∈ fieldsFor row.hashVersion ∧
                canonicalJSON f.value = canonicalJSON (row.field name) := by
  have one : (loginLog.loadLeaves none none 1).toOption.map length = some 1 := by
    decide +kernel
  obtain ⟨_, success, single⟩ := map_eq_some_iff.mp one
  obtain ⟨l, rfl⟩ := length_eq_one_iff.mp single
  have loaded : loginLog.loadLeaves none none 1 = .ok [l] := by
    obtain ⟨_, loaded⟩ := exists_eq_ok (isSome_of_eq_some success)
    rw [loaded] at success
    rw [loaded, some.inj success]
  obtain ⟨_, -, built⟩ := builtFrom_of_loadLeaves loaded
  obtain ⟨_, -, from_⟩ := exists_builtFrom built (i := 0) rfl
  have lengths := length_of_builtFrom built
  obtain ⟨path, found, -⟩ := @exists_inclusionPath [l.hash] 0 l.hash rfl
  have genuine := verifyCheckpoint_login
    (isHashHex_hexEncode (b := merkleRoot [l.hash])
      (by rw [merkleRoot_eq]; exact length_root lengths))
  have accepted := verifyReceipt_receiptFor built genuine rfl (hexDecode_hexEncode _) rfl found
    [str "action"]
  have free := collisionFreeFor_singleton from_ (loginCheckpoint (rootHex [l])) [str "action"] path
  exact ⟨[l], _, loaded, rfl, rfl, free, accepted,
    accepted_receipt_tells_row loginLog none none 1 [l] loaded _ [loginKey] rfl rfl free accepted⟩

end TheAuth.Audit
