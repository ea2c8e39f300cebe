import TheAuth.Audit.Inclusion
import TheAuth.Audit.ReceiptTexts

/-!
# Leaves of a log and checks of a receipt

A leaf that was built from a row has a salt and a commitment for every field of the row, and no
others. A receipt that is accepted has recomputed a commitment for every revealed field and has kept
the given ones.
-/

set_option autoImplicit false

namespace TheAuth.Audit

open Go Library.Result List GoMap

theorem mem_textEntries {m : GoMap Bytes Bytes} {name text : Bytes} :
    (name, text) ∈ textEntries m ↔ m.lookup name = some text := by
  constructor
  · intro inside
    obtain ⟨⟨_, _⟩, stored, same⟩ := mem_map.mp inside
    cases same
    exact AList.mem_lookup_iff.mpr stored
  · intro here
    exact mem_map.mpr ⟨⟨name, text⟩, AList.mem_lookup_iff.mp here, rfl⟩

section

theorem isHashHex_fieldSalt (key rowHash field : Bytes) :
    isHashHex (fieldSalt key rowHash field) = true :=
  isHashHex_hexEncode (length_sum256 _)

variable [FloatLib]

theorem fieldCommitment_eq_ok {field salt c : Bytes} {value : JsonValue} :
    fieldCommitment field salt value = .ok c ↔
      ∃ text, canonicalJSON value = .ok text ∧
        c = hexEncode (sum256 (commitMessage field salt text)) := by
  rw [fieldCommitment, bind_eq_ok]
  simp only [Except.ok.injEq, eq_comm]

theorem isHashHex_of_fieldCommitment {field salt c : Bytes} {value : JsonValue}
    (made : fieldCommitment field salt value = .ok c) : isHashHex c = true := by
  obtain ⟨_, -, rfl⟩ := fieldCommitment_eq_ok.mp made
  exact isHashHex_hexEncode (length_sum256 _)

def rowCommitment (key : Bytes) (row : Row) (name : Bytes) : Except CanonicalError Bytes :=
  fieldCommitment name (fieldSalt key row.hash name) (row.field name)

/-- The salts and commitments of the named fields. -/
structure Committed (key : Bytes) (row : Row) (names : List Bytes)
    (made : GoMap Bytes Bytes × GoMap Bytes Bytes) : Prop where
  salt : ∀ name ∈ names, made.1.lookup name = some (fieldSalt key row.hash name)
  commitment : ∀ name ∈ names, ∃ c, rowCommitment key row name = .ok c ∧ made.2.lookup name = some c
  named : ∀ name c, made.2.lookup name = some c → name ∈ names

namespace Committed

variable {key : Bytes} {row : Row} {names : List Bytes}
  {made : GoMap Bytes Bytes × GoMap Bytes Bytes}

theorem addField (committed : Committed key row names made) {field : Bytes}
    {next : GoMap Bytes Bytes × GoMap Bytes Bytes}
    (added : Audit.addField key row made field = .ok next) :
    Committed key row (names ++ [field]) next := by
  rw [Audit.addField, bind_eq_ok] at added
  obtain ⟨c, computed, done⟩ := added
  cases done
  have commitment : rowCommitment key row field = .ok c := mapError_eq_ok.mp computed
  refine ⟨fun name inside => ?_, fun name inside => ?_, fun name other here => ?_⟩
  · rw [lookup_insert_eq]
    split_ifs with same
    · rw [same]
    · exact committed.salt name ((mem_append.mp inside).resolve_right (by simpa using same))
  · rw [lookup_insert_eq]
    split_ifs with same
    · exact ⟨c, same ▸ commitment, rfl⟩
    · exact committed.commitment name ((mem_append.mp inside).resolve_right (by simpa using same))
  · rw [lookup_insert_eq] at here
    split_ifs at here with same
    · exact mem_append.mpr (.inr (by simpa using same))
    · exact mem_append.mpr (.inl (committed.named name other here))

theorem foldlM_addField {fields : List Bytes} {result : GoMap Bytes Bytes × GoMap Bytes Bytes}
    (done : fields.foldlM (Audit.addField key row) (∅, ∅) = .ok result) :
    Committed key row fields result :=
  foldlM_invariant (Committed key row) (fun _ _ _ _ committed => committed.addField)
    (⟨nofun, nofun, nofun⟩ : Committed key row [] (∅, ∅)) done

end Committed

def Leaf.text (l : Leaf) : Bytes := leafText l.row.id l.row.hash l.row.hashVersion l.commitments

/-- A leaf that was built from the row. -/
structure BuiltFrom (key : Bytes) (row : Row) (l : Leaf) : Prop where
  row_eq : l.row = row
  committed : Committed key row (fieldsFor row.hashVersion) (l.salts, l.commitments)
  hash_eq : l.hash = leafHash l.text

theorem builtFrom_of_buildLeaf {key : Bytes} {row : Row} {l : Leaf}
    (built : buildLeaf key row = .ok l) : BuiltFrom key row l := by
  rw [buildLeaf, bind_eq_ok] at built
  obtain ⟨_, looped, built⟩ := built
  rw [bind_eq_ok] at built
  obtain ⟨_, written, done⟩ := built
  rw [leafPreimage_eq] at written
  cases written
  cases done
  exact ⟨rfl, Committed.foldlM_addField looped, rfl⟩

theorem builtFrom_of_loadLeaves {lg : Log} {since until_ : Option Int} {limit : Int}
    {leaves : List Leaf} (loaded : lg.loadLeaves since until_ limit = .ok leaves) :
    ∃ rows, lg.source = some (.ok rows) ∧
      List.Forall₂ (BuiltFrom lg.saltKey) (treeRows rows since until_ limit) leaves := by
  rw [Log.loadLeaves, bind_eq_ok] at loaded
  obtain ⟨_, present, loaded⟩ := loaded
  rw [refuseIf_bind_eq_ok, bind_eq_ok] at loaded
  obtain ⟨-, rows, read, loaded⟩ := loaded
  rw [mapError_eq_ok] at read
  rw [orRefuse_eq_ok, read] at present
  exact ⟨rows, present, (forall₂_of_mapM loaded).imp fun _ _ => builtFrom_of_buildLeaf⟩

section

variable {key : Bytes} {rows : List Row} {leaves : List Leaf}

theorem exists_builtFrom (built : List.Forall₂ (BuiltFrom key) rows leaves) {i : ℕ} {l : Leaf}
    (here : leaves[i]? = some l) : ∃ row, rows[i]? = some row ∧ BuiltFrom key row l := by
  obtain ⟨inside, rfl⟩ := List.getElem?_eq_some_iff.mp here
  have inRows : i < rows.length := by rw [built.length_eq]; exact inside
  exact ⟨rows[i], List.getElem?_eq_getElem inRows, built.get inRows inside⟩

theorem length_of_builtFrom (built : List.Forall₂ (BuiltFrom key) rows leaves) :
    ∀ hash ∈ leaves.map (·.hash), hash.length = hashBytes := by
  intro _ inside
  obtain ⟨_, listed, rfl⟩ := mem_map.mp inside
  obtain ⟨_, here⟩ := mem_iff_getElem?.mp listed
  obtain ⟨_, -, from_⟩ := exists_builtFrom built here
  exact from_.hash_eq ▸ length_leafHash _

end

variable {allowed : List Bytes} {hidden : GoMap Bytes Bytes} {entry : (_ : Bytes) × RevealedField}
  {made next : GoMap Bytes Bytes}

theorem addRevealed_eq_ok :
    addRevealed allowed made entry = .ok next ↔
      (entry.1 ∈ allowed ∧ isHashHex entry.2.salt = true) ∧ made.lookup entry.1 = none ∧
        ∃ c, fieldCommitment entry.1 entry.2.salt entry.2.value = .ok c ∧
          made.insert entry.1 c = next := by
  rw [addRevealed, refuseIf_bind_eq_ok, refuseIf_bind_eq_ok, bind_eq_ok]
  simp only [mapError_eq_ok, Except.ok.injEq, not_or, Bool.not_eq_false, contains_iff_mem,
    Option.not_isSome_iff_eq_none]

/-- The commitments that a verifier has after it has recomputed those of the revealed fields. -/
structure Recomputed (allowed : List Bytes) (hidden : GoMap Bytes Bytes)
    (seen : List ((_ : Bytes) × RevealedField)) (made : GoMap Bytes Bytes) : Prop where
  given : ∀ name c, hidden.lookup name = some c → made.lookup name = some c
  computed : ∀ entry ∈ seen, isHashHex entry.2.salt = true ∧ entry.1 ∈ allowed ∧
    ∃ c, fieldCommitment entry.1 entry.2.salt entry.2.value = .ok c ∧ made.lookup entry.1 = some c

theorem Recomputed.addRevealed {seen : List ((_ : Bytes) × RevealedField)}
    (recomputed : Recomputed allowed hidden seen made)
    (added : Audit.addRevealed allowed made entry = .ok next) :
    Recomputed allowed hidden (seen ++ [entry]) next := by
  obtain ⟨⟨allowedName, salt⟩, absent, c, computed, rfl⟩ := addRevealed_eq_ok.mp added
  have kept : ∀ name other, made.lookup name = some other →
      (made.insert entry.1 c).lookup name = some other := by
    intro name other here
    rw [lookup_insert_eq, if_neg]
    · exact here
    · rintro rfl
      rw [absent] at here
      cases here
  refine ⟨fun name other here => kept name other (recomputed.given name other here), ?_⟩
  intro other inside
  rcases mem_append.mp inside with before | last
  · obtain ⟨hash, named, d, made, stands⟩ := recomputed.computed other before
    exact ⟨hash, named, d, made, kept _ _ stands⟩
  · obtain rfl := mem_singleton.mp last
    exact ⟨salt, allowedName, c, computed, by rw [lookup_insert_eq, if_pos rfl]⟩

theorem recomputed_of_foldlM {result : GoMap Bytes Bytes}
    {entries : List ((_ : Bytes) × RevealedField)}
    (done : entries.foldlM (addRevealed allowed) hidden = .ok result) :
    Recomputed allowed hidden entries result := by
  have start : Recomputed allowed hidden [] hidden :=
    ⟨fun _ _ here => here, nofun⟩
  exact foldlM_invariant (Recomputed allowed hidden)
    (fun _ _ _ _ recomputed => recomputed.addRevealed) start done

theorem allCommitments_eq_ok {revealed : GoMap Bytes RevealedField}
    {commitments : GoMap Bytes Bytes} :
    allCommitments allowed revealed hidden = .ok commitments ↔
      revealed.entries.length + hidden.entries.length = allowed.length ∧
        (∀ entry ∈ hidden.entries, entry.1 ∈ allowed ∧ isHashHex entry.2 = true) ∧
          revealed.entries.foldlM (addRevealed allowed) hidden = .ok commitments := by
  simp only [allCommitments, refuseIf_bind_eq_ok, ne_eq, not_not, Bool.not_eq_false,
    all_eq_true, Bool.and_eq_true, contains_iff_mem]

variable [SignatureLib] {keys : List PublicKey}

theorem verifyCheckpoint_eq_ok {c : Checkpoint} :
    verifyCheckpoint c keys = .ok () ↔
      wellFormed c = true ∧ c.alg = str "Ed25519" ∧
        ∃ key, keys.find? (fun k => k.keyID == c.keyID) = some key ∧
          (key.publicKey.kty = str "OKP" ∧ key.publicKey.crv = str "Ed25519") ∧
            ∃ pub, decodeSized key.publicKey.x 32 = some pub ∧
              ∃ sig, decodeSized c.signature 64 = some sig ∧
                ∃ msg, signedBytes c = .ok msg ∧ SignatureLib.verify pub msg sig = true := by
  rw [verifyCheckpoint]
  simp only [orRefuse_eq_ok, ↓refuseIf_bind_eq_ok, bind_eq_ok, mapError_eq_ok, refuseIf_eq_ok,
    not_or, ne_eq, not_not, Bool.not_eq_false]

theorem verifyInclusionProof_eq_ok {p : InclusionProof} {cp : Checkpoint} :
    verifyInclusionProof p cp keys = .ok () ↔
      verifyCheckpoint cp keys = .ok () ∧ proofShapeOK p = true ∧ p.treeSize = cp.size ∧
        ∃ path, decodeHexList (p.path.getD []) = some path ∧
          verifyInclusionPath ((hexDecode p.leafHash).getD []) p.leafIndex p.treeSize path
            ((hexDecode cp.rootHash).getD []) = true := by
  rw [verifyInclusionProof, unit_bind_eq_ok, refuseIf_bind_eq_ok, refuseIf_bind_eq_ok, bind_eq_ok]
  simp only [orRefuse_eq_ok, refuseIf_eq_ok, not_not, Bool.not_eq_false]

theorem verifyReceipt_eq_ok {r : Receipt} :
    verifyReceipt r keys = .ok () ↔
      r.version = 1 ∧ ∃ revealed, r.decision.revealed = some revealed ∧
        ∃ hidden, r.decision.commitments = some hidden ∧ r.decision.rowID = r.proof.rowID ∧
          ∃ commitments,
            allCommitments (fieldsFor r.decision.hashVersion) revealed hidden = .ok commitments ∧
              (isHashHex r.proof.leafHash = true ∧
                hexDecode r.proof.leafHash = some (leafHash (leafText r.decision.rowID
                  r.decision.rowHash r.decision.hashVersion commitments))) ∧
                verifyInclusionProof r.proof r.checkpoint keys = .ok () := by
  rw [verifyReceipt]
  simp only [orRefuse_eq_ok, ↓refuseIf_bind_eq_ok, bind_eq_ok, leafPreimage_eq, mapError_eq_ok,
    Except.ok.injEq, exists_eq_left', not_or, ne_eq, not_not, Bool.not_eq_false]

end

end TheAuth.Audit
