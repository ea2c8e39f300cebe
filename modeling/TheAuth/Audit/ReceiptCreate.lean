import Mathlib.Data.List.Induction
import TheAuth.Audit.ReceiptLeaves

/-!
# Created receipts are accepted

The verifier meets the fields in another order than `createReceipt`, but a map has no order and its
text sorts the keys, so it gets the hash of the leaf.
-/

set_option autoImplicit false

namespace TheAuth.Audit

open Go Library.Result List Bool GoMap AList

theorem nodup_fieldsFor (version : Int) : (fieldsFor version).Nodup := by
  unfold fieldsFor
  split_ifs <;> decide

theorem decodeHexList_map_hexEncode {path : List Bytes}
    (hashes : ∀ p ∈ path, p.length = hashBytes) :
    decodeHexList (path.map hexEncode) = some path := by
  induction path with
  | nil => rfl
  | cons p _ ih =>
    have here := hashes p mem_cons_self
    have later := ih fun q inside => hashes q (mem_cons_of_mem _ inside)
    rw [decodeHexList] at later
    rw [map_cons, decodeHexList, mapM_cons, later, if_pos (isHashHex_hexEncode here),
      hexDecode_hexEncode]
    rfl

section

variable [FloatLib]

theorem leafText_congr (rowID rowHash : Bytes) (version : Int)
    {commitments others : GoMap Bytes Bytes}
    (plain : ∀ name c, commitments.lookup name = some c → ∀ b ∈ name, isPlain b = true)
    (same : ∀ name, commitments.lookup name = others.lookup name) :
    leafText rowID rowHash version commitments = leafText rowID rowHash version others := by
  have distinct : ∀ a ∈ textEntries commitments, ∀ b ∈ textEntries commitments,
      codeUnits a.1 = codeUnits b.1 → a = b := by
    rintro ⟨name, c⟩ listed ⟨name', c'⟩ listed' units
    have stored := mem_textEntries.mp listed
    have stored' := mem_textEntries.mp listed'
    rw [codeUnits_of_plain (plain name c stored),
        codeUnits_of_plain (plain name' c' stored')] at units
    obtain rfl : name = name' := map_injective_iff.mpr (fun _ _ => UInt8.toNat.inj) units
    rw [Option.some.inj (stored.symm.trans stored')]
  have sorted : commitmentsText commitments = commitmentsText others := by
    rw [commitmentsText, commitmentsText,
      sortMembers_eq_of_perm distinct ((perm_of_lookup_eq same).map _)]
    rfl
  rw [leafText, leafText, sorted]

def Leaf.shown (l : Leaf) (name : Bytes) : RevealedField :=
  ⟨l.row.field name, (l.salts.lookup name).getD []⟩

def Leaf.given (l : Leaf) (name : Bytes) : Bytes := (l.commitments.lookup name).getD []

/-- The fields are parted into those to reveal and the others. -/
structure Parted (l : Leaf) (reveal names : List Bytes)
    (made : GoMap Bytes RevealedField × GoMap Bytes Bytes) : Prop where
  revealed : GoMap.Tabulates names reveal.contains l.shown made.1
  hidden : GoMap.Tabulates names (fun name => !reveal.contains name) l.given made.2

variable {l : Leaf} {reveal : List Bytes} {cp : Checkpoint} {lg : Log} {keys : List PublicKey}
  {made : GoMap Bytes RevealedField × GoMap Bytes Bytes} {names path : List Bytes} {rows : List Row}
  {ls : List Leaf}

theorem Parted.splitField (parted : Parted l reveal names made)
    (name : Bytes) : Parted l reveal (names ++ [name]) (Audit.splitField l reveal made name) := by
  unfold Audit.splitField
  split
  next shown => exact ⟨parted.revealed.insert shown, parted.hidden.skip (by rw [shown]; rfl)⟩
  rename_i kept
  have absent := eq_false_iff.mpr kept
  exact ⟨parted.revealed.skip absent, parted.hidden.insert (by rw [absent]; rfl)⟩

theorem parted_splitFields (l : Leaf) (reveal : List Bytes) :
    Parted l reveal (fieldsFor l.row.hashVersion) (splitFields l reveal) := by
  unfold splitFields
  induction fieldsFor l.row.hashVersion using reverseRecOn with
  | nil => exact ⟨GoMap.Tabulates.empty, GoMap.Tabulates.empty⟩
  | append_singleton _ name ih =>
    rw [foldl_append]
    exact ih.splitField name

theorem Parted.length (parted : Parted l reveal names made)
    (distinct : names.Nodup) : made.1.entries.length + made.2.entries.length = names.length := by
  rw [parted.revealed.length_entries distinct, parted.hidden.length_entries distinct]
  exact (length_eq_length_filter_add _).symm

theorem exists_foldlM_addRevealed {allowed : List Bytes} {whole made : GoMap Bytes Bytes}
    {entries : List ((_ : Bytes) × RevealedField)} (distinct : entries.NodupKeys)
    (fresh : ∀ entry ∈ entries, made.lookup entry.1 = none)
    (part : ∀ name c, made.lookup name = some c → whole.lookup name = some c)
    (committed : ∀ entry ∈ entries, (entry.1 ∈ allowed ∧ isHashHex entry.2.salt = true) ∧
      ∃ c, fieldCommitment entry.1 entry.2.salt entry.2.value = .ok c ∧
        whole.lookup entry.1 = some c) :
    ∃ result, entries.foldlM (addRevealed allowed) made = .ok result ∧
      ∀ name c, result.lookup name = some c → whole.lookup name = some c := by
  induction entries generalizing made with
  | nil => exact ⟨made, rfl, part⟩
  | cons entry _ ih =>
    obtain ⟨apart, distinct⟩ := nodupKeys_cons.mp distinct
    obtain ⟨checks, c, computed, inWhole⟩ := committed entry mem_cons_self
    have added : addRevealed allowed made entry = .ok (made.insert entry.1 c) :=
      addRevealed_eq_ok.mpr ⟨checks, fresh entry mem_cons_self, c, computed, rfl⟩
    rw [foldlM_cons, added]
    refine ih distinct ?_ ?_ fun other later => committed other (mem_cons_of_mem _ later)
    · intro other later
      rw [lookup_insert_eq, if_neg]
      · exact fresh other (mem_cons_of_mem _ later)
      · exact fun same => apart (same ▸ mem_keys_of_mem later)
    · intro name other here
      rw [lookup_insert_eq] at here
      split_ifs at here with same
      · rw [same, inWhole, ← here]
      · exact part name other here

section

variable {key : Bytes} {row : Row} {l : Leaf}

section

variable (built : BuiltFrom key row l)
include built

theorem BuiltFrom.shown_eq {name : Bytes} (named : name ∈ fieldsFor l.row.hashVersion) :
    l.shown name = ⟨l.row.field name, fieldSalt key l.row.hash name⟩ := by
  obtain ⟨rfl, committed, -⟩ := built
  rw [Leaf.shown, committed.salt name named]
  rfl

theorem BuiltFrom.exists_commitment {name : Bytes} (named : name ∈ fieldsFor l.row.hashVersion) :
    ∃ c, rowCommitment key l.row name = .ok c ∧ l.commitments.lookup name = some c ∧
      l.given name = c := by
  obtain ⟨rfl, committed, -⟩ := built
  obtain ⟨c, computed, stored⟩ := committed.commitment name named
  exact ⟨c, computed, stored, by rw [Leaf.given, stored]; rfl⟩

theorem BuiltFrom.exists_foldlM (reveal : List Bytes) :
    ∃ commitments, (splitFields l reveal).1.entries.foldlM
        (addRevealed (fieldsFor l.row.hashVersion)) (splitFields l reveal).2 = .ok commitments ∧
      ∀ name c, commitments.lookup name = some c → l.commitments.lookup name = some c := by
  have parted := parted_splitFields l reveal
  refine exists_foldlM_addRevealed (splitFields l reveal).1.nodupKeys ?_ ?_ ?_
  · rintro ⟨name, f⟩ listed
    obtain ⟨⟨-, asked⟩, -⟩ := (parted.revealed name f).mp (mem_lookup_iff.mpr listed)
    refine Option.eq_none_iff_forall_ne_some.mpr fun c here => ?_
    obtain ⟨⟨-, kept⟩, -⟩ := (parted.hidden name c).mp here
    simp only [asked, Bool.not_true, Bool.false_eq_true] at kept
  · intro name c here
    obtain ⟨⟨named, -⟩, rfl⟩ := (parted.hidden name c).mp here
    obtain ⟨_, -, stored, same⟩ := built.exists_commitment named
    rw [stored, same]
  · rintro ⟨name, f⟩ listed
    obtain ⟨⟨named, -⟩, rfl⟩ := (parted.revealed name f).mp (mem_lookup_iff.mpr listed)
    obtain ⟨c, computed, stored, -⟩ := built.exists_commitment named
    rw [built.shown_eq named]
    exact ⟨⟨named, isHashHex_fieldSalt _ _ _⟩, c, computed, stored⟩

theorem BuiltFrom.lookup_of_recomputed {reveal : List Bytes} {commitments : GoMap Bytes Bytes}
    (recomputed : Recomputed (fieldsFor l.row.hashVersion) (splitFields l reveal).2
      (splitFields l reveal).1.entries commitments)
    {name c : Bytes} (stored : l.commitments.lookup name = some c) :
    commitments.lookup name = some c := by
  have parted := parted_splitFields l reveal
  have named : name ∈ fieldsFor l.row.hashVersion := by
    obtain ⟨rfl, committed, -⟩ := built
    exact committed.named name c stored
  obtain ⟨c', computed, stored', same⟩ := built.exists_commitment named
  obtain rfl : c = c' := Option.some.inj (stored.symm.trans stored')
  by_cases asked : reveal.contains name = true
  · have listed := (parted.revealed name _).mpr ⟨⟨named, asked⟩, rfl⟩
    obtain ⟨-, -, d, made, stands⟩ := recomputed.computed ⟨name, _⟩ (mem_lookup_iff.mp listed)
    rw [built.shown_eq named] at made
    obtain rfl : c = d := Except.ok.inj (computed.symm.trans made)
    exact stands
  · refine recomputed.given name c ((parted.hidden name c).mpr ⟨⟨named, ?_⟩, same⟩)
    simp only [asked, Bool.not_false]

theorem BuiltFrom.allCommitments_splitFields (reveal : List Bytes) :
    ∃ commitments, allCommitments (fieldsFor l.row.hashVersion) (splitFields l reveal).1
        (splitFields l reveal).2 = .ok commitments ∧
      leafText l.row.id l.row.hash l.row.hashVersion commitments = l.text := by
  have parted := parted_splitFields l reveal
  obtain ⟨commitments, looped, inside⟩ := built.exists_foldlM reveal
  refine ⟨commitments, allCommitments_eq_ok.mpr ⟨parted.length (nodup_fieldsFor _), ?_, looped⟩, ?_⟩
  · rintro ⟨name, c⟩ listed
    obtain ⟨⟨named, -⟩, rfl⟩ := (parted.hidden name c).mp (mem_lookup_iff.mpr listed)
    obtain ⟨_, computed, -, same⟩ := built.exists_commitment named
    exact ⟨named, same ▸ isHashHex_of_fieldCommitment computed⟩
  · refine (leafText_congr _ _ _ ?_ fun name => ?_).symm
    · intro name c stored
      obtain ⟨rfl, committed, -⟩ := built
      exact isPlain_field (committed.named name c stored)
    · exact Option.ext fun c =>
        ⟨built.lookup_of_recomputed (recomputed_of_foldlM looped), inside name c⟩

end

end

theorem length_treeRows_le {since until_ : Option Int} {limit : Int}
    (bounded : 0 ≤ limit) : ((treeRows rows since until_ limit).length : Int) ≤ limit := by
  rw [treeRows, if_pos bounded, length_take]
  omega

theorem leavesMatching_eq_ok (matched : lg.leavesMatching cp = .ok ls) :
    lg.loadLeaves cp.since cp.until_ cp.size = .ok ls ∧ cp.size = ls.length ∧
      hexDecode cp.rootHash = some (merkleRoot (ls.map (·.hash))) := by
  rw [Log.leavesMatching, refuseIf_bind_eq_ok, bind_eq_ok] at matched
  obtain ⟨shape, _, loaded, matched⟩ := matched
  rw [refuseIf_bind_eq_ok, refuseIf_bind_eq_ok] at matched
  obtain ⟨_, sameRoot, done⟩ := matched
  cases done
  rw [mapError_eq_ok] at loaded
  refine ⟨loaded, ?_, ?_⟩
  · obtain ⟨rows, -, built⟩ := builtFrom_of_loadLeaves loaded
    have bounded : 0 ≤ cp.size := by
      simp only [wellFormed, not_eq_false, and_eq_true, decide_eq_true_eq] at shape
      tauto
    have short := @length_treeRows_le _ rows cp.since cp.until_ _ bounded
    rw [built.length_eq] at short
    omega
  · simp only [sameHex, not_eq_false, and_eq_true, beq_iff_eq, rootHex,
      hexDecode_hexEncode] at sameRoot
    exact sameRoot.2.symm

theorem createReceipt_eq_ok {rowID : Bytes} {r : Receipt} :
    createReceipt lg rowID cp reveal = .ok r ↔
      ∃ (ls : List Leaf) (idx : Fin ls.length) (path : List Bytes), lg.leavesMatching cp = .ok ls ∧
        indexOf ls rowID = some idx ∧ reveal ⊆ fieldsFor (ls.get idx).row.hashVersion ∧
          inclusionPath (ls.map (·.hash)) idx = .ok path ∧
            receiptFor (ls.get idx) rowID idx cp reveal path = r := by
  rw [createReceipt, bind_eq_ok]
  refine exists_congr fun ls => ?_
  simp only [bind_eq_ok, orRefuse_eq_ok, exists_and_left]
  refine and_congr_right fun _ => exists_congr fun idx => and_congr_right fun _ => ?_
  have known : (reveal.find? fun name => !(fieldsFor (ls.get idx).row.hashVersion).contains name) =
      none ↔ reveal ⊆ fieldsFor (ls.get idx).row.hashVersion := by
    simp [find?_eq_none, List.subset_def]
  rw [← known]
  split <;> simp_all [bind_eq_ok, mapError_eq_ok]

variable [SignatureLib]

theorem verifyInclusionProof_of_path {hashes : List Bytes}
    (genuine : verifyCheckpoint cp keys = .ok ()) (size : cp.size = hashes.length)
    (root : hexDecode cp.rootHash = some (merkleRoot hashes))
    (lengths : ∀ hash ∈ hashes, hash.length = hashBytes) {i : ℕ} {hash : Bytes}
    (here : hashes[i]? = some hash) (found : inclusionPath hashes i = .ok path) (rowID : Bytes) :
    verifyInclusionProof ⟨1, rowID, i, cp.size, hexEncode hash, some (path.map hexEncode)⟩ cp keys =
      .ok () := by
  obtain ⟨path', computed, -, accepted⟩ := exists_inclusionPath here
  obtain rfl : path = path' := Except.ok.inj (found.symm.trans computed)
  have verified := accepted lengths
  obtain ⟨leafLength, -, pathLengths, -⟩ := (verifyInclusionPath_iff _ _ _ _ _).mp verified
  have pathHashes : ∀ p ∈ path, p.length = hashBytes := fun p inside =>
    beq_iff_eq.mp (all_eq_true.mp pathLengths p inside)
  refine verifyInclusionProof_eq_ok.mpr
    ⟨genuine, ?_, rfl, path, decodeHexList_map_hexEncode pathHashes, ?_⟩
  · have inside := (List.getElem?_eq_some_iff.mp here).1
    have shape := (verifyCheckpoint_eq_ok.mp genuine).1
    simp only [wellFormed, and_eq_true, decide_eq_true_eq] at shape
    have hexes : (path.map hexEncode).all isHashHex = true := by
      rw [all_map, all_eq_true]
      exact fun p listed => isHashHex_hexEncode (pathHashes p listed)
    simp only [proofShapeOK, and_eq_true, decide_eq_true_eq, beq_iff_eq]
    exact ⟨⟨⟨⟨⟨⟨trivial, by omega⟩, by omega⟩,
        by omega⟩, by omega⟩, isHashHex_hexEncode leafLength⟩, hexes⟩
  · rw [hexDecode_hexEncode, root, size]
    exact verified

theorem verifyReceipt_receiptFor {key : Bytes} (built : List.Forall₂ (BuiltFrom key) rows ls)
    (genuine : verifyCheckpoint cp keys = .ok ()) (size : cp.size = ls.length)
    (root : hexDecode cp.rootHash = some (merkleRoot (ls.map (·.hash)))) {i : ℕ}
    (here : ls[i]? = some l)
    (found : inclusionPath (ls.map (·.hash)) i = .ok path) (reveal : List Bytes) :
    verifyReceipt (receiptFor l l.row.id i cp reveal path) keys = .ok () := by
  obtain ⟨_, -, from_⟩ := exists_builtFrom built here
  obtain ⟨commitments, made, text⟩ := from_.allCommitments_splitFields reveal
  have hash : (ls.map (·.hash))[i]? = some l.hash := by rw [getElem?_map, here]; rfl
  have included := verifyInclusionProof_of_path genuine (size.trans (by rw [length_map])) root
    (length_of_builtFrom built) hash found l.row.id
  refine verifyReceipt_eq_ok.mpr ⟨rfl, _, rfl, _, rfl, rfl, commitments, made, ⟨?_, ?_⟩, included⟩
  · exact isHashHex_hexEncode (from_.hash_eq ▸ length_leafHash _)
  · exact (hexDecode_hexEncode _).trans (congrArg some
      (from_.hash_eq.trans (congrArg leafHash text.symm)))

/-- **Created receipts are accepted.** A receipt that the verifier accepts is made of every row
that a genuine checkpoint covers, with any of its fields, and of no other. -/
theorem verifyReceipt_of_createReceipt (lg : Log) (rowID : Bytes) (cp : Checkpoint)
    (reveal : List Bytes)
    (keys : List PublicKey) :
    (∃ r, createReceipt lg rowID cp reveal = .ok r ∧ verifyReceipt r keys = .ok ()) ↔
      verifyCheckpoint cp keys = .ok () ∧ ∃ (ls : List Leaf) (idx : Fin ls.length),
        lg.leavesMatching cp = .ok ls ∧ indexOf ls rowID = some idx ∧
          reveal ⊆ fieldsFor (ls.get idx).row.hashVersion := by
  constructor
  · rintro ⟨_, created, accepted⟩
    obtain ⟨ls, idx, _, matched, covered, known, -, rfl⟩ := createReceipt_eq_ok.mp created
    obtain ⟨-, _, -, _, -, -, _, -, -, included⟩ := verifyReceipt_eq_ok.mp accepted
    exact ⟨(verifyInclusionProof_eq_ok.mp included).1, ls, idx, matched, covered, known⟩
  · rintro ⟨genuine, ls, idx, matched, covered, known⟩
    have here : ls[idx.1]? = some (ls.get idx) := getElem?_eq_getElem idx.2
    have hash : (ls.map (·.hash))[idx.1]? = some (ls.get idx).hash := by
      rw [getElem?_map, here]; rfl
    obtain ⟨path, found, -⟩ := exists_inclusionPath hash
    obtain ⟨loaded, size, root⟩ := leavesMatching_eq_ok matched
    obtain ⟨_, -, built⟩ := builtFrom_of_loadLeaves loaded
    refine ⟨_, createReceipt_eq_ok.mpr ⟨ls, idx, path, matched, covered, known, found, rfl⟩, ?_⟩
    rw [indexOf, findFinIdx?_eq_some_iff] at covered
    obtain rfl := beq_iff_eq.mp covered.1
    exact verifyReceipt_receiptFor built genuine size root here found reveal

end

end TheAuth.Audit
