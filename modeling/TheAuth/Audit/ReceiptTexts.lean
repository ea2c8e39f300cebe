import TheAuth.Audit.Receipt

/-!
# What the texts of a leaf show

The messages hashed for leaves and commitments can be taken apart again: the former are canonical
texts, and in the latter the salts are hashes in hexadecimal.
-/

set_option autoImplicit false

namespace TheAuth.Audit

open Go Library.Result Library.Texts List

theorem hexValue_jsonHex {n : ℕ} (digit : n < 16) : hexValue (jsonHex n) = some n := by
  revert n
  decide

theorem isHexDigit_jsonHex {n : ℕ} (digit : n < 16) : isHexDigit (jsonHex n) = true := by
  revert n
  decide

theorem isPlain_of_isHexDigit {c : UInt8} (digit : isHexDigit c = true) : isPlain c = true := by
  have quote : c ≠ quoteByte := by
    rintro rfl
    exact absurd digit (by decide)
  have escape : c ≠ escapeByte := by
    rintro rfl
    exact absurd digit (by decide)
  simp only [isHexDigit, Bool.or_eq_true, Bool.and_eq_true, decide_eq_true_eq,
    UInt8.le_iff_toNat_le, UInt8.toNat_ofNat] at digit
  simp only [isPlain, Bool.and_eq_true, decide_eq_true_eq, bne_iff_ne]
  exact ⟨⟨⟨by omega, by omega⟩, quote⟩, escape⟩

theorem hexDecode_hexEncode (b : Bytes) : hexDecode (hexEncode b) = some b := by
  induction b with
  | nil => rfl
  | cons c b ih =>
    have small := c.toNat_lt
    have cut : hexEncode (c :: b) =
        jsonHex (c.toNat / 16) :: jsonHex (c.toNat % 16) :: hexEncode b := rfl
    rw [cut, hexDecode, hexValue_jsonHex (by omega), hexValue_jsonHex (by omega), ih]
    have value : UInt8.ofNat (16 * (c.toNat / 16) + c.toNat % 16) = c := by
      rw [Nat.div_add_mod, UInt8.ofNat_toNat]
    exact congrArg (fun d => some (d :: b)) value

theorem hexEncode_inj {a b : Bytes} (same : hexEncode a = hexEncode b) : a = b := by
  have decoded := congrArg hexDecode same
  rw [hexDecode_hexEncode, hexDecode_hexEncode] at decoded
  exact Option.some.inj decoded

theorem length_hexEncode (b : Bytes) : (hexEncode b).length = 2 * b.length := by
  induction b with
  | nil => rfl
  | cons =>
    rw [hexEncode]
    simp
    omega

theorem isHashHex_hexEncode {b : Bytes} (hash : b.length = sha256Size) :
    isHashHex (hexEncode b) = true := by
  rw [isHashHex, Bool.and_eq_true, length_hexEncode, hash, all_eq_true]
  refine ⟨rfl, fun c inside => ?_⟩
  obtain ⟨d, -, written⟩ := mem_flatMap.mp inside
  have small := d.toNat_lt
  simp only [mem_cons, not_mem_nil, or_false] at written
  obtain rfl | rfl := written <;> exact isHexDigit_jsonHex (by omega)

theorem isPlain_of_isHashHex {s : Bytes} (hash : isHashHex s = true) :
    ∀ c ∈ s, isPlain c = true := by
  obtain ⟨-, digits⟩ := Bool.and_eq_true_iff.mp hash
  exact fun c inside => isPlain_of_isHexDigit (all_eq_true.mp digits c inside)

theorem length_of_isHashHex {s : Bytes} (hash : isHashHex s = true) : s.length = 64 := by
  simpa using (Bool.and_eq_true_iff.mp hash).1

theorem commitMessage_inj {field salt salt' value value' : Bytes} (hash : isHashHex salt = true)
    (hash' : isHashHex salt' = true)
    (same : commitMessage field salt value = commitMessage field salt' value') :
    salt = salt' ∧ value = value' := by
  have tails := (cons.inj (append_cancel_left same)).2
  have rest := (cons.inj (append_cancel_left tails)).2
  obtain ⟨salts, values⟩ := delimited_of_length 64 (length_of_isHashHex hash)
    (length_of_isHashHex hash') rest
  exact ⟨salts, (cons.inj values).2⟩

theorem isPlain_field {version : Int} {name : Bytes} (inside : name ∈ fieldsFor version) :
    ∀ c ∈ name, isPlain c = true := by
  have go : (goChainFields.all fun name => name.all isPlain) = true := by decide +kernel
  have second : (fieldsV2.all fun name => name.all isPlain) = true := by decide +kernel
  have first : (fieldsV1.all fun name => name.all isPlain) = true := by decide +kernel
  have all : ((fieldsFor version).all fun name => name.all isPlain) = true := by
    unfold fieldsFor
    split_ifs
    · exact go
    · exact second
    · exact first
  exact all_eq_true.mp (all_eq_true.mp all name inside)

section

variable [FloatLib]

theorem canonicalJSON_string (s : Bytes) : canonicalJSON (.string s) = .ok (jsString s) := by
  rfl

theorem canonicalJSON_int (n : Int) :
    canonicalJSON (.number (.int n)) = .ok (jsNumber (FloatLib.ofInt n)) := by
  rfl

theorem exists_signedBytes (c : Checkpoint) : ∃ text, signedBytes c = .ok text := by
  have time : ∀ p : Option Int, ∃ text, writeCanonical 1 (nilable p) = .ok text := by
    intro p
    cases p with
    | none => exact ⟨_, by rw [nilable, Option.elim_none, writeCanonical, if_neg (by decide)]⟩
    | some => exact ⟨_, by rw [nilable]; rfl⟩
  have string : ∀ s, ∃ text, writeCanonical 1 (.string s) = .ok text :=
    fun s => ⟨_, by rw [writeCanonical, if_neg (by decide)]⟩
  have int : ∀ n, ∃ text, writeCanonical 1 (.number (.int n)) = .ok text :=
    fun n => ⟨_, by rw [writeCanonical]; rfl⟩
  have written : ∃ text, writeObject (writeMembers 1
      [(str "version", .number (.int c.version)), (str "alg", .string c.alg),
        (str "keyId", .string c.keyID), (str "size", .number (.int c.size)),
        (str "rootHash", .string c.rootHash), (str "timestamp", .number (.int c.timestamp)),
        (str "since", nilable c.since), (str "until", nilable c.until_)]) = .ok text := by
    refine exists_writeObject fun entry inside => ?_
    simp only [writeMembers, mem_cons, not_mem_nil, or_false] at inside
    rcases inside with rfl | rfl | rfl | rfl | rfl | rfl | rfl | rfl
    all_goals first | exact int _ | exact string _ | exact time _
  obtain ⟨text, object⟩ := written
  refine ⟨_, bind_eq_ok.mpr ⟨text, ?_, rfl⟩⟩
  exact object

def commitmentsText (commitments : GoMap Bytes Bytes) : Bytes :=
  (str ",").intercalate ((sortMembers (textEntries commitments)).map stringMember)

def leafText (rowID rowHash : Bytes) (hashVersion : Int) (commitments : GoMap Bytes Bytes) :
    Bytes :=
  str "\x7b" ++ (str ",").intercalate
    [memberText (str "fields") (str "\x7b" ++ commitmentsText commitments ++ str "\x7d"),
      memberText (str "hashVersion") (jsNumber (FloatLib.ofInt hashVersion)),
      memberText (str "rowHash") (jsString rowHash), memberText (str "rowId") (jsString rowID),
      memberText (str "v") (jsNumber (FloatLib.ofInt 1))] ++ str "\x7d"

theorem leafPreimage_eq (rowID rowHash : Bytes) (hashVersion : Int)
    (commitments : GoMap Bytes Bytes) :
    leafPreimage rowID rowHash hashVersion commitments =
      .ok (leafText rowID rowHash hashVersion commitments) := by
  have fields : writeCanonical (0 + 1) (stringObject (textEntries commitments)) =
      .ok (str "\x7b" ++ commitmentsText commitments ++ str "\x7d") :=
    writeCanonical_stringObject (by decide) _
  rw [leafPreimage, canonicalJSON, leafValue, writeCanonical]
  simp only [writeMembers, fields]
  rfl

theorem leafText_inj {rowID rowHash rowID' rowHash' : Bytes} {version version' : Int}
    {commitments commitments' : GoMap Bytes Bytes}
    (same : leafText rowID rowHash version commitments =
      leafText rowID' rowHash' version' commitments') :
    jsString rowID = jsString rowID' ∧ jsString rowHash = jsString rowHash' ∧
      jsNumber (FloatLib.ofInt version) = jsNumber (FloatLib.ofInt version') ∧
      ∀ entry ∈ textEntries commitments, ∃ other ∈ textEntries commitments',
        jsString entry.1 = jsString other.1 ∧ jsString entry.2 = jsString other.2 := by
  simp only [leafText, intercalate_cons_cons, intercalate_singleton, memberText,
    append_assoc, append_cancel_left_eq] at same
  obtain ⟨afterFields, members⟩ := exists_member_of_text_eq same
  simp only [append_cancel_left_eq] at afterFields
  obtain ⟨versions, afterVersion⟩ := append_cons_inj (comma_notMem_jsNumber _)
    (comma_notMem_jsNumber _) afterFields
  have fromHash := append_cancel_left (append_cancel_left (append_cancel_left afterVersion))
  obtain ⟨hashes, afterHash⟩ := delimited_jsString ⟨_, rfl⟩ ⟨_, rfl⟩ fromHash
  simp only [append_cancel_left_eq] at afterHash
  obtain ⟨ids, -⟩ := delimited_jsString ⟨_, rfl⟩ ⟨_, rfl⟩ afterHash
  exact ⟨ids, hashes, versions, members⟩

end

end TheAuth.Audit
