import Mathlib.Data.List.Sort
import TheAuth.Go.Json
import TheAuth.Library.Result
import TheAuth.Library.Texts

/-!
# Canonical JSON

`canonicalJSON` writes a value the way the checkpoints hash it. The quotes of a string are the only
ones that are not escaped, so an object of strings can be read back from its text, up to bytes that
are not UTF-8, which are all written as one character.
-/

set_option autoImplicit false

namespace TheAuth.Audit

open Go Library.Result Library.Texts List UInt8

/-- `float64`. The two formats are printed with digits, a point, signs and the letter of the
exponent. -/
class FloatLib where
  Float : Type
  parseFloat : Bytes → Option Float
  ofInt : Int → Float
  (notFinite isZero outOfRange : Float → Bool)
  (formatE formatF : Float → Bytes)
  formatE_letters : ∀ f, ∀ c ∈ formatE f, c ∈ str "0123456789+-.e"
  formatF_letters : ∀ f, ∀ c ∈ formatF f, c ∈ str "0123456789+-.e"

@[reducible]
def FloatLib.unary : FloatLib where
  Float := Int
  parseFloat _ := none
  ofInt := id
  notFinite _ := false
  isZero n := n == 0
  outOfRange _ := false
  formatE _ := []
  formatF n := List.replicate n.natAbs 0x31
  formatE_letters _ _ none_ := (nomatch none_)
  formatF_letters n c inside := by
    rw [List.eq_of_mem_replicate inside]
    decide

def exponentByte : UInt8 := 0x65

def zeroByte : UInt8 := 0x30

section

variable [FloatLib]

def jsNumber (f : FloatLib.Float) : Bytes :=
  if FloatLib.notFinite f then str "null"
  else if FloatLib.isZero f then str "0"
  else if FloatLib.outOfRange f then
    let s := FloatLib.formatE f
    let mant := s.takeWhile (· != exponentByte)
    let exp := (s.dropWhile (· != exponentByte)).drop 1
    mant ++ exponentByte :: (exp.take 1 ++ (exp.drop 1).dropWhile (· == zeroByte))
  else FloatLib.formatF f

inductive Number where
  | text (t : Bytes)
  | float (f : FloatLib.Float)
  | int (n : Int)

/-- What an `any` holds. A value of another type is given by what `json.Marshal` and decoding make
of it, or by the text of their error. -/
inductive JsonValue where
  | null
  | bool (b : Bool)
  | string (s : Bytes)
  | number (n : Number)
  | array (entries : List JsonValue)
  | object (members : List (Bytes × JsonValue))
  | other (generic : Except Bytes JsonValue)

def jsRune : Option ℕ → Bytes
  | none => encodeRune 0xFFFD
  | some r =>
    match shortEscape r with
    | some text => text
    | none =>
      if r < 0x20 then str "\\u00" ++ [jsonHex (r / 16), jsonHex (r % 16)] else encodeRune r

def quoteByte : UInt8 := 0x22

def escapeByte : UInt8 := 0x5C

def jsContent (s : Bytes) : Bytes := (runes s).flatMap jsRune

def jsString (s : Bytes) : Bytes := quoteByte :: (jsContent s ++ [quoteByte])

def utf16 (r : ℕ) : List ℕ :=
  if r < 0x10000 then [r] else [0xD800 + (r - 0x10000) / 0x400, 0xDC00 + (r - 0x10000) % 0x400]

def codeUnits (s : Bytes) : List ℕ := (runes s).flatMap fun r => utf16 (r.getD 0xFFFD)

inductive CanonicalError where
  | tooDeep
  | badNumber (text : Bytes)
  | failed (cause : Bytes)

def maxCanonicalDepth : ℕ := 256

def writeNumber : Number → Except CanonicalError Bytes
  | .text t =>
    match FloatLib.parseFloat t with
    | none => .error (.badNumber t)
    | some f => .ok (jsNumber f)
  | .float f => .ok (jsNumber f)
  | .int n => .ok (jsNumber (FloatLib.ofInt n))

def memberText (key value : Bytes) : Bytes := jsString key ++ str ":" ++ value

def sortMembers {α : Type} (members : List (Bytes × α)) : List (Bytes × α) :=
  members.insertionSort fun a b => ¬ codeUnits b.1 < codeUnits a.1

def writeObject (members : List (Bytes × Except CanonicalError Bytes)) :
    Except CanonicalError Bytes := do
  let texts ← (sortMembers members).mapM fun entry => entry.2.map (memberText entry.1)
  .ok (str "\x7b" ++ (str ",").intercalate texts ++ str "\x7d")

mutual

def writeCanonical (depth : ℕ) (v : JsonValue) : Except CanonicalError Bytes :=
  if maxCanonicalDepth < depth then .error .tooDeep
  else match v with
  | .null => .ok (str "null")
  | .bool b => .ok (if b then str "true" else str "false")
  | .string s => .ok (jsString s)
  | .number n => writeNumber n
  | .array entries => do
    let texts ← writeEntries (depth + 1) entries
    .ok (str "[" ++ (str ",").intercalate texts ++ str "]")
  | .object members => writeObject (writeMembers (depth + 1) members)
  | .other generic => writeGeneric (depth + 1) generic

def writeEntries (depth : ℕ) : List JsonValue → Except CanonicalError (List Bytes)
  | [] => .ok []
  | v :: rest => do
    let text ← writeCanonical depth v
    let texts ← writeEntries depth rest
    .ok (text :: texts)

def writeMembers (depth : ℕ) :
    List (Bytes × JsonValue) → List (Bytes × Except CanonicalError Bytes)
  | [] => []
  | (key, v) :: rest => (key, writeCanonical depth v) :: writeMembers depth rest

def writeGeneric (depth : ℕ) : Except Bytes JsonValue → Except CanonicalError Bytes
  | .error cause => .error (.failed cause)
  | .ok v => writeCanonical depth v

end

def canonicalJSON (v : JsonValue) : Except CanonicalError Bytes := writeCanonical 0 v

section

omit [FloatLib]

/-! ## Strings -/

theorem content_shortEscape {r : ℕ} {text : Bytes} (short : shortEscape r = some text) :
    Content quoteByte escapeByte text := by
  unfold shortEscape at short
  split_ifs at short <;> cases short <;> exact .escaped _ .nil

theorem plain_encodeRune {r : ℕ} (small : r < 0x200000) (noQuote : r ≠ 0x22) (noEscape : r ≠ 0x5C)
    {c : UInt8} (inside : c ∈ encodeRune r) : c ≠ quoteByte ∧ c ≠ escapeByte := by
  have value := mem_encodeRune small inside
  constructor
  · rintro rfl
    have quote : quoteByte.toNat = 0x22 := rfl
    omega
  · rintro rfl
    have escape : escapeByte.toNat = 0x5C := rfl
    omega

theorem plain_jsonHex {n : ℕ} (digit : n < 16) :
    jsonHex n ≠ quoteByte ∧ jsonHex n ≠ escapeByte := by
  revert n
  decide

theorem content_jsRune {r : Option ℕ} (small : ∀ code, r = some code → code < 0x200000) :
    Content quoteByte escapeByte (jsRune r) := by
  cases r with
  | none => exact .of_plain fun c => plain_encodeRune (by decide) (by decide) (by decide)
  | some r =>
    have bound := small r rfl
    unfold jsRune
    dsimp only
    split
    next short => exact content_shortEscape short
    rename_i long
    split
    next =>
      have high := plain_jsonHex (n := r / 16) (by omega)
      have low := plain_jsonHex (n := r % 16) (by omega)
      refine .escaped _ (.plain (by decide) (by decide) (.plain (by decide) (by decide) ?_))
      exact .plain high.1 high.2 (.plain low.1 low.2 .nil)
    refine .of_plain fun c => plain_encodeRune bound ?_ ?_
    · rintro rfl
      cases long
    · rintro rfl
      cases long

theorem delimited_jsString : Delimited fun text => ∃ s, text = jsString s := by
  refine (@delimited_quoted _ quoteByte escapeByte (by decide)).mono ?_
  rintro _ ⟨s, rfl⟩
  exact ⟨jsContent s, .flatMap fun r read =>
    content_jsRune fun code same => lt_of_mem_runes (same ▸ read), rfl⟩

end

theorem comma_notMem_jsNumber (f : FloatLib.Float) : 0x2C ∉ jsNumber f := by
  have format : ∀ {text : Bytes}, (∀ c ∈ text, c ∈ str "0123456789+-.e") → 0x2C ∉ text :=
    fun letters inside => absurd (letters _ inside) (by decide)
  unfold jsNumber
  split
  · decide
  split
  · decide
  split
  · refine format fun c inside => ?_
    rw [mem_append, mem_cons, mem_append] at inside
    obtain mant | rfl | sign | digits := inside
    · exact FloatLib.formatE_letters f c ((takeWhile_sublist _).mem mant)
    · decide
    · exact FloatLib.formatE_letters f c ((dropWhile_suffix _).mem
        (mem_of_mem_drop (mem_of_mem_take sign)))
    · exact FloatLib.formatE_letters f c ((dropWhile_suffix _).mem
        (mem_of_mem_drop (mem_of_mem_drop ((dropWhile_suffix _).mem digits))))
  · exact format (FloatLib.formatF_letters f)

def isPlain (c : UInt8) : Bool :=
  0x20 ≤ c.toNat && c.toNat < 0x80 && c != quoteByte && c != escapeByte

section

omit [FloatLib]

theorem jsRune_of_plain {c : UInt8} (plain : isPlain c = true) : jsRune (some c.toNat) = [c] := by
  simp only [isPlain, Bool.and_eq_true, decide_eq_true_eq, bne_iff_ne] at plain
  obtain ⟨⟨⟨_, ascii⟩, noQuote⟩, noEscape⟩ := plain
  have quote : c.toNat ≠ 0x22 := fun same => noQuote (toNat.inj same)
  have escape : c.toNat ≠ 0x5C := fun same => noEscape (toNat.inj same)
  have long : shortEscape c.toNat = none := by
    unfold shortEscape
    split_ifs <;> first | rfl | omega
  unfold jsRune
  dsimp only
  rw [long]
  rw [if_neg (by omega), encodeRune, if_pos ascii, UInt8.ofNat_toNat]

theorem runes_of_plain {s : Bytes} (plain : ∀ c ∈ s, isPlain c = true) :
    runes s = s.map fun c => some c.toNat := by
  induction s with
  | nil => rfl
  | cons c s ih =>
    have here := plain c mem_cons_self
    have ascii : c < 0x80 := by
      simp only [isPlain, Bool.and_eq_true, decide_eq_true_eq] at here
      exact lt_iff_toNat_lt.mpr here.1.1.2
    have first : decodeRune (c :: s) = some (c.toNat, 1) := if_pos ascii
    have read : runes (c :: s) = some c.toNat :: runes s := by
      rw [runes, runesFrom, first]
      rfl
    rw [read, ih fun d inside => plain d (mem_cons_of_mem _ inside), map_cons]

theorem jsContent_of_plain {s : Bytes} (plain : ∀ c ∈ s, isPlain c = true) : jsContent s = s := by
  rw [jsContent, runes_of_plain plain, flatMap_map]
  have each : s.flatMap (fun c => jsRune (some c.toNat)) = s.flatMap fun c => [c] :=
    flatMap_congr fun c inside => jsRune_of_plain (plain c inside)
  rw [each, flatMap_singleton']

theorem codeUnits_of_plain {s : Bytes} (plain : ∀ c ∈ s, isPlain c = true) :
    codeUnits s = s.map UInt8.toNat := by
  rw [codeUnits, runes_of_plain plain, flatMap_map]
  have each : s.flatMap (fun c => utf16 ((some c.toNat).getD 0xFFFD)) =
      s.flatMap fun c => [c.toNat] := by
    refine flatMap_congr fun c _ => ?_
    have small := c.toNat_lt
    exact if_pos (by simp only [Option.getD_some]; omega)
  rw [each, map_eq_flatMap]

theorem eq_of_jsString_eq {s t : Bytes} (plain : ∀ c ∈ s, isPlain c = true)
    (plain' : ∀ c ∈ t, isPlain c = true) (same : jsString s = jsString t) : s = t := by
  have contents : jsContent s = jsContent t := append_cancel_right (cons.inj same).2
  rwa [jsContent_of_plain plain, jsContent_of_plain plain'] at contents

end

/-! ## Objects -/

def stringObject (members : List (Bytes × Bytes)) : JsonValue :=
  .object (members.map fun entry => (entry.1, .string entry.2))

section

omit [FloatLib]

def stringMember (entry : Bytes × Bytes) : Bytes := memberText entry.1 (jsString entry.2)

theorem perm_sortMembers {α : Type} (members : List (Bytes × α)) :
    (sortMembers members).Perm members :=
  perm_insertionSort _ _

theorem sortMembers_eq_of_perm {α : Type} {members others : List (Bytes × α)}
    (distinct : ∀ a ∈ members, ∀ b ∈ members, codeUnits a.1 = codeUnits b.1 → a = b)
    (same : members.Perm others) : sortMembers members = sortMembers others := by
  let below : Bytes × α → Bytes × α → Prop := fun a b => ¬ codeUnits b.1 < codeUnits a.1
  have total : Std.Total below := ⟨fun a b => List.le_total (codeUnits a.1) (codeUnits b.1)⟩
  have trans : IsTrans (Bytes × α) below := ⟨fun _ _ _ lower upper => List.le_trans lower upper⟩
  refine List.Perm.eq_of_pairwise (fun a b inMembers inOthers lower upper => ?_)
    (pairwise_insertionSort below members) (pairwise_insertionSort below others)
    ((perm_sortMembers members).trans (same.trans (perm_sortMembers others).symm))
  refine distinct a ((perm_sortMembers members).mem_iff.mp inMembers) b ?_
    (List.le_antisymm lower upper)
  exact same.mem_iff.mpr ((perm_sortMembers others).mem_iff.mp inOthers)

theorem sortMembers_map {α β : Type} (f : α → β) (members : List (Bytes × α)) :
    sortMembers (members.map fun entry => (entry.1, f entry.2)) =
      (sortMembers members).map fun entry => (entry.1, f entry.2) := by
  refine (map_insertionSort (fun a b : Bytes × α => ¬ codeUnits b.1 < codeUnits a.1)
    (fun a b : Bytes × β => ¬ codeUnits b.1 < codeUnits a.1) _ _ ?_).symm
  exact fun _ _ _ _ => Iff.rfl

theorem writeObject_ok (members : List (Bytes × Bytes)) :
    writeObject (members.map fun entry => (entry.1, .ok entry.2)) =
      .ok (str "\x7b" ++ (str ",").intercalate
        ((sortMembers members).map fun entry => memberText entry.1 entry.2) ++ str "\x7d") := by
  have all : ∀ sorted : List (Bytes × Bytes),
      (sorted.map fun entry => ((entry.1, .ok entry.2) : Bytes × Except CanonicalError Bytes)).mapM
        (fun entry => entry.2.map (memberText entry.1)) =
          .ok (sorted.map fun entry => memberText entry.1 entry.2) := by
    intro sorted
    induction sorted with
    | nil => rfl
    | cons _ _ ih =>
      rw [map_cons, mapM_cons, ih]
      rfl
  rw [writeObject, sortMembers_map, all]
  rfl

theorem exists_writeObject {members : List (Bytes × Except CanonicalError Bytes)}
    (each : ∀ entry ∈ members, ∃ text, entry.2 = .ok text) :
    ∃ text, writeObject members = .ok text := by
  have all : ∀ entry ∈ sortMembers members,
      ∃ text, entry.2.map (memberText entry.1) = .ok text := by
    intro entry inside
    obtain ⟨_, written⟩ := each entry ((perm_sortMembers members).mem_iff.mp inside)
    exact ⟨_, by rw [written]; rfl⟩
  obtain ⟨_, written⟩ := exists_mapM_eq_ok all
  exact exists_bind_eq_ok written ⟨_, rfl⟩

end

theorem writeMembers_map {α : Type} (depth : ℕ) (f : α → JsonValue) (members : List (Bytes × α)) :
    writeMembers depth (members.map fun entry => (entry.1, f entry.2)) =
      members.map fun entry => (entry.1, writeCanonical depth (f entry.2)) := by
  induction members with
  | nil => rfl
  | cons _ _ ih => rw [map_cons, map_cons, writeMembers, ih]

theorem writeCanonical_stringObject {depth : ℕ} (shallow : depth < maxCanonicalDepth)
    (members : List (Bytes × Bytes)) :
    writeCanonical depth (stringObject members) =
      .ok (str "\x7b" ++ (str ",").intercalate ((sortMembers members).map stringMember) ++
        str "\x7d") := by
  have strings : ∀ s, writeCanonical (depth + 1) (.string s) = .ok (jsString s) := by
    intro _
    rw [writeCanonical, if_neg (by omega)]
  rw [stringObject, writeCanonical, if_neg (by omega), writeMembers_map]
  simp only [strings]
  have written := writeObject_ok (members.map fun entry => (entry.1, jsString entry.2))
  rwa [map_map, sortMembers_map, map_map] at written

omit [FloatLib] in
theorem delimited_stringMember : Delimited fun text => ∃ entry, text = stringMember entry := by
  have parts := (delimited_jsString.append (delimited_of_length 1)).append delimited_jsString
  refine parts.mono ?_
  rintro _ ⟨entry, rfl⟩
  exact ⟨_, _, ⟨_, _, ⟨entry.1, rfl⟩, (rfl : (str ":").length = 1), rfl⟩, ⟨entry.2, rfl⟩, rfl⟩

omit [FloatLib] in
theorem jsString_eq_of_stringMember_eq {entry other : Bytes × Bytes}
    (same : stringMember entry = stringMember other) :
    jsString entry.1 = jsString other.1 ∧ jsString entry.2 = jsString other.2 := by
  simp only [stringMember, memberText, append_assoc] at same
  obtain ⟨key, later⟩ := delimited_jsString ⟨_, rfl⟩ ⟨_, rfl⟩ same
  exact ⟨key, append_cancel_left later⟩

omit [FloatLib] in
theorem exists_member_of_text_eq {members others : List (Bytes × Bytes)} {rest rest' : Bytes}
    (same : (str ",").intercalate ((sortMembers members).map stringMember) ++ (str "\x7d" ++ rest) =
      (str ",").intercalate ((sortMembers others).map stringMember) ++ (str "\x7d" ++ rest')) :
    rest = rest' ∧ ∀ entry ∈ members, ∃ other ∈ others,
      jsString entry.1 = jsString other.1 ∧ jsString entry.2 = jsString other.2 := by
  have quote : ∀ text : Bytes, (∃ entry, text = stringMember entry) →
      ∃ c rest, text = c :: rest ∧ c ≠ 0x7D := by
    rintro _ ⟨entry, rfl⟩
    exact ⟨quoteByte, _, rfl, by decide⟩
  have all : ∀ list : List (Bytes × Bytes), ∀ text ∈ list.map stringMember,
      ∃ entry, text = stringMember entry := by
    intro _ _ inside
    obtain ⟨entry, -, rfl⟩ := mem_map.mp inside
    exact ⟨entry, rfl⟩
  obtain ⟨items, ended⟩ := eq_of_intercalate_eq delimited_stringMember (by decide) quote
    (all _) (all _) same
  refine ⟨ended, fun entry inside => ?_⟩
  have listed : stringMember entry ∈ (sortMembers others).map stringMember := by
    rw [← items]
    exact mem_map_of_mem ((perm_sortMembers members).mem_iff.mpr inside)
  obtain ⟨other, inOthers, equal⟩ := mem_map.mp listed
  exact ⟨other, (perm_sortMembers others).mem_iff.mp inOthers,
    jsString_eq_of_stringMember_eq equal.symm⟩

end

end TheAuth.Audit
