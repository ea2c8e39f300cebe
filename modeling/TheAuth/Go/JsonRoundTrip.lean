import TheAuth.Go.JsonText

/-!
# What is read back

A tree with well-formed strings and number literals is read back from its text, and every tree that
is read has such strings and literals. The answer of the reader does not depend on where its count
starts.
-/

set_option autoImplicit false

namespace TheAuth.Go

open List Option

/-- No number goes on with what follows. -/
def Stops (rest : Bytes) : Prop := ∀ c ∈ rest.head?, ∀ state : NumState, state.step c = none

theorem stops_nil : Stops [] := nofun

variable {c : UInt8} {rest : Bytes} {n length m : ℕ} {v : Json Bytes}

theorem stops_cons (rest : Bytes) (delimiter : c = 0x2C ∨ c = 0x5D ∨ c = 0x7D) :
    Stops (c :: rest) := by
  intro _ here state
  cases here
  rcases delimiter with rfl | rfl | rfl <;> cases state <;> rfl

variable {left literal s : Bytes} {r : ℕ} {state : NumState} {entries : List (Json Bytes)}
  {value : Json Bytes}

theorem scanNumber_append
    (number : scanNumber state literal = some (literal, [])) (stops : Stops rest) :
    scanNumber state (literal ++ rest) = some (literal, rest) := by
  induction literal generalizing state with
  | nil =>
    rw [scanNumber] at number
    split at number
    next ends =>
      cases rest with
      | nil => rw [append_nil, scanNumber, if_pos ends]
      | cons c =>
        rw [nil_append, scanNumber, stops c rfl state]
        exact if_pos ends
    · cases number
  | cons c _ ih =>
    rw [scanNumber] at number
    rw [cons_append, scanNumber]
    cases stepped : state.step c with
    | none =>
      rw [stepped] at number
      dsimp only at number
      split at number <;> cases number
    | some =>
      rw [stepped] at number
      obtain ⟨⟨_, _⟩, scanned, same⟩ := map_eq_some_iff.mp number
      cases same
      dsimp only
      rw [ih scanned]
      rfl

theorem scanNumber_literal (scanned : scanNumber state s = some (literal, rest)) :
    scanNumber state literal = some (literal, []) ∧ s = literal ++ rest := by
  induction s generalizing state literal with
  | nil =>
    rw [scanNumber] at scanned
    split at scanned <;> cases scanned
    rename_i ends
    exact ⟨by rw [scanNumber, if_pos ends], rfl⟩
  | cons c s ih =>
    rw [scanNumber] at scanned
    cases stepped : state.step c with
    | none =>
      rw [stepped] at scanned
      dsimp only at scanned
      split at scanned <;> cases scanned
      rename_i ends
      exact ⟨by rw [scanNumber, if_pos ends], rfl⟩
    | some =>
      rw [stepped] at scanned
      obtain ⟨⟨_, _⟩, later, same⟩ := map_eq_some_iff.mp scanned
      cases same
      obtain ⟨number, rfl⟩ := ih later
      refine ⟨?_, rfl⟩
      rw [scanNumber, stepped]
      dsimp only
      rw [number]
      rfl

def startsNumber (c : UInt8) : Bool := c = 0x2D || isDigit c

theorem exists_of_isNumber (number : isNumber literal) :
    ∃ c rest, literal = c :: rest ∧ startsNumber c = true := by
  cases literal with
  | nil => cases number
  | cons c rest =>
    refine ⟨c, rest, rfl, ?_⟩
    rw [isNumber, scanNumber] at number
    by_contra other
    rw [startsNumber, Bool.or_eq_true, not_or, decide_eq_true_iff] at other
    have none_ : NumState.step .begin c = none := by
      have notZero : c ≠ 0x30 := by
        rintro rfl
        exact other.2 rfl
      rw [NumState.step, if_neg other.1, if_neg notZero, if_neg other.2]
    rw [none_] at number
    cases number

theorem hexDigitValue_jsonHex (digit : n < 16) : hexDigitValue (jsonHex n) = some n := by
  have all : ∀ n < 16, hexDigitValue (jsonHex n) = some n := by decide
  exact all n digit

/-! ## Strings -/

theorem readU4_hex {a b c d : ℕ} (ha : a < 16) (hb : b < 16) (hc : c < 16) (hd : d < 16)
    (rest : Bytes) :
    readU4 (jsonHex a :: jsonHex b :: jsonHex c :: jsonHex d :: rest) =
      some (((a * 16 + b) * 16 + c) * 16 + d, rest) := by
  rw [readU4, hexDigitValue_jsonHex ha, hexDigitValue_jsonHex hb, hexDigitValue_jsonHex hc,
    hexDigitValue_jsonHex hd]

theorem readContent_u4 {a b c d : ℕ} (ha : a < 16) (hb : b < 16) (hc : c < 16) (hd : d < 16)
    (value : ((a * 16 + b) * 16 + c) * 16 + d = r) (plain : ¬ (0xD800 ≤ r ∧ r < 0xE000))
    (count : ℕ) (rest : Bytes) :
    readContent (count + 1)
        (0x5C :: 0x75 :: jsonHex a :: jsonHex b :: jsonHex c :: jsonHex d :: rest) =
      (readContent count rest).map fun (text, left) => (encodeRune r ++ text, left) := by
  have escape : readEscape (0x75 :: jsonHex a :: jsonHex b :: jsonHex c :: jsonHex d :: rest) =
      some (r, rest) := by
    have read := readU4_hex ha hb hc hd rest
    rw [value] at read
    change ((readU4 _).map _) = _
    rw [read, map_some]
    dsimp only
    rw [if_neg plain]
  change (readEscape _).bind _ = _
  rw [escape]
  rfl

theorem readContent_encodeRune (scalar : Scalar r) (visible : 0x20 ≤ r)
    (noQuote : r ≠ 0x22) (noEscape : r ≠ 0x5C) (count : ℕ) (rest : Bytes) :
    readContent (count + 1) (encodeRune r ++ rest) =
      (readContent count rest).map fun (text, left) => (encodeRune r ++ text, left) := by
  have read := decodeRune_encodeRune scalar rest
  have left : (encodeRune r ++ rest).drop (encodeRune r).length = rest := drop_left
  have small : r < 0x200000 := by
    unfold Scalar at scalar
    omega
  cases encoded : encodeRune r with
  | nil => exact absurd encoded (encodeRune_ne_nil r)
  | cons c =>
    have number := mem_encodeRune small (encoded ▸ mem_cons_self : c ∈ encodeRune r)
    rw [encoded, cons_append] at read left
    have quote : c ≠ 0x22 := by
      rintro rfl
      simp only [UInt8.reduceToNat] at number
      omega
    have escape : c ≠ 0x5C := by
      rintro rfl
      simp only [UInt8.reduceToNat] at number
      omega
    have control : ¬ c < 0x20 := by
      change ¬ c.toNat < 0x20
      omega
    rw [cons_append, readContent, if_neg quote, if_neg escape, if_neg control, read]
    dsimp only
    rw [left, encoded]

theorem readContent_jsonRune (scalar : Scalar r) (count : ℕ) (rest : Bytes) :
    readContent (count + 1) (jsonRune (some r) ++ rest) =
      (readContent count rest).map fun (text, left) => (encodeRune r ++ text, left) := by
  unfold jsonRune
  dsimp only
  split
  next short =>
    unfold shortEscape at short
    split_ifs at short <;> cases short <;> subst_vars <;> rfl
  rename_i plain
  split
  next control =>
    simp only [Bool.or_eq_true, decide_eq_true_eq] at control
    change readContent (count + 1)
      (0x5C :: 0x75 :: jsonHex 0 :: jsonHex 0 :: jsonHex (r / 16) :: jsonHex (r % 16) :: rest) = _
    exact readContent_u4 (by decide) (by decide) (by omega) (by omega)
      (by omega) (by omega) count rest
  rename_i visible
  simp only [Bool.or_eq_true, decide_eq_true_eq] at visible
  split
  next separator =>
    simp only [Bool.or_eq_true, decide_eq_true_eq] at separator
    change readContent (count + 1)
      (0x5C :: 0x75 :: jsonHex 2 :: jsonHex 0 :: jsonHex 2 :: jsonHex (r % 16) :: rest) = _
    exact readContent_u4 (by decide) (by decide) (by decide) (by omega) (by omega) (by omega)
      count rest
  refine readContent_encodeRune scalar (by omega) ?_ ?_ count rest <;> rintro rfl <;> cases plain

theorem jsonRune_ne_nil (scalar : Scalar r) : jsonRune (some r) ≠ [] := by
  intro none_
  have read := readContent_jsonRune scalar 1 [0x22]
  rw [none_] at read
  have lengths := congrArg (Option.map fun found => found.1.length) read
  have positive := length_pos_of_ne_nil (encodeRune_ne_nil r)
  change some 0 = some (encodeRune r ++ []).length at lengths
  rw [append_nil, some.injEq] at lengths
  omega

theorem readString_runes {rs : List ℕ} (scalars : ∀ r ∈ rs, Scalar r) (rest : Bytes) :
    readString ((rs.map some).flatMap jsonRune ++ 0x22 :: rest) = some (encodeRunes rs, rest) := by
  have counted : ∀ count, rs.length < count →
      readContent count ((rs.map some).flatMap jsonRune ++ 0x22 :: rest) =
        some (encodeRunes rs, rest) := by
    induction rs with
    | nil =>
      intro count positive
      obtain ⟨_, rfl⟩ := Nat.exists_eq_add_of_lt positive
      rfl
    | cons _ _ ih =>
      rw [forall_mem_cons] at scalars
      intro count longer
      rw [length_cons] at longer
      obtain ⟨count, rfl⟩ : ∃ fewer, count = fewer + 1 := ⟨count - 1, by omega⟩
      rw [map_cons, flatMap_cons, append_assoc, readContent_jsonRune scalars.1,
        ih scalars.2 count (by omega)]
      rfl
  refine counted _ ?_
  have long : rs.length ≤ ((rs.map some).flatMap jsonRune).length := by
    clear counted
    induction rs with
    | nil => exact Nat.le_refl _
    | cons _ _ ih =>
      rw [forall_mem_cons] at scalars
      have positive := length_pos_of_ne_nil (jsonRune_ne_nil scalars.1)
      have later := ih scalars.2
      rw [map_cons, flatMap_cons, length_append, length_cons]
      omega
  rw [length_append]
  omega

theorem readString_jsonString (formed : WellFormed s) (rest : Bytes) :
    readString ((jsonString s ++ rest).tail) = some (s, rest) := by
  obtain ⟨rs, scalars, rfl⟩ := exists_encodeRunes formed
  have content : (jsonString (encodeRunes rs) ++ rest).tail =
      (rs.map some).flatMap jsonRune ++ 0x22 :: rest := by
    rw [jsonString, runes_encodeRunes scalars, append_assoc]
    rfl
  rw [content]
  exact readString_runes scalars rest

theorem jsonString_eq_cons (s : Bytes) : jsonString s = 0x22 :: (jsonString s).tail := by
  rfl

theorem readU4_length (read : readU4 s = some (r, left)) :
    left.length < s.length ∧ r < 0x10000 := by
  have small : ∀ {c : UInt8} {n : ℕ}, hexDigitValue c = some n → n < 16 := by
    intro c n value
    unfold hexDigitValue isDigit at value
    simp only [Bool.and_eq_true, decide_eq_true_iff, UInt8.le_iff_toNat_le,
      UInt8.reduceToNat] at value
    split_ifs at value <;> cases value <;> omega
  unfold readU4 at read
  split at read
  next =>
    split at read <;> cases read
    rename_i ha hb hc hd
    have ha := small ha
    have hb := small hb
    have hc := small hc
    have hd := small hd
    refine ⟨?_, by omega⟩
    simp only [length_cons]
    omega
  · cases read

theorem readSurrogate_spec (high : ℕ) (rest : Bytes) :
    (readSurrogate high rest).2.length ≤ rest.length ∧ Scalar (readSurrogate high rest).1 := by
  have fallback : rest.length ≤ rest.length ∧ Scalar replacement := ⟨Nat.le_refl _, by decide⟩
  unfold readSurrogate
  split
  · exact fallback
  rename_i read
  split
  next pair =>
    unfold decodePair at pair
    split at pair <;> cases pair
    constructor
    · unfold readLow at read
      split at read
      next =>
        split at read
        · have shorter := (readU4_length read).1
          simp only [length_cons]
          omega
        · cases read
      · cases read
    · exact .inr (by omega)
  · exact fallback

theorem readEscape_spec (read : readEscape s = some (r, left)) :
    left.length < s.length ∧ Scalar r := by
  cases s with
  | nil => cases read
  | cons c rest =>
    by_cases digits : c = 0x75
    · subst digits
      change (readU4 rest).map _ = _ at read
      obtain ⟨⟨value, after⟩, digits, same⟩ := map_eq_some_iff.mp read
      have shorter := readU4_length digits
      dsimp only at same
      rw [length_cons]
      split at same
      · have spec := readSurrogate_spec value after
        rw [same] at spec
        exact ⟨Nat.lt_succ_of_le (Nat.le_trans spec.1 (Nat.le_of_lt shorter.1)), spec.2⟩
      cases same
      refine ⟨by omega, ?_⟩
      unfold Scalar
      omega
    · rw [readEscape] at read
      split_ifs at read <;> cases read <;> exact ⟨Nat.lt_succ_self _, by decide⟩

theorem width_of_decodeRune {width : ℕ} (read : decodeRune s = some (r, width)) :
    Scalar r ∧ 0 < width ∧ width ≤ s.length := by
  obtain ⟨scalar, _, rfl⟩ := eq_of_decodeRune read
  rw [decodeRune_encodeRune scalar] at read
  cases read
  refine ⟨scalar, length_pos_of_ne_nil (encodeRune_ne_nil r), ?_⟩
  rw [length_append]
  omega

/-! ## What the readers consume -/

/-- What is read is good, and something of the text is consumed. -/
def Reads {α : Type} (good : α → Prop) (s : Bytes) (result : Option (α × Bytes)) : Prop :=
  ∀ value rest, result = some (value, rest) → rest.length < s.length ∧ good value

section

variable {α β : Type} {good : α → Prop} {good' : β → Prop} {s t left : Bytes} {v : α}
  {result : Option (α × Bytes)}

theorem Reads.none : Reads good s none := fun _ _ => nofun

theorem Reads.some (shorter : left.length < s.length) (fine : good v) :
    Reads good s (some (v, left)) := by
  intro _ _ same
  cases same
  exact ⟨shorter, fine⟩

theorem Reads.map {f : α × Bytes → β × Bytes} (reads : Reads good t result)
    (le : t.length ≤ s.length)
    (keeps : ∀ v left, good v → (f (v, left)).2 = left ∧ good' (f (v, left)).1) :
    Reads good' s (result.map f) := by
  intro _ _ read
  obtain ⟨⟨v, left⟩, here, same⟩ := map_eq_some_iff.mp read
  obtain ⟨shorter, fine⟩ := reads v left here
  obtain ⟨rfl, fine⟩ := same ▸ keeps v left fine
  exact ⟨Nat.lt_of_lt_of_le shorter le, fine⟩

theorem Reads.bind {next : α × Bytes → Option (β × Bytes)} (reads : Reads good t result)
    (later : ∀ v left, left.length < t.length → good v → Reads good' s (next (v, left))) :
    Reads good' s (result.bind next) := by
  intro value rest read
  obtain ⟨⟨v, left⟩, here, read⟩ := bind_eq_some_iff.mp read
  obtain ⟨shorter, fine⟩ := reads v left here
  exact later v left shorter fine value rest read

end

theorem reads_content (count : ℕ) (s : Bytes) :
    Reads (fun text => ∃ rs, (∀ r ∈ rs, Scalar r) ∧ text = encodeRunes rs) s
      (readContent count s) := by
  have grow : ∀ {r : ℕ} {text : Bytes}, Scalar r →
      (∃ rs, (∀ r ∈ rs, Scalar r) ∧ text = encodeRunes rs) →
        ∃ rs, (∀ r ∈ rs, Scalar r) ∧ encodeRune r ++ text = encodeRunes rs := by
    rintro r _ scalar ⟨rs, scalars, rfl⟩
    exact ⟨r :: rs, forall_mem_cons.mpr ⟨scalar, scalars⟩, rfl⟩
  induction count generalizing s with
  | zero => exact .none
  | succ _ ih =>
    cases s with
    | nil => exact .none
    | cons c rest =>
      have shorter : rest.length < (c :: rest).length := Nat.lt_succ_self _
      rw [readContent]
      split
      · exact .some shorter ⟨[], nofun, rfl⟩
      split
      · refine Reads.bind (t := rest) (fun _ _ read => readEscape_spec read) ?_
        intro _ left _ scalar
        exact (ih left).map (by omega) fun _ _ formed => ⟨rfl, grow scalar formed⟩
      split
      · exact .none
      split
      next decoded =>
        obtain ⟨scalar, _, _⟩ := width_of_decodeRune decoded
        exact (ih _).map (by simp) fun _ _ formed => ⟨rfl, grow scalar formed⟩
      exact (ih rest).map (by omega) fun _ _ formed => ⟨rfl, grow (by decide) formed⟩

theorem reads_string (s : Bytes) : Reads WellFormed s (readString s) := by
  intro text left read
  obtain ⟨shorter, _, scalars, rfl⟩ := reads_content _ s text left read
  exact ⟨shorter, wellFormed_encodeRunes scalars⟩

mutual

/-- The writer makes a JSON text of the value. -/
def Json.Writable : Json Bytes → Prop
  | .null => True
  | .bool _ => True
  | .num literal => isNumber literal
  | .str s => WellFormed s
  | .arr entries => EntriesWritable entries
  | .obj members => MembersWritable members

def EntriesWritable : List (Json Bytes) → Prop
  | [] => True
  | entry :: rest => entry.Writable ∧ EntriesWritable rest

def MembersWritable : List (Bytes × Json Bytes) → Prop
  | [] => True
  | (name, value) :: rest => WellFormed name ∧ value.Writable ∧ MembersWritable rest

end

theorem entriesWritable_iff :
    EntriesWritable entries ↔ ∀ entry ∈ entries, entry.Writable := by
  induction entries with
  | nil => exact ⟨fun _ => nofun, fun _ => trivial⟩
  | cons _ _ ih =>
    rw [forall_mem_cons, ← ih]
    exact Iff.rfl

variable {members : List (Bytes × Json Bytes)}

theorem membersWritable_iff :
    MembersWritable members ↔ ∀ member ∈ members, WellFormed member.1 ∧ member.2.Writable := by
  induction members with
  | nil => exact ⟨fun _ => nofun, fun _ => trivial⟩
  | cons _ _ ih =>
    rw [forall_mem_cons, ← ih, and_assoc]
    exact Iff.rfl

theorem length_skipSpace (s : Bytes) : (skipSpace s).length ≤ s.length :=
  (dropWhile_sublist _).length_le

variable {s : Bytes} {count : ℕ}

theorem length_of_skipSpace (skipped : skipSpace s = c :: rest) : rest.length < s.length := by
  have shorter := length_skipSpace s
  rw [skipped, length_cons] at shorter
  omega

theorem skipSpace_cons (visible : isSpace c = false) (s : Bytes) : skipSpace (c :: s) = c :: s :=
  dropWhile_cons_of_neg (by simp [visible])

variable {name : Bytes}

theorem reads_name {good : Json Bytes → Prop} (long : 0 < name.length)
    (fine : good value) (s : Bytes) : Reads good s (readName name value s) := by
  unfold readName
  split
  next isPrefix =>
    have front := isPrefixOf_iff_prefix.mp isPrefix
    have shorter := front.length_le
    refine .some ?_ fine
    rw [length_drop]
    omega
  · exact .none

theorem reads_number (s : Bytes) : Reads isNumber s (scanNumber .begin s) := by
  intro _ _ scanned
  obtain ⟨number, rfl⟩ := scanNumber_literal scanned
  obtain ⟨_, _, rfl, -⟩ := exists_of_isNumber number
  refine ⟨?_, number⟩
  simp only [length_append, length_cons]
  omega

theorem reads_value (entries : ∀ s, Reads EntriesWritable s (readEntries count s))
    (members : ∀ s, Reads MembersWritable s (readMembers count s)) (s : Bytes) :
    Reads Json.Writable s (readValue (count + 1) s) := by
  rw [readValue]
  split
  · exact .none
  rename_i c rest skipped
  have shorter := length_of_skipSpace skipped
  split
  · split
    · exact .none
    rename_i inner
    have shorter' := length_of_skipSpace inner
    split
    · exact .some (by omega) trivial
    · exact (members _).map (by rw [length_cons]; omega) fun _ _ good => ⟨rfl, good⟩
  split
  · split
    · exact .none
    rename_i inner
    have shorter' := length_of_skipSpace inner
    split
    · exact .some (by omega) trivial
    · exact (entries _).map (by rw [length_cons]; omega) fun _ _ good => ⟨rfl, good⟩
  split
  · exact (reads_string rest).map (by omega) fun _ _ good => ⟨rfl, good⟩
  have whole := skipped ▸ length_skipSpace s
  have named : ∀ {name v}, 0 < name.length → v.Writable →
      Reads Json.Writable s (readName name v (c :: rest)) := fun long fine value left read =>
    (reads_name long fine _ value left read).imp_left (Nat.lt_of_lt_of_le · whole)
  split_ifs
  any_goals exact named (by decide) trivial
  exact (reads_number _).map whole fun _ _ good => ⟨rfl, good⟩

theorem reads_entries (value : ∀ s, Reads Json.Writable s (readValue count s))
    (entries : ∀ s, Reads EntriesWritable s (readEntries count s)) (s : Bytes) :
    Reads EntriesWritable s (readEntries (count + 1) s) := by
  refine (value s).bind fun first rest shorter good => ?_
  dsimp only
  split
  · exact .none
  rename_i more skipped
  have shorter' := length_of_skipSpace skipped
  split
  · exact (entries more).map (by omega) fun _ _ goods => ⟨rfl, good, goods⟩
  split
  · exact .some (by omega) ⟨good, trivial⟩
  · exact .none

theorem reads_members (value : ∀ s, Reads Json.Writable s (readValue count s))
    (members : ∀ s, Reads MembersWritable s (readMembers count s)) (s : Bytes) :
    Reads MembersWritable s (readMembers (count + 1) s) := by
  rw [readMembers]
  split
  · exact .none
  rename_i rest skipped
  have shorter := length_of_skipSpace skipped
  split
  · refine (reads_string rest).bind fun name rest shorter' formed => ?_
    dsimp only
    split
    · exact .none
    rename_i tail colon
    have shorter'' := length_of_skipSpace colon
    split
    · refine (value tail).bind fun first rest less good => ?_
      dsimp only
      split
      · exact .none
      rename_i more next
      have less' := length_of_skipSpace next
      split
      · exact (members more).map (by omega) fun _ _ goods => ⟨rfl, formed, good, goods⟩
      split
      · exact .some (by omega) ⟨formed, good, trivial⟩
      · exact .none
    · exact .none
  · exact .none

theorem reads_all (count : ℕ) :
    (∀ s, Reads Json.Writable s (readValue count s)) ∧
      (∀ s, Reads EntriesWritable s (readEntries count s)) ∧
        ∀ s, Reads MembersWritable s (readMembers count s) := by
  induction count with
  | zero => exact ⟨fun _ => .none, fun _ => .none, fun _ => .none⟩
  | succ _ ih =>
    obtain ⟨value, entries, members⟩ := ih
    exact ⟨reads_value entries members, reads_entries value entries, reads_members value members⟩

theorem writable_of_readJson (read : readJson s = some (v, rest)) : v.Writable :=
  ((reads_all _).1 s v rest read).2

/-! ## Fuel -/

/-- More fuel than the length needs changes nothing. -/
structure Steady (n : ℕ) : Prop where
  value : ∀ s : Bytes, 2 * s.length + 1 ≤ n → readValue (n + 1) s = readValue n s
  entries : ∀ s : Bytes, 2 * s.length + 2 ≤ n → readEntries (n + 1) s = readEntries n s
  members : ∀ s : Bytes, 2 * s.length + 2 ≤ n → readMembers (n + 1) s = readMembers n s

section

variable (steady : Steady n)
include steady

theorem Steady.succ_value (s : Bytes) (enough : 2 * s.length ≤ n) :
    readValue (n + 2) s = readValue (n + 1) s := by
  rw [readValue, readValue]
  cases skipped : skipSpace s with
  | nil => rfl
  | cons _ rest =>
    have less := length_of_skipSpace skipped
    dsimp only
    cases inner : skipSpace rest with
    | nil => rfl
    | cons d more =>
      have within : (d :: more).length ≤ rest.length := inner ▸ length_skipSpace rest
      dsimp only
      rw [steady.members _ (by omega), steady.entries _ (by omega)]

theorem Steady.succ_entries (s : Bytes) (enough : 2 * s.length + 1 ≤ n) :
    readEntries (n + 2) s = readEntries (n + 1) s := by
  rw [readEntries, readEntries, steady.value s enough]
  cases first : readValue n s with
  | none => rfl
  | some found =>
    obtain ⟨v, rest⟩ := found
    have less := ((reads_all n).1 s v rest first).1
    rw [bind_some, bind_some]
    dsimp only
    cases skipped : skipSpace rest with
    | nil => rfl
    | cons _ more =>
      have less' := length_of_skipSpace skipped
      dsimp only
      rw [steady.entries more (by omega)]

theorem Steady.succ_members (s : Bytes) (enough : 2 * s.length + 1 ≤ n) :
    readMembers (n + 2) s = readMembers (n + 1) s := by
  rw [readMembers, readMembers]
  cases skipped : skipSpace s with
  | nil => rfl
  | cons _ rest =>
    have less := length_of_skipSpace skipped
    dsimp only
    cases named : readString rest with
    | none => rfl
    | some found =>
      obtain ⟨name, rest'⟩ := found
      have less' := (reads_string rest name rest' named).1
      rw [bind_some, bind_some]
      cases colon : skipSpace rest' with
      | nil => rfl
      | cons _ tail =>
        have less'' := length_of_skipSpace colon
        dsimp only
        rw [steady.value tail (by omega)]
        cases first : readValue n tail with
        | none => rfl
        | some found =>
          obtain ⟨v, rest''⟩ := found
          have fewer := ((reads_all n).1 tail v rest'' first).1
          rw [bind_some, bind_some]
          cases next : skipSpace rest'' with
          | nil => rfl
          | cons _ more =>
            have fewer' := length_of_skipSpace next
            dsimp only
            rw [steady.members more (by omega)]

end

theorem steady (n : ℕ) : Steady n := by
  induction n with
  | zero => exact ⟨fun _ => nofun, fun _ => nofun, fun _ => nofun⟩
  | succ _ ih =>
    exact ⟨fun s enough => ih.succ_value s (by omega), fun s enough => ih.succ_entries s (by omega),
      fun s enough => ih.succ_members s (by omega)⟩

theorem readValue_stable (enough : 2 * s.length + 1 ≤ count) : readValue count s = readJson s := by
  induction enough with
  | refl => rfl
  | step enough ih => rw [(steady _).value s enough, ih]

theorem startsNumber_spec (starts : startsNumber c = true) :
    isSpace c = false ∧ c ≠ 0x5D ∧
      c ≠ 0x7B ∧ c ≠ 0x5B ∧ c ≠ 0x22 ∧ c ≠ 0x74 ∧ c ≠ 0x66 ∧ c ≠ 0x6E := by
  have number : c.toNat = 0x2D ∨ 0x30 ≤ c.toNat ∧ c.toNat ≤ 0x39 := by
    simpa [startsNumber, isDigit, UInt8.le_iff_toNat_le, ← UInt8.toNat_inj] using starts
  simp only [isSpace, Bool.or_eq_false_iff, decide_eq_false_iff_not, ← UInt8.toNat_inj, ne_eq,
    UInt8.reduceToNat]
  omega

theorem exists_write_eq_cons (writable : v.Writable) :
    ∃ c tail, v.write = c :: tail ∧ isSpace c = false ∧ c ≠ 0x5D := by
  cases v with
  | null => exact ⟨_, _, rfl, rfl, by decide⟩
  | bool b => cases b <;> exact ⟨_, _, rfl, rfl, by decide⟩
  | num =>
    obtain ⟨c, tail, rfl, starts⟩ := exists_of_isNumber writable
    obtain ⟨visible, bracket, -⟩ := startsNumber_spec starts
    exact ⟨c, tail, rfl, visible, bracket⟩
  | str s => exact ⟨0x22, _, jsonString_eq_cons s, rfl, by decide⟩
  | arr => exact ⟨0x5B, _, rfl, rfl, by decide⟩
  | obj => exact ⟨0x7B, _, rfl, rfl, by decide⟩

/-! ## Reading back -/

/-- The reader reads the value back from its text, whatever of a kind follows. -/
def ReadsBack {α : Type} (read : ℕ → Bytes → Option (α × Bytes)) (text : Bytes) (value : α)
    (follows : Bytes → Prop) : Prop :=
  ∃ least, ∀ count, least ≤ count → ∀ rest, follows rest →
    read count (text ++ rest) = some (value, rest)

theorem ReadsBack.of_succ {α : Type} {read : ℕ → Bytes → Option (α × Bytes)} {text : Bytes}
    {value : α} {follows : Bytes → Prop} (least : ℕ)
    (reads : ∀ count, least ≤ count → ∀ rest, follows rest →
      read (count + 1) (text ++ rest) = some (value, rest)) :
    ReadsBack read text value follows := by
  refine ⟨least + 1, fun count enough => ?_⟩
  obtain ⟨fewer, rfl⟩ := Nat.exists_eq_add_of_le' enough
  exact reads (fewer + least) (Nat.le_add_left _ _)

def entriesText (entries : List (Json Bytes)) : Bytes :=
  (str ",").intercalate (writeEntries entries) ++ [0x5D]

def membersText (members : List (Bytes × Json Bytes)) : Bytes :=
  (str ",").intercalate ((writeMembers members).map fun entry =>
    jsonString entry.1 ++ str ":" ++ entry.2) ++ [0x7D]

theorem readsBack_num {literal : Bytes} (number : isNumber literal) :
    ReadsBack readValue (Json.num literal).write (.num literal) Stops := by
  refine .of_succ 0 fun count enough rest stops => ?_
  obtain ⟨_, _, shape, starts⟩ := exists_of_isNumber number
  obtain ⟨visible, -, brace, bracket, quote, t, f, n⟩ := startsNumber_spec starts
  have scanned := scanNumber_append number stops
  rw [Json.write, readValue]
  rw [shape, cons_append] at scanned ⊢
  rw [skipSpace_cons visible]
  dsimp only
  rw [if_neg brace, if_neg bracket, if_neg quote, if_neg t, if_neg f, if_neg n, scanned]
  rfl

theorem readsBack_str (formed : WellFormed s) :
    ReadsBack readValue (Json.str s).write (.str s) Stops := by
  refine .of_succ 0 fun count enough rest _ => ?_
  have read := readString_jsonString formed rest
  rw [Json.write]
  rw [jsonString_eq_cons s, cons_append, tail_cons] at read
  rw [jsonString_eq_cons s, cons_append]
  change (readString _).map _ = _
  rw [read]
  rfl

theorem readsBack_arr (writable : EntriesWritable entries)
    (listed : entries ≠ [] → ReadsBack readEntries (entriesText entries) entries fun _ => True) :
    ReadsBack readValue (Json.arr entries).write (.arr entries) Stops := by
  cases entries with
  | nil =>
    refine .of_succ 0 fun count enough rest _ => ?_
    rfl
  | cons entry others =>
    obtain ⟨least, reads⟩ := listed (cons_ne_nil _ _)
    refine .of_succ least fun count enough rest _ => ?_
    have inner := reads count enough rest trivial
    have text : (Json.arr (entry :: others)).write ++ rest =
        0x5B :: (entriesText (entry :: others) ++ rest) := by
      rfl
    obtain ⟨c, _, shape, visible, bracket⟩ := exists_write_eq_cons writable.1
    have starts : ∃ more, entriesText (entry :: others) ++ rest = c :: more := by
      rw [entriesText, writeEntries, shape]
      cases writeEntries others with
      | nil => exact ⟨_, rfl⟩
      | cons => exact ⟨_, by rw [intercalate_cons_cons]; rfl⟩
    obtain ⟨_, starts⟩ := starts
    rw [text, readValue, skipSpace_cons rfl]
    rw [starts] at inner ⊢
    dsimp only
    rw [skipSpace_cons visible]
    dsimp only
    rw [if_neg bracket, inner]
    rfl

theorem readsBack_entries {entry : Json Bytes} {others : List (Json Bytes)}
    (first : ReadsBack readValue entry.write entry Stops)
    (later : others ≠ [] → ReadsBack readEntries (entriesText others) others fun _ => True) :
    ReadsBack readEntries (entriesText (entry :: others)) (entry :: others) fun _ => True := by
  obtain ⟨least, reads⟩ := first
  cases others with
  | nil =>
    refine .of_succ least fun count enough rest _ => ?_
    have inner := reads count enough (0x5D :: rest) (stops_cons rest (.inr (.inl rfl)))
    rw [entriesText, writeEntries, writeEntries, intercalate_singleton, append_assoc, readEntries]
    change (readValue count (entry.write ++ 0x5D :: rest)).bind _ = _
    rw [inner]
    rfl
  | cons second rest' =>
    obtain ⟨least', reads'⟩ := later (cons_ne_nil _ _)
    refine .of_succ (max least least') fun count enough rest _ => ?_
    have inner := reads count (by omega) (0x2C :: (entriesText (second :: rest') ++ rest))
      (stops_cons _ (.inl rfl))
    have text : entriesText (entry :: second :: rest') ++ rest =
        entry.write ++ 0x2C :: (entriesText (second :: rest') ++ rest) := by
      rw [entriesText, writeEntries, writeEntries, intercalate_cons_cons, entriesText]
      simp only [append_assoc]
      rfl
    rw [text, readEntries, inner]
    change (readEntries count (entriesText (second :: rest') ++ rest)).map _ = _
    rw [reads' count (by omega) rest trivial]
    rfl

theorem readsBack_obj
    (listed : members ≠ [] → ReadsBack readMembers (membersText members) members fun _ => True) :
    ReadsBack readValue (Json.obj members).write (.obj members) Stops := by
  cases members with
  | nil =>
    refine .of_succ 0 fun count enough rest _ => ?_
    rfl
  | cons member others =>
    obtain ⟨least, reads⟩ := listed (cons_ne_nil _ _)
    refine .of_succ least fun count enough rest _ => ?_
    have inner := reads count enough rest trivial
    have text : (Json.obj (member :: others)).write ++ rest =
        0x7B :: (membersText (member :: others) ++ rest) := by
      rfl
    have starts : ∃ more, membersText (member :: others) ++ rest = 0x22 :: more := by
      rw [membersText, writeMembers, map_cons]
      cases (writeMembers others).map fun entry => jsonString entry.1 ++ str ":" ++ entry.2 with
      | nil => exact ⟨_, rfl⟩
      | cons => exact ⟨_, by rw [intercalate_cons_cons]; rfl⟩
    obtain ⟨more, starts⟩ := starts
    rw [text]
    rw [starts] at inner ⊢
    change (readMembers count (0x22 :: more)).map _ = _
    rw [inner]
    rfl

theorem readMembers_jsonString (formed : WellFormed name) (count : ℕ) (text : Bytes) :
    readMembers (count + 1) (jsonString name ++ (0x3A :: text)) =
      (readValue count text).bind fun (value, rest) =>
        match skipSpace rest with
        | [] => none
        | c :: more =>
          if c = 0x2C then
            (readMembers count more).map fun (members, left) => ((name, value) :: members, left)
          else if c = 0x7D then some ([(name, value)], more)
          else none := by
  have read := readString_jsonString formed (0x3A :: text)
  rw [jsonString_eq_cons, cons_append, tail_cons] at read
  rw [jsonString_eq_cons, cons_append]
  change (readString _).bind _ = _
  rw [read]
  rfl

theorem readsBack_members {others : List (Bytes × Json Bytes)} (formed : WellFormed name)
    (first : ReadsBack readValue value.write value Stops)
    (later : others ≠ [] → ReadsBack readMembers (membersText others) others fun _ => True) :
    ReadsBack readMembers (membersText ((name, value) :: others)) ((name, value) :: others)
      fun _ => True := by
  obtain ⟨least, reads⟩ := first
  cases others with
  | nil =>
    refine .of_succ least fun count enough rest _ => ?_
    have text : membersText [(name, value)] ++ rest =
        jsonString name ++ (0x3A :: (value.write ++ 0x7D :: rest)) := by
      rw [membersText, writeMembers, writeMembers, map_cons, map_nil, intercalate_singleton]
      simp only [append_assoc]
      rfl
    rw [text, readMembers_jsonString formed,
      reads count enough _ (stops_cons rest (.inr (.inr rfl)))]
    rfl
  | cons second rest' =>
    obtain ⟨least', reads'⟩ := later (cons_ne_nil _ _)
    refine .of_succ (max least least') fun count enough rest _ => ?_
    obtain ⟨name', value'⟩ := second
    have text : membersText ((name, value) :: (name', value') :: rest') ++ rest =
        jsonString name ++ (0x3A :: (value.write ++
          0x2C :: (membersText ((name', value') :: rest') ++ rest))) := by
      rw [membersText, writeMembers, writeMembers, map_cons, map_cons,
        intercalate_cons_cons, membersText, writeMembers, map_cons]
      simp only [append_assoc]
      rfl
    rw [text, readMembers_jsonString formed, reads count (by omega) _ (stops_cons _ (.inl rfl))]
    change (readMembers count (membersText ((name', value') :: rest') ++ rest)).map _ = _
    rw [reads' count (by omega) rest trivial]
    rfl

mutual

theorem readsBack_value : ∀ v : Json Bytes, v.Writable → ReadsBack readValue v.write v Stops
  | .null, _ => ReadsBack.of_succ 0 fun _ _ _ _ => rfl
  | .bool true, _ => ReadsBack.of_succ 0 fun _ _ _ _ => rfl
  | .bool false, _ => ReadsBack.of_succ 0 fun _ _ _ _ => rfl
  | .num _, number => readsBack_num number
  | .str _, formed => readsBack_str formed
  | .arr entries, writable => readsBack_arr writable fun some_ =>
    readsBack_list entries writable some_
  | .obj members, writable => readsBack_obj fun some_ => readsBack_pairs members writable some_

theorem readsBack_list : ∀ entries : List (Json Bytes), EntriesWritable entries → entries ≠ [] →
    ReadsBack readEntries (entriesText entries) entries fun _ => True
  | [], _, some_ => absurd rfl some_
  | entry :: others, writable, _ =>
    readsBack_entries (readsBack_value entry writable.1) fun some_ =>
      readsBack_list others writable.2 some_

theorem readsBack_pairs : ∀ members : List (Bytes × Json Bytes), MembersWritable members →
    members ≠ [] → ReadsBack readMembers (membersText members) members fun _ => True
  | [], _, some_ => absurd rfl some_
  | (_, value) :: others, writable, _ =>
    readsBack_members writable.1 (readsBack_value value writable.2.1) fun some_ =>
      readsBack_pairs others writable.2.2 some_

end

/-- **What was written is read back.** -/
theorem readJson_write (writable : v.Writable) (stops : Stops rest) :
    readJson (v.write ++ rest) = some (v, rest) := by
  obtain ⟨least, reads⟩ := readsBack_value v writable
  rw [← readValue_stable (Nat.le_max_right least _)]
  exact reads _ (Nat.le_max_left _ _) rest stops

end TheAuth.Go
