import TheAuth.Go.Bytes

/-!
# Characters and JSON texts

How `unicode/utf8` reads the characters of a text of any bytes, and how `encoding/json` writes a
text. A byte that belongs to no character is written as the replacement character.
-/

set_option autoImplicit false

namespace TheAuth.Go

open List UInt8

def isTail (c : UInt8) : Bool := 0x80 ≤ c && c ≤ 0xBF

def isSecond (first c : UInt8) : Bool :=
  (if first = 0xE0 then 0xA0 else if first = 0xF0 then 0x90 else 0x80) ≤ c &&
    c ≤ (if first = 0xED then 0x9F else if first = 0xF4 then 0x8F else 0xBF)

def decodeRune : Bytes → Option (ℕ × ℕ)
  | [] => none
  | a :: rest =>
    if a < 0x80 then some (a.toNat, 1)
    else if a < 0xC2 || 0xF5 ≤ a then none
    else if a < 0xE0 then
      match rest with
      | b :: _ => if isTail b then some (a.toNat % 0x20 * 0x40 + b.toNat % 0x40, 2) else none
      | _ => none
    else if a < 0xF0 then
      match rest with
      | b :: c :: _ =>
        if isSecond a b && isTail c then
          some ((a.toNat % 0x10 * 0x40 + b.toNat % 0x40) * 0x40 + c.toNat % 0x40, 3)
        else none
      | _ => none
    else match rest with
    | b :: c :: d :: _ =>
      if isSecond a b && isTail c && isTail d then
        some (((a.toNat % 8 * 0x40 + b.toNat % 0x40) * 0x40 + c.toNat % 0x40) * 0x40 +
          d.toNat % 0x40, 4)
      else none
    | _ => none

def runesFrom : ℕ → Bytes → List (Option ℕ)
  | _, [] => []
  | skip + 1, _ :: rest => runesFrom skip rest
  | 0, c :: rest =>
    match decodeRune (c :: rest) with
    | none => none :: runesFrom 0 rest
    | some (r, width) => some r :: runesFrom (width - 1) rest

def runes (s : Bytes) : List (Option ℕ) := runesFrom 0 s

def encodeRune (r : ℕ) : Bytes :=
  if r < 0x80 then [.ofNat r]
  else if r < 0x800 then [.ofNat (0xC0 + r / 0x40), .ofNat (0x80 + r % 0x40)]
  else if r < 0x10000 then
    [.ofNat (0xE0 + r / 0x1000), .ofNat (0x80 + r / 0x40 % 0x40), .ofNat (0x80 + r % 0x40)]
  else
    [.ofNat (0xF0 + r / 0x40000), .ofNat (0x80 + r / 0x1000 % 0x40),
      .ofNat (0x80 + r / 0x40 % 0x40), .ofNat (0x80 + r % 0x40)]

def jsonHex (n : ℕ) : UInt8 := if n < 10 then .ofNat (0x30 + n) else .ofNat (0x57 + n)

def hexEncode (b : Bytes) : Bytes :=
  b.flatMap fun c => [jsonHex (c.toNat / 16), jsonHex (c.toNat % 16)]

def shortEscape (r : ℕ) : Option Bytes :=
  if r = 0x22 then some (str "\\\"")
  else if r = 0x5C then some (str "\\\\")
  else if r = 0x08 then some (str "\\b")
  else if r = 0x0C then some (str "\\f")
  else if r = 0x0A then some (str "\\n")
  else if r = 0x0D then some (str "\\r")
  else if r = 0x09 then some (str "\\t")
  else none

def jsonRune : Option ℕ → Bytes
  | none => str "\\ufffd"
  | some r =>
    match shortEscape r with
    | some text => text
    | none =>
      if r < 0x20 || r = 0x3C || r = 0x3E || r = 0x26 then
        str "\\u00" ++ [jsonHex (r / 16), jsonHex (r % 16)]
      else if r = 0x2028 || r = 0x2029 then str "\\u202" ++ [jsonHex (r % 16)]
      else encodeRune r

def jsonString (s : Bytes) : Bytes := str "\"" ++ (runes s).flatMap jsonRune ++ str "\""

def jsonInt (n : Int) : Bytes := str (toString n)

def jsonArray (entries : List Bytes) : Bytes := str "[" ++ (str ",").intercalate entries ++ str "]"

def jsonObject (members : List (Bytes × Bytes)) : Bytes :=
  str "\x7b" ++ (str ",").intercalate
    (members.map fun entry => jsonString entry.1 ++ str ":" ++ entry.2) ++ str "\x7d"

example : jsonString (str "a<\n\"") = str "\"a\\u003c\\n\\\"\"" := by decide +kernel

example : runes [0xC3, 0xA9, 0xFF, 0xE2, 0x82, 0xAC] = [some 0xE9, none, some 0x20AC] := by
  decide +kernel

theorem decodeRune_lt {s : Bytes} {r width : ℕ} (read : decodeRune s = some (r, width)) :
    r < 0x200000 := by
  unfold decodeRune at read
  split at read
  · cases read
  rename_i a rest
  have small := a.toNat_lt
  split at read
  · cases read; omega
  split at read
  · cases read
  split at read
  · split at read
    · split at read <;> cases read; omega
    · cases read
  split at read
  · split at read
    · split at read <;> cases read; omega
    · cases read
  split at read
  · split at read <;> cases read; omega
  · cases read

theorem lt_of_mem_runes {s : Bytes} {r : ℕ} (inside : some r ∈ runes s) : r < 0x200000 := by
  have walked : ∀ (skip : ℕ) (s : Bytes), some r ∈ runesFrom skip s → r < 0x200000 := by
    intro skip s
    fun_induction runesFrom skip s with
    | case1 => exact nofun
    | case2 _ _ _ ih => exact ih
    | case3 _ _ _ ih =>
      intro member
      exact ih ((mem_cons.mp member).resolve_left nofun)
    | case4 _ _ _ _ read ih =>
      intro member
      rcases mem_cons.mp member with same | later
      · cases same
        exact decodeRune_lt read
      · exact ih later
  exact walked 0 s inside

theorem mem_encodeRune {r : ℕ} (small : r < 0x200000) {c : UInt8} (inside : c ∈ encodeRune r) :
    r < 0x80 ∧ c.toNat = r ∨ 0x80 ≤ r ∧ 0x80 ≤ c.toNat := by
  unfold encodeRune at inside
  split at inside
  next =>
    cases mem_singleton.mp inside
    rw [toNat_ofNat']
    omega
  split at inside
  · simp only [mem_cons, not_mem_nil, or_false] at inside
    rcases inside with rfl | rfl <;> rw [toNat_ofNat'] <;> omega
  split at inside
  · simp only [mem_cons, not_mem_nil, or_false] at inside
    rcases inside with rfl | rfl | rfl <;> rw [toNat_ofNat'] <;> omega
  simp only [mem_cons, not_mem_nil, or_false] at inside
  rcases inside with rfl | rfl | rfl | rfl <;> rw [toNat_ofNat'] <;> omega

theorem zero_notMem_shortEscape {r : ℕ} {text : Bytes} (short : shortEscape r = some text) :
    0 ∉ text := by
  unfold shortEscape at short
  split_ifs at short <;> cases short <;> decide

theorem jsonHex_ne_zero {n : ℕ} (digit : n < 16) : jsonHex n ≠ 0 := by
  unfold jsonHex
  intro zero
  have value := congrArg toNat zero
  split at value <;> rw [toNat_ofNat', UInt8.toNat_zero] at value <;> omega

theorem zero_notMem_jsonRune {r : Option ℕ} (small : ∀ code, r = some code → code < 0x200000) :
    0 ∉ jsonRune r := by
  cases r with
  | none => decide
  | some r =>
    have bound := small r rfl
    unfold jsonRune
    dsimp only
    split
    next short => exact zero_notMem_shortEscape short
    split
    next control =>
      have ascii : r < 0x80 := by
        simp only [Bool.or_eq_true, decide_eq_true_eq] at control
        omega
      intro inside
      simp only [mem_append, mem_cons, not_mem_nil, or_false] at inside
      obtain literal | high | low := inside
      · exact absurd literal (by decide)
      · exact jsonHex_ne_zero (by omega) high.symm
      · exact jsonHex_ne_zero (by omega) low.symm
    rename_i printable
    split
    · intro inside
      obtain literal | low := mem_append.mp inside
      · exact absurd literal (by decide)
      · exact jsonHex_ne_zero (by omega) (mem_singleton.mp low).symm
    intro inside
    have value := mem_encodeRune bound inside
    rw [UInt8.toNat_zero] at value
    simp only [Bool.or_eq_true, decide_eq_true_eq] at printable
    omega

theorem zero_notMem_jsonString (s : Bytes) : 0 ∉ jsonString s := by
  intro inside
  simp only [jsonString, mem_append] at inside
  obtain (quote | content) | quote := inside
  · exact absurd quote (by decide)
  · obtain ⟨_, read, zero⟩ := mem_flatMap.mp content
    exact zero_notMem_jsonRune (fun code same => lt_of_mem_runes (same ▸ read)) zero
  · exact absurd quote (by decide)

theorem zero_notMem_intercalate {entries : List Bytes} (clean : ∀ entry ∈ entries, 0 ∉ entry) :
    0 ∉ (str ",").intercalate entries := by
  induction entries with
  | nil => exact not_mem_nil
  | cons entry rest ih =>
    have later := ih fun other inside => clean other (mem_cons_of_mem _ inside)
    cases rest with
    | nil =>
      rw [intercalate_singleton]
      exact clean entry mem_cons_self
    | cons =>
      rw [intercalate_cons_cons]
      intro inside
      simp only [mem_append] at inside
      obtain (here | comma) | there := inside
      · exact clean entry mem_cons_self here
      · exact absurd comma (by decide)
      · exact later there

theorem zero_notMem_jsonArray {entries : List Bytes} (clean : ∀ entry ∈ entries, 0 ∉ entry) :
    0 ∉ jsonArray entries := by
  intro inside
  simp only [jsonArray, mem_append] at inside
  obtain (bracket | content) | bracket := inside
  · exact absurd bracket (by decide)
  · exact zero_notMem_intercalate clean content
  · exact absurd bracket (by decide)

theorem zero_notMem_jsonObject {members : List (Bytes × Bytes)}
    (clean : ∀ entry ∈ members, 0 ∉ entry.2) : 0 ∉ jsonObject members := by
  intro inside
  simp only [jsonObject, mem_append] at inside
  obtain (brace | content) | brace := inside
  · exact absurd brace (by decide)
  · refine zero_notMem_intercalate (fun text written => ?_) content
    obtain ⟨entry, member, rfl⟩ := mem_map.mp written
    intro zero
    simp only [mem_append] at zero
    obtain (name | between) | value := zero
    · exact zero_notMem_jsonString entry.1 name
    · exact absurd between (by decide)
    · exact clean entry member value
  · exact absurd brace (by decide)

end TheAuth.Go
