import Mathlib.Data.List.Infix
import TheAuth.Go.Bytes

/-!
# Texts

White space is read byte by byte: the bytes that start the encoding of a space never stand inside
that of another character, so this is how `strings.Fields` reads a text of any bytes.
-/

set_option autoImplicit false

namespace TheAuth.Go

open List

def spaceWidth : Bytes → ℕ
  | 0xC2 :: 0x85 :: _ => 2
  | 0xC2 :: 0xA0 :: _ => 2
  | 0xE1 :: 0x9A :: 0x80 :: _ => 3
  | 0xE2 :: 0x80 :: c :: _ =>
    if (0x80 ≤ c && c ≤ 0x8A) || c == 0xA8 || c == 0xA9 || c == 0xAF then 3 else 0
  | 0xE2 :: 0x81 :: 0x9F :: _ => 3
  | 0xE3 :: 0x80 :: 0x80 :: _ => 3
  | c :: _ => if (0x09 ≤ c && c ≤ 0x0D) || c == 0x20 then 1 else 0
  | [] => 0

def fieldsFrom : Bytes → ℕ → Bytes → List Bytes
  | word, _, [] => if word = [] then [] else [word]
  | word, skip + 1, _ :: rest => fieldsFrom word skip rest
  | word, 0, c :: rest =>
    match spaceWidth (c :: rest) with
    | 0 => fieldsFrom (word ++ [c]) 0 rest
    | width + 1 =>
      if word = [] then fieldsFrom [] width rest else word :: fieldsFrom [] width rest

variable (s : Bytes)

def fields : List Bytes := fieldsFrom [] 0 s

def joinSpace : List Bytes → Bytes
  | [] => []
  | [word] => word
  | word :: rest => word ++ 0x20 :: joinSpace rest

def trimPrefix (s start : Bytes) : Bytes := if start.isPrefixOf s then s.drop start.length else s

def trimRightSlash : Bytes := (s.reverse.dropWhile (· == 0x2f)).reverse

def containsText (s text : Bytes) : Bool := s.tails.any text.isPrefixOf

def lowerASCII : Bytes := s.map fun c => if 0x41 ≤ c ∧ c ≤ 0x5A then c + 0x20 else c

example : fields (str " read  write\t") = [str "read", str "write"] := by decide

theorem uncons_append_space {rest t tail : Bytes} {b : UInt8}
    (same : rest ++ 0x20 :: t = b :: tail) (other : b ≠ 0x20) :
    ∃ rest', rest = b :: rest' ∧ rest' ++ 0x20 :: t = tail := by
  cases rest with
  | nil =>
    cases same
    exact absurd rfl other
  | cons _ rest' =>
    cases same
    exact ⟨rest', rfl, rfl⟩

theorem spaceWidth_ascii (c : UInt8) (rest : Bytes)
    (ascii : (0x09 ≤ c && c ≤ 0x0D) || c == 0x20) : spaceWidth (c :: rest) = 1 := by
  have low : c.toNat ≤ 0x20 := by
    simp only [Bool.or_eq_true, Bool.and_eq_true, decide_eq_true_eq, beq_iff_eq] at ascii
    rcases ascii with ⟨_, high⟩ | rfl
    · exact Nat.le_trans (UInt8.le_iff_toNat_le.mp high) (by decide)
    · decide
  rw [spaceWidth.eq_def]
  split
  case h_7 same =>
    cases same
    exact if_pos ascii
  case h_8 same => cases same
  all_goals
    next same =>
      obtain ⟨rfl, _⟩ := cons.inj same
      exact absurd low (by decide)

theorem spaceWidth_append {s : Bytes} (t : Bytes) (space : spaceWidth s ≠ 0) :
    spaceWidth (s ++ t) = spaceWidth s := by
  fun_cases spaceWidth s with
  | case4 _ _ last => simp [spaceWidth, last]
  | case5 _ _ last => simp [spaceWidth, last] at space
  | case8 c rest _ _ _ _ _ _ ascii => exact spaceWidth_ascii c (rest ++ t) ascii
  | case9 _ _ _ _ _ _ _ _ other =>
    rw [spaceWidth] at space
    · exact absurd (if_neg other) space
    all_goals assumption
  | case10 => exact absurd rfl space
  | _ => simp [spaceWidth]

theorem spaceWidth_append_space {s : Bytes} (t : Bytes) (some_ : s ≠ []) :
    spaceWidth (s ++ 0x20 :: t) = spaceWidth s := by
  fun_cases spaceWidth s with
  | case4 _ _ last => simp [spaceWidth, last]
  | case5 _ _ last => simp [spaceWidth, last]
  | case8 c _ _ _ _ _ _ _ ascii => exact spaceWidth_ascii c _ ascii
  | case9 _ _ h1 h2 h3 h4 h5 h6 other =>
    rw [cons_append, spaceWidth.eq_def]
    split
    case h_7 same =>
      cases same
      exact if_neg other
    case h_8 same => cases same
    case h_1 same | h_2 same =>
      obtain ⟨rfl, second⟩ := cons.inj same
      obtain ⟨rest', rfl, _⟩ := uncons_append_space second (by decide)
      first | exact absurd rfl (h1 rest' rfl) | exact absurd rfl (h2 rest' rfl)
    case h_4 d tail same =>
      obtain ⟨rfl, second⟩ := cons.inj same
      obtain ⟨rest', rfl, third⟩ := uncons_append_space second (by decide)
      cases rest' with
      | nil =>
        obtain ⟨rfl, _⟩ := cons.inj third
        rfl
      | cons e rest'' => exact absurd rfl (h4 e rest'' rfl)
    case h_3 same | h_5 same | h_6 same =>
      obtain ⟨rfl, second⟩ := cons.inj same
      obtain ⟨_, rfl, third⟩ := uncons_append_space second (by decide)
      obtain ⟨rest', rfl, _⟩ := uncons_append_space third (by decide)
      first
      | exact absurd rfl (h3 rest' rfl)
      | exact absurd rfl (h5 rest' rfl)
      | exact absurd rfl (h6 rest' rfl)
  | case10 => exact absurd rfl some_
  | _ => simp [spaceWidth]

theorem spaceWidth_le (s : Bytes) : spaceWidth s ≤ s.length := by
  fun_cases spaceWidth s <;> simp

theorem fieldsFrom_append_space (word : Bytes) (skip : ℕ) (s rest : Bytes)
    (inside : skip ≤ s.length) :
    fieldsFrom word skip (s ++ 0x20 :: rest) = fieldsFrom word skip s ++ fields rest := by
  induction s generalizing word skip with
  | nil =>
    obtain rfl : skip = 0 := Nat.le_zero.mp inside
    have space : spaceWidth (0x20 :: rest) = 1 := spaceWidth_ascii 0x20 rest rfl
    by_cases empty : word = [] <;> simp [fieldsFrom, fields, space, empty]
  | cons c s ih =>
    cases skip with
    | succ skip => exact ih word skip (Nat.le_of_succ_le_succ inside)
    | zero =>
      have bound := spaceWidth_le (c :: s)
      have width : spaceWidth (c :: (s ++ 0x20 :: rest)) = spaceWidth (c :: s) :=
        spaceWidth_append_space rest (cons_ne_nil c s)
      rw [cons_append, fieldsFrom, width, fieldsFrom]
      cases here : spaceWidth (c :: s) with
      | zero => exact ih (word ++ [c]) 0 (Nat.zero_le _)
      | succ width =>
        rw [here] at bound
        have after := ih [] width (Nat.le_of_succ_le_succ bound)
        dsimp only
        split
        · exact after
        · rw [after, cons_append]

theorem fields_joinSpace (texts : List Bytes) : fields
    (joinSpace texts) = texts.flatMap fields := by
  induction texts with
  | nil => rfl
  | cons text rest ih =>
    cases rest with
    | nil => simp [joinSpace]
    | cons second rest =>
      have joined : joinSpace (text :: second :: rest) =
          text ++ 0x20 :: joinSpace (second :: rest) := rfl
      rw [joined, fields, fieldsFrom_append_space [] 0 _ _ (Nat.zero_le _), ih]
      rfl

/-- No blank begins in the text. -/
def Solid : Prop := ∀ ⦃t⦄, t <:+ s → t ≠ [] → spaceWidth t = 0

theorem fieldsFrom_of_solid {s : Bytes} (solid : Solid s) (word : Bytes) :
    fieldsFrom word 0 s = if word ++ s = [] then [] else [word ++ s] := by
  induction s generalizing word with
  | nil => simp [fieldsFrom]
  | cons c s ih =>
    have here : spaceWidth (c :: s) = 0 := solid suffix_rfl (cons_ne_nil c s)
    have later : Solid s := fun t inside some_ => solid (inside.trans (suffix_cons c s)) some_
    rw [fieldsFrom, here]
    rw [ih later, append_assoc, singleton_append]

theorem solid_of_mem_fieldsFrom {word : Bytes} {skip : ℕ} {s w : Bytes}
    (clear : skip ≠ 0 → word = [])
    (begun : ∀ ⦃t⦄, t <:+ word → t ≠ [] → skip = 0 → spaceWidth (t ++ s) = 0)
    (member : w ∈ fieldsFrom word skip s) : w ≠ [] ∧ Solid w := by
  fun_induction fieldsFrom word skip s with
  | case1 => cases member
  | case2 _ skip some_ =>
    obtain rfl := mem_singleton.mp member
    refine ⟨some_, fun t inside nonempty => ?_⟩
    have zero : skip = 0 := by
      by_contra other
      exact some_ (clear other)
    simpa using begun inside nonempty zero
  | case3 _ skip _ _ ih =>
    obtain rfl := clear (Nat.succ_ne_zero skip)
    refine ih (fun _ => rfl) (fun t inside some_ => ?_) member
    exact absurd (suffix_nil.mp inside) some_
  | case4 _ _ _ none_ ih =>
    refine ih (fun other => absurd rfl other) (fun t inside some_ _ => ?_) member
    rcases suffix_concat_iff.mp inside with empty | ⟨t', rfl, inside'⟩
    · exact absurd empty some_
    · rw [append_assoc]
      by_cases first : t' = []
      · rw [first]
        exact none_
      · exact begun inside' first rfl
  | case5 _ _ _ _ ih =>
    refine ih (fun _ => rfl) (fun t inside some_ => ?_) member
    exact absurd (suffix_nil.mp inside) some_
  | case6 _ _ _ _ _ some_ ih =>
    rcases mem_cons.mp member with rfl | later
    · refine ⟨some_, fun t inside nonempty => ?_⟩
      by_contra starts
      exact starts ((spaceWidth_append _ starts).symm.trans (begun inside nonempty rfl))
    · refine ih (fun _ => rfl) (fun t inside nonempty => ?_) later
      exact absurd (suffix_nil.mp inside) nonempty

theorem fields_of_mem_fields {s w : Bytes} (member : w ∈ fields s) : fields w = [w] := by
  obtain ⟨some_, solid⟩ := solid_of_mem_fieldsFrom (fun other => absurd rfl other)
    (fun t inside nonempty _ => absurd (suffix_nil.mp inside) nonempty) member
  rw [fields, fieldsFrom_of_solid solid, nil_append, if_neg some_]

def base64Digit (n : UInt8) : UInt8 :=
  if n < 26 then 0x41 + n
  else if n < 52 then 0x61 + (n - 26)
  else if n < 62 then 0x30 + (n - 52)
  else if n = 62 then 0x2D
  else 0x5F

def base64RawURL : Bytes → Bytes
  | [] => []
  | [a] => [a >>> 2, (a &&& 3) <<< 4].map base64Digit
  | [a, b] => [a >>> 2, (a &&& 3) <<< 4 ||| b >>> 4, (b &&& 15) <<< 2].map base64Digit
  | a :: b :: c :: rest =>
    [a >>> 2, (a &&& 3) <<< 4 ||| b >>> 4, (b &&& 15) <<< 2 ||| c >>> 6, c &&& 63].map
      base64Digit ++ base64RawURL rest

def upperHexDigit (n : UInt8) : UInt8 := if n < 10 then 0x30 + n else 0x37 + n

def unreserved (c : UInt8) : Bool :=
  (0x61 ≤ c && c ≤ 0x7A) || (0x41 ≤ c && c ≤ 0x5A) || (0x30 ≤ c && c ≤ 0x39) ||
    c == 0x2D || c == 0x5F || c == 0x2E || c == 0x7E

def queryEscape : Bytes :=
  s.flatMap fun c =>
    if unreserved c then [c]
    else if c == 0x20 then [0x2B]
    else [0x25, upperHexDigit (c >>> 4), upperHexDigit (c &&& 15)]

end TheAuth.Go
