import TheAuth.Go.Json

/-!
# Well-formed texts

A text is well formed when every byte belongs to a character. Such a text is the encoding of its
characters.
-/

set_option autoImplicit false

namespace TheAuth.Go

open UInt8 List

/-- A code point that is no surrogate. -/
def Scalar (r : ℕ) : Prop := r < 0xD800 ∨ 0xE000 ≤ r ∧ r < 0x110000

instance (r : ℕ) : Decidable (Scalar r) := inferInstanceAs (Decidable (_ ∨ _))

def encodeRunes (rs : List ℕ) : Bytes := rs.flatMap encodeRune

/-- The text is valid UTF-8. -/
def WellFormed (s : Bytes) : Prop := ∀ r ∈ runes s, r ≠ none

theorem toNat_ofNat {n : ℕ} (small : n < 256) : (ofNat n).toNat = n := by
  rw [toNat_ofNat']
  omega

variable {a b c : UInt8}

theorem isTail_iff : isTail c = true ↔ 0x80 ≤ c.toNat ∧ c.toNat ≤ 0xBF := by
  simp [isTail, le_iff_toNat_le]

theorem isSecond_iff {first : UInt8} : isSecond first c = true ↔
    (if first.toNat = 0xE0 then 0xA0 else if first.toNat = 0xF0 then 0x90 else 0x80) ≤ c.toNat ∧
      c.toNat ≤ if first.toNat = 0xED then 0x9F else if first.toNat = 0xF4 then 0x8F else 0xBF := by
  have number : ∀ other : UInt8, first = other ↔ first.toNat = other.toNat :=
    fun other => UInt8.toNat_inj.symm
  simp only [isSecond, Bool.and_eq_true, le_iff_toNat_le]
  refine and_congr ?_ ?_ <;> split_ifs <;> simp_all

variable (rest : Bytes)

theorem decodeRune_one (small : a.toNat < 0x80) :
    decodeRune (a :: rest) = some (a.toNat, 1) := by
  have ascii : a < 0x80 := lt_iff_toNat_lt.mpr small
  exact if_pos ascii

theorem leads (a : UInt8) (first : 0xC2 ≤ a.toNat ∧ a.toNat < 0xF5) :
    ¬ a < 0x80 ∧ ¬ (decide (a < 0xC2) || decide (0xF5 ≤ a)) = true := by
  simp only [lt_iff_toNat_lt, le_iff_toNat_le]
  simp
  omega

theorem decodeRune_two (first : 0xC2 ≤ a.toNat ∧ a.toNat < 0xE0) (tail : isTail b = true) :
    decodeRune (a :: b :: rest) = some (a.toNat % 0x20 * 0x40 + b.toNat % 0x40, 2) := by
  obtain ⟨notAscii, inRange⟩ := leads a ⟨first.1, by omega⟩
  have two : a < 0xE0 := lt_iff_toNat_lt.mpr first.2
  unfold decodeRune
  dsimp only
  rw [if_neg notAscii, if_neg inRange, if_pos two, if_pos tail]

theorem decodeRune_three (first : 0xE0 ≤ a.toNat ∧ a.toNat < 0xF0)
    (second : isSecond a b = true) (tail : isTail c = true) :
    decodeRune (a :: b :: c :: rest) =
      some ((a.toNat % 0x10 * 0x40 + b.toNat % 0x40) * 0x40 + c.toNat % 0x40, 3) := by
  obtain ⟨notAscii, inRange⟩ := leads a ⟨by omega, by omega⟩
  have notTwo : ¬ a < 0xE0 := fun less => by
    have := lt_iff_toNat_lt.mp less
    exact absurd this (Nat.not_lt.mpr first.1)
  have three : a < 0xF0 := lt_iff_toNat_lt.mpr first.2
  unfold decodeRune
  dsimp only
  rw [if_neg notAscii, if_neg inRange, if_neg notTwo, if_pos three, second, tail]
  rfl

theorem decodeRune_four {d : UInt8} (first : 0xF0 ≤ a.toNat ∧ a.toNat < 0xF5)
    (second : isSecond a b = true) (tail : isTail c = true) (tail' : isTail d = true) :
    decodeRune (a :: b :: c :: d :: rest) =
      some (((a.toNat % 8 * 0x40 + b.toNat % 0x40) * 0x40 + c.toNat % 0x40) * 0x40 +
        d.toNat % 0x40, 4) := by
  obtain ⟨notAscii, inRange⟩ := leads a ⟨by omega, first.2⟩
  have notLess : ∀ n : UInt8, n.toNat ≤ 0xF0 → ¬ a < n := fun n small less => by
    have := lt_iff_toNat_lt.mp less
    omega
  unfold decodeRune
  dsimp only
  rw [if_neg notAscii, if_neg inRange, if_neg (notLess 0xE0 (by decide)),
    if_neg (notLess 0xF0 (by decide)), second, tail, tail']
  rfl

theorem decodeRune_encodeRune {r : ℕ} (scalar : Scalar r) (rest : Bytes) :
    decodeRune (encodeRune r ++ rest) = some (r, (encodeRune r).length) := by
  unfold Scalar at scalar
  have tail : ∀ n, isTail (ofNat (0x80 + n % 0x40)) = true := by
    intro _
    rw [isTail_iff, toNat_ofNat (by omega)]
    omega
  unfold encodeRune
  split
  next =>
    have number : (ofNat r).toNat = r := toNat_ofNat (by omega)
    refine (decodeRune_one rest (by omega)).trans ?_
    rw [number]
    rfl
  split
  next =>
    have high : (ofNat (0xC0 + r / 0x40)).toNat = 0xC0 + r / 0x40 := toNat_ofNat (by omega)
    refine (decodeRune_two rest (by omega) (tail r)).trans ?_
    rw [high, toNat_ofNat (by omega)]
    refine congrArg some (Prod.ext ?_ rfl)
    omega
  split
  next =>
    have high : (ofNat (0xE0 + r / 0x1000)).toNat = 0xE0 + r / 0x1000 := toNat_ofNat (by omega)
    have middle : (ofNat (0x80 + r / 0x40 % 0x40)).toNat = 0x80 + r / 0x40 % 0x40 :=
      toNat_ofNat (by omega)
    refine (decodeRune_three rest (by omega) ?_ (tail r)).trans ?_
    · rw [isSecond_iff]
      split_ifs <;> omega
    · rw [high, middle, toNat_ofNat (by omega)]
      refine congrArg some (Prod.ext ?_ rfl)
      omega
  have high : (ofNat (0xF0 + r / 0x40000)).toNat = 0xF0 + r / 0x40000 := toNat_ofNat (by omega)
  have middle : (ofNat (0x80 + r / 0x1000 % 0x40)).toNat = 0x80 + r / 0x1000 % 0x40 :=
    toNat_ofNat (by omega)
  refine (decodeRune_four rest (by omega) ?_ (tail (r / 0x40)) (tail r)).trans ?_
  · rw [isSecond_iff]
    split_ifs <;> omega
  · rw [high, middle, toNat_ofNat (by omega), toNat_ofNat (by omega)]
    refine congrArg some (Prod.ext ?_ rfl)
    omega

theorem ofNat_eq (c : UInt8) {n : ℕ} (same : c.toNat = n) : UInt8.ofNat n = c := by
  subst same
  exact UInt8.ofNat_toNat

theorem encodeRune_two (first : 0xC2 ≤ a.toNat ∧ a.toNat < 0xE0) (tail : isTail b = true) :
    Scalar (a.toNat % 0x20 * 0x40 + b.toNat % 0x40) ∧
      encodeRune (a.toNat % 0x20 * 0x40 + b.toNat % 0x40) = [a, b] := by
  have bounds := isTail_iff.mp tail
  refine ⟨.inl (by omega), ?_⟩
  rw [encodeRune, if_neg (by omega), if_pos (by omega),
    ofNat_eq a (by omega), ofNat_eq b (by omega)]

theorem encodeRune_three (first : 0xE0 ≤ a.toNat ∧ a.toNat < 0xF0)
    (second : isSecond a b = true) (tail : isTail c = true) :
    Scalar ((a.toNat % 0x10 * 0x40 + b.toNat % 0x40) * 0x40 + c.toNat % 0x40) ∧
      encodeRune ((a.toNat % 0x10 * 0x40 + b.toNat % 0x40) * 0x40 + c.toNat % 0x40) =
        [a, b, c] := by
  have bounds := isTail_iff.mp tail
  have between : (0x80 ≤ b.toNat ∧ b.toNat ≤ 0xBF) ∧ (a.toNat = 0xE0 → 0xA0 ≤ b.toNat) ∧
      (a.toNat = 0xED → b.toNat ≤ 0x9F) := by
    have range := isSecond_iff.mp second
    split_ifs at range <;> omega
  constructor
  · unfold Scalar
    omega
  · rw [encodeRune, if_neg (by omega), if_neg (by omega), if_pos (by omega), ofNat_eq a (by omega),
      ofNat_eq b (by omega), ofNat_eq c (by omega)]

theorem encodeRune_four {d : UInt8} (first : 0xF0 ≤ a.toNat ∧ a.toNat < 0xF5)
    (second : isSecond a b = true) (tail : isTail c = true) (tail' : isTail d = true) :
    Scalar (((a.toNat % 8 * 0x40 + b.toNat % 0x40) * 0x40 + c.toNat % 0x40) * 0x40 +
        d.toNat % 0x40) ∧
      encodeRune (((a.toNat % 8 * 0x40 + b.toNat % 0x40) * 0x40 + c.toNat % 0x40) * 0x40 +
        d.toNat % 0x40) = [a, b, c, d] := by
  have bounds := isTail_iff.mp tail
  have bounds' := isTail_iff.mp tail'
  have between : (0x80 ≤ b.toNat ∧ b.toNat ≤ 0xBF) ∧ (a.toNat = 0xF0 → 0x90 ≤ b.toNat) ∧
      (a.toNat = 0xF4 → b.toNat ≤ 0x8F) := by
    have range := isSecond_iff.mp second
    split_ifs at range <;> omega
  constructor
  · unfold Scalar
    omega
  · rw [encodeRune, if_neg (by omega), if_neg (by omega), if_neg (by omega), ofNat_eq a (by omega),
      ofNat_eq b (by omega), ofNat_eq c (by omega), ofNat_eq d (by omega)]

theorem eq_of_decodeRune {s : Bytes} {r width : ℕ} (read : decodeRune s = some (r, width)) :
    Scalar r ∧ ∃ rest, s = encodeRune r ++ rest := by
  unfold decodeRune at read
  split at read
  · cases read
  rename_i a rest
  split at read
  next ascii =>
    have small : a.toNat < 0x80 := lt_iff_toNat_lt.mp ascii
    cases read
    refine ⟨.inl (by omega), rest, ?_⟩
    rw [encodeRune, if_pos small, ofNat_eq a rfl]
    rfl
  split at read
  · cases read
  rename_i inRange
  simp only [Bool.or_eq_true, decide_eq_true_iff, not_or, lt_iff_toNat_lt,
    le_iff_toNat_le, reduceToNat] at inRange
  split at read
  next two =>
    have less : a.toNat < 0xE0 := lt_iff_toNat_lt.mp two
    split at read
    next tail =>
      obtain ⟨good, same⟩ := Option.ite_none_right_eq_some.mp read
      cases same
      obtain ⟨scalar, encoded⟩ := encodeRune_two ⟨by omega, less⟩ good
      exact ⟨scalar, tail, by rw [encoded]; rfl⟩
    · cases read
  rename_i notTwo
  have atLeast : ¬ a.toNat < 0xE0 := fun less => notTwo (lt_iff_toNat_lt.mpr less)
  split at read
  next three =>
    have less : a.toNat < 0xF0 := lt_iff_toNat_lt.mp three
    split at read
    next tail =>
      obtain ⟨good, same⟩ := Option.ite_none_right_eq_some.mp read
      rw [Bool.and_eq_true] at good
      cases same
      obtain ⟨scalar, encoded⟩ := encodeRune_three ⟨by omega, less⟩ good.1 good.2
      exact ⟨scalar, tail, by rw [encoded]; rfl⟩
    · cases read
  rename_i notThree
  have more : ¬ a.toNat < 0xF0 := fun less => notThree (lt_iff_toNat_lt.mpr less)
  split at read
  next tail =>
    obtain ⟨good, same⟩ := Option.ite_none_right_eq_some.mp read
    rw [Bool.and_eq_true, Bool.and_eq_true] at good
    cases same
    obtain ⟨scalar, encoded⟩ := encodeRune_four ⟨by omega, by omega⟩ good.1.1 good.1.2 good.2
    exact ⟨scalar, tail, by rw [encoded]; rfl⟩
  · cases read

theorem encodeRune_ne_nil (r : ℕ) : encodeRune r ≠ [] := by
  unfold encodeRune
  split_ifs <;> exact cons_ne_nil _ _

theorem runesFrom_append {skip : ℕ} {front : Bytes} (long : front.length = skip) (rest : Bytes) :
    runesFrom skip (front ++ rest) = runesFrom 0 rest := by
  induction front generalizing skip with
  | nil =>
    subst long
    rfl
  | cons _ _ ih =>
    subst long
    exact ih rfl

theorem runes_append {r : ℕ} (scalar : Scalar r) (rest : Bytes) :
    runes (encodeRune r ++ rest) = some r :: runes rest := by
  have read := decodeRune_encodeRune scalar rest
  cases encoded : encodeRune r with
  | nil => exact absurd encoded (encodeRune_ne_nil r)
  | cons =>
    rw [encoded] at read
    rw [cons_append] at read ⊢
    rw [runes, runesFrom, read]
    exact congrArg (some r :: ·) (runesFrom_append rfl rest)

theorem runes_encodeRunes {rs : List ℕ} (scalars : ∀ r ∈ rs, Scalar r) :
    runes (encodeRunes rs) = rs.map some := by
  induction rs with
  | nil => rfl
  | cons _ _ ih =>
    rw [forall_mem_cons] at scalars
    rw [encodeRunes, flatMap_cons, runes_append scalars.1, ← encodeRunes, ih scalars.2]
    rfl

theorem wellFormed_encodeRunes {rs : List ℕ} (scalars : ∀ r ∈ rs, Scalar r) :
    WellFormed (encodeRunes rs) := by
  intro _ inside
  rw [runes_encodeRunes scalars] at inside
  obtain ⟨code, -, rfl⟩ := mem_map.mp inside
  exact Option.some_ne_none code

theorem exists_encodeRunes {s : Bytes} (formed : WellFormed s) :
    ∃ rs, (∀ r ∈ rs, Scalar r) ∧ s = encodeRunes rs := by
  generalize long : s.length = n
  induction n using Nat.strongRecOn generalizing s with
  | ind n ih =>
    cases s with
    | nil => exact ⟨[], nofun, rfl⟩
    | cons c tail =>
      cases read : decodeRune (c :: tail) with
      | none =>
        have bad : none ∈ runes (c :: tail) := by
          rw [runes, runesFrom, read]
          exact List.mem_cons_self
        exact absurd rfl (formed none bad)
      | some found =>
        obtain ⟨r, _⟩ := found
        obtain ⟨scalar, rest, cut⟩ := eq_of_decodeRune read
        rw [cut] at formed long ⊢
        have shorter : rest.length < n := by
          have := List.length_pos_of_ne_nil (encodeRune_ne_nil r)
          rw [List.length_append] at long
          omega
        have later : WellFormed rest := by
          intro other inside
          refine formed other ?_
          rw [runes_append scalar]
          exact List.mem_cons_of_mem _ inside
        obtain ⟨rs, scalars, rfl⟩ := ih _ shorter later rfl
        exact ⟨r :: rs, List.forall_mem_cons.mpr ⟨scalar, scalars⟩, rfl⟩

end TheAuth.Go
