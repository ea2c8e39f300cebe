import Mathlib.Data.List.Basic

/-!
# Wildcard patterns and the greedy matcher's exchange argument

A greedy matcher commits to the last star it has passed (`Retry`). While only literals have been
read since, every retry that succeeds does so later in the word; and whatever a retry of an earlier
star could match, the second star matches from where the scan stands.
-/

set_option autoImplicit false

namespace TheAuth.Library.Wildcard

open List

variable {α : Type*}

/-- A letter, or a star. -/
inductive Tok (α : Type*) where
  | star
  | lit (letter : α)
  deriving DecidableEq

/-- The pattern matches the word. -/
def Matches : List (Tok α) → List α → Prop
  | [], word => word = []
  | .star :: rest, word => ∃ swallowed tail, word = swallowed ++ tail ∧ Matches rest tail
  | .lit letter :: rest, word => ∃ tail, word = letter :: tail ∧ Matches rest tail

variable (word : List α)

@[simp] theorem matches_nil : Matches [] word ↔ word = [] := Iff.rfl

@[simp] theorem matches_star (rest : List (Tok α)) (word : List α) :
    Matches (.star :: rest) word ↔
      ∃ swallowed tail, word = swallowed ++ tail ∧ Matches rest tail := Iff.rfl

@[simp] theorem matches_lit_cons (letter first : α) (rest : List (Tok α)) (word : List α) :
    Matches (.lit letter :: rest) (first :: word) ↔ letter = first ∧ Matches rest word := by
  constructor
  · rintro ⟨_, equal, matched⟩
    obtain ⟨rfl, rfl⟩ := cons.inj equal
    exact ⟨rfl, matched⟩
  · rintro ⟨rfl, matched⟩
    exact ⟨word, rfl, matched⟩

@[simp] theorem not_matches_lit_nil (letter : α) (rest : List (Tok α)) :
    ¬ Matches (.lit letter :: rest) [] := by
  rintro ⟨_, equal, _⟩
  cases equal

theorem Matches.star_append {rest : List (Tok α)} {word : List α}
    (matched : Matches (.star :: rest) word) (front : List α) :
    Matches (.star :: rest) (front ++ word) := by
  obtain ⟨swallowed, tail, rfl, matched⟩ := matched
  exact ⟨front ++ swallowed, tail, (append_assoc _ _ _).symm, matched⟩

theorem matches_star_cons (rest : List (Tok α)) (first : α) (word : List α) :
    Matches (.star :: rest) (first :: word) ↔
      Matches rest (first :: word) ∨ Matches (.star :: rest) word := by
  constructor
  · rintro ⟨swallowed, tail, equal, matched⟩
    cases swallowed with
    | nil => exact .inl (by rw [equal]; exact matched)
    | cons _ swallowed =>
      obtain ⟨rfl, rfl⟩ := cons.inj equal
      exact .inr ⟨swallowed, tail, rfl, matched⟩
  · rintro (matched | matched)
    · exact ⟨[], first :: word, rfl, matched⟩
    · exact matched.star_append [first]

variable (tokens : List (Tok α))

theorem matches_nil_word :
    Matches tokens [] ↔ ∀ token ∈ tokens, token = .star := by
  induction tokens with
  | nil => simp
  | cons token _ ih =>
    cases token with
    | lit => simp
    | star =>
      simp only [mem_cons, forall_eq_or_imp, true_and, ← ih]
      constructor
      · rintro ⟨_, _, equal, matched⟩
        obtain ⟨rfl, rfl⟩ := append_eq_nil_iff.mp equal.symm
        exact matched
      · intro matched
        exact ⟨[], [], rfl, matched⟩

theorem matches_literals_append (letters : List α) (rest : List (Tok α)) (word : List α) :
    Matches (letters.map .lit ++ rest) word ↔
      ∃ tail, word = letters ++ tail ∧ Matches rest tail := by
  induction letters generalizing word with
  | nil => simp
  | cons _ letters ih =>
    constructor
    · rintro ⟨_, rfl, matched⟩
      obtain ⟨tail, rfl, further⟩ := (ih _).mp matched
      exact ⟨tail, rfl, further⟩
    · rintro ⟨tail, rfl, matched⟩
      exact ⟨letters ++ tail, rfl, (ih _).mpr ⟨tail, rfl, matched⟩⟩

def literals : List (Tok α) → List α
  | [] => []
  | .star :: rest => literals rest
  | .lit letter :: rest => letter :: literals rest

theorem literals_matches : Matches tokens (literals tokens) := by
  induction tokens with
  | nil => rfl
  | cons token rest ih =>
    cases token with
    | star => exact ⟨[], literals rest, rfl, ih⟩
    | lit => exact ⟨literals rest, rfl, ih⟩

theorem literals_length_le {tokens : List (Tok α)} {word : List α}
    (matched : Matches tokens word) : (literals tokens).length ≤ word.length := by
  induction tokens generalizing word with
  | nil => simp [literals]
  | cons token _ ih =>
    cases token with
    | star =>
      obtain ⟨_, _, rfl, matched⟩ := matched
      have bound := ih matched
      simp only [literals, length_append]
      omega
    | lit =>
      obtain ⟨_, rfl, matched⟩ := matched
      simpa [literals] using ih matched

/-- Each loose letter may become any word. -/
inductive Instance (loose : α → Prop) : List α → List α → Prop
  | nil : Instance loose [] []
  | same (letter : α) {text word : List α} :
      Instance loose text word → Instance loose (letter :: text) (letter :: word)
  | other {letter : α} (free : loose letter) (put : List α) {text word : List α} :
      Instance loose text word → Instance loose (letter :: text) (put ++ word)

section

variable {loose : α → Prop}

theorem Instance.of_append {front back word : List α} (inst : Instance loose (front ++ back) word) :
    ∃ left right, word = left ++ right ∧ Instance loose back right := by
  induction front generalizing word with
  | nil => exact ⟨[], word, rfl, inst⟩
  | cons letter _ ih =>
    cases inst with
    | same _ rest =>
      obtain ⟨left, right, rfl, inside⟩ := ih rest
      exact ⟨letter :: left, right, rfl, inside⟩
    | other _ put rest =>
      obtain ⟨left, right, rfl, inside⟩ := ih rest
      exact ⟨put ++ left, right, (append_assoc _ _ _).symm, inside⟩

theorem Matches.of_instance {pattern : List (Tok α)} {text word : List α}
    (strict : ∀ letter, .lit letter ∈ pattern → ¬ loose letter) (matched : Matches pattern text)
    (inst : Instance loose text word) : Matches pattern word := by
  induction pattern generalizing text word with
  | nil =>
    cases (show text = [] from matched)
    cases inst
    rfl
  | cons token rest ih =>
    have later : ∀ letter, .lit letter ∈ rest → ¬ loose letter := fun letter inside =>
      strict letter (mem_cons_of_mem _ inside)
    cases token with
    | star =>
      obtain ⟨_, _, rfl, matched⟩ := matched
      obtain ⟨left, right, rfl, inside⟩ := inst.of_append
      exact ⟨left, right, rfl, ih later matched inside⟩
    | lit letter =>
      obtain ⟨_, rfl, matched⟩ := matched
      cases inst with
      | same _ inside => exact ⟨_, rfl, ih later matched inside⟩
      | other free => exact absurd free (strict letter mem_cons_self)

end

theorem Matches.mem_of_lit {pattern : List (Tok α)} {word : List α} (matched : Matches pattern word)
    {letter : α} (inside : .lit letter ∈ pattern) : letter ∈ word := by
  induction pattern generalizing word with
  | nil => cases inside
  | cons token _ ih =>
    cases token with
    | star =>
      obtain ⟨_, _, rfl, matched⟩ := matched
      have later := (mem_cons.mp inside).resolve_left nofun
      exact mem_append_right _ (ih matched later)
    | lit =>
      obtain ⟨_, rfl, matched⟩ := matched
      rcases mem_cons.mp inside with here | later
      · cases here
        exact mem_cons_self
      · exact mem_cons_of_mem _ (ih matched later)

/-- The tokens after the last star, and the word as it stood then, shortened by what the star has
swallowed. -/
structure Retry (α : Type*) where
  tokens : List (Tok α)
  word : List α

/-- With at least one more letter. -/
def Retry.Succeeds (retry : Retry α) : Prop :=
  ∃ first word, retry.word = first :: word ∧ Matches (.star :: retry.tokens) word

/-- Only literals were read since the star. -/
def Retry.Reaches (retry : Retry α) (tokens : List (Tok α)) (word : List α) : Prop :=
  ∃ letters : List α, retry.tokens = letters.map .lit ++ tokens ∧ retry.word = letters ++ word

theorem Retry.reaches_refl :
    Retry.Reaches ⟨tokens, word⟩ tokens word :=
  ⟨[], rfl, rfl⟩

theorem Retry.Reaches.literal {retry : Retry α} {letter : α} {tokens : List (Tok α)}
    {word : List α} (reaches : retry.Reaches (.lit letter :: tokens) (letter :: word)) :
    retry.Reaches tokens word := by
  obtain ⟨letters, tokensEq, wordEq⟩ := reaches
  exact ⟨letters ++ [letter], by simp [tokensEq], by simp [wordEq]⟩

theorem Retry.Reaches.succeeds {retry : Retry α} {tokens : List (Tok α)} {word : List α}
    (reaches : retry.Reaches tokens word) (succeeds : retry.Succeeds) :
    ∃ first skipped tail, word = first :: skipped ++ tail ∧ Matches tokens tail := by
  obtain ⟨letters, tokensEq, wordEq⟩ := reaches
  obtain ⟨first, _, restEq, swallowed, _, rfl, matched⟩ := succeeds
  rw [tokensEq, matches_literals_append] at matched
  obtain ⟨tail, rfl, matched⟩ := matched
  -- `word` and `tail` are both suffixes of the retry's word, and `tail` is shorter
  have split : letters ++ word = (first :: swallowed ++ letters) ++ tail := by
    rw [← wordEq, restEq]
    simp
  have suffixWord : word <:+ letters ++ word := suffix_append _ _
  have suffixTail : tail <:+ letters ++ word := split ▸ suffix_append _ _
  have lengths : tail.length < word.length := by
    have := congrArg length split
    simp only [length_append, length_cons] at this
    omega
  obtain ⟨skipped, rfl⟩ := suffix_of_suffix_length_le suffixTail suffixWord (Nat.le_of_lt lengths)
  cases skipped with
  | nil => simp at lengths
  | cons first skipped => exact ⟨first, skipped, tail, rfl, matched⟩

theorem Retry.not_succeeds_of_exhausted {retry : Retry α} {tokens : List (Tok α)}
    (reaches : retry.Reaches tokens []) : ¬ retry.Succeeds := by
  intro succeeds
  obtain ⟨_, _, _, equal, _⟩ := reaches.succeeds succeeds
  cases equal

/-- **The exchange argument**: every success of the first star's retry is a match of the second star
from here. -/
theorem Retry.succeeds_of_second_star {retry : Retry α} {tokens : List (Tok α)} {word : List α}
    (reaches : retry.Reaches (.star :: tokens) word) (succeeds : retry.Succeeds) :
    Matches (.star :: tokens) word := by
  obtain ⟨first, skipped, _, rfl, matched⟩ := reaches.succeeds succeeds
  exact matched.star_append (first :: skipped)

theorem Retry.succeeds_iff (first : α) (word : List α) :
    Retry.Succeeds ⟨tokens, first :: word⟩ ↔ Matches (.star :: tokens) word := by
  constructor
  · rintro ⟨_, _, equal, matched⟩
    obtain ⟨rfl, rfl⟩ := cons.inj equal
    exact matched
  · intro matched
    exact ⟨first, word, rfl, matched⟩

theorem Retry.not_succeeds_nil : ¬ Retry.Succeeds ⟨tokens, []⟩ := by
  rintro ⟨_, _, equal, _⟩
  cases equal

theorem matches_star_iff_retry :
    Matches (.star :: tokens) word ↔ Matches tokens word ∨ Retry.Succeeds ⟨tokens, word⟩ := by
  cases word with
  | nil =>
    simp only [Retry.not_succeeds_nil, or_false, matches_nil_word, mem_cons,
      forall_eq_or_imp, true_and]
  | cons => rw [Retry.succeeds_iff, matches_star_cons]

theorem Retry.succeeds_cons (first : α) (word : List α) :
    Retry.Succeeds ⟨tokens, first :: word⟩ ↔
      Matches tokens word ∨ Retry.Succeeds ⟨tokens, word⟩ := by
  rw [Retry.succeeds_iff, matches_star_iff_retry]

end TheAuth.Library.Wildcard
