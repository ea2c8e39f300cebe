import TheAuth.Go.Bytes
import TheAuth.Library.Wildcard

/-!
# Glob matching of actions and resources

The matcher remembers the last star it has passed (`starP`) and the position up to which that star
has swallowed (`starI`). The loop state carries `starI ≤ i`, which makes the loop terminate. It
accepts exactly the language of the pattern, as `tokens` reads it.
-/

set_option autoImplicit false

namespace TheAuth.Policy

open Go Library.Wildcard List

def starByte : UInt8 := 0x2a

def backslash : UInt8 := 0x5c

def token (p : Bytes) (i : Nat) : UInt8 × Nat × Bool :=
  if p.getD i 0 = starByte then (0, 1, true)
  else if p.getD i 0 = backslash ∧ i + 1 < p.length then (p.getD (i + 1) 0, 2, false)
  else (p.getD i 0, 1, false)

/-- `starP` is `none` while the source has `-1`. -/
structure MatchState where
  (p i : Nat)
  starP : Option Nat
  starI : Nat
  starI_le : starI ≤ i

def MatchState.start : MatchState := ⟨0, 0, none, 0, Nat.le_refl 0⟩

def MatchState.backtrack (st : MatchState) : Option MatchState :=
  match st.starP with
  | none => none
  | some q => some ⟨q + 1, st.starI + 1, some q, st.starI + 1, Nat.le_refl _⟩

def matchStep (pattern s : Bytes) (st : MatchState) : Option MatchState :=
  if st.p < pattern.length then
    match token pattern st.p with
    | (_, w, true) => some ⟨st.p + w, st.i, some st.p, st.i, Nat.le_refl _⟩
    | (c, w, false) =>
      if c = s.getD st.i 0 then
        some ⟨st.p + w, st.i + 1, st.starP, st.starI, Nat.le_succ_of_le st.starI_le⟩
      else st.backtrack
  else st.backtrack

/-- The star swallows at most the subject; between two returns the pattern index grows. -/
def MatchState.measure (pattern s : Bytes) (st : MatchState) : Nat :=
  (s.length - st.starI) * (pattern.length + 1) + (pattern.length - st.p)

theorem token_width_pos (p : Bytes) (i : Nat) : 0 < (token p i).2.1 := by
  unfold token
  split
  · exact Nat.one_pos
  · split
    · exact Nat.two_pos
    · exact Nat.one_pos

variable {pattern : Bytes} {st st' : MatchState} {p : Nat}

theorem backtrack_measure {s : Bytes} (inside : st.i < s.length)
    (step : st.backtrack = some st') : st'.measure pattern s < st.measure pattern s := by
  unfold MatchState.backtrack at step
  split at step <;> cases step
  have swallowed : s.length - st.starI = (s.length - (st.starI + 1)) + 1 := by
    have := st.starI_le
    omega
  simp only [MatchState.measure, swallowed, Nat.add_mul]
  omega

theorem matchStep_measure {s : Bytes} (inside : st.i < s.length)
    (step : matchStep pattern s st = some st') :
    st'.measure pattern s < st.measure pattern s := by
  unfold matchStep at step
  split at step
  next =>
    split at step
    next w equal =>
      cases step
      have width : 0 < w := by simpa [equal] using token_width_pos pattern st.p
      have shrink : s.length - st.i ≤ s.length - st.starI := Nat.sub_le_sub_left st.starI_le _
      have scaled := Nat.mul_le_mul_right (pattern.length + 1) shrink
      simp only [MatchState.measure]
      omega
    rename_i w equal
    have width : 0 < w := by simpa [equal] using token_width_pos pattern st.p
    split at step
    · cases step
      simp only [MatchState.measure]
      omega
    · exact backtrack_measure inside step
  · exact backtrack_measure inside step

def matchLoop (pattern s : Bytes) (st : MatchState) : Option Nat :=
  if _inside : st.i < s.length then
    match _step : matchStep pattern s st with
    | none => none
    | some st' => matchLoop pattern s st'
  else some st.p
termination_by st.measure pattern s
decreasing_by exact matchStep_measure _inside _step

def onlyStars (pattern : Bytes) (p : Nat) : Bool :=
  if p < pattern.length then
    match _equal : token pattern p with
    | (_, _, false) => false
    | (_, w, true) => onlyStars pattern (p + w)
  else true
termination_by pattern.length - p
decreasing_by
  have width : 0 < w := by simpa [_equal] using token_width_pos pattern p
  omega

def globMatch (pattern s : Bytes) : Bool :=
  match matchLoop pattern s .start with
  | none => false
  | some p => onlyStars pattern p

def tokens : Bytes → List (Tok UInt8)
  | [] => []
  | [c] => if c = starByte then [.star] else [.lit c]
  | c :: d :: rest =>
    if c = starByte then .star :: tokens (d :: rest)
    else if c = backslash then .lit d :: tokens rest
    else .lit c :: tokens (d :: rest)

def tokenAt (pattern : Bytes) (p : Nat) : Tok UInt8 :=
  match token pattern p with
  | (_, _, true) => .star
  | (c, _, false) => .lit c

theorem token_star_width {w : Nat} {c : UInt8} (tok : token pattern p = (c, w, true)) : w = 1 := by
  unfold token at tok
  split at tok
  · exact (congrArg (fun t => t.2.1) tok).symm
  · split at tok <;> simp at tok

theorem tokens_drop (inside : p < pattern.length) :
    tokens (pattern.drop p) =
      tokenAt pattern p :: tokens (pattern.drop (p + (token pattern p).2.1)) := by
  rw [drop_eq_getElem_cons inside]
  have here : pattern.getD p 0 = pattern[p] := by simp [inside]
  by_cases last : p + 1 < pattern.length
  · have next : pattern.getD (p + 1) 0 = pattern[p + 1] := by simp [last]
    rw [drop_eq_getElem_cons last]
    simp only [tokens, tokenAt, token, here, next, last, and_true]
    split
    · rw [drop_eq_getElem_cons last]
    · split
      · rfl
      · rw [drop_eq_getElem_cons last]
  · have ended : pattern.drop (p + 1) = [] := drop_eq_nil_of_le (by omega)
    simp only [ended, tokens, tokenAt, token, here, last, and_false, if_false]
    split
    all_goals
      rw [ended]
      rfl

theorem tokens_drop_of_le (ended : pattern.length ≤ p) :
    tokens (pattern.drop p) = [] := by
  rw [drop_eq_nil_of_le ended]
  rfl

theorem onlyStars_iff (pattern : Bytes) (p : Nat) :
    onlyStars pattern p = true ↔ Matches (tokens (pattern.drop p)) [] := by
  fun_induction onlyStars pattern p with
  | case1 _ inside _ _ equal => simp [tokens_drop inside, tokenAt, equal]
  | case2 _ inside _ _ equal ih =>
    rw [ih, tokens_drop inside]
    simp [tokenAt, equal]
  | case3 _ outside => simp [tokens_drop_of_le (Nat.le_of_not_lt outside)]

def MatchState.retry (pattern s : Bytes) (st : MatchState) : Option (Retry UInt8) :=
  st.starP.map fun q => ⟨tokens (pattern.drop (q + 1)), s.drop st.starI⟩

/-- Only literals since the last star. -/
def MatchState.Inv (pattern s : Bytes) (st : MatchState) : Prop :=
  ∀ retry ∈ st.retry pattern s, retry.Reaches (tokens (pattern.drop st.p)) (s.drop st.i)

/-- The rest by the rest of the pattern, or something later by the last star. -/
def MatchState.Accepts (pattern s : Bytes) (st : MatchState) : Prop :=
  Matches (tokens (pattern.drop st.p)) (s.drop st.i) ∨ ∃ retry ∈ st.retry pattern s, retry.Succeeds

section

variable {pattern s : Bytes} {st : MatchState}

theorem backtrack_spec (inside : st.i < s.length)
    (mismatch : ¬ Matches (tokens (pattern.drop st.p)) (s.drop st.i)) :
    (st.backtrack = none ∧ ¬ st.Accepts pattern s) ∨
      ∃ st', st.backtrack = some st' ∧ st'.Inv pattern s ∧
        (st'.Accepts pattern s ↔ st.Accepts pattern s) := by
  have bound : st.starI < s.length := Nat.lt_of_le_of_lt st.starI_le inside
  cases starred : st.starP with
  | none =>
    refine .inl ⟨by simp [MatchState.backtrack, starred], ?_⟩
    rintro (matched | ⟨retry, member, _⟩)
    · exact mismatch matched
    · simp [MatchState.retry, starred] at member
  | some q =>
    refine .inr ⟨⟨q + 1, st.starI + 1, some q, st.starI + 1, Nat.le_refl _⟩,
      by simp [MatchState.backtrack, starred], ?_, ?_⟩
    · intro retry member
      obtain rfl : _ = retry := by simpa [MatchState.retry] using member
      exact Retry.reaches_refl _ _
    · have retried := Retry.succeeds_cons (tokens (pattern.drop (q + 1))) (s.get ⟨_, bound⟩)
        (s.drop (st.starI + 1))
      rw [get_eq_getElem, ← drop_eq_getElem_cons bound] at retried
      simp [MatchState.Accepts, MatchState.retry, starred, mismatch, retried]

theorem accepts_star (inv : st.Inv pattern s)
    (next : tokens (pattern.drop st.p) = .star :: tokens (pattern.drop (st.p + 1))) :
    let st' : MatchState := ⟨st.p + 1, st.i, some st.p, st.i, Nat.le_refl _⟩
    st'.Inv pattern s ∧ (st'.Accepts pattern s ↔ st.Accepts pattern s) := by
  intro st'
  have retried : st'.retry pattern s = some ⟨tokens (pattern.drop (st.p + 1)), s.drop st.i⟩ := rfl
  refine ⟨?_, ?_⟩
  · intro retry member
    obtain rfl : _ = retry := by simpa [retried] using member
    exact Retry.reaches_refl _ _
  · have fromHere : st'.Accepts pattern s ↔
        Matches (.star :: tokens (pattern.drop (st.p + 1))) (s.drop st.i) := by
      rw [matches_star_iff_retry]
      simp [MatchState.Accepts, retried, st']
    rw [fromHere, ← next]
    constructor
    · exact Or.inl
    · rintro (matched | ⟨retry, member, succeeds⟩)
      · exact matched
      · have reaches := inv retry member
        rw [next] at reaches ⊢
        exact Retry.succeeds_of_second_star reaches succeeds

theorem accepts_literal {c : UInt8} {w : Nat} (inv : st.Inv pattern s)
    (next : tokens (pattern.drop st.p) = .lit c :: tokens (pattern.drop (st.p + w)))
    (word : s.drop st.i = c :: s.drop (st.i + 1)) :
    let st' : MatchState := ⟨st.p + w, st.i + 1, st.starP, st.starI, Nat.le_succ_of_le st.starI_le⟩
    st'.Inv pattern s ∧ (st'.Accepts pattern s ↔ st.Accepts pattern s) := by
  intro st'
  refine ⟨?_, ?_⟩
  · intro retry member
    have reaches := inv retry member
    rw [next, word] at reaches
    exact reaches.literal
  · unfold MatchState.Accepts
    rw [next, word]
    simp [st', MatchState.retry]

theorem matchStep_spec (inside : st.i < s.length) (inv : st.Inv pattern s) :
    (matchStep pattern s st = none ∧ ¬ st.Accepts pattern s) ∨
      ∃ st', matchStep pattern s st = some st' ∧ st'.Inv pattern s ∧
        (st'.Accepts pattern s ↔ st.Accepts pattern s) := by
  have word : s.drop st.i = s.getD st.i 0 :: s.drop (st.i + 1) := by
    simp [inside]
  by_cases left : st.p < pattern.length
  · have read := tokens_drop left
    obtain ⟨c, w, star, tok⟩ : ∃ c w star, token pattern st.p = (c, w, star) := ⟨_, _, _, rfl⟩
    cases star with
    | true =>
      obtain rfl : w = 1 := token_star_width tok
      have next : tokens (pattern.drop st.p) = .star :: tokens (pattern.drop (st.p + 1)) := by
        simpa [tokenAt, tok] using read
      exact .inr ⟨_, by simp only [matchStep, left, tok, if_true], accepts_star inv next⟩
    | false =>
      have next : tokens (pattern.drop st.p) = .lit c :: tokens (pattern.drop (st.p + w)) := by
        simpa [tokenAt, tok] using read
      by_cases same : c = s.getD st.i 0
      · exact .inr ⟨_, by simp only [matchStep, left, tok, if_true, same],
          accepts_literal inv next (same ▸ word)⟩
      · have mismatch : ¬ Matches (tokens (pattern.drop st.p)) (s.drop st.i) := by
          rw [next, word, matches_lit_cons]
          exact fun both => same both.1
        simpa only [matchStep, left, tok, if_true, same, if_false] using
          backtrack_spec inside mismatch
  · have mismatch : ¬ Matches (tokens (pattern.drop st.p)) (s.drop st.i) := by
      rw [tokens_drop_of_le (Nat.le_of_not_lt left), word]
      simp
    simpa only [matchStep, left, if_false] using backtrack_spec inside mismatch

theorem matchLoop_spec (pattern s : Bytes) (st : MatchState) (inv : st.Inv pattern s) :
    (∃ p, matchLoop pattern s st = some p ∧ onlyStars pattern p = true) ↔ st.Accepts pattern s := by
  fun_induction matchLoop pattern s st with
  | case1 _ inside step =>
    obtain ⟨_, refused⟩ | ⟨_, stepped, _⟩ := matchStep_spec inside inv
    · simp [refused]
    · simp [step] at stepped
  | case2 _ inside st' step ih =>
    obtain ⟨failed, _⟩ | ⟨st'', stepped, inv', same⟩ := matchStep_spec inside inv
    · simp [step] at failed
    · obtain rfl : st' = st'' := Option.some.inj (step.symm.trans stepped)
      rw [ih inv', same]
  | case3 st outside =>
    have ended : s.drop st.i = [] := drop_eq_nil_of_le (Nat.le_of_not_lt outside)
    simp only [Option.some.injEq, exists_eq_left', onlyStars_iff, MatchState.Accepts, ended]
    constructor
    · exact Or.inl
    · rintro (matched | ⟨retry, member, succeeds⟩)
      · exact matched
      · exact absurd succeeds (Retry.not_succeeds_of_exhausted (ended ▸ inv retry member))

end

theorem globMatch_iff (pattern s : Bytes) :
    globMatch pattern s = true ↔ Matches (tokens pattern) s := by
  have inv : MatchState.start.Inv pattern s := by
    intro retry member
    simp [MatchState.retry, MatchState.start] at member
  have spec := matchLoop_spec pattern s .start inv
  have start : MatchState.start.Accepts pattern s ↔ Matches (tokens pattern) s := by
    simp [MatchState.Accepts, MatchState.retry, MatchState.start]
  rw [← start, ← spec]
  unfold globMatch
  cases matchLoop pattern s .start with
  | none | some => simp

/-- The texts that a pattern stands for. -/
inductive Denotes : Bytes → Bytes → Prop where
  | nil : Denotes [] []
  | star (swallowed : Bytes) {pattern s : Bytes} :
      Denotes pattern s → Denotes (starByte :: pattern) (swallowed ++ s)
  | escaped (c : UInt8) {pattern s : Bytes} :
      Denotes pattern s → Denotes (backslash :: c :: pattern) (c :: s)
  | loneBackslash : Denotes [backslash] [backslash]
  | plain (c : UInt8) {pattern s : Bytes} (notStar : c ≠ starByte) (notEscape : c ≠ backslash) :
      Denotes pattern s → Denotes (c :: pattern) (c :: s)

@[simp] theorem tokens_star (rest : Bytes) : tokens (starByte :: rest) = .star :: tokens rest := by
  cases rest <;> simp [tokens]

@[simp] theorem tokens_escaped (c : UInt8) (rest : Bytes) :
    tokens (backslash :: c :: rest) = .lit c :: tokens rest := by
  have notStar : backslash ≠ starByte := by decide
  simp [tokens, notStar]

@[simp] theorem tokens_loneBackslash : tokens [backslash] = [.lit backslash] := by
  decide

theorem tokens_plain {c : UInt8} (notStar : c ≠ starByte) (notEscape : c ≠ backslash)
    (rest : Bytes) : tokens (c :: rest) = .lit c :: tokens rest := by
  cases rest <;> simp [tokens, notStar, notEscape]

theorem denotes_iff_matches (pattern s : Bytes) :
    Denotes pattern s ↔ Matches (tokens pattern) s := by
  constructor
  · intro denotes
    induction denotes with
    | nil => rfl
    | star swallowed _ ih =>
      rw [tokens_star]
      exact ⟨swallowed, _, rfl, ih⟩
    | escaped _ _ ih => exact ⟨_, rfl, ih⟩
    | loneBackslash => simp
    | plain _ notStar notEscape _ ih =>
      rw [tokens_plain notStar notEscape]
      exact ⟨_, rfl, ih⟩
  · intro matched
    fun_induction tokens pattern generalizing s with
    | case1 =>
      obtain rfl : s = [] := matched
      exact .nil
    | case2 =>
      obtain ⟨swallowed, _, rfl, rfl⟩ := matched
      exact .star swallowed .nil
    | case3 c notStar =>
      obtain ⟨_, rfl, rfl⟩ := matched
      by_cases escape : c = backslash
      · subst escape
        exact .loneBackslash
      · exact .plain c notStar escape .nil
    | case4 _ _ ih =>
      obtain ⟨swallowed, tail, rfl, further⟩ := matched
      exact .star swallowed (ih tail further)
    | case5 d _ _ ih =>
      obtain ⟨tail, rfl, further⟩ := matched
      exact .escaped d (ih tail further)
    | case6 c _ _ notStar notEscape ih =>
      obtain ⟨tail, rfl, further⟩ := matched
      exact .plain c notStar notEscape (ih tail further)

/-- **Matching is membership in the language of the pattern**, for every pattern
and every subject. -/
theorem globMatch_eq_true_iff_denotes (pattern s : Bytes) :
    globMatch pattern s = true ↔ Denotes pattern s := by
  rw [globMatch_iff, denotes_iff_matches]

end TheAuth.Policy
