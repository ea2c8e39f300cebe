import TheAuth.Go.Map
import TheAuth.Policy.Glob

/-!
# Variable references in resource patterns

`expand` replaces each reference `{name}` by the escaped value of the attribute. `templateTokens` is
what the pattern means before any substitution. A backslash directly before a reference
(`escapedReference`) escapes the first byte of the escaped value: exactly these patterns lose their
meaning for some attribute map.
-/

set_option autoImplicit false

namespace TheAuth.Policy

open Go Library.Wildcard List GoMap Prod

abbrev Attributes := GoMap Bytes Bytes

def openBrace : UInt8 := 0x7b

def closeBrace : UInt8 := 0x7d

def needsEscape (c : UInt8) : Bool := c == starByte || c == backslash

def escapeByte (c : UInt8) : Bytes := if needsEscape c then [backslash, c] else [c]

def escape (v : Bytes) : Bytes := if !v.any needsEscape then v else v.flatMap escapeByte

def isVarChar (c : UInt8) : Bool :=
  0x61 ≤ c && c ≤ 0x7a || 0x41 ≤ c && c ≤ 0x5a || 0x30 ≤ c && c ≤ 0x39 ||
    c == 0x5f || c == 0x2e || c == 0x2d

def expandLoop (vars : Attributes) (escaped : Bool) : Bytes → Bytes × Bool
  | [] => ([], true)
  | c :: rest =>
    let name := rest.takeWhile isVarChar
    let after := rest.dropWhile isVarChar
    if c ≠ openBrace ∨ name = [] ∨ after.head? ≠ some closeBrace then
      let (out, ok) := expandLoop vars escaped rest
      (c :: out, ok)
    else
      let found := vars.lookup name
      let v := found.getD []
      let (out, ok) := expandLoop vars escaped after.tail
      ((if escaped then escape v else v) ++ out, found.isSome && ok)
termination_by s => s.length
decreasing_by
  · simp
  · have := (List.dropWhile_suffix (l := rest) isVarChar).length_le
    simp only [List.length_tail, List.length_cons]
    omega

def expand (s : Bytes) (vars : Attributes) (escaped : Bool) : Bytes × Bool :=
  if !s.contains openBrace then (s, true) else expandLoop vars escaped s

/-- A letter, or a reference to an attribute. -/
inductive Piece where
  | byte (c : UInt8)
  | reference (name : Bytes)

def pieces : Bytes → List Piece
  | [] => []
  | c :: rest =>
    let name := rest.takeWhile isVarChar
    let after := rest.dropWhile isVarChar
    if c ≠ openBrace ∨ name = [] ∨ after.head? ≠ some closeBrace then .byte c :: pieces rest
    else .reference name :: pieces after.tail
termination_by s => s.length
decreasing_by
  · simp
  · have := (List.dropWhile_suffix (l := rest) isVarChar).length_le
    simp only [List.length_tail, List.length_cons]
    omega

variable (vars : Attributes)

def valueOf (name : Bytes) : Bytes := (vars.lookup name).getD []

def Piece.expanded : Piece → Bytes
  | .byte c => [c]
  | .reference name => escape (valueOf vars name)

def Piece.resolved : Piece → Bool
  | .byte _ => true
  | .reference name => (vars.lookup name).isSome

theorem expandLoop_eq (s : Bytes) :
    expandLoop vars true s =
      ((pieces s).flatMap (Piece.expanded vars), (pieces s).all (Piece.resolved vars)) := by
  fun_induction expandLoop vars true s with
  | case1 => simp [pieces]
  | case2 _ _ _ _ copied _ _ equal ih =>
    rw [equal] at ih
    obtain ⟨rfl, rfl⟩ := mk.inj ih
    rw [pieces, if_pos copied]
    simp [Piece.expanded, Piece.resolved]
  | case3 _ _ name after replaced found v _ _ equal ih =>
    rw [equal] at ih
    obtain ⟨rfl, rfl⟩ := mk.inj ih
    rw [pieces, if_neg replaced]
    simp [Piece.expanded, Piece.resolved, valueOf, v, found, name, after]

theorem pieces_of_no_brace {s : Bytes} (plain : openBrace ∉ s) : pieces s = s.map .byte := by
  induction s with
  | nil => simp [pieces]
  | cons c _ ih =>
    have notBrace : c ≠ openBrace := fun same => plain (same ▸ mem_cons_self)
    rw [pieces, if_pos (.inl notBrace), ih fun member => plain (mem_cons_of_mem _ member)]
    rfl

theorem expand_eq (s : Bytes) (vars : Attributes) :
    expand s vars true =
      ((pieces s).flatMap (Piece.expanded vars), (pieces s).all (Piece.resolved vars)) := by
  unfold expand
  split
  next noBrace =>
    have plain : openBrace ∉ s := by simpa using noBrace
    have copied : (s.map Piece.byte).flatMap (Piece.expanded vars) = s := by
      induction s with
      | nil => rfl
      | cons => simp_all [Piece.expanded]
    rw [pieces_of_no_brace plain, copied]
    simp [Piece.resolved]
  · exact expandLoop_eq vars s

theorem escape_eq_flatMap (v : Bytes) : escape v = v.flatMap escapeByte := by
  unfold escape
  split
  next clean =>
    have plain : ∀ c ∈ v, needsEscape c = false := by simpa using clean
    induction v with
    | nil => rfl
    | cons c v ih =>
      have further : ∀ d ∈ v, needsEscape d = false :=
        fun d member => plain d (mem_cons_of_mem _ member)
      rw [flatMap_cons, ← ih (by simpa using further) further, escapeByte, plain c mem_cons_self]
      rfl
  · rfl

theorem tokens_escapeByte_append (c : UInt8) (rest : Bytes) :
    tokens (escapeByte c ++ rest) = .lit c :: tokens rest := by
  unfold escapeByte
  split
  · exact tokens_escaped c rest
  rename_i plain
  have here : c ≠ starByte ∧ c ≠ backslash := by simpa [needsEscape] using plain
  exact tokens_plain here.1 here.2 rest

theorem tokens_escape_append (v rest : Bytes) :
    tokens (escape v ++ rest) = v.map .lit ++ tokens rest := by
  rw [escape_eq_flatMap]
  induction v with
  | nil => rfl
  | cons _ _ ih =>
    rw [flatMap_cons, append_assoc, tokens_escapeByte_append, ih]
    rfl

/-- A backslash escapes the byte after it; before a reference or nothing it stands for itself. -/
def templateTokens (vars : Attributes) : List Piece → List (Tok UInt8)
  | [] => []
  | .reference name :: rest => (valueOf vars name).map .lit ++ templateTokens vars rest
  | [.byte c] => if c = starByte then [.star] else [.lit c]
  | .byte c :: .reference name :: rest =>
    if c = starByte then .star :: templateTokens vars (.reference name :: rest)
    else .lit c :: templateTokens vars (.reference name :: rest)
  | .byte c :: .byte d :: rest =>
    if c = starByte then .star :: templateTokens vars (.byte d :: rest)
    else if c = backslash then .lit d :: templateTokens vars rest
    else .lit c :: templateTokens vars (.byte d :: rest)

/-- A backslash that is not itself escaped. -/
def escapedReference : List Piece → Bool
  | [] => false
  | .reference _ :: rest => escapedReference rest
  | [.byte _] => false
  | .byte c :: .reference name :: rest =>
    c == backslash || escapedReference (.reference name :: rest)
  | .byte c :: .byte d :: rest =>
    if c = backslash then escapedReference rest else escapedReference (.byte d :: rest)

variable (ps : List Piece)

def expandPieces : Bytes := ps.flatMap (Piece.expanded vars)

@[simp] theorem expandPieces_byte (c : UInt8) (rest : List Piece) :
    expandPieces vars (.byte c :: rest) = c :: expandPieces vars rest := rfl

@[simp] theorem expandPieces_reference (name : Bytes) (rest : List Piece) :
    expandPieces vars (.reference name :: rest) =
      escape (valueOf vars name) ++ expandPieces vars rest := rfl

theorem tokens_expandPieces (ps : List Piece) (clean : escapedReference ps = false) :
    tokens (expandPieces vars ps) = templateTokens vars ps := by
  fun_induction escapedReference ps with
  | case1 => rfl
  | case2 _ _ ih =>
    rw [expandPieces_reference, tokens_escape_append, ih clean, templateTokens]
  | case3 => simp [expandPieces, Piece.expanded, tokens, templateTokens]
  | case4 c name rest ih =>
    obtain ⟨notEscape, clean⟩ : c ≠ backslash ∧
        escapedReference (.reference name :: rest) = false := by
      simpa using clean
    rw [expandPieces_byte, templateTokens, ← ih clean]
    split
    next star => rw [star, tokens_star]
    next notStar => rw [tokens_plain notStar notEscape]
  | case5 _ _ ih =>
    rw [expandPieces_byte, expandPieces_byte, tokens_escaped, ih clean]
    simp [templateTokens, show backslash ≠ starByte by decide]
  | case6 _ _ _ notEscape ih =>
    rw [expandPieces_byte, templateTokens, ← ih clean]
    split
    next star => rw [star, tokens_star]
    next notStar => rw [tokens_plain notStar notEscape]

def referenced : List Bytes :=
  ps.filterMap fun piece => match piece with
    | .byte _ => none
    | .reference name => some name

def allLetterA : Attributes := GoMap.constant (referenced ps) [0x61]

theorem resolved_allLetterA {ps : List Piece} {piece : Piece} (member : piece ∈ ps) :
    piece.resolved (allLetterA ps) = true := by
  cases piece with
  | byte => rfl
  | reference name =>
    have listed : name ∈ referenced ps := mem_filterMap.mpr ⟨_, member, rfl⟩
    simp only [Piece.resolved, allLetterA, lookup_constant listed, Option.isSome_some]

theorem valueOf_allLetterA {ps : List Piece} {name : Bytes} (member : .reference name ∈ ps) :
    valueOf (allLetterA ps) name = [0x61] := by
  have listed : name ∈ referenced ps := mem_filterMap.mpr ⟨_, member, rfl⟩
  simp only [valueOf, allLetterA, lookup_constant listed, Option.getD_some]

theorem literals_expandPieces_lt (ps : List Piece)
    (letters : ∀ name, .reference name ∈ ps → valueOf vars name = [0x61]) :
    (literals (tokens (expandPieces vars ps))).length + (escapedReference ps).toNat ≤
      (literals (templateTokens vars ps)).length := by
  fun_induction escapedReference ps with
  | case1 => rfl
  | case2 name _ ih =>
    have further := ih fun other member => letters other (mem_cons_of_mem _ member)
    rw [expandPieces_reference, tokens_escape_append, templateTokens, letters name mem_cons_self]
    simp only [map_cons, map_nil, cons_append, nil_append, literals, length_cons]
    omega
  | case3 => simp [expandPieces, Piece.expanded, tokens, templateTokens]
  | case4 c name rest ih =>
    have further := ih fun other member => letters other (mem_cons_of_mem _ member)
    have value := letters name (mem_cons_of_mem _ mem_cons_self)
    rw [expandPieces_byte, templateTokens]
    split
    next star =>
      subst star
      simpa [literals, show (starByte == backslash) = false by decide] using further
    rename_i notStar
    by_cases escape : c = backslash
    · -- the backslash escapes the letter, and the template keeps both
      subst escape
      rw [expandPieces_reference, tokens_escape_append, templateTokens, value] at further
      rw [expandPieces_reference, templateTokens, value]
      have swallowed : backslash :: (Policy.escape [0x61] ++ expandPieces vars rest) =
          backslash :: 0x61 :: expandPieces vars rest := by
        rfl
      rw [swallowed, tokens_escaped]
      simp only [map_cons, map_nil, cons_append, nil_append, literals,
        length_cons, beq_self_eq_true, Bool.true_or, Bool.toNat_true] at further ⊢
      omega
    · have unescaped : (c == backslash) = false := by simpa using escape
      simp only [tokens_plain notStar escape, unescaped, Bool.false_or, literals, length_cons]
      omega
  | case5 _ _ ih =>
    have further := ih fun other member =>
      letters other (mem_cons_of_mem _ (mem_cons_of_mem _ member))
    rw [expandPieces_byte, expandPieces_byte, tokens_escaped]
    simp only [templateTokens, show backslash ≠ starByte by decide, if_false, if_true, literals,
      length_cons]
    omega
  | case6 c d rest notEscape ih =>
    have further := ih fun other member => letters other (mem_cons_of_mem _ member)
    rw [expandPieces_byte, templateTokens]
    split
    next star =>
      subst star
      simpa [literals] using further
    rename_i notStar
    simp only [tokens_plain notStar notEscape, literals, length_cons]
    omega

/-- **Expansion keeps the meaning of a pattern exactly when no reference stands behind an unescaped
backslash.** -/
theorem expand_reads_template_iff (pattern : Bytes) :
    (∀ (vars : Attributes) (out s : Bytes), expand pattern vars true = (out, true) →
        (globMatch out s = true ↔ Matches (templateTokens vars (pieces pattern)) s)) ↔
      escapedReference (pieces pattern) = false := by
  constructor
  · intro keeps
    by_contra escaped
    have strict := literals_expandPieces_lt (allLetterA (pieces pattern)) (pieces pattern)
      fun name member => valueOf_allLetterA member
    have complete : expand pattern (allLetterA (pieces pattern)) true =
        (expandPieces (allLetterA (pieces pattern)) (pieces pattern), true) := by
      rw [expand_eq]
      exact congrArg _ (all_eq_true.mpr fun piece member => resolved_allLetterA member)
    -- the shortest word of the expanded pattern is too short for the template
    have accepted := (keeps _ _ _ complete).mp ((globMatch_iff _ _).mpr (literals_matches _))
    have bound := literals_length_le accepted
    rw [Bool.not_eq_false] at escaped
    simp only [escaped, Bool.toNat_true] at strict
    omega
  · intro clean vars _ _ expanded
    rw [expand_eq] at expanded
    obtain ⟨rfl, _⟩ := mk.inj expanded
    rw [globMatch_iff, ← tokens_expandPieces vars _ clean]
    rfl

/-- The pattern `\{x}` expands to `\\*` for the value `*`. -/
theorem escaped_reference_introduces_wildcard :
    ∃ (pattern out s : Bytes) (vars : Attributes),
      pattern = str "\\\x7bx\x7d" ∧ vars.lookup (str "x") = some (str "*") ∧
        s = str "\\zzz" ∧ expand pattern vars true = (out, true) ∧ globMatch out s = true ∧
          ¬ Matches (templateTokens vars (pieces pattern)) s := by
  refine ⟨_, str "\\\\*", _, constant [str "x"] (str "*"), rfl, by decide, rfl,
    by decide +kernel, by decide +kernel, ?_⟩
  have read : templateTokens (constant [str "x"] (str "*")) (pieces (str "\\\x7bx\x7d")) =
      [.lit backslash, .lit starByte] := by decide +kernel
  rw [read]
  have word : str "\\zzz" = [0x5c, 0x7a, 0x7a, 0x7a] := by decide
  rw [word]
  simp [backslash]

end TheAuth.Policy
