import Mathlib.Data.List.Basic

/-!
# Texts that end where they end

A set of texts is `Delimited` when no text of it begins another. Quoted texts are, with the quote
behind an escape, and lists of delimited items with separators can be read back.
-/

set_option autoImplicit false

namespace TheAuth.Library.Texts

open List

variable {α : Type*}

/-- A text of this kind is told from what follows it. -/
def Delimited (texts : List α → Prop) : Prop :=
  ∀ ⦃a b : List α⦄, texts a → texts b → ∀ ⦃rest rest' : List α⦄, a ++ rest = b ++ rest' →
    a = b ∧ rest = rest'

theorem delimited_of_length (n : ℕ) : Delimited fun a : List α => a.length = n :=
  fun _ _ left right _ _ same => append_inj same (left.trans right.symm)

theorem Delimited.mono {texts fewer : List α → Prop} (delimited : Delimited texts)
    (subset : ∀ a, fewer a → texts a) : Delimited fewer :=
  fun _ _ left right => delimited (subset _ left) (subset _ right)

theorem Delimited.append {first second : List α → Prop} (one : Delimited first)
    (two : Delimited second) :
    Delimited fun text => ∃ a b, first a ∧ second b ∧ text = a ++ b := by
  rintro _ _ ⟨_, _, inFirst, inSecond, rfl⟩ ⟨_, _, inFirst', inSecond', rfl⟩ _ _ same
  rw [append_assoc, append_assoc] at same
  obtain ⟨rfl, later⟩ := one inFirst inFirst' same
  obtain ⟨rfl, ended⟩ := two inSecond inSecond' later
  exact ⟨rfl, ended⟩

theorem append_cons_inj {a b rest rest' : List α} {stop : α} (left : stop ∉ a) (right : stop ∉ b)
    (same : a ++ stop :: rest = b ++ stop :: rest') : a = b ∧ rest = rest' := by
  induction a generalizing b with
  | nil =>
    cases b with
    | nil => exact ⟨rfl, (cons.inj same).2⟩
    | cons => exact absurd ((cons.inj same).1 ▸ mem_cons_self) right
  | cons _ _ ih =>
    cases b with
    | nil => exact absurd ((cons.inj same).1 ▸ mem_cons_self) left
    | cons =>
      obtain ⟨rfl, later⟩ := cons.inj same
      obtain ⟨rfl, ended⟩ := ih (fun inside => left (mem_cons_of_mem _ inside))
        (fun inside => right (mem_cons_of_mem _ inside)) later
      exact ⟨rfl, ended⟩

/-- The inside of a quoted text. -/
inductive Content (quote escape : α) : List α → Prop
  | nil : Content quote escape []
  | plain {letter : α} (noQuote : letter ≠ quote) (noEscape : letter ≠ escape) {rest : List α} :
      Content quote escape rest → Content quote escape (letter :: rest)
  | escaped (letter : α) {rest : List α} :
      Content quote escape rest → Content quote escape (escape :: letter :: rest)

section

variable {quote escape : α}

theorem Content.append {a b : List α} (left : Content quote escape a)
    (right : Content quote escape b) : Content quote escape (a ++ b) := by
  induction left with
  | nil => exact right
  | plain noQuote noEscape _ ih => exact .plain noQuote noEscape ih
  | escaped letter _ ih => exact .escaped letter ih

theorem Content.flatMap {β : Type*} {f : β → List α} {list : List β}
    (each : ∀ b ∈ list, Content quote escape (f b)) : Content quote escape (list.flatMap f) := by
  induction list with
  | nil => exact .nil
  | cons b _ ih =>
    exact (each b mem_cons_self).append (ih fun c inside => each c (mem_cons_of_mem _ inside))

theorem Content.of_plain {a : List α} (plain : ∀ c ∈ a, c ≠ quote ∧ c ≠ escape) :
    Content quote escape a := by
  induction a with
  | nil => exact .nil
  | cons c _ ih =>
    have here := plain c mem_cons_self
    exact .plain here.1 here.2 (ih fun d inside => plain d (mem_cons_of_mem _ inside))

theorem Content.append_quote_inj (differ : quote ≠ escape) {a b : List α}
    (left : Content quote escape a) (right : Content quote escape b) {rest rest' : List α}
    (same : a ++ quote :: rest = b ++ quote :: rest') : a = b ∧ rest = rest' := by
  induction left generalizing b with
  | nil =>
    cases right with
    | nil => exact ⟨rfl, (cons.inj same).2⟩
    | plain noQuote => exact absurd (cons.inj same).1.symm noQuote
    | escaped => exact absurd (cons.inj same).1 differ
  | plain noQuote noEscape _ ih =>
    cases right with
    | nil => exact absurd (cons.inj same).1 noQuote
    | plain _ _ right =>
      obtain ⟨rfl, later⟩ := cons.inj same
      obtain ⟨rfl, ended⟩ := ih right later
      exact ⟨rfl, ended⟩
    | escaped => exact absurd (cons.inj same).1 noEscape
  | escaped _ _ ih =>
    cases right with
    | nil => exact absurd (cons.inj same).1.symm differ
    | plain _ noEscape => exact absurd (cons.inj same).1.symm noEscape
    | escaped _ right =>
      obtain ⟨rfl, later⟩ := cons.inj (cons.inj same).2
      obtain ⟨rfl, ended⟩ := ih right later
      exact ⟨rfl, ended⟩

theorem delimited_quoted (differ : quote ≠ escape) :
    Delimited fun text => ∃ a, Content quote escape a ∧ text = quote :: (a ++ [quote]) := by
  rintro _ _ ⟨_, left, rfl⟩ ⟨_, right, rfl⟩ _ _ same
  rw [cons_append, cons_append, append_assoc, append_assoc] at same
  obtain ⟨rfl, ended⟩ := left.append_quote_inj differ right (cons.inj same).2
  exact ⟨rfl, ended⟩

end

def tail (sep : α) (items : List (List α)) (rest : List α) : List α :=
  match items with
  | [] => rest
  | _ :: _ => sep :: ([sep].intercalate items ++ rest)

theorem intercalate_cons_append (sep : α) (item : List α) (items : List (List α)) (rest : List α) :
    [sep].intercalate (item :: items) ++ rest = item ++ tail sep items rest := by
  cases items with
  | nil => rw [intercalate_singleton, tail]
  | cons => simp [tail]

theorem eq_of_intercalate_eq {texts : List α → Prop} (delimited : Delimited texts) {sep close : α}
    (differ : sep ≠ close) (opens : ∀ a, texts a → ∃ c rest, a = c :: rest ∧ c ≠ close)
    {items others : List (List α)} (all : ∀ a ∈ items, texts a) (all' : ∀ a ∈ others, texts a)
    {rest rest' : List α}
    (same : [sep].intercalate items ++ close :: rest = [sep].intercalate others ++ close :: rest') :
    items = others ∧ rest = rest' := by
  -- a list that begins with an item does not begin with the closing letter
  have nonempty : ∀ {a : List α} {more : List (List α)} {ended ended' : List α}, texts a →
      close :: ended ≠ [sep].intercalate (a :: more) ++ ended' := by
    intro a _ ended _ inside equal
    obtain ⟨_, _, rfl, other⟩ := opens a inside
    rw [intercalate_cons_append] at equal
    exact other (cons.inj equal).1.symm
  induction items generalizing others with
  | nil =>
    cases others with
    | nil => exact ⟨rfl, (cons.inj same).2⟩
    | cons b => exact absurd same (nonempty (all' b mem_cons_self))
  | cons a items ih =>
    cases others with
    | nil => exact absurd same.symm (nonempty (all a mem_cons_self))
    | cons b others =>
      rw [intercalate_cons_append, intercalate_cons_append] at same
      obtain ⟨rfl, tails⟩ := delimited (all a mem_cons_self) (all' b mem_cons_self) same
      have later := ih (fun c inside => all c (mem_cons_of_mem _ inside))
        (fun c inside => all' c (mem_cons_of_mem _ inside))
      cases items with
      | nil =>
        cases others with
        | nil => exact ⟨rfl, (cons.inj tails).2⟩
        | cons => exact absurd (cons.inj tails).1.symm differ
      | cons =>
        cases others with
        | nil => exact absurd (cons.inj tails).1 differ
        | cons =>
          obtain ⟨equal, ended⟩ := later (cons.inj tails).2
          exact ⟨congrArg _ equal, ended⟩

end TheAuth.Library.Texts
