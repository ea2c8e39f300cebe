import Mathlib.Data.List.Chain

/-!
# Chains of derived items

An item is made from the one before it. What holds at one link holds at all, and a transitive
relation between neighbours holds between any two items.
-/

set_option autoImplicit false

namespace TheAuth.Library.Chain

open List

variable {T C : Type*}

/-- Between an item, how the next one is made, and the next one. -/
def Links (link : T → C → T → Prop) : T → List (C × T) → Prop
  | _, [] => True
  | first, (how, next) :: rest => link first how next ∧ Links link next rest

instance Links.decidable (link : T → C → T → Prop)
    [∀ before how after, Decidable (link before how after)] :
    ∀ (first : T) (chain : List (C × T)), Decidable (Links link first chain)
  | _, [] => isTrue trivial
  | first, (how, next) :: rest =>
    have := Links.decidable link next rest
    inferInstanceAs (Decidable (link first how next ∧ Links link next rest))

def items (first : T) (chain : List (C × T)) : List T := first :: chain.map Prod.snd

variable {chain : List (C × T)} {first : T}

theorem Links.mono {link weaker : T → C → T → Prop}
    (implies : ∀ {before how after}, link before how after → weaker before how after)
    (links : Links link first chain) : Links weaker first chain := by
  induction chain generalizing first with
  | nil => trivial
  | cons _ _ ih => exact ⟨implies links.1, ih links.2⟩

theorem Links.of_forall (holds : C → Prop)
    (all : ∀ entry ∈ chain, holds entry.1) : Links (fun _ how _ => holds how) first chain := by
  induction chain generalizing first with
  | nil => trivial
  | cons entry _ ih =>
    exact ⟨all entry mem_cons_self, ih fun later inside => all later (.tail _ inside)⟩

theorem Links.and {one two : T → C → T → Prop}
    (left : Links one first chain) (right : Links two first chain) :
    Links (fun before how after => one before how after ∧ two before how after) first chain := by
  induction chain generalizing first with
  | nil => trivial
  | cons _ _ ih => exact ⟨⟨left.1, right.1⟩, ih left.2 right.2⟩

theorem Links.pairwise {related : T → T → Prop} [IsTrans T related]
    (links : Links (fun before _ after => related before after) first chain) :
    (items first chain).Pairwise related := by
  rw [← isChain_iff_pairwise]
  induction chain generalizing first with
  | nil => exact isChain_singleton first
  | cons _ _ ih => exact isChain_cons_cons.mpr ⟨links.1, ih links.2⟩

end TheAuth.Library.Chain
