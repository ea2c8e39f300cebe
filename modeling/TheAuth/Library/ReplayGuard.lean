import Mathlib.Data.List.Dedup
import Mathlib.Data.List.Nodup
import Mathlib.Data.List.Perm.Subperm

/-!
# Guards against replays

A guard lets a request pass once: a memory admits its key when it does not hold it. A memory that
has room admits a key once, if nothing is presented after its deadline; where a request can pass the
checks after the deadline that the memory keeps, nothing follows.
-/

set_option autoImplicit false

namespace TheAuth.Library.ReplayGuard

open List Option

/-- A key and the times it comes with. -/
structure Presentation (κ T : Type*) where
  now : T
  key : κ
  deadline : T

def Presentation.mark {κ T : Type*} (p : Presentation κ T) : κ × T := (p.key, p.deadline)

/-- A memory of keys. -/
structure Memory (κ T M : Type*) [LE T] where
  past : T → T → Prop
  past_of_le : ∀ {deadline now later}, now ≤ later → past deadline now → past deadline later
  seen : M → κ → Option T
  size : M → ℕ
  fits : ℕ → Prop
  fits_of_le : ∀ {n k}, n ≤ k → fits k → fits n
  offer : M → Presentation κ T → Bool × M
  offer_iff : ∀ {m p}, (offer m p).1 = true ↔ ∀ d, seen m p.key = some d → past d p.now
  seen_admitted : ∀ {m p}, (offer m p).1 = true → seen (offer m p).2 p.key = some p.deadline
  keeps : ∀ {m p key d}, fits (size m) → seen m key = some d → ¬past d p.now →
    seen (offer m p).2 key = some d
  seen_of : ∀ {m p key d}, seen (offer m p).2 key = some d →
    (offer m p).1 = true ∧ key = p.key ∨ seen m key = some d
  size_offer : ∀ {m p}, size (offer m p).2 ≤ size m + if (offer m p).1 then 1 else 0

/-- The checks before the key is presented, the refusal of a replay, and what follows. -/
structure Guard (R E A κ T : Type*) where
  present : R → Except E (Presentation κ T)
  replayed : R → E
  finish : R → Except E A

variable {R E A κ T M : Type*} [LE T] (mem : Memory κ T M) (g : Guard R E A κ T)

def Guard.serve (m : M) (r : R) : Except E A × M :=
  match g.present r with
  | .error e => (.error e, m)
  | .ok p => (if (mem.offer m p).1 then g.finish r else .error (g.replayed r), (mem.offer m p).2)

def Guard.outcomes (m : M) : List R → List (Except E A)
  | [] => []
  | r :: rest => (g.serve mem m r).1 :: outcomes (g.serve mem m r).2 rest

def Guard.accepted (m : M) : List R → List R
  | [] => []
  | r :: rest =>
    if (g.serve mem m r).1.isOk then r :: accepted (g.serve mem m r).2 rest
    else accepted (g.serve mem m r).2 rest

def acceptedBy (step : M → R → Except E A × M) (m : M) : List R → List R
  | [] => []
  | r :: rest =>
    if (step m r).1.isOk then r :: acceptedBy step (step m r).2 rest
    else acceptedBy step (step m r).2 rest

def Guard.presented (r : R) : Option (Presentation κ T) := (g.present r).toOption

def Guard.mark (r : R) : Option (κ × T) := (g.presented r).map (·.mark)

/-- The requests come to the cache in the order of their times. -/
def Guard.InOrder (requests : List R) : Prop :=
  requests.Pairwise fun one two =>
    ∀ ⦃p q⦄, g.presented one = some p → g.presented two = some q → p.now ≤ q.now

variable {mem g}

theorem Guard.serve_of_error {m : M} {r : R} {e : E} (refused : g.present r = .error e) :
    g.serve mem m r = (.error e, m) := by
  rw [Guard.serve, refused]

theorem Guard.serve_of_ok {m : M} {r : R} {p : Presentation κ T} (here : g.present r = .ok p) :
    g.serve mem m r =
      (if (mem.offer m p).1 then g.finish r else .error (g.replayed r), (mem.offer m p).2) := by
  rw [Guard.serve, here]

theorem Guard.accepted_eq (m : M) (requests : List R) :
    g.accepted mem m requests = acceptedBy (g.serve mem) m requests := by
  induction requests generalizing m with
  | nil => rfl
  | cons _ _ ih => rw [Guard.accepted, acceptedBy, ih]

omit [LE T] in
theorem Guard.presented_eq_some {r : R} {p : Presentation κ T} :
    g.presented r = some p ↔ g.present r = .ok p := by
  unfold Guard.presented
  cases g.present r <;> simp [Except.toOption]

/-- Each mark is held, or over for all remaining requests. -/
structure Kept (mem : Memory κ T M) (g : Guard R E A κ T) (m : M) (marks : List (κ × T))
    (rest : List R) : Prop where
  nodup : marks.Nodup
  size : mem.size m ≤ marks.length
  held : ∀ mark ∈ marks, mem.seen m mark.1 = some mark.2 ∨
    ∀ r ∈ rest, ∀ ⦃p⦄, g.presented r = some p → mem.past mark.2 p.now

variable {m : M} {marks : List (κ × T)} {r : R} {rest : List R} {p : Presentation κ T}

section

variable (kept : Kept mem g m marks (r :: rest))
include kept

theorem Kept.skip : Kept mem g m marks rest where
  nodup := kept.nodup
  size := kept.size
  held mark inside := (kept.held mark inside).imp_right fun past q later => past q (.tail _ later)

theorem Kept.held_after (here : g.presented r = some p) (ordered : g.InOrder (r :: rest))
    (fits : mem.fits marks.length) {mark : κ × T} (inside : mark ∈ marks) :
    mem.seen (mem.offer m p).2 mark.1 = some mark.2 ∨
      ∀ q ∈ rest, ∀ ⦃later⦄, g.presented q = some later → mem.past mark.2 later.now := by
  have past_later : mem.past mark.2 p.now →
      ∀ q ∈ rest, ∀ ⦃later⦄, g.presented q = some later → mem.past mark.2 later.now :=
    fun past q inside later found =>
      mem.past_of_le ((pairwise_cons.mp ordered).1 q inside here found) past
  by_cases past : mem.past mark.2 p.now
  · exact .inr (past_later past)
  · rcases kept.held mark inside with seen | passed
    · exact .inl (mem.keeps (mem.fits_of_le kept.size fits) seen past)
    · exact absurd (passed r mem_cons_self here) past

theorem Kept.notMem_of_admitted (here : g.presented r = some p) (live : ¬mem.past p.deadline p.now)
    (admitted : (mem.offer m p).1 = true) : p.mark ∉ marks := by
  intro inside
  rcases kept.held _ inside with seen | passed
  · exact live (mem.offer_iff.mp admitted _ seen)
  · exact live (passed r mem_cons_self here)

theorem Kept.offer (here : g.presented r = some p) (ordered : g.InOrder (r :: rest))
    (live : ¬mem.past p.deadline p.now) (fits : mem.fits marks.length) :
    Kept mem g (mem.offer m p).2 (if (mem.offer m p).1 then p.mark :: marks else marks) rest := by
  have size := Nat.le_trans (@Memory.size_offer _ _ _ _ mem m p) (Nat.add_le_add_right kept.size _)
  cases admitted : (mem.offer m p).1 with
  | false =>
    rw [admitted] at size
    exact ⟨kept.nodup, size, fun mark inside =>
      kept.held_after here ordered fits inside⟩
  | true =>
    rw [admitted] at size
    refine ⟨nodup_cons.mpr ⟨kept.notMem_of_admitted here live admitted, kept.nodup⟩, size,
      fun mark inside => ?_⟩
    rcases mem_cons.mp inside with rfl | earlier
    · exact .inl (mem.seen_admitted admitted)
    · exact kept.held_after here ordered fits earlier

end

theorem Kept.accepted_nodup (kept : Kept mem g m marks rest) (ordered : g.InOrder rest)
    (live : ∀ r ∈ rest, ∀ ⦃p⦄, g.presented r = some p → ¬mem.past p.deadline p.now)
    (room : ∀ some_ : List (κ × T), some_.Nodup →
      (∀ mark ∈ some_, mark ∈ marks ∨ some mark ∈ rest.map g.mark) → mem.fits some_.length) :
    ((g.accepted mem m rest).map g.mark ++ marks.map some).Nodup := by
  -- On the requests; the marks that were admitted so far grow with them.
  induction rest generalizing m marks with
  | nil => exact kept.nodup.map fun _ _ same => some.inj same
  | cons r rest ih =>
    have ordered_rest : g.InOrder rest := (pairwise_cons.mp ordered).2
    have live_rest := fun q inside => live q (mem_cons_of_mem r inside)
    cases here : g.present r with
    | error =>
      rw [Guard.accepted, Guard.serve_of_error here]
      refine ih kept.skip ordered_rest live_rest fun some_ nodup among =>
        room some_ nodup fun mark inside => ?_
      exact (among mark inside).imp_right (mem_cons_of_mem _)
    | ok p =>
      have presented := Guard.presented_eq_some.mpr here
      have mark_eq : g.mark r = some p.mark := by rw [Guard.mark, presented]; rfl
      have next := kept.offer presented ordered (live r mem_cons_self presented)
        (room marks kept.nodup fun mark inside => .inl inside)
      have all := ih next ordered_rest live_rest fun some_ nodup among =>
        room some_ nodup fun mark inside => by
          rcases among mark inside with before | later
          · split at before
            · rcases mem_cons.mp before with rfl | earlier
              · exact .inr (mark_eq ▸ mem_cons_self)
              · exact .inl earlier
            · exact .inl before
          · exact .inr (mem_cons_of_mem _ later)
      rw [Guard.accepted, Guard.serve_of_ok here]
      cases admitted : (mem.offer m p).1 with
      | false => rwa [admitted] at all
      | true =>
        rw [admitted] at all
        simp only [if_true] at all ⊢
        split
        · rw [map_cons, mark_eq]
          exact (nodup_middle).mp all
        · exact all.sublist ((sublist_cons_self _ _).append_left _)

variable {requests : List R}

/-- **A guard accepts a mark once.** -/
theorem accepted_nodup (empty : mem.size m = 0) (ordered : g.InOrder requests)
    (live : ∀ r ∈ requests, ∀ ⦃p⦄, g.presented r = some p → ¬mem.past p.deadline p.now)
    (room : ∀ some_ : List (κ × T), some_.Nodup →
      (∀ mark ∈ some_, some mark ∈ requests.map g.mark) → mem.fits some_.length) :
    ((g.accepted mem m requests).map g.mark).Nodup := by
  have kept : Kept mem g m [] requests :=
    ⟨nodup_nil, Nat.le_of_eq empty, nofun⟩
  have all := kept.accepted_nodup ordered live fun some_ nodup among =>
    room some_ nodup fun mark inside => (among mark inside).resolve_left (nomatch ·)
  rwa [map_nil, append_nil] at all

theorem exists_presented_of_mem_accepted
    (inside : r ∈ g.accepted mem m requests) : ∃ p, g.presented r = some p := by
  induction requests generalizing m with
  | nil => cases inside
  | cons _ _ ih =>
    rw [Guard.accepted] at inside
    split at inside
    next done =>
      rcases mem_cons.mp inside with rfl | later
      · cases here : g.present r with
        | error =>
          rw [Guard.serve_of_error here] at done
          cases done
        | ok p => exact ⟨p, Guard.presented_eq_some.mpr here⟩
      · exact ih later
    · exact ih inside

theorem nodup_names {ν : Type*} (name : R → ν)
    (determines : ∀ {r q p p'}, g.presented r = some p → g.presented q = some p' →
      name r = name q → p.mark = p'.mark)
    (nodup : ((g.accepted mem m requests).map g.mark).Nodup) :
    ((g.accepted mem m requests).map name).Nodup := by
  rw [List.Nodup, pairwise_map] at nodup ⊢
  refine nodup.imp_of_mem fun {r q} one two different same => different ?_
  obtain ⟨_, here⟩ := exists_presented_of_mem_accepted one
  obtain ⟨_, there⟩ := exists_presented_of_mem_accepted two
  rw [Guard.mark, Guard.mark, here, there, map_some, map_some,
    determines here there same]

omit [LE T] in
theorem length_le_of_names {ν : Type*} [DecidableEq ν] {requests : List R} (name : R → ν)
    (determines : ∀ {r q p p'}, g.presented r = some p → g.presented q = some p' →
      name r = name q → p.mark = p'.mark)
    (nodup : marks.Nodup) (among : ∀ mark ∈ marks, some mark ∈ requests.map g.mark) :
    marks.length ≤ (requests.map name).dedup.length := by
  have source : ∀ mark : {mark // mark ∈ marks}, ∃ r ∈ requests, g.mark r = some mark.1 :=
    fun mark => mem_map.mp (among mark.1 mark.2)
  choose request inside marked using source
  -- each mark has the name of a request with that mark
  have names : (marks.attach.map fun mark => name (request mark)).Nodup := by
    refine (nodup_attach.mpr nodup).map fun one two same => ?_
    obtain ⟨_, here, first⟩ := map_eq_some_iff.mp (marked one)
    obtain ⟨_, there, second⟩ := map_eq_some_iff.mp (marked two)
    exact Subtype.ext (by rw [← first, ← second, determines here there same])
  have subset : (marks.attach.map fun mark => name (request mark)) ⊆ (requests.map name).dedup := by
    intro _ member
    obtain ⟨mark, -, rfl⟩ := mem_map.mp member
    exact mem_dedup.mpr (mem_map_of_mem (inside mark))
  have shorter := (names.subperm subset).length_le
  rwa [length_map, length_attach] at shorter

/-- From a time on, about every key but one. -/
def Agree (mem : Memory κ T M) (key : κ) (now : T) (one two : M) : Prop :=
  ∀ ⦃other d⦄, other ≠ key → ¬mem.past d now →
    (mem.seen one other = some d ↔ mem.seen two other = some d)

variable {key : κ} {now : T} {one two : M}

section

variable (agree : Agree mem key now one two)
include agree

theorem Agree.symm : Agree mem key now two one :=
  fun _ _ different live => (agree different live).symm

theorem Agree.admitted_of (later : now ≤ p.now)
    (different : p.key ≠ key) (admitted : (mem.offer one p).1 = true) :
    (mem.offer two p).1 = true := by
  refine mem.offer_iff.mpr fun d seen => ?_
  by_contra live
  have live_now : ¬mem.past d now := fun past => live (mem.past_of_le later past)
  exact live (mem.offer_iff.mp admitted d ((agree different live_now).mpr seen))

theorem Agree.offer_fst (later : now ≤ p.now)
    (different : p.key ≠ key) : (mem.offer one p).1 = (mem.offer two p).1 :=
  Bool.eq_iff_iff.mpr ⟨agree.admitted_of later different, agree.symm.admitted_of later different⟩

theorem Agree.seen_of (unlimited : ∀ n, mem.fits n)
    (later : now ≤ p.now) (different : p.key ≠ key) {other : κ} {d : T} (else_ : other ≠ key)
    (live : ¬mem.past d p.now) (seen : mem.seen (mem.offer one p).2 other = some d) :
    mem.seen (mem.offer two p).2 other = some d := by
  rcases mem.seen_of seen with ⟨admitted, rfl⟩ | before
  · rw [← seen, mem.seen_admitted admitted,
      mem.seen_admitted (agree.admitted_of later different admitted)]
  · have live_now : ¬mem.past d now := fun past => live (mem.past_of_le later past)
    exact mem.keeps (unlimited _) ((agree else_ live_now).mp before) live

theorem Agree.offer (unlimited : ∀ n, mem.fits n) (later : now ≤ p.now) (different : p.key ≠ key) :
    Agree mem key p.now (mem.offer one p).2 (mem.offer two p).2 :=
  fun _ _ else_ live =>
    ⟨agree.seen_of unlimited later different else_ live,
      agree.symm.seen_of unlimited later different else_ live⟩

end

theorem agree_offer (unlimited : ∀ n, mem.fits n) (m : M) (p : Presentation κ T) :
    Agree mem p.key p.now (mem.offer m p).2 m := by
  intro _ _ different live
  refine ⟨fun seen => ?_, fun seen => mem.keeps (unlimited _) seen live⟩
  rcases mem.seen_of seen with ⟨-, same⟩ | before
  · exact absurd same different
  · exact before

theorem Agree.outcomes_eq (agree : Agree mem key now one two)
    (unlimited : ∀ n, mem.fits n) (ordered : g.InOrder requests)
    (others : ∀ r ∈ requests, ∀ ⦃p⦄, g.presented r = some p → now ≤ p.now ∧ p.key ≠ key) :
    g.outcomes mem one requests = g.outcomes mem two requests := by
  induction requests generalizing now one two with
  | nil => rfl
  | cons r _ ih =>
    have others_rest := fun q inside => others q (mem_cons_of_mem r inside)
    obtain ⟨before, ordered_rest⟩ := pairwise_cons.mp ordered
    rw [Guard.outcomes, Guard.outcomes]
    cases here : g.present r with
    | error =>
      rw [Guard.serve_of_error here, Guard.serve_of_error here]
      exact congrArg _ (ih agree ordered_rest others_rest)
    | ok =>
      have presented := Guard.presented_eq_some.mpr here
      obtain ⟨later, different⟩ := others r mem_cons_self presented
      rw [Guard.serve_of_ok here, Guard.serve_of_ok here, agree.offer_fst later different]
      refine congrArg _ (ih (agree.offer unlimited later different) ordered_rest ?_)
      intro q inside _ found
      exact ⟨before q inside presented found, (others_rest q inside found).2⟩

/-- **A request changes nothing for later requests with other keys.** -/
theorem outcomes_after (m : M) (unlimited : ∀ n, mem.fits n) (ordered : g.InOrder (r :: requests))
    (others : ∀ ⦃p⦄, g.presented r = some p →
      ∀ q ∈ requests, ∀ ⦃later⦄, g.presented q = some later → later.key ≠ p.key) :
    g.outcomes mem (g.serve mem m r).2 requests = g.outcomes mem m requests := by
  obtain ⟨before, ordered_rest⟩ := pairwise_cons.mp ordered
  cases here : g.present r with
  | error => rw [Guard.serve_of_error here]
  | ok p =>
    have presented := Guard.presented_eq_some.mpr here
    rw [Guard.serve_of_ok here]
    refine (agree_offer unlimited m p).outcomes_eq unlimited ordered_rest ?_
    intro q inside _ found
    exact ⟨before q inside presented found, others presented q inside found⟩

end TheAuth.Library.ReplayGuard
