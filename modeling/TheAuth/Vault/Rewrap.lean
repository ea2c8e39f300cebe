import TheAuth.Vault.Versions

/-!
# Sealing everything under the active key

`Rewrap` takes a lost swap for a write that has sealed the credential already. A refresh that copies
blobs which it has read may store ones under an older key: then `Rewrap` returns without an error
though the credential still needs that key.
-/

set_option autoImplicit false

namespace TheAuth.Vault

open Go Library Library.Run List VaultStore Option GoMap

/-- Identifiers are distinct and not empty. -/
structure DistinctIDs (store : VaultStore) : Prop where
  named : ∀ ⦃key row⦄, store.rows.lookup key = some row → row.id ≠ []
  distinct : ∀ ⦃key key' row row'⦄, store.rows.lookup key = some row →
    store.rows.lookup key' = some row' → row.id = row'.id → key = key'

/-- A new row gets an unused identifier. -/
def FreshID (s : System) (act : Action) : Prop :=
  act.answers.newID ≠ [] ∧
    ∀ key row, s.store.rows.lookup key = some row → row.id ≠ act.answers.newID

theorem freshID_of_values {s : System} {act : Action}
    (unused : act.answers.newID ≠ [] ∧ ∀ row ∈ s.store.rows.values, row.id ≠ act.answers.newID) :
    FreshID s act :=
  ⟨unused.1, fun key row found => unused.2 row (mem_values.mpr ⟨key, found⟩)⟩

section

variable {cfg : Config} {requests : ℕ → Request} {s next : System} {act : Action}
  {row : VaultCredential}

theorem DistinctIDs.write {store : VaultStore} (ids : DistinctIDs store)
    (own : (∃ old, store.rows.lookup row.key = some old ∧ row.id = old.id) ∨
      row.id ≠ [] ∧ ∀ key other, store.rows.lookup key = some other → other.id ≠ row.id) :
    DistinctIDs (store.write row) := by
  have cases {key : Bytes} {there : VaultCredential}
      (found : (store.write row).rows.lookup key = some there) :
      key = row.key ∧ there = row ∨ store.rows.lookup key = some there := by
    rw [lookup_write] at found
    split at found
    next same => exact .inl ⟨same, (some.inj found).symm⟩
    · exact .inr found
  have unlike {key : Bytes} {other : VaultCredential}
      (found : store.rows.lookup key = some other) (same : row.id = other.id) : key = row.key := by
    rcases own with ⟨old, here, kept⟩ | ⟨-, fresh⟩
    · exact (ids.distinct here found (kept.symm.trans same)).symm
    · exact absurd same.symm (fresh key other found)
  constructor
  · intro key there found
    rcases cases found with ⟨-, rfl⟩ | before
    · rcases own with ⟨_, here, kept⟩ | ⟨named, -⟩
      · rw [kept]
        exact ids.named here
      · exact named
    · exact ids.named before
  · intro _ _ _ _ found found' same
    rcases cases found with ⟨rfl, rfl⟩ | before <;> rcases cases found' with ⟨rfl, rfl⟩ | before'
    · rfl
    · exact (unlike before' same).symm
    · exact unlike before same.symm
    · exact ids.distinct before before' same

theorem DistinctIDs.delete {store : VaultStore} (ids : DistinctIDs store) (deleted : Bytes) :
    DistinctIDs (store.deleteVaultCredential deleted) := by
  have before {key : Bytes} {row : VaultCredential}
      (found : (store.deleteVaultCredential deleted).rows.lookup key = some row) :
      store.rows.lookup key = some row := by
    rw [lookup_deleteVaultCredential] at found
    split at found
    · cases found
    · exact found
  exact ⟨fun _ _ found => ids.named (before found),
    fun _ _ _ _ found found' => ids.distinct (before found) (before found')⟩

theorem distinctIDs_step (ids : DistinctIDs s.store) (fresh : FreshID s act)
    (taken : step cfg requests s act = some next) : DistinctIDs next.store := by
  obtain ⟨_, _, done, rfl⟩ := step_eq_some.mp taken
  cases origin_of_operate done with
  | quiet => exact ids
  | disconnect => exact ids.delete _
  | @connect _ c _ _ made =>
    refine ids.write ?_
    rw [key_putVaultCredential]
    unfold putVaultCredential
    cases found : s.store.rows.lookup c.key with
    | some old => exact .inl ⟨old, rfl, rfl⟩
    | none =>
      have unnamed : c.id = [] := by
        obtain ⟨_, -, made⟩ := bind_eq_some_iff.mp made
        obtain ⟨_, -, made⟩ := bind_eq_some_iff.mp made
        cases made
        rfl
      rw [if_pos unnamed]
      exact .inr fresh
  | refresh _ found | rewrap _ found => exact ids.write (.inl ⟨_, found, rfl⟩)

end

section

variable {s : System} {row : VaultCredential}

instance : Std.Total fun a b : VaultCredential => a.id ≤ b.id :=
  ⟨fun a b => List.le_total a.id b.id⟩

instance : IsTrans VaultCredential fun a b => a.id ≤ b.id :=
  ⟨fun _ _ _ first second => List.le_trans first second⟩

def pageEnd (page : List (Reading VaultCredential)) : Bytes :=
  (page.map fun read => read.row.id).getLastD []

theorem scan_covers (ids : DistinctIDs s.store) {after key : Bytes}
    (found : s.store.rows.lookup key = some row) (behind : after < row.id) (limit : ℕ) :
    row ∈ s.store.scanVaultCredentials after limit ∨
      ∀ c ∈ s.store.scanVaultCredentials after limit, c.id < row.id := by
  have listed : row ∈ (s.store.rows.values.filter fun c => decide (after < c.id)).insertionSort
      fun a b => a.id ≤ b.id := by
    rw [mem_insertionSort, mem_filter, decide_eq_true_iff]
    exact ⟨mem_values.mpr ⟨key, found⟩, behind⟩
  have sorted := pairwise_insertionSort (fun a b : VaultCredential => a.id ≤ b.id)
    (s.store.rows.values.filter fun c => decide (after < c.id))
  rw [← take_append_drop limit (insertionSort _ _)] at listed sorted
  rcases mem_append.mp listed with here | later
  · exact .inl here
  · by_cases here : row ∈ (insertionSort (fun a b : VaultCredential => a.id ≤ b.id)
      (s.store.rows.values.filter fun c => decide (after < c.id))).take limit
    · exact .inl here
    · refine .inr fun c scanned => ?_
      refine Std.lt_of_le_of_ne ((pairwise_append.mp sorted).2.2 c scanned row later) ?_
      intro same
      have stored : s.store.rows.lookup c.key = some c := (mem_of_mem_scan scanned).1
      obtain rfl := ids.distinct stored found same
      obtain rfl : c = row := some.inj (stored.symm.trans found)
      exact here scanned

theorem scan_empty {after key : Bytes} (found : s.store.rows.lookup key = some row)
    (empty : s.store.scanVaultCredentials after 100 = []) : ¬ after < row.id := by
  intro behind
  have listed : row ∈ (s.store.rows.values.filter fun c => decide (after < c.id)).insertionSort
      fun a b => a.id ≤ b.id := by
    rw [mem_insertionSort, mem_filter, decide_eq_true_iff]
    exact ⟨mem_values.mpr ⟨key, found⟩, behind⟩
  rcases take_eq_nil_iff.mp empty with zero | none
  · cases zero
  · rw [none] at listed
    cases listed

theorem pageEnd_append (seen : List (Reading VaultCredential)) (read : Reading VaultCredential)
    (rest : List (Reading VaultCredential)) :
    pageEnd (seen ++ read :: rest) = pageEnd (read :: rest) := by
  unfold pageEnd
  rw [map_append, getLastD_eq_getLast?, getLastD_eq_getLast?, map_cons, getLast?_append_cons]

variable {page : List (Reading VaultCredential)}

theorem pageEnd_mem (nonempty : page ≠ []) :
    ∃ read ∈ page, pageEnd page = read.row.id := by
  have last := getLast_mem (l := page.map fun read => read.row.id)
    (fun empty => nonempty (map_eq_nil_iff.mp empty))
  obtain ⟨read, listed, same⟩ := mem_map.mp last
  refine ⟨read, listed, ?_⟩
  rw [same, pageEnd, getLastD_eq_getLast?, getLast?_eq_some_getLast, getD_some]

end

/-! ## What is still ahead -/

/-- It has the row on its page or will scan it. Nothing is said of other calls. -/
def Ahead : Phase → VaultCredential → Prop
  | .scanning after _, row => after < row.id
  | .rewrapping read _ rest _, row =>
    (∃ held ∈ read :: rest, held.row = row) ∨ pageEnd (read :: rest) < row.id
  | .rewrapped _, _ => False
  | _, _ => True

/-- What a call other than `r` writes is sealed under the active key. -/
def SealsActive (cfg : Config) (requests : ℕ → Request) (r : ℕ) (s : System) (act : Action) :
    Prop :=
  act.call ≠ r → ∀ phase row tokens,
    operate cfg s (requests act.call) act.answers (s.phase act.call) =
      some (phase, .write row tokens) → SealedActive cfg row

section

variable {cfg : Config} {s : System} {a : Answers} {row : VaultCredential}

theorem ahead_of_ended {phase : Phase} (ended : phase.Ended) : Ahead phase row := by
  cases phase <;> trivial

theorem ahead_afterSwap (token : TokenRequest) (refreshed : Option Contents) (swapped : Bool) :
    Ahead (afterSwap token refreshed swapped) row := by
  unfold afterSwap
  split
  · trivial
  · split <;> trivial

variable {moved : ℕ} {page : List (Reading VaultCredential)}

theorem ahead_rewrapFrom {after : Bytes}
    (ahead : (∃ held ∈ page, held.row = row) ∨
      (page.map fun read => read.row.id).getLastD after < row.id) :
    SealedActive cfg row ∨ Ahead (rewrapFrom cfg a moved after page) row := by
  rcases rewrapFrom_cases cfg a moved after page with
    ⟨e, same⟩ | ⟨seen, read, rest, rfl, sealed, next, -, -, -, -, same⟩ | ⟨sealed, same⟩
  · rw [same]
    exact .inr trivial
  · rw [same]
    rcases ahead with ⟨held, listed, rfl⟩ | behind
    · rcases mem_append.mp listed with early | late
      · exact .inl (sealed held early)
      · exact .inr (.inl ⟨held, late, rfl⟩)
    · refine .inr (.inr ?_)
      rw [← pageEnd_append seen]
      unfold pageEnd
      rw [map_append, map_cons, getLastD_eq_getLast?, getLast?_append_cons] at behind ⊢
      exact behind
  · rw [same]
    rcases ahead with ⟨held, listed, rfl⟩ | behind
    · exact .inl (sealed held listed)
    · exact .inr behind

theorem ahead_scanPage (ids : DistinctIDs s.store) {after key : Bytes}
    (found : s.store.rows.lookup key = some row) (behind : after < row.id) :
    SealedActive cfg row ∨ Ahead (scanPage cfg s after moved a) row := by
  rcases scanPage_cases cfg s a after moved with ⟨empty, -⟩ | ⟨nonempty, same⟩
  · exact absurd behind (scan_empty found empty)
  · rw [same]
    apply ahead_rewrapFrom
    rcases scan_covers ids found behind 100 with here | below
    · exact .inl ⟨_, mem_map.mpr ⟨row, here, rfl⟩, rfl⟩
    · refine .inr ?_
      have some_read : ((s.store.scanVaultCredentials after 100).map fun c =>
          (⟨s.life c.key, c⟩ : Reading VaultCredential)) ≠ [] :=
        fun empty => nonempty (map_eq_nil_iff.mp empty)
      obtain ⟨read, listed, last⟩ := pageEnd_mem some_read
      obtain ⟨c, scanned, rfl⟩ := mem_map.mp listed
      have above := below c scanned
      have ends : (((s.store.scanVaultCredentials after 100).map fun c =>
          (⟨s.life c.key, c⟩ : Reading VaultCredential)).map fun read =>
            read.row.id).getLastD after = c.id := by
        rw [← last]
        unfold pageEnd
        rw [getLastD_eq_getLast?, getLastD_eq_getLast?,
          getLast?_eq_some_getLast (fun empty => some_read (map_eq_nil_iff.mp empty))]
        rfl
      rw [ends]
      exact above

theorem ahead_rewrapping {read : Reading VaultCredential} {rest : List (Reading VaultCredential)}
    (ahead : (∃ held ∈ read :: rest, held.row = row) ∨ pageEnd (read :: rest) < row.id)
    (other : row ≠ read.row) :
    SealedActive cfg row ∨ Ahead (rewrapFrom cfg a moved read.row.id rest) row := by
  apply ahead_rewrapFrom
  rcases ahead with ⟨held, listed, rfl⟩ | behind
  · rcases mem_cons.mp listed with rfl | later
    · exact absurd rfl other
    · exact .inl ⟨held, later, rfl⟩
  · refine .inr ?_
    unfold pageEnd at behind
    rwa [map_cons, getLastD_cons] at behind

variable {key : Bytes}

theorem ahead_of_operate {request : Request} {old phase : Phase} {effect : Effect}
    (ids : DistinctIDs s.store) (prepared : Prepared cfg old)
    (done : operate cfg s request a old = some (phase, effect))
    (found : s.store.rows.lookup key = some row)
    (stays : (s.apply effect).store.rows.lookup key = some row)
    (ahead : Ahead old row) : SealedActive cfg row ∨ Ahead phase row := by
  cases operated_of_operate done with
  | quits _ ended | disconnects _ ended | connects _ _ ended => exact .inr (ahead_of_ended ended)
  | begins | issues | marks | refreshes => exact .inr trivial
  | swaps done =>
    obtain ⟨rfl, -, -⟩ | ⟨-, -, -, rfl, -⟩ := swap_cases done
    all_goals exact .inr (ahead_afterSwap _ _ _)
  | scans here =>
    rcases here with rfl | ⟨rfl, rfl⟩
    · exact ahead_scanPage ids found ahead
    · refine ahead_scanPage ids found ?_
      cases same : row.id with
      | nil => exact absurd same (ids.named found)
      | cons b rest => exact nil_lt_cons b rest
  | @rewraps read next _ _ _ _ done =>
    have key_eq : next.key = read.row.key := by
      cases prepared with
      | rewrapping key => exact key
      | other nothing => cases nothing
    have own : row.key = key := s.store.keyed found
    obtain ⟨rfl, rfl, lost⟩ | ⟨old, there, _, rfl, rfl⟩ := swap_cases done
    · refine ahead_rewrapping ahead ?_
      rintro rfl
      rw [key_eq, own] at lost
      exact lost read.row found rfl
    · refine ahead_rewrapping ahead ?_
      rintro rfl
      -- the swap has replaced this row, so it does not stay
      have here : key = (swappedRow next old a.storeNow).key := own.symm.trans key_eq.symm
      change (s.store.write _).rows.lookup key = _ at stays
      rw [lookup_write, if_pos here] at stays
      rw [key_eq, own, found] at there
      cases there
      have version := congrArg VaultCredential.version (some.inj stays)
      exact absurd version (Int.ne_of_gt (Int.lt_add_one_iff.mpr (Int.le_refl _)))

/-- The blobs that `Rewrap` itself writes are sealed under the active key. -/
theorem sealed_of_write {request : Request} {old phase : Phase} {tokens : Option Contents}
    (prepared : Prepared cfg old)
    (done : operate cfg s request a old = some (phase, .write row tokens)) :
    SealedActive cfg row ∨ Ahead phase row := by
  generalize written : Effect.write row tokens = effect at done
  cases operated_of_operate done with
  | quits | disconnects | begins | issues | marks | refreshes | scans => cases written
  | connects _ _ ended => exact .inr (ahead_of_ended ended)
  | swaps done =>
    obtain ⟨rfl, -, -⟩ | ⟨-, -, -, rfl, -⟩ := swap_cases done
    all_goals exact .inr (ahead_afterSwap _ _ _)
  | rewraps done =>
    obtain ⟨-, rfl, -⟩ | ⟨_, -, -, -, rfl⟩ := swap_cases done
    all_goals cases written
    cases prepared with
    | rewrapping _ _ _ sealed => exact .inl sealed
    | other nothing => cases nothing

end

/-! ## Contents -/

section

variable {cfg : Config} {requests : ℕ → Request} {s next : System} {act : Action} {key : Bytes}
  {row : VaultCredential}

theorem contents_connectedRow {input : ConnectInput} {a : Answers} {c : VaultCredential}
    (made : connectedRow cfg input a = some c) : contents cfg c = input.contents := by
  obtain ⟨_, first, made⟩ := bind_eq_some_iff.mp made
  obtain ⟨_, second, made⟩ := bind_eq_some_iff.mp made
  cases made
  unfold contents ConnectInput.contents
  congr 1
  · rw [KeyRing.open_seal first]
    rfl
  · unfold sealRefresh at second
    split at second
    next none =>
      cases second
      rw [if_pos none]
      rfl
    rename_i some
    rw [if_neg some, KeyRing.open_seal second]
    rfl

theorem contents_putVaultCredential {store : VaultStore} (c : VaultCredential) (newID : Bytes)
    (now : Time) : contents cfg (store.putVaultCredential c newID now) = contents cfg c := by
  unfold putVaultCredential
  split <;> rfl

theorem contents_of_write (sound : Sound cfg s) {phase : Phase} {tokens : Option Contents}
    (done : operate cfg s (requests act.call) act.answers (s.phase act.call) =
      some (phase, .write row tokens)) :
    tokens = some (contents cfg row) ∨
      ∃ old, s.store.rows.lookup row.key = some old ∧ contents cfg row = contents cfg old := by
  have prepared := sound.prepared act.call
  have fits := sound.fits act.call
  generalize written : Effect.write row tokens = effect at done
  cases origin_of_operate done with
  | quiet | disconnect => cases written
  | @connect _ _ _ _ made =>
    cases written
    rw [contents_putVaultCredential, contents_connectedRow made]
    exact .inl rfl
  | @refresh _ read _ _ refreshed here found same =>
    cases written
    rw [here] at prepared fits
    cases prepared with
    | marking =>
      obtain ⟨-, rfl⟩ := (fits read (mem_singleton_self _)).same found same
      exact .inr ⟨read.row, found, rfl⟩
    | refreshed _ holds =>
      subst holds
      exact .inl rfl
    | other nothing => cases nothing
  | @rewrap read _ _ _ _ here found same =>
    cases written
    rw [here] at prepared fits
    cases prepared with
    | rewrapping key _ holds =>
      have held := found
      rw [key] at held
      obtain ⟨-, rfl⟩ := (fits read mem_cons_self).same held same
      exact .inr ⟨read.row, found, holds⟩
    | other nothing => cases nothing

theorem life_le (taken : step cfg requests s act = some next) (key : Bytes) :
    s.life key ≤ next.life key := by
  have stepped := cell_step taken key
  generalize before : s.cell key = c at stepped
  generalize after : next.cell key = c' at stepped
  have start : s.life key = c.life := congrArg Cell.life before
  have end_ : next.life key = c'.life := congrArg Cell.life after
  rw [start, end_]
  cases stepped with
  | stay | replace | create => exact Nat.le_refl _
  | empty => exact Nat.le_succ _

/-- With the tokens that it had then or that were stored since. -/
structure Kept (cfg : Config) (start s : System) (key : Bytes) (row₀ : VaultCredential) :
    Prop where
  past : start.life key ≤ s.life key
  here : s.life key = start.life key → ∃ row new, s.store.rows.lookup key = some row ∧
    s.stored = new ++ start.stored ∧
    (contents cfg row = contents cfg row₀ ∨ (key, contents cfg row) ∈ new)

theorem kept_step {start : System} {row₀ : VaultCredential} (sound : Sound cfg s)
    (kept : Kept cfg start s key row₀) (taken : step cfg requests s act = some next) :
    Kept cfg start next key row₀ := by
  have mono := life_le taken key
  refine ⟨Nat.le_trans kept.past mono, fun same => ?_⟩
  obtain ⟨row, new, found, grown, tokens⟩ := kept.here (Nat.le_antisymm (same ▸ mono) kept.past)
  obtain ⟨_, effect, done, rfl⟩ := step_eq_some.mp taken
  cases effect with
  | quiet => exact ⟨row, new, found, grown, tokens⟩
  | write written stored =>
    have longer : (s.apply (.write written stored)).stored =
        (stored.map fun c => (written.key, c)).toList ++ new ++ start.stored := by
      rw [append_assoc, ← grown]
      rfl
    by_cases here : key = written.key
    · have replaced : (s.store.write written).rows.lookup key = some written := by
        rw [lookup_write, if_pos here]
      refine ⟨written, _, replaced, longer, ?_⟩
      rcases contents_of_write sound done with recorded | ⟨_, there, carried⟩
      · refine .inr (mem_append_left _ ?_)
        rw [recorded, here]
        exact mem_singleton_self _
      · rw [← here, found] at there
        cases there
        rw [carried]
        exact tokens.imp_right (mem_append_right _)
    · have unchanged : (s.store.write written).rows.lookup key = some row := by
        rw [lookup_write, if_neg here]
        exact found
      exact ⟨row, _, unchanged, longer, tokens.imp_right (mem_append_right _)⟩
  | delete deleted =>
    have other : key ≠ deleted := by
      rintro rfl
      have up : Function.update s.life key (s.life key + 1) key = start.life key := same
      rw [Function.update_self] at up
      have past := kept.past
      omega
    refine ⟨row, new, ?_, grown, tokens⟩
    change (s.store.deleteVaultCredential deleted).rows.lookup key = _
    rw [lookup_deleteVaultCredential, if_neg other]
    exact found

end

/-! ## The invariant -/

/-- Sealed under the active key, or the call will still look at it. -/
structure Rewraps (cfg : Config) (start : System) (r : ℕ) (s : System) : Prop where
  sound : Sound cfg s
  ids : DistinctIDs s.store
  kept : ∀ ⦃key row₀⦄, start.store.rows.lookup key = some row₀ → Kept cfg start s key row₀
  sealed : ∀ ⦃key row₀⦄, start.store.rows.lookup key = some row₀ →
    s.life key = start.life key → ∀ row, s.store.rows.lookup key = some row →
      SealedActive cfg row ∨ Ahead (s.phase r) row

/-- And no later life of a credential comes to a version that was read. -/
def Orderly (cfg : Config) (requests : ℕ → Request) (s : System) (act : Action) : Prop :=
  FreshID s act ∧ Unrevived cfg requests s act

section

variable {cfg : Config} {requests : ℕ → Request} {start s next : System} {act : Action} {r : ℕ}
  {key : Bytes} {row : VaultCredential}

theorem rewraps_start (sound : Sound cfg s) (ids : DistinctIDs s.store)
    (starts : s.phase r = .ready) : Rewraps cfg s r s where
  sound
  ids
  kept key row₀ found := ⟨Nat.le_refl _, fun _ => ⟨row₀, [], found, rfl, .inl rfl⟩⟩
  sealed key row₀ _ _ row _ := by
    rw [starts]
    exact .inr trivial

theorem sealed_step (rewraps : Rewraps cfg start r s) (seals : SealsActive cfg requests r s act)
    (taken : step cfg requests s act = some next) {row₀ : VaultCredential}
    (there : start.store.rows.lookup key = some row₀) (same : next.life key = start.life key)
    (found : next.store.rows.lookup key = some row) :
    SealedActive cfg row ∨ Ahead (next.phase r) row := by
  have alive : s.life key = start.life key :=
    Nat.le_antisymm (same ▸ life_le taken key) (rewraps.kept there).past
  have before := rewraps.sealed there alive row
  obtain ⟨phase, effect, done, rfl⟩ := step_eq_some.mp taken
  dsimp only
  have kept (unchanged : s.store.rows.lookup key = some row) :
      SealedActive cfg row ∨ Ahead (Function.update s.phase act.call phase r) row := by
    rcases before unchanged with sealed | ahead
    · exact .inl sealed
    by_cases own : r = act.call
    · subst own
      rw [Function.update_self]
      exact ahead_of_operate rewraps.ids (rewraps.sound.prepared _) done unchanged found ahead
    · rw [Function.update_of_ne own]
      exact .inr ahead
  cases effect with
  | quiet => exact kept found
  | write written stored =>
    change (s.store.write written).rows.lookup key = _ at found
    rw [lookup_write] at found
    split at found
    · cases found
      by_cases own : r = act.call
      · subst own
        rw [Function.update_self]
        exact sealed_of_write (rewraps.sound.prepared _) done
      · exact .inl (seals (Ne.symm own) phase row stored done)
    · exact kept found
  | delete deleted =>
    change (s.store.deleteVaultCredential deleted).rows.lookup key = _ at found
    rw [lookup_deleteVaultCredential] at found
    split at found
    · cases found
    · exact kept found

theorem rewraps_step (rewraps : Rewraps cfg start r s)
    (allowed : Orderly cfg requests s act ∧ SealsActive cfg requests r s act)
    (taken : step cfg requests s act = some next) : Rewraps cfg start r next where
  sound := sound_step rewraps.sound allowed.1.2 taken
  ids := distinctIDs_step rewraps.ids allowed.1.1 taken
  kept _ _ found := kept_step rewraps.sound (rewraps.kept found) taken
  sealed _ _ there same _ found := sealed_step rewraps allowed.2 taken there same found

theorem contents_of_sealed {other : Config}
    (same : other.keys.aeads cfg.keys.active = cfg.keys.aeads cfg.keys.active)
    (sealed : SealedActive cfg row) : contents other row = contents cfg row := by
  have opens {blob aad : Bytes} (named : blob = [] ∨ keyID blob = .ok cfg.keys.active) :
      other.keys.open_ blob aad = cfg.keys.open_ blob aad := by
    unfold KeyRing.open_
    rcases named with rfl | named
    · rfl
    · unfold keyID at named
      split at named <;> cases named
      rw [same]
  unfold contents
  rw [opens sealed.1, opens sealed.2]

end

/-- **A call of `Rewrap` that returns without an error leaves nothing under an older key**, where
every row that other calls write meanwhile is sealed under the active key. -/
theorem rewrap_moves_everything (cfg : Config) (requests : ℕ → Request) (store : VaultStore)
    (before during : List Action) (start last : System) (r moved : ℕ) (ids : DistinctIDs store)
    (came : run (step cfg requests) (.initial store) before = some start)
    (ran : run (step cfg requests) start during = some last)
    (starts : start.phase r = .ready) (returned : last.phase r = .rewrapped moved)
    (orderly : Throughout (step cfg requests) (Orderly cfg requests) (.initial store) before)
    (seals : Throughout (step cfg requests)
      (fun s act => Orderly cfg requests s act ∧ SealsActive cfg requests r s act) start during) :
    ∀ key row₀, start.store.rows.lookup key = some row₀ → last.life key = start.life key →
      ∃ row new, last.store.rows.lookup key = some row ∧ SealedActive cfg row ∧
        last.stored = new ++ start.stored ∧
        (contents cfg row = contents cfg row₀ ∨ (key, contents cfg row) ∈ new) ∧
        ∀ other : Config, other.keys.aeads cfg.keys.active = cfg.keys.aeads cfg.keys.active →
          contents other row = contents cfg row := by
  have keeps {s next : System} {act : Action} (both : Sound cfg s ∧ DistinctIDs s.store)
      (allowed : Orderly cfg requests s act) (taken : step cfg requests s act = some next) :
      Sound cfg next ∧ DistinctIDs next.store :=
    ⟨sound_step both.1 allowed.2 taken, distinctIDs_step both.2 allowed.1 taken⟩
  have atStart : Sound cfg start ∧ DistinctIDs start.store :=
    invariant_of_run_throughout keeps ⟨sound_initial cfg store, ids⟩ orderly came
  have rewraps : Rewraps cfg start r last :=
    invariant_of_run_throughout rewraps_step (rewraps_start atStart.1 atStart.2 starts) seals ran
  intro _ _ there same
  obtain ⟨row, new, found, grown, tokens⟩ := (rewraps.kept there).here same
  have sealed : SealedActive cfg row := by
    rcases rewraps.sealed there same row found with sealed | ahead
    · exact sealed
    · rw [returned] at ahead
      cases ahead
  exact ⟨row, new, found, sealed, grown, tokens, fun other keys => contents_of_sealed keys sealed⟩

theorem newKey_named : ([110] : Bytes) ≠ [] ∧ ([110] : Bytes).length ≤ maxKeyIDLen := by decide

theorem plainAead_held : (some plainAead).isSome = true := rfl

def rotatedConfig : Config := { plainConfig with
  keys := ⟨[110], fun _ => some plainAead, plainAead_held, newKey_named⟩ }

def rewrapsBeside : ℕ → Request
  | 0 => .accessToken ⟨str "agent", str "u", str "p", [str "read"]⟩
  | _ => .rewrap

def rejected : Answers := { at500 with refresh := .invalidGrant }

theorem oneCredential_found {key : Bytes} {c row : VaultCredential}
    (found : (oneCredential c).rows.lookup key = some row) : key = c.key ∧ row = c := by
  unfold oneCredential at found
  rw [lookup_write] at found
  split at found
  next same => exact ⟨same, (some.inj found).symm⟩
  · cases found

theorem rewrap_moves_everything_alone :
    ∃ last row, run (step rotatedConfig fun _ => .rewrap) (.initial (oneCredential expired))
        (replicate 3 ⟨0, at500⟩) = some last ∧
      last.phase 0 = .rewrapped 1 ∧ last.store.rows.lookup expired.key = some row ∧
      SealedActive rotatedConfig row := by
  have ids : DistinctIDs (oneCredential expired) := by
    constructor
    · intro key row found
      obtain ⟨-, rfl⟩ := oneCredential_found found
      decide +kernel
    · intro key _ row _ found found' _
      exact (oneCredential_found found).1.trans (oneCredential_found found').1.symm
  have seals : Throughout (step rotatedConfig fun _ => .rewrap)
      (fun s act => Orderly rotatedConfig (fun _ => .rewrap) s act ∧
        SealsActive rotatedConfig (fun _ => .rewrap) 0 s act)
      (.initial (oneCredential expired)) (replicate 3 ⟨0, at500⟩) := by
    have own {s : System} {act : Action} (same : act.call = 0) :
        SealsActive rotatedConfig (fun _ => .rewrap) 0 s act := fun other => absurd same other
    have alone : Throughout (step rotatedConfig fun _ => .rewrap) (fun _ act => act.call = 0)
        (.initial (oneCredential expired)) (replicate 3 ⟨0, at500⟩) :=
      throughout_of_forall (by simp)
    have fresh : Throughout (step rotatedConfig fun _ => .rewrap) FreshID
        (.initial (oneCredential expired)) (replicate 3 ⟨0, at500⟩) := by
      refine ⟨freshID_of_values (by decide +kernel), fun _ taken => ?_⟩
      cases taken
      refine ⟨freshID_of_values (by decide +kernel), fun _ taken => ?_⟩
      cases taken
      exact ⟨freshID_of_values (by decide +kernel), fun _ _ => trivial⟩
    exact (fresh.and (throughout_unrevived nofun)).and (alone.mono own)
  obtain ⟨row, _, found, sealed, -⟩ := rewrap_moves_everything rotatedConfig (fun _ => .rewrap)
    (oneCredential expired) [] (replicate 3 ⟨0, at500⟩) _ _ 0 1 ids rfl rfl rfl rfl trivial
    seals expired.key expired rfl rfl
  exact ⟨_, row, rfl, rfl, found, sealed⟩

/-- The refresh marks the credential, `Rewrap` loses its swap, and returns that there was nothing to
move. -/
theorem rewrap_misses_marked :
    ∃ last, run (step rotatedConfig rewrapsBeside) (.initial (oneCredential expired))
        [⟨0, rejected⟩, ⟨0, rejected⟩, ⟨1, at500⟩, ⟨0, rejected⟩, ⟨1, at500⟩, ⟨1, at500⟩] =
          some last ∧
      last.phase 1 = .rewrapped 0 ∧ last.life expired.key = 0 ∧
      (last.store.rows.lookup expired.key).map (fun row => keyID row.accessCT) = some (.ok [107]) ∧
      rotatedConfig.keys.active = [110] := by
  refine ⟨_, rfl, rfl, rfl, ?_, rfl⟩
  decide +kernel

end TheAuth.Vault
