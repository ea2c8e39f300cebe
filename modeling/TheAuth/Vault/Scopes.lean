import TheAuth.Vault.Versions

/-!
# The scopes of a token

The vault compares the scopes that were asked for with those of the credential when the call begins.
A refresh or a new connection can change them, and they are not compared again.
-/

set_option autoImplicit false

namespace TheAuth.Vault

open Go Library Library.Run

def Phase.request : Phase → Option TokenRequest
  | .issued req _ _ => some req
  | phase => phase.inFlight

/-- The call goes on, or begins with a row that has its scopes. -/
inductive Continues (s : System) (request : Request) (old : Phase) (effect : Effect)
    (req : TokenRequest) : Prop where
  | goesOn (here : old.inFlight = some req)
  | begins {cred : VaultCredential} (asked : request = .accessToken req)
      (quiet : effect = .quiet) (found : s.store.rows.lookup req.key = some cred)
      (covers : subset req.scopes cred.scopes = true)

section

variable {cfg : Config} {s : System} {request : Request} {a : Answers} {old phase : Phase}
  {effect : Effect} {req : TokenRequest}

theorem Phase.request_of_inFlight (here : phase.inFlight = some req) :
    phase.request = some req := by
  cases phase <;> first | exact here | cases here

theorem request_of_ended (ended : phase.Ended) : phase.request = none := by
  cases phase <;> first | rfl | cases ended

theorem request_rewrapFrom {moved : ℕ} {after : Bytes} {page : List (Reading VaultCredential)} :
    (rewrapFrom cfg a moved after page).request = none := by
  rcases rewrapFrom_cases cfg a moved after page with
    ⟨e, same⟩ | ⟨seen, read, rest, -, -, next, -, -, -, -, same⟩ | ⟨-, same⟩
  all_goals
    rw [same]
    rfl

theorem request_scanPage {moved : ℕ} {after : Bytes} :
    (scanPage cfg s after moved a).request = none := by
  rcases scanPage_cases cfg s a after moved with ⟨-, same | ⟨_, same⟩⟩ | ⟨-, same⟩
  · rw [same]
    rfl
  · rw [same]
    rfl
  · rw [same]
    exact request_rewrapFrom

theorem request_afterSwap {refreshed : Option Contents} {swapped : Bool} {token : TokenRequest}
    (here : (afterSwap req refreshed swapped).request = some token) : token = req := by
  unfold afterSwap at here
  split at here
  · cases here
  · split at here <;> exact (Option.some.inj here).symm

theorem continues_of_operated (operated : Operated cfg s request a old phase effect)
    (here : phase.request = some req) : Continues s request old effect req := by
  cases operated with
  | quits _ ended | disconnects _ ended | connects _ _ ended =>
    cases (request_of_ended ended).symm.trans here
  | begins asked found covers =>
    cases here
    exact .begins asked rfl found covers
  | issues continues found =>
    cases here
    rcases continues with before | ⟨-, asked, covers⟩
    · exact .goesOn before
    · exact .begins asked rfl found covers
  | marks | refreshes => exact .goesOn here
  | swaps done =>
    obtain ⟨rfl, -, -⟩ | ⟨-, -, -, rfl, -⟩ := swap_cases done
    all_goals exact .goesOn (congrArg some (request_afterSwap here).symm)
  | scans => cases request_scanPage.symm.trans here
  | rewraps done =>
    obtain ⟨rfl, -, -⟩ | ⟨-, -, -, rfl, -⟩ := swap_cases done
    all_goals cases request_rewrapFrom.symm.trans here

theorem issued_of_operated {tok : AccessToken} {source : VaultCredential}
    (operated : Operated cfg s request a old phase effect) (here : phase = .issued req tok source) :
    s.store.rows.lookup req.key = some source ∧ tok.scopes = req.scopes := by
  have asks : phase.request = some req := here ▸ rfl
  cases operated with
  | quits _ ended | disconnects _ ended | connects _ _ ended =>
    cases (request_of_ended ended).symm.trans asks
  | begins | marks | refreshes => cases here
  | issues _ found scopes =>
    cases here
    exact ⟨found, scopes⟩
  | swaps done =>
    have unissued (refreshed : Option Contents) (swapped : Bool) (token : TokenRequest) :
        afterSwap token refreshed swapped ≠ .issued req tok source := by
      unfold afterSwap
      split
      · nofun
      · split <;> nofun
    obtain ⟨rfl, -, -⟩ | ⟨-, -, -, rfl, -⟩ := swap_cases done
    all_goals exact absurd here (unissued _ _ _)
  | scans => cases request_scanPage.symm.trans asks
  | rewraps done =>
    obtain ⟨rfl, -, -⟩ | ⟨-, -, -, rfl, -⟩ := swap_cases done
    all_goals cases request_rewrapFrom.symm.trans asks

end

/-- Tokens answer the request of their call. -/
structure Answered (requests : ℕ → Request) (s : System) : Prop where
  asked : ∀ q req, (s.phase q).request = some req → requests q = .accessToken req
  scopes : ∀ q req tok source, s.phase q = .issued req tok source → tok.scopes = req.scopes

/-- The stored scopes, also those that a refresh is about to store, contain the ones asked for. -/
structure Covered (s : System) : Prop where
  inFlight : ∀ q req, (s.phase q).inFlight = some req → ∀ row,
    s.store.rows.lookup req.key = some row → subset req.scopes row.scopes = true
  issued : ∀ q req tok source, s.phase q = .issued req tok source →
    subset req.scopes source.scopes = true
  widens : ∀ q req read next refreshed, s.phase q = .swapping req read next refreshed →
    subset read.row.scopes next.scopes = true

/-- No response narrows the scopes of the credential, and no connection those of a call in
flight. -/
structure KeepsScopes (requests : ℕ → Request) (s : System) (act : Action) : Prop where
  response : ∀ req row resp, s.phase act.call = .refreshing req →
    s.store.rows.lookup req.key = some row → act.answers.refresh = .response resp →
    resp.scopes = [] ∨ subset row.scopes resp.scopes = true
  connect : ∀ input, s.phase act.call = .ready → requests act.call = .connect input → ∀ q req,
    (s.phase q).inFlight = some req → req.key = vaultKey input.userID input.provider →
    subset req.scopes input.scopes = true

section

variable {cfg : Config} {requests : ℕ → Request} {s next : System} {act : Action}

theorem answered_initial (requests : ℕ → Request) (store : VaultStore) :
    Answered requests (.initial store) :=
  ⟨nofun, nofun⟩

theorem covered_initial (store : VaultStore) : Covered (.initial store) where
  inFlight _ _ here := nomatch here
  issued _ _ _ _ here := nomatch here
  widens _ _ _ _ _ here := nomatch here

theorem answered_step (answered : Answered requests s)
    (taken : step cfg requests s act = some next) : Answered requests next := by
  obtain ⟨_, _, done, rfl⟩ := step_eq_some.mp taken
  have operated := operated_of_operate done
  constructor
  · intro q req here
    rcases update_cases_of (Q := fun p : Phase => p.request = some req) here with
      ⟨rfl, new⟩ | ⟨-, before⟩
    · cases continues_of_operated operated new with
      | goesOn before => exact answered.asked _ _ (Phase.request_of_inFlight before)
      | begins asked => exact asked
    · exact answered.asked q req before
  · intro q req tok source here
    rcases update_cases here with ⟨rfl, new⟩ | ⟨-, before⟩
    · exact (issued_of_operated operated new).2
    · exact answered.scopes q req tok source before

theorem subset_trans {first second third : List Bytes} (left : subset first second = true)
    (right : subset second third = true) : subset first third = true := by
  simp only [subset, List.all_eq_true, List.contains_iff_mem] at left right ⊢
  exact fun scope inside => right scope (left scope inside)

theorem subset_refl (scopes : List Bytes) : subset scopes scopes = true := by
  simp [subset]

theorem scopes_connectedRow {input : ConnectInput} {a : Answers} {c : VaultCredential}
    (made : connectedRow cfg input a = some c) :
    c.key = vaultKey input.userID input.provider ∧ c.scopes = input.scopes := by
  obtain ⟨_, -, made⟩ := Option.bind_eq_some_iff.mp made
  obtain ⟨_, -, made⟩ := Option.bind_eq_some_iff.mp made
  cases made
  exact ⟨rfl, rfl⟩

theorem widens_refreshedRow {req : TokenRequest} {row next : VaultCredential}
    {resp : TokenResponse} {a : Answers} (made : refreshedRow cfg req row resp a = some next)
    (kept : resp.scopes = [] ∨ subset row.scopes resp.scopes = true) :
    subset row.scopes next.scopes = true := by
  obtain ⟨_, -, made⟩ := Option.bind_eq_some_iff.mp made
  obtain ⟨_, -, made⟩ := Option.bind_eq_some_iff.mp made
  cases made
  dsimp only
  split
  · exact subset_refl _
  next some => exact kept.resolve_left some

/-- What is written over the row of a call in flight has its scopes. -/
theorem covers_write (sound : Sound cfg s) (covered : Covered s)
    (keeps : KeepsScopes requests s act)
    {phase : Phase} {row : VaultCredential} {tokens : Option Contents}
    (done : operate cfg s (requests act.call) act.answers (s.phase act.call) =
      some (phase, .write row tokens))
    {q : ℕ} {req : TokenRequest} (here : (s.phase q).inFlight = some req)
    (same : req.key = row.key) : subset req.scopes row.scopes = true := by
  have prepared := sound.prepared act.call
  have fits := sound.fits act.call
  generalize written : Effect.write row tokens = effect at done
  cases origin_of_operate done with
  | quiet | disconnect => cases written
  | @connect input c ready asked made =>
    cases written
    obtain ⟨key, scopes⟩ := scopes_connectedRow made
    have stored (newID : Bytes) (now : Time) :
        (s.store.putVaultCredential c newID now).scopes = input.scopes := by
      rw [← scopes]
      unfold VaultStore.putVaultCredential
      split <;> rfl
    rw [stored]
    exact keeps.connect input ready asked q req here
      (same.trans ((VaultStore.key_putVaultCredential _).trans key))
  | @refresh _ read _ _ refreshed at_ found version =>
    cases written
    have wider := covered.widens _ _ _ _ _ at_
    rw [at_] at prepared fits
    have held := found
    rw [key_of_prepared prepared] at held
    obtain ⟨-, rfl⟩ := (fits read (List.mem_singleton_self _)).same held version
    exact subset_trans (covered.inFlight q req here read.row (same ▸ found)) wider
  | @rewrap read _ _ _ _ at_ found version =>
    cases written
    rw [at_] at prepared fits
    cases prepared with
    | rewrapping key scopes =>
      have held := found
      rw [key] at held
      obtain ⟨-, rfl⟩ := (fits read List.mem_cons_self).same held version
      exact scopes ▸ covered.inFlight q req here read.row (same ▸ found)
    | other nothing => cases nothing

theorem covers_after {effect : Effect} {phase : Phase} (sound : Sound cfg s) (covered : Covered s)
    (done : operate cfg s (requests act.call) act.answers (s.phase act.call) = some (phase, effect))
    (keeps : KeepsScopes requests s act) {q : ℕ} {req : TokenRequest}
    (here : (s.phase q).inFlight = some req) {row : VaultCredential}
    (found : (s.apply effect).store.rows.lookup req.key = some row) :
    subset req.scopes row.scopes = true := by
  have before := covered.inFlight q req here
  cases effect with
  | quiet => exact before row found
  | write new tokens =>
    change (s.store.write new).rows.lookup req.key = _ at found
    rw [VaultStore.lookup_write] at found
    split at found
    next same =>
      cases found
      exact covers_write sound covered keeps done here same
    · exact before row found
  | delete key =>
    change (s.store.deleteVaultCredential key).rows.lookup req.key = _ at found
    rw [VaultStore.lookup_deleteVaultCredential] at found
    split at found
    · cases found
    · exact before row found

theorem widens_of_operate {old phase : Phase} {effect : Effect}
    (keeps : KeepsScopes requests s act) (at_ : s.phase act.call = old)
    (done : operate cfg s (requests act.call) act.answers old = some (phase, effect))
    {req : TokenRequest} {read : Reading VaultCredential} {next : VaultCredential}
    {refreshed : Option Contents} (here : phase = .swapping req read next refreshed) :
    subset read.row.scopes next.scopes = true := by
  have asks : phase.request = some req := here ▸ rfl
  cases operated_of_operate done with
  | quits _ ended | disconnects _ ended | connects _ _ ended =>
    cases (request_of_ended ended).symm.trans asks
  | begins | issues => cases here
  | marks =>
    cases here
    exact subset_refl _
  | refreshes found answered made =>
    cases here
    exact widens_refreshedRow made (keeps.response _ _ _ at_ found answered)
  | swaps done =>
    have unswapped (refreshed' : Option Contents) (swapped : Bool) (token : TokenRequest) :
        afterSwap token refreshed' swapped ≠ .swapping req read next refreshed := by
      unfold afterSwap
      split
      · nofun
      · split <;> nofun
    obtain ⟨rfl, -, -⟩ | ⟨-, -, -, rfl, -⟩ := swap_cases done
    all_goals exact absurd here (unswapped _ _ _)
  | scans => cases request_scanPage.symm.trans asks
  | rewraps done =>
    obtain ⟨rfl, -, -⟩ | ⟨-, -, -, rfl, -⟩ := swap_cases done
    all_goals cases request_rewrapFrom.symm.trans asks

theorem covered_step (sound : Sound cfg s) (covered : Covered s)
    (keeps : KeepsScopes requests s act) (taken : step cfg requests s act = some next) :
    Covered next := by
  obtain ⟨phase, _, done, rfl⟩ := step_eq_some.mp taken
  have operated := operated_of_operate done
  constructor
  · intro q req here _ found
    rcases update_cases_of (Q := fun p : Phase => p.inFlight = some req) here with
      ⟨rfl, new⟩ | ⟨-, before⟩
    · cases continues_of_operated operated (Phase.request_of_inFlight new) with
      | goesOn before => exact covers_after sound covered done keeps before found
      | begins _ quiet stored covers =>
        subst quiet
        cases stored.symm.trans found
        exact covers
    · exact covers_after sound covered done keeps before found
  · intro q req tok source here
    rcases update_cases here with ⟨rfl, new⟩ | ⟨-, before⟩
    · have found := (issued_of_operated operated new).1
      cases continues_of_operated operated (new ▸ rfl : phase.request = some req) with
      | goesOn before => exact covered.inFlight _ _ before source found
      | begins _ _ stored covers =>
        cases stored.symm.trans found
        exact covers
    · exact covered.issued q req tok source before
  · intro q req read new refreshed here
    rcases update_cases here with ⟨rfl, now⟩ | ⟨-, before⟩
    · exact widens_of_operate keeps rfl done now
    · exact covered.widens q req read new refreshed before

end

/-- **The scopes of a token** are those of the request, and of the credential where nothing changes
these. -/
theorem token_scopes_recorded (cfg : Config) (requests : ℕ → Request) (store : VaultStore)
    (actions : List Action) (last : System) (r : ℕ) (req : TokenRequest) (tok : AccessToken)
    (source : VaultCredential) (ran : run (step cfg requests) (.initial store) actions = some last)
    (issued : last.phase r = .issued req tok source) :
    requests r = .accessToken req ∧ tok.scopes = req.scopes ∧
      (Throughout (step cfg requests) (fun s act => KeepsScopes requests s act ∧
          Unrevived cfg requests s act) (.initial store) actions →
        subset tok.scopes source.scopes = true) := by
  have answered : Answered requests last := by
    have anyway : Throughout (step cfg requests) (fun _ _ => True) (.initial store) actions :=
      throughout_of_forall fun _ _ => trivial
    exact invariant_of_run_throughout (fun before _ taken => answered_step before taken)
      (answered_initial requests store) anyway ran
  have same : tok.scopes = req.scopes := answered.scopes r req tok source issued
  refine ⟨answered.asked r req ?_, same, fun keeps => ?_⟩
  · rw [issued]
    rfl
  · have kept {s next : System} {act : Action} (both : Sound cfg s ∧ Covered s)
        (keeps : KeepsScopes requests s act ∧ Unrevived cfg requests s act)
        (taken : step cfg requests s act = some next) : Sound cfg next ∧ Covered next :=
      ⟨sound_step both.1 keeps.2 taken, covered_step both.1 both.2 keeps.1 taken⟩
    have both : Sound cfg last ∧ Covered last :=
      invariant_of_run_throughout kept ⟨sound_initial cfg store, covered_initial store⟩ keeps ran
    rw [same]
    exact both.2.issued r req tok source issued

def readWrite : TokenRequest := ⟨str "agent", str "u", str "p", [str "read", str "write"]⟩

def wideCredential : VaultCredential := { expired with scopes := [str "read", str "write"] }

def withScopes (scopes : List Bytes) : Answers :=
  { at500 with refresh := .response ⟨str "a3", [], 3600, scopes⟩ }

theorem token_scopes_recorded_kept :
    ∃ last tok source, run (step plainConfig fun _ => .accessToken readWrite)
        (.initial (oneCredential wideCredential))
        (List.replicate 4 ⟨0, withScopes []⟩) = some last ∧
      last.phase 0 = .issued readWrite tok source ∧ subset tok.scopes source.scopes = true := by
  refine ⟨_, _, _, rfl, rfl, ?_⟩
  refine (token_scopes_recorded plainConfig (fun _ => .accessToken readWrite)
    (oneCredential wideCredential) (List.replicate 4 ⟨0, withScopes []⟩) _ 0 readWrite _ _ rfl
    rfl).2.2 ?_
  have keeps {s : System} {act : Action} (same : act = ⟨0, withScopes []⟩) :
      KeepsScopes (fun _ => .accessToken readWrite) s act := by
    subst same
    refine ⟨fun _ _ _ _ _ answered => ?_, nofun⟩
    cases answered
    exact .inl rfl
  have kept : Throughout (step plainConfig fun _ => .accessToken readWrite)
      (fun _ act => act = ⟨0, withScopes []⟩) (.initial (oneCredential wideCredential))
      (List.replicate 4 ⟨0, withScopes []⟩) :=
    throughout_of_forall fun _ listed => List.eq_of_mem_replicate listed
  exact (kept.mono keeps).and (throughout_unrevived nofun)

/-- The provider answers with `read` only, and a token is handed out for `read` and `write`. -/
theorem token_claims_narrowed_scopes :
    ∃ last tok source, run (step plainConfig fun _ => .accessToken readWrite)
        (.initial (oneCredential wideCredential))
        (List.replicate 4 ⟨0, withScopes [str "read"]⟩) = some last ∧
      last.phase 0 = .issued readWrite tok source ∧
      tok.scopes = [str "read", str "write"] ∧ source.scopes = [str "read"] :=
  ⟨_, _, _, rfl, rfl, rfl, rfl⟩

end TheAuth.Vault
