import TheAuth.Library.History
import TheAuth.Server.Device

/-!
# Runs of the device grant

`step` is one atomic operation with the computation up to the next one. `DeviceLaw` is what the
grant is for, as a law on histories: a code is redeemed at most once, by the client that started it,
for the user who approved it before it expired.
-/

set_option autoImplicit false

namespace TheAuth.Server.DeviceRuns

open Go Store Library Library.Result Library.Run List

/-- A start, a decision or a poll. -/
inductive Request where
  | start (req : DeviceAuthRequest)
  | decide (subject userCode : Bytes) (userID : ULID) (approve : Bool)
  | poll (deviceCode : Bytes)

/-- What has happened to a row. -/
inductive Event where
  | started (row : DeviceAuthorization)
  | decided (id : ULID) (approve : Bool) (user : ULID) (time : Time)
  | redeemed (deviceCode client : Bytes) (g : DeviceGrant)
  deriving DecidableEq

/-- Where a call stands. -/
inductive Phase where
  | ready
  | inserting (row : DeviceAuthorization) (userCode : Bytes) (others : List Bytes)
  | deciding (row : DeviceAuthorization)
  | polling (row : DeviceAuthorization) (client : Bytes) (a : DevicePollAnswers)
  | redeeming (row : DeviceAuthorization) (g : DeviceGrant) (now : Time)
  | answered
  | refused (e : DeviceError)

/-- The store, the calls and the history. -/
structure System where
  store : GrantStore
  phase : ℕ → Phase
  history : List Event

def System.initial (store : GrantStore) : System :=
  ⟨{ store with devices := ∅ }, fun _ => .ready, []⟩

def System.move (s : System) (r : ℕ) (p : Phase) : System :=
  { s with phase := Function.update s.phase r p }

def System.answer (s : System) (r : ℕ) (e : Event) : System :=
  { s with phase := Function.update s.phase r .answered, history := s.history ++ [e] }

/-- The insertion reads the clock of the store. `minted` is how `mintAccessAndRefresh` ends. -/
inductive Action where
  | begin (r : ℕ) (a : DeviceStartAnswers)
  | insert (r : ℕ) (now : Time)
  | find (r : ℕ) (a : DeviceDecideAnswers)
  | decide (r : ℕ) (now : Time)
  | lookup (r : ℕ) (a : DevicePollAnswers)
  | record (r : ℕ)
  | consume (r : ℕ) (minted : Except OAuthError Unit)

/-! ## One action -/

section

variable (svc : DeviceService)

def begin_ (req : DeviceAuthRequest) (a : DeviceStartAnswers) : Phase :=
  match svc.config with
  | none => .refused .disabled
  | some cfg =>
    match checkDeviceStart svc req a with
    | .error e => .refused e
    | .ok (client, scope, resource) =>
      match a.userCodes.take deviceMaxInsertTry with
      | [] => .refused .noUserCode
      | userCode :: others => .inserting (deviceRow svc cfg a client scope resource) userCode others

variable (row : DeviceAuthorization)

def tryNext : List Bytes → Phase
  | [] => .refused .noUserCode
  | userCode :: others => .inserting row userCode others

def afterFind [RuneLib] (store : GrantStore) (a : DeviceDecideAnswers) (subject userCode : Bytes) :
    Phase :=
  match checkDecision svc store a subject userCode with
  | .error e => .refused e
  | .ok row => .deciding row

def afterLookup (store : GrantStore) (a : DevicePollAnswers) (deviceCode : Bytes) : Phase :=
  match findPolled svc store a deviceCode, a.client with
  | .error e, _ => .refused e
  | .ok _, .error e => .refused (.oauth e)
  | .ok row, .ok client => .polling row client.clientID a

def polledInterval (now : Time) : Int :=
  row.intervalSeconds + if tooFast row now then deviceSlowDownStep else 0

def afterRecord (client : Bytes) (a : DevicePollAnswers) : Phase :=
  if tooFast row a.now then .refused .slowDown
  else match approver row, a.jkt with
  | .error e, _ => .refused e
  | .ok _, .error e => .refused (.oauth e)
  | .ok userID, .ok jkt => .redeeming row ⟨client, userID, row.scope, row.resource, jkt⟩ a.now

/-- One action. -/
def step [RuneLib] (requests : ℕ → Request) (s : System) : Action → Option System
  | .begin r a =>
    match s.phase r, requests r with
    | .ready, .start req => some (s.move r (begin_ svc req a))
    | _, _ => none
  | .insert r now =>
    match s.phase r with
    | .inserting row userCode others =>
      let row' := { row with userCodeHash := svc.codeHash (str "user") userCode }
      match s.store.insertDeviceAuthorization row' now with
      | (true, store) => some ({ s with store }.answer r (.started row'))
      | (false, store) => some ({ s with store }.move r (tryNext row others))
    | _ => none
  | .find r a =>
    match s.phase r, requests r with
    | .ready, .decide subject userCode _ _ =>
      some (s.move r (afterFind svc s.store a subject userCode))
    | _, _ => none
  | .decide r now =>
    match s.phase r, requests r with
    | .deciding row, .decide _ _ userID approve =>
      match s.store.decideDeviceAuthorization row.id (if approve then .approved else .denied)
          userID now with
      | (true, store) => some ({ s with store }.answer r (.decided row.id approve userID now))
      | (false, store) => some ({ s with store }.move r (.refused .userCodeInvalid))
    | _, _ => none
  | .lookup r a =>
    match s.phase r, requests r with
    | .ready, .poll deviceCode => some (s.move r (afterLookup svc s.store a deviceCode))
    | _, _ => none
  | .record r =>
    match s.phase r with
    | .polling row client a =>
      match s.store.recordDeviceAuthorizationPoll row.id a.now (polledInterval row a.now) with
      | none => some (s.move r (.refused .storageNotFound))
      | some store => some ({ s with store }.move r (afterRecord row client a))
    | _ => none
  | .consume r minted =>
    match s.phase r, requests r with
    | .redeeming row g now, .poll deviceCode =>
      match s.store.consumeDeviceAuthorization row.id now, minted with
      | (false, store), _ => some ({ s with store }.move r (.refused (.oauth .invalidGrant)))
      | (true, store), .error e => some ({ s with store }.move r (.refused (.oauth e)))
      | (true, store), .ok _ => some ({ s with store }.answer r (.redeemed deviceCode g.clientID g))
    | _, _ => none

/-- What one action can do. -/
inductive Stepped [RuneLib] (requests : ℕ → Request) (s : System) : Action → System → Prop
  | begin (r : ℕ) (a : DeviceStartAnswers) (req : DeviceAuthRequest) (ready : s.phase r = .ready)
      (asked : requests r = .start req) :
      Stepped requests s (.begin r a) (s.move r (begin_ svc req a))
  | inserted (r : ℕ) (now : Time) (row : DeviceAuthorization) (userCode : Bytes)
      (others : List Bytes) (store : GrantStore)
      (inserting : s.phase r = .inserting row userCode others)
      (done : s.store.insertDeviceAuthorization
        { row with userCodeHash := svc.codeHash (str "user") userCode } now = (true, store)) :
      Stepped requests s (.insert r now) ({ s with store }.answer r
        (.started { row with userCodeHash := svc.codeHash (str "user") userCode }))
  | taken (r : ℕ) (now : Time) (row : DeviceAuthorization) (userCode : Bytes)
      (others : List Bytes) (store : GrantStore)
      (inserting : s.phase r = .inserting row userCode others)
      (done : s.store.insertDeviceAuthorization
        { row with userCodeHash := svc.codeHash (str "user") userCode } now = (false, store)) :
      Stepped requests s (.insert r now) ({ s with store }.move r (tryNext row others))
  | find (r : ℕ) (a : DeviceDecideAnswers) (subject userCode : Bytes) (userID : ULID)
      (approve : Bool) (ready : s.phase r = .ready)
      (asked : requests r = .decide subject userCode userID approve) :
      Stepped requests s (.find r a) (s.move r (afterFind svc s.store a subject userCode))
  | decided (r : ℕ) (now : Time) (row : DeviceAuthorization) (subject userCode : Bytes)
      (userID : ULID) (approve : Bool) (store : GrantStore) (deciding : s.phase r = .deciding row)
      (asked : requests r = .decide subject userCode userID approve)
      (done : s.store.decideDeviceAuthorization row.id (if approve then .approved else .denied)
        userID now = (true, store)) :
      Stepped requests s (.decide r now)
        ({ s with store }.answer r (.decided row.id approve userID now))
  | undecided (r : ℕ) (now : Time) (row : DeviceAuthorization) (userID : ULID) (approve : Bool)
      (store : GrantStore) (deciding : s.phase r = .deciding row)
      (done : s.store.decideDeviceAuthorization row.id (if approve then .approved else .denied)
        userID now = (false, store)) :
      Stepped requests s (.decide r now) ({ s with store }.move r (.refused .userCodeInvalid))
  | lookup (r : ℕ) (a : DevicePollAnswers) (deviceCode : Bytes) (ready : s.phase r = .ready)
      (asked : requests r = .poll deviceCode) :
      Stepped requests s (.lookup r a) (s.move r (afterLookup svc s.store a deviceCode))
  | unrecorded (r : ℕ) (e : DeviceError) : Stepped requests s (.record r) (s.move r (.refused e))
  | recorded (r : ℕ) (row : DeviceAuthorization) (client : Bytes) (a : DevicePollAnswers)
      (store : GrantStore) (polling : s.phase r = .polling row client a)
      (done : s.store.recordDeviceAuthorizationPoll row.id a.now (polledInterval row a.now) =
        some store) :
      Stepped requests s (.record r) ({ s with store }.move r (afterRecord row client a))
  | unredeemed (r : ℕ) (minted : Except OAuthError Unit) (row : DeviceAuthorization) (now : Time)
      (e : DeviceError) (won : Bool) (store : GrantStore)
      (done : s.store.consumeDeviceAuthorization row.id now = (won, store)) :
      Stepped requests s (.consume r minted) ({ s with store }.move r (.refused e))
  | redeemed (r : ℕ) (minted : Except OAuthError Unit) (row : DeviceAuthorization)
      (g : DeviceGrant) (now : Time) (deviceCode : Bytes) (store : GrantStore)
      (redeeming : s.phase r = .redeeming row g now) (asked : requests r = .poll deviceCode)
      (done : s.store.consumeDeviceAuthorization row.id now = (true, store)) :
      Stepped requests s (.consume r minted)
        ({ s with store }.answer r (.redeemed deviceCode g.clientID g))

theorem stepped_of_step [RuneLib] {requests : ℕ → Request} {s next : System} {a : Action}
    (taken : step svc requests s a = some next) : Stepped svc requests s a next := by
  cases a with
  | begin r a =>
    simp only [step] at taken
    split at taken <;> cases taken
    rename_i req ready asked
    exact .begin r a req ready asked
  | insert r now =>
    simp only [step] at taken
    split at taken
    next row userCode others inserting =>
      split at taken
      next store done =>
        cases taken
        exact .inserted r now row userCode others store inserting done
      rename_i store done
      cases taken
      exact .taken r now row userCode others store inserting done
    · cases taken
  | find r a =>
    simp only [step] at taken
    split at taken <;> cases taken
    rename_i subject userCode userID approve ready asked
    exact .find r a subject userCode userID approve ready asked
  | decide r now =>
    simp only [step] at taken
    split at taken
    next row subject userCode userID approve deciding asked =>
      split at taken
      next store done =>
        cases taken
        exact .decided r now row subject userCode userID approve store deciding asked done
      rename_i store done
      cases taken
      exact .undecided r now row userID approve store deciding done
    · cases taken
  | lookup r a =>
    simp only [step] at taken
    split at taken <;> cases taken
    rename_i deviceCode ready asked
    exact .lookup r a deviceCode ready asked
  | record r =>
    simp only [step] at taken
    split at taken
    next row client a polling =>
      split at taken
      · cases taken
        exact .unrecorded r _
      rename_i store done
      cases taken
      exact .recorded r row client a store polling done
    · cases taken
  | consume r minted =>
    simp only [step] at taken
    split at taken
    next row g now deviceCode redeeming asked =>
      split at taken
      next store done =>
        cases taken
        exact .unredeemed r _ row now _ _ store done
      next store e done =>
        cases taken
        exact .unredeemed r _ row now _ _ store done
      rename_i store u done
      cases taken
      exact .redeemed r _ row g now deviceCode store redeeming asked done
    · cases taken

/-! ## Histories -/

/-- What may happen after the history. -/
def DeviceLaw (history : List Event) : Event → Prop
  | .started row =>
    ∀ other, .started other ∈ history →
      other.id ≠ row.id ∧ other.deviceCodeHash ≠ row.deviceCodeHash
  | .decided id _ _ time =>
    (∃ row, .started row ∈ history ∧ row.id = id ∧ time < row.expiresAt) ∧
      ∀ approve user time, .decided id approve user time ∉ history
  | .redeemed deviceCode client g =>
    (∃ row time, .started row ∈ history ∧
      row.deviceCodeHash = svc.codeHash (str "device") deviceCode ∧ client = row.clientID ∧
      g = ⟨row.clientID, g.userID, row.scope, row.resource, g.dpopJKT⟩ ∧
      .decided row.id true g.userID time ∈ history) ∧
    ∀ other client' g', .redeemed other client' g' ∈ history →
      svc.codeHash (str "device") other ≠ svc.codeHash (str "device") deviceCode

/-- Identifiers and codes of their own, one decision for a record, one redemption for a code. -/
def Apart : Event → Event → Prop
  | .started a, .started b => a.id ≠ b.id ∧ a.deviceCodeHash ≠ b.deviceCodeHash
  | .decided a _ _ _, .decided b _ _ _ => a ≠ b
  | .redeemed a _ _, .redeemed b _ _ =>
    svc.codeHash (str "device") a ≠ svc.codeHash (str "device") b
  | _, _ => True

variable {svc} {history : List Event}

theorem apart_of_law {e : Event} (allowed : DeviceLaw svc history e) :
    ∀ e' ∈ history, Apart svc e' e := by
  intro e' listed
  cases e with
  | started =>
    cases e' with
    | started other => exact allowed other listed
    | _ => exact True.intro
  | decided =>
    cases e' with
    | decided _ approve' user' time' =>
      rintro rfl
      exact allowed.2 approve' user' time' listed
    | _ => exact True.intro
  | redeemed =>
    cases e' with
    | redeemed other client' g' => exact allowed.2 other client' g' listed
    | _ => exact True.intro

instance : Std.Symm (Apart svc) where
  symm e e' apart := by
    cases e with
    | started =>
      cases e' with
      | started => exact ⟨apart.1.symm, apart.2.symm⟩
      | _ => exact True.intro
    | decided =>
      cases e' with
      | decided => exact Ne.symm apart
      | _ => exact True.intro
    | redeemed =>
      cases e' with
      | redeemed => exact Ne.symm apart
      | _ => exact True.intro

section

variable (lawful : Lawful (DeviceLaw svc) history)
include lawful

theorem apart_of_mem {e e' : Event} (first : e ∈ history)
    (second : e' ∈ history) (different : e ≠ e') : Apart svc e e' :=
  (lawful.pairwise apart_of_law).forall first second different

theorem started_unique {a b : DeviceAuthorization}
    (first : .started a ∈ history) (second : .started b ∈ history)
    (same : a.id = b.id ∨ a.deviceCodeHash = b.deviceCodeHash) : a = b := by
  by_contra different
  have apart : a.id ≠ b.id ∧ a.deviceCodeHash ≠ b.deviceCodeHash :=
    apart_of_mem lawful first second fun equal => different (Event.started.inj equal)
  exact same.elim apart.1 apart.2

theorem started_of_decided {id user : ULID}
    {approve : Bool} {time : Time} (decided : .decided id approve user time ∈ history) :
    ∃ row, .started row ∈ history ∧ row.id = id ∧ time < row.expiresAt := by
  obtain ⟨_, _, rfl, ⟨row, started, same, early⟩, -⟩ := lawful.of_mem decided
  exact ⟨row, mem_append_left _ started, same, early⟩

variable {deviceCode client : Bytes}

theorem started_of_redeemed {g : DeviceGrant} (redeemed : .redeemed deviceCode client g ∈ history) :
    ∃ row time, .started row ∈ history ∧
      row.deviceCodeHash = svc.codeHash (str "device") deviceCode ∧
        .decided row.id true g.userID time ∈ history := by
  obtain ⟨_, _, rfl, ⟨row, time, started, code, -, -, decided⟩, -⟩ := lawful.of_mem redeemed
  exact ⟨row, time, mem_append_left _ started, code, mem_append_left _ decided⟩

theorem redeemed_of_lawful {front back : List Event} {g : DeviceGrant}
    (split : history = front ++ .redeemed deviceCode client g :: back) :
    (∃ row time, .started row ∈ front ∧
      row.deviceCodeHash = svc.codeHash (str "device") deviceCode ∧ client = row.clientID ∧
      g = ⟨row.clientID, g.userID, row.scope, row.resource, g.dpopJKT⟩ ∧
      .decided row.id true g.userID time ∈ front ∧ time < row.expiresAt ∧
      ∀ user time, .decided row.id false user time ∉ history) ∧
    ∀ other client' g', svc.codeHash (str "device") other = svc.codeHash (str "device") deviceCode →
      .redeemed other client' g' ∉ front ++ back := by
  obtain ⟨⟨row, time, started, code, same, grant, decided⟩, -⟩ := lawful.of_split split
  have before : ∀ {e}, e ∈ front → e ∈ history := fun inside =>
    split ▸ mem_append_left _ inside
  refine ⟨⟨row, time, started, code, same, grant, decided, ?_, ?_⟩, ?_⟩
  · obtain ⟨_, there, id, _⟩ := started_of_decided lawful (before decided)
    rwa [started_unique lawful (before started) there (.inl id.symm)]
  · intro _ _ denied
    have apart : row.id ≠ row.id := apart_of_mem lawful (before decided) denied
      nofun
    exact apart rfl
  · intro _ _ _ code' listed
    have pairwise := lawful.pairwise apart_of_law
    rw [split, pairwise_append, pairwise_cons] at pairwise
    rcases mem_append.mp listed with earlier | later
    · exact pairwise.2.2 _ earlier _ mem_cons_self code'
    · exact pairwise.2.1.1 _ later code'.symm

end

end

end TheAuth.Server.DeviceRuns
