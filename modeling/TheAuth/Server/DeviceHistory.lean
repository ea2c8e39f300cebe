import TheAuth.Server.DeviceRuns

/-!
# Histories of the device grant are lawful

A record is that of a started grant, and its status says which decision the history has of it
(`Recorded`). What a request has read stays true, because records are decided and consumed once.
That a grant draws new codes is an assumption on the actions (`FreshStart`).
-/

set_option autoImplicit false

namespace TheAuth.Server.DeviceRuns

open Go Store Library Library.Result Library.Run List GrantStore Option GoMap

variable {svc : DeviceService} {history : List Event}

/-- A row keeps what was asked for at the start. -/
structure SameGrant (row d : DeviceAuthorization) : Prop where
  id : d.id = row.id
  deviceCodeHash : d.deviceCodeHash = row.deviceCodeHash
  clientID : d.clientID = row.clientID
  scope : d.scope = row.scope
  resource : d.resource = row.resource
  expiresAt : d.expiresAt = row.expiresAt

theorem SameGrant.refl (row : DeviceAuthorization) : SameGrant row row :=
  ⟨rfl, rfl, rfl, rfl, rfl, rfl⟩

/-- The user has approved the row. -/
def Approved (history : List Event) (d : DeviceAuthorization) : Prop :=
  ∃ user time, d.userID = some user ∧ .decided d.id true user time ∈ history

/-- A stored row is explained by the history. -/
structure Recorded (svc : DeviceService) (history : List Event) (id : ULID)
    (d : DeviceAuthorization) : Prop where
  key : d.id = id
  grant : ∃ row, .started row ∈ history ∧ SameGrant row d
  pending : d.status = .pending → ∀ approve user time, .decided d.id approve user time ∉ history
  approved : d.status = .approved → Approved history d
  unredeemed : d.status = .approved → ∀ deviceCode client g,
    .redeemed deviceCode client g ∈ history →
      svc.codeHash (str "device") deviceCode ≠ d.deviceCodeHash

/-- The row that a poll has read is explained by the history. -/
structure Copied (svc : DeviceService) (history : List Event) (req : Request)
    (row : DeviceAuthorization) : Prop where
  grant : ∃ first, .started first ∈ history ∧ SameGrant first row
  code : ∃ deviceCode, req = .poll deviceCode ∧
    row.deviceCodeHash = svc.codeHash (str "device") deviceCode
  approved : row.status = .approved → Approved history row

/-- No earlier start has the identifier or the code. -/
def Unused (history : List Event) (row : DeviceAuthorization) : Prop :=
  ∀ other, .started other ∈ history → other.id ≠ row.id ∧ other.deviceCodeHash ≠ row.deviceCodeHash

/-- What a call has read is explained by the history. -/
def PhaseOk (svc : DeviceService) (history : List Event) (req : Request) : Phase → Prop
  | .inserting row _ _ => row.status = .pending ∧ Unused history row
  | .polling row client _ => Copied svc history req row ∧ client = row.clientID
  | .redeeming row g _ =>
    Copied svc history req row ∧
      g = ⟨row.clientID, g.userID, row.scope, row.resource, g.dpopJKT⟩ ∧
        ∃ time, .decided row.id true g.userID time ∈ history
  | _ => True

/-- **The invariant of the runs.** -/
structure Consistent (svc : DeviceService) (requests : ℕ → Request) (s : System) : Prop where
  lawful : Lawful (DeviceLaw svc) s.history
  rows : ∀ {id d}, s.store.devices.lookup id = some d → Recorded svc s.history id d
  phases : ∀ r, PhaseOk svc s.history (requests r) (s.phase r)
  distinct : ∀ {r q row row' c c' o o'}, r ≠ q → s.phase r = .inserting row c o →
    s.phase q = .inserting row' c' o' → row.id ≠ row'.id ∧ row.deviceCodeHash ≠ row'.deviceCodeHash

theorem Approved.grow {d : DeviceAuthorization} (approved : Approved history d) (e : Event) :
    Approved (history ++ [e]) d := by
  obtain ⟨user, time, own, decided⟩ := approved
  exact ⟨user, time, own, mem_append_left _ decided⟩

theorem Recorded.grow {id : ULID} {d : DeviceAuthorization} (recorded : Recorded svc history id d)
    {e : Event} (undecided : ∀ approve user time, e ≠ .decided id approve user time)
    (unredeemed : d.status = .approved → ∀ deviceCode client g,
      e = .redeemed deviceCode client g →
        svc.codeHash (str "device") deviceCode ≠ d.deviceCodeHash) :
    Recorded svc (history ++ [e]) id d where
  key := recorded.key
  grant := by
    obtain ⟨row, started, same⟩ := recorded.grant
    exact ⟨row, mem_append_left _ started, same⟩
  pending := by
    intro pending approve user time listed
    rcases mem_append.mp listed with before | new
    · exact recorded.pending pending approve user time before
    · exact undecided approve user time (recorded.key ▸ (mem_singleton.mp new).symm)
  approved := fun approved => (recorded.approved approved).grow e
  unredeemed := by
    intro approved deviceCode client g listed
    rcases mem_append.mp listed with before | new
    · exact recorded.unredeemed approved deviceCode client g before
    · exact unredeemed approved deviceCode client g (mem_singleton.mp new).symm

theorem Copied.grow {req : Request} {row : DeviceAuthorization}
    (copied : Copied svc history req row) (e : Event) : Copied svc (history ++ [e]) req row where
  grant := by
    obtain ⟨first, started, same⟩ := copied.grant
    exact ⟨first, mem_append_left _ started, same⟩
  code := copied.code
  approved := fun approved => (copied.approved approved).grow e

theorem PhaseOk.grow {req : Request} {p : Phase} (ok : PhaseOk svc history req p) {e : Event}
    (other : ∀ row c o started, p = .inserting row c o → e = .started started →
      started.id ≠ row.id ∧ started.deviceCodeHash ≠ row.deviceCodeHash) :
    PhaseOk svc (history ++ [e]) req p := by
  cases p with
  | inserting row c o =>
    refine ⟨ok.1, fun started listed => ?_⟩
    rcases mem_append.mp listed with before | new
    · exact ok.2 started before
    · exact other row c o started rfl (mem_singleton.mp new).symm
  | polling => exact ⟨ok.1.grow e, ok.2⟩
  | redeeming =>
    obtain ⟨copied, grant, time, decided⟩ := ok
    exact ⟨copied.grow e, grant, time, mem_append_left _ decided⟩
  | ready | deciding | answered | refused => exact True.intro

section

variable {requests : ℕ → Request} {s : System} {store : GrantStore} {r : ℕ} {id : ULID}
  {d row : DeviceAuthorization} {a : DevicePollAnswers} {now : Time} {deviceCode : Bytes}
  {next : System}

section

variable (consistent : Consistent svc requests s)
include consistent

theorem Consistent.move {p : Phase}
    (rows : ∀ {id d}, store.devices.lookup id = some d → Recorded svc s.history id d)
    (ok : PhaseOk svc s.history (requests r) p)
    (apart : ∀ {q row row' c c' o o'}, q ≠ r → p = .inserting row c o →
      s.phase q = .inserting row' c' o' →
        row.id ≠ row'.id ∧ row.deviceCodeHash ≠ row'.deviceCodeHash) :
    Consistent svc requests ({ s with store }.move r p) where
  lawful := consistent.lawful
  rows
  phases := (Function.forall_update_iff s.phase fun q => PhaseOk svc s.history (requests q)).mpr
    ⟨ok, fun q _ => consistent.phases q⟩
  distinct := by
    intro _ _ _ _ _ _ _ _ different here there
    rcases update_cases here with ⟨rfl, new⟩ | ⟨other, old⟩
    · rcases update_cases there with ⟨rfl, _⟩ | ⟨other', old'⟩
      · exact absurd rfl different
      · exact apart other' new old'
    · rcases update_cases there with ⟨rfl, new⟩ | ⟨_, old'⟩
      · obtain ⟨id, code⟩ := apart other new old
        exact ⟨id.symm, code.symm⟩
      · exact consistent.distinct different old old'

theorem Consistent.refuse (e : DeviceError)
    (rows : ∀ {id d}, store.devices.lookup id = some d → Recorded svc s.history id d) :
    Consistent svc requests ({ s with store }.move r (.refused e)) :=
  consistent.move rows True.intro nofun

theorem Consistent.answer {e : Event} (allowed : DeviceLaw svc s.history e)
    (rows : ∀ {id d}, store.devices.lookup id = some d → Recorded svc (s.history ++ [e]) id d)
    (apart : ∀ {q row c o started}, q ≠ r → s.phase q = .inserting row c o →
      e = .started started → started.id ≠ row.id ∧ started.deviceCodeHash ≠ row.deviceCodeHash) :
    Consistent svc requests ({ s with store }.answer r e) where
  lawful := consistent.lawful.snoc allowed
  rows
  phases := by
    refine (Function.forall_update_iff s.phase fun q => PhaseOk svc _ (requests q)).mpr
      ⟨True.intro, fun q other => ?_⟩
    exact (consistent.phases q).grow fun row c o started here new => apart other here new
  distinct := by
    intro _ _ _ _ _ _ _ _ different here there
    have old := of_update here nofun
    have old' := of_update there nofun
    exact consistent.distinct different old old'

theorem Consistent.sameGrant (here : s.store.devices.lookup id = some d)
    (started : .started row ∈ s.history)
    (same : row.id = id ∨ row.deviceCodeHash = d.deviceCodeHash) : SameGrant row d := by
  have recorded := consistent.rows here
  obtain ⟨first, there, grant⟩ := recorded.grant
  have : row = first := started_unique consistent.lawful started there
    (same.imp (fun id => id.trans (recorded.key.symm.trans grant.id))
      fun code => code.trans grant.deviceCodeHash)
  rwa [this]

end

/-- A start draws an identifier and a code that are new. -/
def FreshStart (svc : DeviceService) (s : System) : Action → Prop
  | .begin _ a =>
    (∀ other, .started other ∈ s.history →
      other.id ≠ a.id ∧ other.deviceCodeHash ≠ svc.codeHash (str "device") a.deviceCode) ∧
    ∀ q row c o, s.phase q = .inserting row c o →
      row.id ≠ a.id ∧ row.deviceCodeHash ≠ svc.codeHash (str "device") a.deviceCode
  | _ => True

theorem begin_cases (req : DeviceAuthRequest) (a : DeviceStartAnswers) :
    (∃ e, begin_ svc req a = .refused e) ∨
      ∃ row userCode others, begin_ svc req a = .inserting row userCode others ∧
        row.id = a.id ∧ row.deviceCodeHash = svc.codeHash (str "device") a.deviceCode ∧
          row.status = .pending := by
  unfold begin_
  iterate 3
    split
    · exact .inl ⟨_, rfl⟩
  · exact .inr ⟨_, _, _, rfl, rfl, rfl, rfl⟩

section

variable (consistent : Consistent svc requests s)
include consistent

theorem Consistent.begin
    {a : DeviceStartAnswers} {req : DeviceAuthRequest} (fresh : FreshStart svc s (.begin r a)) :
    Consistent svc requests (s.move r (begin_ svc req a)) := by
  rcases begin_cases req a with ⟨e, same⟩ | ⟨_, _, _, same, id, code, pending⟩
  · rw [same]
    exact consistent.refuse e consistent.rows
  · rw [same]
    refine consistent.move consistent.rows ⟨pending, fun other started => ?_⟩ ?_
    · rw [id, code]
      exact fresh.1 other started
    · intro q _ row' _ c' _ o' _ here there
      cases here
      rw [id, code]
      obtain ⟨otherID, otherCode⟩ := fresh.2 q row' c' o' there
      exact ⟨otherID.symm, otherCode.symm⟩

theorem Consistent.insert {userCode : Bytes} {others : List Bytes}
    (inserting : s.phase r = .inserting row userCode others)
    (done : s.store.insertDeviceAuthorization
      { row with userCodeHash := svc.codeHash (str "user") userCode } now = (true, store)) :
    Consistent svc requests ({ s with store }.answer r
      (.started { row with userCodeHash := svc.codeHash (str "user") userCode })) := by
  have ok := consistent.phases r
  rw [inserting] at ok
  obtain ⟨pending, unused⟩ := ok
  refine consistent.answer unused (fun {id d} here => ?_) ?_
  · rcases lookup_insertDeviceAuthorization done here with ⟨-, rfl, rfl⟩ | ⟨-, before⟩
    · -- no decision can have been made on a grant that was not started
      have undecided : ∀ approve user time, .decided row.id approve user time ∉ s.history := by
        intro approve user time decided
        obtain ⟨other, started, same, -⟩ := started_of_decided consistent.lawful decided
        exact (unused other started).1 same
      refine ⟨rfl, ⟨_, mem_append_right _ (mem_singleton.mpr rfl), .refl _⟩, ?_, ?_, ?_⟩
      · intro _ approve user time listed
        rcases mem_append.mp listed with old | new
        · exact undecided approve user time old
        · cases mem_singleton.mp new
      all_goals
        intro approved
        rw [show _ = DeviceAuthStatus.pending from pending] at approved
        cases approved
    · exact (consistent.rows before).grow nofun
        nofun
  · intro _ _ _ _ _ other there same
    cases same
    have apart := consistent.distinct other.symm inserting there
    exact apart

theorem Consistent.tryNext {row' : DeviceAuthorization} {userCode : Bytes} {others : List Bytes}
    (inserting : s.phase r = .inserting row userCode others)
    (done : s.store.insertDeviceAuthorization row' now = (false, store)) :
    Consistent svc requests ({ s with store }.move r (tryNext row others)) := by
  have rows : ∀ {id d}, store.devices.lookup id = some d → Recorded svc s.history id d := by
    intro _ _ here
    rcases lookup_insertDeviceAuthorization done here with ⟨⟨⟩, -⟩ | ⟨-, before⟩
    exact consistent.rows before
  have ok := consistent.phases r
  rw [inserting] at ok
  cases others with
  | nil => exact consistent.refuse _ rows
  | cons =>
    refine consistent.move rows ok ?_
    intro _ _ _ _ _ _ _ other here there
    cases here
    exact consistent.distinct other.symm inserting there

theorem Consistent.decide {userID : ULID} {approve : Bool}
    (done : s.store.decideDeviceAuthorization id (if approve then .approved else .denied) userID
      now = (true, store)) :
    Consistent svc requests
      ({ s with store }.answer r (.decided id approve userID now)) := by
  rcases decideDeviceAuthorization_eq done with ⟨⟨⟩, -⟩ | ⟨-, _, here, pending, early, rfl⟩
  have recorded := consistent.rows here
  obtain ⟨row, started, grant⟩ := recorded.grant
  have undecided : ∀ approve user time, .decided id approve user time ∉ s.history :=
    recorded.key ▸ recorded.pending pending
  refine consistent.answer ⟨⟨row, started, grant.id.symm.trans recorded.key,
    grant.expiresAt ▸ early⟩, undecided⟩ (fun {id' d'} there => ?_) nofun
  obtain ⟨same, rfl⟩ | ⟨other, there⟩ := of_lookup_insert there
  · refine ⟨recorded.key.trans same.symm, ⟨row, mem_append_left _ started, { grant with }⟩,
      ?_, ?_, ?_⟩
    · intro still
      cases approve <;> cases still
    · intro approved
      cases approve with
      | false => cases approved
      | true =>
        exact ⟨userID, now, rfl, mem_append_right _ (mem_singleton.mpr (by rw [recorded.key]))⟩
    · -- a code that was redeemed belongs to a grant that was decided
      intro _ _ _ _ listed code
      rcases mem_append.mp listed with old | new
      · obtain ⟨_, _, there, hash, decided⟩ := started_of_redeemed consistent.lawful old
        have same := consistent.sameGrant here there (.inr (hash.trans code))
        rw [← same.id, recorded.key] at decided
        exact undecided _ _ _ decided
      · cases mem_singleton.mp new
  refine (consistent.rows there).grow (fun _ _ _ same => ?_) nofun
  cases same
  exact other rfl

end

theorem findPolled_eq_ok (found : findPolled svc store a deviceCode = .ok row) :
    (∃ id, store.devices.lookup id = some row) ∧
      row.deviceCodeHash = svc.codeHash (str "device") deviceCode ∧
        ∃ client, a.client = .ok client ∧ row.clientID = client.clientID := by
  obtain ⟨-, found⟩ := of_refuseIf found
  obtain ⟨client, authenticated, found⟩ := of_bind found
  obtain ⟨-, found⟩ := of_refuseIf found
  obtain ⟨_, stored, found⟩ := of_bind found
  obtain ⟨own, found⟩ := of_refuseIf found
  obtain ⟨-, found⟩ := of_refuseIf found
  cases found
  obtain ⟨⟨id, _⟩, looked, same⟩ := map_eq_some_iff.mp (orRefuse_eq_ok.mp stored)
  cases same
  obtain ⟨here, hash⟩ := find?_eq_some looked
  exact ⟨⟨id, here⟩, beq_iff_eq.mp hash, client, mapError_eq_ok.mp authenticated, not_not.mp own⟩

section

variable (consistent : Consistent svc requests s)
include consistent

theorem Consistent.lookup (asked : requests r = .poll deviceCode) :
    Consistent svc requests (s.move r (afterLookup svc s.store a deviceCode)) := by
  unfold afterLookup
  split
  · exact consistent.refuse _ consistent.rows
  · exact consistent.refuse _ consistent.rows
  rename_i client found authenticated
  obtain ⟨⟨_, here⟩, hash, client', same, own⟩ := findPolled_eq_ok found
  obtain rfl : client = client' := Except.ok.inj (authenticated.symm.trans same)
  have recorded := consistent.rows here
  refine consistent.move consistent.rows ⟨⟨recorded.grant, ?_, recorded.approved⟩, own.symm⟩
    nofun
  exact ⟨deviceCode, asked, hash⟩

theorem Consistent.record {polledAt : Time} {interval : Int}
    (done : s.store.recordDeviceAuthorizationPoll id polledAt interval = some store) :
    ∀ {id d}, store.devices.lookup id = some d → Recorded svc s.history id d := by
  obtain ⟨_, here, rfl⟩ := Option.map_eq_some_iff.mp done
  intro _ _ there
  obtain ⟨same, rfl⟩ | ⟨-, there⟩ := GoMap.of_lookup_insert there
  · have recorded := consistent.rows here
    obtain ⟨row, started, grant⟩ := recorded.grant
    exact ⟨recorded.key.trans same.symm, ⟨row, started, { grant with }⟩, recorded.pending,
      recorded.approved, recorded.unredeemed⟩
  · exact consistent.rows there

theorem Consistent.recorded {client : Bytes} (polling : s.phase r = .polling row client a)
    (rows : ∀ {id d}, store.devices.lookup id = some d → Recorded svc s.history id d) :
    Consistent svc requests ({ s with store }.move r (afterRecord row client a)) := by
  unfold afterRecord
  split
  · exact consistent.refuse _ rows
  split
  · exact consistent.refuse _ rows
  · exact consistent.refuse _ rows
  rename_i approved _
  have ok := consistent.phases r
  rw [polling] at ok
  obtain ⟨copied, rfl⟩ := ok
  refine consistent.move rows ⟨copied, rfl, ?_⟩ nofun
  unfold approver at approved
  split at approved
  · cases approved
  · cases approved
  · cases approved
  rename_i status
  obtain ⟨_, time, own, decided⟩ := copied.approved status
  have same := orRefuse_eq_ok.mp approved
  rw [own] at same
  cases same
  exact ⟨time, decided⟩

end

theorem Recorded.consume (recorded : Recorded svc history id d) :
    Recorded svc history id { d with status := .consumed } where
  key := recorded.key
  grant := by
    obtain ⟨row, started, grant⟩ := recorded.grant
    exact ⟨row, started, { grant with }⟩
  pending := nofun
  approved := nofun
  unredeemed := nofun

section

variable (consistent : Consistent svc requests s)
include consistent

theorem Consistent.unredeemed {e : DeviceError} {won : Bool}
    (done : s.store.consumeDeviceAuthorization id now = (won, store)) :
    Consistent svc requests ({ s with store }.move r (.refused e)) := by
  refine consistent.refuse e fun {id' d'} there => ?_
  rcases consumeDeviceAuthorization_eq done with ⟨-, rfl⟩ | ⟨-, _, here, -, -, rfl⟩
  · exact consistent.rows there
  · obtain ⟨same, rfl⟩ | ⟨-, there⟩ := of_lookup_insert there
    · rw [same]
      exact (consistent.rows here).consume
    · exact consistent.rows there

theorem Consistent.redeem {g : DeviceGrant} (redeeming : s.phase r = .redeeming row g now)
    (asked : requests r = .poll deviceCode)
    (done : s.store.consumeDeviceAuthorization row.id now = (true, store)) :
    Consistent svc requests
      ({ s with store }.answer r (.redeemed deviceCode g.clientID g)) := by
  have ok := consistent.phases r
  rw [redeeming] at ok
  obtain ⟨copied, grant, time, decided⟩ := ok
  obtain ⟨first, started, same⟩ := copied.grant
  obtain ⟨deviceCode', asked', hash⟩ := copied.code
  rw [asked] at asked'
  cases asked'
  rcases consumeDeviceAuthorization_eq done with ⟨⟨⟩, -⟩ | ⟨-, _, here, approved, -, rfl⟩
  have code : first.deviceCodeHash = svc.codeHash (str "device") deviceCode :=
    same.deviceCodeHash.symm.trans hash
  have stored := consistent.sameGrant here started (.inl same.id.symm)
  refine consistent.answer ⟨⟨first, time, started, code, ?_, ?_, same.id ▸ decided⟩, ?_⟩ ?_
    nofun
  · rw [grant]
    exact same.clientID
  · rw [grant, same.clientID, same.scope, same.resource]
  · intro other client' g' listed
    rw [← code, ← stored.deviceCodeHash]
    exact (consistent.rows here).unredeemed approved other client' g' listed
  · intro _ _ there
    obtain ⟨equal, rfl⟩ | ⟨other, there⟩ := of_lookup_insert there
    · rw [equal]
      exact (consistent.rows here).consume.grow nofun
        nofun
    refine (consistent.rows there).grow nofun ?_
    intro _ _ _ _ event clash
    cases event
    have mine := consistent.sameGrant there started (.inr (code.trans clash))
    exact other ((consistent.rows there).key.symm.trans (mine.id.trans same.id.symm))

theorem Consistent.step [RuneLib] {a : Action}
    (fresh : FreshStart svc s a) (taken : step svc requests s a = some next) :
    Consistent svc requests next := by
  cases stepped_of_step svc taken with
  | begin => exact consistent.begin fresh
  | inserted _ _ _ _ _ _ inserting done =>
    exact consistent.insert inserting done
  | taken _ _ _ _ _ _ inserting done => exact consistent.tryNext inserting done
  | find =>
    unfold afterFind
    split
    all_goals exact consistent.move consistent.rows True.intro nofun
  | decided _ _ _ _ _ _ _ _ _ _ done =>
    exact consistent.decide done
  | undecided _ _ _ _ _ _ _ done =>
    rcases decideDeviceAuthorization_eq done with ⟨-, rfl⟩ | ⟨⟨⟩, -⟩
    exact consistent.refuse _ consistent.rows
  | lookup _ _ _ _ asked => exact consistent.lookup asked
  | unrecorded _ e => exact consistent.refuse e consistent.rows
  | recorded _ _ _ _ _ polling done =>
    exact consistent.recorded polling (consistent.record done)
  | unredeemed _ _ _ _ _ _ _ done => exact consistent.unredeemed done
  | redeemed _ _ _ _ _ _ _ redeeming asked done =>
    exact consistent.redeem redeeming asked done

end

/-! ## The status -/

/-- The status moves forward. -/
inductive Moves : DeviceAuthStatus → DeviceAuthStatus → Prop
  | stay (status : DeviceAuthStatus) : Moves status status
  | approve : Moves .pending .approved
  | deny : Moves .pending .denied
  | consume : Moves .approved .consumed

/-- One of a new grant is pending. -/
def Moved (s next : System) : Prop :=
  ∀ id d', next.store.devices.lookup id = some d' →
    s.store.devices.lookup id = none ∧ (∀ other, .started other ∈ s.history → other.id ≠ id) ∧
        d'.status = .pending ∨
      ∃ d, s.store.devices.lookup id = some d ∧ Moves d.status d'.status

theorem moved_of_kept
    (kept : ∀ id d, next.store.devices.lookup id = some d → s.store.devices.lookup id = some d) :
    Moved s next := fun id d here => .inr ⟨d, kept id d here, .stay _⟩

theorem moved_of_insert {d' : DeviceAuthorization}
    (here : s.store.devices.lookup id = some d) (moves : Moves d.status d'.status)
    (written : next.store.devices = s.store.devices.insert id d') : Moved s next := by
  intro _ row there
  rw [written] at there
  obtain ⟨rfl, rfl⟩ | ⟨-, there⟩ := of_lookup_insert there
  · exact .inr ⟨d, here, moves⟩
  · exact .inr ⟨row, there, .stay _⟩

theorem Consistent.moved [RuneLib] (consistent : Consistent svc requests s) {a : Action}
    (taken : DeviceRuns.step svc requests s a = some next) : Moved s next := by
  cases stepped_of_step svc taken with
  | begin | find
  | lookup | unrecorded => exact moved_of_kept fun _ _ here => here
  | inserted r _ row _ _ store inserting done =>
    intro id d' here
    rcases lookup_insertDeviceAuthorization done here with ⟨-, rfl, rfl⟩ | ⟨-, before⟩
    · -- the store has no record of a grant that was not started
      have ok := consistent.phases r
      rw [inserting] at ok
      refine .inl ⟨?_, fun other started => (ok.2 other started).1, ok.1⟩
      cases there : s.store.devices.lookup row.id with
      | none => rfl
      | some =>
        have recorded := consistent.rows there
        obtain ⟨first, started, same⟩ := recorded.grant
        exact absurd (same.id.symm.trans recorded.key) (ok.2 first started).1
    · exact .inr ⟨d', before, .stay _⟩
  | taken _ _ _ _ _ _ _ done =>
    refine moved_of_kept fun id d here => ?_
    rcases lookup_insertDeviceAuthorization done here with ⟨⟨⟩, -⟩ | ⟨-, before⟩
    exact before
  | decided _ _ _ _ _ _ approve _ _ _ done =>
    rcases decideDeviceAuthorization_eq done with ⟨⟨⟩, -⟩ | ⟨-, d, here, pending, -, rfl⟩
    refine moved_of_insert here ?_ rfl
    rw [pending]
    cases approve with
    | true => exact .approve
    | false => exact .deny
  | undecided _ _ _ _ _ _ _ done =>
    rcases decideDeviceAuthorization_eq done with ⟨-, rfl⟩ | ⟨⟨⟩, -⟩
    exact moved_of_kept fun _ _ here => here
  | recorded _ _ _ _ _ _ done =>
    obtain ⟨d, here, rfl⟩ := map_eq_some_iff.mp done
    refine moved_of_insert here ?_ rfl
    exact .stay d.status
  | unredeemed _ _ _ _ _ _ _ done =>
    rcases consumeDeviceAuthorization_eq done with
      ⟨-, rfl⟩ | ⟨-, d, here, approved, -, rfl⟩
    · exact moved_of_kept fun _ _ here => here
    · exact moved_of_insert here (approved ▸ .consume) rfl
  | redeemed _ _ _ _ _ _ _ _ _ done =>
    rcases consumeDeviceAuthorization_eq done with ⟨⟨⟩, -⟩ | ⟨-, _, here, approved, -, rfl⟩
    exact moved_of_insert here (approved ▸ .consume) rfl

end

/-- **A device code yields tokens once, and only what was approved.** -/
theorem device_codes_redeemed_once_if_approved [RuneLib] (svc : DeviceService)
    (requests : ℕ → Request) (store : GrantStore) (actions : List Action) (s : System)
    (fresh : Throughout (step svc requests) (FreshStart svc) (.initial store) actions)
    (ran : run (step svc requests) (.initial store) actions = some s) :
    (∀ front back deviceCode client g,
      s.history = front ++ .redeemed deviceCode client g :: back →
        (∃ row time, .started row ∈ front ∧
          row.deviceCodeHash = svc.codeHash (str "device") deviceCode ∧ client = row.clientID ∧
          g = ⟨row.clientID, g.userID, row.scope, row.resource, g.dpopJKT⟩ ∧
          .decided row.id true g.userID time ∈ front ∧ time < row.expiresAt ∧
          ∀ user time, .decided row.id false user time ∉ s.history) ∧
        ∀ other client' g',
          svc.codeHash (str "device") other = svc.codeHash (str "device") deviceCode →
            .redeemed other client' g' ∉ front ++ back) ∧
    ∀ a next, step svc requests s a = some next → Moved s next := by
  have initially : Consistent svc requests (.initial store) :=
    ⟨.nil, nofun, fun _ => True.intro, nofun⟩
  have consistent : Consistent svc requests s :=
    invariant_of_run_throughout (fun before fresh taken => before.step fresh taken) initially
      fresh ran
  exact ⟨fun _ _ _ _ _ split => redeemed_of_lawful consistent.lawful split,
    fun _ _ taken => consistent.moved taken⟩

/-! ## A television -/

section

def deviceServer : DeviceService where
  issuer := str "https://as"
  encryptionKey := [1]
  resources := ⟨[⟨str "https://api", []⟩], false, false⟩
  config := some { userCodeLength := 1 }

def television : OAuthClient := { clientID := str "tv", grantTypes := [grantTypeDeviceCode] }

def televisionRequests : ℕ → Request
  | 0 => .start ⟨[str "read"], []⟩
  | 1 => .decide (str "user") (str "b") 7 true
  | _ => .poll (str "code")

abbrev televisionStart : DeviceStartAnswers := ⟨0, .ok television, str "code", 3, [str "B"]⟩

def televisionGrant : DeviceAuthorization :=
  { deviceRow deviceServer { userCodeLength := 1 } televisionStart television [str "read"]
      ⟨str "https://api", []⟩ with
    userCodeHash := deviceServer.codeHash (str "user") (str "B") }

def televisionRun : List Action :=
  [.begin 0 televisionStart, .insert 0 1, .find 1 ⟨2, fun _ => some true, fun _ => none⟩,
    .decide 1 3, .lookup 2 ⟨4, .ok television, .ok []⟩, .record 2, .consume 2 (.ok ())]

def televisionTokens : DeviceGrant := ⟨str "tv", 7, [str "read"], str "https://api", []⟩

attribute [local instance] RuneLib.ascii

theorem television_redeems_once :
    ∃ s, run (step deviceServer televisionRequests) (.initial ⟨∅, ∅⟩) televisionRun = some s ∧
      s.history = [.started televisionGrant, .decided 3 true 7 3] ++
        .redeemed (str "code") (str "tv") televisionTokens :: [] ∧
      (∃ row time, Event.started row ∈ [.started televisionGrant, .decided 3 true 7 3] ∧
        Event.decided row.id true 7 time ∈ [.started televisionGrant, .decided 3 true 7 3] ∧
        time < row.expiresAt) ∧
      ∀ a next, step deviceServer televisionRequests s a = some next → Moved s next := by
  have ended : (run (step deviceServer televisionRequests) (.initial ⟨∅, ∅⟩) televisionRun).map
      (·.history) = some ([.started televisionGrant, .decided 3 true 7 3] ++
        .redeemed (str "code") (str "tv") televisionTokens :: []) := by decide +kernel
  obtain ⟨s, ran, history⟩ := map_eq_some_iff.mp ended
  have fresh : Throughout (step deviceServer televisionRequests) (FreshStart deviceServer)
      (.initial ⟨∅, ∅⟩) televisionRun :=
    ⟨⟨nofun, nofun⟩,
      fun _ _ => ⟨True.intro, fun _ _ => ⟨True.intro, fun _ _ => ⟨True.intro,
        fun _ _ => ⟨True.intro, fun _ _ => ⟨True.intro, fun _ _ => ⟨True.intro,
          fun _ _ => True.intro⟩⟩⟩⟩⟩⟩⟩
  obtain ⟨redeemed, moved⟩ := device_codes_redeemed_once_if_approved deviceServer
    televisionRequests ⟨∅, ∅⟩ televisionRun s fresh ran
  obtain ⟨⟨row, time, started, -, -, -, decided, early, -⟩, -⟩ := redeemed _ _ _ _ _ history
  exact ⟨s, ran, history, ⟨row, time, started, decided, early⟩, moved⟩

end

end TheAuth.Server.DeviceRuns
