import TheAuth.ApiTokens.Device
import TheAuth.Library.Run

/-!
# Device codes and tokens over any interleaving

The calls are interleaved between the operations of the store. A code is claimed once, so it is
that of one token, and the abilities of the token are narrowed when the request is approved and
again whenever the token is used.
-/

set_option autoImplicit false

namespace TheAuth.ApiTokens

open Go Server Library.Result Library.Run List GoMap Option
open Function (update)

/-- Where a call stands. -/
inductive Call where
  | starting (d : DeviceCode) (left : ℕ)
  | deciding (d : DeviceCode) (dec : DeviceDecision) (held : List Bytes)
  | redeeming (hash : Bytes) (phase : Redemption)
  | ended

/-- An approval that was stored, with what was requested and held. -/
structure Approval where
  code : Bytes
  (requested held : List Bytes)
  approver : ULID
  (time expiresAt : Time)

/-- `approvals` and `made` record what happened; no call reads them. -/
structure System extends Store where
  calls : ℕ → Call
  approvals : List Approval
  made : List (Bytes × APIToken)

def System.empty : System := ⟨⟨∅, ∅⟩, fun _ => .ended, [], []⟩

/-- One operation of one call. -/
inductive Action where
  | start (input : StartInput) (deviceCode : Bytes) (now : Time)
  | insert (id : ULID) (userCode : Bytes)
  | review (v : Verdict) (of : Selector) (now : Time)
  | decide (now : Time)
  | poll (deviceCode : Bytes)
  | redeem (a : RedeemAnswers)
  | touch (id : ULID) (now : Time)

def record (made : List (Bytes × APIToken)) (hash : Bytes) : Redemption → List (Bytes × APIToken)
  | .minting _ tok => made ++ [(hash, tok)]
  | _ => made

/-- An operation of the call `i`. -/
def step [StdLib] (cfg : Config) (s : System) : ℕ × Action → Option System
  | (i, .start input deviceCode now) =>
    match cfg.startRecord input deviceCode now with
    | .error _ => some s
    | .ok d => some { s with calls := update s.calls i (.starting d 5) }
  | (i, .insert id userCode) =>
    match s.calls i with
    | .starting d (left + 1) =>
      match s.insertDeviceCode { d with id, userCode } with
      | none => some { s with calls := update s.calls i (.starting d left) }
      | some next => some { s with toStore := next, calls := update s.calls i .ended }
    | _ => none
  | (i, .review v of now) =>
    match s.select now of with
    | .error _ => some s
    | .ok d =>
      match v.decide d with
      | .error _ => some s
      | .ok (dec, held) => some { s with calls := update s.calls i (.deciding d dec held) }
  | (i, .decide now) =>
    match s.calls i with
    | .deciding d dec held =>
      match s.decideDeviceCode d.userCode dec now with
      | none => some { s with calls := update s.calls i .ended }
      | some (e, next) =>
        let new : Approval :=
          ⟨e.deviceCodeHash, e.requestedAbilities, held, dec.approverID, now, e.expiresAt⟩
        some { s with
          toStore := next, calls := update s.calls i .ended
          approvals := if dec.approve then s.approvals ++ [new] else s.approvals }
    | _ => none
  | (i, .poll deviceCode) =>
    some { s with calls := update s.calls i (.redeeming (hashToken deviceCode) .ready) }
  | (i, .redeem a) =>
    match s.calls i with
    | .redeeming hash phase =>
      let (phase, next) := ApiTokens.redeem cfg hash a (phase, s.toStore)
      some { s with
        toStore := next, calls := update s.calls i (.redeeming hash phase)
        made := record s.made hash phase }
    | _ => none
  | (_, .touch id now) =>
    match s.tokens.lookup id with
    | none => some s
    | some t => some { s with tokens := s.tokens.insert id { t with lastUsedAt := some now } }

/-- A record that is inserted has a new identifier and a new device code. -/
def fresh (s : System) (act : ℕ × Action) : Bool :=
  match act.2, s.calls act.1 with
  | .insert id _, .starting d _ =>
    (s.devices.lookup id).isNone && (s.byHash d.deviceCodeHash).isNone
  | _, _ => true

theorem holdsAbility_trans {small big : List Bytes} {need : Bytes}
    (all : ∀ ab ∈ small, holdsAbility big ab = true) (has : holdsAbility small need = true) :
    holdsAbility big need = true := by
  unfold holdsAbility at *
  rcases Bool.or_eq_true_iff.mp has with root | own
  · simpa using .inl (by simpa using all _ (contains_iff_mem.mp root))
  · exact all need (contains_iff_mem.mp own)

/-! ## The invariant -/

/-- The approval was given in time by the owner, who asked for and holds the abilities. -/
structure Approval.Covers (a : Approval) (owner : ULID) (abilities : List Bytes) : Prop where
  owner : a.approver = owner
  inTime : a.time < a.expiresAt
  requested : ∀ ab ∈ abilities, ab ∈ a.requested
  held : ∀ ab ∈ abilities, holdsAbility a.held ab = true

/-- A token was made for a user by an approval. -/
def Backed (approvals : List Approval) (entry : Bytes × APIToken) : Prop :=
  entry.2.ownerKind = .user ∧
    ∃ a ∈ approvals, a.code = entry.1 ∧ a.Covers entry.2.ownerID entry.2.abilities

/-- A device code was approved, and has what the approval covers. -/
def Granted (approvals : List Approval) (d : DeviceCode) : Prop :=
  ∃ a ∈ approvals, a.code = d.deviceCodeHash ∧ ∃ approver, d.approverID = some approver ∧
    a.Covers approver d.approvedAbilities

/-- What never changes in a record, and that it stays redeemed. -/
structure DeviceCode.Same (d e : DeviceCode) : Prop where
  hash : e.deviceCodeHash = d.deviceCodeHash
  userCode : e.userCode = d.userCode
  requested : e.requestedAbilities = d.requestedAbilities
  redeemed : d.status = .redeemed → e.status = .redeemed

/-- No two records have the same key. -/
def Distinct (key : DeviceCode → Bytes) (devices : GoMap ULID DeviceCode) : Prop :=
  ∀ ⦃id other d e⦄, devices.lookup id = some d → devices.lookup other = some e →
    key d = key e → id = other

/-- The device codes have distinct codes, and none is approved without an approval. -/
structure Ledger (devices : GoMap ULID DeviceCode) (approvals : List Approval) : Prop where
  hashes : Distinct DeviceCode.deviceCodeHash devices
  userCodes : Distinct DeviceCode.userCode devices
  granted : ∀ {id d}, devices.lookup id = some d → d.status = .approved ∨ d.status = .redeemed →
    Granted approvals d

/-- A device code with this hash has been redeemed. -/
def Redeemed (devices : GoMap ULID DeviceCode) (hash : Bytes) : Prop :=
  ∃ id d, devices.lookup id = some d ∧ d.deviceCodeHash = hash ∧ d.status = .redeemed

/-- Nothing is forgotten between two states. -/
structure Grows (s next : System) : Prop where
  devices : ∀ {id d}, s.devices.lookup id = some d → ∃ e, next.devices.lookup id = some e ∧ d.Same e
  approvals : s.approvals ⊆ next.approvals
  made : s.made ⊆ next.made

/-- What a call has read is still true of the system. -/
def Sound (s : System) : Call → Prop
  | .starting d _ => d.status = .pending
  | .deciding d dec held =>
    dec.approve = true →
      (∃ id e, s.devices.lookup id = some e ∧ e.userCode = d.userCode ∧
        e.requestedAbilities = d.requestedAbilities) ∧
      ∀ ab ∈ dec.abilities, ab ∈ d.requestedAbilities ∧ holdsAbility held ab = true
  | .redeeming hash (.minting _ tok) | .redeeming hash (.issued _ tok) => (hash, tok) ∈ s.made
  | _ => True

/-- The invariant: every token was made once, by an approval. -/
structure Consistent (s : System) : Prop where
  ledger : Ledger s.devices s.approvals
  calls : ∀ i, Sound s (s.calls i)
  made : ∀ entry ∈ s.made, Backed s.approvals entry ∧ Redeemed s.devices entry.1
  once : (s.made.map Prod.fst).Nodup
  tokens : ∀ id t, s.tokens.lookup id = some t →
    ∃ entry ∈ s.made, ∃ used, t = { entry.2 with lastUsedAt := used }

variable {s next : System} {call : Call} {id : ULID} {d e : DeviceCode}

theorem Sound.grow (grows : Grows s next) (sound : Sound s call) :
    Sound next call := by
  unfold Sound at *
  split at sound
  · exact sound
  · intro approve
    obtain ⟨⟨id, _, here, code, requested⟩, bound⟩ := sound approve
    obtain ⟨f, there, same⟩ := grows.devices here
    exact ⟨⟨id, f, there, same.userCode.trans code, same.requested.trans requested⟩, bound⟩
  · exact grows.made sound
  · exact grows.made sound
  · trivial

section

variable {key : DeviceCode → Bytes} {devices : GoMap ULID DeviceCode}
  {approvals more : List Approval}

theorem Distinct.change (distinct : Distinct key devices) (here : devices.lookup id = some d)
    (same : key e = key d) : Distinct key (devices.insert id e) := by
  intro _ _ _ _ found found' _
  rw [lookup_insert_eq] at found found'
  grind [Distinct]

theorem Distinct.insert (distinct : Distinct key devices)
    (fresh : devices.find? (fun e => key e == key d) = none) (id : ULID) :
    Distinct key (devices.insert id d) := by
  intro _ _ _ _ found found' _
  have other : ∀ {at_ e}, devices.lookup at_ = some e → key e ≠ key d := by
    intro _ _ here
    simpa using find?_eq_none fresh here
  rw [lookup_insert_eq] at found found'
  grind [Distinct]

theorem granted_insert (ledger : Ledger devices approvals) (grow : approvals ⊆ more)
    (granted : e.status = .approved ∨ e.status = .redeemed → Granted more e) {at_ : ULID}
    {row : DeviceCode} (found : (devices.insert id e).lookup at_ = some row)
    (status : row.status = .approved ∨ row.status = .redeemed) : Granted more row := by
  rcases of_lookup_insert found with ⟨-, rfl⟩ | ⟨-, before⟩
  · exact granted status
  · obtain ⟨a, member, rest⟩ := ledger.granted before status
    exact ⟨a, grow member, rest⟩

end

/-! ## Steps -/

theorem Consistent.move {i : ℕ} (c : Consistent s) (calls : next.calls = update s.calls i call)
    (grows : Grows s next) (ledger : Ledger next.devices next.approvals) (sound : Sound next call)
    (made : ∀ entry ∈ next.made,
      entry ∈ s.made ∨ Backed next.approvals entry ∧ Redeemed next.devices entry.1)
    (once : (next.made.map Prod.fst).Nodup)
    (tokens : ∀ id t, next.tokens.lookup id = some t → s.tokens.lookup id = some t ∨
      ∃ entry ∈ next.made, ∃ used, t = { entry.2 with lastUsedAt := used }) :
    Consistent next := by
  refine ⟨ledger, ?_, fun entry member => ?_, once, fun id t found => ?_⟩
  · rw [calls]
    exact (Function.forall_update_iff s.calls fun _ => Sound next).mpr
      ⟨sound, fun j _ => (c.calls j).grow grows⟩
  · refine (made entry member).elim (fun old => ?_) fun new => new
    obtain ⟨⟨user, a, approval, covers⟩, id, _, here, hash, status⟩ := c.made entry old
    obtain ⟨e, there, same⟩ := grows.devices here
    exact ⟨⟨user, a, grows.approvals approval, covers⟩, id, e, there, same.hash.trans hash,
      same.redeemed status⟩
  · refine (tokens id t found).elim (fun old => ?_) fun new => new
    obtain ⟨entry, member, rest⟩ := c.tokens id t old
    exact ⟨entry, grows.made member, rest⟩

theorem Consistent.quiet (c : Consistent s) (i : ℕ) (sound : Sound s call) :
    Consistent { s with calls := update s.calls i call } :=
  c.move rfl ⟨fun here => ⟨_, here, rfl, rfl, rfl, fun done => done⟩, fun _ => id, fun _ => id⟩
    c.ledger sound (fun _ => .inl) c.once fun _ _ => .inl

theorem grows_setDevice (here : s.devices.lookup id = some d) (same : d.Same e)
    (devices : next.devices = s.devices.insert id e) (approvals : s.approvals ⊆ next.approvals)
    (made : s.made ⊆ next.made) : Grows s next := by
  refine ⟨fun {key row} found => ?_, approvals, made⟩
  rw [devices, lookup_insert_eq]
  split
  next this =>
    rw [this] at found
    cases here.symm.trans found
    exact ⟨e, rfl, same⟩
  · exact ⟨row, found, rfl, rfl, rfl, fun done => done⟩

theorem Consistent.changed {approvals : List Approval} (c : Consistent s) (i : ℕ)
    (here : s.devices.lookup id = some d) (same : d.Same e) (grow : s.approvals ⊆ approvals)
    (granted : e.status = .approved ∨ e.status = .redeemed → Granted approvals e)
    (sound : ∀ next, Sound next call) :
    Consistent { s with
      toStore := s.setDevice e id, approvals, calls := update s.calls i call } :=
  c.move rfl (grows_setDevice here same rfl grow fun _ member => member)
    ⟨c.ledger.hashes.change here same.hash, c.ledger.userCodes.change here same.userCode,
      granted_insert c.ledger grow granted⟩
    (sound _) (fun _ => .inl) c.once fun _ _ => .inl

theorem Consistent.polled {store : Store} (c : Consistent s) (i : ℕ) {hash : Bytes} {time : Time}
    {interval : Int} (done : s.recordDevicePoll hash time interval = some store)
    (sound : ∀ next, Sound next call) :
    Consistent { s with toStore := store, calls := update s.calls i call } := by
  obtain ⟨⟨_, d⟩, found, rfl⟩ := map_eq_some_iff.mp done
  have here := (find?_eq_some found).1
  refine c.changed i here ⟨rfl, rfl, rfl, fun done => done⟩ (fun _ old => old) ?_ sound
  exact fun status => show Granted s.approvals d from c.ledger.granted here status

section

variable {i : ℕ} {hash raw : Bytes} {now : Time} {claimed : DeviceCode} {next : Store}
  {tok : APIToken} {dec : DeviceDecision} {held : List Bytes}

theorem claimDeviceCode_eq_some {st : Store}
    (done : st.claimDeviceCode hash now = some (claimed, next)) :
    ∃ id d, st.devices.lookup id = some d ∧ d.deviceCodeHash = hash ∧ d.status = .approved ∧
      claimed = { d with status := .redeemed } ∧ next = st.setDevice claimed id := by
  unfold Store.claimDeviceCode at done
  split at done
  · cases done
  next id d found =>
    split at done <;> cases done
    rename_i inTime
    obtain ⟨here, own⟩ := find?_eq_some found
    exact ⟨id, d, here, beq_iff_eq.mp own, not_not.mp fun other => inTime (.inl other), rfl, rfl⟩

theorem Consistent.spent {fault : TokenError} (c : Consistent s) (i : ℕ)
    (done : s.claimDeviceCode hash now = some (claimed, next)) :
    Consistent { s with
      toStore := next, calls := update s.calls i (.redeeming hash (.failed fault)) } := by
  obtain ⟨_, d, here, -, approved, rfl, rfl⟩ := claimDeviceCode_eq_some done
  refine c.changed i here ⟨rfl, rfl, rfl, fun _ => rfl⟩ (fun _ old => old) ?_ fun _ => trivial
  exact fun _ => show Granted s.approvals d from c.ledger.granted here (.inl approved)

/-- The claim comes before the token, and is made once. -/
theorem Consistent.claim (c : Consistent s)
    (done : s.claimDeviceCode hash now = some (claimed, next))
    (owner : claimed.approverID = some tok.ownerID) (user : tok.ownerKind = .user)
    (abilities : tok.abilities = claimed.approvedAbilities) :
    Consistent { s with
      toStore := next, calls := update s.calls i (.redeeming hash (.minting raw tok))
      made := s.made ++ [(hash, tok)] } := by
  obtain ⟨id, d, here, own, approved, rfl, rfl⟩ := claimDeviceCode_eq_some done
  obtain ⟨a, member, code, approver, by_, covers⟩ := c.ledger.granted here (.inl approved)
  have unused : hash ∉ s.made.map Prod.fst := by
    intro used
    obtain ⟨entry, listed, rfl⟩ := mem_map.mp used
    obtain ⟨-, _, _, there, hash, redeemed⟩ := c.made entry listed
    cases c.ledger.hashes here there (own.trans hash.symm)
    cases here.symm.trans there
    exact nomatch approved.symm.trans redeemed
  have granted : Granted s.approvals { d with status := .redeemed } :=
    ⟨a, member, code, approver, by_, covers⟩
  have same : d.Same { d with status := .redeemed } := ⟨rfl, rfl, rfl, fun _ => rfl⟩
  refine c.move rfl (grows_setDevice here same rfl (fun _ old => old) (subset_append_left ..))
    ⟨c.ledger.hashes.change here rfl, c.ledger.userCodes.change here rfl,
      granted_insert c.ledger (fun _ old => old) fun _ => granted⟩
    (mem_append_right _ mem_cons_self) (fun entry listed => ?_) ?_ fun _ _ => .inl
  · refine (mem_append.mp listed).imp_right fun new => ?_
    cases mem_singleton.mp new
    cases owner.symm.trans by_
    exact ⟨⟨user, a, member, code.trans own, abilities ▸ covers⟩, id, _, AList.lookup_insert _,
      own, rfl⟩
  · rw [map_append]
    exact c.once.append (nodup_singleton _) (disjoint_singleton.mpr unused)

theorem select_eq_ok {st : Store} {of : Selector} (done : st.select now of = .ok d) :
    ∃ id e, st.devices.lookup id = some e ∧ e.userCode = d.userCode ∧
      e.requestedAbilities = d.requestedAbilities := by
  cases of with
  | userCode =>
    obtain ⟨-, done⟩ := of_refuseIf done
    obtain ⟨⟨id, _⟩, found, done⟩ := of_bind done
    obtain ⟨-, done⟩ := of_refuseIf done
    obtain ⟨-, done⟩ := of_refuseIf done
    cases done
    exact ⟨id, d, (find?_eq_some (orRefuse_eq_ok.mp found)).1, rfl, rfl⟩
  | id =>
    have listed := mem_of_find?_eq_some (orRefuse_eq_ok.mp done)
    obtain ⟨e, taken, rfl⟩ := mem_map.mp listed
    have pending := mem_mergeSort.mp (mem_of_mem_take taken)
    obtain ⟨id, here⟩ := mem_values.mp (mem_filter.mp pending).1
    exact ⟨id, e, here, rfl, rfl⟩

theorem sound_deciding {v : Verdict} {of : Selector} (selected : s.select now of = .ok d)
    (decided : v.decide d = .ok (dec, held)) : Sound s (.deciding d dec held) := by
  intro approve
  refine ⟨select_eq_ok selected, fun ab member => ?_⟩
  by_cases asked : v.approve = true
  · obtain ⟨-, -, -, inside, same⟩ := decide_eq_ok decided asked
    rw [same, mem_clampAbilities] at member
    refine ⟨?_, member.2⟩
    split at member
    · exact member.1
    · exact inside ab member.1
  · rw [Verdict.decide, if_pos (by simpa using asked)] at decided
    cases decided
    cases approve

theorem Consistent.inserted (c : Consistent s) (i : ℕ)
    (pending : d.status = .pending) (newID : s.devices.lookup d.id = none)
    (newCode : s.byHash d.deviceCodeHash = none) (done : s.insertDeviceCode d = some next) :
    Consistent { s with toStore := next, calls := update s.calls i .ended } := by
  unfold Store.insertDeviceCode at done
  split at done <;> cases done
  rename_i free
  have grows : Grows s { s with
      toStore := s.setDevice d d.id, calls := update s.calls i .ended } := by
    refine ⟨fun {key row} found => ⟨row, ?_, rfl, rfl, rfl, fun old => old⟩, fun _ old => old,
      fun _ old => old⟩
    rw [Store.setDevice, lookup_insert_eq, if_neg, found]
    rintro rfl
    exact nomatch newID.symm.trans found
  refine c.move rfl grows ⟨c.ledger.hashes.insert newCode _, c.ledger.userCodes.insert ?_ _,
    granted_insert c.ledger (fun _ old => old) fun status => ?_⟩ trivial (fun _ => .inl) c.once
      fun _ _ => .inl
  · exact not_isSome_iff_eq_none.mp free
  · rw [pending] at status
    exact status.elim nofun nofun

theorem Consistent.decided (c : Consistent s) (here : s.calls i = .deciding d dec held)
    (done : s.decideDeviceCode d.userCode dec now = some (e, next)) :
    Consistent { s with
      toStore := next, calls := update s.calls i .ended
      approvals := if dec.approve then s.approvals ++ [⟨e.deviceCodeHash, e.requestedAbilities,
        held, dec.approverID, now, e.expiresAt⟩] else s.approvals } := by
  unfold Store.decideDeviceCode at done
  split at done
  · cases done
  next row found =>
    split at done
    · cases done
    rename_i open_
    obtain ⟨there, own⟩ := find?_eq_some found
    replace own : row.userCode = d.userCode := beq_iff_eq.mp own
    have pending : row.status = .pending := not_not.mp fun other => open_ (.inl other)
    have sound := c.calls i
    rw [here] at sound
    cases approve : dec.approve with
    | false =>
      simp only [approve] at done
      cases done
      exact c.changed i there ⟨rfl, rfl, rfl, fun old => nomatch pending.symm.trans old⟩
        (fun _ old => old) (fun status => status.elim nofun nofun) fun _ => trivial
    | true =>
      obtain ⟨⟨_, _, stored, code, requested⟩, bound⟩ := sound approve
      cases c.ledger.userCodes there stored (own.trans code.symm)
      cases there.symm.trans stored
      simp only [approve] at done
      cases done
      refine c.changed i there ⟨rfl, rfl, rfl, fun old => nomatch pending.symm.trans old⟩
        (subset_append_left ..) (fun _ => ?_) fun _ => trivial
      exact ⟨_, mem_append_right _ mem_cons_self, rfl, _, rfl, rfl,
        not_not.mp fun late => open_ (.inr late), fun ab member => requested ▸ (bound ab member).1,
        fun ab member => (bound ab member).2⟩

theorem authenticate_eq_ok {cfg : Config} {tokens : GoMap ULID APIToken} {a : AuthAnswers}
    {p : Principal} (done : cfg.authenticate tokens raw a = .ok p) :
    ∃ id t, tokens.lookup id = some t ∧ t.tokenHash = hashToken raw ∧ p.userID = t.ownerID ∧
      p.tokenID = t.id ∧ (t.ownerKind = .user →
        ∃ held, a.held = .ok held ∧ p.abilities = clampAbilities t.abilities held) := by
  obtain ⟨-, done⟩ := of_refuseIf done
  obtain ⟨⟨id, t⟩, found, done⟩ := of_bind done
  obtain ⟨-, done⟩ := of_refuseIf done
  obtain ⟨_, -, done⟩ := of_bind done
  obtain ⟨-, done⟩ := of_refuseIf done
  obtain ⟨_, clamped, done⟩ := of_bind done
  cases done
  obtain ⟨here, own⟩ := find?_eq_some (orRefuse_eq_ok.mp found)
  refine ⟨id, t, here, beq_iff_eq.mp own, rfl, rfl, fun user => ?_⟩
  rw [APIToken.effective, if_pos user] at clamped
  cases held : a.held with
  | error =>
    rw [held] at clamped
    cases clamped
  | ok now =>
    rw [held] at clamped
    cases clamped
    exact ⟨now, rfl, rfl⟩

variable [StdLib] {cfg : Config}

theorem owner_of_mintClaimed {a : RedeemAnswers}
    (minted : mintClaimed cfg claimed a = .ok (raw, tok)) :
    claimed.approverID = some tok.ownerID ∧ tok.ownerKind = .user ∧
      tok.abilities = claimed.approvedAbilities := by
  obtain ⟨_, owner, minted⟩ := of_bind minted
  obtain ⟨_, -, minted⟩ := of_bind minted
  obtain ⟨-, minted⟩ := of_refuseIf minted
  obtain ⟨_, -, minted⟩ := of_bind minted
  obtain ⟨_, -, minted⟩ := of_bind minted
  obtain ⟨-, minted⟩ := of_refuseIf minted
  obtain ⟨-, minted⟩ := of_refuseIf minted
  cases minted
  exact ⟨orRefuse_eq_ok.mp owner, rfl, rfl⟩

theorem Consistent.redeem {phase after : Redemption} {a : RedeemAnswers}
    (c : Consistent s) (here : s.calls i = .redeeming hash phase)
    (done : ApiTokens.redeem cfg hash a (phase, s.toStore) = (after, next)) :
    Consistent { s with
      toStore := next, calls := update s.calls i (.redeeming hash after)
      made := record s.made hash after } := by
  have own := c.calls i
  rw [here] at own
  cases phase with
  | ready =>
    dsimp only [ApiTokens.redeem] at done
    split at done
    · cases done
      exact c.quiet i trivial
    split at done
    · cases done
      exact c.quiet i trivial
    split at done <;> cases done <;> exact c.quiet i trivial
  | slowing =>
    dsimp only [ApiTokens.redeem] at done
    split at done <;> cases done
    · exact c.quiet i trivial
    · exact c.polled i ‹_› fun _ => trivial
  | polling d now =>
    dsimp only [ApiTokens.redeem] at done
    split at done
    · cases done
      exact c.quiet i trivial
    rename_i polled
    split at done <;> cases done <;> exact c.polled i polled fun _ => trivial
  | claiming now =>
    dsimp only [ApiTokens.redeem] at done
    split at done
    · cases done
      exact c.quiet i trivial
    rename_i claim
    split at done <;> cases done
    · exact c.spent i claim
    · rename_i minted
      obtain ⟨owner, user, abilities⟩ := owner_of_mintClaimed minted
      exact c.claim claim owner user abilities
  | minting _ tok =>
    cases done
    refine c.move rfl ⟨fun there => ⟨_, there, rfl, rfl, rfl, fun old => old⟩, fun _ old => old,
      fun _ old => old⟩ c.ledger own (fun _ => .inl) c.once fun id t found => ?_
    rcases of_lookup_insert found with ⟨-, rfl⟩ | ⟨-, before⟩
    · exact .inr ⟨_, own, tok.lastUsedAt, rfl⟩
    · exact .inl before
  | issued =>
    cases done
    exact c.quiet i own
  | failed =>
    cases done
    exact c.quiet i trivial

theorem Consistent.step {act : ℕ × Action} {next : System} (c : Consistent s)
    (new : fresh s act = true) (done : ApiTokens.step cfg s act = some next) : Consistent next := by
  obtain ⟨i, act⟩ := act
  cases act with
  | start input deviceCode now =>
    dsimp only [ApiTokens.step] at done
    split at done <;> cases done
    · exact c
    rename_i started
    obtain ⟨_, -, started⟩ := of_bind started
    cases started
    exact c.quiet i rfl
  | insert id userCode =>
    dsimp only [ApiTokens.step] at done
    split at done
    next d left here =>
      have pending := c.calls i
      rw [here] at pending
      rw [fresh, here] at new
      obtain ⟨newID, newCode⟩ := Bool.and_eq_true_iff.mp new
      split at done <;> cases done
      · exact c.quiet i pending
      · rename_i inserted
        exact c.inserted (d := { d with id, userCode }) i pending
          (isNone_iff_eq_none.mp newID) (isNone_iff_eq_none.mp newCode) inserted
    · cases done
  | review v of now =>
    dsimp only [ApiTokens.step] at done
    split at done
    · cases done
      exact c
    rename_i selected
    split at done <;> cases done
    · exact c
    · exact c.quiet i (sound_deciding selected ‹_›)
  | decide =>
    dsimp only [ApiTokens.step] at done
    split at done
    next here =>
      split at done <;> cases done
      · exact c.quiet i trivial
      · exact c.decided here ‹_›
    · cases done
  | poll =>
    cases done
    exact c.quiet i trivial
  | redeem =>
    dsimp only [ApiTokens.step] at done
    split at done <;> cases done
    rename_i here
    exact c.redeem here rfl
  | touch id now =>
    dsimp only [ApiTokens.step] at done
    split at done <;> cases done
    · exact c
    rename_i t here
    obtain ⟨entry, member, _, rfl⟩ := c.tokens id t here
    refine ⟨c.ledger, c.calls, c.made, c.once, fun key row found => ?_⟩
    rcases of_lookup_insert found with ⟨-, rfl⟩ | ⟨-, before⟩
    · exact ⟨entry, member, some now, rfl⟩
    · exact c.tokens key row before

/-- **A device code yields at most one token, after an approval in time, and the token can do only
what was requested, held by the approver and is held by its owner.** -/
theorem device_tokens_attenuated (acts : List (ℕ × Action)) (last : System)
    (new : Throughout (ApiTokens.step cfg) (fun s act => fresh s act = true) .empty acts)
    (ran : run (ApiTokens.step cfg) .empty acts = some last) :
    (last.made.map Prod.fst).Nodup ∧
      (∀ i hash raw tok, last.calls i = .redeeming hash (.issued raw tok) →
        (hash, tok) ∈ last.made) ∧
      (∀ entry ∈ last.made, Backed last.approvals entry) ∧
      ∀ raw a p, cfg.authenticate last.tokens raw a = .ok p →
        ∃ entry ∈ last.made, entry.2.id = p.tokenID ∧ entry.2.tokenHash = hashToken raw ∧
          ∃ ap ∈ last.approvals, ap.code = entry.1 ∧ ap.approver = p.userID ∧
            ∃ now, a.held = .ok now ∧ ∀ need, holdsAbility p.abilities need = true →
              holdsAbility ap.requested need = true ∧ holdsAbility ap.held need = true ∧
                holdsAbility now need = true := by
  have none_ : ∀ id, System.empty.devices.lookup id = none := fun _ => rfl
  have start : Consistent .empty :=
    ⟨⟨fun _ _ _ _ here => (nomatch (none_ _).symm.trans here),
      fun _ _ _ _ here => (nomatch (none_ _).symm.trans here),
      fun here => (nomatch (none_ _).symm.trans here)⟩, fun _ => trivial,
      nofun, .nil, nofun⟩
  have c := invariant_of_run_throughout (fun c new done => Consistent.step c new done) start new ran
  refine ⟨c.once, fun i hash raw tok here => ?_, fun entry listed => (c.made entry listed).1,
    fun raw a p done => ?_⟩
  · have sound := c.calls i
    rwa [here] at sound
  · obtain ⟨id, t, here, hash, user, token, clamped⟩ := authenticate_eq_ok done
    obtain ⟨entry, listed, _, rfl⟩ := c.tokens id t here
    obtain ⟨⟨kind, ap, approval, code, covers⟩, -⟩ := c.made entry listed
    obtain ⟨now, held, same⟩ := clamped kind
    refine ⟨entry, listed, token.symm, hash, ap, approval, code, covers.owner.trans user.symm, now,
      held, fun need has => ?_⟩
    rw [same] at has
    refine ⟨holdsAbility_trans (fun ab member => ?_) has,
      holdsAbility_trans (fun ab member => ?_) has,
      holdsAbility_trans (fun ab member => (mem_clampAbilities.mp member).2) has⟩
    · have inside := covers.requested ab (mem_clampAbilities.mp member).1
      simp [holdsAbility, inside]
    · exact covers.held ab (mem_clampAbilities.mp member).1

end

/-- The device asks for two abilities and the approver, who holds both, grants one. -/
def reading : List (ℕ × Action) :=
  [(0, .start ⟨str "cli", [str "read", str "write"]⟩ (str "code") 0), (0, .insert 7 (str "BCDF")),
    (1, .review ⟨5, true, [str "read"], .ok [abilityRoot]⟩ (.userCode false (str "BCDF")) 1),
    (1, .decide 2), (2, .poll (str "code")), (2, .redeem firstPoll), (2, .redeem firstPoll),
    (2, .redeem firstPoll), (2, .redeem firstPoll)]

theorem device_tokens_attenuated_reader :
    letI := StdLib.refusing
    ∃ last, run (step oneDay) .empty reading = some last ∧
      last.made.map (·.2.abilities) = [[str "read"]] ∧ (last.made.map Prod.fst).Nodup := by
  let _ := StdLib.refusing
  have ran : (run (step oneDay) .empty reading).isSome = true := by decide +kernel
  obtain ⟨last, ran⟩ := isSome_iff_exists.mp ran
  have made : (run (step oneDay) .empty reading).map (fun s => s.made.map (·.2.abilities)) =
      some [[str "read"]] := by decide +kernel
  rw [ran] at made
  exact ⟨last, ran, some.inj made,
    (device_tokens_attenuated reading last (by decide +kernel) ran).1⟩

end TheAuth.ApiTokens
