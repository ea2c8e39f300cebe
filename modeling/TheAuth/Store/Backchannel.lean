import TheAuth.Go.Map
import TheAuth.Server.Model

/-!
# Backchannel authentication requests in the memory store

Each operation is atomic. An update writes a whole row over the stored one; only the redemption
looks at the stored status before it writes.
-/

set_option autoImplicit false

namespace TheAuth.Store

open Go Server Option

inductive BackchannelStatus where
  | pending | approved | denied | consumed
  | other (text : Bytes)
  deriving DecidableEq

def BackchannelStatus.rank : BackchannelStatus → ℕ
  | .pending => 0
  | .approved => 1
  | .denied => 1
  | .consumed => 2
  | .other _ => 0

/-- A request to be decided elsewhere. -/
structure BackchannelRequest where
  (authReqID clientID : Bytes)
  userID : Option ULID := none
  (loginHint loginHintToken idTokenHint : Bytes := [])
  scope : List Bytes
  (bindingMessage clientNotificationToken : Bytes := [])
  status : BackchannelStatus
  (accessToken refreshToken : Bytes := [])
  pollInterval : Int
  lastPollAt : Option Time := none
  (expiresAt createdAt : Time)
  deriving DecidableEq

structure BackchannelStore where
  requests : GoMap Bytes BackchannelRequest
  keyed : requests.Keyed BackchannelRequest.authReqID

namespace BackchannelStore

def empty : BackchannelStore := ⟨∅, GoMap.Keyed.empty⟩

variable (s : BackchannelStore)

def put (row : BackchannelRequest) : BackchannelStore :=
  ⟨s.requests.insert row.authReqID row, s.keyed.insert rfl⟩

variable (authReqID : Bytes)

def backchannelRequestByID : Option BackchannelRequest := s.requests.lookup authReqID

variable (req : BackchannelRequest) (now : Time)

def insertBackchannelRequest :
    Option BackchannelStore :=
  if (s.backchannelRequestByID req.authReqID).isSome then none
  else some (s.put (if req.createdAt.isZero then { req with createdAt := now } else req))

def updateBackchannelRequest :
    Option BackchannelStore :=
  (s.backchannelRequestByID req.authReqID).map fun existing =>
    s.put { req with createdAt := existing.createdAt }

def touchBackchannelPoll
    (newInterval : Int) : Option (BackchannelRequest × BackchannelStore) :=
  (s.backchannelRequestByID authReqID).map fun r =>
    let r := { r with lastPollAt := some now, pollInterval := newInterval }
    (r, s.put r)

def redeemBackchannelRequest :
    Option (BackchannelRequest × BackchannelStore) :=
  match s.backchannelRequestByID authReqID with
  | none => none
  | some r =>
    if r.status ≠ .approved ∨ !decide (now < r.expiresAt) then none
    else
      let r := { r with status := .consumed }
      some (r, s.put r)

def statusOf : Option BackchannelStatus :=
  (s.backchannelRequestByID authReqID).map BackchannelRequest.status

theorem statusOf_put (s : BackchannelStore) (row : BackchannelRequest) (id : Bytes) :
    (s.put row).statusOf id = if id = row.authReqID then some row.status else s.statusOf id := by
  unfold statusOf backchannelRequestByID put
  rw [GoMap.lookup_insert_eq]
  split <;> rfl

variable {next s : BackchannelStore}

theorem statusOf_insert {req : BackchannelRequest} {now : Time}
    (done : s.insertBackchannelRequest req now = some next) {id : Bytes} {st : BackchannelStatus}
    (here : s.statusOf id = some st) : next.statusOf id = some st := by
  unfold insertBackchannelRequest at done
  split at done <;> cases done
  rename_i free
  rw [statusOf_put, if_neg ?_]
  · exact here
  · intro same
    apply free
    have own : (if req.createdAt.isZero then { req with createdAt := now } else req).authReqID =
        req.authReqID := by split <;> rfl
    rw [← own, ← same]
    exact isSome_map.symm.trans (congrArg isSome here)

theorem statusOf_update {req : BackchannelRequest}
    (done : s.updateBackchannelRequest req = some next) (id : Bytes) :
    next.statusOf id = if id = req.authReqID then some req.status else s.statusOf id := by
  obtain ⟨_, _, rfl⟩ := map_eq_some_iff.mp done
  exact statusOf_put s _ id

theorem statusOf_touch {authReqID : Bytes} {now : Time}
    {newInterval : Int} {row : BackchannelRequest}
    (done : s.touchBackchannelPoll authReqID now newInterval = some (row, next)) (id : Bytes) :
    next.statusOf id = s.statusOf id := by
  obtain ⟨r, found, equal⟩ := map_eq_some_iff.mp done
  cases equal
  rw [statusOf_put]
  split
  next same =>
    have own : r.authReqID = authReqID := s.keyed found
    rw [same, statusOf, show _ = authReqID from own, found]
    rfl
  · rfl

theorem statusOf_redeem {authReqID : Bytes} {now : Time} {row : BackchannelRequest}
    (done : s.redeemBackchannelRequest authReqID now = some (row, next)) :
    s.statusOf authReqID = some .approved ∧
      ∀ id, next.statusOf id = if id = authReqID then some .consumed else s.statusOf id := by
  unfold redeemBackchannelRequest at done
  split at done
  · cases done
  rename_i r found
  split at done <;> cases done
  rename_i ready
  have own : r.authReqID = authReqID := s.keyed found
  have approved : r.status = .approved := by
    by_contra other
    exact ready (.inl other)
  refine ⟨?_, fun id => ?_⟩
  · rw [statusOf, found, map_some, approved]
  · rw [statusOf_put]
    exact if_congr (by rw [← own]) rfl rfl

end BackchannelStore

end TheAuth.Store
