import TheAuth.Go.Json
import TheAuth.Go.Map
import TheAuth.Library.Result
import TheAuth.Server.Model

/-!
# The hash chain of the audit log

A row hashes its fields, its place and the hash of the row before it. Personal identifiers enter as
keyed pseudonyms. `insertAuditEvents` threads a batch of events through the heads of the chains in
one transaction, and `verifyChainRows` walks rows that come ordered by chain and place.
-/

set_option autoImplicit false

namespace TheAuth.Audit

open Go Library.Result Server

def chainHashVersion : Int := 1

/-- What a row's hash is taken of. -/
structure ChainPayload where
  v : Int := 0
  chainKey : Bytes
  seq : Int
  (prev id org : Bytes)
  (actorUserPseudo actorSession : Bytes := [])
  (action targetType targetID metadata ip userAgent : Bytes)
  createdAt : Int
  (subjectPseudo actorPseudo policyVersion approverPseudo delegationChain inputProvenance : Bytes)

variable (p : ChainPayload)

def ChainPayload.json : Bytes :=
  jsonObject
    [(str "v", jsonInt p.v), (str "chainKey", jsonString p.chainKey), (str "seq", jsonInt p.seq),
      (str "prev", jsonString p.prev), (str "id", jsonString p.id), (str "org", jsonString p.org),
      (str "actorUserPseudonym", jsonString p.actorUserPseudo),
      (str "actorSession", jsonString p.actorSession), (str "action", jsonString p.action),
      (str "targetType", jsonString p.targetType), (str "targetId", jsonString p.targetID),
      (str "metadata", jsonString p.metadata), (str "ip", jsonString p.ip),
      (str "userAgent", jsonString p.userAgent), (str "createdAt", jsonInt p.createdAt),
      (str "subjectPseudonym", jsonString p.subjectPseudo),
      (str "actorPseudonym", jsonString p.actorPseudo),
      (str "policyVersion", jsonString p.policyVersion),
      (str "approverPseudonym", jsonString p.approverPseudo),
      (str "delegationChain", jsonString p.delegationChain),
      (str "inputProvenance", jsonString p.inputProvenance)]

def ChainPayload.hashed : ChainPayload := { p with v := chainHashVersion }

def rowHash : Bytes := hexEncode (sum256 p.hashed.json)

def pseudonym (secret id : Bytes) : Bytes :=
  if id = [] then [] else hexEncode (hmac256 secret (str "theauth.audit.pseudonym.v1:" ++ id))

example :
    let secret := str "0123456789abcdef0123456789abcdef"
    rowHash
      { chainKey := [], seq := 1, prev := [], id := str "01JAAAAAAAAAAAAAAAAAAAAAAA", org := []
        action := str "agent.authorize", targetType := str "tool", targetID := str "t1"
        metadata := str "\x7b\"a\":\"x\",\"b\":2\x7d", ip := str "203.0.113.7"
        userAgent := str "golden", createdAt := 1760000000123456
        subjectPseudo := pseudonym secret (str "user_1")
        actorPseudo := pseudonym secret (str "agent_9"), policyVersion := str "v7"
        approverPseudo := pseudonym secret (str "user_2")
        delegationChain := str "[\"agent_1\",\"agent_9\"]"
        inputProvenance := str "\x7b\"source\":\"tool_output\"\x7d" } =
      str "725905a7b0acf9e2066f9dfda03a95db25fa4797aceab17401144b6427ae14fe" := by
  decide +kernel

abbrev Marshalled := Except Bytes Bytes

def marshalOr (what : Bytes) (raw : Marshalled) (empty : Bytes) : Except Bytes Bytes :=
  match raw with
  | .error cause => .error (what ++ str ": " ++ cause)
  | .ok text => .ok (if text = str "null" then empty else text)

/-- An event to be recorded. -/
structure AuditEvent where
  id : ULID
  (organizationID actorUserID actorSessionID : Option ULID := none)
  action : Bytes
  (targetType targetID : Bytes := [])
  metadata : Marshalled := .ok (str "null")
  (ip userAgent : Bytes := [])
  createdAt : Time := 0
  (subjectID actorID policyVersion approverID : Bytes := [])
  delegationChain : List Bytes := []
  inputProvenance : Marshalled := .ok (str "null")

/-- Where a chain ends. -/
structure ChainHead where
  seq : Int := 0
  hash : Bytes := []

structure ChainEntry where
  payload : ChainPayload
  (hash metadata delegationChain inputProvenance : Bytes)
  createdAtMicro : Int

section

variable [UlidText]

def idText (id : Option ULID) : Bytes := id.elim [] UlidText.string

variable (e : AuditEvent)

def chainKey : Bytes := idText e.organizationID

def payloadOf (secret : Bytes) (head : ChainHead) (now : Time)
    (metadata chain provenance : Bytes) : ChainPayload where
  chainKey := chainKey e
  seq := head.seq + 1
  prev := head.hash
  id := UlidText.string e.id
  org := chainKey e
  actorUserPseudo := e.actorUserID.elim [] fun id => pseudonym secret (UlidText.string id)
  actorSession := idText e.actorSessionID
  action := e.action
  targetType := e.targetType
  targetID := e.targetID
  metadata
  ip := e.ip
  userAgent := e.userAgent
  createdAt := (if e.createdAt.isZero then now else e.createdAt).unixMicro
  subjectPseudo := pseudonym secret e.subjectID
  actorPseudo := pseudonym secret e.actorID
  policyVersion := e.policyVersion
  approverPseudo := pseudonym secret e.approverID
  delegationChain := chain
  inputProvenance := provenance

/-- A nil delegation chain and an empty one have one text. -/
def buildChainEntry (secret : Bytes) (head : ChainHead) (now : Time) :
    Except Bytes ChainEntry := do
  let metadata ← marshalOr (str "marshal audit metadata") e.metadata (str "\x7b\x7d")
  let chain := jsonArray (e.delegationChain.map jsonString)
  let provenance ← marshalOr (str "marshal input provenance") e.inputProvenance (str "\x7b\x7d")
  let payload := payloadOf e secret head now metadata chain provenance
  .ok ⟨payload, rowHash payload, metadata, chain, provenance, payload.createdAt⟩

/-- A row as it is read back. -/
structure ChainRow where
  payload : ChainPayload
  hash : Bytes
  (rawActorUser rawSubject rawActor rawApprover rawOrg rawSession extraBreak : Bytes := [])

def rowOf (entry : ChainEntry) : ChainRow where
  payload := entry.payload
  hash := entry.hash
  rawActorUser := idText e.actorUserID
  rawSubject := e.subjectID
  rawActor := e.actorID
  rawApprover := e.approverID
  rawOrg := chainKey e
  rawSession := idText e.actorSessionID

/-- Rows and the heads of their chains. -/
structure AuditLog where
  heads : GoMap Bytes ChainHead := ∅
  rows : List ChainRow := []

namespace AuditLog

def head (log : AuditLog) (key : Bytes) : ChainHead := (log.heads.lookup key).getD {}

def append (secret : Bytes) (log : AuditLog) (event : AuditEvent × Time) :
    Except Bytes AuditLog := do
  let entry ← buildChainEntry event.1 secret (log.head (chainKey event.1)) event.2
  .ok
    { heads := log.heads.insert (chainKey event.1) ⟨entry.payload.seq, entry.hash⟩
      rows := log.rows ++ [rowOf event.1 entry] }

def insertAuditEvents (secret : Bytes) (log : AuditLog) (batch : List (AuditEvent × Time)) :
    AuditLog :=
  match batch.foldlM (append secret) log with
  | .ok next => next
  | .error _ => log

def written (secret : Bytes) (batches : List (List (AuditEvent × Time))) : AuditLog :=
  batches.foldl (insertAuditEvents secret) {}

end AuditLog

end

/-- A place where a chain breaks. -/
structure AuditChainBreak where
  (chainKey rowID : Bytes)
  seq : Int
  reason : Bytes
  deriving DecidableEq

structure AuditChainResult where
  (supported ok : Bool)
  checked : ℕ := 0
  unchained : Int := 0
  erased : ℕ := 0
  firstBreak : Option AuditChainBreak := none
  deriving DecidableEq

def ChainRow.identifiers (r : ChainRow) : List (Bytes × Bytes) :=
  [(r.rawActorUser, r.payload.actorUserPseudo), (r.rawSubject, r.payload.subjectPseudo),
    (r.rawActor, r.payload.actorPseudo), (r.rawApprover, r.payload.approverPseudo)]

def checkPseudonyms (secret : Option Bytes) : List (Bytes × Bytes) → Bool → Option Bool
  | [], erased => some erased
  | (raw, pseudo) :: rest, erased =>
    if raw = [] ∧ pseudo ≠ [] then checkPseudonyms secret rest true
    else if raw ≠ [] ∧ secret.any (fun key => pseudonym key raw != pseudo) then none
    else checkPseudonyms secret rest erased

def checkRow (secret : Option Bytes) (wantSeq : Int) (wantPrev : Bytes) (r : ChainRow) :
    Except Bytes Bool := do
  refuseIf (r.payload.seq ≠ wantSeq) (str "seq_gap")
  refuseIf (r.payload.prev ≠ wantPrev) (str "prev_hash_mismatch")
  refuseIf (rowHash r.payload ≠ r.hash) (str "hash_mismatch")
  refuseIf (r.rawOrg ≠ [] ∧ r.rawOrg ≠ r.payload.chainKey ∨
    r.rawSession ≠ [] ∧ r.rawSession ≠ r.payload.actorSession) (str "hash_mismatch")
  refuseIf (r.extraBreak ≠ []) r.extraBreak
  orRefuse (checkPseudonyms secret r.identifiers false) (str "pseudonym_mismatch")

/-- The state of the verifying walk. -/
structure ChainWalk where
  curKey : Bytes := []
  started : Bool := false
  wantSeq : Int := 0
  wantPrev : Bytes := []
  res : AuditChainResult

def ChainWalk.enter (w : ChainWalk) (key : Bytes) : ChainWalk :=
  if !w.started || key ≠ w.curKey then
    { w with curKey := key, started := true, wantSeq := 1, wantPrev := [] }
  else w

/-- One row of the walk. -/
def ChainWalk.step (secret : Option Bytes) (walk : ChainWalk) (r : ChainRow) :
    Except AuditChainResult ChainWalk :=
  let w := walk.enter r.payload.chainKey
  let res := { w.res with checked := w.res.checked + 1 }
  match checkRow secret w.wantSeq w.wantPrev r with
  | .error reason =>
    .error { res with
      ok := false
      firstBreak := some ⟨r.payload.chainKey, r.payload.id, r.payload.seq, reason⟩ }
  | .ok erased =>
    .ok { w with
      wantSeq := w.wantSeq + 1
      wantPrev := r.hash
      res := if erased then { res with erased := res.erased + 1 } else res }

def walkRows (secret fault : Option Bytes) : ChainWalk → List ChainRow →
    AuditChainResult × Option Bytes
  | w, [] => (w.res, fault)
  | w, r :: rest =>
    match w.step secret r with
    | .error res => (res, none)
    | .ok next => walkRows secret fault next rest

def verifyChainRows (rows : List ChainRow) (fault secret : Option Bytes) (unchained : Int) :
    AuditChainResult × Option Bytes :=
  walkRows secret fault { res := { supported := true, ok := true, unchained } } rows

end TheAuth.Audit
