import Mathlib.Algebra.Group.Int.Defs
import TheAuth.Audit.Canonical
import TheAuth.Audit.Merkle
import TheAuth.Go.Map

/-!
# Leaves, checkpoints and receipts

A leaf has a salted commitment for each field of its row. A receipt reveals some fields, gives the
commitments of the others, and proves that the leaf these make is in the tree of a signed
checkpoint.
-/

set_option autoImplicit false

namespace TheAuth.Audit

open Go Library.Result

def hexValue (c : UInt8) : Option ℕ :=
  if 0x30 ≤ c && c ≤ 0x39 then some (c.toNat - 0x30)
  else if 0x61 ≤ c && c ≤ 0x66 then some (c.toNat - 0x57)
  else if 0x41 ≤ c && c ≤ 0x46 then some (c.toNat - 0x37)
  else none

def hexDecode : Bytes → Option Bytes
  | [] => some []
  | [_] => none
  | a :: b :: rest => do
    let high ← hexValue a
    let low ← hexValue b
    let bytes ← hexDecode rest
    some (.ofNat (16 * high + low) :: bytes)

def isHexDigit (c : UInt8) : Bool := 0x30 ≤ c && c ≤ 0x39 || 0x61 ≤ c && c ≤ 0x66

def isHashHex (s : Bytes) : Bool := s.length == 64 && s.all isHexDigit

def decodeHexList (texts : List Bytes) : Option (List Bytes) :=
  texts.mapM fun s => if isHashHex s then hexDecode s else none

def goChainHashVersion : Int := 101

def fieldsV2 : List Bytes :=
  [str "id", str "action", str "resource", str "parameters", str "result", str "reason",
    str "durationMs", str "tokensCost", str "ip", str "userAgent", str "cacheHit", str "timestamp",
    str "policyVersion", str "delegationChain", str "inputProvenance", str "idPseudonyms"]

def fieldsV1 : List Bytes :=
  [str "id", str "action", str "resource", str "parameters", str "result", str "reason",
    str "durationMs", str "tokensCost", str "ip", str "userAgent", str "cacheHit", str "timestamp",
    str "agentId", str "userId"]

def goChainFields : List Bytes :=
  [str "id", str "organizationId", str "action", str "targetType", str "targetId", str "metadata",
    str "ip", str "userAgent", str "createdAtMicro", str "policyVersion", str "delegationChain",
    str "inputProvenance", str "chainSeq", str "prevHash"]

def fieldsFor (hashVersion : Int) : List Bytes :=
  if hashVersion = goChainHashVersion then goChainFields
  else if 2 ≤ hashVersion then fieldsV2
  else fieldsV1

section

variable [FloatLib]

/-- A row of the log. -/
structure Row where
  (id hash : Bytes)
  (hashVersion timestampMs : Int)
  fields : GoMap Bytes JsonValue

def Row.field (row : Row) (name : Bytes) : JsonValue := (row.fields.lookup name).getD .null

def saltDomain : Bytes := str "theauth.audit.receipt.salt.v1"

def commitDomain : Bytes := str "theauth.audit.receipt.field.v1"

def fieldSalt (key rowHash field : Bytes) : Bytes :=
  hexEncode (hmac256 key (saltDomain ++ 0 :: (rowHash ++ 0 :: field)))

def commitMessage (field salt canonical : Bytes) : Bytes :=
  commitDomain ++ 0 :: (field ++ 0 :: (salt ++ 0 :: canonical))

def fieldCommitment (field salt : Bytes) (value : JsonValue) : Except CanonicalError Bytes := do
  let c ← canonicalJSON value
  .ok (hexEncode (sum256 (commitMessage field salt c)))

def textEntries (m : GoMap Bytes Bytes) : List (Bytes × Bytes) :=
  m.entries.map fun entry => (entry.1, entry.2)

def leafValue (rowID rowHash : Bytes) (hashVersion : Int) (commitments : GoMap Bytes Bytes) :
    JsonValue :=
  .object
    [(str "v", .number (.int 1)), (str "rowId", .string rowID), (str "rowHash", .string rowHash),
      (str "hashVersion", .number (.int hashVersion)),
      (str "fields", stringObject (textEntries commitments))]

def leafPreimage (rowID rowHash : Bytes) (hashVersion : Int) (commitments : GoMap Bytes Bytes) :
    Except CanonicalError Bytes :=
  canonicalJSON (leafValue rowID rowHash hashVersion commitments)

/-- A row with its salts and commitments. -/
structure Leaf where
  row : Row
  (salts commitments : GoMap Bytes Bytes)
  hash : Bytes

inductive LogError where
  | noSource | noSaltKey
  | readRows (cause : Bytes)
  | field (rowID field : Bytes) (cause : CanonicalError)
  | leaf (cause : CanonicalError)

def addField (key : Bytes) (row : Row) (made : GoMap Bytes Bytes × GoMap Bytes Bytes)
    (field : Bytes) : Except LogError (GoMap Bytes Bytes × GoMap Bytes Bytes) := do
  let salt := fieldSalt key row.hash field
  let c ← (fieldCommitment field salt (row.field field)).mapError (.field row.id field)
  .ok (made.1.insert field salt, made.2.insert field c)

def buildLeaf (key : Bytes) (row : Row) : Except LogError Leaf := do
  let made ← (fieldsFor row.hashVersion).foldlM (addField key row) (∅, ∅)
  let pre ← (leafPreimage row.id row.hash row.hashVersion made.2).mapError .leaf
  .ok ⟨row, made.1, made.2, leafHash pre⟩

/-- What the log reads. -/
structure Log where
  source : Option (Except Bytes (List Row))
  saltKey : Bytes

def Row.covered (since until_ : Option Int) (r : Row) : Bool :=
  !r.hash.isEmpty && since.all (· ≤ r.timestampMs) && until_.all (r.timestampMs ≤ ·)

/-- The order in which the log is read. -/
def Row.LE (a b : Row) : Prop :=
  a.timestampMs < b.timestampMs ∨ a.timestampMs = b.timestampMs ∧ a.id ≤ b.id

instance (a b : Row) : Decidable (a.LE b) := inferInstanceAs (Decidable (_ ∨ _))

def treeRows (rows : List Row) (since until_ : Option Int) (limit : Int) : List Row :=
  let kept := (rows.filter (Row.covered since until_)).insertionSort Row.LE
  if 0 ≤ limit then kept.take limit.toNat else kept

def Log.loadLeaves (lg : Log) (since until_ : Option Int) (limit : Int) :
    Except LogError (List Leaf) := do
  let source ← orRefuse lg.source .noSource
  refuseIf (lg.saltKey.length = 0) LogError.noSaltKey
  let rows ← source.mapError .readRows
  (treeRows rows since until_ limit).mapM (buildLeaf lg.saltKey)

def rootHex (leaves : List Leaf) : Bytes := hexEncode (merkleRoot (leaves.map (·.hash)))

/-- A signed root. -/
structure Checkpoint where
  version : Int
  (alg keyID : Bytes)
  size : Int
  rootHash : Bytes
  timestamp : Int
  (since until_ : Option Int)
  signature : Bytes

structure JWK where
  (kty crv x : Bytes)

structure PublicKey where
  keyID : Bytes
  publicKey : JWK

inductive Reason where
  | malformed | unsupportedAlg | unknownKey | badSignature | sizeMismatch | badProof | leafMismatch
  | badCommitment

abbrev Outcome := Except Reason Unit

class SignatureLib where
  decodeBase64 : Bytes → Option Bytes
  verify : Bytes → Bytes → Bytes → Bool

@[reducible]
def SignatureLib.trusting : SignatureLib where
  decodeBase64 text := some (List.replicate text.length 0)
  verify _ _ _ := true

def maxSafeInteger : Int := 2 ^ 53 - 1

def validTime (p : Option Int) : Bool := p.all fun t => 0 ≤ t && t ≤ maxSafeInteger

def wellFormed (c : Checkpoint) : Bool :=
  c.version == 1 && 0 ≤ c.size && c.size ≤ maxSafeInteger && isHashHex c.rootHash &&
    0 ≤ c.timestamp && c.timestamp ≤ maxSafeInteger && validTime c.since && validTime c.until_

def nilable (p : Option Int) : JsonValue := p.elim .null fun n => .number (.int n)

def signedBytes (c : Checkpoint) : Except CanonicalError Bytes := do
  let s ← canonicalJSON (.object
    [(str "version", .number (.int c.version)), (str "alg", .string c.alg),
      (str "keyId", .string c.keyID), (str "size", .number (.int c.size)),
      (str "rootHash", .string c.rootHash), (str "timestamp", .number (.int c.timestamp)),
      (str "since", nilable c.since), (str "until", nilable c.until_)])
  .ok (str "theauth.audit.checkpoint.v1\n" ++ s)

def decodeSized [SignatureLib] (text : Bytes) (size : ℕ) : Option Bytes :=
  (SignatureLib.decodeBase64 text).filter fun b => b.length == size

def verifyCheckpoint [SignatureLib] (c : Checkpoint) (keys : List PublicKey) : Outcome := do
  refuseIf (wellFormed c = false) Reason.malformed
  refuseIf (c.alg ≠ str "Ed25519") Reason.unsupportedAlg
  let key ← orRefuse (keys.find? fun k => k.keyID == c.keyID) Reason.unknownKey
  refuseIf (key.publicKey.kty ≠ str "OKP" ∨ key.publicKey.crv ≠ str "Ed25519") Reason.unsupportedAlg
  let pub ← orRefuse (decodeSized key.publicKey.x 32) Reason.badSignature
  let sig ← orRefuse (decodeSized c.signature 64) Reason.badSignature
  let msg ← (signedBytes c).mapError fun _ => Reason.malformed
  refuseIf (SignatureLib.verify pub msg sig = false) Reason.badSignature

/-- The path from a leaf to the root. -/
structure InclusionProof where
  version : Int
  rowID : Bytes
  (leafIndex treeSize : Int)
  leafHash : Bytes
  path : Option (List Bytes)

def proofShapeOK (p : InclusionProof) : Bool :=
  p.version == 1 && 0 ≤ p.leafIndex && p.leafIndex ≤ maxSafeInteger && 0 ≤ p.treeSize &&
    p.treeSize ≤ maxSafeInteger && isHashHex p.leafHash && p.path.any fun path => path.all isHashHex

def verifyInclusionProof [SignatureLib] (p : InclusionProof) (cp : Checkpoint)
    (keys : List PublicKey) : Outcome := do
  verifyCheckpoint cp keys
  refuseIf (proofShapeOK p = false) Reason.malformed
  refuseIf (p.treeSize ≠ cp.size) Reason.sizeMismatch
  let leaf := (hexDecode p.leafHash).getD []
  let root := (hexDecode cp.rootHash).getD []
  let path ← orRefuse (decodeHexList (p.path.getD [])) Reason.malformed
  refuseIf (verifyInclusionPath leaf p.leafIndex p.treeSize path root = false) Reason.badProof

structure RevealedField where
  value : JsonValue
  salt : Bytes

/-- A row as a receipt shows it. -/
structure Decision where
  (rowID rowHash : Bytes)
  hashVersion : Int
  revealed : Option (GoMap Bytes RevealedField)
  commitments : Option (GoMap Bytes Bytes)

/-- What shows one row under a checkpoint. -/
structure Receipt where
  version : Int
  decision : Decision
  proof : InclusionProof
  checkpoint : Checkpoint

def addRevealed (allowed : List Bytes) (made : GoMap Bytes Bytes)
    (entry : (_ : Bytes) × RevealedField) : Except Reason (GoMap Bytes Bytes) := do
  refuseIf (allowed.contains entry.1 = false ∨ isHashHex entry.2.salt = false) Reason.malformed
  refuseIf ((made.lookup entry.1).isSome = true) Reason.malformed
  let c ← (fieldCommitment entry.1 entry.2.salt entry.2.value).mapError fun _ =>
    Reason.badCommitment
  .ok (made.insert entry.1 c)

def allCommitments (allowed : List Bytes) (revealed : GoMap Bytes RevealedField)
    (hidden : GoMap Bytes Bytes) : Except Reason (GoMap Bytes Bytes) := do
  refuseIf (revealed.entries.length + hidden.entries.length ≠ allowed.length) Reason.malformed
  refuseIf ((hidden.entries.all fun entry => allowed.contains entry.1 && isHashHex entry.2) = false)
    Reason.malformed
  revealed.entries.foldlM (addRevealed allowed) hidden

def verifyReceipt [SignatureLib] (r : Receipt) (keys : List PublicKey) : Outcome := do
  refuseIf (r.version ≠ 1) Reason.malformed
  let revealed ← orRefuse r.decision.revealed Reason.malformed
  let hidden ← orRefuse r.decision.commitments Reason.malformed
  refuseIf (r.decision.rowID ≠ r.proof.rowID) Reason.malformed
  let commitments ← allCommitments (fieldsFor r.decision.hashVersion) revealed hidden
  let pre ← (leafPreimage r.decision.rowID r.decision.rowHash r.decision.hashVersion
    commitments).mapError fun _ => Reason.malformed
  refuseIf (isHashHex r.proof.leafHash = false ∨
    hexDecode r.proof.leafHash ≠ some (leafHash pre)) Reason.leafMismatch
  verifyInclusionProof r.proof r.checkpoint keys

inductive ErrorCode where
  | invalidCheckpoint | logMismatch | rowNotFound | invalidField

inductive CreateError where
  | log (cause : LogError)
  | coded (code : ErrorCode) (message : String) (name : Option Bytes)
  | path (message : String)

def sameHex (a b : Bytes) : Bool := isHashHex a && isHashHex b && hexDecode a == hexDecode b

def Log.leavesMatching (lg : Log) (cp : Checkpoint) : Except CreateError (List Leaf) := do
  refuseIf (wellFormed cp = false)
    (CreateError.coded .invalidCheckpoint "malformed checkpoint" none)
  let ls ← (lg.loadLeaves cp.since cp.until_ cp.size).mapError .log
  refuseIf ((ls.length : Int) < cp.size) (CreateError.coded .logMismatch
    "the log has fewer rows than the checkpoint committed to" none)
  refuseIf (sameHex (rootHex ls) cp.rootHash = false) (CreateError.coded .logMismatch
    "the log no longer matches the checkpoint root" none)
  .ok ls

def indexOf (ls : List Leaf) (rowID : Bytes) : Option (Fin ls.length) :=
  ls.findFinIdx? fun l => l.row.id == rowID

def splitField (l : Leaf) (reveal : List Bytes)
    (made : GoMap Bytes RevealedField × GoMap Bytes Bytes)
    (name : Bytes) : GoMap Bytes RevealedField × GoMap Bytes Bytes :=
  if reveal.contains name then
    (made.1.insert name ⟨l.row.field name, (l.salts.lookup name).getD []⟩, made.2)
  else (made.1, made.2.insert name ((l.commitments.lookup name).getD []))

def splitFields (l : Leaf) (reveal : List Bytes) : GoMap Bytes RevealedField × GoMap Bytes Bytes :=
  (fieldsFor l.row.hashVersion).foldl (splitField l reveal) (∅, ∅)

def receiptFor (l : Leaf) (rowID : Bytes) (index : ℕ) (cp : Checkpoint) (reveal : List Bytes)
    (path : List Bytes) : Receipt where
  version := 1
  decision :=
    ⟨rowID, l.row.hash, l.row.hashVersion, some (splitFields l reveal).1,
      some (splitFields l reveal).2⟩
  proof := ⟨1, rowID, index, cp.size, hexEncode l.hash, some (path.map hexEncode)⟩
  checkpoint := cp

def createReceipt (lg : Log) (rowID : Bytes) (cp : Checkpoint) (reveal : List Bytes) :
    Except CreateError Receipt := do
  let ls ← lg.leavesMatching cp
  let idx ← orRefuse (indexOf ls rowID)
    (CreateError.coded .rowNotFound "the row is not covered by this checkpoint" none)
  let l := ls.get idx
  match reveal.find? fun name => !(fieldsFor l.row.hashVersion).contains name with
  | some name =>
    .error (.coded .invalidField "field %q cannot be revealed for this row" (some name))
  | none => do
    let path ← (inclusionPath (ls.map (·.hash)) idx).mapError CreateError.path
    .ok (receiptFor l rowID idx cp reveal path)

end

end TheAuth.Audit
