import TheAuth.Go.Bytes
import TheAuth.Go.Map

/-!
# Key rings

The header of a sealed blob names its key. What `Seal` has made with the active key, `Open` reads
back, also with another active key.
-/

set_option autoImplicit false

namespace TheAuth.Vault

open Go List Option UInt8

/-- A ciphertext is longer by the overhead, and is opened with the same nonce and data. -/
structure Aead where
  (nonceSize overhead : ℕ)
  seal_ : Bytes → Bytes → Bytes → Bytes
  open_ : Bytes → Bytes → Bytes → Option Bytes
  length_seal : ∀ nonce plaintext data, (seal_ nonce plaintext data).length =
    plaintext.length + overhead
  open_seal : ∀ nonce plaintext data, nonce.length = nonceSize →
    open_ nonce (seal_ nonce plaintext data) data = some plaintext

def sealVersion : UInt8 := 1

def keySize : ℕ := 32

def maxKeyIDLen : ℕ := 255

/-- Keys, of which one is active. -/
structure KeyRing where
  active : Bytes
  aeads : Bytes → Option Aead
  held : (aeads active).isSome
  named : active ≠ [] ∧ active.length ≤ maxKeyIDLen

inductive RingError where
  | activeMissing (activeID : Bytes)
  | keyID
  | keySize (id : Bytes)

inductive KeyError where
  | unknownKey | decrypt | malformed
  deriving DecidableEq

theorem held_of_keys (gcm : Bytes → Aead) {activeID : Bytes} {keys : GoMap Bytes Bytes}
    (there : (keys.lookup activeID).isSome) : ((keys.lookup activeID).map gcm).isSome := by
  rwa [isSome_map]

theorem named_of_keys {activeID : Bytes} {keys : GoMap Bytes Bytes}
    (there : (keys.lookup activeID).isSome)
    (ids : ∀ id ∈ keys.keys, id ≠ [] ∧ id.length ≤ maxKeyIDLen) :
    activeID ≠ [] ∧ activeID.length ≤ maxKeyIDLen :=
  ids activeID (AList.mem_keys.mp (AList.lookup_isSome.mp there))

def newKeyRing (gcm : Bytes → Aead) (activeID : Bytes) (keys : GoMap Bytes Bytes) :
    Except RingError KeyRing :=
  if there : (keys.lookup activeID).isSome then
    if ids : ∀ id ∈ keys.keys, id ≠ [] ∧ id.length ≤ maxKeyIDLen then
      match keys.keys.find? fun id => (keys.lookup id).any fun key => key.length != keySize with
      | some id => .error (.keySize id)
      | none =>
        .ok
          { active := activeID
            aeads := fun id => (keys.lookup id).map gcm
            held := held_of_keys gcm there
            named := named_of_keys there ids }
    else .error .keyID
  else .error (.activeMissing activeID)

def parseHeader : Bytes → Option (Bytes × ℕ)
  | version :: n :: rest =>
    if version ≠ sealVersion then none
    else if n = 0 ∨ rest.length < n.toNat then none
    else some (rest.take n.toNat, 2 + n.toNat)
  | _ => none

def keyID (blob : Bytes) : Except KeyError Bytes :=
  match parseHeader blob with
  | none => .error .malformed
  | some (id, _) => .ok id

namespace KeyRing

variable (r : KeyRing)

def activeAead : Aead := (r.aeads r.active).get r.held

def header : Bytes := sealVersion :: UInt8.ofNat r.active.length :: r.active

def sealWith (nonce plaintext aad : Bytes) : Bytes :=
  r.header ++ nonce ++ r.activeAead.seal_ nonce plaintext (r.header ++ aad)

def nonceFrom (random : ℕ → UInt8) : Bytes := (List.range r.activeAead.nonceSize).map random

def seal_ (plaintext aad : Bytes) (random : Option (ℕ → UInt8)) : Option Bytes :=
  random.map fun random => r.sealWith (r.nonceFrom random) plaintext aad

def open_ (blob aad : Bytes) : Except KeyError Bytes :=
  match parseHeader blob with
  | none => .error .malformed
  | some (id, hlen) =>
    match r.aeads id with
    | none => .error .unknownKey
    | some aead =>
      if blob.length < hlen + aead.nonceSize + aead.overhead then .error .malformed
      else
        match aead.open_ ((blob.drop hlen).take aead.nonceSize)
          (blob.drop (hlen + aead.nonceSize)) (blob.take hlen ++ aad) with
        | none => .error .decrypt
        | some pt => .ok pt

variable {r}

theorem aeads_active : r.aeads r.active = some r.activeAead := (Option.some_get r.held).symm

theorem parseHeader_header (rest : Bytes) :
    parseHeader (r.header ++ rest) = some (r.active, r.header.length) := by
  obtain ⟨nonempty, short⟩ := r.named
  have positive : 0 < r.active.length := length_pos_iff.mpr nonempty
  have size : (ofNat r.active.length).toNat = r.active.length :=
    toNat_ofNat_of_lt (Nat.lt_succ_of_le short)
  have long : ¬ (ofNat r.active.length = 0 ∨
      (r.active ++ rest).length < (ofNat r.active.length).toNat) := by
    rw [size, length_append]
    rintro (zero | less)
    · rw [zero] at size
      exact absurd size (Nat.ne_of_lt positive)
    · exact absurd less (Nat.not_lt.mpr (Nat.le_add_right _ _))
  change parseHeader (sealVersion :: ofNat r.active.length :: (r.active ++ rest)) = _
  rw [parseHeader, if_neg long, size, take_left]
  refine congrArg (fun n => some (r.active, n)) ?_
  exact Nat.add_comm 2 _

theorem keyID_sealWith (nonce plaintext aad : Bytes) :
    keyID (r.sealWith nonce plaintext aad) = .ok r.active := by
  unfold keyID sealWith
  rw [append_assoc, parseHeader_header]

theorem open_sealWith {nonce : Bytes} (plaintext aad : Bytes)
    (size : nonce.length = r.activeAead.nonceSize) :
    r.open_ (r.sealWith nonce plaintext aad) aad = .ok plaintext := by
  unfold open_
  have parsed : parseHeader (r.sealWith nonce plaintext aad) =
      some (r.active, r.header.length) := by
    unfold sealWith
    rw [append_assoc, parseHeader_header]
  rw [parsed]
  dsimp only
  rw [aeads_active]
  dsimp only
  have long : ¬ (r.sealWith nonce plaintext aad).length <
      r.header.length + r.activeAead.nonceSize + r.activeAead.overhead := by
    unfold sealWith
    rw [length_append, length_append, r.activeAead.length_seal]
    omega
  rw [if_neg long]
  have data : (r.sealWith nonce plaintext aad).take r.header.length = r.header := by
    unfold sealWith
    rw [append_assoc, take_left]
  have rest : (r.sealWith nonce plaintext aad).drop r.header.length =
      nonce ++ r.activeAead.seal_ nonce plaintext (r.header ++ aad) := by
    unfold sealWith
    rw [append_assoc, drop_left]
  rw [← drop_drop, data, rest, ← size, take_left, drop_left,
    r.activeAead.open_seal nonce plaintext _ size]

theorem length_nonceFrom (random : ℕ → UInt8) :
    (r.nonceFrom random).length = r.activeAead.nonceSize := by
  unfold nonceFrom
  rw [length_map, length_range]

variable {plaintext aad blob : Bytes} {random : Option (ℕ → UInt8)}

theorem keyID_seal (sealed : r.seal_ plaintext aad random = some blob) :
    keyID blob = .ok r.active := by
  obtain ⟨_, rfl, rfl⟩ := map_eq_some_iff.mp sealed
  exact keyID_sealWith _ _ _

theorem open_seal (sealed : r.seal_ plaintext aad random = some blob) :
    r.open_ blob aad = .ok plaintext := by
  obtain ⟨random, rfl, rfl⟩ := map_eq_some_iff.mp sealed
  exact open_sealWith plaintext aad (length_nonceFrom random)

/-- **Keys rotate.** A ring that holds the key opens the blob, whichever key is active. -/
theorem sealed_opens_under_other_ring (r other : KeyRing) (random : ℕ → UInt8)
    (plaintext aad : Bytes) :
    ∃ blob, r.seal_ plaintext aad (some random) = some blob ∧ keyID blob = .ok r.active ∧
      (other.aeads r.active = r.aeads r.active → other.open_ blob aad = .ok plaintext) ∧
        (other.aeads r.active = none → other.open_ blob aad = .error .unknownKey) := by
  have parsed := @parseHeader_header r
  have opened := open_sealWith plaintext aad (r.length_nonceFrom random)
  refine ⟨_, rfl, keyID_sealWith _ _ _, fun same => ?_, fun absent => ?_⟩
  · simp only [open_, sealWith, append_assoc, parsed, same] at opened ⊢
    exact opened
  · simp only [open_, sealWith, append_assoc, parsed, absent]

end KeyRing

end TheAuth.Vault
