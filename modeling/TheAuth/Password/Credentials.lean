import TheAuth.Go.Base64

/-!
# Stored passwords

New passwords are stored under Argon2id; a hash of bcrypt or PBKDF2 comes from a migration. A
password that is checked against such a hash, or against one with low cost parameters, is hashed
anew for the caller to store.
-/

set_option autoImplicit false

namespace TheAuth.Password

open Go List

class PasswordLib where
  (verifyPassword verifyLegacyBcrypt verifyLegacyPBKDF2 : Bytes → Bytes → Option Bool)
  idKey : Bytes → Bytes → Bytes
  rawStd : Bytes → Bytes
  scanCosts : Bytes → Option (ℕ × ℕ × ℕ)
  scanCosts_new : scanCosts (str "m=65536,t=3,p=4") = some (65536, 3, 4)

def isBcryptHash (hash : Bytes) : Bool :=
  (str "$2a$").isPrefixOf hash || (str "$2b$").isPrefixOf hash || (str "$2x$").isPrefixOf hash

def isPBKDF2Hash (hash : Bytes) : Bool :=
  (str "$pbkdf2-sha256$").isPrefixOf hash || (str "$pbkdf2-sha512$").isPrefixOf hash

def isLegacyHash (hash : Bytes) : Bool := isBcryptHash hash || isPBKDF2Hash hash

theorem splitByte_append {stop : UInt8} {first : Bytes} (clean : stop ∉ first) (rest : Bytes) :
    splitByte stop (first ++ stop :: rest) = first :: splitByte stop rest := by
  induction first with
  | nil => rw [nil_append, splitByte, if_pos rfl]
  | cons _ _ ih =>
    rw [mem_cons, not_or] at clean
    rw [cons_append, splitByte, if_neg (Ne.symm clean.1), ih clean.2]

variable [PasswordLib]

def hashPassword (plain salt : Bytes) : Bytes :=
  str "$argon2id$v=19$m=65536,t=3,p=4$" ++ PasswordLib.rawStd salt ++ str "$" ++
    PasswordLib.rawStd (PasswordLib.idKey plain salt)

def needsRehash (phc : Bytes) : Bool :=
  match splitByte 0x24 phc with
  | [first, scheme, _, costs, _, _] =>
    if first ≠ [] ∨ scheme ≠ str "argon2id" then false
    else match PasswordLib.scanCosts costs with
    | none => false
    | some (memory, time, threads) => memory < 65536 || time < 3 || threads < 4
  | _ => false

/-- What a verification says. -/
structure Verdict where
  matched : Bool
  newHash : Bytes := []
  failed : Bool := false

variable (plain storedHash : Bytes)

def verifyLegacy : Option Bool :=
  if isPBKDF2Hash storedHash then PasswordLib.verifyLegacyPBKDF2 plain storedHash
  else PasswordLib.verifyLegacyBcrypt plain storedHash

def verifyPasswordWithLegacyFallback (allowLegacy : Bool)
    (salt : Option Bytes) : Verdict :=
  if isLegacyHash storedHash then
    if allowLegacy = false then { matched := false, failed := true }
    else match verifyLegacy plain storedHash, salt with
    | none, _ => { matched := false, failed := true }
    | some false, _ => { matched := false }
    | some true, none => { matched := true, failed := true }
    | some true, some salt => { matched := true, newHash := hashPassword plain salt }
  else match PasswordLib.verifyPassword plain storedHash with
  | none => { matched := false, failed := true }
  | some ok =>
    match ok && needsRehash storedHash, salt with
    | true, some salt => { matched := true, newHash := hashPassword plain salt }
    | _, _ => { matched := ok }

def verifyCredential (plain stored : Bytes) (allowLegacy : Bool) (salt : Option Bytes) : Verdict :=
  if isLegacyHash stored && !allowLegacy then { matched := false }
  else
    let v := verifyPasswordWithLegacyFallback plain stored allowLegacy salt
    if v.matched && v.failed then { matched := true } else v

theorem exists_splitByte_hashPassword (plain salt : Bytes) :
    ∃ rest, splitByte 0x24 (hashPassword plain salt) =
      [] :: str "argon2id" :: str "v=19" :: str "m=65536,t=3,p=4" :: rest := by
  refine ⟨splitByte 0x24 (PasswordLib.rawStd salt ++ (str "$" ++
    PasswordLib.rawStd (PasswordLib.idKey plain salt))), ?_⟩
  have parts : hashPassword plain salt =
      [] ++ 0x24 :: (str "argon2id" ++ 0x24 :: (str "v=19" ++ 0x24 :: (str "m=65536,t=3,p=4" ++
        0x24 :: (PasswordLib.rawStd salt ++ (str "$" ++
          PasswordLib.rawStd (PasswordLib.idKey plain salt)))))) := by
    rw [hashPassword, append_assoc]
    rfl
  rw [parts, splitByte_append (by decide), splitByte_append (by decide),
    splitByte_append (by decide), splitByte_append (by decide)]

theorem needsRehash_hashPassword (plain salt : Bytes) :
    needsRehash (hashPassword plain salt) = false := by
  obtain ⟨_, parts⟩ := exists_splitByte_hashPassword plain salt
  unfold needsRehash
  rw [parts]
  split
  next same =>
    cases same
    rw [PasswordLib.scanCosts_new]
    rfl
  · rfl

theorem newHash_of_hashPassword (plain password salt : Bytes) (allowLegacy : Bool)
    (other : Option Bytes) :
    (verifyCredential plain (hashPassword password salt) allowLegacy other).newHash = [] := by
  unfold verifyCredential verifyPasswordWithLegacyFallback
  rw [needsRehash_hashPassword]
  cases PasswordLib.verifyPassword plain (hashPassword password salt) with
  | none => rfl
  | some ok => cases ok <;> rfl

end TheAuth.Password
