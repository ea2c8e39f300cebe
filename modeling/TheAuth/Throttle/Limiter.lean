import Mathlib.Data.List.Dedup
import TheAuth.Go.Lib
import TheAuth.Go.Map

/-!
# The limiter of attempts

Failures are counted under the keys of clients, identifiers and users. The limiter writes with
`CompareAndSwap`, which neither sweeps the store nor makes room in it.
-/

set_option autoImplicit false

namespace TheAuth.Throttle

open Go List AList

structure Entry where
  failures : Int := 0
  (lastFailure blockedUntil expiresAt : Time := 0)
  deriving DecidableEq

structure Config where
  (graceFailures baseDelay maxDelay resetAfter userMaxFailures userLockout mfaMaxFailures
    mfaLockout : Int)

/-- The entries of the limiter. -/
structure MemoryStore where
  entries : GoMap Bytes Entry := ∅
  maxEntries : ℕ

def newMemoryStore (maxEntries : Int) : MemoryStore :=
  { maxEntries := if maxEntries ≤ 0 then 100000 else maxEntries.toNat }

namespace MemoryStore

variable (m : MemoryStore)

def delete (key : Bytes) : MemoryStore :=
  { m with entries := m.entries.erase key }

def loginKeyOf (key ident : Bytes) : Bool :=
  let rest := (key.drop 6).dropWhile (· ≠ 0x7C)
  (str "login:").isPrefixOf key && rest ≠ [] && rest.drop 1 = ident

def deleteLoginEntries (ident : Bytes) : MemoryStore :=
  { m with entries := m.entries.deleteWhere fun key _ => loginKeyOf key ident }

def compareAndSwap (key : Bytes) (prev : Option Entry) (next : Entry) :
    Option MemoryStore :=
  if m.entries.lookup key = prev then some { m with entries := m.entries.insert key next } else none

end MemoryStore

def loginKey (ip ident : Bytes) : Bytes := str "login:" ++ ip ++ str "|" ++ ident

def userKey (ident : Bytes) : Bytes := str "user:" ++ ident

def mfaKey (userID : Bytes) : Bytes := str "mfa:" ++ userID

def lapsed (e : Entry) (now : Time) : Bool := e.blockedUntil ≤ now && e.blockedUntil ≠ 0

def casAttempts : ℕ := 64

namespace Config

def doubled (cfg : Config) : ℕ → Int → Int
  | 0, d => min d cfg.maxDelay
  | n + 1, d => if cfg.maxDelay ≤ d * 2 then cfg.maxDelay else cfg.doubled n (d * 2)

variable (cfg : Config)

def backoff (failures : Int) : Int := cfg.doubled (failures - 1).toNat cfg.baseDelay

def counted (now : Time) (restartAfterLock : Bool) (apply : Entry → Entry)
    (prev : Option Entry) : Entry :=
  let e := (prev.filter fun e => now < e.expiresAt && !(restartAfterLock && lapsed e now)).getD {}
  let e := apply { e with failures := e.failures + 1, lastFailure := now }
  let e := { e with expiresAt := e.lastFailure + cfg.resetAfter }
  if e.expiresAt < e.blockedUntil then
    { e with expiresAt := e.blockedUntil + cfg.resetAfter } else e

/-- Too much contention is `none`. -/
def bump (cfg : Config) (key : Bytes) (now : Time) (restartAfterLock : Bool)
    (apply : Entry → Entry) (m : MemoryStore) : ℕ → Option MemoryStore
  | 0 => none
  | attempts + 1 =>
    let prev := m.entries.lookup key
    (m.compareAndSwap key prev (cfg.counted now restartAfterLock apply prev)).orElse fun _ =>
      cfg.bump key now restartAfterLock apply m attempts

def lockAfter (failures lockout : Int) (now : Time) (e : Entry) : Entry :=
  if failures ≤ e.failures then { e with blockedUntil := now + lockout } else e

def recordLoginFailure (ip ident : Bytes) (now : Time) (m : MemoryStore) :
    MemoryStore :=
  let slow (e : Entry) : Entry :=
    let more := e.failures - cfg.graceFailures
    if 0 < more then { e with blockedUntil := now + cfg.backoff more } else e
  match cfg.bump (loginKey ip ident) now false slow m casAttempts with
  | none => m
  | some m =>
    (cfg.bump (userKey ident) now true (lockAfter cfg.userMaxFailures cfg.userLockout now) m
      casAttempts).getD m

def recordMFAFailure (userID : Bytes) (now : Time) (m : MemoryStore) : MemoryStore :=
  (cfg.bump (mfaKey userID) now true (lockAfter cfg.mfaMaxFailures cfg.mfaLockout now) m
    casAttempts).getD m

end Config

/-- The calls of a limiter; its checks only read. -/
inductive Call where
  | checkLogin (ip ident : Bytes)
  | recordLoginFailure (ip ident : Bytes)
  | recordLoginSuccess (ip ident : Bytes)
  | checkMFA (userID : Bytes)
  | recordMFAFailure (userID : Bytes)
  | recordMFASuccess (userID : Bytes)
  | unlockIdentifier (ident userID : Bytes)
  | clearLoginBackoff (ident : Bytes)

def serve (cfg : Config) (m : MemoryStore) : Time × Call → MemoryStore
  | (_, .checkLogin _ _) | (_, .checkMFA _) => m
  | (now, .recordLoginFailure ip ident) => cfg.recordLoginFailure ip ident now m
  | (_, .recordLoginSuccess ip ident) => (m.delete (loginKey ip ident)).delete (userKey ident)
  | (now, .recordMFAFailure userID) => cfg.recordMFAFailure userID now m
  | (_, .recordMFASuccess userID) => m.delete (mfaKey userID)
  | (_, .unlockIdentifier ident userID) =>
    if userID = [] then m.delete (userKey ident)
    else (m.delete (userKey ident)).delete (mfaKey userID)
  | (_, .clearLoginBackoff ident) => m.deleteLoginEntries ident

/-- The keys a call counts a failure under. -/
def Call.counts : Call → List Bytes
  | .recordLoginFailure ip ident => [loginKey ip ident, userKey ident]
  | .recordMFAFailure userID => [mfaKey userID]
  | _ => []

variable {cfg : Config} {m : MemoryStore} {key : Bytes}

theorem mem_of_bump {other : Bytes} {now : Time} {restart : Bool} {apply : Entry → Entry}
    {attempts : ℕ} (inside : key ∈ ((cfg.bump other now restart apply m attempts).getD m).entries) :
    key = other ∨ key ∈ m.entries := by
  cases attempts with
  | zero => exact .inr inside
  | succ =>
    -- The entry was read under the same lock, so the first swap succeeds.
    rw [Config.bump, MemoryStore.compareAndSwap, if_pos rfl] at inside
    exact (mem_insert _).mp inside

theorem mem_of_delete {other : Bytes} (inside : key ∈ (m.delete other).entries) :
    key ∈ m.entries :=
  (mem_erase.mp inside).2

theorem mem_of_serve {call : Time × Call} (inside : key ∈ (serve cfg m call).entries) :
    key ∈ m.entries ∨ key ∈ call.2.counts := by
  obtain ⟨_, call⟩ := call
  cases call with
  | checkLogin | checkMFA => exact .inl inside
  | recordLoginFailure =>
    rw [serve, Config.recordLoginFailure] at inside
    split at inside
    · exact .inl inside
    next between first =>
    rcases mem_of_bump inside with rfl | earlier
    · exact .inr (mem_cons_of_mem _ mem_cons_self)
    · have login : key ∈ ((some between).getD m).entries := earlier
      rw [← first] at login
      exact (mem_of_bump login).symm.imp_right fun same => mem_cons.mpr (.inl same)
  | recordLoginSuccess => exact .inl (mem_of_delete (mem_of_delete inside))
  | recordMFAFailure => exact (mem_of_bump inside).symm.imp_right mem_singleton.mpr
  | recordMFASuccess => exact .inl (mem_of_delete inside)
  | unlockIdentifier =>
    rw [serve] at inside
    split at inside
    · exact .inl (mem_of_delete inside)
    · exact .inl (mem_of_delete (mem_of_delete inside))
  | clearLoginBackoff => exact .inl ((filter_sublist.map _).subset inside)

theorem mem_of_served {calls : List (Time × Call)}
    (inside : key ∈ (calls.foldl (serve cfg) m).entries) :
    key ∈ m.entries ∨ key ∈ calls.flatMap fun call => call.2.counts := by
  induction calls generalizing m with
  | nil => exact .inl inside
  | cons _ _ ih =>
    rw [flatMap_cons, mem_append]
    rcases ih inside with here | later
    · exact (mem_of_serve here).imp_right .inl
    · exact .inr (.inr later)

/-- **The store keeps its cap while failures are counted under no more keys than it may hold.** -/
theorem entries_le_of_few_keys {maxEntries : Int} {calls done : List (Time × Call)}
    (few : (calls.flatMap fun call => call.2.counts).dedup.length ≤
      (newMemoryStore maxEntries).maxEntries) (served : done <+: calls) :
    (done.foldl (serve cfg) (newMemoryStore maxEntries)).entries.keys.length ≤
      (newMemoryStore maxEntries).maxEntries := by
  refine Nat.le_trans (subperm_of_subset (keys_nodup _) fun key inside => ?_).length_le few
  rw [mem_dedup]
  rcases mem_of_served (mem_keys.mpr inside) with none_ | counted
  · exact absurd none_ (notMem_empty key)
  · obtain ⟨_, rfl⟩ := served
    exact flatMap_append ▸ mem_append_left _ counted

def strict : Config := ⟨3, 1, 900, 900, 10, 900, 5, 900⟩

theorem one_user_keeps_cap :
    ([(1, Call.recordMFAFailure (str "u")), (2, .recordMFAFailure (str "u"))].foldl (serve strict)
      (newMemoryStore 1)).entries.keys.length ≤ 1 :=
  entries_le_of_few_keys (by decide) prefix_rfl

theorem second_user_exceeds_cap :
    ([(1, Call.recordMFAFailure (str "u")), (2, .recordMFAFailure (str "v"))].foldl (serve strict)
      (newMemoryStore 1)).entries.keys.length = 2 := by
  decide

end TheAuth.Throttle
