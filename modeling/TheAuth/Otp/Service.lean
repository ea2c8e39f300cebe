import Mathlib.Algebra.Group.Int.Defs
import Mathlib.Data.List.MinMax
import TheAuth.Go.Json
import TheAuth.Go.Lib
import TheAuth.Go.Map
import TheAuth.Go.Sha256
import TheAuth.Library.Run

/-!
# One-time codes

A code, the attempts on it, a cooldown and a lock stand in a cache, under a key each. With a lockout
longer than the lifetime of a code the counter is there as long as the code is. `verify` reads the
code and deletes it in two steps, so two calls may both read it.
-/

set_option autoImplicit false

namespace TheAuth.Otp

open Go Library.Run List AList GoMap Option Time Function Prod
open Function (update)

/-- The texts before the identifier in a key: "otp:cd:", "otp:code:", "otp:att:", "otp:lock:". -/
inductive Slot where
  | cd | code | att | lock
  deriving DecidableEq

abbrev Key := Slot × Bytes

/-- An entry of the cache. Its count is an `int64`, which fewer than 2^63 attempts do not leave. -/
structure MemEntry where
  value : Bytes := []
  n : ℕ := 0
  expires : Time

abbrev Entries := GoMap Key MemEntry

def MemEntry.expired (e : MemEntry) (now : Time) : Bool :=
  !e.expires.isZero && !decide (now < e.expires)

def live (m : Entries) (key : Key) (now : Time) : Option MemEntry × Entries :=
  match m.lookup key with
  | none => (none, m)
  | some e => if e.expired now then (none, m.erase key) else (some e, m)

def sweepEntries (m : Entries) (now : Time) : Entries := m.deleteWhere fun _ e => e.expired now

def MemEntry.ends (e : MemEntry) : Time :=
  if e.expires.isZero then Time.unix (2 ^ 40) else e.expires

def evictSoonest (m : Entries) : Entries :=
  match @List.argmin _ _ Int.instLinearOrder.toPreorder Int.decLt (·.2.ends) m.entries with
  | none => m
  | some victim => m.erase victim.1

def makeRoom (max : ℕ) (m : Entries) (key : Key) (now : Time) : Entries :=
  if (m.lookup key).isNone && max ≤ m.entries.length then
    let swept := sweepEntries m now
    if max ≤ swept.entries.length then evictSoonest swept else swept
  else m

def put (max : ℕ) (m : Entries) (key : Key) (e : MemEntry) (now : Time) : Entries :=
  (makeRoom max m key now).insert key e

def expiry (now ttl : Time) : Time := if ttl ≤ 0 then 0 else now + ttl

def get (m : Entries) (key : Key) (now : Time) : Option Bytes × Entries :=
  ((live m key now).1.map (·.value), (live m key now).2)

def set (max : ℕ) (m : Entries) (key : Key) (value : Bytes) (ttl now : Time) : Entries :=
  put max m key { value, expires := expiry now ttl } now

def setNX (max : ℕ) (m : Entries) (key : Key) (value : Bytes) (ttl now : Time) : Bool × Entries :=
  match live m key now with
  | (some _, m) => (false, m)
  | (none, m) => (true, set max m key value ttl now)

def incr (max : ℕ) (m : Entries) (key : Key) (ttl now : Time) : ℕ × Entries :=
  match live m key now with
  | (some e, m) => (e.n + 1, m.insert key { e with n := e.n + 1 })
  | (none, m) => (1, put max m key { n := 1, expires := expiry now ttl } now)

structure Config where
  wired : Bool
  (channel secret : Bytes)
  length : Int
  (ttl cooldown : Time)
  maxAttempts : Int
  lockoutDuration : Time

def orDefault (value default : Int) : Int := if value ≤ 0 then default else value

def new (cfg : Config) : Except String Config :=
  let length := if cfg.length = 0 then 6 else cfg.length
  if !cfg.wired then .error "otp: Cache and Sender are required"
  else if cfg.secret.length < 32 then .error "otp: Secret must be at least 32 bytes"
  else if length < 4 ∨ 10 < length then .error "otp: Length must be between 4 and 10"
  else .ok { cfg with
    channel := if cfg.channel = [] then str "email" else cfg.channel
    length
    ttl := orDefault cfg.ttl (10 * Time.nsPerMinute)
    cooldown := orDefault cfg.cooldown Time.nsPerMinute
    maxAttempts := orDefault cfg.maxAttempts 5
    lockoutDuration := orDefault cfg.lockoutDuration (15 * Time.nsPerMinute) }

inductive OtpError where
  | emptyDestination | locked | cooldown | entropy | send | invalid

/-- The readings of the clock in a call. -/
structure Times where
  (first second third : Time)

section

variable [StdLib] [CaseLib] (cfg : Config)

def Config.normalize (dest : Bytes) : Bytes :=
  let dest := StdLib.trimSpace dest
  if cfg.channel = str "sms" then dest.filter fun c => c ∉ str " -()" else CaseLib.toLower dest

def Config.id (cfg : Config) (purpose dest : Bytes) : Bytes :=
  (hexEncode (hmac256 cfg.secret
    (str "id" ++ [0] ++ cfg.channel ++ [0] ++ purpose ++ [0] ++ dest))).take 40

def Config.mac (id code : Bytes) : Bytes :=
  hexEncode (hmac256 cfg.secret (str "code" ++ [0] ++ id ++ [0] ++ code))

/-- With the code that `generate` draws and whether the sender delivers it. -/
def issue (max : ℕ) (m : Entries) (purpose dest : Bytes) (drawn : Option Bytes)
    (sends : Bool) (t : Times) : Except OtpError Unit × Entries :=
  let dest := cfg.normalize dest
  let id := cfg.id purpose dest
  if dest = [] then (.error .emptyDestination, m)
  else match get m (.lock, id) t.first with
  | (some _, m) => (.error .locked, m)
  | (none, m) =>
    match setNX max m (.cd, id) [1] cfg.cooldown t.second with
    | (false, m) => (.error .cooldown, m)
    | (true, m) =>
      match drawn with
      | none => (.error .entropy, m.erase (.cd, id))
      | some code =>
        let m := (set max m (.code, id) (cfg.mac id code) cfg.ttl t.third).erase (.att, id)
        if sends then (.ok (), m) else (.error .send, (m.erase (.code, id)).erase (.cd, id))

/-- `Verify` up to the comparison. -/
def readCode (max : ℕ) (m : Entries) (id : Bytes) (t : Times) :
    Except OtpError (Option Bytes) × Entries :=
  match get m (.lock, id) t.first with
  | (some _, m) => (.error .locked, m)
  | (none, m) =>
    match incr max m (.att, id) cfg.lockoutDuration t.second with
    | (n, m) =>
      if cfg.maxAttempts < n then
        (.error .locked, (set max m (.lock, id) [1] cfg.lockoutDuration t.third).erase (.code, id))
      else
        match get m (.code, id) t.third with
        | (want, m) => (.ok want, m)

def verify (max : ℕ) (m : Entries) (purpose dest code : Bytes) (t : Times) :
    Except OtpError Unit × Entries :=
  let id := cfg.id purpose (cfg.normalize dest)
  match readCode cfg max m id t with
  | (.error e, m) => (.error e, m)
  | (.ok want, m) =>
    if want = some (cfg.mac id (StdLib.trimSpace code)) then
      (.ok (), (m.erase (.code, id)).erase (.att, id))
    else (.error .invalid, m)

end

/-! ## Steps that touch no code -/

section

variable {m m' m'' : Entries} {now t : Time} {max : ℕ} {key : Key}

/-- A counter that ends after the code is not dropped before the code. -/
structure Quiet (now : Time) (m m' : Entries) : Prop where
  code : ∀ {id c}, m'.lookup (.code, id) = some c → m.lookup (.code, id) = some c
  att : ∀ {id e}, m'.lookup (.att, id) = some e → m.lookup (.att, id) = some e
  kept : ∀ {id c e}, m'.lookup (.code, id) = some c → now < c.expires →
    m.lookup (.att, id) = some e → c.expires < e.expires → m'.lookup (.att, id) = some e

theorem Quiet.refl (m : Entries) : Quiet now m m :=
  ⟨fun here => here, fun here => here, fun _ _ here _ => here⟩

theorem Quiet.trans (one : Quiet now m m') (two : Quiet now m' m'') : Quiet now m m'' :=
  ⟨fun here => one.code (two.code here), fun here => one.att (two.att here),
    fun code live att later =>
      two.kept code live (one.kept (two.code code) live att later) later⟩

theorem Quiet.of_drops (sub : ∀ {key e}, m'.lookup key = some e → m.lookup key = some e)
    (left : ∀ {key key' e e'}, m'.lookup key = some e → now < e.expires →
      m.lookup key' = some e' → e.expires < e'.expires → m'.lookup key' = some e') :
    Quiet now m m' :=
  ⟨sub, sub, left⟩

theorem not_expired_of_lt {e : MemEntry} (live : now < e.expires) (le : t ≤ now) :
    e.expired t = false := by
  have : t < e.expires := Int.lt_of_le_of_lt le live
  simp [MemEntry.expired, this]

theorem quiet_live (m : Entries) (key : Key) (le : t ≤ now) : Quiet now m (live m key t).2 := by
  unfold live
  split
  · exact .refl m
  rename_i here
  split
  · rename_i ended
    refine .of_drops lookup_of_lookup_erase fun {k k' c e'} _ alive there later => ?_
    rw [lookup_erase_ne ?_, there]
    rintro rfl
    obtain rfl := some.inj (here.symm.trans there)
    rw [not_expired_of_lt (Int.lt_trans alive later) le] at ended
    cases ended
  · exact .refl m

theorem live_fst (m : Entries) (key : Key) (t : Time) :
    (live m key t).1 = (live m key t).2.lookup key ∧
      ∀ e, (live m key t).1 = some e → e.expired t = false := by
  unfold live
  split
  next gone => exact ⟨gone.symm, nofun⟩
  next here =>
    split
    · exact ⟨(lookup_erase (s := m) (a := key)).symm, nofun⟩
    next lives => exact ⟨here.symm, fun _ same => some.inj same ▸ Bool.not_eq_true _ ▸ lives⟩

theorem quiet_sweepEntries (m : Entries) (le : t ≤ now) : Quiet now m (sweepEntries m t) := by
  refine .of_drops (fun here => ((lookup_deleteWhere _ _).mp here).1) fun _ alive there later => ?_
  exact (lookup_deleteWhere _ _).mpr ⟨there, not_expired_of_lt (Int.lt_trans alive later) le⟩

theorem quiet_evictSoonest (m : Entries) (nonneg : 0 ≤ now) : Quiet now m (evictSoonest m) := by
  have ends : ∀ {e : MemEntry}, now < e.expires → e.ends = e.expires := by
    intro e alive
    have : e.expires ≠ 0 := Int.ne_of_gt (Int.lt_of_le_of_lt nonneg alive)
    simp [MemEntry.ends, isZero, this]
  unfold evictSoonest
  split
  · exact .refl m
  rename_i victim chosen
  refine .of_drops lookup_of_lookup_erase fun {k k' e e'} here alive there later => ?_
  rw [lookup_erase_ne ?_, there]
  rintro rfl
  have listed := mem_lookup_iff.mp (lookup_of_lookup_erase here)
  have soonest := le_of_mem_argmin listed chosen
  have own : m.lookup victim.1 = some victim.2 := mem_lookup_iff.mpr (argmin_mem chosen)
  obtain rfl := some.inj (own.symm.trans there)
  rw [ends alive, ends (Int.lt_trans alive later)] at soonest
  exact absurd later (not_lt.mpr soonest)

theorem quiet_makeRoom (max : ℕ) (m : Entries) (key : Key) (nonneg : 0 ≤ now) (le : t ≤ now) :
    Quiet now m (makeRoom max m key t) := by
  unfold makeRoom
  dsimp only
  split
  · split
    · exact (quiet_sweepEntries m le).trans (quiet_evictSoonest _ nonneg)
    · exact quiet_sweepEntries m le
  · exact .refl m

theorem Quiet.insert (m : Entries) (slot : Slot) (id : Bytes) (e : MemEntry)
    (code : slot ≠ .code) (att : slot ≠ .att) : Quiet now m (m.insert (slot, id) e) := by
  have same : ∀ slot' id', slot' = .code ∨ slot' = .att →
      (m.insert (slot, id) e).lookup (slot', id') = m.lookup (slot', id') := by
    intro _ _ which
    refine lookup_insert_ne fun eq => ?_
    rcases which with rfl | rfl
    · exact code (congrArg fst eq).symm
    · exact att (congrArg fst eq).symm
  refine ⟨fun here => same _ _ (.inl rfl) ▸ here, fun here => same _ _ (.inr rfl) ▸ here,
    fun _ _ here _ => ?_⟩
  rw [same _ _ (.inr rfl), here]

theorem Quiet.erase (m : Entries) (slot : Slot) (id : Bytes) (att : slot ≠ .att) :
    Quiet now m (m.erase (slot, id)) := by
  refine ⟨lookup_of_lookup_erase, lookup_of_lookup_erase, fun _ _ here _ => ?_⟩
  rw [lookup_erase_ne fun eq => att (congrArg fst eq).symm, here]

theorem quiet_consume (m : Entries) (id : Bytes) :
    Quiet now m ((m.erase (.code, id)).erase (.att, id)) := by
  refine (Quiet.erase m .code id nofun).trans ⟨lookup_of_lookup_erase,
    lookup_of_lookup_erase, fun {id' c e} here _ there _ => ?_⟩
  rw [lookup_erase_ne ?_, there]
  intro same
  obtain rfl := (mk.inj same).2
  have gone := lookup_of_lookup_erase here
  rw [lookup_erase] at gone
  cases gone

theorem Quiet.get {r : Option Bytes} (le : t ≤ now) (done : Otp.get m key t = (r, m')) :
    Quiet now m m' := by
  cases done
  exact quiet_live m key le

theorem Quiet.set (max : ℕ) (m : Entries) (slot : Slot) (id value : Bytes) (ttl : Time)
    (nonneg : 0 ≤ now) (le : t ≤ now) (code : slot ≠ .code) (att : slot ≠ .att) :
    Quiet now m (Otp.set max m (slot, id) value ttl t) :=
  (quiet_makeRoom max m _ nonneg le).trans (.insert _ slot id _ code att)

theorem Quiet.setNX {slot : Slot} {id value : Bytes} {ttl : Time} {stored : Bool}
    (done : Otp.setNX max m (slot, id) value ttl t = (stored, m')) (nonneg : 0 ≤ now)
    (le : t ≤ now) (code : slot ≠ .code) (att : slot ≠ .att) : Quiet now m m' := by
  have first := quiet_live m (slot, id) le
  unfold Otp.setNX at done
  split at done
  · rename_i here
    rw [here] at first
    cases done
    exact first
  · rename_i m₁ here
    rw [here] at first
    cases done
    exact first.trans (.set max m₁ slot id value ttl nonneg le code att)

end

/-! ## Calls in turn -/

/-- With the number of codes stored for each destination, and the codes that wrong guesses were
compared with. -/
structure System where
  entries : Entries := ∅
  clock : Time := 0
  issues : Bytes → ℕ := fun _ => 0
  compared : List (Bytes × ℕ) := []

/-- A call with its times. -/
inductive Call where
  | issue (purpose dest : Bytes) (drawn : Option Bytes) (sends : Bool) (t : Times)
  | verify (purpose dest code : Bytes) (t : Times)

/-- The times of a call come after the clock of the system. -/
def Call.Timely (s : System) : Call → Prop
  | .issue _ _ _ _ t | .verify _ _ _ t =>
    s.clock ≤ t.first ∧ t.first ≤ t.second ∧ t.second ≤ t.third

/-- One call, alone. -/
def serve [StdLib] [CaseLib] (cfg : Config) (max : ℕ) (s : System) : Call → System
  | .issue purpose dest drawn sends t =>
    let id := cfg.id purpose (cfg.normalize dest)
    match issue cfg max s.entries purpose dest drawn sends t with
    | (.ok _, m) | (.error .send, m) =>
      { s with entries := m, clock := t.third, issues := update s.issues id (s.issues id + 1) }
    | (.error _, m) => { s with entries := m, clock := t.third }
  | .verify purpose dest code t =>
    let id := cfg.id purpose (cfg.normalize dest)
    let next := { s with entries := (verify cfg max s.entries purpose dest code t).2
                         clock := t.third }
    match readCode cfg max s.entries id t with
    | (.ok (some want), _) =>
      if want = cfg.mac id (StdLib.trimSpace code) then next
      else { next with compared := (id, s.issues id) :: s.compared }
    | _ => next

section

variable {cfg : Config} {max : ℕ} {since now : Time} {m m' : Entries} {issues : Bytes → ℕ}
  {compared : List (Bytes × ℕ)} {id : Bytes}

/-- The counter of a code ends after the code, and counts the wrong guesses. -/
structure Counted (cfg : Config) (since now : Time) (m : Entries) (issues : Bytes → ℕ)
    (compared : List (Bytes × ℕ)) : Prop where
  known : ∀ x ∈ compared, x.2 ≤ issues x.1
  fresh : ∀ {id c}, m.lookup (.code, id) = some c → 0 < c.expires ∧ c.expires ≤ since + cfg.ttl
  none : ∀ {id c}, m.lookup (.code, id) = some c → now < c.expires →
    m.lookup (.att, id) = .none → compared.count (id, issues id) = 0
  some : ∀ {id c e}, m.lookup (.code, id) = some c → now < c.expires →
    m.lookup (.att, id) = some e → c.expires < e.expires ∧ compared.count (id, issues id) ≤ e.n

theorem Counted.later (counted : Counted cfg since now m issues compared) {since' now' : Time}
    (le : since ≤ since') (le' : now ≤ now') : Counted cfg since' now' m issues compared where
  known := counted.known
  fresh here := (counted.fresh here).imp_right fun before =>
    Int.le_trans before (Int.add_le_add_right le _)
  none here live := counted.none here (Int.lt_of_le_of_lt le' live)
  some here live := counted.some here (Int.lt_of_le_of_lt le' live)

theorem Counted.quiet (counted : Counted cfg since now m issues compared)
    (quiet : Quiet now m m') : Counted cfg since now m' issues compared where
  known := counted.known
  fresh here := counted.fresh (quiet.code here)
  none {id c} here live gone := by
    cases before : m.lookup (.att, id) with
    | none => exact counted.none (quiet.code here) live before
    | some =>
      have later := (counted.some (quiet.code here) live before).1
      rw [quiet.kept here live before later] at gone
      cases gone
  some here live att := counted.some (quiet.code here) live (quiet.att att)

theorem Counted.tail {x : Bytes × ℕ} (counted : Counted cfg since now m issues (x :: compared)) :
    Counted cfg since now m issues compared where
  known y listed := counted.known y (mem_cons_of_mem x listed)
  fresh := counted.fresh
  none here live gone := Nat.le_zero.mp (counted.none here live gone ▸ count_le_count_cons)
  some here live att :=
    ⟨(counted.some here live att).1, count_le_count_cons.trans (counted.some here live att).2⟩

section

variable (counted : Counted cfg since now m issues compared)
include counted

theorem Counted.insert {e : MemEntry}
    (up : (m.lookup (.att, id) = .none ∧ e.n = 1 ∧ since + cfg.ttl < e.expires) ∨
      ∃ old, m.lookup (.att, id) = .some old ∧ e = { old with n := old.n + 1 }) :
    Counted cfg since now (m.insert (.att, id) e) issues ((id, issues id) :: compared) := by
  have codes : ∀ {id'}, (m.insert (.att, id) e).lookup (.code, id') = m.lookup (.code, id') :=
    lookup_insert_ne nofun
  refine ⟨fun x listed => ?_, fun here => counted.fresh (codes ▸ here),
    fun {id' c} here live gone => ?_, fun {id' c e'} here live att => ?_⟩
  · obtain rfl | old := mem_cons.mp listed
    · exact le_rfl
    · exact counted.known x old
  · by_cases same : id' = id
    · subst same
      rw [lookup_insert] at gone
      cases gone
    · rw [lookup_insert_ne (by simpa using same)] at gone
      rw [count_cons_of_ne fun eq => same (mk.inj eq).1.symm]
      exact counted.none (codes ▸ here) live gone
  · obtain ⟨same, rfl⟩ | ⟨other, att⟩ := of_lookup_insert att
    · obtain rfl := (mk.inj same).2
      rw [count_cons_self]
      rcases up with ⟨gone, one, later⟩ | ⟨_, before, rfl⟩
      · refine ⟨Int.lt_of_le_of_lt (counted.fresh (codes ▸ here)).2 later, ?_⟩
        rw [counted.none (codes ▸ here) live gone, one]
      · obtain ⟨later, le⟩ := counted.some (codes ▸ here) live before
        exact ⟨later, Nat.succ_le_succ le⟩
    · rw [count_cons_of_ne fun eq => other (by rw [(mk.inj eq).1])]
      exact counted.some (codes ▸ here) live att

theorem Counted.store (id mac : Bytes) (le : since ≤ now) (lasts : 0 < now + cfg.ttl) :
    Counted cfg now now ((m.insert (.code, id) ⟨mac, 0, now + cfg.ttl⟩).erase (.att, id))
      (update issues id (issues id + 1)) compared := by
  have new : compared.count (id, issues id + 1) = 0 :=
    count_eq_zero.mpr fun listed => absurd (counted.known _ listed) (Nat.not_succ_le_self _)
  have old : ∀ {id'}, id' ≠ id → update issues id (issues id + 1) id' = issues id' :=
    fun other => update_of_ne other _ _
  have codes : ∀ {id' c}, ((m.insert (.code, id) ⟨mac, 0, now + cfg.ttl⟩).erase
      (.att, id)).lookup (.code, id') = .some c → (id' = id ∧ c.expires = now + cfg.ttl) ∨
        id' ≠ id ∧ m.lookup (.code, id') = .some c := by
    intro id' c here
    obtain ⟨same, rfl⟩ | ⟨other, here⟩ := of_lookup_insert (lookup_of_lookup_erase here)
    · exact .inl ⟨(mk.inj same).2, rfl⟩
    · exact .inr ⟨fun same => other (same ▸ rfl), here⟩
  have atts : ∀ {id'}, id' ≠ id → ((m.insert (.code, id) ⟨mac, 0, now + cfg.ttl⟩).erase
      (.att, id)).lookup (.att, id') = m.lookup (.att, id') := by
    intro id' other
    rw [lookup_erase_ne (by simpa using other)]
    exact lookup_insert_ne nofun
  refine ⟨fun x listed => ?_, fun here => ?_, fun {id' c} here live gone => ?_,
    fun {id' c e} here live att => ?_⟩
  · have le := counted.known x listed
    by_cases same : x.1 = id
    · rw [same, update_self]
      exact Nat.le_succ_of_le (same ▸ le)
    · rwa [old same]
  · rcases codes here with ⟨-, same⟩ | ⟨-, here⟩
    · exact ⟨same ▸ lasts, Int.le_of_eq same⟩
    · exact (counted.later le (Int.le_refl now)).fresh here
  · rcases codes here with ⟨rfl, -⟩ | ⟨other, here⟩
    · rwa [update_self]
    · rw [old other]
      exact counted.none here live (atts other ▸ gone)
  · rcases codes here with ⟨rfl, -⟩ | ⟨other, here⟩
    · rw [lookup_erase] at att
      cases att
    · rw [old other]
      exact counted.some here live (atts other ▸ att)

theorem Counted.incr (id : Bytes) {t : Time} (shorter : cfg.ttl < cfg.lockoutDuration)
    (positive : 0 < cfg.ttl) (nonneg : 0 ≤ now) (from_ : since ≤ t) (le : t ≤ now) {n : ℕ}
    (done : incr max m (.att, id) cfg.lockoutDuration t = (n, m')) :
    Counted cfg since now m' issues ((id, issues id) :: compared) ∧
      ∃ e, m'.lookup (.att, id) = .some e ∧ e.n = n := by
  have quiet := quiet_live m (.att, id) le
  have own := (live_fst m (.att, id) t).1
  unfold Otp.incr at done
  split at done
  · rename_i e m₁ here
    rw [here] at quiet own
    cases done
    exact ⟨(counted.quiet quiet).insert (.inr ⟨e, own.symm, rfl⟩), _, lookup_insert _, rfl⟩
  · rename_i m₁ here
    rw [here] at quiet own
    cases done
    have room := quiet_makeRoom max m₁ (.att, id) nonneg le
    refine ⟨((counted.quiet quiet).quiet room).insert (.inl ⟨?_, rfl, ?_⟩), _, lookup_insert _, rfl⟩
    · refine eq_none_iff_forall_ne_some.mpr fun e there => ?_
      exact nomatch own.trans (room.att there)
    · rw [expiry, if_neg (Int.not_le.mpr (Int.lt_trans positive shorter))]
      exact Int.add_lt_add_of_le_of_lt from_ shorter

end

variable {t : Times}

theorem Counted.readCode (counted : Counted cfg since now m issues compared)
    {r : Except OtpError (Option Bytes)} (shorter : cfg.ttl < cfg.lockoutDuration)
    (positive : 0 < cfg.ttl) (ordered : since ≤ t.first ∧ t.first ≤ t.second ∧ t.second ≤ t.third)
    (le : now ≤ t.third) (nonneg : 0 ≤ t.third) (done : Otp.readCode cfg max m id t = (r, m')) :
    Counted cfg since t.third m' issues compared ∧ ∀ want, r = .ok (.some want) →
      Counted cfg since t.third m' issues ((id, issues id) :: compared) ∧
        (compared.count (id, issues id) + 1 : Int) ≤ cfg.maxAttempts := by
  obtain ⟨from_, le₁, le₂⟩ := ordered
  replace counted := counted.later (Int.le_refl since) le
  unfold Otp.readCode at done
  split at done
  · rename_i read
    cases done
    exact ⟨counted.quiet (.get (Int.le_trans le₁ le₂) read), nofun⟩
  rename_i read
  have first := counted.quiet (.get (Int.le_trans le₁ le₂) read)
  split at done
  rename_i m₂ up
  obtain ⟨more, _, att, rfl⟩ :=
    first.incr id shorter positive nonneg (Int.le_trans from_ le₁) le₂ up
  split at done
  · cases done
    refine ⟨(more.quiet ?_).tail, nofun⟩
    exact (Quiet.set max m₂ .lock id [1] cfg.lockoutDuration nonneg (Int.le_refl _) nofun
      nofun).trans (.erase _ .code id nofun)
  rename_i within
  split at done
  rename_i got
  cases done
  have quiet : Quiet t.third m₂ m' := .get (Int.le_refl _) got
  refine ⟨(more.quiet quiet).tail, fun want same => ⟨more.quiet quiet, ?_⟩⟩
  obtain rfl := Except.ok.inj same
  obtain ⟨c, live, -⟩ := map_eq_some_iff.mp (congrArg fst got)
  obtain ⟨there, lives⟩ := live_fst m₂ (.code, id) t.third
  have after : (Otp.live m₂ (.code, id) t.third).2 = m' := congrArg snd got
  have here : m'.lookup (.code, id) = .some c := after ▸ there.symm.trans live
  have alive : t.third < c.expires := by
    have := lives c live
    have nonzero := Int.ne_of_gt (more.fresh (quiet.code here)).1
    simpa [MemEntry.expired, isZero, nonzero] using this
  have counts := (more.some (quiet.code here) alive att).2
  rw [count_cons_self] at counts
  exact Int.le_trans (Int.ofNat_le.mpr counts) (Int.not_lt.mp within)

variable [StdLib] [CaseLib]

theorem issue_cases (cfg : Config) (max : ℕ) (m : Entries) (purpose dest : Bytes)
    (drawn : Option Bytes) (sends : Bool) (nonneg : 0 ≤ now) (first : t.first ≤ now)
    (second : t.second ≤ now) (third : t.third ≤ now) :
    let id := cfg.id purpose (cfg.normalize dest)
    (∃ e m', issue cfg max m purpose dest drawn sends t = (.error e, m') ∧ e ≠ .send ∧
        Quiet now m m') ∨
      ∃ mac m₁ m₂ r, issue cfg max m purpose dest drawn sends t = (r, m₂) ∧
        (r = .ok () ∨ r = .error .send) ∧ Quiet now m m₁ ∧
        Quiet now ((m₁.insert (.code, id) ⟨mac, 0, expiry t.third cfg.ttl⟩).erase (.att, id))
          m₂ := by
  intro id
  unfold issue
  dsimp only
  split
  · exact .inl ⟨_, _, rfl, nofun, .refl m⟩
  split
  · rename_i read
    exact .inl ⟨_, _, rfl, nofun, .get first read⟩
  rename_i m₁ read
  have quiet : Quiet now m m₁ := .get first read
  split
  · rename_i stored
    exact .inl ⟨_, _, rfl, nofun, quiet.trans (.setNX stored nonneg second nofun nofun)⟩
  rename_i m₂ stored
  replace quiet : Quiet now m m₂ := quiet.trans (.setNX stored nonneg second nofun nofun)
  split
  · exact .inl ⟨_, _, rfl, nofun, quiet.trans (.erase m₂ .cd id nofun)⟩
  rename_i code
  have room := quiet.trans (quiet_makeRoom max m₂ (.code, id) nonneg third)
  split
  · exact .inr ⟨cfg.mac id code, _, _, _, rfl, .inl rfl, room, .refl _⟩
  · refine .inr ⟨cfg.mac id code, _, _, _, rfl, .inr rfl, room, ?_⟩
    exact (Quiet.erase _ .code id nofun).trans (.erase _ .cd id nofun)

theorem verify_quiet (now : Time) (cfg : Config) (max : ℕ) (m : Entries)
    (purpose dest code : Bytes) (t : Times) :
    Quiet now (readCode cfg max m (cfg.id purpose (cfg.normalize dest)) t).2
      (verify cfg max m purpose dest code t).2 := by
  unfold verify
  dsimp only
  split
  next done => exact done ▸ .refl _
  next done =>
    rw [done]
    split
    · exact quiet_consume _ _
    · exact .refl _

/-- The invariant: no code is compared more often than the attempts allow. -/
structure Guarded (cfg : Config) (s : System) : Prop where
  nonneg : 0 ≤ s.clock
  counted : Counted cfg s.clock s.clock s.entries s.issues s.compared
  bounded : ∀ x, (s.compared.count x : Int) ≤ cfg.maxAttempts

theorem Guarded.serve {s : System} (guarded : Guarded cfg s) {call : Call}
    (shorter : cfg.ttl < cfg.lockoutDuration) (positive : 0 < cfg.ttl) (timely : call.Timely s) :
    Guarded cfg (Otp.serve cfg max s call) := by
  cases call with
  | issue purpose dest drawn sends t =>
    obtain ⟨from_, ordered⟩ := timely
    have le : s.clock ≤ t.third := Int.le_trans from_ (Int.le_trans ordered.1 ordered.2)
    have nonneg := Int.le_trans guarded.nonneg le
    have counted := guarded.counted.later (Int.le_refl _) le
    unfold Otp.serve
    dsimp only
    rcases issue_cases cfg max s.entries purpose dest drawn sends nonneg
        (Int.le_trans ordered.1 ordered.2) ordered.2 (Int.le_refl _) with
      ⟨e, m', done, other, quiet⟩ | ⟨mac, m₁, m₂, r, done, which, before, after⟩
    · rw [done]
      have kept := (counted.quiet quiet).later le (Int.le_refl _)
      cases e with
      | send => exact absurd rfl other
      | _ => exact ⟨nonneg, kept, guarded.bounded⟩
    · rw [expiry, if_neg (Int.not_le.mpr positive)] at after
      have stored := ((counted.quiet before).store (cfg.id purpose (cfg.normalize dest)) mac le
        (Int.add_pos_of_nonneg_of_pos nonneg positive)).quiet after
      rw [done]
      rcases which with rfl | rfl <;> exact ⟨nonneg, stored, guarded.bounded⟩
  | verify purpose dest code t =>
    have le : s.clock ≤ t.third := Int.le_trans timely.1 (Int.le_trans timely.2.1 timely.2.2)
    have nonneg := Int.le_trans guarded.nonneg le
    have quiet := verify_quiet t.third cfg max s.entries purpose dest code t
    unfold Otp.serve
    dsimp only
    generalize done : readCode cfg max s.entries (cfg.id purpose (cfg.normalize dest)) t = read
      at quiet
    obtain ⟨_, _⟩ := read
    obtain ⟨counted, guess⟩ := guarded.counted.readCode shorter positive timely le nonneg done
    have kept := (counted.quiet quiet).later le (Int.le_refl _)
    split
    · rename_i want m' same
      cases same
      split
      · exact ⟨nonneg, kept, guarded.bounded⟩
      · obtain ⟨more, room⟩ := guess want rfl
        refine ⟨nonneg, (more.quiet quiet).later le (Int.le_refl _), fun x => ?_⟩
        rw [count_cons]
        split
        next same =>
          rw [← beq_iff_eq.mp same]
          exact room
        · exact guarded.bounded x
    · exact ⟨nonneg, kept, guarded.bounded⟩

end

theorem positive_of_new {raw cfg : Config} (accepted : new raw = .ok cfg) :
    0 < cfg.ttl ∧ 0 < cfg.maxAttempts := by
  have pos : ∀ value : Int, ∀ default, 0 < default → 0 < orDefault value default := by
    intro _ _ _
    unfold orDefault
    split <;> omega
  unfold new at accepted
  generalize (if raw.length = 0 then 6 else raw.length) = length at accepted
  dsimp only at accepted
  split at accepted
  · cases accepted
  split at accepted
  · cases accepted
  split at accepted <;> cases accepted
  exact ⟨pos _ _ (by decide), pos _ _ (by decide)⟩

/-- **With a lockout longer than the lifetime of a code, no more wrong guesses than allowed are
compared with one code.** -/
theorem wrong_guesses_bounded [StdLib] [CaseLib] (raw cfg : Config) (max : ℕ)
    (accepted : new raw = .ok cfg) (shorter : cfg.ttl < cfg.lockoutDuration) (calls : List Call)
    (timely : Throughout (fun s call => some (serve cfg max s call)) (fun s call => call.Timely s)
      {} calls) (x : Bytes × ℕ) :
    ((calls.foldl (serve cfg max) {}).compared.count x : Int) ≤ cfg.maxAttempts := by
  obtain ⟨positive, attempts⟩ := positive_of_new accepted
  have initially : Guarded cfg {} :=
    ⟨Int.le_refl 0, ⟨nofun, nofun, nofun, nofun⟩, fun _ => Int.le_of_lt attempts⟩
  exact (invariant_of_run_throughout (fun guarded timely taken =>
    some.inj taken ▸ guarded.serve shorter positive timely) initially timely run_total).bounded x

def guessOnce (ttl : Time) : Config :=
  ⟨true, [], List.replicate 32 7, 0, ttl, 0, 1, 15 * Time.nsPerMinute⟩

def twoGuesses (later : Time) : List Call :=
  [.issue [] (str "a") (some (str "1")) true ⟨1, 1, 1⟩, .verify [] (str "a") (str "2") ⟨2, 2, 2⟩,
    .verify [] (str "a") (str "3") ⟨later, later, later⟩]

instance (s : System) : ∀ call : Call, Decidable (call.Timely s)
  | .issue .. | .verify .. => inferInstanceAs (Decidable (_ ∧ _))

theorem wrong_guesses_bounded_by_one :
    let _ := StdLib.refusing
    let _ := CaseLib.ascii
    let cfg := { guessOnce nsPerMinute with
      channel := str "email", length := 6, cooldown := nsPerMinute }
    new (guessOnce nsPerMinute) = .ok cfg ∧
      (((twoGuesses 3).foldl (serve cfg 9) {}).compared.count (cfg.id [] (str "a"), 1) : Int) ≤
        cfg.maxAttempts := by
  intro _ _ cfg
  exact ⟨rfl, wrong_guesses_bounded (guessOnce nsPerMinute) cfg 9 rfl (by decide) (twoGuesses 3)
    (by decide +kernel) _⟩

/-- The code lives for an hour, its counter for a quarter of one: a second guess is compared. -/
theorem guesses_outlive_counter :
    let _ := StdLib.refusing
    let _ := CaseLib.ascii
    ((new (guessOnce (60 * nsPerMinute))).toOption.map fun cfg =>
      let last := (twoGuesses (20 * nsPerMinute)).foldl (serve cfg 9) {}
      (cfg.maxAttempts, last.compared.map fun x => (x.2, last.compared.count x))) =
        some (1, [(1, 2), (1, 2)]) := by
  decide +kernel

/-! ## Calls that interleave -/

/-- Where a call stands. -/
inductive Phase where
  | start | unlocked | counted | locking | discarding
  | matched (code : ℕ)
  | deleted (code : ℕ)
  | accepted (code : ℕ)
  | refused
  deriving DecidableEq

def Phase.took : Phase → Option ℕ
  | .matched k | .deleted k | .accepted k => some k
  | _ => none

def Phase.isMatched : Phase → Bool
  | .matched _ => true
  | _ => false

/-- Calls whose operations interleave. -/
structure Race (ι : Type) where
  entries : Entries
  issued : ℕ
  phase : ι → Phase

/-- One operation of one call. -/
inductive Move (ι : Type) where
  | issue (drawn : Option Bytes) (sends : Bool) (t : Times)
  | advance (r : ι) (now : Time)

section

variable {ι : Type} [DecidableEq ι] [StdLib] [CaseLib]

/-- One operation of a call. -/
def advance (cfg : Config) (max : ℕ) (id code : Bytes) (s : Race ι) (r : ι) (now : Time) :
    Race ι :=
  let after (m : Entries) (p : Phase) : Race ι :=
    { s with entries := m, phase := update s.phase r p }
  match s.phase r with
  | .start =>
    match get s.entries (.lock, id) now with
    | (some _, m) => after m .refused
    | (none, m) => after m .unlocked
  | .unlocked =>
    match incr max s.entries (.att, id) cfg.lockoutDuration now with
    | (n, m) => after m (if cfg.maxAttempts < n then .locking else .counted)
  | .locking => after (set max s.entries (.lock, id) [1] cfg.lockoutDuration now) .discarding
  | .discarding => after (s.entries.erase (.code, id)) .refused
  | .counted =>
    match get s.entries (.code, id) now with
    | (want, m) =>
      after m (if want = some (cfg.mac id (StdLib.trimSpace code)) then .matched s.issued
        else .refused)
  | .matched k => after (s.entries.erase (.code, id)) (.deleted k)
  | .deleted k => after (s.entries.erase (.att, id)) (.accepted k)
  | .accepted _ | .refused => s

def race (cfg : Config) (max : ℕ) (purpose dest : Bytes) (codes : ι → Bytes) (s : Race ι) :
    Move ι → Race ι
  | .issue drawn sends t =>
    match issue cfg max s.entries purpose dest drawn sends t with
    | (.ok _, m) | (.error .send, m) => { s with entries := m, issued := s.issued + 1 }
    | (.error _, m) => { s with entries := m }
  | .advance r now => advance cfg max (cfg.id purpose (cfg.normalize dest)) (codes r) s r now

/-- A call reads the code while no other has matched it. -/
def ReadsAlone (s : Race ι) : Move ι → Prop
  | .issue .. => True
  | .advance r _ => s.phase r = .counted → ∀ q, (s.phase q).isMatched = false

/-- A code that was found right is deleted, or replaced, or about to be deleted. -/
structure Single (id : Bytes) (s : Race ι) : Prop where
  bound : ∀ {r k}, (s.phase r).took = some k → k ≤ s.issued
  gone : ∀ {r k}, (s.phase r).took = some k → s.phase r = .matched k ∨ k < s.issued ∨
    s.entries.lookup (.code, id) = none
  apart : ∀ {r q k}, (s.phase r).took = some k → (s.phase q).took = some k → r = q

variable {id : Bytes} {s : Race ι} {m : Entries} {p : Phase} {r : ι}

omit [StdLib] [CaseLib] in
theorem Single.after (single : Single id s)
    (drops : ∀ {c}, m.lookup (.code, id) = some c → s.entries.lookup (.code, id) = some c)
    (took : ∀ k, p.took = some k → (s.phase r).took = some k ∧
      (k < s.issued ∨ m.lookup (.code, id) = none)) :
    Single id { s with entries := m, phase := update s.phase r p } := by
  have before : ∀ {q k}, (update s.phase r p q).took = some k →
      (s.phase q).took = some k := by
    intro q k here
    rcases update_cases_of (Q := fun x : Phase => x.took = some k) here with
      ⟨rfl, mine⟩ | ⟨-, other⟩
    · exact (took k mine).1
    · exact other
  refine ⟨fun here => single.bound (before here), fun {q k} here => ?_,
    fun here there => single.apart (before here) (before there)⟩
  rcases update_cases_of (Q := fun x : Phase => x.took = some k) here with
    ⟨rfl, mine⟩ | ⟨other, before⟩
  · exact .inr (took k mine).2
  · rcases single.gone before with matched | old | gone
    · exact .inl ((update_of_ne other _ _).trans matched)
    · exact .inr (.inl old)
    · refine .inr (.inr (eq_none_iff_forall_ne_some.mpr fun c there => ?_))
      exact nomatch gone.symm.trans (drops there)

omit [StdLib] [CaseLib] in
theorem Single.take (single : Single id s) {c : MemEntry}
    (here : s.entries.lookup (.code, id) = some c) (alone : ∀ q, (s.phase q).isMatched = false) :
    Single id { s with
      entries := m, phase := update s.phase r (.matched s.issued) } := by
  have old : ∀ {q k}, (s.phase q).took = some k → k < s.issued := by
    intro q k took
    rcases single.gone took with matched | old | gone
    · exact nomatch (matched ▸ alone q : (Phase.matched k).isMatched = false)
    · exact old
    · exact nomatch here.symm.trans gone
  have cases : ∀ {q k}, (update s.phase r (.matched s.issued) q).took = some k →
      q = r ∧ k = s.issued ∨ q ≠ r ∧ (s.phase q).took = some k := by
    intro _ k took
    rcases update_cases_of (Q := fun x : Phase => x.took = some k) took with
        ⟨rfl, new⟩ | ⟨other, took⟩
    · exact .inl ⟨rfl, (some.inj new).symm⟩
    · exact .inr ⟨other, took⟩
  refine ⟨fun took => ?_, fun took => ?_, fun took took' => ?_⟩
  · rcases cases took with ⟨-, rfl⟩ | ⟨-, took⟩
    · exact le_rfl
    · exact (old took).le
  · rcases cases took with ⟨rfl, rfl⟩ | ⟨-, took⟩
    · exact .inl (update_self _ _ _)
    · exact .inr (.inl (old took))
  · rcases cases took with ⟨own, rfl⟩ | ⟨-, mine⟩ <;>
      rcases cases took' with ⟨own', same⟩ | ⟨-, yours⟩
    · exact own.trans own'.symm
    · exact absurd (old yours) (lt_irrefl _)
    · exact absurd (same ▸ old mine) (lt_irrefl _)
    · exact single.apart mine yours

omit [DecidableEq ι] [StdLib] [CaseLib] in
theorem incr_code {max : ℕ} {key : Bytes} {ttl now : Time} {c : MemEntry}
    (here : (incr max m (.att, key) ttl now).2.lookup (.code, id) = some c) :
    m.lookup (.code, id) = some c := by
  have le : now ≤ Max.max 0 now := le_max_right _ _
  have quiet := quiet_live m (.att, key) le
  unfold incr at here
  split at here <;> rename_i live <;> rw [live] at quiet
  · obtain ⟨⟨⟩, -⟩ | ⟨-, before⟩ := of_lookup_insert here
    exact quiet.code before
  · obtain ⟨⟨⟩, -⟩ | ⟨-, before⟩ := of_lookup_insert here
    exact quiet.code ((quiet_makeRoom max _ _ (le_max_left _ _) le).code before)

omit [CaseLib] in
theorem Single.advance {cfg : Config} {max : ℕ} {code : Bytes} {now : Time} (single : Single id s)
    (alone : s.phase r = .counted → ∀ q, (s.phase q).isMatched = false) :
    Single id (Otp.advance cfg max id code s r now) := by
  have le : now ≤ Max.max 0 now := le_max_right _ _
  have read : ∀ key, Quiet (Max.max 0 now) s.entries (get s.entries key now).2 :=
    fun key => .get le rfl
  unfold Otp.advance
  dsimp only
  split
  · split
    next done => exact single.after (done ▸ read _).code nofun
    next done => exact single.after (done ▸ read _).code nofun
  · split <;> exact single.after incr_code nofun
  · exact single.after (Quiet.set max _ .lock id _ _ (le_max_left 0 now) le nofun nofun).code nofun
  · exact single.after lookup_of_lookup_erase nofun
  · rename_i counted
    split
    next found =>
      obtain ⟨_, live, -⟩ := map_eq_some_iff.mp found
      have there := (live_fst s.entries (.code, id) now).1.symm.trans live
      exact single.take ((read _).code there) (alone counted)
    · exact single.after (read _).code nofun
  · rename_i matched
    refine single.after lookup_of_lookup_erase fun k' same => ⟨matched ▸ same, .inr ?_⟩
    rw [lookup_erase]
  · rename_i deleted
    refine single.after lookup_of_lookup_erase fun k' same => ?_
    have took : (s.phase r).took = some k' := deleted ▸ same
    refine ⟨took, ?_⟩
    rcases single.gone took with matched | old | gone
    · rw [deleted] at matched
      cases matched
    · exact .inl old
    · have other : (Slot.code, id) ≠ (Slot.att, id) := nofun
      exact .inr ((lookup_erase_ne other).trans gone)
  · exact single
  · exact single

theorem Single.race {cfg : Config} {max : ℕ} {purpose dest : Bytes} {codes : ι → Bytes}
    {move : Move ι} (single : Single (cfg.id purpose (cfg.normalize dest)) s)
    (alone : ReadsAlone s move) :
    Single (cfg.id purpose (cfg.normalize dest))
      (Otp.race cfg max purpose dest codes s move) := by
  cases move with
  | advance => exact single.advance alone
  | issue drawn sends t =>
    have nonneg : 0 ≤ Max.max 0 (Max.max t.first (Max.max t.second t.third)) := le_max_left _ _
    unfold Otp.race
    dsimp only
    rcases issue_cases (t := t) cfg max s.entries purpose dest drawn sends nonneg (by simp)
        (by simp) (by simp) with
      ⟨e, m', done, other, quiet⟩ | ⟨mac, m₁, m₂, r, done, which, before, after⟩
    · rw [done]
      have kept : Single (cfg.id purpose (cfg.normalize dest)) { s with entries := m' } := by
        refine ⟨single.bound, fun took => (single.gone took).imp_right (Or.imp_right ?_),
          single.apart⟩
        intro gone
        refine eq_none_iff_forall_ne_some.mpr fun c there => ?_
        exact nomatch gone.symm.trans (quiet.code there)
      cases e with
      | send => exact absurd rfl other
      | _ => exact kept
    · rw [done]
      have new : Single (cfg.id purpose (cfg.normalize dest))
          { s with entries := m₂, issued := s.issued + 1 } :=
        ⟨fun took => Nat.le_succ_of_le (single.bound took),
          fun took => .inr (.inl (Nat.lt_succ_of_le (single.bound took))), single.apart⟩
      rcases which with rfl | rfl <;> exact new

/-- **A code is accepted by one call, when no call reads the code while another one has found it
right and not deleted it.** -/
theorem code_accepted_once (cfg : Config) (max : ℕ) (purpose dest : Bytes) (codes : ι → Bytes)
    (entries : Entries) (moves : List (Move ι))
    (alone : Throughout (fun s move => some (Otp.race cfg max purpose dest codes s move)) ReadsAlone
      ⟨entries, 0, fun _ => .start⟩ moves) (r q : ι) (k : ℕ) :
    let last := moves.foldl (Otp.race cfg max purpose dest codes) ⟨entries, 0, fun _ => .start⟩
    last.phase r = .accepted k → last.phase q = .accepted k → r = q := by
  intro last mine yours
  have initially : Single (cfg.id purpose (cfg.normalize dest))
      (⟨entries, 0, fun _ => .start⟩ : Race ι) := by
    refine ⟨fun took => ?_, fun took => ?_, fun took => ?_⟩ <;> cases took
  have single : Single (cfg.id purpose (cfg.normalize dest)) last := invariant_of_run_throughout
    (fun single alone taken => some.inj taken ▸ single.race alone) initially alone run_total
  exact single.apart (by rw [mine]; rfl) (by rw [yours]; rfl)

end

def twoCalls (order : List (Fin 2)) : List (Move (Fin 2)) :=
  .issue (some (str "1")) true ⟨1, 1, 1⟩ :: order.map fun r => .advance r 2

def sharedConfig : Config := { guessOnce 9 with maxAttempts := 5 }

instance (s : Race (Fin 2)) : ∀ move, Decidable (ReadsAlone s move)
  | .issue .. => .isTrue trivial
  | .advance .. => inferInstanceAs (Decidable (_ → _))

theorem code_accepted_once_in_turn :
    let last := (twoCalls [0, 0, 0, 0, 0, 1, 1, 1]).foldl
      (@race _ _ .refusing .ascii sharedConfig 9 [] (str "a") fun _ => str "1")
      ⟨∅, 0, fun _ => .start⟩
    last.phase 0 = .accepted 1 ∧
      (last.phase 0 = .accepted 1 → last.phase 1 = .accepted 1 → (0 : Fin 2) = 1) :=
  And.intro (by decide +kernel) (@code_accepted_once _ _ .refusing .ascii sharedConfig 9 []
    (str "a") (fun _ => str "1") ∅ (twoCalls [0, 0, 0, 0, 0, 1, 1, 1]) (by decide +kernel) 0 1 1)

/-- Both calls read the code before one of them deletes it. -/
theorem code_accepted_twice :
    let last := (twoCalls [0, 0, 1, 1, 0, 1, 0, 0, 1, 1]).foldl
      (@race _ _ .refusing .ascii sharedConfig 9 [] (str "a") fun _ => str "1")
      ⟨∅, 0, fun _ => .start⟩
    last.phase 0 = .accepted 1 ∧ last.phase 1 = .accepted 1 := by
  decide +kernel

end TheAuth.Otp
