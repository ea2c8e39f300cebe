import Mathlib.Data.List.Dedup
import TheAuth.Go.Map
import TheAuth.Server.Model

/-!
# Refresh tokens in the memory store

`RefreshStore` are the tables as the store's operations leave them: a token stands under the key of
its hash, and the index of a family lists exactly its keys. Revoking a family relies on that index.
-/

set_option autoImplicit false

namespace TheAuth.Store

open Go Server List Option GoMap

structure RefreshTables where
  refreshTokens : GoMap Bytes RefreshToken
  refreshTokensByF : GoMap ULID (List Bytes)

namespace RefreshTables

def keysOf (s : RefreshTables) (family : ULID) : List Bytes :=
  (s.refreshTokensByF.lookup family).getD []

def insertRefreshToken (s : RefreshTables) (t : RefreshToken) : RefreshTables where
  refreshTokens := s.refreshTokens.insert (bytesHexKey t.hash) t
  refreshTokensByF :=
    s.refreshTokensByF.insert t.familyID (s.keysOf t.familyID ++ [bytesHexKey t.hash])

def refreshTokenByHash (s : RefreshTables) (hash : Bytes) : Option RefreshToken :=
  match s.refreshTokens.lookup (bytesHexKey hash) with
  | some t => some t
  | none => (s.refreshTokens.entries.find? fun entry => entry.2.hash == hash).map
    fun entry => entry.2

def revoked (t : RefreshToken) (reason : Bytes) (now : Time) : RefreshToken :=
  { t with revokedAt := some now, revocationNote := reason }

def revokeRefreshToken (s : RefreshTables) (hash reason : Bytes) (now : Time) :
    Option RefreshTables :=
  match s.refreshTokens.lookup (bytesHexKey hash) with
  | none => none
  | some t =>
    if !t.live then none
    else some { s with
      refreshTokens := s.refreshTokens.insert (bytesHexKey hash) (revoked t reason now) }

def zeroToken : RefreshToken :=
  ⟨0, [], 0, [], none, none, [], [], [], 0, 0, none, [], [], [], [], 0, [], []⟩

def revokeKey (reason : Bytes) (now : Time) (tokens : GoMap Bytes RefreshToken) (key : Bytes) :
    GoMap Bytes RefreshToken :=
  let t := (tokens.lookup key).getD zeroToken
  if t.live then tokens.insert key (revoked t reason now) else tokens

def revokeRefreshTokenFamily (s : RefreshTables) (family : ULID) (reason : Bytes) (now : Time) :
    RefreshTables :=
  { s with refreshTokens := (s.keysOf family).foldl (revokeKey reason now) s.refreshTokens }

def codeFamilies (s : RefreshTables) (codeHash : Bytes) : List ULID :=
  ((s.refreshTokens.values.filter fun t => t.authCodeHash == codeHash).map
    RefreshToken.familyID).dedup

def codeKeys (s : RefreshTables) (codeHash : Bytes) : List Bytes :=
  (s.codeFamilies codeHash).flatMap s.keysOf

def revokeCollecting (reason : Bytes) (now : Time)
    (acc : GoMap Bytes RefreshToken × List Bytes) (key : Bytes) :
    GoMap Bytes RefreshToken × List Bytes :=
  let t := (acc.1.lookup key).getD zeroToken
  if t.live then (acc.1.insert key (revoked t reason now), acc.2 ++ [t.parentJTI]) else acc

def revokeRefreshTokensByAuthCode (s : RefreshTables) (codeHash reason : Bytes) (now : Time) :
    List Bytes × RefreshTables :=
  if codeHash = [] then ([], s)
  else
    let (tokens, jtis) := (s.codeKeys codeHash).foldl (revokeCollecting reason now)
      (s.refreshTokens, [])
    (jtis, { s with refreshTokens := tokens })

variable (s : RefreshTables)

theorem lookup_insertRefreshToken (t : RefreshToken) (key : Bytes) :
    (s.insertRefreshToken t).refreshTokens.lookup key =
      if key = bytesHexKey t.hash then some t else s.refreshTokens.lookup key :=
  lookup_insert_eq _ _ _ _

theorem keysOf_insertRefreshToken (t : RefreshToken) (family : ULID) :
    (s.insertRefreshToken t).keysOf family =
      if family = t.familyID then s.keysOf family ++ [bytesHexKey t.hash]
      else s.keysOf family := by
  unfold keysOf insertRefreshToken
  rw [lookup_insert_eq]
  split
  next same => rw [same]; rfl
  · rfl

/-! ## What operations do -/

def markRevoked (reason : Bytes) (now : Time) (t : RefreshToken) : RefreshToken :=
  if t.live then revoked t reason now else t

variable (reason : Bytes) (now : Time) (t : RefreshToken)

@[simp] theorem live_markRevoked :
    (markRevoked reason now t).live = false := by
  unfold markRevoked
  split
  · rfl
  next dead => simpa using dead

@[simp] theorem familyID_markRevoked :
    (markRevoked reason now t).familyID = t.familyID := by
  unfold markRevoked
  split <;> rfl

@[simp] theorem hash_markRevoked :
    (markRevoked reason now t).hash = t.hash := by
  unfold markRevoked
  split <;> rfl

theorem lookup_revokeKey {tokens : GoMap Bytes RefreshToken} {key : Bytes}
    (stored : (tokens.lookup key).isSome = true) (reason : Bytes) (now : Time) (other : Bytes) :
    (revokeKey reason now tokens key).lookup other =
      if other = key then (tokens.lookup other).map (markRevoked reason now)
      else tokens.lookup other := by
  obtain ⟨_, here⟩ := isSome_iff_exists.mp stored
  unfold revokeKey
  rw [here, getD_some]
  dsimp only
  split
  next live =>
    rw [lookup_insert_eq]
    split
    next same => rw [same, here, map_some, markRevoked, if_pos live]
    · rfl
  rename_i dead
  split
  next same => rw [same, here, map_some, markRevoked, if_neg dead]
  · rfl

theorem markRevoked_markRevoked :
    markRevoked reason now (markRevoked reason now t) = markRevoked reason now t := by
  rw [markRevoked, live_markRevoked, if_neg Bool.false_ne_true]

theorem revokeRefreshToken_eq_some {s next : RefreshTables} {hash reason : Bytes} {now : Time}
    (done : s.revokeRefreshToken hash reason now = some next) :
    (∃ t, s.refreshTokens.lookup (bytesHexKey hash) = some t ∧ t.live = true) ∧
      ∀ key, next.refreshTokens.lookup key =
        if key = bytesHexKey hash then (s.refreshTokens.lookup key).map (markRevoked reason now)
        else s.refreshTokens.lookup key := by
  unfold revokeRefreshToken at done
  cases here : s.refreshTokens.lookup (bytesHexKey hash) with
  | none => rw [here] at done; cases done
  | some t =>
    rw [here] at done
    cases live : t.live with
    | false => simp [live] at done
    | true =>
      obtain rfl : _ = next := by simpa [live] using done
      refine ⟨⟨t, rfl, live⟩, fun key => (lookup_insert_eq _ _ _ _).trans ?_⟩
      by_cases same : key = bytesHexKey hash
      · rw [if_pos same, if_pos same, same, here, map_some, markRevoked, if_pos live]
      · rw [if_neg same, if_neg same]

theorem lookup_foldl_revokeKey (keys : List Bytes) (tokens : GoMap Bytes RefreshToken)
    (stored : ∀ key ∈ keys, (tokens.lookup key).isSome = true) (other : Bytes) :
    (keys.foldl (revokeKey reason now) tokens).lookup other =
      if other ∈ keys then (tokens.lookup other).map (markRevoked reason now)
      else tokens.lookup other := by
  induction keys generalizing tokens with
  | nil => simp
  | cons key rest ih =>
    have head := lookup_revokeKey (stored key mem_cons_self) reason now
    have later : ∀ k ∈ rest, ((revokeKey reason now tokens key).lookup k).isSome = true := by
      intro k member
      rw [head]
      split
      · simpa using stored k (mem_cons_of_mem _ member)
      · exact stored k (mem_cons_of_mem _ member)
    rw [foldl_cons, ih _ later, head]
    by_cases same : other = key
    · -- marking a token twice is marking it once
      have twice : markRevoked reason now ∘ markRevoked reason now = markRevoked reason now :=
        funext (markRevoked_markRevoked reason now)
      simp [same, twice]
    · simp [same]

theorem foldl_revokeCollecting (keys : List Bytes) (acc : GoMap Bytes RefreshToken × List Bytes) :
    (keys.foldl (revokeCollecting reason now) acc).1 = keys.foldl (revokeKey reason now) acc.1 := by
  induction keys generalizing acc with
  | nil => rfl
  | cons key _ ih =>
    have head : (revokeCollecting reason now acc key).1 = revokeKey reason now acc.1 key := by
      unfold revokeCollecting revokeKey
      dsimp only
      split <;> rfl
    rw [foldl_cons, foldl_cons, ih, head]

theorem lookup_revokeRefreshTokensByAuthCode (codeHash reason : Bytes)
    (now : Time) (stored : ∀ key ∈ s.codeKeys codeHash, (s.refreshTokens.lookup key).isSome = true)
    (key : Bytes) :
    (s.revokeRefreshTokensByAuthCode codeHash reason now).2.refreshTokens.lookup key =
      if codeHash ≠ [] ∧ key ∈ s.codeKeys codeHash then
        (s.refreshTokens.lookup key).map (markRevoked reason now)
      else s.refreshTokens.lookup key := by
  unfold revokeRefreshTokensByAuthCode
  by_cases none_ : codeHash = []
  · rw [if_pos none_, if_neg fun both => both.1 none_]
  · rw [if_neg none_]
    dsimp only
    rw [foldl_revokeCollecting, lookup_foldl_revokeKey reason now _ _ stored]
    exact if_congr (and_iff_right none_).symm rfl rfl

theorem mem_codeKeys {s : RefreshTables} {codeHash key : Bytes} :
    key ∈ s.codeKeys codeHash ↔ ∃ other t, s.refreshTokens.lookup other = some t ∧
      t.authCodeHash = codeHash ∧ key ∈ s.keysOf t.familyID := by
  rw [codeKeys, mem_flatMap]
  constructor
  · rintro ⟨_, listed, member⟩
    obtain ⟨t, found, rfl⟩ := mem_map.mp (mem_dedup.mp listed)
    obtain ⟨stored, same⟩ := mem_filter.mp found
    obtain ⟨other, here⟩ := mem_values.mp stored
    exact ⟨other, t, here, beq_iff_eq.mp same, member⟩
  · rintro ⟨other, t, here, same, member⟩
    refine ⟨t.familyID, mem_dedup.mpr (mem_map.mpr ⟨t, ?_, rfl⟩), member⟩
    exact mem_filter.mpr ⟨mem_values.mpr ⟨other, here⟩, beq_iff_eq.mpr same⟩

end RefreshTables

/-! ## Tokens under their hash -/

/-- Tokens that stand under their hash. -/
structure RefreshStore extends RefreshTables where
  keyed : ∀ key t, refreshTokens.lookup key = some t → key = bytesHexKey t.hash
  indexed : ∀ key t, refreshTokens.lookup key = some t → key ∈ toRefreshTables.keysOf t.familyID
  present : ∀ family, ∀ key ∈ toRefreshTables.keysOf family,
    (refreshTokens.lookup key).isSome = true

namespace RefreshStore

open RefreshTables

def empty : RefreshStore where
  refreshTokens := ∅
  refreshTokensByF := ∅
  keyed := nofun
  indexed := nofun
  present := nofun

def insertRefreshToken (s : RefreshStore) (t : RefreshToken) : RefreshStore where
  toRefreshTables := s.toRefreshTables.insertRefreshToken t
  keyed := by
    intro key u here
    obtain ⟨same, rfl⟩ | ⟨-, here⟩ := GoMap.of_lookup_insert here
    · exact same
    · exact s.keyed key u here
  indexed := by
    intro key u here
    rw [lookup_insertRefreshToken] at here
    rw [keysOf_insertRefreshToken]
    split at here
    next same =>
      cases here
      rw [if_pos rfl, same]
      exact List.mem_append_right _ (List.mem_singleton.mpr rfl)
    split
    · exact List.mem_append_left _ (s.indexed key u here)
    · exact s.indexed key u here
  present := by
    intro family key member
    rw [keysOf_insertRefreshToken] at member
    rw [lookup_insertRefreshToken]
    split
    · rfl
    rename_i other
    split at member
    · rcases List.mem_append.mp member with earlier | added
      · exact s.present family key earlier
      · exact absurd (List.mem_singleton.mp added) other
    · exact s.present family key member

def remark (s : RefreshStore) (tokens : GoMap Bytes RefreshToken) (marked : Bytes → Prop)
    (reason : Bytes) (now : Time) [DecidablePred marked]
    (reads : ∀ key, tokens.lookup key =
      if marked key then (s.refreshTokens.lookup key).map (markRevoked reason now)
      else s.refreshTokens.lookup key) : RefreshStore where
  refreshTokens := tokens
  refreshTokensByF := s.refreshTokensByF
  keyed := by
    intro key u here
    rw [reads] at here
    split at here
    · obtain ⟨t, before, rfl⟩ := Option.map_eq_some_iff.mp here
      rw [hash_markRevoked]
      exact s.keyed key t before
    · exact s.keyed key u here
  indexed := by
    intro key u here
    rw [reads] at here
    split at here
    · obtain ⟨t, before, rfl⟩ := Option.map_eq_some_iff.mp here
      rw [familyID_markRevoked]
      exact s.indexed key t before
    · exact s.indexed key u here
  present := by
    intro family key member
    rw [reads]
    have stored := s.present family key member
    split
    · simpa using stored
    · exact stored

def revokeRefreshToken (s : RefreshStore) (hash reason : Bytes) (now : Time) :
    Option RefreshStore :=
  (s.toRefreshTables.revokeRefreshToken hash reason now).attach.map fun next =>
    s.remark next.1.refreshTokens (· = bytesHexKey hash) reason now
      (RefreshTables.revokeRefreshToken_eq_some next.2).2

def revokeRefreshTokenFamily (s : RefreshStore) (family : ULID) (reason : Bytes) (now : Time) :
    RefreshStore :=
  s.remark (s.toRefreshTables.revokeRefreshTokenFamily family reason now).refreshTokens
    (· ∈ s.keysOf family) reason now
    (lookup_foldl_revokeKey reason now _ _ (s.present family))

variable (s : RefreshStore)

theorem codeKeys_present (codeHash : Bytes) :
    ∀ key ∈ s.codeKeys codeHash, (s.refreshTokens.lookup key).isSome = true := by
  intro key listed
  obtain ⟨_, t, _, _, member⟩ := mem_codeKeys.mp listed
  exact s.present t.familyID key member

def revokeRefreshTokensByAuthCode (s : RefreshStore) (codeHash reason : Bytes) (now : Time) :
    List Bytes × RefreshStore :=
  ((s.toRefreshTables.revokeRefreshTokensByAuthCode codeHash reason now).1,
    s.remark (s.toRefreshTables.revokeRefreshTokensByAuthCode codeHash reason now).2.refreshTokens
      (fun key => codeHash ≠ [] ∧ key ∈ s.codeKeys codeHash) reason now
      (lookup_revokeRefreshTokensByAuthCode _ codeHash reason now (s.codeKeys_present codeHash)))

/-- The same keys and families, and no token comes to life. -/
structure Aged (before after : RefreshStore) : Prop where
  back : ∀ {key t'}, after.refreshTokens.lookup key = some t' →
    ∃ t, before.refreshTokens.lookup key = some t ∧ t'.familyID = t.familyID ∧
      (t'.live = true → t.live = true)
  forth : ∀ {key t}, before.refreshTokens.lookup key = some t →
    ∃ t', after.refreshTokens.lookup key = some t' ∧ t'.familyID = t.familyID

theorem Aged.refl : s.Aged s where
  back := fun here => ⟨_, here, rfl, id⟩
  forth := fun here => ⟨_, here, rfl⟩

variable {codeHash key reason : Bytes} {now : Time} {s : RefreshStore} {t : RefreshToken}
  {before after : RefreshStore}

theorem Aged.lookup_eq_none (aged : before.Aged after)
    (missing : before.refreshTokens.lookup key = none) :
    after.refreshTokens.lookup key = none := by
  cases here : after.refreshTokens.lookup key with
  | none => rfl
  | some =>
    obtain ⟨_, stored, _⟩ := aged.back here
    rw [missing] at stored
    cases stored

theorem Aged.of_reads {marked : Bytes → Prop} [DecidablePred marked]
    (reads : ∀ key, after.refreshTokens.lookup key =
      if marked key then (before.refreshTokens.lookup key).map (markRevoked reason now)
      else before.refreshTokens.lookup key) : Aged before after where
  back := by
    intro key t' here
    rw [reads] at here
    split at here
    · obtain ⟨t, stored, rfl⟩ := map_eq_some_iff.mp here
      exact ⟨t, stored, familyID_markRevoked _ _ _, fun live => by simp at live⟩
    · exact ⟨t', here, rfl, id⟩
  forth := by
    intro _ t here
    rw [reads]
    split
    · exact ⟨markRevoked reason now t, by rw [here]; rfl, familyID_markRevoked _ _ _⟩
    · exact ⟨t, here, rfl⟩

theorem revokeRefreshToken_eq_some {next : RefreshStore} {hash : Bytes}
    (done : s.revokeRefreshToken hash reason now = some next) :
    (∃ t, s.refreshTokens.lookup (bytesHexKey hash) = some t ∧ t.live = true) ∧ s.Aged next := by
  obtain ⟨⟨_, member⟩, _, rfl⟩ := map_eq_some_iff.mp done
  obtain ⟨found, reads⟩ := RefreshTables.revokeRefreshToken_eq_some member
  exact ⟨found, .of_reads reads⟩

theorem live_of_lookup_revokeRefreshToken {next : RefreshStore} {hash : Bytes}
    (done : s.revokeRefreshToken hash reason now = some next)
    (here : next.refreshTokens.lookup (bytesHexKey hash) = some t) : t.live = false := by
  obtain ⟨⟨tables, member⟩, _, rfl⟩ := map_eq_some_iff.mp done
  obtain ⟨-, reads⟩ := RefreshTables.revokeRefreshToken_eq_some member
  change tables.refreshTokens.lookup (bytesHexKey hash) = some t at here
  rw [reads, if_pos rfl] at here
  obtain ⟨_, -, rfl⟩ := map_eq_some_iff.mp here
  exact live_markRevoked _ _ _

theorem aged_revokeRefreshTokenFamily (family : ULID) (reason : Bytes)
    (now : Time) : s.Aged (s.revokeRefreshTokenFamily family reason now) :=
  .of_reads (lookup_foldl_revokeKey reason now _ _ (s.present family))

/-- The token is of a family that began with the code. -/
def IssuedFrom (codeHash : Bytes) (s : RefreshStore) (t : RefreshToken) : Prop :=
  ∃ key first, s.refreshTokens.lookup key = some first ∧ first.authCodeHash = codeHash ∧
    first.familyID = t.familyID

theorem lookup_revokeByAuthCode (codeHash reason : Bytes) (now : Time) (key : Bytes) :
    (s.revokeRefreshTokensByAuthCode codeHash reason now).2.refreshTokens.lookup key =
      if codeHash ≠ [] ∧ key ∈ s.codeKeys codeHash then
        (s.refreshTokens.lookup key).map (markRevoked reason now)
      else s.refreshTokens.lookup key :=
  lookup_revokeRefreshTokensByAuthCode _ codeHash reason now (s.codeKeys_present codeHash) key

theorem back_revokeRefreshTokensByAuthCode {t' : RefreshToken}
    (here : (s.revokeRefreshTokensByAuthCode codeHash reason now).2.refreshTokens.lookup key =
      some t') :
    ∃ t, s.refreshTokens.lookup key = some t ∧ t'.familyID = t.familyID ∧
      t'.authCodeHash = t.authCodeHash ∧ (t'.live = true → t.live = true) := by
  rw [lookup_revokeByAuthCode] at here
  split at here
  · obtain ⟨t, stored, rfl⟩ := map_eq_some_iff.mp here
    refine ⟨t, stored, familyID_markRevoked _ _ _, ?_, fun live => by simp at live⟩
    unfold markRevoked
    split <;> rfl
  · exact ⟨t', here, rfl, rfl, id⟩

theorem IssuedFrom.of_revokeRefreshTokensByAuthCode {other : Bytes}
    (issued : IssuedFrom other (s.revokeRefreshTokensByAuthCode codeHash reason now).2 t) :
    IssuedFrom other s t := by
  obtain ⟨key, _, here, fromCode, family⟩ := issued
  obtain ⟨first, stored, same, hash, -⟩ := back_revokeRefreshTokensByAuthCode here
  exact ⟨key, first, stored, hash.symm.trans fromCode, same.symm.trans family⟩

theorem live_of_revokeRefreshTokensByAuthCode (named : codeHash ≠ [])
    (here : (s.revokeRefreshTokensByAuthCode codeHash reason now).2.refreshTokens.lookup key =
      some t)
    (issued : IssuedFrom codeHash (s.revokeRefreshTokensByAuthCode codeHash reason now).2 t) :
    t.live = false := by
  obtain ⟨other, first, stored, fromCode, family⟩ := issued.of_revokeRefreshTokensByAuthCode
  have listed : key ∈ s.keysOf first.familyID := by
    rw [family]
    exact (s.revokeRefreshTokensByAuthCode codeHash reason now).2.indexed key t here
  rw [lookup_revokeByAuthCode,
    if_pos ⟨named, mem_codeKeys.mpr ⟨other, first, stored, fromCode, listed⟩⟩] at here
  obtain ⟨before, -, rfl⟩ := map_eq_some_iff.mp here
  exact live_markRevoked reason now before

theorem refreshTokenByHash_eq (hash : Bytes) :
    s.refreshTokenByHash hash = s.refreshTokens.lookup (bytesHexKey hash) := by
  unfold refreshTokenByHash
  cases here : s.refreshTokens.lookup (bytesHexKey hash) with
  | some => rfl
  | none =>
    rw [map_eq_none_iff, find?_eq_none]
    rintro ⟨key, t⟩ member same
    obtain rfl := beq_iff_eq.mp same
    have stored : s.refreshTokens.lookup key = some t := AList.mem_lookup_iff.mpr member
    rw [s.keyed key t stored, here] at stored
    cases stored

theorem live_of_lookup_revokeRefreshTokenFamily (family : ULID) (reason : Bytes) (now : Time)
    (here : (s.revokeRefreshTokenFamily family reason now).refreshTokens.lookup key = some t)
    (member : t.familyID = family) : t.live = false := by
  have reads := lookup_foldl_revokeKey reason now _ _ (s.present family) key
  have listed : key ∈ s.keysOf family := by
    rw [← member]
    exact (s.revokeRefreshTokenFamily family reason now).indexed key t here
  rw [if_pos listed] at reads
  obtain ⟨before, _, rfl⟩ := map_eq_some_iff.mp (reads.symm.trans here)
  exact live_markRevoked reason now before

end RefreshStore

end TheAuth.Store
