import TheAuth.Audit.ChainHash
import TheAuth.Library.HashChain

/-!
# What a verified audit chain shows

The walk reports no break exactly when the payloads are linked as hash chains and each row is sound
by itself. The ends of the chains determine all payloads, as long as `rowHash` shows no collision
among the rows compared.
-/

set_option autoImplicit false

namespace TheAuth.Audit

open Go Library.Result Library.HashChain Server List

/-- A pseudonym is that of the identifier, unless this was erased. -/
def Matches (secret : Option Bytes) (entry : Bytes × Bytes) : Prop :=
  entry.1 = [] ∨ ∀ key, secret = some key → pseudonym key entry.1 = entry.2

/-- A row that an honest store has written. -/
structure Sound (secret : Option Bytes) (r : ChainRow) : Prop where
  hash : rowHash r.payload = r.hash
  org : r.rawOrg = [] ∨ r.rawOrg = r.payload.chainKey
  session : r.rawSession = [] ∨ r.rawSession = r.payload.actorSession
  extra : r.extraBreak = []
  identifiers : ∀ entry ∈ r.identifiers, Matches secret entry

theorem checkPseudonyms_isSome_iff (secret : Option Bytes) (entries : List (Bytes × Bytes))
    (erased : Bool) :
    (∃ result, checkPseudonyms secret entries erased = some result) ↔
      ∀ entry ∈ entries, Matches secret entry := by
  induction entries generalizing erased with
  | nil => exact ⟨nofun, fun _ => ⟨erased, rfl⟩⟩
  | cons entry rest ih =>
    rw [checkPseudonyms, forall_mem_cons]
    split
    next blank => rw [ih true, and_iff_right (.inl blank.1)]
    split
    next wrong =>
      obtain ⟨present, mismatch⟩ := wrong
      refine ⟨fun ⟨_, none_⟩ => (nomatch none_), fun ⟨own, _⟩ => ?_⟩
      cases secret with
      | none => cases mismatch
      | some key => exact absurd ((own.resolve_left present) key rfl) (bne_iff_ne.mp mismatch)
    rename_i fine
    rw [ih erased, and_iff_right]
    rw [Matches, or_iff_not_imp_left]
    intro present _ known
    cases known
    by_contra differ
    exact fine ⟨present, bne_iff_ne.mpr differ⟩

/-- An identifier that was hashed is blank in the row. -/
def ChainRow.blanked (r : ChainRow) : Bool :=
  r.identifiers.any fun entry => entry.1 = [] && entry.2 ≠ []

theorem checkPseudonyms_eq_some {secret : Option Bytes} {entries : List (Bytes × Bytes)}
    {erased result : Bool} (passed : checkPseudonyms secret entries erased = some result) :
    result = (erased || entries.any fun entry => entry.1 = [] && entry.2 ≠ []) := by
  induction entries generalizing erased with
  | nil =>
    cases passed
    exact (Bool.or_false _).symm
  | cons entry _ ih =>
    rw [checkPseudonyms] at passed
    split at passed
    next blank => simp [ih passed, blank]
    split at passed
    · cases passed
    next present _ =>
      have shown : (decide (entry.1 = []) && decide (entry.2 ≠ [])) = false := by
        simpa using present
      rw [ih passed, any_cons, shown, Bool.false_or]

theorem checkRow_eq_ok_iff (secret : Option Bytes) (seq : Int) (prev : Bytes) (r : ChainRow) :
    (∃ erased, checkRow secret seq prev r = .ok erased) ↔
      (r.payload.seq, r.payload.prev) = (seq, prev) ∧ Sound secret r := by
  simp only [checkRow, refuseIf_bind_eq_ok, orRefuse_eq_ok, exists_and_left,
    checkPseudonyms_isSome_iff, Prod.mk.injEq, not_not, not_or, not_and, ne_eq]
  constructor
  · rintro ⟨place, prev, hash, ⟨org, session⟩, extra, identifiers⟩
    exact ⟨⟨place, prev⟩, hash, or_iff_not_imp_left.mpr org, or_iff_not_imp_left.mpr session, extra,
      identifiers⟩
  · rintro ⟨⟨place, prev⟩, hash, org, session, extra, identifiers⟩
    exact ⟨place, prev, hash, ⟨or_iff_not_imp_left.mp org, or_iff_not_imp_left.mp session⟩, extra,
      identifiers⟩

def payloads : Scheme ChainPayload Bytes Bytes where
  key := (·.chainKey)
  position := (·.seq)
  prev := (·.prev)
  digest := rowHash
  genesis := []

def storedRows : Scheme ChainRow Bytes Bytes where
  key r := r.payload.chainKey
  position r := r.payload.seq
  prev r := r.payload.prev
  digest := (·.hash)
  genesis := []

def hashedPayloads (rows : List ChainRow) : List ChainPayload := rows.map (·.payload.hashed)

/-! ## The walk -/

/-- The walk expects what comes after the first of the tips. -/
def ChainWalk.At (w : ChainWalk) (tips : List (Tip Bytes Bytes)) : Prop :=
  match tips with
  | [] => w.started = false
  | tip :: _ =>
    w.started = true ∧ w.curKey = tip.key ∧ w.wantSeq = tip.length + 1 ∧ w.wantPrev = tip.last

variable {w : ChainWalk} {r : ChainRow} {secret : Option Bytes}

theorem ChainWalk.At.enter {tips : List (Tip Bytes Bytes)} (at_ : w.At tips) (key : Bytes) :
    ((w.enter key).wantSeq, (w.enter key).wantPrev) = expected payloads tips key := by
  cases tips with
  | nil =>
    have start : w.started = false := at_
    simp [ChainWalk.enter, start, expected, payloads]
  | cons tip =>
    obtain ⟨started, own, seq, prev⟩ := at_
    by_cases same : tip.key = key
    · simp [ChainWalk.enter, started, own, same, seq, prev, expected]
    · simp [ChainWalk.enter, own, same, Ne.symm same, expected, payloads]

theorem ChainWalk.enter_spec (w : ChainWalk) (key : Bytes) :
    (w.enter key).started = true ∧ (w.enter key).curKey = key ∧ (w.enter key).res = w.res := by
  unfold ChainWalk.enter
  split
  · exact ⟨rfl, rfl, rfl⟩
  rename_i stays
  simp only [Bool.or_eq_true, not_or, Bool.not_eq_true', Bool.not_eq_false, decide_eq_true_eq,
    not_not, ne_eq] at stays
  exact ⟨stays.1, stays.2.symm, rfl⟩

theorem ChainWalk.At.pushed {tips : List (Tip Bytes Bytes)} (started : w.started = true)
    (own : w.curKey = r.payload.chainKey)
    (seq : w.wantSeq = (expected payloads tips r.payload.chainKey).1 + 1)
    (prev : w.wantPrev = rowHash r.payload) : w.At (push payloads tips r.payload.hashed) := by
  cases tips with
  | nil => exact ⟨started, own, seq, prev⟩
  | cons tip =>
    rw [push]
    rw [expected] at seq
    by_cases same : tip.key = r.payload.chainKey
    · rw [if_pos same] at seq
      rw [if_pos (show tip.key = payloads.key r.payload.hashed from same)]
      exact ⟨started, own, seq, prev⟩
    · rw [if_neg same] at seq
      rw [if_neg (show ¬ tip.key = payloads.key r.payload.hashed from same)]
      exact ⟨started, own, seq, prev⟩

theorem ChainWalk.step_eq_ok {tips : List (Tip Bytes Bytes)} (at_ : w.At tips) (r : ChainRow) :
    (∃ next, w.step secret r = .ok next) ↔
      Fits payloads tips r.payload.hashed ∧ Sound secret r := by
  have fits : Fits payloads tips r.payload.hashed ↔ (r.payload.seq, r.payload.prev) =
      ((w.enter r.payload.chainKey).wantSeq, (w.enter r.payload.chainKey).wantPrev) := by
    rw [at_.enter]
    exact Iff.rfl
  rw [fits, ← checkRow_eq_ok_iff]
  unfold ChainWalk.step
  dsimp only
  split
  next refused => simp [refused]
  next passed => simp [passed]

theorem ChainWalk.At.step {next : ChainWalk} {tips : List (Tip Bytes Bytes)} (at_ : w.At tips)
    (went : w.step secret r = .ok next) :
    next.At (push payloads tips r.payload.hashed) ∧
      next.res = { w.res with
        checked := w.res.checked + 1, erased := w.res.erased + r.blanked.toNat } := by
  obtain ⟨-, sound⟩ := (ChainWalk.step_eq_ok at_ r).mp ⟨next, went⟩
  obtain ⟨started, own, kept⟩ := w.enter_spec r.payload.chainKey
  have seq := congrArg Prod.fst (at_.enter r.payload.chainKey)
  unfold ChainWalk.step at went
  dsimp only at went
  split at went <;> cases went
  rename_i erased passed
  refine ⟨.pushed started own (congrArg (· + 1) seq) sound.hash.symm, ?_⟩
  simp only [checkRow, refuseIf_bind_eq_ok, orRefuse_eq_ok] at passed
  obtain rfl : erased = r.blanked :=
    (checkPseudonyms_eq_some passed.2.2.2.2.2).trans (Bool.false_or _)
  rw [kept]
  cases r.blanked <;> rfl

theorem ChainWalk.ok_of_step_error {res : AuditChainResult}
    (stopped : w.step secret r = .error res) : res.ok = false := by
  unfold ChainWalk.step at stopped
  dsimp only at stopped
  split at stopped
  · cases stopped
    rfl
  · cases stopped

theorem walkRows_ok_iff {tips : List (Tip Bytes Bytes)} (at_ : w.At tips) (fine : w.res.ok = true)
    (rows : List ChainRow) :
    (walkRows secret none w rows).1.ok = true ↔
      LinkedFrom payloads tips (hashedPayloads rows) ∧ ∀ r ∈ rows, Sound secret r := by
  induction rows generalizing w tips with
  | nil => exact ⟨fun _ => ⟨trivial, nofun⟩, fun _ => fine⟩
  | cons r rest ih =>
    have cut : (LinkedFrom payloads tips (hashedPayloads (r :: rest)) ∧
        ∀ row ∈ r :: rest, Sound secret row) ↔
        (Fits payloads tips r.payload.hashed ∧ Sound secret r) ∧
          LinkedFrom payloads (push payloads tips r.payload.hashed) (hashedPayloads rest) ∧
            ∀ row ∈ rest, Sound secret row := by
      rw [forall_mem_cons]
      exact and_and_and_comm
    rw [cut, ← w.step_eq_ok at_ r, walkRows]
    cases stepped : w.step secret r with
    | error res =>
      have broken : res.ok = false := ChainWalk.ok_of_step_error stepped
      refine ⟨fun ok => ?_, fun both => ?_⟩
      · exact absurd (broken.symm.trans ok) Bool.false_ne_true
      · obtain ⟨_, none_⟩ := both.1
        cases none_
    | ok next =>
      obtain ⟨there, counted⟩ := at_.step stepped
      rw [and_iff_right ⟨next, rfl⟩]
      exact ih there (by rw [counted, fine])

variable {rows : List ChainRow}

theorem walkRows_eq {tips : List (Tip Bytes Bytes)} (at_ : w.At tips)
    (ok : (walkRows secret none w rows).1.ok = true) :
    walkRows secret none w rows = ({ w.res with
      checked := w.res.checked + rows.length
      erased := w.res.erased + rows.countP ChainRow.blanked }, none) := by
  induction rows generalizing w tips with
  | nil => rfl
  | cons r _ ih =>
    rw [walkRows] at ok ⊢
    cases stepped : w.step secret r with
    | error =>
      rw [stepped] at ok
      exact absurd ((ChainWalk.ok_of_step_error stepped).symm.trans ok) Bool.false_ne_true
    | ok =>
      rw [stepped] at ok
      obtain ⟨there, counted⟩ := at_.step stepped
      dsimp only
      rw [ih there ok, counted, countP_cons]
      cases r.blanked <;> simp [Nat.add_assoc, Nat.add_comm 1]

theorem verifyChainRows_ok_iff (rows : List ChainRow) (secret : Option Bytes) (unchained : Int) :
    (verifyChainRows rows none secret unchained).1.ok = true ↔
      Linked payloads (hashedPayloads rows) ∧ ∀ r ∈ rows, Sound secret r := by
  refine walkRows_ok_iff ?_ rfl rows
  rfl

theorem verifyChainRows_eq {unchained : Int}
    (ok : (verifyChainRows rows none secret unchained).1.ok = true) :
    verifyChainRows rows none secret unchained = ({
      supported := true, ok := true, unchained, checked := rows.length
      erased := rows.countP ChainRow.blanked }, none) := by
  have start : ChainWalk.At { res := { supported := true, ok := true, unchained } } [] := rfl
  refine (walkRows_eq start ok).trans ?_
  simp only [Nat.zero_add]

/-! ## Appending -/

section

variable [UlidText] {e : AuditEvent} {secret : Option Bytes}

theorem buildChainEntry_eq_ok {secret : Bytes} {head : ChainHead} {now : Time}
    {entry : ChainEntry} (built : buildChainEntry e secret head now = .ok entry) :
    entry.hash = rowHash entry.payload ∧
      ∃ metadata chain provenance,
        entry.payload = payloadOf e secret head now metadata chain provenance := by
  obtain ⟨metadata, -, built⟩ := of_bind built
  obtain ⟨provenance, -, built⟩ := of_bind built
  cases built
  exact ⟨rfl, metadata, _, provenance, rfl⟩

theorem sound_rowOf {secret : Bytes} {head : ChainHead} {now : Time}
    {entry : ChainEntry} (built : buildChainEntry e secret head now = .ok entry) :
    Sound (some secret) (rowOf e entry) := by
  obtain ⟨hash, _, _, _, shape⟩ := buildChainEntry_eq_ok built
  obtain ⟨_, _⟩ := entry
  cases shape
  refine ⟨hash.symm, .inr rfl, .inr rfl, rfl, fun pair inside => ?_⟩
  simp only [ChainRow.identifiers, mem_cons, not_mem_nil, or_false] at inside
  obtain rfl | rfl | rfl | rfl := inside
  · cases actor : e.actorUserID with
    | none => exact .inl (by simp [rowOf, idText, actor])
    | some => exact .inr (by simp [rowOf, idText, actor])
  all_goals exact .inr (by simp [rowOf])

def AuditLog.chain (log : AuditLog) (key : Bytes) : List ChainPayload :=
  ofKey payloads key (hashedPayloads log.rows)

/-- Every chain of the log is linked, and its head is stored. -/
structure AuditLog.Chained (secret : Bytes) (log : AuditLog) : Prop where
  linked : ∀ key, Linked payloads (log.chain key)
  heads : ∀ key, expected payloads (tips payloads (log.chain key)) key =
    ((log.head key).seq + 1, (log.head key).hash)
  sound : ∀ r ∈ log.rows, Sound (some secret) r

variable {log : AuditLog} {kept : List ChainRow}

theorem AuditLog.Chained.append {secret : Bytes} {next : AuditLog} (kept : log.Chained secret)
    {event : AuditEvent × Time}
    (done : log.append secret event = .ok next) : next.Chained secret := by
  obtain ⟨entry, built, done⟩ := of_bind done
  cases done
  obtain ⟨hash, _, _, _, shape⟩ := buildChainEntry_eq_ok built
  have own : payloads.key entry.payload.hashed = chainKey event.1 := by rw [shape]; rfl
  have fits : Fits payloads (tips payloads (log.chain (chainKey event.1)))
      entry.payload.hashed := by
    rw [Fits, own, kept.heads, shape]
    rfl
  have seq : entry.payload.seq = (log.head (chainKey event.1)).seq + 1 := by rw [shape]; rfl
  have rows : hashedPayloads (log.rows ++ [rowOf event.1 entry]) =
      hashedPayloads log.rows ++ [entry.payload.hashed] := map_append
  have grown : ofKey payloads (chainKey event.1)
      (hashedPayloads log.rows ++ [entry.payload.hashed]) =
      log.chain (chainKey event.1) ++ [entry.payload.hashed] := by
    rw [← own]
    exact ofKey_concat_self _ _
  have others : ∀ {key}, key ≠ chainKey event.1 →
      ofKey payloads key (hashedPayloads log.rows ++ [entry.payload.hashed]) = log.chain key :=
    fun other => ofKey_concat_of_ne (own ▸ other.symm) _
  constructor
  · intro key
    rw [AuditLog.chain, rows]
    by_cases same : key = chainKey event.1
    · rw [same, grown]
      exact linked_concat.mpr ⟨kept.linked _, fits⟩
    · rw [others same]
      exact kept.linked key
  · intro key
    rw [AuditLog.chain, rows, AuditLog.head, GoMap.lookup_insert_eq]
    by_cases same : key = chainKey event.1
    · rw [same, grown, tips_concat, expected_push, if_pos own, if_pos rfl, kept.heads]
      exact Prod.ext (congrArg (· + 1) seq.symm) hash.symm
    · rw [others same, if_neg same]
      exact kept.heads key
  · intro r inside
    rcases mem_append.mp inside with earlier | last
    · exact kept.sound r earlier
    · cases mem_singleton.mp last
      exact sound_rowOf built

theorem AuditLog.Chained.insertAuditEvents {secret : Bytes} (kept : log.Chained secret)
    (batch : List (AuditEvent × Time)) : (log.insertAuditEvents secret batch).Chained secret := by
  unfold AuditLog.insertAuditEvents
  split
  next done =>
    exact foldlM_invariant (fun _ log => log.Chained secret) (fun _ _ _ _ kept => kept.append)
      kept done
  · exact kept

theorem AuditLog.chained_written (secret : Bytes) (batches : List (List (AuditEvent × Time))) :
    (AuditLog.written secret batches).Chained secret := by
  refine foldlRecOn batches _
    ⟨fun _ => trivial, fun _ => rfl, nofun⟩ ?_
  exact fun log kept batch _ => kept.insertAuditEvents batch

/-! ## Reading back -/

/-- An erasure leaves a text or removes it. -/
def KeptOrErased (old new : Bytes) : Prop := new = [] ∨ new = old

/-- What was hashed is as it was; stored identifiers may have been erased. -/
structure ReadBack (old new : ChainRow) : Prop where
  payload : new.payload = old.payload
  hash : new.hash = old.hash
  actorUser : KeptOrErased old.rawActorUser new.rawActorUser
  subject : KeptOrErased old.rawSubject new.rawSubject
  actor : KeptOrErased old.rawActor new.rawActor
  approver : KeptOrErased old.rawApprover new.rawApprover
  org : KeptOrErased old.rawOrg new.rawOrg
  session : KeptOrErased old.rawSession new.rawSession
  extraBreak : new.extraBreak = old.extraBreak

section

omit [UlidText]

theorem ReadBack.refl (r : ChainRow) : ReadBack r r :=
  ⟨rfl, rfl, .inr rfl, .inr rfl, .inr rfl, .inr rfl, .inr rfl, .inr rfl, rfl⟩

theorem KeptOrErased.matches {old new pseudo : Bytes} (kept : KeptOrErased old new)
    (known : Matches secret (old, pseudo)) : Matches secret (new, pseudo) :=
  kept.elim .inl fun same => same ▸ known

theorem KeptOrErased.eq_or {old new value : Bytes} (kept : KeptOrErased old new)
    (known : old = [] ∨ old = value) : new = [] ∨ new = value :=
  kept.elim .inl fun same => same ▸ known

theorem Sound.readBack {old new : ChainRow} (sound : Sound secret old)
    (back : ReadBack old new) : Sound secret new := by
  have ids := sound.identifiers
  simp only [ChainRow.identifiers, forall_mem_cons] at ids
  obtain ⟨actorUser, subject, actor, approver, -⟩ := ids
  refine ⟨?_, ?_, ?_, back.extraBreak.trans sound.extra, ?_⟩
  · rw [back.payload, back.hash]
    exact sound.hash
  · rw [back.payload]
    exact back.org.eq_or sound.org
  · rw [back.payload]
    exact back.session.eq_or sound.session
  · simp only [ChainRow.identifiers, forall_mem_cons, back.payload]
    exact ⟨back.actorUser.matches actorUser, back.subject.matches subject,
      back.actor.matches actor, back.approver.matches approver, nofun⟩

theorem linked_hashedPayloads_iff {rows : List ChainRow} (sound : ∀ r ∈ rows, Sound secret r) :
    Linked payloads (hashedPayloads rows) ↔ Linked storedRows rows :=
  linked_map rfl (fun _ => rfl) (fun _ => rfl) fun r inside => (sound r inside).hash

theorem readBack_rows {rows : List ChainRow} (back : List.Forall₂ ReadBack rows kept)
    (sound : ∀ r ∈ rows, Sound secret r) :
    hashedPayloads kept = hashedPayloads rows ∧ ∀ r ∈ kept, Sound secret r := by
  induction back with
  | nil => exact ⟨rfl, nofun⟩
  | cons first _ ih =>
    rw [forall_mem_cons] at sound
    obtain ⟨same, later⟩ := ih sound.2
    refine ⟨?_, forall_mem_cons.mpr ⟨sound.1.readBack first, later⟩⟩
    exact congrArg₂ cons (congrArg ChainPayload.hashed first.payload) same

end

/-- **A written log verifies, and verified rows are bound by the ends of their chains.** -/
theorem audit_chain_verifies_and_binds :
    (∀ (secret : Bytes) (batches : List (List (AuditEvent × Time))) (unchained : Int)
        (before : Bytes → Bytes → Prop), (∀ a b, before a b → ¬ before b a) →
      ∀ kept shown : List ChainRow,
        List.Forall₂ ReadBack (AuditLog.written secret batches).rows kept → shown.Perm kept →
        Ordered storedRows before shown →
          (verifyChainRows shown none (some secret) unchained).1.ok = true ∧
            (verifyChainRows shown none (some secret) unchained).1.checked = shown.length ∧
            (verifyChainRows shown none (some secret) unchained).1.firstBreak = none) ∧
      ∀ (rows others : List ChainRow) (secret otherSecret : Option Bytes)
        (unchained otherUnchained : Int),
        (verifyChainRows rows none secret unchained).1.ok = true →
        (verifyChainRows others none otherSecret otherUnchained).1.ok = true →
        (∀ r ∈ rows, ∀ s ∈ others, rowHash r.payload = rowHash s.payload →
          r.payload.hashed = s.payload.hashed) →
        tips storedRows rows = tips storedRows others →
          hashedPayloads rows = hashedPayloads others := by
  constructor
  · intro secret batches unchained _ asymm _ shown back same ordered
    have chained := AuditLog.chained_written secret batches
    obtain ⟨unchanged, sound⟩ := readBack_rows back chained.sound
    have linked : Linked payloads (hashedPayloads shown) := by
      refine linked_of_perm asymm chained.linked ?_ (pairwise_map.mpr ordered)
      rw [← unchanged]
      exact same.map _
    have ok := (verifyChainRows_ok_iff shown (some secret) unchained).mpr
      ⟨linked, fun r inside => sound r (same.mem_iff.mp inside)⟩
    rw [verifyChainRows_eq ok]
    exact ⟨rfl, rfl, rfl⟩
  · intro rows others secret otherSecret unchained otherUnchained one two free same
    obtain ⟨linked, sound⟩ := (verifyChainRows_ok_iff rows secret unchained).mp one
    obtain ⟨linked', sound'⟩ := (verifyChainRows_ok_iff others otherSecret otherUnchained).mp two
    have ends : ∀ {secret : Option Bytes} {rows : List ChainRow}, (∀ r ∈ rows, Sound secret r) →
        tips payloads (hashedPayloads rows) = tips storedRows rows :=
      fun sound => tips_map (fun _ => rfl) fun r inside => (sound r inside).hash
    refine eq_of_tips_eq linked linked' ?_ ((ends sound).trans (same.trans (ends sound').symm))
    intro _ inA _ inB digest
    obtain ⟨r, inside, rfl⟩ := mem_map.mp inA
    obtain ⟨s, inside', rfl⟩ := mem_map.mp inB
    exact free r inside s inside' digest

omit [UlidText] in
theorem AuditLog.Chained.linked_readBack {secret : Bytes} (chained : log.Chained secret)
    (back : List.Forall₂ ReadBack log.rows kept) (key : Bytes) :
    Linked storedRows (ofKey storedRows key kept) := by
  obtain ⟨unchanged, sound⟩ := readBack_rows back chained.sound
  have chain : hashedPayloads (ofKey storedRows key kept) = log.chain key := by
    rw [AuditLog.chain, ← unchanged, hashedPayloads, hashedPayloads, ofKey, ofKey, filter_map]
    rfl
  have soundChain : ∀ r ∈ ofKey storedRows key kept, Sound (some secret) r :=
    fun r inside => sound r (mem_of_mem_filter inside)
  rw [← linked_hashedPayloads_iff soundChain, chain]
  exact chained.linked key

omit [UlidText] in
theorem AuditLog.Chained.verifies_iff {secret : Bytes} (chained : log.Chained secret)
    (unchained : Int) {before : Bytes → Bytes → Prop} (asymm : ∀ a b, before a b → ¬ before b a)
    {left shown : List ChainRow} (back : List.Forall₂ ReadBack log.rows kept)
    (sub : left.Sublist kept) (same : shown.Perm left) (ordered : Ordered storedRows before shown) :
    (verifyChainRows shown none (some secret) unchained).1.ok = true ↔
      ∀ key, ofKey storedRows key left <+: ofKey storedRows key kept := by
  have soundKept := (readBack_rows back chained.sound).2
  have sound : ∀ r ∈ shown, Sound (some secret) r :=
    fun r inside => soundKept r (sub.subset (same.mem_iff.mp inside))
  rw [verifyChainRows_ok_iff, and_iff_left sound, linked_hashedPayloads_iff sound]
  exact linked_iff_prefixes asymm (chained.linked_readBack back) sub same ordered

/-- **What the walk says of a log with rows deleted.** It reads no chain head, so it does not see
where a chain ended. -/
theorem verifies_iff_oldest_rows_left (secret : Bytes) (batches : List (List (AuditEvent × Time)))
    (unchained : Int) {before : Bytes → Bytes → Prop} (asymm : ∀ a b, before a b → ¬ before b a)
    {kept left shown : List ChainRow}
    (back : List.Forall₂ ReadBack (AuditLog.written secret batches).rows kept)
    (sub : left.Sublist kept) (same : shown.Perm left) (ordered : Ordered storedRows before shown) :
    (verifyChainRows shown none (some secret) unchained).1.ok = true ↔
      ∀ key, ofKey storedRows key left <+: ofKey storedRows key kept :=
  (AuditLog.chained_written secret batches).verifies_iff unchained asymm back sub same ordered

end

/-- The columns of a row, after the deletion of the users and sessions that `gone` holds. -/
def ChainRow.erase (gone : Bytes → Bool) (r : ChainRow) : ChainRow :=
  let blank (raw : Bytes) : Bytes := if gone raw then [] else raw
  { r with
    rawActorUser := blank r.rawActorUser
    rawSubject := blank r.rawSubject
    rawActor := blank r.rawActor
    rawApprover := blank r.rawApprover
    rawSession := blank r.rawSession }

theorem ChainRow.readBack_erase (gone : Bytes → Bool) (r : ChainRow) :
    ReadBack r (r.erase gone) := by
  have blank : ∀ raw, KeptOrErased raw (if gone raw then [] else raw) := by
    intro _
    split
    · exact .inl rfl
    · exact .inr rfl
  exact ⟨rfl, rfl, blank _, blank _, blank _, blank _, .inr rfl, blank _, rfl⟩

theorem ChainRow.blanked_erase (gone : Bytes → Bool) (r : ChainRow) :
    (r.erase gone).blanked =
      r.identifiers.any fun entry => entry.2 ≠ [] && (entry.1 = [] || gone entry.1) := by
  have blank : ∀ raw : Bytes, decide ((if gone raw then [] else raw) = []) =
      (decide (raw = []) || gone raw) := by
    intro raw
    cases gone raw <;> simp
  simp only [blanked, erase, identifiers, any_cons, any_nil, blank, Bool.and_comm]

/-- **Erasing users keeps the chain.** A row counts as erased if an identifier that was hashed is of
such a user, or was blank before. -/
theorem erasure_keeps_chain (rows : List ChainRow) (secret : Option Bytes) (unchained : Int)
    (valid : (verifyChainRows rows none secret unchained).1.ok = true) (gone : Bytes → Bool) :
    verifyChainRows (rows.map (·.erase gone)) none secret unchained =
        ({ (verifyChainRows rows none secret unchained).1 with
          erased := rows.countP fun r =>
            r.identifiers.any fun entry => entry.2 ≠ [] && (entry.1 = [] || gone entry.1) }, none) ∧
      tips storedRows (rows.map (·.erase gone)) = tips storedRows rows := by
  obtain ⟨linked, sound⟩ := (verifyChainRows_ok_iff rows secret unchained).mp valid
  have back : List.Forall₂ ReadBack rows (rows.map (·.erase gone)) :=
    forall₂_map_right_iff.mpr (forall₂_same.mpr fun r _ => r.readBack_erase gone)
  obtain ⟨same, sound⟩ := readBack_rows back sound
  have ok := (verifyChainRows_ok_iff _ secret unchained).mpr ⟨same ▸ linked, sound⟩
  refine ⟨?_, tips_map (fun _ => rfl) fun _ _ => rfl⟩
  rw [verifyChainRows_eq ok, verifyChainRows_eq valid, length_map, countP_map]
  simp only [Function.comp_def, ChainRow.blanked_erase]

/-! ## Two chains in turns -/

def eventOf (id : ULID) (organization : Option ULID) : AuditEvent :=
  { id
    organizationID := organization
    action := str "login"
    subjectID := str "u"
    createdAt := 1 }

def turns : List ChainRow :=
  (@AuditLog.written UlidText.unary (str "k")
    [[(eventOf 1 (some 2), 0), (eventOf 2 none, 0)], [(eventOf 3 (some 2), 0)]]).rows

def turnsByChain : List ChainRow :=
  turns.filter (fun r => r.payload.chainKey == []) ++
    turns.filter fun r => !(r.payload.chainKey == [])

/-- Without its newest row the chain is reported OK, and so is the log without any row. -/
theorem newest_rows_deleted_unseen :
    turns.map (fun r => (r.payload.chainKey, r.payload.seq)) =
        [(str "11", 1), ([], 1), (str "11", 2)] ∧
      (verifyChainRows (turns.take 2) none (some (str "k")) 0).1.ok = true ∧
      (verifyChainRows (ofKey storedRows [] turns) none (some (str "k")) 0).1.ok = true ∧
      (verifyChainRows [] none (some (str "k")) 0).1.ok = true := by
  have chained := @AuditLog.chained_written UlidText.unary (str "k")
    [[(eventOf 1 (some 2), 0), (eventOf 2 none, 0)], [(eventOf 3 (some 2), 0)]]
  have back : List.Forall₂ ReadBack turns turns := forall₂_same.mpr fun r _ => .refl r
  have emptyLast : ∀ a b : Bytes, a ≠ [] ∧ b = [] → ¬ (b ≠ [] ∧ a = []) :=
    fun a b first second => second.1 first.2
  refine ⟨by decide +kernel, ?_, ?_, rfl⟩
  · refine (chained.verifies_iff 0 emptyLast back (take_sublist 2 _) (.refl _) ?_).mpr ?_
    · unfold Ordered
      decide +kernel
    · have front := take_prefix 2 turns
      exact fun key => front.filter _
  · have sub : (ofKey storedRows [] turns).Sublist turns := by
      exact filter_sublist
    refine (chained.verifies_iff 0 emptyLast back sub (.refl _) ?_).mpr ?_
    · unfold Ordered
      decide +kernel
    · intro key
      by_cases global : key = []
      · rw [global, ofKey, ofKey]
        simp
      · rw [ofKey, filter_eq_nil_iff.mpr]
        · exact nil_prefix
        · intro _ inside own
          exact global ((of_decide_eq_true own).symm.trans (key_of_mem_ofKey inside))

theorem oldest_row_deleted_seen :
    (verifyChainRows (turns.drop 2) none (some (str "k")) 0).1.ok = false := by
  have back : List.Forall₂ ReadBack turns turns := forall₂_same.mpr fun r _ => .refl r
  have ordered : Ordered storedRows (fun _ _ => False) (turns.drop 2) := by
    unfold Ordered
    decide +kernel
  have seen := @verifies_iff_oldest_rows_left UlidText.unary (str "k") _ 0 _
    (fun _ _ none_ => none_.elim) turns _ _ back (drop_sublist 2 _) (.refl _) ordered
  refine Bool.eq_false_iff.mpr fun ok => ?_
  have places := (seen.mp ok (str "11")).map (·.payload.seq)
  revert places
  decide +kernel

def lone : List ChainRow :=
  (@AuditLog.written UlidText.unary (str "k") [[(eventOf 2 none, 0)]]).rows

theorem erasure_keeps_chain_of_two :
    (verifyChainRows (turnsByChain.map (·.erase (· == str "u"))) none (some (str "k")) 0).1 =
      ⟨true, true, 3, 0, 3, none⟩ := by
  have chained := @AuditLog.chained_written UlidText.unary (str "k")
    [[(eventOf 1 (some 2), 0), (eventOf 2 none, 0)], [(eventOf 3 (some 2), 0)]]
  have back : List.Forall₂ ReadBack turns turns := forall₂_same.mpr fun r _ => .refl r
  have emptyFirst : ∀ a b : Bytes, a = [] ∧ b ≠ [] → ¬ (b = [] ∧ a ≠ []) :=
    fun a b first second => first.2 second.1
  have ordered : Ordered storedRows (fun a b => a = [] ∧ b ≠ []) turnsByChain := by
    unfold Ordered
    decide +kernel
  have parted : turnsByChain.Perm turns := filter_append_perm _ turns
  have valid : (verifyChainRows turnsByChain none (some (str "k")) 0).1.ok = true :=
    (chained.verifies_iff 0 emptyFirst back (Sublist.refl turns) parted ordered).mpr
      fun key => List.prefix_rfl
  rw [(erasure_keeps_chain turnsByChain _ 0 valid (· == str "u")).1, verifyChainRows_eq valid]
  decide +kernel

def eraseSubject (r : ChainRow) : ChainRow := { r with rawSubject := [] }

theorem turns_verify_and_erased_row_bound :
    turns.map (fun r => (r.payload.chainKey, r.payload.seq)) =
        [(str "11", 1), ([], 1), (str "11", 2)] ∧
      (verifyChainRows turnsByChain none (some (str "k")) 0).1.ok = true ∧
      hashedPayloads lone = hashedPayloads (lone.map eraseSubject) := by
  obtain ⟨verifies, binds⟩ := @audit_chain_verifies_and_binds UlidText.unary
  have emptyFirst : ∀ a b : Bytes, a = [] ∧ b ≠ [] → ¬ (b = [] ∧ a ≠ []) :=
    fun a b first second => first.2 second.1
  refine ⟨by decide +kernel, ?_, ?_⟩
  · refine (verifies (str "k")
      [[(eventOf 1 (some 2), 0), (eventOf 2 none, 0)], [(eventOf 3 (some 2), 0)]] 0 _ emptyFirst
      turns turnsByChain ?_ (filter_append_perm _ _) ?_).1
    · exact forall₂_same.mpr fun r _ => .refl r
    · unfold Ordered
      decide +kernel
  · have kept : (verifyChainRows lone none (some (str "k")) 0).1.ok = true := by
      refine (verifies (str "k") [[(eventOf 2 none, 0)]] 0 _ emptyFirst lone lone ?_ (.refl _) ?_).1
      · exact forall₂_same.mpr fun r _ => .refl r
      · unfold Ordered
        decide +kernel
    have erased :
        (verifyChainRows (lone.map eraseSubject) none (some (str "k")) 0).1.ok = true := by
      refine (verifies (str "k") [[(eventOf 2 none, 0)]] 0 _ emptyFirst _ _ ?_ (.refl _) ?_).1
      · refine forall₂_map_right_iff.mpr (forall₂_same.mpr fun r _ => ?_)
        exact { ReadBack.refl r with subject := .inl rfl }
      · unfold Ordered
        decide +kernel
    refine binds lone _ _ _ 0 0 kept erased ?_ (tips_map (fun _ => rfl) fun _ _ => rfl).symm
    intro _ inside _ inside' _
    cases mem_singleton.mp inside
    cases mem_singleton.mp inside'
    rfl

end TheAuth.Audit
