import TheAuth.Store.Agents

/-!
# The gate in front of agents

The gate enforces the policies and the rate limit of an agent, when a token is minted for it and
when it acts. The answers of the engine and the limiter belong to a call. Only the path of
`authorize` with an engine reads the status of the agent.
-/

set_option autoImplicit false

namespace TheAuth.Agents

open Go Server Store List UlidText

/-- One scope on one resource. -/
structure PolicyQuery where
  (action resource : Bytes)

inductive VerdictEffect where
  | allow | deny | escalate | none
  | other (text : Bytes)
  deriving DecidableEq

structure PolicyVerdict where
  effect : VerdictEffect
  (policyID statementID reason : Bytes := [])

structure Window where
  (requests per burst : Int)

/-- The answer of an engine. -/
structure PolicyDecision where
  applies : Bool
  denyList : Bool := false
  rateLimit : Option Window := none
  ids : List Bytes := []
  hash : Bytes := []
  verdicts : List PolicyVerdict := []

def permits (v : PolicyVerdict) (denyList : Bool) : Bool :=
  match v.effect with
  | .allow => true
  | .none => denyList
  | _ => false

inductive GateError where
  | agentNotActive (detail : Bytes)
  | agentExpired (agentID : Bytes)
  | mintForExpired
  | rateLimited (retryAfter : Int)
  | engineFailed (error : Bytes)
  | verdictCount (returned asked : ℕ)
  | invalidScope (detail : Bytes)
  | policyDenied (action resource policyID statementID reason : Bytes)

/-- `storage` and `engine` say whether they were configured. -/
structure Gate where
  (storage engine : Bool)

/-- What engine and limiter answer. -/
structure GateAnswers where
  now : Time
  decide : Agent → List PolicyQuery → Except Bytes PolicyDecision
  limiter : Bytes → Option Window → Option Int

def GateAnswers.spend (a : GateAnswers) (agentID : Bytes) (override : Option Window) :
    Except GateError Unit :=
  match a.limiter agentID override with
  | none => .ok ()
  | some retry => .error (.rateLimited retry)

inductive MintGrant where
  | clientCredentials | tokenExchange | jwtBearer

structure MintRequest where
  grant : MintGrant
  resource : Bytes
  scopes : List Bytes
  explicit : Bool
  ceiling : Option (List Bytes) := none

/-- What a mint may carry. -/
structure MintResult where
  scopes : List Bytes
  (dropped policyIDs : List Bytes := [])
  policyHash : Bytes := []

def refuse [StdLib] (req : MintRequest) (action : Bytes) (v : PolicyVerdict) : GateError :=
  if v.effect = .none then
    .invalidScope (str "scope " ++ StdLib.quote action ++ str " is not permitted by agent policy")
  else .policyDenied action req.resource v.policyID v.statementID v.reason

def ceiled (req : MintRequest) (dec : PolicyDecision) (scope : Bytes) (v : PolicyVerdict) :
    PolicyVerdict × Bool :=
  if req.ceiling.any fun ceiling => !ceiling.contains scope then
    ({ effect := .none, reason := str "outside registered scope ceiling" }, false)
  else (v, dec.denyList)

structure Vetted where
  (kept dropped : List Bytes := [])
  firstDenied : Option (Bytes × PolicyVerdict) := none

def vetScopes [StdLib] (req : MintRequest) (dec : PolicyDecision) :
    Vetted → List (Bytes × PolicyVerdict) → Except GateError Vetted
  | done, [] => .ok done
  | done, (scope, verdict) :: rest =>
    let (v, denyList) := ceiled req dec scope verdict
    if permits v denyList then
      vetScopes req dec { done with kept := done.kept ++ [scope] } rest
    else if req.explicit then .error (refuse req scope v)
    else
      vetScopes req dec
        { done with
          dropped := done.dropped ++ [scope]
          firstDenied := done.firstDenied.or (some (scope, v)) } rest

def applyDecision [StdLib] (req : MintRequest) (dec : PolicyDecision) :
    Except GateError MintResult :=
  if !dec.applies then .ok { scopes := req.scopes }
  else if dec.verdicts.length ≠ req.scopes.length then
    .error (.verdictCount dec.verdicts.length req.scopes.length)
  else match vetScopes req dec {} (req.scopes.zip dec.verdicts) with
  | .error e => .error e
  | .ok done =>
    match done.kept, done.firstDenied with
    | [], some (action, v) => .error (refuse req action v)
    | kept, _ => .ok ⟨kept, done.dropped, dec.ids, dec.hash⟩

def authorizeMint [StdLib] [UlidText] (gate : Option Gate) (a : GateAnswers) (ag : Agent)
    (req : MintRequest) : Except GateError MintResult :=
  match gate with
  | none => .ok { scopes := req.scopes }
  | some g =>
    if ag.agentExpired a.now then .error .mintForExpired
    else if !g.engine then
      match a.spend (UlidText.string ag.id) none with
      | .error e => .error e
      | .ok _ => .ok { scopes := req.scopes }
    else match a.decide ag (req.scopes.map fun scope => ⟨scope, req.resource⟩) with
    | .error e => .error (.engineFailed e)
    | .ok dec =>
      match a.spend (UlidText.string ag.id) dec.rateLimit with
      | .error e => .error e
      | .ok _ => applyDecision req dec

def passes (req : MintRequest) (dec : PolicyDecision) (entry : Bytes × PolicyVerdict) : Bool :=
  permits (ceiled req dec entry.1 entry.2).1 (ceiled req dec entry.1 entry.2).2

variable {req : MintRequest} {dec : PolicyDecision} {res : MintResult} {gate : Option Gate}
  {a : GateAnswers}

theorem passes_eq_true {scope : Bytes} {v : PolicyVerdict} :
    passes req dec (scope, v) = true ↔
      (∀ ceiling, req.ceiling = some ceiling → scope ∈ ceiling) ∧
        permits v dec.denyList = true := by
  unfold passes ceiled
  cases req.ceiling with
  | none => simp
  | some ceiling =>
    by_cases inside : scope ∈ ceiling
    · simp [inside]
    · simp [inside, permits]

variable {list : List (Bytes × PolicyVerdict)} {ag : Agent}

theorem vetScopes_kept [StdLib] {done last : Vetted}
    (vetted : vetScopes req dec done list = .ok last) :
    last.kept = done.kept ++ (list.filter (passes req dec)).map Prod.fst ∧
      (req.explicit = true → ∀ entry ∈ list, passes req dec entry = true) := by
  induction list generalizing done with
  | nil =>
    cases vetted
    exact ⟨by simp, nofun⟩
  | cons entry rest ih =>
    obtain ⟨scope, verdict⟩ := entry
    unfold vetScopes at vetted
    dsimp only at vetted
    split at vetted
    next permitted =>
      have here : passes req dec (scope, verdict) = true := permitted
      obtain ⟨kept, all⟩ := ih vetted
      refine ⟨?_, fun asked => forall_mem_cons.mpr ⟨here, all asked⟩⟩
      rw [kept, filter_cons_of_pos here, map_cons, append_assoc, singleton_append]
    rename_i refused
    split at vetted
    · cases vetted
    rename_i implicit
    obtain ⟨kept, -⟩ := ih vetted
    refine ⟨?_, fun asked => absurd asked implicit⟩
    have here : ¬ passes req dec (scope, verdict) = true := refused
    rw [kept, filter_cons_of_neg here]

theorem vetScopes_nonempty [StdLib] {done last : Vetted}
    (vetted : vetScopes req dec done list = .ok last)
    (some_ : done.kept ≠ [] ∨ done.firstDenied ≠ none ∨ list ≠ []) :
    last.kept ≠ [] ∨ last.firstDenied ≠ none := by
  induction list generalizing done with
  | nil =>
    cases vetted
    rcases some_ with kept | denied | some_
    · exact .inl kept
    · exact .inr denied
    · exact absurd rfl some_
  | cons _ _ ih =>
    unfold vetScopes at vetted
    dsimp only at vetted
    split at vetted
    · exact ih vetted (.inl (by simp))
    split at vetted
    · cases vetted
    refine ih vetted (.inr (.inl ?_))
    cases done.firstDenied <;> simp

theorem applyDecision_eq_ok [StdLib]
    (applies : dec.applies = true) (done : applyDecision req dec = .ok res) :
    res.scopes = ((req.scopes.zip dec.verdicts).filter (passes req dec)).map Prod.fst ∧
      (req.scopes ≠ [] → res.scopes ≠ []) ∧ (req.explicit = true → res.scopes = req.scopes) := by
  unfold applyDecision at done
  rw [applies, Bool.not_true, if_neg Bool.false_ne_true] at done
  split at done
  · cases done
  have scopes : (req.scopes.zip dec.verdicts).map Prod.fst = req.scopes := map_fst_zip (by omega)
  split at done
  · cases done
  rename_i last vetted
  obtain ⟨kept, all⟩ := vetScopes_kept vetted
  split at done <;> cases done
  rename_i first notDenied
  refine ⟨kept, fun some_ => ?_, fun asked => ?_⟩
  · have nonempty : req.scopes.zip dec.verdicts ≠ [] := by
      intro empty
      rw [empty] at scopes
      exact some_ scopes.symm
    rcases vetScopes_nonempty vetted (.inr (.inr nonempty)) with keeps | denied
    · exact keeps
    · intro none_
      cases first : last.firstDenied with
      | none => exact denied first
      | some pair => exact notDenied pair.1 pair.2 none_ first
  · rwa [filter_eq_self.mpr (all asked), scopes] at kept

def decisionOn (gate : Option Gate) (a : GateAnswers) (ag : Agent) (req : MintRequest) :
    Option PolicyDecision :=
  match gate with
  | none => none
  | some g =>
    if !g.engine then none
    else match a.decide ag (req.scopes.map fun scope => ⟨scope, req.resource⟩) with
    | .error _ => none
    | .ok dec => if dec.applies then some dec else none

theorem authorizeMint_eq_ok [StdLib] [UlidText] (done : authorizeMint gate a ag req = .ok res) :
    (decisionOn gate a ag req = none ∧ res.scopes = req.scopes) ∨
      ∃ dec, decisionOn gate a ag req = some dec ∧ dec.applies = true ∧
        applyDecision req dec = .ok res := by
  unfold authorizeMint at done
  unfold decisionOn
  split at done
  · cases done
    exact .inl ⟨rfl, rfl⟩
  split at done
  · cases done
  split at done
  next idle =>
    rw [if_pos idle]
    split at done <;> cases done
    exact .inl ⟨rfl, rfl⟩
  rename_i busy
  rw [if_neg busy]
  split at done
  · cases done
  rename_i dec _
  split at done
  · cases done
  cases applies : dec.applies with
  | false =>
    unfold applyDecision at done
    rw [applies] at done
    cases done
    exact .inl ⟨rfl, rfl⟩
  | true => exact .inr ⟨dec, rfl, applies, done⟩

theorem authorizeMint_scopes [StdLib] [UlidText] (done : authorizeMint gate a ag req = .ok res) :
    res.scopes ⊆ req.scopes ∧ (req.scopes ≠ [] → res.scopes ≠ []) := by
  rcases authorizeMint_eq_ok done with ⟨-, same⟩ | ⟨_, -, applies, done⟩
  · rw [same]
    exact ⟨List.Subset.refl _, id⟩
  · obtain ⟨kept, some_, -⟩ := applyDecision_eq_ok applies done
    refine ⟨fun scope inside => ?_, some_⟩
    rw [kept] at inside
    obtain ⟨⟨_, _⟩, listed, rfl⟩ := mem_map.mp inside
    exact (of_mem_zip (mem_filter.mp listed).1).1

theorem passes_of_mem_scopes [StdLib] [UlidText] (done : authorizeMint gate a ag req = .ok res)
    (decided : decisionOn gate a ag req = some dec) {scope : Bytes} (inside : scope ∈ res.scopes) :
    ∃ v, (scope, v) ∈ req.scopes.zip dec.verdicts ∧ passes req dec (scope, v) = true := by
  rcases authorizeMint_eq_ok done with ⟨none_, -⟩ | ⟨_, again, applies, done⟩
  · cases none_.symm.trans decided
  · cases decided.symm.trans again
    rw [(applyDecision_eq_ok applies done).1] at inside
    obtain ⟨⟨_, v⟩, listed, rfl⟩ := mem_map.mp inside
    exact ⟨v, (mem_filter.mp listed).1, (mem_filter.mp listed).2⟩

/-- **A mint keeps to the requested scopes; under a decision of the engine it keeps to the ceiling
and to what the verdicts permit.** -/
theorem mint_keeps_to_ceiling [StdLib] [UlidText] (gate : Option Gate) (a : GateAnswers)
    (ag : Agent) (req : MintRequest) (res : MintResult)
    (done : authorizeMint gate a ag req = .ok res) :
    res.scopes ⊆ req.scopes ∧ (req.explicit = true → res.scopes = req.scopes) ∧
      (decisionOn gate a ag req = none → res.scopes = req.scopes) ∧
        ∀ dec, decisionOn gate a ag req = some dec → ∀ scope ∈ res.scopes,
          (∀ ceiling, req.ceiling = some ceiling → scope ∈ ceiling) ∧
            ∃ v, (scope, v) ∈ req.scopes.zip dec.verdicts ∧ permits v dec.denyList = true := by
  refine ⟨(authorizeMint_scopes done).1, fun asked => ?_, fun none_ => ?_, ?_⟩
  · rcases authorizeMint_eq_ok done with ⟨-, same⟩ | ⟨dec, -, applies, done⟩
    · exact same
    · exact (applyDecision_eq_ok applies done).2.2 asked
  · rcases authorizeMint_eq_ok done with ⟨-, same⟩ | ⟨dec, decided, -, -⟩
    · exact same
    · cases decided.symm.trans none_
  · intro _ decided _ inside
    obtain ⟨v, zipped, passed⟩ := passes_of_mem_scopes done decided inside
    obtain ⟨within, permitted⟩ := passes_eq_true.mp passed
    exact ⟨within, v, zipped, permitted⟩

def sampleAgent : Agent := { id := 1, name := str "A", status := .active, clientID := str "a" }

def allowing (applies : Bool) : GateAnswers where
  now := Time.unix 1000
  decide _ queries := .ok { applies, verdicts := queries.map fun _ => { effect := .allow } }
  limiter _ _ := none

def mintBoth (explicit : Bool) : MintRequest :=
  ⟨.jwtBearer, str "r", [str "read", str "write"], explicit, some [str "read"]⟩

attribute [local instance] StdLib.refusing unary

/-- Without an engine, and without policies that apply, the ceiling is not looked at. -/
theorem ceiling_needs_policy :
    (authorizeMint (some ⟨true, false⟩) (allowing true) sampleAgent (mintBoth true)).toOption.map
        (·.scopes) = some [str "read", str "write"] ∧
      (authorizeMint (some ⟨true, true⟩) (allowing false) sampleAgent
        (mintBoth true)).toOption.map (·.scopes) = some [str "read", str "write"] := by
  decide

theorem mint_cut_to_ceiling :
    ∃ res, authorizeMint (some ⟨true, true⟩) (allowing true) sampleAgent (mintBoth false) =
        .ok res ∧
      res.scopes = [str "read"] ∧ ∀ scope ∈ res.scopes, scope ∈ [str "read"] := by
  have done : ∃ res, authorizeMint (some ⟨true, true⟩) (allowing true) sampleAgent
      (mintBoth false) =
      .ok res ∧ res.scopes = [str "read"] := ⟨_, rfl, rfl⟩
  obtain ⟨res, done, scopes⟩ := done
  obtain ⟨-, -, -, kept⟩ := mint_keeps_to_ceiling _ _ _ _ res done
  exact ⟨res, done, scopes, fun scope inside => (kept _ rfl scope inside).1 _ rfl⟩

end TheAuth.Agents
