import TheAuth.Server.ExchangeChains

/-!
# The principal of a request to a resource server

An exchange writes the requesting agent outside the actors of the token it got, so the agent that
holds a token is its outermost actor. `flattenChain` turns the list round: the principal's actor is
the first agent of the chain of exchanges.
-/

set_option autoImplicit false

namespace TheAuth.Mcp

open Go Agents Server Library.Chain List

inductive ActorClaim where
  | actor (sub : Bytes)
  | chained (sub : Bytes) (act : ActorClaim)
  deriving DecidableEq

/-- The claims of an access token. -/
structure Claims where
  (iss sub : Bytes)
  aud : List Bytes
  (exp iat : Int)
  (jti clientID scope : Bytes)
  act : Option ActorClaim
  (delegationGrantID deviceID acr : Bytes)
  authTime : Int
  amr : List Bytes

/-- Whom the middleware names. -/
structure Principal where
  (subject actor : Bytes)
  actorChain : List Bytes := []
  scope : List Bytes
  clientID : Bytes
  (issuedAt expiresAt : Time)
  (issuer audience : Bytes)
  audiences : List Bytes
  acr : Bytes
  amr : List Bytes
  authTime : Time
  (jwtID deviceID delegationGrantID : Bytes)

def ActorClaim.subjects : ActorClaim → List Bytes
  | .actor sub => [sub]
  | .chained sub act => sub :: act.subjects

def flattenChain (act : ActorClaim) : List Bytes := act.subjects.reverse

theorem flattenChain_ne_nil (act : ActorClaim) : flattenChain act ≠ [] := by
  cases act <;> simp [flattenChain, ActorClaim.subjects]

def splitScope (s : Bytes) : List Bytes := if s = [] then [] else fields s

def unix (t : Int) : Time := if t = 0 then 0 else Time.unix t

def principalFromClaims (c : Claims) : Principal :=
  let p : Principal :=
    { subject := c.sub
      actor := c.sub
      scope := splitScope c.scope
      clientID := c.clientID
      issuedAt := unix c.iat
      expiresAt := unix c.exp
      issuer := c.iss
      audience := c.aud.headD []
      audiences := c.aud
      jwtID := c.jti
      delegationGrantID := c.delegationGrantID
      acr := c.acr
      amr := c.amr
      authTime := unix c.authTime
      deviceID := c.deviceID }
  match c.act with
  | none => p
  | some act =>
    { p with
      actor := (flattenChain act).head (flattenChain_ne_nil act)
      actorChain := flattenChain act }

theorem principalFromClaims_of_act {c : Claims} {act : ActorClaim} (named : c.act = some act) :
    (principalFromClaims c).actorChain = flattenChain act ∧
      some (principalFromClaims c).actor = (flattenChain act).head? := by
  simp only [principalFromClaims, named, true_and]
  exact (head?_eq_some_head (flattenChain_ne_nil act)).symm

/-- The decoder refuses what is no nest of actors. -/
def ActorClaim.decode : ActClaim → Option ActorClaim
  | .malformed => none
  | .actor sub => some (.actor sub)
  | .chained sub act => (decode act).map (.chained sub)

/-- The claims are read back as they were minted. -/
structure Decodes (minted : Server.Claims) (c : Claims) : Prop where
  iss : c.iss = minted.iss
  sub : c.sub = minted.sub
  aud : c.aud = [minted.aud]
  exp : c.exp = minted.exp
  iat : c.iat = minted.iat
  jti : c.jti = minted.jti
  clientID : c.clientID = minted.clientID
  scope : c.scope = minted.scope
  act : minted.extra.act.map ActorClaim.decode = c.act.map some
  delegationGrantID : c.delegationGrantID = minted.extra.delegationGrantID

theorem decode_actorClaimToMap {sub : Bytes} {actors : ActorChain} :
    ∃ act, (actorClaimToMap (sub :: actors)).map ActorClaim.decode = some (some act) ∧
      act.subjects = sub :: actors := by
  induction actors generalizing sub with
  | nil => exact ⟨.actor sub, rfl, rfl⟩
  | cons next _ ih =>
    obtain ⟨inner, decoded, subjects⟩ := @ih next
    refine ⟨.chained sub inner, ?_, by rw [ActorClaim.subjects, subjects]⟩
    obtain ⟨_, written, read⟩ := Option.map_eq_some_iff.mp decoded
    simp [actorClaimToMap, written, ActorClaim.decode, read]

theorem Decodes.principal {minted : Server.Claims} {c : Claims} (decodes : Decodes minted c)
    (written : minted.extra.act = actorClaimToMap (actorFromClaims minted))
    (named : actorFromClaims minted ≠ []) :
    (principalFromClaims c).actorChain = (actorFromClaims minted).reverse ∧
      some (principalFromClaims c).actor = (actorFromClaims minted).reverse.head? := by
  obtain ⟨sub, actors, cons⟩ := exists_cons_of_ne_nil named
  obtain ⟨act, decoded, subjects⟩ := @decode_actorClaimToMap sub actors
  have read : c.act = some act := by
    have same := decodes.act
    rw [written, cons, decoded] at same
    cases given : c.act with
    | none =>
      rw [given] at same
      cases same
    | some =>
      rw [given] at same
      simpa using same.symm
  have flat : flattenChain act = (actorFromClaims minted).reverse := by
    rw [flattenChain, subjects, cons]
  rw [← flat]
  exact principalFromClaims_of_act read

def agentsOf [UlidText] (chain : List (ExchangeCall × Token)) : List Bytes :=
  chain.map fun entry => (entry.1.agent.map (·.subject)).getD []

section

variable [StdLib] [UlidText] [UrlLib] {cfg : TokenConfig}

theorem actors_of_links {first : Token} {chain : List (ExchangeCall × Token)}
    (links : Links (Exchanges cfg) first chain) (access : ∀ entry ∈ chain, entry.1.ForAccess)
    (adds : ∀ entry ∈ chain, entry.1.answers.AddsClaims) {call : ExchangeCall} {last : Token}
    (held : chain.getLast? = some (call, last)) :
    actorFromClaims last.claims = (agentsOf chain).reverse ++ actorFromClaims first.claims ∧
      last.claims.extra.act = actorClaimToMap (actorFromClaims last.claims) := by
  -- Along the chain: what the second token has of the first, the last has of the second.
  induction chain generalizing first with
  | nil => cases held
  | cons entry rest ih =>
    obtain ⟨agent, own, actors, act⟩ := links.1.act_eq (access entry mem_cons_self)
      (adds entry mem_cons_self)
    have agents : agentsOf (entry :: rest) = agent.subject :: agentsOf rest := by
      simp [agentsOf, own]
    cases rest with
    | nil =>
      cases held
      exact ⟨by rw [agents, actors]; rfl, act⟩
    | cons =>
      obtain ⟨later, written⟩ := ih links.2 (fun e inside => access e (.tail _ inside))
        (fun e inside => adds e (.tail _ inside)) held
      refine ⟨?_, written⟩
      rw [later, actors, agents, reverse_cons, append_assoc]
      rfl

/-- **After every chain of exchanges, the principal's chain lists the agents in the order of their
exchanges, and its actor is the first of them.** -/
theorem principal_of_exchange_chain (cfg : TokenConfig) (first : Token)
    (chain : List (ExchangeCall × Token)) (call : ExchangeCall) (last : Token) (c : Claims)
    (links : Links (Exchanges cfg) first chain) (access : ∀ entry ∈ chain, entry.1.ForAccess)
    (adds : ∀ entry ∈ chain, entry.1.answers.AddsClaims) (user : first.claims.extra.act = none)
    (held : chain.getLast? = some (call, last)) (decodes : Decodes last.claims c) :
    (principalFromClaims c).actorChain = agentsOf chain ∧
      some (principalFromClaims c).actor = (agentsOf chain).head? ∧
      (some (principalFromClaims c).actor = (agentsOf chain).getLast? ∧
          (principalFromClaims c).actorChain = (agentsOf chain).reverse ↔
        (agentsOf chain).reverse = agentsOf chain) := by
  obtain ⟨actors, written⟩ := actors_of_links links access adds held
  have none_ : actorFromClaims first.claims = [] := by simp [actorFromClaims, user]
  rw [none_, append_nil] at actors
  have some_ : actorFromClaims last.claims ≠ [] := by
    rintro empty
    rw [empty, eq_comm, reverse_eq_nil_iff] at actors
    cases map_eq_nil_iff.mp actors
    cases held
  obtain ⟨listed, acting⟩ := decodes.principal written some_
  rw [actors, reverse_reverse] at listed acting
  refine ⟨listed, acting, fun claimed => ?_, fun same => ⟨?_, ?_⟩⟩
  · rw [← claimed.2, listed]
  · rw [acting, ← head?_reverse, same]
  · rw [listed, same]

end

def decoded (minted : Server.Claims) : Claims where
  iss := minted.iss
  sub := minted.sub
  aud := [minted.aud]
  exp := minted.exp
  iat := minted.iat
  jti := minted.jti
  clientID := minted.clientID
  scope := minted.scope
  act := minted.extra.act.bind ActorClaim.decode
  delegationGrantID := minted.extra.delegationGrantID
  deviceID := []
  acr := []
  authTime := 0
  amr := []

theorem decodes_decoded {minted : Server.Claims}
    (nested : minted.extra.act.map ActorClaim.decode ≠ some none) :
    Decodes minted (decoded minted) := by
  refine ⟨rfl, rfl, rfl, rfl, rfl, rfl, rfl, rfl, ?_, rfl⟩
  change _ = (minted.extra.act.bind ActorClaim.decode).map some
  cases given : minted.extra.act with
  | none => rfl
  | some act =>
    rw [given] at nested
    cases read : ActorClaim.decode act with
    | none => exact absurd (congrArg some read) nested
    | some => simp [read]

def oneExchange : List (ExchangeCall × Token) :=
  [(clientCall (str "a") (userToken (str "read")), handOn (str "a") (userToken (str "read")))]

theorem principal_of_one_exchange :
    let p := principalFromClaims (decoded (handOn (str "a") (userToken (str "read"))).claims)
    p.actor = str "agent:1" ∧ p.actorChain = [str "agent:1"] := by
  obtain ⟨-, -, iff⟩ := @principal_of_exchange_chain StdLib.refusing UlidText.unary UrlLib.refusing
    delegationConfig (userToken (str "read")) oneExchange _ _
    (decoded (handOn (str "a") (userToken (str "read"))).claims) (by decide +kernel)
    (by simp only [oneExchange, forall_mem_cons]
        exact ⟨by decide, fun _ none_ => nomatch none_⟩)
    (by simp only [oneExchange, forall_mem_cons]
        exact ⟨presenting_addsClaims _ _ _, fun _ none_ => nomatch none_⟩)
    rfl rfl (decodes_decoded (by decide +kernel))
  exact ⟨Option.some.inj (iff.mpr rfl).1, (iff.mpr rfl).2⟩

theorem principal_of_two_exchanges :
    @Links Token ExchangeCall
        (@Exchanges StdLib.refusing UlidText.unary UrlLib.refusing delegationConfig)
        (userToken (str "read")) (twoExchanges (str "read")) ∧
      @agentsOf UlidText.unary (twoExchanges (str "read")) = [str "agent:1", str "agent:11"] ∧
      ∃ call last, (twoExchanges (str "read")).getLast? = some (call, last) ∧
        Decodes last.claims (decoded last.claims) ∧
        (principalFromClaims (decoded last.claims)).actor = str "agent:1" ∧
        (principalFromClaims (decoded last.claims)).actorChain =
          [str "agent:1", str "agent:11"] := by
  refine ⟨by decide +kernel, by decide +kernel, _, _, rfl, decodes_decoded ?_, ?_, ?_⟩ <;>
    decide +kernel

end TheAuth.Mcp
