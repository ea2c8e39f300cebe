import TheAuth.Go.Decimal
import TheAuth.Server.Authorize

/-!
# Consent

The host approves some of the requested scopes, possibly until a time, denies, or decides on a page
of its own. The time travels as a suffix of the code and of the refresh tokens; it is one of whole
seconds, so that it is read back as it was written.
-/

set_option autoImplicit false

namespace TheAuth.Server

open Go Store Library.Result List

inductive ConsentAction where
  | approve | deny | interact
  | other (text : Bytes)
  deriving DecidableEq

/-- What a handler decides. -/
structure ConsentDecision where
  action : ConsentAction
  grantedScopes : List Bytes := []
  expiresAt : Time := 0
  maxTTL : Int := 0
  redirectToConsentURL : Bytes := []

inductive ConsentError where
  | handler (text : Bytes)
  | interactWhenCompleting | noScopes
  | notRequested (scope : Bytes)
  | pastExpiry | negativeTTL | tooShort
  | unknownAction (action : Bytes)
  | ticket (text : Bytes)

def consentDecisionInvalid (reason : Bytes) : Bytes :=
  str "theauth: consent decision invalid: " ++ reason

def ConsentError.text [StdLib] : ConsentError → Bytes
  | .handler text => str "consent handler: " ++ text
  | .interactWhenCompleting => consentDecisionInvalid (str "interact is not valid when completing")
  | .noScopes => consentDecisionInvalid (str "no scopes granted")
  | .notRequested scope =>
    consentDecisionInvalid (str "scope " ++ StdLib.quote scope ++ str " was not requested")
  | .pastExpiry => consentDecisionInvalid (str "expiry is in the past")
  | .negativeTTL => consentDecisionInvalid (str "negative ttl")
  | .tooShort => consentDecisionInvalid (str "expiry is too short")
  | .unknownAction action => consentDecisionInvalid (str "unknown action " ++ StdLib.quote action)
  | .ticket text => text

/-- What the handler answers. -/
structure ConsentAnswers where
  now : Time
  consentHandler : AuthorizeRequest → OAuthClient → User → List Bytes → Except Bytes ConsentDecision
  interactURL : Bytes → Except Bytes Bytes := fun target => .ok target
  burnTicket : Except Bytes Unit := .ok ()
  deniedURL : Bytes := []

def subsetScopes (granted requested : List Bytes) : Except ConsentError (List Bytes) := do
  refuseIf (granted = []) .noScopes
  granted.foldlM (fun out scope => do
    refuseIf (scope ∉ requested) (.notRequested scope)
    return if scope ∈ out then out else out ++ [scope]) []

def sooner (exp t : Time) : Time := if exp.isZero || decide (t < exp) then t else exp

def wholeSeconds (t : Time) : Time := t / 1000000000 * 1000000000

variable (maxGrantTTL : Int)

def earliestExpiry (dec : ConsentDecision) (now : Time) : Time :=
  let exp := if 0 < dec.maxTTL then sooner dec.expiresAt (now + dec.maxTTL) else dec.expiresAt
  if 0 < maxGrantTTL then sooner exp (now + maxGrantTTL) else exp

def clampGrantExpiry (dec : ConsentDecision) (now : Time) :
    Except ConsentError Time := do
  refuseIf (dec.expiresAt ≠ 0 ∧ dec.expiresAt ≤ now) .pastExpiry
  refuseIf (dec.maxTTL < 0) .negativeTTL
  let exp := earliestExpiry maxGrantTTL dec now
  if exp.isZero then return exp
  else
    refuseIf (wholeSeconds exp ≤ now) .tooShort
    return wholeSeconds exp

variable (resume : Option ConsentDecision) (a : ConsentAnswers)

def decisionOf (req : AuthorizeRequest) (client : OAuthClient) (user : User) (scope : List Bytes) :
    Except ConsentError ConsentDecision :=
  match resume with
  | some dec => if dec.action = .interact then .error .interactWhenCompleting else .ok dec
  | none => (a.consentHandler req client user scope).mapError .handler

def spendTicket : Except ConsentError Unit :=
  if resume.isSome then a.burnTicket.mapError .ticket else .ok ()

def consentStep (req : AuthorizeRequest) (client : OAuthClient) (user : User) (scope : List Bytes) :
    Except ConsentError ConsentOutcome := do
  let dec ← decisionOf resume a req client user scope
  match dec.action with
  | .deny =>
    spendTicket resume a
    return .redirect a.deniedURL
  | .interact =>
    let url ← (a.interactURL dec.redirectToConsentURL).mapError .ticket
    return .redirect url
  | .approve =>
    let granted ← subsetScopes dec.grantedScopes scope
    let exp ← clampGrantExpiry maxGrantTTL dec a.now
    spendTicket resume a
    return .granted granted exp
  | .other action => throw (.unknownAction action)

theorem subsetScopes_subset {granted requested out : List Bytes}
    (done : subsetScopes granted requested = .ok out) : out ⊆ requested := by
  obtain ⟨-, done⟩ := of_refuseIf done
  refine foldlM_invariant (fun _ out => out ⊆ requested) ?_ (nil_subset _) done
  intro _ _ _ _ kept added
  obtain ⟨listed, added⟩ := of_refuseIf added
  cases added
  split
  · exact kept
  · exact append_subset.mpr ⟨kept, by simpa using not_not.mp listed⟩

/-- No expiry, or a later time of whole seconds. -/
def UsableExpiry (now exp : Time) : Prop := exp = 0 ∨ now < exp ∧ Time.unix exp.toUnix = exp

theorem unix_toUnix_wholeSeconds (t : Time) :
    Time.unix (wholeSeconds t).toUnix = wholeSeconds t := by
  unfold Time.unix Time.toUnix wholeSeconds
  rw [Int.sub_add_cancel, Int.mul_ediv_cancel _ (by decide)]

theorem usable_of_clampGrantExpiry {maxGrantTTL : Int} {dec : ConsentDecision} {now exp : Time}
    (done : clampGrantExpiry maxGrantTTL dec now = .ok exp) : UsableExpiry now exp := by
  obtain ⟨-, done⟩ := of_refuseIf done
  obtain ⟨-, done⟩ := of_refuseIf done
  dsimp only at done
  split at done
  next zero =>
    cases done
    exact .inl (eq_of_beq zero)
  obtain ⟨later, done⟩ := of_refuseIf done
  cases done
  exact .inr ⟨Int.not_le.mp later, unix_toUnix_wholeSeconds _⟩

theorem granted_of_consentStep {maxGrantTTL : Int} {resume : Option ConsentDecision}
    {a : ConsentAnswers} {req : AuthorizeRequest} {client : OAuthClient} {user : User}
    {requested scope : List Bytes} {expiry : Time}
    (done : consentStep maxGrantTTL resume a req client user requested =
      .ok (.granted scope expiry)) :
    scope ⊆ requested ∧ UsableExpiry a.now expiry := by
  obtain ⟨_, -, done⟩ := of_bind done
  split at done
  · obtain ⟨-, done⟩ := unit_bind_eq_ok.mp done
    cases done
  · obtain ⟨_, -, done⟩ := of_bind done
    cases done
  · obtain ⟨_, subset, done⟩ := of_bind done
    obtain ⟨_, clamped, done⟩ := of_bind done
    obtain ⟨-, done⟩ := unit_bind_eq_ok.mp done
    cases done
    exact ⟨subsetScopes_subset subset, usable_of_clampGrantExpiry clamped⟩
  · cases done

theorem afterSeparator (tok : Bytes) {digits : Bytes} (plain : ∀ b ∈ digits, b ≠ grantExpirySep) :
    ((tok ++ [grantExpirySep] ++ digits).reverse.takeWhile (· != grantExpirySep)).reverse =
      digits := by
  rw [reverse_append, reverse_append, reverse_singleton, takeWhile_append_of_pos,
    singleton_append, takeWhile_cons_of_neg, append_nil, reverse_reverse]
  · simp
  · intro b inside
    exact bne_iff_ne.mpr (plain b (mem_reverse.mp inside))

theorem splitGrantExpiry_withGrantExpiry [StdLib] (reads : ReadsDecimals) (tok : Bytes) {exp : Time}
    (whole : Time.unix exp.toUnix = exp) (positive : 0 < exp.toUnix)
    (fits : exp.toUnix < 2 ^ 63) : splitGrantExpiry (withGrantExpiry tok exp) = exp := by
  have present : exp.isZero = false := by
    cases zero : exp.isZero with
    | false => rfl
    | true =>
      rw [eq_of_beq zero] at positive
      exact absurd positive (by decide)
  obtain ⟨_, same⟩ := Int.eq_ofNat_of_zero_le (Int.le_of_lt positive)
  have plain : ∀ b ∈ str (toString exp.toUnix), b ≠ grantExpirySep := by
    rw [same]
    rintro _ inside rfl
    exact absurd (digit_of_mem_decimal inside).2 (by decide)
  rw [withGrantExpiry, present, if_neg Bool.false_ne_true, splitGrantExpiry,
    afterSeparator tok plain, reads _ positive fits]
  simp [Int.not_le.mpr positive, whole]

end TheAuth.Server
