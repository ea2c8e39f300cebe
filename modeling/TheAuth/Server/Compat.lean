import TheAuth.Server.Authorize

/-!
# What the compatibility flags relax

The flags of resources accept more and change nothing that was accepted. Dropping unknown scopes
looks at the scopes of the client too, which the strict check does not.
-/

set_option autoImplicit false

namespace TheAuth.Server

open Go List

abbrev AuthorizeConfig.dropping (cfg : AuthorizeConfig) (drops : Bool) : AuthorizeConfig :=
  { cfg with dropUnknownScopes := drops }

section

variable {cfg : AuthorizeConfig} {client : OAuthClient} {requested scopes : List Bytes}
  {target : ProtectedResource}

theorem narrowResourceScopes_dropping
    (registered : ∀ scope ∈ requested, inScopeSet (fields client.scope) scope = true)
    (strict : (cfg.dropping false).narrowResourceScopes requested target client = .ok scopes) :
    (cfg.dropping true).narrowResourceScopes requested target client = .ok scopes := by
  change validateScopeAgainstResource requested target = .ok scopes at strict
  unfold validateScopeAgainstResource at strict
  split_ifs at strict with asked known
  cases strict
  have all : (requested.filter fun scope => inScopeSet target.scopes scope &&
      inScopeSet (fields client.scope) scope) = requested := by
    refine filter_eq_self.mpr fun scope inside => ?_
    rw [registered scope inside, Bool.and_true, inScopeSet, Bool.or_eq_true, List.isEmpty_iff]
    exact known.imp_right fun listed => all_eq_true.mp listed scope inside
  rw [AuthorizeConfig.narrowResourceScopes, if_neg (by simpa using asked), all]
  exact if_neg asked

theorem narrowScopes_dropping
    (registered : ∀ scope ∈ requested, (cfg.oidc = true ∧ isOIDCScope scope = true) ∨
      inScopeSet (fields client.scope) scope = true)
    (strict : (cfg.dropping false).narrowScopes requested target client = .ok scopes) :
    (cfg.dropping true).narrowScopes requested target client = .ok scopes := by
  unfold AuthorizeConfig.narrowScopes at strict ⊢
  dsimp only at strict ⊢
  split at strict
  next standard =>
    rw [if_pos standard]
    split at strict
    next alone => rwa [if_pos alone]
    next more =>
      rw [if_neg more]
      cases narrowed : (cfg.dropping false).narrowResourceScopes
          (requested.filter fun scope => !isOIDCScope scope) target client with
      | error =>
        rw [narrowed] at strict
        cases strict
      | ok =>
        rw [narrowed] at strict
        rwa [narrowResourceScopes_dropping (fun scope inside => ?_) narrowed]
        obtain ⟨asked, other⟩ := mem_filter.mp inside
        exact (registered scope asked).resolve_left fun both => by simp [both.2] at other
  next other =>
    rw [if_neg other]
    refine narrowResourceScopes_dropping (fun scope inside => ?_) strict
    refine (registered scope inside).resolve_left fun both => other ⟨both.1, ?_⟩
    exact ne_nil_of_mem (mem_filter.mpr ⟨inside, both.2⟩)

end

/-- **The flags relax the checks of resources and, for the scopes that a client is registered for,
of scopes.** -/
theorem compat_flags_relax [UrlLib] (cfg : AuthorizeConfig) (client : OAuthClient)
    (resources : List ProtectedResource) (raw : Bytes) (optional path : Bool)
    (requested : List Bytes) (target : ProtectedResource) :
    (∀ found, ResourceConfig.resolveResource ⟨resources, false, false⟩ raw = some found →
      ResourceConfig.resolveResource ⟨resources, optional, path⟩ raw = some found) ∧
    ((∀ scope ∈ requested, (cfg.oidc = true ∧ isOIDCScope scope = true) ∨
        inScopeSet (fields client.scope) scope = true) →
      ∀ scopes, (cfg.dropping false).narrowScopes requested target client = .ok scopes →
        (cfg.dropping true).narrowScopes requested target client = .ok scopes) := by
  refine ⟨fun found strict => ?_, fun registered _ => narrowScopes_dropping registered⟩
  unfold ResourceConfig.resolveResource ResourceConfig.resourceByIdentifier at strict ⊢
  dsimp only at strict ⊢
  split at strict
  · cases strict
  rename_i named
  rw [if_neg named]
  split at strict
  · exact strict
  · cases strict

theorem compat_flags_relax_read :
    let read : ProtectedResource := ⟨str "r", [str "read", str "write"]⟩
    let cfg : AuthorizeConfig := { resources := ⟨[read], false, false⟩, authorizationCodeTTL := 1 }
    let client : OAuthClient := { clientID := str "c", scope := str "read" }
    @ResourceConfig.resolveResource UrlLib.refusing ⟨[read], true, true⟩ (str "r") =
        some (read, str "r") ∧
      (cfg.dropping true).narrowScopes [str "read"] read client = .ok [str "read"] := by
  intro read cfg client
  have relaxed := @compat_flags_relax UrlLib.refusing cfg client [read] (str "r") true true
    [str "read"] read
  exact ⟨relaxed.1 _ rfl, relaxed.2 (by decide +kernel) _ rfl⟩

theorem dropping_loses_granted_scope :
    let cfg : AuthorizeConfig := { resources := ⟨[], false, false⟩, authorizationCodeTTL := 1 }
    let client : OAuthClient := { clientID := str "c", scope := str "read" }
    let asked := [str "read", str "write"]
    (cfg.dropping false).narrowScopes asked ⟨str "r", asked⟩ client = .ok asked ∧
      (cfg.dropping true).narrowScopes asked ⟨str "r", asked⟩ client = .ok [str "read"] := by
  exact ⟨rfl, rfl⟩

end TheAuth.Server
