import TheAuth.Go.Strings
import TheAuth.Server.Model

/-!
# Protected resources

Two compatibility settings let a request name no resource, when there is only one, or a path below
one.
-/

set_option autoImplicit false

namespace TheAuth.Server

open Go List

/-- A resource and its scopes. -/
structure ProtectedResource where
  identifier : Bytes
  scopes : List Bytes

structure ResourceConfig where
  resources : List ProtectedResource
  (optionalResource pathAudience : Bool := false)

namespace ResourceConfig

def resourceByIdentifier (cfg : ResourceConfig) (id : Bytes) : Option ProtectedResource :=
  cfg.resources.find? fun r => trimRightSlash r.identifier == trimRightSlash id

def isPathChild [UrlLib] (configured requested : Bytes) : Bool :=
  let base := trimRightSlash configured
  if base = [] || !(base ++ str "/").isPrefixOf requested then false
  else if requested.any fun c => c == 0x3F || c == 0x23 || c == 0x5C then false
  else if [str "%2e", str "%2f", str "%5c"].any (containsText (lowerASCII requested)) then false
  else match UrlLib.parseURL requested with
  | none => false
  | some u =>
    !u.hasUser && (u.path.splitOn 0x2F).all fun seg => !(seg == str "." || seg == str "..")

def keepLonger (best : Option ProtectedResource) (r : ProtectedResource) :
    Option ProtectedResource :=
  match best with
  | none => some r
  | some b => if b.identifier.length < r.identifier.length then some r else some b

def resolveResource [UrlLib] (cfg : ResourceConfig) (raw : Bytes) :
    Option (ProtectedResource × Bytes) :=
  if raw = [] then
    match cfg.optionalResource, cfg.resources with
    | true, [r] => some (r, r.identifier)
    | _, _ => none
  else match cfg.resourceByIdentifier raw with
  | some r => some (r, raw)
  | none =>
    if cfg.pathAudience then
      ((cfg.resources.filter fun r => isPathChild r.identifier raw).foldl keepLonger none).map
        fun best => (best, best.identifier)
    else none

/-- Up to the slashes it ends with. -/
def Names (cfg : ResourceConfig) (audience : Bytes) (r : ProtectedResource) : Prop :=
  r ∈ cfg.resources ∧ trimRightSlash r.identifier = trimRightSlash audience

variable {cfg : ResourceConfig} {r : ProtectedResource}

theorem names_of_resourceByIdentifier {id : Bytes}
    (found : cfg.resourceByIdentifier id = some r) : cfg.Names id r := by
  have named := find?_some found
  exact ⟨mem_of_find?_eq_some found, eq_of_beq named⟩

theorem exists_resourceByIdentifier
    (listed : r ∈ cfg.resources) : ∃ other, cfg.resourceByIdentifier r.identifier = some other :=
  Option.isSome_iff_exists.mp (find?_isSome.mpr ⟨r, listed, beq_self_eq_true _⟩)

theorem mem_of_foldl_keepLonger {resources : List ProtectedResource}
    {best : Option ProtectedResource}
    (found : resources.foldl keepLonger best = some r) : r ∈ resources ∨ best = some r := by
  induction resources generalizing best with
  | nil => exact .inr found
  | cons _ _ ih =>
    rcases ih found with later | now
    · exact .inl (mem_cons_of_mem _ later)
    · unfold keepLonger at now
      split at now
      · cases now
        exact .inl mem_cons_self
      split at now
      · cases now
        exact .inl mem_cons_self
      · exact .inr now

theorem identifier_ne_nil_of_isPathChild [UrlLib] {configured requested : Bytes}
    (child : isPathChild configured requested = true) : configured ≠ [] := by
  rintro rfl
  cases child

theorem resolveResource_eq_some [UrlLib] {raw audience : Bytes}
    (resolved : cfg.resolveResource raw = some (r, audience)) :
    cfg.Names audience r ∧ ∃ other, cfg.resolveResource audience = some (other, audience) := by
  -- the audience is an identifier, or what the request says
  have again : ∀ {r : ProtectedResource}, r ∈ cfg.resources → r.identifier ≠ [] →
      ∃ other, cfg.resolveResource r.identifier = some (other, r.identifier) := by
    intro r listed named
    obtain ⟨other, found⟩ := exists_resourceByIdentifier listed
    exact ⟨other, by rw [resolveResource, if_neg named, found]⟩
  have asked := resolved
  unfold resolveResource at resolved
  split at resolved
  next empty =>
    split at resolved
    next r _ single =>
      cases resolved
      have listed : r ∈ cfg.resources := by rw [single]; exact mem_singleton_self r
      refine ⟨⟨listed, rfl⟩, ?_⟩
      by_cases unnamed : r.identifier = []
      · rw [unnamed, ← empty]
        exact ⟨r, by rw [asked, unnamed, empty]⟩
      · exact again listed unnamed
    · cases resolved
  split at resolved
  next found =>
    cases resolved
    exact ⟨names_of_resourceByIdentifier found, r, asked⟩
  split at resolved
  · obtain ⟨_, chosen, same⟩ := Option.map_eq_some_iff.mp resolved
    cases same
    have inside := (mem_of_foldl_keepLonger chosen).resolve_right nofun
    obtain ⟨listed, child⟩ := mem_filter.mp inside
    exact ⟨⟨listed, rfl⟩, again listed (identifier_ne_nil_of_isPathChild child)⟩
  · cases resolved

end ResourceConfig

end TheAuth.Server
