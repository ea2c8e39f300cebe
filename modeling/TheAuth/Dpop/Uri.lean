import TheAuth.Go.Url
import TheAuth.Go.Lib
import TheAuth.Library.Texts

/-!
# The target of a DPoP proof

A proof names the URL that it is for, and verifiers compare canonical forms. The form tells the
scheme, the host up to the default port and the decoded path, and not which bytes of it were
escaped.
-/

set_option autoImplicit false

namespace TheAuth.Dpop

open Go Library.Texts List

inductive UriError where
  | parse
  | notAbsolute (text : Bytes)
  deriving DecidableEq

def withoutDefaultPort (scheme host : Bytes) : Bytes :=
  if lowerASCII scheme = str "http" ∧ (str ":80").isSuffixOf host = true then
    host.take (host.length - 3)
  else if lowerASCII scheme = str "https" ∧ (str ":443").isSuffixOf host = true then
    host.take (host.length - 4)
  else host

def orRoot (path : Bytes) : Bytes := if path = [] then str "/" else path

def canonicalForm (p : Url.Parsed) : Bytes :=
  lowerASCII p.scheme ++ str "://" ++ withoutDefaultPort p.scheme p.host ++ orRoot p.path

section

variable [Url.HostLib]

def canonical (text rawURL : Bytes) : Except UriError Bytes :=
  match Url.parse rawURL with
  | none => .error .parse
  | some p =>
    if p.scheme = [] ∨ p.host = [] then .error (.notAbsolute text) else .ok (canonicalForm p)

def canonicalURI [StdLib] (rawURL : Bytes) : Except UriError Bytes :=
  canonical (str "dpop: htu must be absolute (got " ++ StdLib.quote rawURL ++ str ")") rawURL

def canonicalDPoPURI (rawURL : Bytes) : Except UriError Bytes :=
  canonical (str "mcpresource: htu must be absolute") rawURL

theorem canonical_eq_ok {text rawURL form : Bytes} (done : canonical text rawURL = .ok form) :
    ∃ p, Url.parse rawURL = some p ∧ p.Cut ∧ form = canonicalForm p := by
  unfold canonical at done
  split at done
  · cases done
  rename_i p parsed
  split at done <;> cases done
  rename_i absolute
  exact ⟨p, parsed, Url.cut_of_parse parsed fun none_ => absolute (.inr none_), rfl⟩

end

theorem withoutDefaultPort_subset (scheme host : Bytes) :
    withoutDefaultPort scheme host ⊆ host := by
  unfold withoutDefaultPort
  split
  · exact take_subset _ _
  split
  · exact take_subset _ _
  · exact fun _ inside => inside

theorem exists_orRoot {p : Url.Parsed} (parts : p.Cut) : ∃ tail, orRoot p.path = 0x2F :: tail := by
  rcases parts.path_cases with ⟨none_, -⟩ | ⟨slash, -⟩
  · rw [none_]
    exact ⟨[], rfl⟩
  · obtain ⟨tail, path⟩ := head?_eq_some_iff.mp slash
    rw [path]
    exact ⟨tail, rfl⟩

theorem canonicalForm_inj {p q : Url.Parsed} (parts : p.Cut) (parts' : q.Cut)
    (same : canonicalForm p = canonicalForm q) :
    p.scheme = q.scheme ∧
      withoutDefaultPort p.scheme p.host = withoutDefaultPort q.scheme q.host ∧
      orRoot p.path = orRoot q.path := by
  obtain ⟨_, root⟩ := exists_orRoot parts
  obtain ⟨_, root'⟩ := exists_orRoot parts'
  unfold canonicalForm at same
  rw [parts.lower, parts'.lower] at same
  simp only [append_assoc] at same
  obtain ⟨scheme, same⟩ := append_cons_inj parts.scheme parts'.scheme same
  have same := (cons.inj (cons.inj same).2).2
  rw [root, root'] at same ⊢
  obtain ⟨host, rest⟩ := append_cons_inj
    (fun inside => parts.host (withoutDefaultPort_subset _ _ inside))
    (fun inside => parts'.host (withoutDefaultPort_subset _ _ inside)) same
  exact ⟨scheme, host, by rw [rest]⟩

/-- The same scheme, host up to the default port and decoded path; the empty path is the root. Paths
without escapes are compared as written. -/
def SameTarget [Url.HostLib] (u v : Bytes) : Prop :=
  ∃ p q, Url.parse u = some p ∧ Url.parse v = some q ∧
    p.scheme = q.scheme ∧
    withoutDefaultPort p.scheme p.host = withoutDefaultPort q.scheme q.host ∧
    orRoot p.path = orRoot q.path ∧
    (0x25 ∉ p.escapedPath → 0x25 ∉ q.escapedPath → orRoot p.escapedPath = orRoot q.escapedPath)

theorem sameTarget_of_canonical [Url.HostLib] {text text' u v form : Bytes}
    (left : canonical text u = .ok form) (right : canonical text' v = .ok form) :
    SameTarget u v := by
  obtain ⟨p, parsed, parts, rfl⟩ := canonical_eq_ok left
  obtain ⟨q, parsed', parts', same⟩ := canonical_eq_ok right
  obtain ⟨scheme, host, path⟩ := canonicalForm_inj parts parts' same
  refine ⟨p, q, parsed, parsed', scheme, host, path, fun plain plain' => ?_⟩
  rw [← Url.unescape_of_notMem plain parts.decoded, ← Url.unescape_of_notMem plain' parts'.decoded]
  exact path

/-- **URLs that a verifier takes for the same have the same scheme, host and decoded path.** -/
theorem same_target_of_same_form [StdLib] [Url.HostLib] (u v form : Bytes)
    (same : canonicalURI u = .ok form ∧ canonicalURI v = .ok form ∨
      canonicalDPoPURI u = .ok form ∧ canonicalDPoPURI v = .ok form) : SameTarget u v := by
  rcases same with ⟨left, right⟩ | ⟨left, right⟩ <;> exact sameTarget_of_canonical left right

@[reducible]
def anyHost : Url.HostLib := ⟨fun _ _ => true⟩

attribute [local instance] anyHost StdLib.refusing

theorem default_port_same_target :
    SameTarget (str "https://a:443") (str "HTTPS://a/?q#f") := by
  exact same_target_of_same_form _ _ (str "https://a/") (.inl (by decide +kernel))

/-- An escaped slash and a slash have one form, and so have an empty path and the
root. -/
theorem escaped_slash_same_form :
    canonicalURI (str "https://a/x%2Fy") = canonicalURI (str "https://a/x/y") ∧
      canonicalDPoPURI (str "https://a/x%2Fy") = canonicalDPoPURI (str "https://a/x/y") ∧
      (Url.parse (str "https://a/x%2Fy")).map (·.escapedPath) = some (str "/x%2Fy") ∧
      (Url.parse (str "https://a/x/y")).map (·.escapedPath) = some (str "/x/y") ∧
      canonicalURI (str "https://a/x/y") = .ok (str "https://a/x/y") ∧
      canonicalURI (str "https://a") = canonicalURI (str "https://a/") := by
  refine ⟨?_, ?_, ?_, ?_, ?_, ?_⟩ <;> decide +kernel

end TheAuth.Dpop
