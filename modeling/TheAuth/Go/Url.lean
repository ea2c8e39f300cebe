import Mathlib.Data.FinEnum
import Mathlib.Data.List.TakeWhile
import TheAuth.Go.Strings

/-!
# The parser of `net/url`

`url.Parse` cuts a text into a scheme, an authority and a path, and decodes percent escapes. The
checks on the brackets, addresses and ports of a host differ between releases of the library and are
a parameter.
-/

set_option autoImplicit false

namespace TheAuth.Go.Url

open List Option UInt8

inductive Encoding where
  | path | host | zone | userPassword | fragment

variable (c : UInt8)

def ishex : Bool := (0x30 ≤ c && c ≤ 0x39) || (0x61 ≤ c && c ≤ 0x66) || (0x41 ≤ c && c ≤ 0x46)

def unhex : UInt8 :=
  if c ≤ 0x39 then c - 0x30 else if 0x61 ≤ c then c - 0x61 + 10 else c - 0x41 + 10

def alphanumeric : Bool :=
  (0x61 ≤ c && c ≤ 0x7A) || (0x41 ≤ c && c ≤ 0x5A) || (0x30 ≤ c && c ≤ 0x39)

def shouldEscapeInHost : Bool := !(alphanumeric c || (str "!$&'()*+,;=:[]<>\"-_.~").contains c)

def escaped (a b : UInt8) : UInt8 := unhex a <<< 4 ||| unhex b

/-- A host has escapes of non-ASCII bytes and of the percent sign, a zone those of a space and of
what it may have as such. -/
def escapeAllowed (mode : Encoding) (a b : UInt8) : Bool :=
  ishex a && ishex b &&
    match mode with
    | .host => 8 ≤ unhex a || (a == 0x32 && b == 0x35)
    | .zone => (a == 0x32 && b == 0x35) || escaped a b == 0x20 || !shouldEscapeInHost (escaped a b)
    | _ => true

def literalAllowed (mode : Encoding) (c : UInt8) : Bool :=
  match mode with
  | .host | .zone => 0x80 ≤ c || !shouldEscapeInHost c
  | _ => true

def unescape (mode : Encoding) : Bytes → Option Bytes
  | [] => some []
  | c :: rest =>
    if c = 0x25 then
      match rest with
      | a :: b :: rest =>
        if escapeAllowed mode a b then (unescape mode rest).map (escaped a b :: ·) else none
      | _ => none
    else if literalAllowed mode c then (unescape mode rest).map (c :: ·)
    else none

def cut (stop : UInt8) (s : Bytes) : Bytes × Bytes :=
  (s.takeWhile (· != stop), (s.dropWhile (· != stop)).tail)

def schemeByte : Bool := alphanumeric c || c == 0x2B || c == 0x2D || c == 0x2E

def getScheme (rawURL : Bytes) : Option (Bytes × Bytes) :=
  match rawURL.takeWhile schemeByte, rawURL.dropWhile schemeByte with
  | [], 0x3A :: _ => none
  | first :: more, 0x3A :: rest =>
    if alphanumeric first && !(0x30 ≤ first && first ≤ 0x39) then some (first :: more, rest)
    else some ([], rawURL)
  | _, _ => some ([], rawURL)

/-- The checks of a release on the host of a URL with a scheme. -/
class HostLib where
  validHost : Bytes → Bytes → Bool

def splitBefore (text : Bytes) : Bytes → Option (Bytes × Bytes)
  | [] => none
  | c :: rest =>
    if text.isPrefixOf (c :: rest) then some ([], c :: rest)
    else (splitBefore text rest).map fun (before, found) => (c :: before, found)

def splitLast (stop : UInt8) (s : Bytes) : Bytes × Bytes :=
  let after := (s.reverse.takeWhile (· != stop)).reverse
  (s.take (s.length - after.length - 1), s.drop (s.length - after.length - 1))

def parseHost [HostLib] (scheme host : Bytes) : Option Bytes :=
  if HostLib.validHost scheme host = false then none
  else
    let (inner, close) := splitLast 0x5D host
    match host.head?, splitBefore (str "%25") inner with
    | some 0x5B, some (address, zone) => do
      let one ← unescape .host address
      let two ← unescape .zone zone
      let three ← unescape .host close
      return one ++ two ++ three
    | _, _ => unescape .host host

def validUserinfo (s : Bytes) : Bool :=
  s.all fun c => alphanumeric c || (str "-._:~!$&'()*+,;=%@").contains c

def checkUser (authority host : Bytes) : Option Unit :=
  if authority.contains 0x40 = false then some ()
  else
    let userinfo := authority.take (authority.length - host.length - 1)
    if validUserinfo userinfo = false then none
    else do
      let _ ← unescape .userPassword (cut 0x3A userinfo).1
      let _ ← unescape .userPassword (cut 0x3A userinfo).2
      return ()

def hostText (authority : Bytes) : Bytes := (authority.reverse.takeWhile (· != 0x40)).reverse

def parseAuthority [HostLib] (scheme authority : Bytes) : Option Bytes := do
  let host ← parseHost scheme (hostText authority)
  let _ ← checkUser authority (hostText authority)
  return host

/-- An URL that was read. -/
structure Parsed where
  (scheme host path escapedPath : Bytes)

def setPath (scheme host rest : Bytes) : Option Parsed :=
  (unescape .path rest).map fun path => ⟨scheme, host, path, rest⟩

def parseRest [HostLib] (scheme rest : Bytes) : Option Parsed :=
  if (str "//").isPrefixOf rest && (scheme != [] || !(str "///").isPrefixOf rest) then do
    let authority := (rest.drop 2).takeWhile (· != 0x2F)
    let host ← parseAuthority scheme authority
    setPath scheme host ((rest.drop 2).dropWhile (· != 0x2F))
  else setPath scheme [] rest

def parseURL [HostLib] (rawURL : Bytes) : Option Parsed :=
  if rawURL.any fun c => c < 0x20 || c == 0x7F then none
  else if rawURL = str "*" then some ⟨[], [], str "*", str "*"⟩
  else do
    let (name, rest) ← getScheme rawURL
    let scheme := lowerASCII name
    let rest := (cut 0x3F rest).1
    if rest.head? ≠ some 0x2F ∧ scheme ≠ [] then
      -- an opaque URL
      return ⟨scheme, [], [], []⟩
    else if rest.head? ≠ some 0x2F ∧ (cut 0x2F rest).1.contains 0x3A then none
    else parseRest scheme rest

def parse [HostLib] (rawURL : Bytes) : Option Parsed := do
  let (u, fragment) := cut 0x23 rawURL
  let url ← parseURL u
  let _ ← unescape .fragment fragment
  return url

variable {mode : Encoding}

theorem unescape_of_notMem {s t : Bytes} (plain : 0x25 ∉ s)
    (decoded : unescape mode s = some t) : t = s := by
  fun_induction unescape mode s generalizing t with
  | case1 => exact (some.inj decoded).symm
  | case2 | case3 | case4 => exact absurd mem_cons_self plain
  | case5 _ _ _ _ ih =>
    obtain ⟨_, inner, rfl⟩ := map_eq_some_iff.mp decoded
    rw [ih (fun later => plain (.tail _ later)) inner]
  | case6 => cases decoded

theorem unhex_lt : ∀ c : UInt8, ishex c = true → (unhex c).toNat < 16 := by decide +kernel

theorem le_escaped {a b : UInt8} (hex : ishex a = true) (high : 8 ≤ unhex a) :
    0x80 ≤ escaped a b := by
  have low := unhex_lt a hex
  rw [le_iff_toNat_le] at high ⊢
  rw [escaped, UInt8.toNat_or, UInt8.toNat_shiftLeft]
  refine Nat.le_trans ?_ Nat.left_le_or
  simp only [reduceToNat] at high ⊢
  rw [Nat.shiftLeft_eq, show 2 ^ (4 % 8) = 16 from rfl]
  omega

theorem escaped_ne_slash {a b : UInt8} (host : mode = .host ∨ mode = .zone)
    (allowed : escapeAllowed mode a b = true) : escaped a b ≠ 0x2F := by
  intro slash
  rcases host with rfl | rfl
  · simp only [escapeAllowed, Bool.and_eq_true, Bool.or_eq_true, decide_eq_true_eq,
      beq_iff_eq] at allowed
    rcases allowed.2 with high | ⟨rfl, rfl⟩
    · exact absurd (slash ▸ le_escaped allowed.1.1 high) (by decide)
    · exact absurd slash (by decide)
  · simp only [escapeAllowed, slash, Bool.and_eq_true, Bool.or_eq_true, beq_iff_eq] at allowed
    rcases allowed.2 with (⟨rfl, rfl⟩ | space) | literal
    · exact absurd slash (by decide)
    · exact absurd space (by decide)
    · exact absurd literal (by decide)

theorem literalAllowed_slash (host : mode = .host ∨ mode = .zone) :
    literalAllowed mode 0x2F = false := by
  rcases host with rfl | rfl <;> decide

theorem slash_notMem_unescape {s t : Bytes}
    (host : mode = .host ∨ mode = .zone) (decoded : unescape mode s = some t) : 0x2F ∉ t := by
  fun_induction unescape mode s generalizing t with
  | case1 =>
    cases decoded
    exact not_mem_nil
  | case2 _ _ _ allowed ih =>
    obtain ⟨_, inner, rfl⟩ := map_eq_some_iff.mp decoded
    intro inside
    rcases mem_cons.mp inside with slash | later
    · exact escaped_ne_slash host allowed slash.symm
    · exact ih inner later
  | case3 | case4 => cases decoded
  | case5 _ _ _ allowed ih =>
    obtain ⟨_, inner, rfl⟩ := map_eq_some_iff.mp decoded
    intro inside
    rcases mem_cons.mp inside with rfl | later
    · exact absurd (literalAllowed_slash host ▸ allowed) Bool.false_ne_true
    · exact ih inner later
  | case6 => cases decoded

variable {host scheme rawURL rest : Bytes} {p : Parsed}

theorem setPath_eq_some (here : setPath scheme host rest = some p) :
    p.scheme = scheme ∧ p.host = host ∧ p.escapedPath = rest ∧
      unescape .path rest = some p.path := by
  obtain ⟨_, decoded, rfl⟩ := map_eq_some_iff.mp here
  exact ⟨rfl, rfl, rfl, decoded⟩

variable [HostLib]

theorem slash_notMem_parseHost {parsed : Bytes}
    (here : parseHost scheme host = some parsed) : 0x2F ∉ parsed := by
  unfold parseHost at here
  split at here
  · cases here
  split at here
  next =>
    split at here
    next =>
      obtain ⟨_, first, here⟩ := bind_eq_some_iff.mp here
      obtain ⟨_, second, here⟩ := bind_eq_some_iff.mp here
      obtain ⟨_, third, here⟩ := bind_eq_some_iff.mp here
      cases here
      simp only [mem_append, not_or]
      exact ⟨⟨slash_notMem_unescape (.inl rfl) first, slash_notMem_unescape (.inr rfl) second⟩,
        slash_notMem_unescape (.inl rfl) third⟩
    · exact slash_notMem_unescape (.inl rfl) here

theorem slash_notMem_parseAuthority {authority : Bytes}
    (here : parseAuthority scheme authority = some host) : 0x2F ∉ host := by
  obtain ⟨_, read, here⟩ := bind_eq_some_iff.mp here
  obtain ⟨-, -, here⟩ := bind_eq_some_iff.mp here
  cases here
  exact slash_notMem_parseHost read

section

omit [HostLib]

theorem schemeByte_of_getScheme {name : Bytes}
    (here : getScheme rawURL = some (name, rest)) : ∀ c ∈ name, schemeByte c = true := by
  unfold getScheme at here
  split at here
  · cases here
  next same _ =>
    split at here
    · cases here
      exact fun c inside => mem_takeWhile_imp (same ▸ inside)
    cases here
    exact nofun
  cases here
  exact nofun

theorem lowerASCII_lowerASCII (s : Bytes) : lowerASCII (lowerASCII s) = lowerASCII s := by
  have twice : ∀ c : UInt8, lowerASCII (lowerASCII [c]) = lowerASCII [c] := by decide +kernel
  induction s with
  | nil => rfl
  | cons c _ ih =>
    have first := twice c
    simp only [lowerASCII, map_cons] at first ih ⊢
    rw [ih, (cons.inj first).1]

theorem lower_schemeByte :
    ∀ c : UInt8, schemeByte c = true → (if 0x41 ≤ c ∧ c ≤ 0x5A then c + 0x20 else c) ≠ 0x3A := by
  decide +kernel

theorem colon_notMem_scheme {name : Bytes}
    (here : getScheme rawURL = some (name, rest)) : 0x3A ∉ lowerASCII name := by
  intro inside
  obtain ⟨c, member, lower⟩ := mem_map.mp inside
  exact lower_schemeByte c (schemeByte_of_getScheme here c member) lower

end

/-- An URL whose parts are cut where the reader cuts them. -/
structure Parsed.Cut (p : Parsed) : Prop where
  lower : lowerASCII p.scheme = p.scheme
  scheme : 0x3A ∉ p.scheme
  host : 0x2F ∉ p.host
  decoded : unescape .path p.escapedPath = some p.path
  path : p.escapedPath = [] ∨ p.escapedPath.head? = some 0x2F

theorem cut_of_parseRest (lower : lowerASCII scheme = scheme) (colon : 0x3A ∉ scheme)
    (here : parseRest scheme rest = some p) (host : p.host ≠ []) : p.Cut := by
  unfold parseRest at here
  split at here
  · obtain ⟨_, read, here⟩ := bind_eq_some_iff.mp here
    obtain ⟨rfl, rfl, written, decoded⟩ := setPath_eq_some here
    refine ⟨lower, colon, slash_notMem_parseAuthority read, written ▸ decoded, ?_⟩
    rw [written]
    cases tail : (rest.drop 2).dropWhile (· != 0x2F) with
    | nil => exact .inl rfl
    | cons =>
      have stop := head?_dropWhile_not (· != 0x2F) (rest.drop 2)
      rw [tail] at stop
      refine .inr (congrArg some ?_)
      simpa using stop
  · exact absurd (setPath_eq_some here).2.1 host

theorem cut_of_parseURL (here : parseURL rawURL = some p) (host : p.host ≠ []) : p.Cut := by
  unfold parseURL at here
  split at here
  · cases here
  split at here
  · cases here
    exact absurd rfl host
  obtain ⟨⟨name, _⟩, found, here⟩ := bind_eq_some_iff.mp here
  have colon := colon_notMem_scheme found
  dsimp only at here
  split at here
  · cases here
    exact absurd rfl host
  split at here
  · cases here
  · exact cut_of_parseRest (lowerASCII_lowerASCII name) colon here host

theorem cut_of_parse (here : parse rawURL = some p) (host : p.host ≠ []) : p.Cut := by
  obtain ⟨_, read, here⟩ := bind_eq_some_iff.mp here
  obtain ⟨-, -, here⟩ := bind_eq_some_iff.mp here
  cases here
  exact cut_of_parseURL read host

omit [HostLib] in
theorem Parsed.Cut.path_cases (parts : p.Cut) :
    p.path = [] ∧ p.escapedPath = [] ∨
      p.path.head? = some 0x2F ∧ p.escapedPath.head? = some 0x2F := by
  rcases parts.path with none_ | slash
  · have decoded := parts.decoded
    rw [none_] at decoded
    exact .inl ⟨(some.inj decoded).symm, none_⟩
  · refine .inr ⟨?_, slash⟩
    obtain ⟨_, written⟩ := head?_eq_some_iff.mp slash
    have decoded := parts.decoded
    rw [written, unescape.eq_def] at decoded
    obtain ⟨_, -, same⟩ := map_eq_some_iff.mp decoded
    rw [← same]
    rfl

end TheAuth.Go.Url
