import TheAuth.Go.Lib

/-!
# The address of a client

Behind a trusted proxy the forwarded entries are read from the right, because each proxy appends
the address it was called from. The walk ends at the first entry that is not a trusted proxy.
-/

set_option autoImplicit false

namespace TheAuth.Http

open Go

class NetLib [StdLib] where
  /-- The host of `net.SplitHostPort`. -/
  splitHostPort : Bytes → Option Bytes
  string : StdLib.Addr → Bytes

/-- A request and its headers. -/
structure Forwarded where
  remoteAddr : Bytes
  /-- The values of `http.Header`, by the name of the header. -/
  values : Bytes → List Bytes

section

variable [StdLib]

/-- The entries of one line of the header. -/
def lineHops (line : Bytes) : List Bytes :=
  ((line.splitOn 0x2C).map StdLib.trimSpace).filter fun p => p ≠ []

def hops (r : Forwarded) : List Bytes := (r.values (str "X-Forwarded-For")).flatMap lineHops

/-- The lines `after`, and `tail` of the line before them, where an entry begins, are the last
text of the header. -/
def EndsIn (lines : List Bytes) (tail : Bytes) (after : List Bytes) : Prop :=
  ∃ before line, lines = before ++ line :: after ∧
    (line = tail ∨ ∃ left, line = left ++ 0x2C :: tail)

/-- The text of the entry that `tail` begins with. -/
def firstEntry (tail : Bytes) : Bytes := StdLib.trimSpace (tail.takeWhile (· ≠ 0x2C))

theorem lineHops_comma (left right : Bytes) :
    lineHops (left ++ 0x2C :: right) = lineHops left ++ lineHops right := by
  simp only [lineHops, List.splitOn_append_cons_self, List.map_append, List.filter_append]

theorem lineHops_first {tail : Bytes} (entry : firstEntry tail ≠ []) :
    ∃ right, lineHops tail = firstEntry tail :: right := by
  have noComma : (0x2C : UInt8) ∉ tail.takeWhile (· ≠ 0x2C) := fun inside => by
    simpa using List.all_eq_true.mp List.all_takeWhile _ inside
  have alone : lineHops (tail.takeWhile (· ≠ 0x2C)) = [firstEntry tail] := by
    rw [lineHops, List.splitOn_eq_singleton noComma]
    simpa [firstEntry] using entry
  have whole : tail.takeWhile (· ≠ 0x2C) ++ tail.dropWhile (· ≠ 0x2C) = tail :=
    List.takeWhile_append_dropWhile
  cases rest : tail.dropWhile (· ≠ 0x2C) with
  | nil =>
    rw [rest, List.append_nil] at whole
    exact ⟨[], by rw [whole] at alone; exact alone⟩
  | cons b right =>
    have comma : b = 0x2C := by
      have kept := List.head?_dropWhile_not (fun b : UInt8 => b ≠ 0x2C) tail
      rw [rest] at kept
      simpa using kept
    rw [rest, comma] at whole
    refine ⟨lineHops right, ?_⟩
    rw [← whole, lineHops_comma, whole, alone]
    rfl

theorem hops_endsIn {tail : Bytes} (entry : firstEntry tail ≠ []) (after : List Bytes) :
    ∃ right, ∀ r, EndsIn (r.values (str "X-Forwarded-For")) tail after →
      ∃ left, hops r = left ++ firstEntry tail :: right := by
  obtain ⟨right, here⟩ := lineHops_first entry
  refine ⟨right ++ after.flatMap lineHops, ?_⟩
  rintro r ⟨before, line, lines, rfl | ⟨left, rfl⟩⟩
  · exact ⟨before.flatMap lineHops, by simp [hops, lines, here]⟩
  · exact ⟨before.flatMap lineHops ++ lineHops left, by simp [hops, lines, lineHops_comma, here]⟩

variable [NetLib] {trusted : List StdLib.Prefix} {r r' : Forwarded}

def remoteAddrHost (r : Forwarded) : Bytes := (NetLib.splitHostPort r.remoteAddr).getD r.remoteAddr

def prefixesContain (trusted : List StdLib.Prefix) (addr : StdLib.Addr) : Bool :=
  trusted.any fun p => StdLib.contains p addr

def remoteIsTrusted (ipLiteral : Bytes) (trusted : List StdLib.Prefix) : Bool :=
  (StdLib.parseAddr ipLiteral).any fun addr => trusted.any fun p => StdLib.contains p addr

/-- The entries from the right. -/
def walk (trusted : List StdLib.Prefix) (remoteHost : Bytes) : List Bytes → Bytes
  | [] => remoteHost
  | hop :: left =>
    match StdLib.parseAddr hop with
    | none => remoteHost
    | some addr =>
      if !prefixesContain trusted (StdLib.unmap addr) || left.isEmpty then
        NetLib.string (StdLib.unmap addr)
      else walk trusted remoteHost left

def clientIP (r : Forwarded) (trusted : List StdLib.Prefix) : Bytes :=
  if trusted = [] || !remoteIsTrusted (remoteAddrHost r) trusted then remoteAddrHost r
  else walk trusted (remoteAddrHost r) (hops r).reverse

/-- An entry that is no address at all is no proxy either. -/
def TrustedProxy (trusted : List StdLib.Prefix) (entry : Bytes) : Prop :=
  ∃ addr, StdLib.parseAddr entry = some addr ∧ prefixesContain trusted (StdLib.unmap addr) = true

theorem walk_append {entry : Bytes} (stranger : ¬ TrustedProxy trusted entry)
    (host : Bytes) (right left left' : List Bytes) :
    walk trusted host (right ++ entry :: left) = walk trusted host (right ++ entry :: left') := by
  induction right with
  | nil =>
    simp only [List.nil_append, walk]
    split
    · rfl
    · next addr parsed =>
      have outside : prefixesContain trusted (StdLib.unmap addr) = false :=
        Bool.eq_false_iff.mpr fun inside => stranger ⟨addr, parsed, inside⟩
      rw [outside]
      rfl
  | cons hop right ih =>
    -- An entry stands left of `hop` in both, so neither walk takes it for the leftmost one.
    have more : ∀ left, (right ++ entry :: left).isEmpty = false := fun left => by simp
    simp only [List.cons_append, walk, ih, more]

/-- **What stands left of an entry that is no trusted proxy does not matter, and nothing that is
forwarded does when the peer is not trusted.** -/
theorem clientIP_ignores_what_the_client_wrote (peer : r.remoteAddr = r'.remoteAddr) :
    (remoteIsTrusted (remoteAddrHost r) trusted = false →
      clientIP r trusted = clientIP r' trusted) ∧
    ∀ tail after, EndsIn (r.values (str "X-Forwarded-For")) tail after →
      EndsIn (r'.values (str "X-Forwarded-For")) tail after → firstEntry tail ≠ [] →
      ¬ TrustedProxy trusted (firstEntry tail) → clientIP r trusted = clientIP r' trusted := by
  have host : remoteAddrHost r = remoteAddrHost r' := by rw [remoteAddrHost, remoteAddrHost, peer]
  constructor
  · intro stranger
    rw [clientIP, clientIP, ← host, stranger]
    simp
  · intro tail after here there entry stranger
    obtain ⟨right, ends⟩ := hops_endsIn entry after
    obtain ⟨left, here⟩ := ends r here
    obtain ⟨left', there⟩ := ends r' there
    have walked := walk_append stranger (remoteAddrHost r) right.reverse left.reverse left'.reverse
    rw [clientIP, clientIP, here, there, ← host]
    simp [walked]

end

@[reducible]
def literal : StdLib :=
  { StdLib.refusing with
    Addr := Bytes, Prefix := Bytes, parseAddr := some, unmap := id, parsePrefix := some
    contains := (· == ·) }

attribute [local instance] literal

theorem clientIP_ignores_forged_entry :
    letI : NetLib := ⟨some, id⟩
    let sent lines : Forwarded := ⟨str "proxy", fun _ => lines⟩
    clientIP (sent [str "forged,client", str "proxy"]) [str "proxy"] = str "client" ∧
      clientIP (sent [str "forged,client", str "proxy"]) [str "proxy"] =
        clientIP (sent [str "client", str "proxy"]) [str "proxy"] := by
  let : NetLib := ⟨some, id⟩
  intro sent
  have peer : (sent [str "forged,client", str "proxy"]).remoteAddr =
      (sent [str "client", str "proxy"]).remoteAddr := rfl
  refine ⟨by decide, (clientIP_ignores_what_the_client_wrote peer).2 (str "client") [str "proxy"]
    ⟨[], _, rfl, .inr ⟨str "forged", rfl⟩⟩ ⟨[], _, rfl, .inl rfl⟩ (by decide) ?_⟩
  rintro ⟨_, parsed, inside⟩
  cases parsed
  exact absurd inside (by decide)

end TheAuth.Http
