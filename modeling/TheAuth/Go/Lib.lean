import TheAuth.Go.Bytes

/-!
# Go's standard library

Nothing is assumed about these functions: a result over `StdLib` holds whatever they return.
-/

set_option autoImplicit false

namespace TheAuth.Go

/-- Nanoseconds since the first of January of year one in UTC. -/
abbrev Time := Int

namespace Time

def nsPerMinute : Int := 60 * 1000000000

variable (t : Time)

def isZero : Bool := t == 0

def hour : Int := t / (60 * nsPerMinute) % 24

def minute : Int := t / nsPerMinute % 60

def unixToInternal : Int := 62135596800

def unix (sec : Int) : Time := (sec + unixToInternal) * 1000000000

def toUnix : Int := t / 1000000000 - unixToInternal

def unixMicro : Int := t / 1000 - unixToInternal * 1000000

@[simp] theorem toUnix_unix (sec : Int) : (unix sec).toUnix = sec := by
  simp [unix, toUnix]

theorem toUnix_le_toUnix {first second : Time} (le : first ≤ second) :
    first.toUnix ≤ second.toUnix :=
  Int.sub_le_sub_right (Int.ediv_le_ediv (by decide) le) _

theorem unix_le_unix {first second : Int} (le : first ≤ second) : unix first ≤ unix second :=
  Int.mul_le_mul_of_nonneg_right (Int.add_le_add_right le _) (by decide)

end Time

/-- An error of the library is `none`; its text is never shown. -/
class StdLib where
  Addr : Type
  Prefix : Type
  parseAddr : Bytes → Option Addr
  unmap : Addr → Addr
  parsePrefix : Bytes → Option Prefix
  contains : Prefix → Addr → Bool
  timeParse : Bytes → Bytes → Option Time
  parseInt : Bytes → Option Int
  (trimSpace quote : Bytes → Bytes)

def rfc3339 : Bytes := str "2006-01-02T15:04:05Z07:00"

structure URL where
  scheme : Bytes
  hasUser : Bool
  (path fragment : Bytes)

/-- The parser of `net/url`. -/
class UrlLib where
  parseURL : Bytes → Option URL

class CaseLib where
  toLower : Bytes → Bytes

@[reducible]
def CaseLib.ascii : CaseLib where
  toLower s := s.map fun (c : UInt8) => if 0x41 ≤ c && c ≤ 0x5A then c + 0x20 else c

@[reducible]
def StdLib.refusing : StdLib where
  Addr := Unit
  Prefix := Unit
  parseAddr _ := none
  unmap := id
  parsePrefix _ := none
  contains _ _ := false
  timeParse _ _ := none
  parseInt _ := none
  trimSpace := id
  quote := id

@[reducible]
def UrlLib.refusing : UrlLib where
  parseURL _ := none

end TheAuth.Go
