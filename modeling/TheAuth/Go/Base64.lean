import TheAuth.Go.Strings

/-!
# Base64 of URLs without padding

The decoder of `base64.RawURLEncoding`. It skips line breaks and ignores bits of the last digit that
stand for no byte, so several texts have one value.
-/

set_option autoImplicit false

namespace TheAuth.Go

def base64Value (c : UInt8) : Option UInt8 :=
  if 0x41 ≤ c ∧ c ≤ 0x5A then some (c - 0x41)
  else if 0x61 ≤ c ∧ c ≤ 0x7A then some (c - 0x61 + 26)
  else if 0x30 ≤ c ∧ c ≤ 0x39 then some (c - 0x30 + 52)
  else if c = 0x2D then some 62
  else if c = 0x5F then some 63
  else none

def base64Bytes : List UInt8 → Option Bytes
  | [] => some []
  | [_] => none
  | [a, b] => some [a <<< 2 ||| b >>> 4]
  | [a, b, c] => some [a <<< 2 ||| b >>> 4, b <<< 4 ||| c >>> 2]
  | a :: b :: c :: d :: rest =>
    (base64Bytes rest).map ([a <<< 2 ||| b >>> 4, b <<< 4 ||| c >>> 2, c <<< 6 ||| d] ++ ·)

def decodeRawURL (s : Bytes) : Option Bytes := do
  let digits ← (s.filter fun c => c != 0x0A && c != 0x0D).mapM base64Value
  base64Bytes digits

example : decodeRawURL (str "YW55Pz4") = some (str "any?>") := by decide

def splitByte (stop : UInt8) : Bytes → List Bytes
  | [] => [[]]
  | c :: rest =>
    if c = stop then [] :: splitByte stop rest
    else match splitByte stop rest with
    | [] => [[c]]
    | part :: parts => (c :: part) :: parts

end TheAuth.Go
