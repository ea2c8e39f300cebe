import TheAuth.Go.Bytes

/-!
# SHA-256

Nothing in the development depends on more than the length of the digest; the definition is here so
that proofs about hash trees can be run on concrete trees.
-/

set_option autoImplicit false

namespace TheAuth.Go

namespace Sha256

def roundConstants : List UInt32 :=
  [0x428a2f98, 0x71374491, 0xb5c0fbcf, 0xe9b5dba5, 0x3956c25b, 0x59f111f1, 0x923f82a4, 0xab1c5ed5,
   0xd807aa98, 0x12835b01, 0x243185be, 0x550c7dc3, 0x72be5d74, 0x80deb1fe, 0x9bdc06a7, 0xc19bf174,
   0xe49b69c1, 0xefbe4786, 0x0fc19dc6, 0x240ca1cc, 0x2de92c6f, 0x4a7484aa, 0x5cb0a9dc, 0x76f988da,
   0x983e5152, 0xa831c66d, 0xb00327c8, 0xbf597fc7, 0xc6e00bf3, 0xd5a79147, 0x06ca6351, 0x14292967,
   0x27b70a85, 0x2e1b2138, 0x4d2c6dfc, 0x53380d13, 0x650a7354, 0x766a0abb, 0x81c2c92e, 0x92722c85,
   0xa2bfe8a1, 0xa81a664b, 0xc24b8b70, 0xc76c51a3, 0xd192e819, 0xd6990624, 0xf40e3585, 0x106aa070,
   0x19a4c116, 0x1e376c08, 0x2748774c, 0x34b0bcb5, 0x391c0cb3, 0x4ed8aa4a, 0x5b9cca4f, 0x682e6ff3,
   0x748f82ee, 0x78a5636f, 0x84c87814, 0x8cc70208, 0x90befffa, 0xa4506ceb, 0xbef9a3f7, 0xc67178f2]

structure State where
  (a b c d e f g h : UInt32)

def initial : State :=
  ⟨0x6a09e667, 0xbb67ae85, 0x3c6ef372, 0xa54ff53a, 0x510e527f, 0x9b05688c, 0x1f83d9ab, 0x5be0cd19⟩

def rotateRight (x : UInt32) (n : UInt32) : UInt32 := (x >>> n) ||| (x <<< (32 - n))

def smallSigma0 (x : UInt32) : UInt32 := rotateRight x 7 ^^^ rotateRight x 18 ^^^ (x >>> 3)

def smallSigma1 (x : UInt32) : UInt32 := rotateRight x 17 ^^^ rotateRight x 19 ^^^ (x >>> 10)

def bigSigma0 (x : UInt32) : UInt32 := rotateRight x 2 ^^^ rotateRight x 13 ^^^ rotateRight x 22

def bigSigma1 (x : UInt32) : UInt32 := rotateRight x 6 ^^^ rotateRight x 11 ^^^ rotateRight x 25

variable (st : State)

def round (w k : UInt32) : State :=
  let t1 := st.h + bigSigma1 st.e + ((st.e &&& st.f) ^^^ (~~~st.e &&& st.g)) + k + w
  let t2 := bigSigma0 st.a + ((st.a &&& st.b) ^^^ (st.a &&& st.c) ^^^ (st.b &&& st.c))
  ⟨t1 + t2, st.a, st.b, st.c, st.d + t1, st.e, st.f, st.g⟩

def rounds : List UInt32 → List UInt32 → State → State
  | k :: constants, w :: window, st =>
    let next := smallSigma1 (window.getD 13 0) + window.getD 8 0 + smallSigma0 (window.getD 0 0) + w
    rounds constants (window ++ [next]) (round st w k)
  | _, _, st => st

def State.add (x y : State) : State :=
  ⟨x.a + y.a, x.b + y.b, x.c + y.c, x.d + y.d, x.e + y.e, x.f + y.f, x.g + y.g, x.h + y.h⟩

def toWords : Bytes → List UInt32
  | p :: q :: r :: s :: rest =>
    (p.toUInt32 <<< 24 ||| q.toUInt32 <<< 16 ||| r.toUInt32 <<< 8 ||| s.toUInt32) :: toWords rest
  | _ => []

def compress (block : Bytes) : State := (rounds roundConstants (toWords block) st).add st

def blocks : Nat → Bytes → State → State
  | 0, _, st => st
  | count + 1, message, st => blocks count (message.drop 64) (compress st (message.take 64))

def wordBytes (w : UInt32) : Bytes :=
  [(w >>> 24).toUInt8, (w >>> 16).toUInt8, (w >>> 8).toUInt8, w.toUInt8]

def State.bytes : Bytes :=
  wordBytes st.a ++ wordBytes st.b ++ wordBytes st.c ++ wordBytes st.d ++
    wordBytes st.e ++ wordBytes st.f ++ wordBytes st.g ++ wordBytes st.h

def pad (message : Bytes) : Bytes :=
  let bits := message.length * 8
  let zeros : Bytes := List.replicate ((119 - message.length % 64) % 64) 0
  let size : Bytes := [56, 48, 40, 32, 24, 16, 8, 0].map fun shift => UInt8.ofNat (bits >>> shift)
  message ++ [0x80] ++ zeros ++ size

end Sha256

def sha256Size : Nat := 32

def sum256 (message : Bytes) : Bytes :=
  let padded := Sha256.pad message
  (Sha256.blocks (padded.length / 64) padded Sha256.initial).bytes

@[simp] theorem length_sum256 (message : Bytes) : (sum256 message).length = sha256Size := by
  simp [sum256, Sha256.State.bytes, Sha256.wordBytes, sha256Size]

example : sum256 (str "abc") =
    [0xba, 0x78, 0x16, 0xbf, 0x8f, 0x01, 0xcf, 0xea, 0x41, 0x41, 0x40, 0xde, 0x5d, 0xae, 0x22, 0x23,
     0xb0, 0x03, 0x61, 0xa3, 0x96, 0x17, 0x7a, 0x9c, 0xb4, 0x10, 0xff, 0x61, 0xf2, 0x00, 0x15,
     0xad] := by
  decide +kernel

def hmac256 (key message : Bytes) : Bytes :=
  let short := if 64 < key.length then sum256 key else key
  let block := short ++ List.replicate (64 - short.length) 0
  sum256 (block.map (· ^^^ 0x5c) ++ sum256 (block.map (· ^^^ 0x36) ++ message))

example : hmac256 (str "Jefe") (str "what do ya want for nothing?") =
    [0x5b, 0xdc, 0xc1, 0x46, 0xbf, 0x60, 0x75, 0x4e, 0x6a, 0x04, 0x24, 0x26, 0x08, 0x95, 0x75, 0xc7,
     0x5a, 0x00, 0x3f, 0x08, 0x9d, 0x27, 0x39, 0x83, 0x9d, 0xec, 0x58, 0xb9, 0x64, 0xec, 0x38,
     0x43] := by
  decide +kernel

end TheAuth.Go
