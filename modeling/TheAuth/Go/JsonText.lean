import TheAuth.Go.Utf8

/-!
# Reading and writing JSON

The texts that the scanner of `encoding/json` accepts, as trees whose numbers are the literals of
the text, and the texts that the encoder writes. The reader counts down from twice the length of the
text, which no text uses up.
-/

set_option autoImplicit false

namespace TheAuth.Go

/-- A JSON text, as it is read. -/
inductive Json (ν : Type) where
  | null
  | bool (b : Bool)
  | num (n : ν)
  | str (s : Bytes)
  | arr (entries : List (Json ν))
  | obj (members : List (Bytes × Json ν))

/-- Where a number has been read to. -/
inductive NumState where
  | begin | neg | zero | digits | dot | dotDigits | exp | expSign | expDigits

def NumState.ends : NumState → Bool
  | .zero | .digits | .dotDigits | .expDigits => true
  | _ => false

variable (c : UInt8)

def isDigit : Bool := 0x30 ≤ c && c ≤ 0x39

def afterDigits : Option NumState :=
  if c = 0x2E then some .dot else if c = 0x65 || c = 0x45 then some .exp else none

def NumState.step (state : NumState) (c : UInt8) : Option NumState :=
  match state with
  | .begin => if c = 0x2D then some .neg else if c = 0x30 then some .zero
      else if isDigit c then some .digits else none
  | .neg => if c = 0x30 then some .zero else if isDigit c then some .digits else none
  | .zero => afterDigits c
  | .digits => if isDigit c then some .digits else afterDigits c
  | .dot => if isDigit c then some .dotDigits else none
  | .dotDigits => if isDigit c then some .dotDigits
      else if c = 0x65 || c = 0x45 then some .exp else none
  | .exp => if c = 0x2B || c = 0x2D then some .expSign
      else if isDigit c then some .expDigits else none
  | .expSign => if isDigit c then some .expDigits else none
  | .expDigits => if isDigit c then some .expDigits else none

def scanNumber (state : NumState) : Bytes → Option (Bytes × Bytes)
  | [] => if state.ends then some ([], []) else none
  | c :: rest =>
    match state.step c with
    | some next => (scanNumber next rest).map fun (literal, left) => (c :: literal, left)
    | none => if state.ends then some ([], c :: rest) else none

/-- The literal is a whole JSON number. -/
def isNumber (literal : Bytes) : Prop := scanNumber .begin literal = some (literal, [])

instance (literal : Bytes) : Decidable (isNumber literal) := inferInstanceAs (Decidable (_ = _))

def hexDigitValue : Option ℕ :=
  if isDigit c then some (c.toNat - 0x30)
  else if 0x61 ≤ c && c ≤ 0x66 then some (c.toNat - 0x57)
  else if 0x41 ≤ c && c ≤ 0x46 then some (c.toNat - 0x37)
  else none

def readU4 : Bytes → Option (ℕ × Bytes)
  | a :: b :: c :: d :: rest =>
    match hexDigitValue a, hexDigitValue b, hexDigitValue c, hexDigitValue d with
    | some a, some b, some c, some d => some (((a * 16 + b) * 16 + c) * 16 + d, rest)
    | _, _, _, _ => none
  | _ => none

def decodePair (high low : ℕ) : Option ℕ :=
  if 0xD800 ≤ high ∧ high < 0xDC00 ∧ 0xDC00 ≤ low ∧ low < 0xE000 then
    some ((high - 0xD800) * 0x400 + (low - 0xDC00) + 0x10000)
  else none

def replacement : ℕ := 0xFFFD

def readLow : Bytes → Option (ℕ × Bytes)
  | a :: b :: rest => if a = 0x5C ∧ b = 0x75 then readU4 rest else none
  | _ => none

def readSurrogate (high : ℕ) (rest : Bytes) : ℕ × Bytes :=
  match readLow rest with
  | none => (replacement, rest)
  | some (low, left) =>
    match decodePair high low with
    | some r => (r, left)
    | none => (replacement, rest)

def readEscape : Bytes → Option (ℕ × Bytes)
  | [] => none
  | c :: rest =>
    if c = 0x22 then some (0x22, rest)
    else if c = 0x5C then some (0x5C, rest)
    else if c = 0x2F then some (0x2F, rest)
    else if c = 0x62 then some (0x08, rest)
    else if c = 0x66 then some (0x0C, rest)
    else if c = 0x6E then some (0x0A, rest)
    else if c = 0x72 then some (0x0D, rest)
    else if c = 0x74 then some (0x09, rest)
    else if c = 0x75 then
      (readU4 rest).map fun (r, left) =>
        if 0xD800 ≤ r ∧ r < 0xE000 then readSurrogate r left else (r, left)
    else none

def readContent : ℕ → Bytes → Option (Bytes × Bytes)
  | 0, _ => none
  | _, [] => none
  | count + 1, c :: rest =>
    if c = 0x22 then some ([], rest)
    else if c = 0x5C then
      (readEscape rest).bind fun (r, left) =>
        (readContent count left).map fun (text, left) => (encodeRune r ++ text, left)
    else if c < 0x20 then none
    else match decodeRune (c :: rest) with
    | some (r, width) =>
      (readContent count ((c :: rest).drop width)).map fun (text, left) =>
        (encodeRune r ++ text, left)
    | none =>
      (readContent count rest).map fun (text, left) => (encodeRune replacement ++ text, left)

def readString (s : Bytes) : Option (Bytes × Bytes) := readContent (s.length + 1) s

def isSpace : Bool := c = 0x20 || c = 0x09 || c = 0x0A || c = 0x0D

def skipSpace (s : Bytes) : Bytes := s.dropWhile isSpace

def readName (name : Bytes) (value : Json Bytes) (s : Bytes) : Option (Json Bytes × Bytes) :=
  if name.isPrefixOf s then some (value, s.drop name.length) else none

mutual

def readValue : ℕ → Bytes → Option (Json Bytes × Bytes)
  | 0, _ => none
  | count + 1, s =>
    match skipSpace s with
    | [] => none
    | c :: rest =>
      if c = 0x7B then
        match skipSpace rest with
        | [] => none
        | d :: more =>
          if d = 0x7D then some (.obj [], more)
          else (readMembers count (d :: more)).map fun (members, left) => (.obj members, left)
      else if c = 0x5B then
        match skipSpace rest with
        | [] => none
        | d :: more =>
          if d = 0x5D then some (.arr [], more)
          else (readEntries count (d :: more)).map fun (entries, left) => (.arr entries, left)
      else if c = 0x22 then (readString rest).map fun (text, left) => (.str text, left)
      else if c = 0x74 then readName (str "true") (.bool true) (c :: rest)
      else if c = 0x66 then readName (str "false") (.bool false) (c :: rest)
      else if c = 0x6E then readName (str "null") .null (c :: rest)
      else (scanNumber .begin (c :: rest)).map fun (literal, left) => (.num literal, left)

def readEntries : ℕ → Bytes → Option (List (Json Bytes) × Bytes)
  | 0, _ => none
  | count + 1, s =>
    (readValue count s).bind fun (value, rest) =>
      match skipSpace rest with
      | [] => none
      | c :: more =>
        if c = 0x2C then
          (readEntries count more).map fun (entries, left) => (value :: entries, left)
        else if c = 0x5D then some ([value], more)
        else none

def readMembers : ℕ → Bytes → Option (List (Bytes × Json Bytes) × Bytes)
  | 0, _ => none
  | count + 1, s =>
    match skipSpace s with
    | [] => none
    | c :: rest =>
      if c = 0x22 then
        (readString rest).bind fun (name, rest) =>
          match skipSpace rest with
          | [] => none
          | c :: rest =>
            if c = 0x3A then
              (readValue count rest).bind fun (value, rest) =>
                match skipSpace rest with
                | [] => none
                | c :: more =>
                  if c = 0x2C then
                    (readMembers count more).map fun (members, left) =>
                      ((name, value) :: members, left)
                  else if c = 0x7D then some ([(name, value)], more)
                  else none
            else none
      else none

end

def readJson (s : Bytes) : Option (Json Bytes × Bytes) := readValue (2 * s.length + 1) s

mutual

def Json.write : Json Bytes → Bytes
  | .null => TheAuth.Go.str "null"
  | .bool b => if b then TheAuth.Go.str "true" else TheAuth.Go.str "false"
  | .num literal => literal
  | .str s => jsonString s
  | .arr entries => jsonArray (writeEntries entries)
  | .obj members => jsonObject (writeMembers members)

def writeEntries : List (Json Bytes) → List Bytes
  | [] => []
  | entry :: rest => entry.write :: writeEntries rest

def writeMembers : List (Bytes × Json Bytes) → List (Bytes × Bytes)
  | [] => []
  | (name, value) :: rest => (name, value.write) :: writeMembers rest

end

example : readJson (str "[ \x7b\"a<\\u00e9\":[1,-0.5e3 , true]\x7d] x") =
    some (.arr [.obj [([0x61, 0x3C, 0xC3, 0xA9], .arr [.num (str "1"),
        .num (str "-0.5e3"), .bool true])]],
      str " x") := by rfl

end TheAuth.Go
