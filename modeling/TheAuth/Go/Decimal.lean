import Mathlib.Algebra.Group.Int.Defs
import TheAuth.Go.Lib

/-!
# Decimal texts

`strconv.ParseInt` reads back what `strconv.FormatInt` writes: that is what the results that need it
assume of the library (`ReadsDecimals`).
-/

set_option autoImplicit false

namespace TheAuth.Go

open List UInt8

theorem str_ofList (chars : List Char) :
    str (String.ofList chars) = chars.flatMap String.utf8EncodeChar := by
  unfold str
  simp [utf8Encode]

def digitByte (c : Char) : UInt8 := UInt8.ofNat c.toNat

theorem toNat_of_isDigit {c : Char} (digit : c.isDigit = true) :
    0x30 ≤ c.toNat ∧ c.toNat ≤ 0x39 := by
  unfold Char.isDigit at digit
  rw [Bool.and_eq_true, decide_eq_true_iff, decide_eq_true_iff] at digit
  exact ⟨UInt32.le_iff_toNat_le.mp digit.1, UInt32.le_iff_toNat_le.mp digit.2⟩

theorem utf8EncodeChar_of_isDigit {c : Char} (digit : c.isDigit = true) :
    String.utf8EncodeChar c = [digitByte c] := by
  obtain ⟨-, le⟩ := toNat_of_isDigit digit
  have ascii : c.val.toNat ≤ 127 := Nat.le_trans le (by decide)
  simp only [String.utf8EncodeChar, if_pos ascii]
  rfl

theorem str_toString (n : ℕ) : str (toString (n : Int)) = (Nat.toDigits 10 n).map digitByte := by
  have text : toString (n : Int) = String.ofList (Nat.toDigits 10 n) := Nat.repr_eq_ofList_toDigits
  rw [text, str_ofList, map_eq_flatMap]
  refine flatMap_congr fun c inside => ?_
  exact utf8EncodeChar_of_isDigit (Nat.isDigit_of_mem_toDigits (by decide) (by decide) inside)

theorem digit_of_mem_decimal {n : ℕ} {b : UInt8} (inside : b ∈ str (toString (n : Int))) :
    0x30 ≤ b ∧ b ≤ 0x39 := by
  rw [str_toString] at inside
  obtain ⟨c, listed, rfl⟩ := mem_map.mp inside
  obtain ⟨least, most⟩ := toNat_of_isDigit
    (Nat.isDigit_of_mem_toDigits (by decide) (by decide) listed)
  have small : c.toNat % 2 ^ 8 = c.toNat := Nat.mod_eq_of_lt (Nat.lt_of_le_of_lt most (by decide))
  constructor
  · rw [le_iff_toNat_le, digitByte, toNat_ofNat', small]
    exact least
  · rw [le_iff_toNat_le, digitByte, toNat_ofNat', small]
    exact most

/-- What is documented of `strconv.ParseInt` on positive numbers of 64 bits. -/
def ReadsDecimals [StdLib] : Prop :=
  ∀ n : Int, 0 < n → n < 2 ^ 63 → StdLib.parseInt (str (toString n)) = some n


def decimalValue (s : Bytes) : Option Int :=
  if s.all fun b => 0x30 ≤ b && b ≤ 0x39 then
    some (Nat.ofDigitChars 10 (s.map fun b => Char.ofNat b.toNat) 0 : ℕ)
  else none

theorem decimalValue_toString (n : ℕ) :
    decimalValue (str (toString (n : Int))) = some (n : Int) := by
  have digits : (str (toString (n : Int))).all (fun b => 0x30 ≤ b && b ≤ 0x39) = true := by
    rw [all_eq_true]
    intro b inside
    obtain ⟨least, most⟩ := digit_of_mem_decimal inside
    rw [decide_eq_true least, decide_eq_true most]
    rfl
  rw [decimalValue, if_pos digits, str_toString, map_map]
  have same : (Nat.toDigits 10 n).map ((fun b : UInt8 => Char.ofNat b.toNat) ∘ digitByte) =
      Nat.toDigits 10 n := by
    refine (map_congr_left fun c listed => ?_).trans (map_id _)
    obtain ⟨-, most⟩ := toNat_of_isDigit
      (Nat.isDigit_of_mem_toDigits (by decide) (by decide) listed)
    have small : c.toNat % 2 ^ 8 = c.toNat := Nat.mod_eq_of_lt (Nat.lt_of_le_of_lt most (by decide))
    rw [Function.comp_apply, digitByte, toNat_ofNat', small]
    exact Char.ofNat_toNat c
  rw [same, Nat.ofDigitChars_ten_toDigits]

@[reducible]
def StdLib.decimal : StdLib := { StdLib.refusing with parseInt := decimalValue }

theorem readsDecimals_decimal : letI := StdLib.decimal; ReadsDecimals := by
  intro _ positive _
  obtain ⟨k, rfl⟩ := Int.eq_ofNat_of_zero_le (Int.le_of_lt positive)
  exact decimalValue_toString k

end TheAuth.Go
