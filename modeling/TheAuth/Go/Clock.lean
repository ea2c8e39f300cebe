import Mathlib.Algebra.Group.Int.Defs
import Mathlib.Algebra.Group.Nat.Defs
import TheAuth.Go.Lib

/-!
# Times and durations as machine numbers

`time.Unix` wraps round, `Add` and `Sub` stop at the ends, and the operators on durations wrap
round: the absolute value of the smallest duration is negative.
-/

set_option autoImplicit false

namespace TheAuth.Go

open Int64

abbrev Duration := Int64

namespace Duration

def second : Duration := 1000000000

def abs (d : Duration) : Duration := if d < 0 then -d else d

end Duration

namespace Time

def nsPerSecond : Int := 1000000000

def maxSec : Int := 9223372036854775807

def ofUnix (sec : Int64) : Time := (sec.toInt + unixToInternal).bmod (2 ^ 64) * nsPerSecond

/-- Past an end the seconds stay there, and the nanoseconds are those of the sum. -/
def add (t : Time) (d : Duration) : Time :=
  let sum := t + d.toInt
  if maxSec < sum / nsPerSecond then maxSec * nsPerSecond + sum % nsPerSecond
  else if sum / nsPerSecond < -maxSec - 1 then -maxSec * nsPerSecond + sum % nsPerSecond
  else sum

/-- What is no duration becomes the largest or the smallest one. -/
def sub (t u : Time) : Duration :=
  if t - u < Int64.minValue.toInt then Int64.minValue
  else if Int64.maxValue.toInt < t - u then Int64.maxValue
  else Int64.ofInt (t - u)

theorem not_lt_of_le {deadline now later : Time} (le : now ≤ later) (reached : ¬now < deadline) :
    ¬later < deadline :=
  fun early => reached (Int.lt_of_le_of_lt le early)

variable {sec : Int64} {t : Time} {d : Duration}

theorem ofUnix_eq (small : sec.toInt + unixToInternal ≤ maxSec) :
    ofUnix sec = unix sec.toInt := by
  have low := sec.le_toInt
  unfold maxSec unixToInternal at small
  rw [ofUnix, unixToInternal, Int.bmod_eq_of_le (by omega) (by omega)]
  rfl

theorem le_ofUnix (sec : Int64) : (-maxSec - 1) * nsPerSecond ≤ ofUnix sec := by
  have low : -(2 ^ 64 : ℕ) / 2 ≤ (sec.toInt + unixToInternal).bmod (2 ^ 64) :=
    Int.le_bmod (by decide)
  exact Int.mul_le_mul_of_nonneg_right low (by decide)

theorem add_eq (low : -maxSec - 1 ≤ (t + d.toInt) / nsPerSecond)
    (high : (t + d.toInt) / nsPerSecond ≤ maxSec) : t.add d = t + d.toInt := by
  rw [add, if_neg (Int.not_lt.mpr high), if_neg (Int.not_lt.mpr low)]

theorem add_of_lt (high : maxSec < (t + d.toInt) / nsPerSecond) :
    t.add d = maxSec * nsPerSecond + (t + d.toInt) % nsPerSecond :=
  if_pos high

section

variable (old : (-maxSec - 1) * nsPerSecond ≤ t)
include old

theorem add_cases (nonneg : 0 ≤ d.toInt) :
    t.add d = t + d.toInt ∨ maxSec * nsPerSecond ≤ t.add d ∧ t.add d ≤ t + d.toInt := by
  by_cases high : maxSec < (t + d.toInt) / nsPerSecond
  · rw [add_of_lt high]
    unfold maxSec nsPerSecond at *
    refine .inr ⟨?_, ?_⟩ <;> change @LE.le Int _ _ _ <;> omega
  · refine .inl (add_eq ?_ (Int.not_lt.mp high))
    unfold maxSec nsPerSecond at *
    omega

theorem add_le (nonneg : 0 ≤ d.toInt) : t.add d ≤ t + d.toInt := by
  rcases add_cases old nonneg with sum | last
  · exact Int.le_of_eq sum
  · exact last.2

theorem not_add_lt {now later : Time} {short long : Duration} {late : Int}
    (nonneg : 0 ≤ short.toInt) (nonneg_late : 0 ≤ late) (longer : short.toInt + late ≤ long.toInt)
    (soon : later ≤ now + late) (shown : later < maxSec * nsPerSecond) (here : ¬t.add short < now) :
    ¬t.add long < later := by
  have upper := add_le old nonneg
  rcases @add_cases t long old (by omega) with _ | last
  · unfold Time at *
    omega
  · exact Int.not_lt.mpr (Int.le_trans (Int.le_of_lt shown) last.1)

end

theorem toInt_maxValue : maxValue.toInt = 9223372036854775807 := by decide

theorem toInt_minValue : minValue.toInt = -9223372036854775808 := by decide

theorem toInt_sub {u : Time} (low : minValue.toInt ≤ t - u)
    (high : t - u ≤ maxValue.toInt) : (t.sub u).toInt = t - u := by
  rw [sub, if_neg (Int.not_lt.mpr low), if_neg (Int.not_lt.mpr high)]
  exact toInt_ofInt_of_le low (Int.lt_add_one_of_le high)

theorem sub_of_lt {u : Time} (high : maxValue.toInt < t - u) :
    t.sub u = maxValue := by
  have low : ¬t - u < minValue.toInt := by
    exact fun small => absurd (Int.lt_trans high small) (by decide)
  rw [sub, if_neg low, if_pos high]

theorem toInt_add_le {a b : Duration} (nonneg : 0 ≤ a.toInt) :
    (a + b).toInt ≤ a.toInt + b.toInt := by
  have low := b.le_toInt
  rw [toInt_add, Int.bmod_def]
  split <;> omega

theorem toInt_abs (large : -9223372036854775808 < d.toInt) :
    (Duration.abs d).toInt = d.toInt.natAbs := by
  have zero : d < 0 ↔ d.toInt < 0 := lt_iff_toInt_lt
  unfold Duration.abs
  split
  next negative =>
    rw [zero] at negative
    rw [toInt_neg, Int.bmod_eq_of_le (by omega) (by omega)]
    omega
  rename_i nonneg
  rw [zero] at nonneg
  omega

theorem ofUnix_of_wraps (wraps : maxSec < sec.toInt + unixToInternal) :
    ofUnix sec < -9223372036854775808 := by
  have high := sec.toInt_lt
  unfold maxSec unixToInternal at wraps
  rw [ofUnix, unixToInternal, nsPerSecond, Int.bmod_def]
  change @LT.lt Int _ _ _
  split <;> omega

theorem sub_ofUnix_cases {now : Time} (ahead : unix sec.toInt - now < 9223372036854775808) :
    now.sub (ofUnix sec) = maxValue ∨ (now.sub (ofUnix sec)).toInt = now - unix sec.toInt := by
  by_cases wraps : maxSec < sec.toInt + unixToInternal
  · have past := ofUnix_of_wraps wraps
    refine .inl (sub_of_lt ?_)
    rw [toInt_maxValue]
    unfold unix maxSec unixToInternal Time at *
    omega
  · rw [ofUnix_eq (Int.not_lt.mp wraps)]
    by_cases high : maxValue.toInt < now - unix sec.toInt
    · exact .inl (sub_of_lt high)
    · refine .inr (toInt_sub ?_ (Int.not_lt.mp high))
      rw [toInt_minValue]
      unfold Time at *
      omega

/-- An age that passed its check is within the bound, unless the difference was cut. -/
theorem natAbs_sub_le_iff {now : Time} {age skew : Duration} (nonneg : 0 ≤ age.toInt)
    (within : ¬age + skew < Duration.abs (now.sub (ofUnix sec))) :
    ((now - unix sec.toInt).natAbs : Int) ≤ age.toInt + skew.toInt ↔
      (unix sec.toInt - now < 2 ^ 63 ∨ unix sec.toInt - now ≤ age.toInt + skew.toInt) ∧
        (age + skew = maxValue → now - unix sec.toInt ≤ age.toInt + skew.toInt) := by
  rw [lt_iff_toInt_lt, Int.not_lt] at within
  have sum : (age + skew).toInt ≤ age.toInt + skew.toInt := toInt_add_le nonneg
  constructor
  · intro close
    unfold Time at *
    exact ⟨.inr (by omega), fun _ => by omega⟩
  rintro ⟨ahead, behind⟩
  by_cases far : unix sec.toInt - now < 2 ^ 63
  · rcases sub_ofUnix_cases far with largest | exact_
    · -- then the sum is the largest duration
      have small : (Duration.abs maxValue).toInt = 9223372036854775807 := by decide
      have high := (age + skew).toInt_lt
      rw [largest] at within
      have back := behind (toInt_inj.mp (by rw [toInt_maxValue]; omega))
      unfold Time at *
      omega
    · rw [toInt_abs (by rw [exact_]; unfold Time at *; omega), exact_] at within
      exact Int.le_trans within sum
  · have close := ahead.resolve_left far
    unfold Time at *
    omega

end Time

end TheAuth.Go
