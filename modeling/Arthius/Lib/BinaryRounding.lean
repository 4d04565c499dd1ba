import Mathlib.Algebra.Order.Field.Power
import Mathlib.Algebra.Order.Round
import Mathlib.Data.Int.Log
import Mathlib.Tactic.Linarith
import Mathlib.Tactic.Ring

/-!
# Rounding to binary floating point

Round to nearest, ties to even, into a format with a precision and a smallest
exponent. There is no largest exponent: a number that would overflow is rounded
as if it did not.
-/
namespace Arthius.Lib

variable {K : Type*} [Field K] [LinearOrder K] [IsStrictOrderedRing K] [FloorRing K]

/-- The nearest integer, the even one of two. -/
def roundEven (x : K) : ℤ := if Int.fract x = 1 / 2 ∧ Even ⌊x⌋ then ⌊x⌋ else round x

section Integer
variable (x : K)

theorem abs_sub_roundEven_le : |x - roundEven x| ≤ 1 / 2 := by
  unfold roundEven
  split_ifs with tie
  · rw [Int.self_sub_floor, tie.1, abs_of_pos one_half_pos]
  · exact abs_sub_round x

variable {x}

/-- An integer nearer than one half is the nearest one. -/
theorem roundEven_eq {n : ℤ} (near : |x - n| < 1 / 2) : roundEven x = n := by
  have apart : |((roundEven x : ℤ) : K) - (n : K)| < 1 := by
    have triangle := abs_sub_le ((roundEven x : ℤ) : K) x n
    rw [abs_sub_comm _ x] at triangle
    linarith [abs_sub_roundEven_le x]
  have integer : |roundEven x - n| < 1 := by exact_mod_cast apart
  exact sub_eq_zero.mp (Int.abs_lt_one_iff.mp integer)

@[simp] theorem roundEven_intCast (n : ℤ) : roundEven (n : K) = n :=
  roundEven_eq (by simp)

end Integer

/-- Numbers `n * 2 ^ e` with `|n| < 2 ^ precision` and `minExponent ≤ e`. -/
structure BinaryFormat where
  precision : ℤ
  minExponent : ℤ

namespace BinaryFormat
variable (format : BinaryFormat) (x : K)

/-- The exponent of the last place at a number. -/
def exponent : ℤ := max (Int.log 2 |x| + 1 - format.precision) format.minExponent

def round : K := roundEven (x / 2 ^ format.exponent x) * 2 ^ format.exponent x

@[simp] theorem round_zero : format.round (0 : K) = 0 := by
  have zero : roundEven (0 : K) = 0 := by exact_mod_cast roundEven_intCast (0 : ℤ)
  rw [round, zero_div, zero, Int.cast_zero, zero_mul]

/-- The error is at most half of the last place. -/
theorem abs_sub_round_le : |x - format.round x| ≤ 2 ^ format.exponent x / 2 := by
  have place : (0 : K) < 2 ^ format.exponent x := zpow_pos two_pos _
  have scaled : x - format.round x =
      (x / 2 ^ format.exponent x - roundEven (x / 2 ^ format.exponent x)) * 2 ^ format.exponent x := by
    rw [round, sub_mul, div_mul_cancel₀ _ place.ne']
  rw [scaled, abs_mul, abs_of_pos place]
  have bound := mul_le_mul_of_nonneg_right (abs_sub_roundEven_le (x / 2 ^ format.exponent x)) place.le
  linarith

/-- For a number of normal size this is relative to the number. -/
theorem abs_sub_round_le_mul (positive : 0 < |x|) (normal : format.minExponent ≤ Int.log 2 |x| + 1 - format.precision) :
    |x - format.round x| ≤ |x| * 2 ^ (-format.precision) := by
  have place : (2 : K) ^ format.exponent x / 2 = 2 ^ Int.log 2 |x| * 2 ^ (-format.precision) := by
    have shift : Int.log 2 |x| + 1 - format.precision = Int.log 2 |x| + -format.precision + 1 := by ring
    rw [exponent, max_eq_left normal, shift, zpow_add_one₀ two_ne_zero, zpow_add₀ two_ne_zero,
      mul_div_cancel_right₀ _ two_ne_zero]
  have leading : (2 : K) ^ Int.log 2 |x| ≤ |x| := by exact_mod_cast Int.zpow_log_le_self one_lt_two positive
  calc |x - format.round x| ≤ 2 ^ format.exponent x / 2 := format.abs_sub_round_le x
    _ = 2 ^ Int.log 2 |x| * 2 ^ (-format.precision) := place
    _ ≤ |x| * 2 ^ (-format.precision) := mul_le_mul_of_nonneg_right leading (zpow_pos two_pos _).le

variable {format x}

/-- A number of normal size has the exponent of its leading place. -/
theorem exponent_eq {k : ℤ} (above : 2 ^ k ≤ |x|) (below : |x| < 2 ^ (k + 1))
    (normal : format.minExponent ≤ k + 1 - format.precision) :
    format.exponent x = k + 1 - format.precision := by
  have positive : 0 < |x| := (zpow_pos two_pos k).trans_le above
  have lower : k ≤ Int.log 2 |x| := (Int.zpow_le_iff_le_log one_lt_two positive).mp (by exact_mod_cast above)
  have upper : Int.log 2 |x| < k + 1 := (Int.lt_zpow_iff_log_lt one_lt_two positive).mp (by exact_mod_cast below)
  have leading : Int.log 2 |x| = k := by omega
  rw [exponent, leading, max_eq_left normal]

/-- A number of the format that is nearer than half a place is the rounded one. -/
theorem round_eq {e n : ℤ} (place : format.exponent x = e) (near : |x - n * 2 ^ e| < 2 ^ e / 2) :
    format.round x = n * 2 ^ e := by
  have positive : (0 : K) < 2 ^ e := zpow_pos two_pos e
  have scaled : x / 2 ^ e - n = (x - n * 2 ^ e) / 2 ^ e := by
    rw [sub_div, mul_div_cancel_right₀ _ positive.ne']
  have closer : |x / 2 ^ e - n| < 1 / 2 := by
    rw [scaled, abs_div, abs_of_pos positive, div_lt_iff₀ positive]
    linarith
  rw [round, place, roundEven_eq closer]

/-- The same, with the leading place given. -/
theorem round_eq_of_leading {k e n : ℤ} (place : e = k + 1 - format.precision) (normal : format.minExponent ≤ e)
    (above : 2 ^ k ≤ |x|) (below : |x| < 2 ^ (k + 1)) (near : |x - n * 2 ^ e| < 2 ^ e / 2) :
    format.round x = n * 2 ^ e := by
  subst place
  exact round_eq (exponent_eq above below normal) near

/-- Numbers whose last place is not below that of the format are kept. -/
theorem round_of_le {e n : ℤ} (is : x = n * 2 ^ e) (coarse : format.exponent x ≤ e) : format.round x = x := by
  obtain ⟨j, rfl⟩ := Int.le.dest coarse
  have split : x = ((n * 2 ^ j : ℤ) : K) * 2 ^ format.exponent x := by
    nth_rewrite 1 [is]
    rw [zpow_add₀ two_ne_zero, zpow_natCast]
    push_cast
    ring
  refine (round_eq rfl ?_).trans split.symm
  rw [← split, sub_self, abs_zero]
  exact half_pos (zpow_pos two_pos _)

/-- Whole numbers of at most `precision` digits are kept. -/
theorem round_natCast {n : ℕ} (small : (n : K) < 2 ^ format.precision) (fine : format.minExponent ≤ 0) :
    format.round (n : K) = n := by
  by_cases zero : n = 0
  · rw [zero, Nat.cast_zero, round_zero]
  · have positive : 0 < |(n : K)| := abs_pos.mpr (Nat.cast_ne_zero.mpr zero)
    rw [← Nat.abs_cast n] at small
    have log := (Int.lt_zpow_iff_log_lt one_lt_two positive).mp (by exact_mod_cast small)
    have whole : (n : K) = (n : ℤ) * 2 ^ (0 : ℤ) := by rw [zpow_zero, mul_one, Int.cast_natCast]
    exact round_of_le whole (max_le (by omega) fine)

end BinaryFormat

def binary32 : BinaryFormat := ⟨24, -149⟩
def binary64 : BinaryFormat := ⟨53, -1074⟩

end Arthius.Lib
