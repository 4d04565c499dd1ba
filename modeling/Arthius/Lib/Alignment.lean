import Mathlib.Data.Nat.Bitwise
import Mathlib.Data.Nat.ModEq
import Mathlib.Tactic.Common

/-!
# Padding to a power of two

The distance from a number up to the next multiple of a power of two, as machine
words compute it: the two's complement of the number, masked.
-/
namespace Arthius.Lib

/-- `(~n + 1) & (size - 1)` on 64-bit words. -/
def alignSize (n size : ℕ) : ℕ := (((~~~ UInt64.ofNat n) + 1) &&& (UInt64.ofNat size - 1)).toNat

/-- The mask keeps the negation modulo the power of two. -/
theorem alignSize_two_pow (n : ℕ) {k : ℕ} (small : k < 64) :
    alignSize n (2 ^ k) = (2 ^ 64 - n % 2 ^ 64) % 2 ^ k := by
  have below : 2 ^ k < 2 ^ 64 := Nat.pow_lt_pow_right (by decide) small
  have divides : 2 ^ k ∣ 2 ^ 64 := Nat.pow_dvd_pow 2 small.le
  have mask : (UInt64.ofNat (2 ^ k) - 1).toNat = 2 ^ k - 1 := by
    rw [UInt64.toNat_sub_of_le _ _ (by
      rw [UInt64.le_iff_toNat_le, UInt64.toNat_ofNat_of_lt' below]
      exact Nat.two_pow_pos k)]
    rw [UInt64.toNat_ofNat_of_lt' below]
    rfl
  have negation : (~~~ UInt64.ofNat n) + 1 = -UInt64.ofNat n := by
    apply UInt64.toBitVec_inj.mp
    simp [BitVec.neg_eq_not_add]
  rw [alignSize, UInt64.toNat_and, mask, negation, UInt64.toNat_neg, UInt64.toNat_ofNat',
    Nat.and_two_pow_sub_one_eq_mod, show UInt64.size = 2 ^ 64 from rfl,
    Nat.mod_mod_of_dvd _ divides]

theorem alignSize_lt (n : ℕ) {k : ℕ} (small : k < 64) : alignSize n (2 ^ k) < 2 ^ k := by
  rw [alignSize_two_pow n small]
  exact Nat.mod_lt _ (Nat.two_pow_pos k)

theorem dvd_add_alignSize (n : ℕ) {k : ℕ} (small : k < 64) :
    2 ^ k ∣ n + alignSize n (2 ^ k) := by
  have whole : n + (2 ^ 64 - n % 2 ^ 64) = 2 ^ 64 * (n / 2 ^ 64 + 1) := by
    have split := Nat.mod_add_div n (2 ^ 64)
    have low := Nat.mod_lt n (by decide : 2 ^ 64 > 0)
    omega
  have multiple : 2 ^ k ∣ n + (2 ^ 64 - n % 2 ^ 64) :=
    whole ▸ Dvd.dvd.mul_right (Nat.pow_dvd_pow 2 small.le) _
  rw [alignSize_two_pow n small, Nat.dvd_iff_mod_eq_zero, Nat.add_mod_mod]
  exact Nat.mod_eq_zero_of_dvd multiple

/-- Nothing is added where the number is aligned already. -/
theorem alignSize_eq_zero {n k : ℕ} (small : k < 64) (aligned : 2 ^ k ∣ n) :
    alignSize n (2 ^ k) = 0 := by
  have whole := dvd_add_alignSize n small
  have pad := (Nat.dvd_add_right aligned).mp whole
  exact Nat.eq_zero_of_dvd_of_lt pad (alignSize_lt n small)

end Arthius.Lib
