import Mathlib.Algebra.Order.Ring.Int
import Mathlib.Tactic.Ring
import Mathlib.Tactic.Linarith

/-!
# Little-endian integers

The low bytes of an integer in two's complement, least significant byte first,
and the two readings of a row of bytes. An integer comes back from as many bytes
as its range needs.
-/
namespace Arthius.Lib.LittleEndian

def bytes : (width : ℕ) → ℤ → List UInt8
  | 0, _ => []
  | width + 1, z => UInt8.ofNat (z % 256).toNat :: bytes width (z / 256)

def unsigned : List UInt8 → ℕ
  | [] => 0
  | b :: rest => b.toNat + 256 * unsigned rest

/-- The reading of least absolute value, as two's complement has it. -/
def signed (bs : List UInt8) : ℤ := Int.bmod (unsigned bs) (256 ^ bs.length)

@[simp] theorem length_bytes (width : ℕ) (z : ℤ) : (bytes width z).length = width := by
  induction width generalizing z with
  | zero => rfl
  | succ width ih => simp [bytes, ih]

/-- Splitting off the lowest byte. -/
private theorem emod_succ (z : ℤ) (width : ℕ) :
    z % 256 ^ (width + 1) = z % 256 + 256 * (z / 256 % 256 ^ width) := by
  have outer := Int.emod_add_mul_ediv z 256
  have inner := Int.emod_add_mul_ediv (z / 256) (256 ^ width)
  have positive : (0 : ℤ) < 256 ^ width := by positivity
  have low := Int.emod_nonneg z (by decide : (256 : ℤ) ≠ 0)
  have high := Int.emod_lt_of_pos z (by decide : (0 : ℤ) < 256)
  have low' := Int.emod_nonneg (z / 256) positive.ne'
  have high' := Int.emod_lt_of_pos (z / 256) positive
  have split : z = (z % 256 + 256 * (z / 256 % 256 ^ width)) +
      256 ^ (width + 1) * (z / 256 / 256 ^ width) := by
    calc z = z % 256 + 256 * (z / 256) := outer.symm
      _ = z % 256 + 256 * (z / 256 % 256 ^ width + 256 ^ width * (z / 256 / 256 ^ width)) := by
        rw [inner]
      _ = _ := by ring
  conv_lhs => rw [split, Int.add_mul_emod_self_left]
  refine Int.emod_eq_of_lt (by omega) ?_
  rw [pow_succ]
  omega

theorem unsigned_bytes (width : ℕ) (z : ℤ) : (unsigned (bytes width z) : ℤ) = z % 256 ^ width := by
  induction width generalizing z with
  | zero => simp [bytes, unsigned]
  | succ width ih =>
    have low := Int.emod_nonneg z (by decide : (256 : ℤ) ≠ 0)
    have high := Int.emod_lt_of_pos z (by decide : (0 : ℤ) < 256)
    have byte : (z % 256).toNat < UInt8.size := by
      have size : UInt8.size = 256 := rfl
      omega
    rw [emod_succ, ← ih]
    simp only [bytes, unsigned, UInt8.toNat_ofNat_of_lt' byte]
    omega

/-- An integer within the range of so many bytes is read back from them. -/
theorem signed_bytes {width : ℕ} {z : ℤ} (low : -256 ^ width ≤ z * 2) (high : z * 2 < 256 ^ width) :
    signed (bytes width z) = z := by
  have modulus : ((256 ^ width : ℕ) : ℤ) = 256 ^ width := by norm_num
  rw [signed, length_bytes, unsigned_bytes, ← modulus, Int.emod_bmod]
  exact Int.bmod_eq_of_le_mul_two (by rw [modulus]; exact low) (by rw [modulus]; exact high)

/-- Rows of one length differ in value. -/
theorem unsigned_injective {as bs : List UInt8} (length : as.length = bs.length)
    (same : unsigned as = unsigned bs) : as = bs := by
  induction as generalizing bs with
  | nil => exact (List.length_eq_zero_iff.mp length.symm).symm
  | cons a rest ih =>
    cases bs with
    | nil => cases length
    | cons b rest' =>
      have byteA := a.toNat_lt
      have byteB := b.toNat_lt
      simp only [unsigned] at same
      have first : a = b := UInt8.toNat_inj.mp (by omega)
      rw [first, ih (Nat.succ.inj length) (by omega)]

end Arthius.Lib.LittleEndian
