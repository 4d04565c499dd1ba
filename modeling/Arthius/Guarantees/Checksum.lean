import Mathlib.Algebra.BigOperators.Group.List.Basic
import Mathlib.Data.Nat.ModEq
import Arthius.Source.DataCompression

/-!
# The checksum

The loop of `adler32` reduces its two sums at every byte. They never overflow, and are
the sum of the bytes and the sum of the sums of its beginnings, modulo the prime. So
no change of a single byte goes unnoticed, and no exchange of two neighbours.
-/
namespace Arthius.Guarantees.Checksum
open Arthius.Source.DataCompression

/-- One more than the sum of the bytes. -/
def byteSum (data : List UInt8) : ℕ := 1 + (data.map UInt8.toNat).sum

/-- The sum of the byte sums of the beginnings of the data, the empty one left out. -/
def prefixSum (data : List UInt8) : ℕ :=
  ((List.range data.length).map fun i => byteSum (data.take (i + 1))).sum

section Sums
variable (front back data : List UInt8) (a b : UInt8)

theorem byteSum_concat : byteSum (data ++ [b]) = byteSum data + b.toNat := by
  simp [byteSum, Nat.add_assoc]

theorem byteSum_append : byteSum (front ++ back) = byteSum front + (back.map UInt8.toNat).sum := by
  simp [byteSum, Nat.add_assoc]

theorem prefixSum_concat : prefixSum (data ++ [b]) = prefixSum data + byteSum (data ++ [b]) := by
  have before : ∀ i ∈ List.range data.length,
      byteSum ((data ++ [b]).take (i + 1)) = byteSum (data.take (i + 1)) := by
    intro i member
    rw [List.take_append_of_le_length (List.mem_range.mp member)]
  have whole : (data ++ [b]).take (data.length + 1) = data ++ [b] := List.take_of_length_le (by simp)
  rw [prefixSum, List.length_append, List.length_singleton, List.range_succ, List.map_append,
    List.sum_append, List.map_congr_left before, List.map_singleton, List.sum_singleton, whole]
  rfl

/-- Two neighbours count with weights that differ by one. -/
theorem prefixSum_swap :
    prefixSum (front ++ a :: b :: back) + b.toNat = prefixSum (front ++ b :: a :: back) + a.toNat := by
  induction back using List.reverseRecOn with
  | nil =>
    have split : ∀ c d : UInt8, front ++ [c, d] = front ++ [c] ++ [d] := by simp
    simp only [split, prefixSum_concat, byteSum_concat]
    omega
  | append_singleton back last ih =>
    have same : byteSum (front ++ a :: b :: back) = byteSum (front ++ b :: a :: back) := by
      simp only [byteSum_append, List.map_cons, List.sum_cons]
      omega
    have split : ∀ c d : UInt8, front ++ c :: d :: (back ++ [last]) = front ++ c :: d :: back ++ [last] := by
      simp
    simp only [split, prefixSum_concat, byteSum_concat]
    omega

end Sums

theorem prime_toNat : prime.toNat = 65521 := rfl

/-- The reduction by the guarded remainder. -/
theorem reduce_toNat (s : UInt32) : (if s ≥ prime then s % prime else s).toNat = s.toNat % 65521 := by
  split
  · rw [UInt32.toNat_mod, prime_toNat]
  · next small =>
    have below : s.toNat < 65521 := by simpa [UInt32.le_iff_toNat_le, prime_toNat] using small
    exact (Nat.mod_eq_of_lt below).symm

theorem plus_eq {a b : UInt32} (fits : a.toNat + b.toNat < 2 ^ 32) :
    ∃ sum, plus a b = some sum ∧ sum.toNat = a.toNat + b.toNat := by
  refine ⟨a + b, if_pos fits, ?_⟩
  rw [UInt32.toNat_add, Nat.mod_eq_of_lt fits]

/-- A byte never overflows sums that have been reduced. -/
theorem adlerStep_eq {s1 s2 : UInt32} (low1 : s1.toNat < 65521) (low2 : s2.toNat < 65521) (byte : UInt8) :
    ∃ t1 t2, adlerStep (s1, s2) byte = some (t1, t2) ∧
      t1.toNat = (s1.toNat + byte.toNat) % 65521 ∧
      t2.toNat = (s2.toNat + (s1.toNat + byte.toNat)) % 65521 := by
  have small : byte.toUInt32.toNat < 256 := by simpa using byte.toNat_lt
  obtain ⟨sum1, added1, is1⟩ := plus_eq (a := s1) (b := byte.toUInt32) (by omega)
  have reduced1 := reduce_toNat sum1
  have low := Nat.mod_lt sum1.toNat (by decide : 0 < 65521)
  obtain ⟨sum2, added2, is2⟩ := plus_eq (a := s2) (b := if sum1 ≥ prime then sum1 % prime else sum1)
    (by rw [reduced1]; omega)
  refine ⟨if sum1 ≥ prime then sum1 % prime else sum1, if sum2 ≥ prime then sum2 % prime else sum2,
    ?_, ?_, ?_⟩
  · simp only [adlerStep, added1, added2, bind, Option.bind_some]
  · simp [reduced1, is1]
  · rw [reduce_toNat, is2, reduced1, is1, Nat.add_mod_mod]
    simp

/-- The loop, byte after byte. -/
theorem adler_loop (data : List UInt8) : ∃ s1 s2, data.foldlM adlerStep (1, 0) = some (s1, s2) ∧
    s1.toNat = byteSum data % 65521 ∧ s2.toNat = prefixSum data % 65521 := by
  induction data using List.reverseRecOn with
  | nil => exact ⟨1, 0, rfl, rfl, rfl⟩
  | append_singleton data byte ih =>
    obtain ⟨s1, s2, before, is1, is2⟩ := ih
    have low1 : s1.toNat < 65521 := is1 ▸ Nat.mod_lt _ (by decide)
    have low2 : s2.toNat < 65521 := is2 ▸ Nat.mod_lt _ (by decide)
    obtain ⟨t1, t2, stepped, next1, next2⟩ := adlerStep_eq low1 low2 byte
    refine ⟨t1, t2, ?_, ?_, ?_⟩
    · simp only [List.foldlM_append, before, List.foldlM_cons, List.foldlM_nil, stepped, bind,
        Option.bind_some, pure]
    · rw [next1, is1, byteSum_concat, Nat.mod_add_mod]
    · rw [next2, is1, is2, prefixSum_concat, byteSum_concat]
      omega

/-- The two halves of the checksum. -/
theorem joined_toNat {s1 s2 : UInt32} (low1 : s1.toNat < 65521) (low2 : s2.toNat < 65521) :
    (s2 <<< 16 ||| s1).toNat = 65536 * s2.toNat + s1.toNat := by
  have shifted : s2.toNat <<< 16 < 2 ^ 32 := by
    rw [Nat.shiftLeft_eq]
    omega
  have amount : (16 : UInt32).toNat % 32 = 16 := rfl
  rw [UInt32.toNat_or, UInt32.toNat_shiftLeft, amount, Nat.mod_eq_of_lt shifted,
    ← Nat.shiftLeft_add_eq_or_of_lt (by omega : s1.toNat < 2 ^ 16), Nat.shiftLeft_eq]
  omega

/-- The checksum, and the two sums it stands for. -/
theorem adler32_sums (data : List UInt8) : ∃ checksum, adler32 data = some checksum ∧
    checksum.toNat = 65536 * (prefixSum data % 65521) + byteSum data % 65521 := by
  obtain ⟨s1, s2, run, is1, is2⟩ := adler_loop data
  have low1 : s1.toNat < 65521 := is1 ▸ Nat.mod_lt _ (by decide)
  have low2 : s2.toNat < 65521 := is2 ▸ Nat.mod_lt _ (by decide)
  refine ⟨s2 <<< 16 ||| s1, ?_, ?_⟩
  · simp only [adler32, run, bind, Option.bind_some]
  · rw [joined_toNat low1 low2, is1, is2]

/-- Data with the same checksum agree in both sums. -/
theorem sums_of_same {data data' : List UInt8} (same : adler32 data = adler32 data') :
    prefixSum data ≡ prefixSum data' [MOD 65521] ∧ byteSum data ≡ byteSum data' [MOD 65521] := by
  obtain ⟨checksum, is, sums⟩ := adler32_sums data
  obtain ⟨checksum', is', sums'⟩ := adler32_sums data'
  obtain rfl : checksum = checksum' := Option.some.inj (is.symm.trans (same.trans is'))
  have low := Nat.mod_lt (byteSum data) (by decide : 0 < 65521)
  have low' := Nat.mod_lt (byteSum data') (by decide : 0 < 65521)
  have agree := sums.symm.trans sums'
  exact ⟨by unfold Nat.ModEq; omega, by unfold Nat.ModEq; omega⟩

/-- Bytes that agree modulo the prime are equal. -/
theorem byte_eq_of_modEq {a b : UInt8} (same : a.toNat ≡ b.toNat [MOD 65521]) : a = b := by
  have lowA := a.toNat_lt
  have lowB := b.toNat_lt
  exact UInt8.toNat_inj.mp (same.eq_of_lt_of_lt (by omega) (by omega))

theorem eq_of_changed {front back : List UInt8} {a b : UInt8}
    (same : adler32 (front ++ a :: back) = adler32 (front ++ b :: back)) : a = b := by
  have sums := (sums_of_same same).2
  simp only [byteSum_append, List.map_cons, List.sum_cons] at sums
  exact byte_eq_of_modEq (Nat.ModEq.add_right_cancel' _ (Nat.ModEq.add_left_cancel' _ sums))

theorem eq_of_swapped {front back : List UInt8} {a b : UInt8}
    (same : adler32 (front ++ a :: b :: back) = adler32 (front ++ b :: a :: back)) : a = b := by
  have sums := (sums_of_same same).1.add_right (a.toNat + b.toNat)
  have swap := prefixSum_swap front back a b
  have left : prefixSum (front ++ a :: b :: back) + (a.toNat + b.toNat) =
      prefixSum (front ++ b :: a :: back) + a.toNat + a.toNat := by omega
  have right : prefixSum (front ++ b :: a :: back) + (a.toNat + b.toNat) =
      prefixSum (front ++ b :: a :: back) + a.toNat + b.toNat := by omega
  rw [left, right] at sums
  exact byte_eq_of_modEq (Nat.ModEq.add_left_cancel' _ sums)

/-- For any data the loop does not overflow, and its result consists of the two sums modulo
the prime; data that differ in one byte or in the order of two neighbours have another. -/
theorem adler32_eq_sums (data : List UInt8) :
    (∃ checksum, adler32 data = some checksum ∧
      checksum.toNat = 65536 * (prefixSum data % 65521) + byteSum data % 65521) ∧
    (∀ front a back b, data = front ++ a :: back → a ≠ b →
      adler32 (front ++ b :: back) ≠ adler32 data) ∧
    ∀ front a b back, data = front ++ a :: b :: back → a ≠ b →
      adler32 (front ++ b :: a :: back) ≠ adler32 data := by
  refine ⟨adler32_sums data, ?_, ?_⟩
  · rintro front a back b rfl differ same
    exact differ (eq_of_changed same).symm
  · rintro front a b back rfl differ same
    exact differ (eq_of_swapped same).symm

-- Its value for the bytes of "abc".
example : adler32 [97, 98, 99] = some 0x024d0127 := by decide

end Arthius.Guarantees.Checksum
