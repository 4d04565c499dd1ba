import Arthius.Lib.Attempt
import Arthius.Guarantees.BinaryDocument

/-!
# Writing a document

The specification of every builder operation on the image it builds: what is there
stays, what is written is aligned, and the cursor moves by a bounded number of bytes.
The only failure is a trap, and only where the bytes exceed `Int32`.
-/
namespace Arthius.Guarantees
open Arthius.Lib Arthius.Source.FlatBuffers

variable {ι : Type}

def imageOf (b : FlatBuffersBuilder ι) : Image := ⟨b.data, b.minalign⟩

/-- The builder aligns to powers of two up to eight. -/
def WellAligned (b : FlatBuffersBuilder ι) : Prop := ∃ k ≤ 3, b.minalign = 2 ^ k

/-- What every operation leaves as it is, and how far it moves the cursor. -/
structure Grown (most : ℕ) (b b' : FlatBuffersBuilder ι) : Prop where
  options : b'.options = b.options
  grows : (imageOf b).Grows (imageOf b')
  aligned : WellAligned b'
  cursor : b'.cursor ≤ b.cursor + most

/-- What an operation on the bytes alone leaves as it is. -/
structure Wrote (most : ℕ) (b b' : FlatBuffersBuilder ι) : Prop extends Grown most b b' where
  currentVTable : b'.currentVTable = b.currentVTable
  objectStart : b'.objectStart = b.objectStart
  vectorNumElems : b'.vectorNumElems = b.vectorNumElems
  vTableOffsets : b'.vTableOffsets = b.vTableOffsets
  cache : b'.cache = b.cache
  stringCache : b'.stringCache = b.stringCache

/-- The failures allowed to a run whose bytes stay below `total`. -/
def Overflow (total : ℕ) (failure : Failure) : Prop := failure = .trap ∧ 2 ^ 31 ≤ total

theorem Grown.trans {m n : ℕ} {a b c : FlatBuffersBuilder ι} (first : Grown m a b)
    (second : Grown n b c) : Grown (m + n) a c where
  options := second.options.trans first.options
  grows := first.grows.trans second.grows
  aligned := second.aligned
  cursor := by
    have one := first.cursor
    have two := second.cursor
    omega

theorem Grown.le {m n : ℕ} {b b' : FlatBuffersBuilder ι} (grown : Grown m b b') (le : m ≤ n) :
    Grown n b b' := { grown with cursor := grown.cursor.trans (Nat.add_le_add_left le _) }

theorem Grown.refl {b : FlatBuffersBuilder ι} (aligned : WellAligned b) : Grown 0 b b :=
  ⟨rfl, .refl _, aligned, le_refl _⟩

theorem Grown.cursor_le {m : ℕ} {b b' : FlatBuffersBuilder ι} (grown : Grown m b b') :
    b.cursor ≤ b'.cursor := grown.grows.data.length_le

theorem Wrote.trans {m n : ℕ} {a b c : FlatBuffersBuilder ι} (first : Wrote m a b)
    (second : Wrote n b c) : Wrote (m + n) a c where
  toGrown := first.toGrown.trans second.toGrown
  currentVTable := second.currentVTable.trans first.currentVTable
  objectStart := second.objectStart.trans first.objectStart
  vectorNumElems := second.vectorNumElems.trans first.vectorNumElems
  vTableOffsets := second.vTableOffsets.trans first.vTableOffsets
  cache := second.cache.trans first.cache
  stringCache := second.stringCache.trans first.stringCache

theorem Wrote.le {m n : ℕ} {b b' : FlatBuffersBuilder ι} (wrote : Wrote m b b') (le : m ≤ n) :
    Wrote n b b' := { wrote with toGrown := wrote.toGrown.le le }

variable {fail : Failure → Prop} {b : FlatBuffersBuilder ι} {total : ℕ}

theorem int32_between {z : ℤ} {n : ℕ} {post : ℤ → FlatBuffersBuilder ι → Prop}
    (low : -n ≤ z) (high : z ≤ n) (below : n ≤ total)
    (returned : -2 ^ 31 ≤ z → z < 2 ^ 31 → post z b) : Ensures (int32 z) b (Overflow total) post := by
  by_cases inside : -2 ^ 31 ≤ z ∧ z < 2 ^ 31
  · rw [int32, if_pos inside, Ensures.pure_iff]
    exact returned inside.1 inside.2
  · rw [int32, if_neg inside, Ensures.throw_iff]
    exact ⟨rfl, by omega⟩

theorem int32_ensures {n : ℕ} {post : ℤ → FlatBuffersBuilder ι → Prop} (below : n ≤ total)
    (returned : n < 2 ^ 31 → post n b) : Ensures (int32 n) b (Overflow total) post :=
  int32_between (by omega) (le_refl _) below fun _ high => returned (by omega)

private theorem larger_power (j k : ℕ) :
    (if 2 ^ k > 2 ^ j then 2 ^ k else 2 ^ j) = 2 ^ max j k := by
  have order : 2 ^ k > 2 ^ j ↔ j < k := Nat.pow_lt_pow_iff_right (by decide)
  rcases Nat.lt_or_ge j k with more | less
  · rw [if_pos (order.mpr more), max_eq_right more.le]
  · rw [if_neg (fun above => absurd (order.mp above) (Nat.not_lt.mpr less)), max_eq_left less]

@[simp] theorem cursor_push (b : FlatBuffersBuilder ι) (bs : List UInt8) :
    (b.push bs).cursor = bs.length + b.cursor := List.length_append

@[simp] theorem cursor_advance (b : FlatBuffersBuilder ι) (n : ℕ) :
    (b.advance n).cursor = n + b.cursor := by
  rw [FlatBuffersBuilder.cursor, FlatBuffersBuilder.advance, List.length_append, List.length_map,
    List.length_range]
  rfl

theorem wrote_advance (aligned : WellAligned b) (n : ℕ) : Wrote n b (b.advance n) :=
  ⟨⟨rfl, ⟨List.suffix_append _ _, dvd_refl _⟩, aligned, by rw [cursor_advance]; omega⟩,
    rfl, rfl, rfl, rfl, rfl, rfl⟩

theorem wrote_push (aligned : WellAligned b) (bs : List UInt8) : Wrote bs.length b (b.push bs) :=
  ⟨⟨rfl, ⟨List.suffix_append _ _, dvd_refl _⟩, aligned, by rw [cursor_push]; omega⟩,
    rfl, rfl, rfl, rfl, rfl, rfl⟩

theorem stored_push (b : FlatBuffersBuilder ι) (bs : List UInt8) :
    Stored (b.push bs).data (b.push bs).cursor bs := by
  rw [cursor_push]
  exact Stored.front bs b.data

theorem align_ensures (aligned : WellAligned b) {k : ℕ} (small : k ≤ 3) (additionalBytes : ℕ) :
    Ensures (align (2 ^ k) additionalBytes) b fail fun _ b' =>
      Wrote (2 ^ k - 1) b b' ∧ 2 ^ k ∣ b'.cursor + additionalBytes ∧ 2 ^ k ∣ b'.minalign := by
  obtain ⟨j, smallJ, power⟩ := aligned
  have bound : alignSize (b.cursor + additionalBytes) (2 ^ k) < 2 ^ k :=
    alignSize_lt _ (by omega)
  have multiple := dvd_add_alignSize (b.cursor + additionalBytes) (k := k) (by omega)
  rw [align, Ensures.modify_iff, power, larger_power]
  refine ⟨⟨⟨rfl, ⟨List.suffix_append _ _, ?_⟩, ⟨max j k, by omega, rfl⟩, ?_⟩,
    rfl, rfl, rfl, rfl, rfl, rfl⟩, ?_, ?_⟩
  · change b.minalign ∣ 2 ^ max j k
    rw [power]
    exact Nat.pow_dvd_pow 2 (le_max_left _ _)
  · rw [cursor_advance]
    change _ + b.cursor ≤ _
    omega
  · rw [cursor_advance]
    change 2 ^ k ∣ _ + b.cursor + _
    rwa [Nat.add_comm _ b.cursor, Nat.add_right_comm]
  · exact Nat.pow_dvd_pow 2 (le_max_right _ _)

section Insert
variable {T : Type} [Scalar T]

/-- A stride is a power of two. -/
private theorem stride_power : ∃ k ≤ 4, Scalar.stride T = 2 ^ k := by
  have cases := Scalar.stride_mem (T := T)
  simp only [List.mem_cons, List.not_mem_nil, or_false] at cases
  rcases cases with one | two | four | eight | sixteen
  · exact ⟨0, by decide, one⟩
  · exact ⟨1, by decide, two⟩
  · exact ⟨2, by decide, four⟩
  · exact ⟨3, by decide, eight⟩
  · exact ⟨4, by decide, sixteen⟩

/-- The padding in front of a scalar. -/
private theorem align_scalar (aligned : WellAligned b) :
    Ensures (alignStride (Scalar.stride T)) b fail fun _ b' => Wrote 7 b b' ∧
        min (Scalar.stride T) 8 ∣ Scalar.stride T + b'.cursor ∧
        min (Scalar.stride T) 8 ∣ b'.minalign := by
  obtain ⟨k, small, power⟩ := stride_power (T := T)
  rw [alignStride, power]
  rcases Nat.lt_or_ge 3 k with large | fits
  · obtain rfl : k = 4 := by omega
    refine (align_ensures aligned (by decide : 3 ≤ 3) 16).mono fun _ b' spec => ?_
    obtain ⟨wrote, place, total⟩ := spec
    exact ⟨wrote, (Nat.add_comm _ _ ▸ place :), total⟩
  · have within : 2 ^ k ≤ 2 ^ 3 := Nat.pow_le_pow_right (by decide) fits
    rw [if_neg (by omega), min_eq_left (by omega)]
    refine (align_ensures aligned fits 0).mono fun _ b' spec => ?_
    obtain ⟨wrote, place, total⟩ := spec
    exact ⟨wrote.le (by omega), Nat.dvd_add_self_left.mpr place, total⟩

theorem insert_ensures (aligned : WellAligned b) (value : T) :
    Ensures (insert value) b fail fun _ b' =>
      Wrote (Scalar.stride T + 7) b b' ∧ b.cursor < b'.cursor ∧
      (imageOf b').Placed b'.cursor (min (Scalar.stride T) 8) (Scalar.store value) := by
  obtain ⟨k, small, power⟩ := stride_power (T := T)
  have positive : 0 < Scalar.stride T := power ▸ Nat.two_pow_pos k
  refine Ensures.seq (align_scalar (T := T) aligned) fun _ b₁ spec => ?_
  obtain ⟨wrote, place, total⟩ := spec
  have pushed := wrote_push wrote.aligned (Scalar.store value)
  rw [Ensures.modify_iff]
  rw [Scalar.length_store] at pushed
  have further := wrote.toGrown.cursor_le
  have reached : (b₁.push (Scalar.store value)).cursor = Scalar.stride T + b₁.cursor := by
    rw [cursor_push, Scalar.length_store]
  refine ⟨(wrote.trans pushed).le (by omega), by omega, ?_, by rwa [reached], total⟩
  exact stored_push b₁ (Scalar.store value)

theorem advance_zero (b : FlatBuffersBuilder ι) : b.advance 0 = b := by
  simp [FlatBuffersBuilder.advance]

theorem align_eq (aligned : WellAligned b) {k additionalBytes : ℕ} (small : k ≤ 3)
    (place : 2 ^ k ∣ b.cursor + additionalBytes) (total : 2 ^ k ∣ b.minalign) :
    Ensures (align (2 ^ k) additionalBytes) b fail fun _ b' => b' = b := by
  obtain ⟨j, _, power⟩ := aligned
  have positive : 0 < b.minalign := power ▸ Nat.two_pow_pos j
  have kept : ¬ 2 ^ k > b.minalign := Nat.not_lt.mpr (Nat.le_of_dvd positive total)
  rw [align, Ensures.modify_iff, alignSize_eq_zero (by omega) place, if_neg kept]
  exact advance_zero b

/-- At an aligned cursor nothing is padded. -/
theorem insert_aligned (aligned : WellAligned b) (small : Scalar.stride T ≤ 8)
    (place : Scalar.stride T ∣ b.cursor) (total : Scalar.stride T ∣ b.minalign) (value : T) :
    Ensures (insert value) b fail fun _ b' => b' = b.push (Scalar.store value) := by
  obtain ⟨k, _, power⟩ := stride_power (T := T)
  have fits : k ≤ 3 := by
    by_contra large
    have more : 2 ^ 4 ≤ 2 ^ k := Nat.pow_le_pow_right (by decide) (by omega)
    omega
  unfold Source.FlatBuffers.insert
  rw [Ensures.bind_iff, alignStride, if_neg (by omega), power]
  refine (align_eq aligned fits (power ▸ place) (power ▸ total)).mono fun _ b' same => ?_
  rw [Ensures.modify_iff, same]

end Insert

theorem insert_word (aligned : WellAligned b) {z : ℤ} (low : -2 ^ 31 ≤ z) (high : z < 2 ^ 31) :
    Ensures (insert (Int32.ofInt z)) b fail fun _ b' =>
      Wrote 11 b b' ∧ b.cursor < b'.cursor ∧ (imageOf b').Word b'.cursor z :=
  (insert_ensures aligned (Int32.ofInt z)).mono fun _ _ ⟨wrote, further, placed⟩ =>
    ⟨wrote, further, placed, low, high⟩

/-- A word at an aligned cursor is exactly four bytes. -/
theorem insert_word_aligned (aligned : WellAligned b) {z : ℤ} (low : -2 ^ 31 ≤ z)
    (high : z < 2 ^ 31) (place : 4 ∣ b.cursor) (total : 4 ∣ b.minalign) :
    Ensures (insert (Int32.ofInt z)) b fail fun _ b' =>
      Wrote 4 b b' ∧ b'.cursor = b.cursor + 4 ∧ (imageOf b').Word b'.cursor z := by
  refine (insert_aligned aligned (by decide) place total (Int32.ofInt z)).mono fun _ b' same => ?_
  subst same
  have length : (Scalar.store (Int32.ofInt z)).length = 4 := Scalar.length_store _
  have reached : (b.push (Scalar.store (Int32.ofInt z))).cursor = b.cursor + 4 := by
    rw [cursor_push, length, Nat.add_comm]
  have wrote := wrote_push aligned (Scalar.store (Int32.ofInt z))
  rw [length] at wrote
  refine ⟨wrote, reached, ⟨stored_push _ _, ?_, total⟩, low, high⟩
  rw [reached]
  exact Nat.dvd_add place (dvd_refl 4)

theorem insertOffset_ensures (aligned : WellAligned b) {target : ℕ} (positive : 0 < target)
    (written : target ≤ b.cursor) (room : b.cursor + 7 ≤ total) :
    Ensures (insertOffset (some (target : ℤ))) b (Overflow total) fun _ b' =>
      Wrote 7 b b' ∧ b.cursor < b'.cursor ∧ (imageOf b').Reference b'.cursor target := by
  unfold insertOffset
  simp only [Ensures.bind_iff, Ensures.get_iff]
  refine int32_ensures (by omega) fun small => ?_
  rw [if_pos (Int.ofNat_le.mpr written), if_neg (by omega : ¬ (target : ℤ) = 0), Ensures.bind_iff]
  refine (align_ensures aligned (by decide : 2 ≤ 3) 0).mono fun _ b₁ spec => ?_
  obtain ⟨wrote, place, unit⟩ := spec
  have reached := wrote.cursor
  have further := wrote.toGrown.cursor_le
  simp only [Ensures.bind_iff, Ensures.get_iff]
  refine int32_ensures (by omega) fun small₁ => ?_
  have value : (b₁.cursor : ℤ) - target + 4 = ((b₁.cursor - target + 4 : ℕ) : ℤ) := by omega
  rw [value]
  refine int32_ensures (by omega) fun below => ?_
  have low : -2 ^ 31 ≤ ((b₁.cursor - target + 4 : ℕ) : ℤ) := by omega
  refine (insert_word_aligned wrote.aligned low (by exact_mod_cast below) place unit).mono
    fun _ b₂ spec => ?_
  obtain ⟨wrote₂, moved, word⟩ := spec
  refine ⟨(wrote.trans wrote₂).le (by omega), by omega, by omega, ?_⟩
  have distance : (b₂.cursor : ℤ) - target = ((b₁.cursor - target + 4 : ℕ) : ℤ) := by omega
  rw [distance]
  exact word

/-- The offset of a missing object is a null word. -/
theorem insertOffset_zero (aligned : WellAligned b) (room : b.cursor + 11 ≤ total) :
    Ensures (insertOffset (some 0)) b (Overflow total) fun _ b' =>
      Wrote 11 b b' ∧ b.cursor < b'.cursor ∧ (imageOf b').Word b'.cursor 0 := by
  unfold insertOffset
  simp only [Ensures.bind_iff, Ensures.get_iff]
  refine int32_ensures (by omega) fun small => ?_
  have null : (0 : Int32) = Int32.ofInt 0 := rfl
  rw [if_pos (Int.natCast_nonneg _), if_pos trivial, null]
  exact insert_word aligned (by norm_num) (by norm_num)

end Arthius.Guarantees
