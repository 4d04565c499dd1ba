import Mathlib.Data.List.Infix
import Mathlib.Tactic.Common

/-!
# Buffers that grow to the left

Items are prepended, so a place in the buffer is named by its distance from the
end: it stays where it is whatever is prepended later. An item at a distance
from the end is found at the length of the buffer less that distance from its
front.
-/
namespace Arthius.Lib

variable {β : Type*}

/-- The row `bs` starts `d` before the end. -/
def Stored (buffer : List β) (d : ℕ) (bs : List β) : Prop :=
  ∃ front back, buffer = front ++ bs ++ back ∧ bs.length + back.length = d

/-- The items from a position on, counted from the front. -/
def slice (buffer : List β) (position length : ℕ) : List β := (buffer.drop position).take length

namespace Stored

variable {buffer buffer' as bs : List β} {d : ℕ}

theorem front (bs buffer : List β) : Stored (bs ++ buffer) (bs.length + buffer.length) bs :=
  ⟨[], buffer, by simp, rfl⟩

theorem extend (stored : Stored buffer d bs) (grown : buffer <:+ buffer') :
    Stored buffer' d bs := by
  obtain ⟨first, last, rfl, length⟩ := stored
  obtain ⟨added, rfl⟩ := grown
  exact ⟨added ++ first, last, by simp, length⟩

/-- What lies within a buffer was there before more was prepended. -/
theorem shrink {added : List β} (stored : Stored (added ++ buffer) d bs)
    (inside : d ≤ buffer.length) : Stored buffer d bs := by
  obtain ⟨first, last, whole, rfl⟩ := stored
  have lengths := congrArg List.length whole
  simp only [List.length_append] at lengths
  have start : added <+: first :=
    List.prefix_of_prefix_length_le (List.prefix_append added buffer)
      (whole ▸ (List.append_assoc first bs last ▸ List.prefix_append first (bs ++ last))) (by omega)
  obtain ⟨middle, rfl⟩ := start
  rw [List.append_assoc, List.append_assoc, List.append_cancel_left_eq] at whole
  exact ⟨middle, last, by rw [whole, List.append_assoc], rfl⟩

theorem length_le (stored : Stored buffer d bs) : bs.length ≤ d := by
  obtain ⟨_, last, _, rfl⟩ := stored
  exact Nat.le_add_right _ _

theorem le_length (stored : Stored buffer d bs) : d ≤ buffer.length := by
  obtain ⟨first, last, rfl, rfl⟩ := stored
  simp only [List.length_append]
  omega

theorem left (stored : Stored buffer d (as ++ bs)) : Stored buffer d as := by
  obtain ⟨first, last, rfl, rfl⟩ := stored
  exact ⟨first, bs ++ last, by simp, by simp [Nat.add_assoc]⟩

theorem right (stored : Stored buffer d (as ++ bs)) : Stored buffer (d - as.length) bs := by
  obtain ⟨first, last, rfl, rfl⟩ := stored
  refine ⟨first ++ as, last, by simp, ?_⟩
  simp only [List.length_append]
  omega

/-- The row is what is read at its place from the front. -/
theorem slice_eq (stored : Stored buffer d bs) :
    slice buffer (buffer.length - d) bs.length = bs := by
  obtain ⟨first, last, rfl, rfl⟩ := stored
  have place : (first ++ bs ++ last).length - (bs.length + last.length) = first.length := by
    simp only [List.length_append]
    omega
  rw [place, slice, List.append_assoc, List.drop_left, List.take_left]

theorem isPrefix (stored : Stored buffer d bs) : bs <+: buffer.drop (buffer.length - d) := by
  have read := stored.slice_eq
  rw [slice] at read
  rw [← read]
  exact List.take_prefix _ _

/-- One of the pieces of equal width that make up a row. -/
theorem piece {γ : Type*} {f : γ → List β} {width : ℕ} (even : ∀ x, (f x).length = width)
    {xs : List γ} (stored : Stored buffer d (xs.flatMap f)) {i : ℕ} {x : γ}
    (there : xs[i]? = some x) : Stored buffer (d - width * i) (f x) := by
  induction xs generalizing d i with
  | nil => cases there
  | cons y xs ih =>
    rw [List.flatMap_cons] at stored
    cases i with
    | zero =>
      cases there
      exact stored.left
    | succ i =>
      have rest := ih stored.right there
      rw [even, Nat.sub_sub] at rest
      rwa [Nat.mul_succ, Nat.add_comm]

/-- A row of the same length at the same place is the same row. -/
theorem unique (stored : Stored buffer d as) (stored' : Stored buffer d bs)
    (length : as.length = bs.length) : as = bs := by
  rw [← stored.slice_eq, ← stored'.slice_eq, length]

end Stored
end Arthius.Lib
