import Mathlib.Data.List.Basic
import Mathlib.Tactic.Common

/-!
# Draining a producer through a buffer

A producer is asked again and again to fill a buffer, and its elements are put
together. What comes out does not depend on the size of the buffer: it is what the
producer has to hand over, all of it or nothing.
-/
namespace Arthius.Lib

inductive Report where
  | more | done | failed
  deriving DecidableEq, Repr

/-- Given room for so many elements: the report, the elements written and the next state. -/
abbrev Producer (σ β : Type) := σ → ℕ → Report × List β × σ

section Drain
variable {σ β : Type} (producer : Producer σ β)

/-- Buffer after buffer. A buffer that is not full is the last one; without the report that
the producer is done there is no result. The outer `none` is a lack of fuel. -/
def drain (room : ℕ) : ℕ → σ → List β → Option (Option (List β))
  | 0, _, _ => none
  | fuel + 1, s, res =>
    match producer s room with
    | (.more, written, s') =>
      if written.length = room then drain room fuel s' (res ++ written) else some none
    | (.done, written, _) => some (some (res ++ written))
    | (.failed, _, _) => some none

/-- How a producer that has handed over everything goes on: it is done, or it breaks off with
room left. -/
def Ends (whole : Bool) (room : ℕ) (out : List β) (result : Report × List β × σ) : Prop :=
  if whole then result.1 = .done ∧ result.2.1 = out
  else result.1 = .failed ∨ result.1 = .more ∧ result.2.1.length < room

/-- From `s`, in whatever pieces it is asked for, the producer hands over `out`. -/
def Yields (whole : Bool) (s : σ) (out : List β) : Prop :=
  ∃ pending : σ → List β → Prop, pending s out ∧ ∀ s out room, pending s out → 0 < room →
    (∃ s', room ≤ out.length ∧ producer s room = (.more, out.take room, s') ∧
      pending s' (out.drop room)) ∨
    out.length ≤ room ∧ Ends whole room out (producer s room)

variable {producer}

theorem Yields.step {whole : Bool} {s : σ} {out : List β} (yields : Yields producer whole s out)
    {room : ℕ} (proper : 0 < room) :
    (∃ s', room ≤ out.length ∧ producer s room = (.more, out.take room, s') ∧
      Yields producer whole s' (out.drop room)) ∨
    out.length ≤ room ∧ Ends whole room out (producer s room) := by
  obtain ⟨pending, start, next⟩ := yields
  rcases next s out room start proper with ⟨s', long, result, later⟩ | ending
  · exact .inl ⟨s', long, result, pending, later, next⟩
  · exact .inr ending

/-- With any buffer, what is drained is everything if the producer gets done and nothing
otherwise, after as many turns as there are full buffers and one or two more. -/
theorem Yields.drain {whole : Bool} {s : σ} {out : List β} (yields : Yields producer whole s out)
    {room : ℕ} (proper : 0 < room) (res : List β) {fuel : ℕ} (enough : out.length / room + 1 < fuel) :
    drain producer room fuel s res = some (if whole then some (res ++ out) else none) := by
  induction fuel generalizing s out res with
  | zero => exact absurd enough (Nat.not_lt_zero _)
  | succ fuel ih =>
    rw [Lib.drain]
    rcases yields.step proper with ⟨s', long, result, later⟩ | ⟨_, ends⟩
    · have taken : (out.take room).length = room := List.length_take_of_le long
      have shorter : (out.drop room).length / room + 1 < fuel := by
        have split := Nat.div_eq_sub_div proper long
        rw [List.length_drop]
        omega
      simp only [result, taken, if_true]
      rw [ih later _ shorter, List.append_assoc, List.take_append_drop]
    · obtain ⟨report, written, s', result⟩ : ∃ r w s', producer s room = (r, w, s') := ⟨_, _, _, rfl⟩
      rw [result] at ends ⊢
      cases whole with
      | true =>
        obtain ⟨rfl, rfl⟩ := ends
        rfl
      | false =>
        rcases ends with rfl | ⟨rfl, short⟩
        · rfl
        · exact if_neg (Nat.ne_of_lt short)

end Drain
end Arthius.Lib
