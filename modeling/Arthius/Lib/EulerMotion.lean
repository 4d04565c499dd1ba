import Mathlib.Analysis.Normed.Group.InfiniteSum
import Mathlib.Topology.Algebra.InfiniteSum.Real

/-!
# A point moving under a force in unit time steps

Each step adds the force at the point to the velocity and the new velocity to
the point. A motion of bounded length comes to rest: either it never moved, or
it tends to a point near which the force gets arbitrarily small without vanishing.
-/
namespace Arthius.Lib
open Filter Topology

@[ext] structure Motion (E : Type*) where
  position : E
  velocity : E

namespace Motion

variable {E : Type*} [NormedAddCommGroup E] (force : E → E)

def next (m : Motion E) : Motion E :=
  ⟨m.position + (m.velocity + force m.position), m.velocity + force m.position⟩

/-- The motion after so many steps. -/
def after (n : ℕ) (m : Motion E) : Motion E := (next force)^[n] m

/-- The length of the way made in so many steps. -/
def length (n : ℕ) (m : Motion E) : ℝ := ∑ i ∈ Finset.range n, ‖(after force (i + 1) m).velocity‖

/-- Near a balance point the force gets arbitrarily small, but not only by vanishing. -/
def IsBalance (p : E) : Prop := ∀ ε > 0, ∃ y, dist y p < ε ∧ force y ≠ 0 ∧ ‖force y‖ < ε

/-- The point does not move, and nothing makes it. -/
def AtRest (m : Motion E) : Prop := m.velocity = 0 ∧ force m.position = 0

variable {force} {m : Motion E}

theorem after_succ (n : ℕ) : after force (n + 1) m = next force (after force n m) :=
  Function.iterate_succ_apply' (next force) n m

theorem length_succ (n : ℕ) :
    length force (n + 1) m = length force n m + ‖(after force (n + 1) m).velocity‖ :=
  Finset.sum_range_succ _ n

theorem position_succ (n : ℕ) : (after force (n + 1) m).position =
    (after force n m).position + (after force (n + 1) m).velocity := by
  rw [after_succ]
  rfl

theorem velocity_succ (n : ℕ) : (after force (n + 1) m).velocity =
    (after force n m).velocity + force (after force n m).position := by
  rw [after_succ]
  rfl

theorem AtRest.after (rest : AtRest force m) (n : ℕ) : Motion.after force n m = m := by
  induction n with
  | zero => rfl
  | succ n ih =>
    rw [after_succ, ih]
    obtain ⟨still, unpulled⟩ := rest
    ext <;> simp [next, still, unpulled]

theorem AtRest.length_eq_zero (rest : AtRest force m) (n : ℕ) : length force n m = 0 := by
  apply Finset.sum_eq_zero
  intro i _
  rw [rest.after, rest.1, norm_zero]

/-- What is at rest has always been at rest. -/
theorem AtRest.of_succ {n : ℕ} (rest : AtRest force (Motion.after force (n + 1) m)) :
    AtRest force (Motion.after force n m) := by
  obtain ⟨still, unpulled⟩ := rest
  have here : (Motion.after force n m).position = (Motion.after force (n + 1) m).position := by
    rw [position_succ, still, add_zero]
  have unpulledHere : force (Motion.after force n m).position = 0 := by rw [here, unpulled]
  refine ⟨?_, unpulledHere⟩
  rw [velocity_succ, unpulledHere, add_zero] at still
  exact still

theorem AtRest.of_after {n : ℕ} (rest : AtRest force (Motion.after force n m)) : AtRest force m := by
  induction n with
  | zero => exact rest
  | succ n ih => exact ih rest.of_succ

theorem velocity_of_unpulled (unpulled : ∀ y, force y = 0) (n : ℕ) : (after force n m).velocity = m.velocity := by
  induction n with
  | zero => rfl
  | succ n ih => rw [velocity_succ, unpulled, add_zero, ih]

theorem length_of_unpulled (unpulled : ∀ y, force y = 0) (n : ℕ) : length force n m = n * ‖m.velocity‖ := by
  simp only [length, velocity_of_unpulled unpulled, Finset.sum_const, Finset.card_range, nsmul_eq_mul]

theorem dist_position (n : ℕ) : dist (after force n m).position (after force (n + 1) m).position =
    ‖(after force (n + 1) m).velocity‖ := by
  rw [position_succ, dist_self_add_right]

theorem dist_start_le_length (n : ℕ) : dist m.position (after force n m).position ≤ length force n m := by
  refine (dist_le_range_sum_dist (fun n => (after force n m).position) n).trans (le_of_eq ?_)
  exact Finset.sum_congr rfl fun i _ => dist_position i

section Bounded
variable {bound : ℝ} (bounded : ∀ n, length force n m ≤ bound)
include bounded

theorem summable_velocity : Summable fun n => ‖(after force (n + 1) m).velocity‖ :=
  summable_of_sum_range_le (fun _ => norm_nonneg _) bounded

theorem tendsto_velocity : Tendsto (fun n => (after force (n + 1) m).velocity) atTop (𝓝 0) :=
  tendsto_zero_iff_norm_tendsto_zero.mpr (summable_velocity bounded).tendsto_atTop_zero

theorem tendsto_force : Tendsto (fun n => force (after force (n + 1) m).position) atTop (𝓝 0) := by
  have later := (tendsto_add_atTop_iff_nat 1).mpr (tendsto_velocity bounded)
  have difference := later.sub (tendsto_velocity bounded)
  rw [sub_zero] at difference
  apply difference.congr
  intro n
  rw [velocity_succ (n + 1), add_sub_cancel_left]

/-- Once the force has vanished for good, a motion of bounded length stands still. -/
theorem atRest_of_force_vanishes {N : ℕ}
    (vanishes : ∀ n ≥ N, force (after force (n + 1) m).position = 0) : AtRest force m := by
  have constant : ∀ n, (after force (N + 1 + n) m).velocity = (after force (N + 1) m).velocity := by
    intro n
    induction n with
    | zero => rfl
    | succ n ih =>
      rw [← Nat.add_assoc, velocity_succ, ih, show N + 1 + n = N + n + 1 by omega,
        vanishes (N + n) (Nat.le_add_right N n), add_zero]
  have still : (after force (N + 1) m).velocity = 0 := by
    have limit : Tendsto (fun n => (after force (N + n + 1) m).velocity) atTop (𝓝 0) := by
      have shifted := (tendsto_add_atTop_iff_nat N).mpr (tendsto_velocity bounded)
      exact shifted.congr fun n => by rw [Nat.add_comm n N]
    refine tendsto_nhds_unique (tendsto_const_nhds.congr fun n => ?_) limit
    rw [← constant n, show N + 1 + n = N + n + 1 by omega]
  exact AtRest.of_after (n := N + 1) ⟨still, vanishes N (le_refl N)⟩

/-- A motion of bounded length never moved, or is drawn into a balance point. -/
theorem atRest_or_tendsto_balance [CompleteSpace E] :
    AtRest force m ∨ ∃ p, IsBalance force p ∧ dist m.position p ≤ bound ∧
      Tendsto (fun n => (after force n m).position) atTop (𝓝 p) := by
  by_cases vanishes : ∃ N, ∀ n ≥ N, force (after force (n + 1) m).position = 0
  · obtain ⟨N, vanishes⟩ := vanishes
    exact .inl (atRest_of_force_vanishes bounded vanishes)
  · have cauchy : CauchySeq fun n => (after force n m).position := by
      refine cauchySeq_of_summable_dist ((summable_velocity bounded).congr fun n => ?_)
      exact (dist_position n).symm
    obtain ⟨p, limit⟩ := cauchySeq_tendsto_of_complete cauchy
    refine .inr ⟨p, fun ε positive => ?_, ?_, limit⟩
    · have near := (tendsto_add_atTop_iff_nat 1).mpr limit
      obtain ⟨N, close⟩ := eventually_atTop.mp ((Metric.tendsto_nhds.mp near ε positive).and
        (Metric.tendsto_nhds.mp (tendsto_force bounded) ε positive))
      push Not at vanishes
      obtain ⟨n, late, pulls⟩ := vanishes N
      refine ⟨_, (close n late).1, pulls, ?_⟩
      rw [← dist_zero_right]
      exact (close n late).2
    · refine le_of_tendsto (tendsto_const_nhds.dist limit) (Eventually.of_forall fun n => ?_)
      exact (dist_start_le_length n).trans (bounded n)

end Bounded
end Motion
end Arthius.Lib
