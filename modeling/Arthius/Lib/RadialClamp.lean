import Mathlib.Analysis.Normed.Module.Normalize
import Mathlib.Analysis.Normed.Module.Ray

/-!
# Clamping to a ball along rays

A point inside the ball stays where it is, one outside goes to the sphere on its
own ray. A clamp that sends the points outside anywhere else tears the sphere
open wherever it does not fix it.
-/
namespace Arthius.Lib

variable {E : Type*} [NormedAddCommGroup E]

open Classical in
/-- Points of norm less than `R` stay, the others go to `outside`. -/
noncomputable def clampBy (R : ℝ) (outside : E → E) (x : E) : E := if ‖x‖ < R then x else outside x

section Clamp
variable {R : ℝ} {outside : E → E} {x : E}

theorem clampBy_of_lt (inside : ‖x‖ < R) : clampBy R outside x = x := if_pos inside

theorem clampBy_of_le (far : R ≤ ‖x‖) : clampBy R outside x = outside x := if_neg (not_lt.mpr far)

theorem norm_clampBy_le (bounded : ∀ x, ‖outside x‖ ≤ R) (x : E) : ‖clampBy R outside x‖ ≤ R := by
  by_cases inside : ‖x‖ < R
  · rw [clampBy_of_lt inside]
    exact inside.le
  · rw [clampBy_of_le (not_lt.mp inside)]
    exact bounded x

variable [NormedSpace ℝ E]

/-- The radial projection onto the ball of radius `R`. -/
noncomputable def radialClamp (R : ℝ) : E → E := clampBy R fun x => R • NormedSpace.normalize x

/-- A direction scaled up again is the point exactly if the scale is its norm. -/
theorem smul_normalize_eq_iff {k : ℝ} : k • NormedSpace.normalize x = x ↔ x = 0 ∨ k = ‖x‖ := by
  by_cases zero : x = 0
  · simp [zero]
  · have direction : NormedSpace.normalize x ≠ 0 := mt (NormedSpace.normalize_eq_zero_iff x).mp zero
    rw [or_iff_right zero, ← (smul_left_injective ℝ direction).eq_iff]
    simp only [NormedSpace.norm_smul_normalize]

theorem norm_normalize_le (x : E) : ‖NormedSpace.normalize x‖ ≤ 1 := by
  by_cases zero : x = 0
  · simp [zero]
  · exact (NormedSpace.norm_normalize zero).le

theorem sameRay_smul_right_iff_of_pos {k : ℝ} (positive : 0 < k) {y : E} :
    SameRay ℝ x (k • y) ↔ SameRay ℝ x y := by
  constructor
  · intro same
    have back := same.pos_smul_right (inv_pos.mpr positive)
    rwa [inv_smul_smul₀ positive.ne'] at back
  · exact fun same => same.pos_smul_right positive

theorem sameRay_normalize_right_iff {y : E} : SameRay ℝ x (NormedSpace.normalize y) ↔ SameRay ℝ x y := by
  by_cases zero : y = 0
  · simp [zero]
  · exact sameRay_smul_right_iff_of_pos (inv_pos.mpr (norm_pos_iff.mpr zero))

/-- A shift by less than the distance keeps the direction exactly if it goes along the ray. -/
theorem sameRay_add_iff {shift : E} (small : ‖shift‖ < ‖x‖) :
    SameRay ℝ x (x + shift) ↔ ∃ k : ℝ, shift = k • x := by
  have apart : x ≠ 0 := norm_pos_iff.mp ((norm_nonneg shift).trans_lt small)
  constructor
  · intro same
    obtain ⟨k, _, is⟩ := same.exists_nonneg_left apart
    exact ⟨k - 1, by rw [sub_smul, one_smul, is, add_sub_cancel_left]⟩
  · rintro ⟨k, rfl⟩
    have below : |k| < 1 := by
      rw [norm_smul, Real.norm_eq_abs] at small
      exact (mul_lt_iff_lt_one_left (norm_pos_iff.mpr apart)).mp small
    have scaled : x + k • x = (1 + k) • x := by rw [add_smul, one_smul]
    rw [scaled]
    exact SameRay.sameRay_nonneg_smul_right x (by linarith [(abs_lt.mp below).1])

/-- A clamp is continuous at a point of the sphere exactly when it fixes it. -/
theorem continuousAt_clampBy_iff (positive : 0 < R) (sphere : ‖x‖ = R) (continuous : ContinuousAt outside x) :
    ContinuousAt (clampBy R outside) x ↔ outside x = x := by
  have here : clampBy R outside x = outside x := clampBy_of_le sphere.ge
  constructor
  · intro clamp
    -- from inside, along the ray of the point
    have ray : Filter.Tendsto (fun k : ℝ => k • x) (nhdsWithin 1 (Set.Iio 1)) (nhds x) := by
      have at_one : Filter.Tendsto (fun k : ℝ => k • x) (nhds 1) (nhds ((1 : ℝ) • x)) :=
        (continuous_id.smul continuous_const).tendsto 1
      rw [one_smul] at at_one
      exact at_one.mono_left nhdsWithin_le_nhds
    have clamped : Filter.Tendsto (fun k : ℝ => clampBy R outside (k • x)) (nhdsWithin 1 (Set.Iio 1))
        (nhds (outside x)) := here ▸ clamp.tendsto.comp ray
    refine tendsto_nhds_unique clamped (ray.congr' ?_)
    filter_upwards [Ioo_mem_nhdsLT (show (0 : ℝ) < 1 from one_pos)] with k ⟨above, below⟩
    refine (clampBy_of_lt ?_).symm
    rw [norm_smul, Real.norm_of_nonneg above.le, sphere]
    exact mul_lt_of_lt_one_left positive below
  · intro fixed
    have same : Filter.Tendsto outside (nhds x) (nhds x) := by
      simpa only [fixed] using continuous.tendsto
    unfold ContinuousAt
    rw [here, fixed]
    exact Filter.Tendsto.if' Filter.tendsto_id same

end Clamp
end Arthius.Lib
