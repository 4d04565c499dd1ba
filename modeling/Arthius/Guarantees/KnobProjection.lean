import Arthius.Guarantees.KnobRoundTrip

/-!
# Dragging the knob

Within the radius the knob follows the touch. Beyond it the touch is normalised
as seen from the corner of the element and the result put around its middle, so
the knob is on the ray of the touch only along one diagonal.
-/
namespace Arthius.Guarantees.KnobProjection
open Arthius.Lib Arthius.Source KnobRoundTrip
open PredictionTermination (CGVector.complex CGPoint.complex pointOf length_eq_norm)

noncomputable section

section Knob
variable (lineStart : EditableLineStart) (panTranslation : CGPoint)

/-- Where the touch is, seen from the middle of the element. -/
def displacement : CGPoint := lineStart.preLoc + panTranslation - lineStart.offset

/-- Where the knob goes, seen from the middle of the element. -/
def knobFromMiddle : CGPoint := (lineStart.updateKnobPosition panTranslation).knobCenter - lineStart.offset

/-- Where a touch beyond the radius sends it. -/
def outOfRange (d : ℂ) : ℂ :=
  lineStart.maxVectorRadius • NormedSpace.normalize (d + CGPoint.complex lineStart.offset)

variable {lineStart panTranslation}

theorem complex_add (p q : CGPoint) : CGPoint.complex (p + q) = CGPoint.complex p + CGPoint.complex q := rfl

theorem complex_sub (p q : CGPoint) : CGPoint.complex (p - q) = CGPoint.complex p - CGPoint.complex q := by
  apply Complex.ext <;> simp [CGPoint.complex]

theorem norm_lt_iff {p : CGPoint} {r : CGFloat} (nonneg : 0 ≤ r) :
    p.x * p.x + p.y * p.y < r * r ↔ ‖CGPoint.complex p‖ < r := by
  rw [← Complex.normSq_mk, Complex.normSq_eq_norm_sq, ← sq, sq_lt_sq₀ (norm_nonneg _) nonneg]
  rfl

theorem knobFromMiddle_inside (nonneg : 0 ≤ lineStart.maxVectorRadius)
    (inside : ‖CGPoint.complex (displacement lineStart panTranslation)‖ < lineStart.maxVectorRadius) :
    knobFromMiddle lineStart panTranslation = displacement lineStart panTranslation := by
  have test := (norm_lt_iff nonneg).mpr inside
  rw [displacement] at test
  unfold knobFromMiddle EditableLineStart.updateKnobPosition
  dsimp only
  rw [if_pos test]
  rfl

theorem knobFromMiddle_outside (nonneg : 0 ≤ lineStart.maxVectorRadius)
    (far : lineStart.maxVectorRadius ≤ ‖CGPoint.complex (displacement lineStart panTranslation)‖) :
    CGPoint.complex (knobFromMiddle lineStart panTranslation) =
      outOfRange lineStart (CGPoint.complex (displacement lineStart panTranslation)) := by
  have touch : lineStart.preLoc + panTranslation =
      displacement lineStart panTranslation + lineStart.offset := by
    ext <;> simp [displacement]
  have test := mt (norm_lt_iff nonneg).mp (not_lt.mpr far)
  rw [displacement] at test
  unfold knobFromMiddle EditableLineStart.updateKnobPosition
  dsimp only
  rw [if_neg test, complex_sub, complex_add, add_sub_cancel_right, outOfRange, ← complex_add, ← touch]
  exact (complex_smul _ _).trans (congrArg _ (complex_normalized _))

/-- The knob goes where a clamp of the displacement puts it. -/
theorem knobFromMiddle_eq (nonneg : 0 ≤ lineStart.maxVectorRadius) :
    CGPoint.complex (knobFromMiddle lineStart panTranslation) =
      clampBy lineStart.maxVectorRadius (outOfRange lineStart)
        (CGPoint.complex (displacement lineStart panTranslation)) := by
  by_cases inside : ‖CGPoint.complex (displacement lineStart panTranslation)‖ < lineStart.maxVectorRadius
  · rw [knobFromMiddle_inside nonneg inside, clampBy_of_lt inside]
  · rw [knobFromMiddle_outside nonneg (not_lt.mp inside), clampBy_of_le (not_lt.mp inside)]

theorem norm_offset_lt (wide : 0 < lineStart.maxVectorRadius) :
    ‖CGPoint.complex lineStart.offset‖ < lineStart.maxVectorRadius := by
  rw [← norm_lt_iff wide.le]
  change 0 < lineStart.width at wide
  change lineStart.width / 2 * (lineStart.width / 2) + lineStart.width / 2 * (lineStart.width / 2) <
    lineStart.width * lineStart.width
  nlinarith

/-- A displacement along the diagonal of the offset. -/
theorem offset_along_iff {d : CGPoint} (wide : 0 < lineStart.maxVectorRadius) (apart : CGPoint.complex d ≠ 0) :
    (∃ k : ℝ, CGPoint.complex lineStart.offset = k • CGPoint.complex d) ↔ d.x = d.y := by
  simp only [Complex.ext_iff, Complex.real_smul, Complex.re_ofReal_mul, Complex.im_ofReal_mul]
  simp only [CGPoint.complex, EditableLineStart.offset]
  constructor
  · rintro ⟨k, left, top⟩
    have nonzero : k ≠ 0 := by
      rintro rfl
      rw [zero_mul] at left
      exact (half_pos wide).ne' left
    exact mul_left_cancel₀ nonzero (left.symm.trans top)
  · intro diagonal
    have across : d.x ≠ 0 := by
      intro zero
      exact apart (Complex.ext zero (diagonal.symm.trans zero))
    refine ⟨lineStart.width / 2 / d.x, (div_mul_cancel₀ _ across).symm, ?_⟩
    rw [← diagonal, div_mul_cancel₀ _ across]

/-- Beyond the radius the knob is on the ray of the touch only along the diagonal. -/
theorem sameRay_outOfRange_iff (wide : 0 < lineStart.maxVectorRadius) {d : CGPoint}
    (far : lineStart.maxVectorRadius ≤ ‖CGPoint.complex d‖) :
    SameRay ℝ (CGPoint.complex d) (outOfRange lineStart (CGPoint.complex d)) ↔ d.x = d.y := by
  have apart : CGPoint.complex d ≠ 0 := norm_pos_iff.mp (wide.trans_le far)
  rw [outOfRange, sameRay_smul_right_iff_of_pos wide, sameRay_normalize_right_iff,
    sameRay_add_iff ((norm_offset_lt wide).trans_le far), offset_along_iff wide apart]

theorem norm_outOfRange (wide : 0 < lineStart.maxVectorRadius) {d : CGPoint}
    (far : lineStart.maxVectorRadius ≤ ‖CGPoint.complex d‖) :
    ‖outOfRange lineStart (CGPoint.complex d)‖ = lineStart.maxVectorRadius := by
  have apart : CGPoint.complex d + CGPoint.complex lineStart.offset ≠ 0 := by
    intro zero
    have equal := congrArg norm (eq_neg_of_add_eq_zero_left zero)
    rw [norm_neg] at equal
    exact absurd (norm_offset_lt wide) (not_lt.mpr (equal ▸ far))
  rw [outOfRange, norm_smul, NormedSpace.norm_normalize apart, mul_one, Real.norm_of_nonneg wide.le]

/-- It is then where the radial projection puts it only along the diagonal, too. -/
theorem outOfRange_eq_iff (wide : 0 < lineStart.maxVectorRadius) {d : CGPoint}
    (far : lineStart.maxVectorRadius ≤ ‖CGPoint.complex d‖) :
    outOfRange lineStart (CGPoint.complex d) =
      lineStart.maxVectorRadius • NormedSpace.normalize (CGPoint.complex d) ↔ d.x = d.y := by
  have apart : CGPoint.complex d ≠ 0 := norm_pos_iff.mp (wide.trans_le far)
  have sphere : ‖lineStart.maxVectorRadius • NormedSpace.normalize (CGPoint.complex d)‖ =
      ‖outOfRange lineStart (CGPoint.complex d)‖ := by
    rw [norm_outOfRange wide far, norm_smul, NormedSpace.norm_normalize apart, mul_one,
      Real.norm_of_nonneg wide.le]
  rw [← sameRay_outOfRange_iff wide far, eq_comm, ← sameRay_iff_of_norm_eq sphere, SameRay.sameRay_comm,
    sameRay_smul_right_iff_of_pos wide, sameRay_normalize_right_iff, SameRay.sameRay_comm]

theorem updateKnobPosition_width :
    (lineStart.updateKnobPosition panTranslation).width = lineStart.width := by
  unfold EditableLineStart.updateKnobPosition
  dsimp only
  split_ifs <;> rfl

/-- The knob is in the direction that is stored, unless it is on the corner. -/
theorem reading_updated :
    CGVector.complex (lineStart.updateKnobPosition panTranslation).getCurrentKnobVectorNormalized =
      min (‖CGPoint.complex (lineStart.updateKnobPosition panTranslation).knobCenter‖ /
        lineStart.maxVectorRadius) 1 •
        NormedSpace.normalize (CGPoint.complex (knobFromMiddle lineStart panTranslation)) := by
  rw [reading_complex, EditableLineStart.maxVectorRadius, EditableLineStart.offset,
    updateKnobPosition_width]
  rfl

theorem knobCenter_ne_zero (wide : 0 < lineStart.maxVectorRadius)
    (far : lineStart.maxVectorRadius ≤ ‖CGPoint.complex (displacement lineStart panTranslation)‖) :
    CGPoint.complex (lineStart.updateKnobPosition panTranslation).knobCenter ≠ 0 := by
  intro corner
  have across : CGPoint.complex (knobFromMiddle lineStart panTranslation) =
      -CGPoint.complex lineStart.offset := by
    rw [knobFromMiddle, complex_sub, corner, zero_sub]
  have radius := norm_outOfRange wide far
  rw [← knobFromMiddle_outside wide.le far, across, norm_neg] at radius
  exact (norm_offset_lt wide).ne radius

end Knob

section Projection
variable (lineStart : EditableLineStart) (panTranslation : CGPoint)

/-- The knob is the radial projection of the touch, the stored direction is the
one of the touch, and on the rim the knob does not jump. -/
structure RadialProjection : Prop where
  position : CGPoint.complex (knobFromMiddle lineStart panTranslation) =
    radialClamp lineStart.maxVectorRadius (CGPoint.complex (displacement lineStart panTranslation))
  direction : SameRay ℝ (CGPoint.complex (displacement lineStart panTranslation))
    (CGVector.complex (lineStart.updateKnobPosition panTranslation).getCurrentKnobVectorNormalized)
  noJump : ‖CGPoint.complex (displacement lineStart panTranslation)‖ = lineStart.maxVectorRadius →
    ContinuousAt (fun t => CGPoint.complex (knobFromMiddle lineStart (pointOf t)))
      (CGPoint.complex panTranslation)

/-- The touch is in range, or on the diagonal of the element. -/
def InRangeOrDiagonal : Prop :=
  ‖CGPoint.complex (displacement lineStart panTranslation)‖ < lineStart.maxVectorRadius ∨
    (displacement lineStart panTranslation).x = (displacement lineStart panTranslation).y

variable {lineStart panTranslation}

theorem position_iff (wide : 0 < lineStart.maxVectorRadius) :
    CGPoint.complex (knobFromMiddle lineStart panTranslation) =
      radialClamp lineStart.maxVectorRadius (CGPoint.complex (displacement lineStart panTranslation)) ↔
      InRangeOrDiagonal lineStart panTranslation := by
  unfold radialClamp InRangeOrDiagonal
  by_cases inside : ‖CGPoint.complex (displacement lineStart panTranslation)‖ < lineStart.maxVectorRadius
  · rw [knobFromMiddle_inside wide.le inside, clampBy_of_lt inside]
    exact iff_of_true rfl (.inl inside)
  · have far := not_lt.mp inside
    rw [knobFromMiddle_outside wide.le far, clampBy_of_le far, outOfRange_eq_iff wide far,
      or_iff_right inside]

theorem direction_iff (wide : 0 < lineStart.maxVectorRadius) :
    SameRay ℝ (CGPoint.complex (displacement lineStart panTranslation))
      (CGVector.complex (lineStart.updateKnobPosition panTranslation).getCurrentKnobVectorNormalized) ↔
      InRangeOrDiagonal lineStart panTranslation := by
  unfold InRangeOrDiagonal
  rw [reading_updated]
  by_cases inside : ‖CGPoint.complex (displacement lineStart panTranslation)‖ < lineStart.maxVectorRadius
  · rw [knobFromMiddle_inside wide.le inside]
    refine iff_of_true ((sameRay_normalize_right_iff.mpr SameRay.rfl).nonneg_smul_right ?_) (.inl inside)
    exact le_min (div_nonneg (norm_nonneg _) wide.le) zero_le_one
  · have far := not_lt.mp inside
    have positive : 0 < min (‖CGPoint.complex (lineStart.updateKnobPosition panTranslation).knobCenter‖ /
        lineStart.maxVectorRadius) 1 :=
      lt_min (div_pos (norm_pos_iff.mpr (knobCenter_ne_zero wide far)) wide) one_pos
    rw [sameRay_smul_right_iff_of_pos positive, sameRay_normalize_right_iff,
      knobFromMiddle_outside wide.le far, sameRay_outOfRange_iff wide far, or_iff_right inside]

theorem continuousAt_outOfRange (wide : 0 < lineStart.maxVectorRadius) {d : ℂ}
    (far : lineStart.maxVectorRadius ≤ ‖d‖) : ContinuousAt (outOfRange lineStart) d := by
  have apart : d + CGPoint.complex lineStart.offset ≠ 0 := by
    intro zero
    have equal := congrArg norm (eq_neg_of_add_eq_zero_left zero)
    rw [norm_neg] at equal
    exact absurd (norm_offset_lt wide) (not_lt.mpr (equal ▸ far))
  have shifted : ContinuousAt (fun d => d + CGPoint.complex lineStart.offset) d := by fun_prop
  have direction : ContinuousAt (fun d => NormedSpace.normalize (d + CGPoint.complex lineStart.offset)) d :=
    (shifted.norm.inv₀ (norm_ne_zero_iff.mpr apart)).smul shifted
  exact direction.const_smul lineStart.maxVectorRadius

theorem continuousAt_iff (wide : 0 < lineStart.maxVectorRadius)
    (rim : ‖CGPoint.complex (displacement lineStart panTranslation)‖ = lineStart.maxVectorRadius) :
    ContinuousAt (fun t => CGPoint.complex (knobFromMiddle lineStart (pointOf t)))
      (CGPoint.complex panTranslation) ↔
      (displacement lineStart panTranslation).x = (displacement lineStart panTranslation).y := by
  let shift := CGPoint.complex lineStart.preLoc - CGPoint.complex lineStart.offset
  have placed : ∀ t, CGPoint.complex (displacement lineStart (pointOf t)) = Homeomorph.addRight shift t := by
    intro t
    have same : CGPoint.complex (pointOf t) = t := rfl
    rw [displacement, complex_sub, complex_add, same, Homeomorph.coe_addRight]
    exact (add_sub_right_comm _ _ _).trans (add_comm _ _)
  have composed : (fun t => CGPoint.complex (knobFromMiddle lineStart (pointOf t))) =
      clampBy lineStart.maxVectorRadius (outOfRange lineStart) ∘ Homeomorph.addRight shift := by
    funext t
    rw [knobFromMiddle_eq wide.le, placed, Function.comp_apply]
  have here : Homeomorph.addRight shift (CGPoint.complex panTranslation) =
      CGPoint.complex (displacement lineStart panTranslation) := (placed _).symm
  rw [composed, Homeomorph.comp_continuousAt_iff', here,
    continuousAt_clampBy_iff wide rim (continuousAt_outOfRange wide rim.ge), ← outOfRange_eq_iff wide rim.ge,
    smul_normalize_eq_iff.mpr (.inr rim.symm)]

/-- The touch is projected radially exactly if it is in range or on the diagonal. -/
theorem updateKnobPosition_radial_iff (lineStart : EditableLineStart) (panTranslation : CGPoint)
    (wide : 0 < lineStart.maxVectorRadius) :
    RadialProjection lineStart panTranslation ↔ InRangeOrDiagonal lineStart panTranslation := by
  constructor
  · exact fun projected => (position_iff wide).mp projected.position
  · intro fine
    refine ⟨(position_iff wide).mpr fine, (direction_iff wide).mpr fine, fun rim => ?_⟩
    exact (continuousAt_iff wide rim).mpr (fine.resolve_left rim.not_lt)

/-- A line start of width 2 whose knob was in the middle when the pan began. -/
def smallStart : EditableLineStart := ⟨⟨1, 1⟩, 2, ⟨1, 1⟩, ⟨1, 1⟩, ⟨0, 0⟩, ⟨1, 1⟩, 0⟩

theorem smallStart_wide : 0 < smallStart.maxVectorRadius := two_pos

theorem smallStart_displacement (p : CGPoint) : displacement smallStart p = p := by
  ext <;> norm_num [displacement, smallStart, EditableLineStart.offset]

/-- A short drag is followed. -/
theorem shortDrag_radial : RadialProjection smallStart ⟨1, 0⟩ := by
  refine (updateKnobPosition_radial_iff smallStart ⟨1, 0⟩ smallStart_wide).mpr (.inl ?_)
  rw [← norm_lt_iff smallStart_wide.le, smallStart_displacement]
  norm_num [EditableLineStart.maxVectorRadius, smallStart]

/-- A drag to `(3, 2)` from the middle sends the knob to `(8/5, 6/5)`. -/
theorem longDrag_not_radial : knobFromMiddle smallStart ⟨3, 2⟩ = ⟨8 / 5, 6 / 5⟩ ∧
    ¬ RadialProjection smallStart ⟨3, 2⟩ := by
  have length : (⟨4, 3⟩ : CGVector).length = 5 := by
    rw [CGVector.length, Real.sqrt_eq_iff_mul_self_eq (by norm_num) (by norm_num)]
    norm_num
  have touch : smallStart.preLoc + ⟨3, 2⟩ = ⟨4, 3⟩ := by
    ext <;> norm_num [smallStart]
  constructor
  · unfold knobFromMiddle EditableLineStart.updateKnobPosition
    rw [touch]
    ext <;> norm_num [smallStart, EditableLineStart.offset, EditableLineStart.maxVectorRadius,
      CGVector.normalized, length]
  · intro projected
    have fine := (position_iff smallStart_wide).mp projected.position
    rw [InRangeOrDiagonal, ← norm_lt_iff smallStart_wide.le, smallStart_displacement] at fine
    norm_num [EditableLineStart.maxVectorRadius, smallStart] at fine

end Projection
end
end Arthius.Guarantees.KnobProjection
