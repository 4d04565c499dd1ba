import Mathlib.Analysis.InnerProductSpace.Basic
import Arthius.Guarantees.EditorSync
import Arthius.Guarantees.PredictionTermination
import Arthius.Lib.RadialClamp

/-!
# Reading the knob back

A knob is put at two thirds of the radius, counted from the middle of its
element, and its distance is read from the corner. So a line start that is only
opened and moved gets another velocity, unless it is so near to one of two curves
that the rounding to `Float32` makes up for it.
-/
namespace Arthius.Guarantees.KnobRoundTrip
open Arthius.Lib Arthius.Source CreateLevelView EditorSync
open PredictionTermination (CGVector.complex CGPoint.complex length_eq_norm)

noncomputable section

section Plane
variable (v : CGVector) (k : CGFloat)

theorem complex_injective : Function.Injective CGVector.complex := by
  intro v w same
  exact CGVector.ext (congrArg Complex.re same) (congrArg Complex.im same)

theorem complex_smul : CGVector.complex (v * k) = k • CGVector.complex v := by
  apply Complex.ext <;> simp [CGVector.complex, mul_comm]

theorem complex_div : CGVector.complex (v / k) = k⁻¹ • CGVector.complex v := by
  apply Complex.ext <;> simp only [CGVector.complex, CGVector.sdiv_dx, CGVector.sdiv_dy, Complex.real_smul,
    Complex.re_ofReal_mul, Complex.im_ofReal_mul, div_eq_inv_mul]

theorem length_nonneg : 0 ≤ v.length := Real.sqrt_nonneg _

theorem length_sq : v.length ^ 2 = v.dx * v.dx + v.dy * v.dy :=
  Real.sq_sqrt (add_nonneg (mul_self_nonneg _) (mul_self_nonneg _))

theorem complex_zero : CGVector.complex CGVector.zero = 0 := rfl

theorem complex_normalized : CGVector.complex v.normalized = NormedSpace.normalize (CGVector.complex v) := by
  unfold CGVector.normalized NormedSpace.normalize
  rw [length_eq_norm]
  split_ifs with moving
  · rw [complex_div]
  · rw [le_antisymm (not_lt.mp moving) (norm_nonneg _), inv_zero, zero_smul, complex_zero]

end Plane

section Reading
variable (screen : Screen)

/-- A velocity as a proportion of the largest one, without the aspect of the screen. -/
def proportion (velocity : CGVector) : CGVector :=
  velocity / EditableLineStart.aspect screen / maxPropStartVelocity

/-- The distance from the corner at which a proportion is put, in radii. -/
def reach (v : CGVector) : CGVector := ⟨2 / 3 * v.dx + 1 / 2, 2 / 3 * v.dy + 1 / 2⟩

/-- The factor by which a proportion is read back too large. -/
def rereadScale (v : CGVector) : CGFloat := min (reach v).length 1 / v.length

/-- The factor is so near to 1 that storing the velocity takes it back. -/
def RoundedBack (screen : Screen) (velocity : Source.Vector) : Prop :=
  CGVector.vector (velocity.cgVector * rereadScale (proportion screen velocity.cgVector)) = velocity

variable {screen} {velocity : CGVector}

/-- The velocity read off a knob is a given one exactly if the proportions agree. -/
theorem knobVelocity_eq_iff {lineStart : EditableLineStart}
    (scale : lineStart.maxPropStartVelocity = maxPropStartVelocity) :
    lineStart.knobVelocity screen = velocity ↔
      lineStart.getCurrentKnobVectorNormalized = proportion screen velocity := by
  have width := screen.width_pos.ne'
  have height := screen.height_pos.ne'
  rw [EditableLineStart.knobVelocity, scale]
  generalize lineStart.getCurrentKnobVectorNormalized = reading
  simp only [CGVector.ext_iff, proportion, EditableLineStart.aspect, maxPropStartVelocity, CGVector.mul_dx,
    CGVector.mul_dy, CGVector.div_dx, CGVector.div_dy, mul_one, div_one]
  refine and_congr ?_ ?_
  · rw [eq_div_iff (by norm_num)]
  · rw [eq_div_iff (by norm_num), eq_div_iff (div_ne_zero width height)]

variable (screen) (position : Point) (velocity) (d : ℕ)

theorem lineStartAt_width : (lineStartAt screen position velocity d).width = screen.width / 10 := by
  have nonneg : 0 ≤ screen.width * |1 / 10| := mul_nonneg screen.width_pos.le (abs_nonneg _)
  simp only [lineStartAt, EditableLineStart.new, Screen.propToRect, CGRect.mk4, CGRect.width,
    abs_of_nonneg nonneg]
  rw [abs_of_pos (by norm_num : (0 : ℝ) < 1 / 10), mul_one_div]

/-- The knob stands at two thirds of the way to the rim. -/
theorem lineStartAt_knobCenter :
    (lineStartAt screen position velocity d).knobCenter =
      ⟨(2 / 3 * (proportion screen velocity).dx + 1 / 2) * (screen.width / 10),
        (2 / 3 * (proportion screen velocity).dy + 1 / 2) * (screen.width / 10)⟩ := by
  rw [← lineStartAt_width screen velocity position d]
  ext <;> simp only [lineStartAt, EditableLineStart.new, EditableLineStart.initialKnob,
    EditableLineStart.getKnobPointFromVector, EditableLineStart.maxVectorRadius, EditableLineStart.offset,
    proportion, CGPoint.add_x, CGPoint.add_y, CGVector.smul_dx, CGVector.smul_dy] <;> ring

theorem reading_complex (lineStart : EditableLineStart) :
    CGVector.complex lineStart.getCurrentKnobVectorNormalized =
      min (‖CGPoint.complex lineStart.knobCenter‖ / lineStart.maxVectorRadius) 1 •
        NormedSpace.normalize (CGPoint.complex (lineStart.knobCenter - lineStart.offset)) := by
  have distance : Real.sqrt (lineStart.knobCenter.x * lineStart.knobCenter.x +
      lineStart.knobCenter.y * lineStart.knobCenter.y) = ‖CGPoint.complex lineStart.knobCenter‖ :=
    length_eq_norm ⟨lineStart.knobCenter.x, lineStart.knobCenter.y⟩
  simp only [EditableLineStart.getCurrentKnobVectorNormalized, distance, complex_smul, complex_normalized]
  congr 1
  split_ifs with far
  · exact (min_eq_right far.le).symm
  · exact (min_eq_left (not_lt.mp far)).symm

theorem reach_sq (v : CGVector) :
    18 * (reach v).length ^ 2 = 8 * v.length ^ 2 + 3 * (4 * (v.dx + v.dy) + 3) := by
  rw [length_sq, length_sq, reach]
  ring

/-- What is read off the knob of a new line start. -/
theorem lineStartAt_reading :
    CGVector.complex (lineStartAt screen position velocity d).getCurrentKnobVectorNormalized =
      min (reach (proportion screen velocity)).length 1 •
        NormedSpace.normalize (CGVector.complex (proportion screen velocity)) := by
  have positive : 0 < screen.width / 10 := div_pos screen.width_pos (by norm_num)
  have knob : CGPoint.complex (lineStartAt screen position velocity d).knobCenter =
      (screen.width / 10) • CGVector.complex (reach (proportion screen velocity)) := by
    rw [lineStartAt_knobCenter, ← complex_smul]
    rfl
  have placed : CGPoint.complex ((lineStartAt screen position velocity d).knobCenter -
      (lineStartAt screen position velocity d).offset) =
      (2 / 3 * (screen.width / 10)) • CGVector.complex (proportion screen velocity) := by
    rw [lineStartAt_knobCenter, ← complex_smul, EditableLineStart.offset, lineStartAt_width]
    apply Complex.ext <;> simp only [CGPoint.complex, CGVector.complex, CGPoint.sub_x, CGPoint.sub_y,
      CGVector.smul_dx, CGVector.smul_dy] <;> ring
  rw [reading_complex, knob, placed, EditableLineStart.maxVectorRadius, lineStartAt_width,
    NormedSpace.normalize_smul_of_pos (mul_pos (by norm_num) positive), norm_smul,
    Real.norm_of_nonneg positive.le, mul_div_cancel_left₀ _ positive.ne', length_eq_norm]

/-- So the velocity comes back with the factor of its proportion. -/
theorem lineStartAt_knobVelocity : (lineStartAt screen position velocity d).knobVelocity screen =
    velocity * rereadScale (proportion screen velocity) := by
  rw [knobVelocity_eq_iff rfl]
  have scaled : proportion screen (velocity * rereadScale (proportion screen velocity)) =
      proportion screen velocity * rereadScale (proportion screen velocity) := by
    ext <;> simp only [proportion, CGVector.div_dx, CGVector.div_dy, CGVector.smul_dx, CGVector.smul_dy] <;> ring
  rw [scaled, ← complex_injective.eq_iff, lineStartAt_reading, complex_smul, NormedSpace.normalize, smul_smul,
    ← length_eq_norm]
  rfl

theorem min_one_eq_iff {s r : ℝ} (bounded : r ≤ 1) : min s 1 = r ↔ s = r ∨ r = 1 ∧ 1 ≤ s := by
  grind

/-- In the range, the factor is 1 on two curves. -/
theorem rereadScale_eq_one_iff {v : CGVector} (moving : 0 < v.length) (inRange : v.length ≤ 1) :
    rereadScale v = 1 ↔ 10 * v.length ^ 2 = 3 * (4 * (v.dx + v.dy) + 3) ∨
      v.length = 1 ∧ 10 ≤ 3 * (4 * (v.dx + v.dy) + 3) := by
  have squares := reach_sq v
  rw [rereadScale, div_eq_one_iff_eq moving.ne', min_one_eq_iff inRange]
  refine or_congr ?_ (and_congr_right fun rim => ?_)
  · rw [← sq_eq_sq₀ (length_nonneg _) (length_nonneg _)]
    constructor <;> intro same <;> linarith
  · rw [← one_le_sq_iff₀ (length_nonneg _)]
    rw [rim] at squares
    constructor <;> intro far <;> linarith

/-- Rounding takes back no factor that is further from 1 than its own error. -/
theorem near_of_float32_eq {x k : ℝ} (back : float32 (x * k) = x) (normal : 2 ^ (-126 : ℤ) ≤ |x * k|) :
    |x * k - x| ≤ |x * k| * 2 ^ (-24 : ℤ) := by
  have positive := (zpow_pos two_pos (-126 : ℤ)).trans_le normal
  have leading := (Int.zpow_le_iff_le_log one_lt_two positive).mp (by exact_mod_cast normal)
  have large : binary32.minExponent ≤ Int.log 2 |x * k| + 1 - binary32.precision := by
    unfold binary32
    dsimp only
    omega
  have error := binary32.abs_sub_round_le_mul _ positive large
  rw [float32] at back
  rwa [back] at error

end Reading

section Run
variable {i : ℕ} {screen : Screen} {built : EditableLineStart} {view after : CreateLevelView}

/-- A gesture of the line start number `i` that leaves its knob where it is. -/
def KnobStill (i : ℕ) (view : CreateLevelView) : Action → Prop
  | .panStart j _ _ => j = i
  | .panKnob j state translation => j = i ∧ ∀ lineStart, view.lineStarts[i]? = some lineStart →
      SameKnob lineStart (lineStart.handleFrameChangePan state translation).1
  | _ => False

/-- The gesture calls `frameChanged` of its line start. -/
def Fires : Action → Prop
  | .panStart _ state _ => state = .changed
  | .panKnob _ state _ => state = .changed
  | _ => False

def storedVelocity (view : CreateLevelView) (d : ℕ) : Option Source.Vector :=
  (view.levelData.lineData.value d).startVelocity

/-- The line start number `i` still has the knob it was built with. -/
structure Opened (screen : Screen) (i : ℕ) (built : EditableLineStart) (view : CreateLevelView) : Prop where
  screen : view.screen = screen
  shown : ∃ lineStart, view.lineStarts[i]? = some lineStart ∧ SameKnob built lineStart ∧
    lineStart.data = built.data
  listed : built.data ∈ view.levelData.lineData.array

theorem refile_listed {α : Type*} [DecidableEq α] {o : Objects α} {own : ℕ} (change : α → α)
    (held : own ∈ o.array) : own ∈ (o.refile own change).array := by
  obtain ⟨_, _, _, is⟩ := Objects.refile_cases change held
  rw [is]
  exact List.mem_append_right _ (List.mem_singleton_self own)

/-- `frameChanged` stores what the knob shows. -/
theorem startFrameChanged_stores (view : CreateLevelView) {lineStart : EditableLineStart}
    (listed : lineStart.data ∈ view.levelData.lineData.array) :
    storedVelocity (view.startFrameChanged lineStart) lineStart.data =
      some (CGVector.vector (lineStart.knobVelocity view.screen)) := by
  have written := congrFun (Objects.refile_value (writeStart view.screen lineStart) listed) lineStart.data
  rw [Function.update_self] at written
  simp only [storedVelocity, startFrameChanged, written, writeStart]

/-- A gesture that leaves the knob stores what the knob shows, if it calls `frameChanged`. -/
theorem handleStart_still {handler : EditableLineStart → EditableLineStart × Bool} {fires : Prop}
    (opened : Opened screen i built view) (honest : StartHonest handler)
    (calls : ∀ lineStart, (handler lineStart).2 = true ↔ fires)
    (still : ∀ lineStart, view.lineStarts[i]? = some lineStart → SameKnob lineStart (handler lineStart).1)
    (success : view.handleStart i handler = some after) :
    Opened screen i built after ∧
      (fires → storedVelocity after built.data = some (CGVector.vector (built.knobVelocity screen))) ∧
      (¬ fires → storedVelocity after built.data = storedVelocity view built.data) := by
  obtain ⟨lineStart, at_, same, own⟩ := opened.shown
  obtain ⟨other, there, success⟩ := Option.bind_eq_some_iff.mp success
  obtain rfl : lineStart = other := Option.some.inj (at_.symm.trans there)
  obtain ⟨inside, _⟩ := List.getElem?_eq_some_iff.mp at_
  have now : (view.lineStarts.set i (handler lineStart).1)[i]? = some (handler lineStart).1 :=
    List.getElem?_set_self inside
  have handled : SameKnob built (handler lineStart).1 := same.trans (still lineStart at_)
  have ownHandled : (handler lineStart).1.data = built.data := (honest.data lineStart).trans own
  cases called : (handler lineStart).2 with
  | false =>
    simp only [called, Bool.false_eq_true, if_false, Option.some.injEq] at success
    subst success
    refine ⟨⟨opened.screen, ⟨_, now, handled, ownHandled⟩, opened.listed⟩, fun fired => ?_, fun _ => rfl⟩
    exact absurd ((calls lineStart).mpr fired) (by simp [called])
  | true =>
    simp only [called, if_true, Option.some.injEq] at success
    subst success
    have listed : (handler lineStart).1.data ∈ view.levelData.lineData.array := ownHandled ▸ opened.listed
    refine ⟨⟨opened.screen, ⟨_, now, handled, ownHandled⟩, ?_⟩, fun _ => ?_, fun quiet => ?_⟩
    · exact ownHandled ▸ refile_listed _ listed
    · have stored := startFrameChanged_stores
        { view with lineStarts := view.lineStarts.set i (handler lineStart).1 } listed
      simpa only [ownHandled, handled.knobVelocity, opened.screen] using stored
    · exact absurd ((calls lineStart).mp called) quiet

theorem step_still {act : Action} (opened : Opened screen i built view) (still : KnobStill i view act)
    (success : editor.step view act = some after) :
    Opened screen i built after ∧
      (Fires act → storedVelocity after built.data = some (CGVector.vector (built.knobVelocity screen))) ∧
      (¬ Fires act → storedVelocity after built.data = storedVelocity view built.data) := by
  cases act with
  | panStart j state translation =>
    obtain rfl : j = i := still
    refine handleStart_still opened (handleStartPan_honest state translation) (fun lineStart => ?_)
      (fun lineStart _ => ?_) success
    · cases state <;> simp [EditableLineStart.handlePan, Fires]
    · cases state <;> exact ⟨rfl, rfl, rfl⟩
  | panKnob j state translation =>
    obtain ⟨rfl, still⟩ := still
    refine handleStart_still opened (handleFrameChangePan_honest state translation) (fun lineStart => ?_)
      still success
    cases state <;> simp [EditableLineStart.handleFrameChangePan, Fires]
  | addColorBox => exact still.elim
  | addLineStart => exact still.elim
  | panBox j state translation => exact still.elim
  | pinchBox j state scale currentScale => exact still.elim
  | rotateBox j rotation => exact still.elim

/-- Once `frameChanged` has been called, the stored velocity is the one of the knob. -/
theorem run_still {reached : CreateLevelView} {gestures : List Action} (opened : Opened screen i built view)
    (still : editor.Meets (KnobStill i) view gestures) (run : editor.run view gestures = some reached)
    (written : (∃ act ∈ gestures, Fires act) ∨
      storedVelocity view built.data = some (CGVector.vector (built.knobVelocity screen))) :
    storedVelocity reached built.data = some (CGVector.vector (built.knobVelocity screen)) := by
  induction gestures generalizing view with
  | nil =>
    cases run
    rcases written with ⟨act, member, _⟩ | written
    · cases member
    · exact written
  | cons act rest ih =>
    obtain ⟨after, step, runRest⟩ := editor.run_cons_some.mp run
    obtain ⟨openedAfter, stores, keeps⟩ := step_still opened still.1 step
    refine ih openedAfter (still.2 after step) runRest ?_
    by_cases fires : Fires act
    · exact .inr (stores fires)
    · rw [List.exists_mem_cons_iff, or_iff_right fires] at written
      exact written.imp_right (keeps fires).trans

/-- What is stored after the gestures is what the knob of the new line start shows. -/
theorem opened_stores {shown reached : CreateLevelView} {d : ℕ} {velocity : Source.Vector} {gestures : List Action}
    (listed : d ∈ view.levelData.lineData.array) (stored : storedVelocity view d = some velocity)
    (added : view.addStartLineToView d = some shown)
    (still : editor.Meets (KnobStill view.lineStarts.length) shown gestures)
    (fires : ∃ act ∈ gestures, Fires act) (run : editor.run shown gestures = some reached) :
    ∃ position, storedVelocity reached d =
      some (CGVector.vector ((lineStartAt view.screen position velocity.cgVector d).knobVelocity view.screen)) := by
  obtain ⟨position, _, added⟩ := Option.bind_eq_some_iff.mp added
  obtain ⟨same, storedSame, added⟩ := Option.bind_eq_some_iff.mp added
  obtain ⟨_, _, added⟩ := Option.bind_eq_some_iff.mp added
  obtain rfl : velocity = same := Option.some.inj (stored.symm.trans storedSame)
  cases added
  have opened : Opened view.screen view.lineStarts.length
      (lineStartAt view.screen position velocity.cgVector d)
      { view with
        lineStarts := view.lineStarts ++ [lineStartAt view.screen position velocity.cgVector d] } :=
    ⟨rfl, ⟨_, List.getElem?_concat_length, ⟨rfl, rfl, rfl⟩, rfl⟩, listed⟩
  exact ⟨position, run_still opened still run (.inl fires)⟩

/-- The stage before the line of a level is put on it. -/
def emptyStage (line : LineData) : CreateLevelView :=
  ⟨tablet, { oneLineLevel.toEditedLevel with lineData := ⟨fun _ => line, 1, [0]⟩ }, [], []⟩

/-- The element of the only line can be built and panned. -/
theorem emptyStage_panned (line : LineData) {position : Point} {velocity : Source.Vector} {color : Color}
    (hasPosition : line.startPosition = some position) (hasVelocity : line.startVelocity = some velocity)
    (hasColor : line.startColor = some color) :
    ∃ shown reached, (emptyStage line).addStartLineToView 0 = some shown ∧
      editor.run shown [.panStart 0 .changed ⟨10, 0⟩] = some reached := by
  have added : (emptyStage line).addStartLineToView 0 =
      some { emptyStage line with lineStarts := [lineStartAt tablet position velocity.cgVector 0] } := by
    simp only [addStartLineToView, emptyStage, hasPosition, hasVelocity, hasColor]
    rfl
  exact ⟨_, _, added, editor.run_cons_some.mpr ⟨_, rfl, rfl⟩⟩

theorem pan_still (view : CreateLevelView) (translation : CGPoint) :
    editor.Meets (KnobStill 0) view [.panStart 0 .changed translation] :=
  ⟨rfl, fun _ _ => trivial⟩

/-- A line whose knob was drawn out along `(4, 3)`, beyond the radius. -/
def limitVelocity : Source.Vector := ⟨13743895 / 2 ^ 33, 7730941 / 2 ^ 33⟩

def limitLine : LineData := { toolboxLine with startVelocity := some limitVelocity }

/-- It has lost less than a last place by rounding. -/
theorem limit_scale : 1 ≤ rereadScale (proportion tablet limitVelocity.cgVector) ∧
    rereadScale (proportion tablet limitVelocity.cgVector) ≤ 1 + 3 / 10 ^ 8 := by
  have proportion_ : proportion tablet limitVelocity.cgVector =
      ⟨13743895 / 2 ^ 33 * 500, 7730941 / 2 ^ 33 * (2000 / 3)⟩ := by
    ext <;> norm_num [proportion, maxPropStartVelocity, EditableLineStart.aspect, limitVelocity,
      Source.Vector.cgVector, tablet]
  rw [proportion_]
  have below : (⟨13743895 / 2 ^ 33 * 500, 7730941 / 2 ^ 33 * (2000 / 3)⟩ : CGVector).length ≤ 1 := by
    rw [CGVector.length, Real.sqrt_le_one]
    norm_num
  have above : 1 / (1 + 3 / 10 ^ 8) ≤ (⟨13743895 / 2 ^ 33 * 500, 7730941 / 2 ^ 33 * (2000 / 3)⟩ : CGVector).length := by
    apply Real.le_sqrt_of_sq_le
    norm_num
  have far : 1 ≤ (reach ⟨13743895 / 2 ^ 33 * 500, 7730941 / 2 ^ 33 * (2000 / 3)⟩).length := by
    apply Real.le_sqrt_of_sq_le
    norm_num [reach]
  have positive : (0 : ℝ) < (⟨13743895 / 2 ^ 33 * 500, 7730941 / 2 ^ 33 * (2000 / 3)⟩ : CGVector).length :=
    lt_of_lt_of_le (by norm_num) above
  rw [rereadScale, min_eq_right far]
  constructor
  · rwa [one_le_div positive]
  · rw [div_le_iff₀ positive]
    rw [div_le_iff₀ (by norm_num)] at above
    linarith

theorem limit_back : RoundedBack tablet limitVelocity := by
  obtain ⟨least, most⟩ := limit_scale
  unfold RoundedBack
  generalize rereadScale (proportion tablet limitVelocity.cgVector) = k at least most
  have dx : binary32.round (13743895 / 2 ^ 33 * k) = ((13743895 : ℤ) : ℝ) * 2 ^ (-33 : ℤ) := by
    refine BinaryFormat.round_eq_of_leading (k := -10) rfl (by decide) ?_ ?_ ?_
    · rw [abs_of_nonneg (by positivity)]
      norm_num
      linarith
    · rw [abs_of_nonneg (by positivity)]
      norm_num
      linarith
    · norm_num [abs_lt]
      constructor <;> linarith
  have dy : binary32.round (7730941 / 2 ^ 33 * k) = ((15461882 : ℤ) : ℝ) * 2 ^ (-34 : ℤ) := by
    refine BinaryFormat.round_eq_of_leading (k := -11) rfl (by decide) ?_ ?_ ?_
    · rw [abs_of_nonneg (by positivity)]
      norm_num
      linarith
    · rw [abs_of_nonneg (by positivity)]
      norm_num
      linarith
    · norm_num [abs_lt]
      constructor <;> linarith
  apply Source.Vector.ext
  · change binary32.round (13743895 / 2 ^ 33 * k) = 13743895 / 2 ^ 33
    rw [dx]
    norm_num
  · change binary32.round (7730941 / 2 ^ 33 * k) = 7730941 / 2 ^ 33
    rw [dy]
    norm_num

/-- What the toolbox stores for the velocity 0.001. -/
theorem float32_thousandth : float32 (1 / 1000) = 8589935 / 2 ^ 33 := by
  have rounded : binary32.round (1 / 1000 : ℝ) = ((8589935 : ℤ) : ℝ) * 2 ^ (-33 : ℤ) := by
    refine BinaryFormat.round_eq_of_leading (k := -10) rfl (by decide) ?_ ?_ ?_ <;> norm_num [abs_lt]
  rw [float32, rounded]
  norm_num

end Run
end
end Arthius.Guarantees.KnobRoundTrip
