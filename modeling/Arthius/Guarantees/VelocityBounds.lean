import Arthius.Guarantees.KnobProjection

/-!
# The velocities of the editor are bounded

What is read off a knob has at most length 1, wherever the knob is, so no
gesture reads a velocity outside the ellipse of the largest ones; what it stores
is the nearest `Float32` vector, which may lie just outside. A knob that
has once been dragged stays within the radius, also if it was put outside.
-/
namespace Arthius.Guarantees.VelocityBounds
open Arthius.Lib Arthius.Source CreateLevelView EditorSync KnobRoundTrip KnobProjection
open PredictionTermination (CGVector.complex CGPoint.complex pointOf length_eq_norm)

noncomputable section

section Reading
variable {lineStart : EditableLineStart}

/-- In the ellipse whose axes are the largest velocities of the screen. -/
def InEllipse (screen : Screen) (velocity : CGVector) : Prop :=
  (velocity.dx / maxPropStartVelocity.dx) ^ 2 +
    (velocity.dy / (maxPropStartVelocity.dy * (screen.width / screen.height))) ^ 2 ≤ 1

/-- The nearest vector of `Float32` to one in the ellipse. -/
def FromEllipse (screen : Screen) (stored : Source.Vector) : Prop :=
  ∃ velocity, InEllipse screen velocity ∧ stored = CGVector.vector velocity

/-- The knob is at most the radius away from the middle of its element. -/
def KnobWithin (lineStart : EditableLineStart) : Prop :=
  ‖CGPoint.complex (lineStart.knobCenter - lineStart.offset)‖ ≤ lineStart.maxVectorRadius

theorem norm_reading_le (nonneg : 0 ≤ lineStart.maxVectorRadius) :
    ‖CGVector.complex lineStart.getCurrentKnobVectorNormalized‖ ≤ 1 := by
  have scale : 0 ≤ min (‖CGPoint.complex lineStart.knobCenter‖ / lineStart.maxVectorRadius) 1 :=
    le_min (div_nonneg (norm_nonneg _) nonneg) zero_le_one
  rw [reading_complex, norm_smul, Real.norm_of_nonneg scale]
  exact mul_le_one₀ (min_le_right _ _) (norm_nonneg _) (norm_normalize_le _)

theorem inEllipse_iff (screen : Screen) (velocity : CGVector) :
    InEllipse screen velocity ↔ (proportion screen velocity).length ≤ 1 := by
  rw [← sq_le_one_iff₀ (length_nonneg _), length_sq, InEllipse]
  simp only [proportion, EditableLineStart.aspect, CGVector.div_dx, CGVector.div_dy, div_one, sq, div_div,
    mul_comm maxPropStartVelocity.dy]

/-- What `frameChanged` stores is in the ellipse. -/
theorem knobVelocity_inEllipse (screen : Screen) (nonneg : 0 ≤ lineStart.maxVectorRadius)
    (scale : lineStart.maxPropStartVelocity = maxPropStartVelocity) :
    InEllipse screen (lineStart.knobVelocity screen) := by
  rw [inEllipse_iff, ← (knobVelocity_eq_iff scale).mp rfl, length_eq_norm]
  exact norm_reading_le nonneg

theorem updateKnobPosition_within (nonneg : 0 ≤ lineStart.maxVectorRadius) (panTranslation : CGPoint) :
    KnobWithin (lineStart.updateKnobPosition panTranslation) := by
  have bounded : ∀ d, ‖outOfRange lineStart d‖ ≤ lineStart.maxVectorRadius := by
    intro d
    rw [outOfRange, norm_smul, Real.norm_of_nonneg nonneg]
    exact mul_le_of_le_one_right nonneg (norm_normalize_le _)
  have clamped := norm_clampBy_le bounded (CGPoint.complex (displacement lineStart panTranslation))
  rw [← knobFromMiddle_eq nonneg] at clamped
  unfold KnobWithin EditableLineStart.offset EditableLineStart.maxVectorRadius
  rw [updateKnobPosition_width]
  exact clamped

end Reading

section Step
variable {view after : CreateLevelView}

/-- What a gesture does with a knob. -/
def Moves (lineStart handled : EditableLineStart) : Prop :=
  SameKnob lineStart handled ∨ ∃ panTranslation, handled = lineStart.updateKnobPosition panTranslation

theorem Moves.width {lineStart handled : EditableLineStart} (moves : Moves lineStart handled) :
    handled.width = lineStart.width := by
  rcases moves with same | ⟨panTranslation, rfl⟩
  · exact same.2.1
  · exact updateKnobPosition_width

theorem Moves.scale {lineStart handled : EditableLineStart} (moves : Moves lineStart handled) :
    handled.maxPropStartVelocity = lineStart.maxPropStartVelocity := by
  rcases moves with same | ⟨panTranslation, rfl⟩
  · exact same.2.2
  · unfold EditableLineStart.updateKnobPosition
    dsimp only
    split_ifs <;> rfl

/-- What an action does to the line starts and to their objects. -/
inductive LinesStep (view after : CreateLevelView) (act : Action) : Prop where
  | kept (starts : after.lineStarts = view.lineStarts)
      (values : after.levelData.lineData.value = view.levelData.lineData.value)
      (other : ∀ i panTranslation, act ≠ .panKnob i .changed panTranslation)
  | added (position : Point) (velocity : CGVector) (d : ℕ)
      (starts : after.lineStarts = view.lineStarts ++ [lineStartAt view.screen position velocity d])
      (values : after.levelData.lineData.value = Function.update view.levelData.lineData.value d toolboxLine)
      (other : ∀ i panTranslation, act ≠ .panKnob i .changed panTranslation)
  | handled (i : ℕ) (lineStart handled : EditableLineStart) (at_ : view.lineStarts[i]? = some lineStart)
      (moves : Moves lineStart handled) (starts : after.lineStarts = view.lineStarts.set i handled)
      (values : after.levelData.lineData.value = view.levelData.lineData.value ∨
        ∃ own, after.levelData.lineData.value = Function.update view.levelData.lineData.value own
          (writeStart view.screen handled (view.levelData.lineData.value own)))
      (knob : ∀ j panTranslation, act = .panKnob j .changed panTranslation →
        j = i ∧ handled = lineStart.updateKnobPosition panTranslation)

theorem handlePan_moves (state : GestureState) (location : CGPoint) (lineStart : EditableLineStart) :
    Moves lineStart (lineStart.handlePan state location).1 := by
  cases state <;> exact .inl ⟨rfl, rfl, rfl⟩

theorem handleFrameChangePan_moves (state : GestureState) (panTranslation : CGPoint)
    (lineStart : EditableLineStart) : Moves lineStart (lineStart.handleFrameChangePan state panTranslation).1 := by
  cases state with
  | began => exact .inl ⟨rfl, rfl, rfl⟩
  | ended => exact .inl ⟨rfl, rfl, rfl⟩
  | changed => exact .inr ⟨panTranslation, rfl⟩

theorem refile_value_cases {α : Type*} [DecidableEq α] (o : Objects α) (own : ℕ) (change : α → α) :
    (o.refile own change).value = o.value ∨
      (o.refile own change).value = Function.update o.value own (change (o.value own)) := by
  unfold Objects.refile
  split
  · exact .inr rfl
  · exact .inl rfl

theorem handleStart_lines {act : Action} {i : ℕ}
    {handler : EditableLineStart → EditableLineStart × Bool} (moves : ∀ lineStart, Moves lineStart (handler lineStart).1)
    (knob : ∀ j panTranslation, act = .panKnob j .changed panTranslation →
      j = i ∧ ∀ lineStart, (handler lineStart).1 = lineStart.updateKnobPosition panTranslation)
    (success : view.handleStart i handler = some after) :
    after.screen = view.screen ∧ LinesStep view after act := by
  obtain ⟨lineStart, at_, success⟩ := Option.bind_eq_some_iff.mp success
  have knobHere : ∀ j panTranslation, act = .panKnob j .changed panTranslation →
      j = i ∧ (handler lineStart).1 = lineStart.updateKnobPosition panTranslation :=
    fun j panTranslation is => (knob j panTranslation is).imp_right fun same => same lineStart
  cases called : (handler lineStart).2 with
  | false =>
    simp only [called, Bool.false_eq_true, if_false, Option.some.injEq] at success
    subst success
    exact ⟨rfl, .handled i lineStart _ at_ (moves lineStart) rfl (.inl rfl) knobHere⟩
  | true =>
    simp only [called, if_true, Option.some.injEq] at success
    subst success
    refine ⟨rfl, .handled i lineStart _ at_ (moves lineStart) rfl ?_ knobHere⟩
    exact (refile_value_cases _ _ _).imp_right fun is => ⟨_, is⟩

theorem addStartLineToView_lines {d : ℕ} (success : view.addStartLineToView d = some after) :
    ∃ position velocity, after =
      { view with lineStarts := view.lineStarts ++ [lineStartAt view.screen position velocity d] } := by
  obtain ⟨position, _, success⟩ := Option.bind_eq_some_iff.mp success
  obtain ⟨velocity, _, success⟩ := Option.bind_eq_some_iff.mp success
  obtain ⟨_, _, success⟩ := Option.bind_eq_some_iff.mp success
  cases success
  exact ⟨position, velocity.cgVector, rfl⟩

/-- The boxes do not touch the line starts. -/
theorem handleBox_lines {act : Action} {i : ℕ} {handler : EditableColorBox → EditableColorBox × Bool}
    (other : ∀ i panTranslation, act ≠ .panKnob i .changed panTranslation)
    (success : view.handleBox i handler = some after) :
    after.screen = view.screen ∧ LinesStep view after act := by
  obtain ⟨colorBox, _, success⟩ := Option.bind_eq_some_iff.mp success
  cases called : (handler colorBox).2 <;>
    simp only [called, Bool.false_eq_true, if_false, if_true, Option.some.injEq] at success <;>
    subst success <;> exact ⟨rfl, .kept rfl rfl other⟩

theorem step_lines {act : Action} (success : editor.step view act = some after) :
    after.screen = view.screen ∧ LinesStep view after act := by
  cases act with
  | addColorBox =>
    obtain ⟨_, _, success⟩ := Option.bind_eq_some_iff.mp success
    obtain ⟨shown, added, success⟩ := Option.bind_eq_some_iff.mp success
    cases success
    obtain ⟨colorBox, rfl, _⟩ := addColorBoxToView_shown added
    exact ⟨rfl, .kept rfl rfl fun _ _ is => by cases is⟩
  | addLineStart =>
    obtain ⟨shown, added, success⟩ := Option.bind_eq_some_iff.mp success
    cases success
    obtain ⟨position, velocity, rfl⟩ := addStartLineToView_lines added
    exact ⟨rfl, .added position velocity _ rfl rfl fun _ _ is => by cases is⟩
  | panBox i state translation => exact handleBox_lines (fun _ _ is => by cases is) success
  | pinchBox i state scale currentScale => exact handleBox_lines (fun _ _ is => by cases is) success
  | rotateBox i rotation => exact handleBox_lines (fun _ _ is => by cases is) success
  | panStart i state translation =>
    exact handleStart_lines (handlePan_moves state translation) (fun _ _ is => by cases is) success
  | panKnob i state translation =>
    refine handleStart_lines (handleFrameChangePan_moves state translation) ?_ success
    rintro j panTranslation is
    cases is
    exact ⟨rfl, fun _ => rfl⟩

end Step

section Run
variable {screen : Screen} {level : EditedLevel} {view after : CreateLevelView}

/-- The size of every line start, with which the largest velocity is at the rim. -/
def Sized (screen : Screen) (lineStart : EditableLineStart) : Prop :=
  lineStart.width = screen.width / 10 ∧ lineStart.maxPropStartVelocity = maxPropStartVelocity

theorem Sized.nonneg {lineStart : EditableLineStart} (sized : Sized screen lineStart) :
    0 ≤ lineStart.maxVectorRadius := by
  rw [EditableLineStart.maxVectorRadius, sized.1]
  exact div_nonneg screen.width_pos.le (by norm_num)

theorem lineStartAt_sized (screen : Screen) (position : Point) (velocity : CGVector) (d : ℕ) :
    Sized screen (lineStartAt screen position velocity d) :=
  ⟨lineStartAt_width screen velocity position d, rfl⟩

/-- Every line start has its size, and a stored velocity is in the ellipse or comes with the level. -/
structure Bounded (screen : Screen) (level : EditedLevel) (view : CreateLevelView) : Prop where
  onScreen : view.screen = screen
  sized : ∀ lineStart ∈ view.lineStarts, Sized screen lineStart
  stored : ∀ d velocity, storedVelocity view d = some velocity →
    FromEllipse screen velocity ∨ (level.lineData.value d).startVelocity = some velocity

theorem toolboxLine_inEllipse (screen : Screen) : InEllipse screen ⟨1 / 1000, 0⟩ := by
  norm_num [InEllipse, maxPropStartVelocity]

/-- A write into one object, of a velocity from the ellipse. -/
theorem Bounded.write (bounded : Bounded screen level view) {own : ℕ} {data : LineData}
    (fromEllipse : ∀ velocity, data.startVelocity = some velocity → FromEllipse screen velocity)
    (values : after.levelData.lineData.value = Function.update view.levelData.lineData.value own data) :
    ∀ d velocity, storedVelocity after d = some velocity →
      FromEllipse screen velocity ∨ (level.lineData.value d).startVelocity = some velocity := by
  intro d velocity stored
  rw [storedVelocity, values] at stored
  by_cases here : d = own
  · subst here
    rw [Function.update_self] at stored
    exact .inl (fromEllipse velocity stored)
  · rw [Function.update_of_ne here] at stored
    exact bounded.stored d velocity stored

theorem Bounded.step {act : Action} (bounded : Bounded screen level view)
    (success : editor.step view act = some after) : Bounded screen level after := by
  obtain ⟨sameScreen, lines⟩ := step_lines success
  have screenAfter : after.screen = screen := sameScreen.trans bounded.onScreen
  cases lines with
  | kept starts values _ =>
    refine ⟨screenAfter, starts ▸ bounded.sized, fun d velocity stored => bounded.stored d velocity ?_⟩
    rw [storedVelocity, ← values]
    exact stored
  | added position velocity d starts values _ =>
    refine ⟨screenAfter, fun lineStart member => ?_, bounded.write (fun stored is => ?_) values⟩
    · rw [starts, List.mem_append, List.mem_singleton] at member
      rcases member with old | rfl
      · exact bounded.sized lineStart old
      · exact bounded.onScreen ▸ lineStartAt_sized view.screen position velocity d
    · cases is
      exact ⟨_, toolboxLine_inEllipse screen, rfl⟩
  | handled i lineStart handled at_ moves starts values _ =>
    have before := bounded.sized lineStart (List.mem_of_getElem? at_)
    have sized : Sized screen handled := ⟨moves.width.trans before.1, moves.scale.trans before.2⟩
    refine ⟨screenAfter, fun other member => ?_, ?_⟩
    · rw [starts] at member
      rcases List.mem_or_eq_of_mem_set member with old | rfl
      · exact bounded.sized other old
      · exact sized
    · rcases values with same | ⟨own, values⟩
      · intro d velocity stored
        rw [storedVelocity, same] at stored
        exact bounded.stored d velocity stored
      · refine bounded.write (fun velocity is => ?_) values
        cases is
        exact ⟨_, bounded.onScreen ▸ knobVelocity_inEllipse view.screen sized.nonneg sized.2, rfl⟩

/-- The editor opens with the velocities of the level. -/
theorem init_bounded (built : init screen level = some view) : Bounded screen level view := by
  obtain ⟨withStarts, started, loaded⟩ := Option.bind_eq_some_iff.mp built
  obtain ⟨_, lines, started⟩ := Option.bind_eq_some_iff.mp started
  obtain ⟨_, _, started⟩ := Option.bind_eq_some_iff.mp started
  obtain ⟨_, _, started⟩ := Option.bind_eq_some_iff.mp started
  cases started
  rw [Machine.foldlM_eq_run] at lines
  rw [loadCurrentLevel, Machine.foldlM_eq_run] at loaded
  have empty : Bounded screen level ⟨screen, level, [], []⟩ :=
    ⟨rfl, fun _ member => (List.not_mem_nil member).elim, fun _ _ stored => .inr stored⟩
  have opened : Bounded screen level withStarts := by
    refine Machine.run_invariant _ (fun before d next bounded added => ?_) empty lines
    obtain ⟨position, velocity, rfl⟩ := addStartLineToView_lines added
    refine ⟨bounded.onScreen, fun lineStart member => ?_, bounded.stored⟩
    rcases List.mem_append.mp member with old | new
    · exact bounded.sized lineStart old
    · rw [List.mem_singleton.mp new, ← bounded.onScreen]
      exact lineStartAt_sized before.screen position velocity d
  refine Machine.run_invariant _ (fun before d next bounded added => ?_) opened loaded
  obtain ⟨colorBox, rfl, _⟩ := addColorBoxToView_shown added
  exact ⟨bounded.onScreen, bounded.sized, bounded.stored⟩

/-- The line start number `i` is on the stage, with its knob within the radius. -/
def KnobIn (i : ℕ) (view : CreateLevelView) : Prop :=
  ∃ lineStart, view.lineStarts[i]? = some lineStart ∧ KnobWithin lineStart

theorem Moves.within {lineStart handled : EditableLineStart} (moves : Moves lineStart handled)
    (nonneg : 0 ≤ lineStart.maxVectorRadius) (within : KnobWithin lineStart) : KnobWithin handled := by
  rcases moves with same | ⟨panTranslation, rfl⟩
  · unfold KnobWithin EditableLineStart.offset EditableLineStart.maxVectorRadius at within ⊢
    rwa [same.1, same.2.1]
  · exact updateKnobPosition_within nonneg panTranslation

theorem KnobIn.step {i : ℕ} {act : Action} (knobIn : KnobIn i view) (bounded : Bounded screen level view)
    (success : editor.step view act = some after) : KnobIn i after := by
  obtain ⟨lineStart, at_, within⟩ := knobIn
  obtain ⟨inside, _⟩ := List.getElem?_eq_some_iff.mp at_
  obtain ⟨_, lines⟩ := step_lines success
  cases lines with
  | kept starts _ _ => exact ⟨lineStart, starts ▸ at_, within⟩
  | added position velocity d starts _ _ =>
    refine ⟨lineStart, ?_, within⟩
    rw [starts, List.getElem?_append_left inside, at_]
  | handled j other handled there moves starts _ _ =>
    by_cases same : j = i
    · subst same
      obtain rfl : lineStart = other := Option.some.inj (at_.symm.trans there)
      refine ⟨handled, ?_, moves.within (bounded.sized lineStart (List.mem_of_getElem? at_)).nonneg within⟩
      rw [starts, List.getElem?_set_self inside]
    · refine ⟨lineStart, ?_, within⟩
      rw [starts, List.getElem?_set_ne same, at_]

/-- A drag brings the knob in. -/
theorem knobIn_of_dragged {i : ℕ} {panTranslation : CGPoint} (bounded : Bounded screen level view)
    (success : editor.step view (.panKnob i .changed panTranslation) = some after) : KnobIn i after := by
  obtain ⟨_, lines⟩ := step_lines success
  cases lines with
  | kept _ _ other => exact absurd rfl (other i panTranslation)
  | added _ _ _ _ _ other => exact absurd rfl (other i panTranslation)
  | handled j lineStart handled at_ _ starts _ knob =>
    obtain ⟨rfl, is⟩ := knob i panTranslation rfl
    obtain ⟨inside, _⟩ := List.getElem?_eq_some_iff.mp at_
    have nonneg := (bounded.sized lineStart (List.mem_of_getElem? at_)).nonneg
    refine ⟨handled, ?_, is ▸ updateKnobPosition_within nonneg panTranslation⟩
    rw [starts, List.getElem?_set_self inside]

theorem run_knobIn {i : ℕ} {reached : CreateLevelView} {actions : List Action}
    (bounded : Bounded screen level view) (run : editor.run view actions = some reached)
    (dragged : KnobIn i view ∨ ∃ panTranslation, .panKnob i .changed panTranslation ∈ actions) :
    KnobIn i reached := by
  induction actions generalizing view with
  | nil =>
    cases run
    exact dragged.resolve_right fun ⟨_, member⟩ => by cases member
  | cons act rest ih =>
    obtain ⟨after, step, runRest⟩ := editor.run_cons_some.mp run
    refine ih (bounded.step step) runRest ?_
    rcases dragged with before | ⟨panTranslation, member⟩
    · exact .inl (before.step bounded step)
    · rcases List.mem_cons.mp member with rfl | later
      · exact .inl (knobIn_of_dragged bounded step)
      · exact .inr ⟨panTranslation, later⟩

/-- The line start of the toolbox, and its knob dragged 10 points straight right. -/
def toolboxStart : EditableLineStart := lineStartAt tablet ⟨1 / 2, 1 / 2⟩ (CGVector.vector ⟨1 / 1000, 0⟩).cgVector 0

def draggedStart : EditableLineStart :=
  { toolboxStart with preLoc := toolboxStart.knobCenter }.updateKnobPosition ⟨10, 0⟩

theorem normalized_right {x : CGFloat} (positive : 0 < x) : (⟨x, 0⟩ : CGVector).normalized = ⟨1, 0⟩ := by
  have length : (⟨x, 0⟩ : CGVector).length = x := by
    rw [CGVector.length, mul_zero, add_zero, Real.sqrt_mul_self positive.le]
  rw [CGVector.normalized, length, if_pos positive]
  ext
  · exact div_self positive.ne'
  · exact zero_div x

theorem toolboxStart_width : toolboxStart.width = 384 / 5 := by
  rw [toolboxStart, lineStartAt_width]
  norm_num [tablet]

/-- The knob is in range, but further than the radius from the corner. -/
theorem draggedStart_knob : ∃ x, 70 < x ∧ draggedStart.knobCenter = ⟨x, 192 / 5⟩ ∧ draggedStart.width = 384 / 5 := by
  have knob : toolboxStart.knobCenter = ⟨(2 / 3 * (8589935 / 2 ^ 33 * 500) + 1 / 2) * (384 / 5), 192 / 5⟩ := by
    rw [toolboxStart, lineStartAt_knobCenter, CGVector.vector, float32_thousandth, float32, BinaryFormat.round_zero]
    ext <;> norm_num [proportion, maxPropStartVelocity, EditableLineStart.aspect, Source.Vector.cgVector, tablet]
  refine ⟨(2 / 3 * (8589935 / 2 ^ 33 * 500) + 1 / 2) * (384 / 5) + 10, by norm_num, ?_,
    updateKnobPosition_width.trans toolboxStart_width⟩
  unfold draggedStart EditableLineStart.updateKnobPosition
  rw [if_pos]
  · ext <;> norm_num [knob]
  · norm_num [knob, toolboxStart_width, EditableLineStart.offset, EditableLineStart.maxVectorRadius]

theorem draggedStart_velocity : draggedStart.knobVelocity tablet = ⟨1 / 500, 0⟩ := by
  obtain ⟨x, right, knob, width⟩ := draggedStart_knob
  have direction : (⟨draggedStart.knobCenter.x - draggedStart.offset.x,
      draggedStart.knobCenter.y - draggedStart.offset.y⟩ : CGVector).normalized = ⟨1, 0⟩ := by
    rw [knob, EditableLineStart.offset, width, show (192 / 5 : ℝ) - 384 / 5 / 2 = 0 by norm_num]
    exact normalized_right (by linarith)
  have far : 1 < Real.sqrt (draggedStart.knobCenter.x * draggedStart.knobCenter.x +
      draggedStart.knobCenter.y * draggedStart.knobCenter.y) / draggedStart.maxVectorRadius := by
    rw [EditableLineStart.maxVectorRadius, width, one_lt_div (by norm_num), knob]
    apply Real.lt_sqrt_of_sq_lt
    norm_num
    nlinarith
  have reading : draggedStart.getCurrentKnobVectorNormalized = ⟨1, 0⟩ := by
    simp only [EditableLineStart.getCurrentKnobVectorNormalized]
    rw [direction, if_pos far]
    ext <;> simp
  have scale : draggedStart.maxPropStartVelocity = maxPropStartVelocity := by
    unfold draggedStart EditableLineStart.updateKnobPosition
    dsimp only
    split_ifs <;> rfl
  rw [EditableLineStart.knobVelocity, reading, scale]
  ext <;> simp [EditableLineStart.aspect, maxPropStartVelocity]

/-- The `Float32` nearest to the largest velocity is larger. -/
theorem float32_largest : float32 (1 / 500) = 8589935 / 2 ^ 32 := by
  have rounded : binary32.round (1 / 500 : ℝ) = ((8589935 : ℤ) : ℝ) * 2 ^ (-32 : ℤ) := by
    refine BinaryFormat.round_eq_of_leading (k := -9) rfl (by decide) ?_ ?_ ?_ <;> norm_num [abs_lt]
  rw [float32, rounded]
  norm_num

end Run
end
end Arthius.Guarantees.VelocityBounds
