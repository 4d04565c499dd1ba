import Arthius.Source.CreateLevelView

/-!
# The editor keeps its level in step with the screen

Every `frameChanged` looks its object up by value. In every run of actions in
which the first entry found is always the element's own object, each element's
object is listed exactly once, with what the element shows. An edit that finds
another object first drops it from the level and lists its own twice.
-/
namespace Arthius.Guarantees.EditorSync
open Arthius.Lib Arthius.Source CreateLevelView

noncomputable section

section Shown
variable (screen : Screen)

/-- The object of a colour box has its frame, in proportions of the screen, and its rotation. -/
def BoxShown (data : ColorBoxData) (colorBox : EditableColorBox) : Prop :=
  (∃ frame, data.frame = some frame ∧ screen.propToRect frame.cgRect = colorBox.frame) ∧
    data.rotation = colorBox.rotation

def SameKnob (lineStart lineStart' : EditableLineStart) : Prop :=
  lineStart'.knobCenter = lineStart.knobCenter ∧ lineStart'.width = lineStart.width ∧
    lineStart'.maxPropStartVelocity = lineStart.maxPropStartVelocity

/-- The velocity was read off the knob, or the knob stands where it was put for
it when the line start was built. -/
def ShowsVelocity (Builds : CGVector → Prop) (lineStart : EditableLineStart) (velocity : CGVector) : Prop :=
  velocity = (CGVector.vector (lineStart.knobVelocity screen)).cgVector ∨
    Builds velocity ∧ ∃ position d, SameKnob (lineStartAt screen position velocity d) lineStart

/-- The object of a line start has its position and its velocity. -/
def StartShown (Builds : CGVector → Prop) (data : LineData) (lineStart : EditableLineStart) : Prop :=
  (∃ position, data.startPosition = some position ∧
    screen.propToPoint position.cgPoint = lineStart.center) ∧
    ∃ velocity, data.startVelocity = some velocity ∧
      ShowsVelocity screen Builds lineStart velocity.cgVector

/-- The arrays list each element's object exactly once, with what it shows. -/
structure InSyncFor (Builds : CGVector → Prop) (view : CreateLevelView) : Prop where
  boxes : Objects.Mirrors EditableColorBox.data (BoxShown view.screen) view.levelData.colorBoxData
    view.colorBoxes
  starts : Objects.Mirrors EditableLineStart.data (StartShown view.screen Builds) view.levelData.lineData
    view.lineStarts

abbrev InSync (view : CreateLevelView) : Prop := InSyncFor (fun _ => True) view

/-- The knob of a new line start is read back as the velocity it was put for. -/
def ReadsBack (velocity : CGVector) : Prop :=
  ∀ position d, (CGVector.vector ((lineStartAt screen position velocity d).knobVelocity screen)).cgVector =
    velocity

end Shown

section Geometry
variable (screen : Screen)

theorem propToRect_rectToProp {rect : CGRect} (wide : 0 ≤ rect.size.width) (high : 0 ≤ rect.size.height) :
    screen.propToRect (screen.rectToProp rect).rect.cgRect = rect := by
  have width := screen.width_pos
  have height := screen.height_pos
  have wideProp : 0 ≤ rect.size.width / screen.width := div_nonneg wide width.le
  have highProp : 0 ≤ rect.size.height / screen.height := div_nonneg high height.le
  ext <;> simp only [Screen.propToRect, Screen.rectToProp, CGRect.rect, Rect.cgRect, CGRect.mk4,
    CGRect.width, CGRect.height, abs_of_nonneg wide, abs_of_nonneg high, abs_of_nonneg wideProp,
    abs_of_nonneg highProp] <;> field_simp

theorem propToPoint_pointToProp (point : CGPoint) :
    screen.propToPoint (CGPoint.point (screen.pointToProp point)).cgPoint = point := by
  have width := screen.width_pos
  have height := screen.height_pos
  ext <;> simp only [Screen.propToPoint, Screen.pointToProp, Screen.propToFloat, Screen.floatToProp,
    CGPoint.point, Point.cgPoint, if_true, Bool.false_eq_true, if_false] <;> field_simp

theorem propToRect_size_nonneg (prop : CGRect) :
    0 ≤ (screen.propToRect prop).size.width ∧ 0 ≤ (screen.propToRect prop).size.height :=
  ⟨mul_nonneg screen.width_pos.le (abs_nonneg _), mul_nonneg screen.height_pos.le (abs_nonneg _)⟩

theorem new_frame {frame : CGRect} (wide : 0 ≤ frame.size.width) (high : 0 ≤ frame.size.height)
    (rotation : CGFloat) (data : ℕ) : (EditableColorBox.new frame rotation data).frame = frame := by
  have left : min frame.origin.x (frame.origin.x + frame.size.width) = frame.origin.x :=
    min_eq_left (le_add_of_nonneg_right wide)
  have top : min frame.origin.y (frame.origin.y + frame.size.height) = frame.origin.y :=
    min_eq_left (le_add_of_nonneg_right high)
  ext <;> simp only [EditableColorBox.frame, EditableColorBox.new, CGRect.mk4, CGRect.midX, CGRect.midY,
    CGRect.minX, CGRect.minY, CGRect.width, CGRect.height, mul_one, abs_of_nonneg wide,
    abs_of_nonneg high, left, top, add_sub_cancel_right]

theorem lineStartAt_center (position : Point) (velocity : CGVector) (d : ℕ) :
    (lineStartAt screen position velocity d).center = screen.propToPoint position.cgPoint := by
  have width := screen.width_pos
  ext <;> simp [lineStartAt, EditableLineStart.new, CGRect.midX, CGRect.midY, CGRect.minX, CGRect.minY,
    CGRect.mk4, CGRect.width, CGRect.height, Screen.propToRect, Screen.propToPoint, Screen.propToFloat, Point.cgPoint,
    abs_of_nonneg, width.le]

end Geometry

section Handlers
variable {screen : Screen} {Builds : CGVector → Prop}

/-- A handler that keeps the element's object, and does not change what it shows
without calling `frameChanged`. -/
structure BoxHonest (handler : EditableColorBox → EditableColorBox × Bool) : Prop where
  data : ∀ colorBox, (handler colorBox).1.data = colorBox.data
  still : ∀ colorBox, (handler colorBox).2 = false →
    (handler colorBox).1.frame = colorBox.frame ∧ (handler colorBox).1.rotation = colorBox.rotation

structure StartHonest (handler : EditableLineStart → EditableLineStart × Bool) : Prop where
  data : ∀ lineStart, (handler lineStart).1.data = lineStart.data
  still : ∀ lineStart, (handler lineStart).2 = false →
    (handler lineStart).1.center = lineStart.center ∧ SameKnob lineStart (handler lineStart).1

theorem handlePan_honest (state : GestureState) (location : CGPoint) :
    BoxHonest (·.handlePan state location) := by
  constructor <;> intro colorBox <;> cases state
  all_goals simp [EditableColorBox.handlePan, EditableColorBox.frame]

theorem handlePinch_honest (state : GestureState) (scale currentScale : CGFloat) :
    BoxHonest (·.handlePinch state scale currentScale) := by
  constructor <;> intro colorBox <;> cases state
  all_goals simp [EditableColorBox.handlePinch]

theorem handleRotation_honest (rotation : CGFloat) : BoxHonest (·.handleRotation rotation) := by
  constructor <;> intro colorBox
  all_goals simp [EditableColorBox.handleRotation]

theorem handleStartPan_honest (state : GestureState) (location : CGPoint) :
    StartHonest (·.handlePan state location) := by
  constructor <;> intro lineStart <;> cases state
  all_goals simp [EditableLineStart.handlePan, SameKnob]

theorem handleFrameChangePan_honest (state : GestureState) (panTranslation : CGPoint) :
    StartHonest (·.handleFrameChangePan state panTranslation) := by
  constructor <;> intro lineStart <;> cases state
  all_goals simp [EditableLineStart.handleFrameChangePan, SameKnob]
  unfold EditableLineStart.updateKnobPosition
  dsimp only
  split_ifs <;> rfl

theorem SameKnob.trans {first second third : EditableLineStart} (same : SameKnob first second)
    (same' : SameKnob second third) : SameKnob first third :=
  ⟨same'.1.trans same.1, same'.2.1.trans same.2.1, same'.2.2.trans same.2.2⟩

theorem SameKnob.knobVelocity {lineStart lineStart' : EditableLineStart} (same : SameKnob lineStart lineStart')
    (screen : Screen) : lineStart'.knobVelocity screen = lineStart.knobVelocity screen := by
  cases lineStart
  cases lineStart'
  obtain ⟨rfl, rfl, rfl⟩ := same
  rfl

/-- What an edit writes into the object of a box is what the box shows. -/
theorem writeBox_shown (screen : Screen) (colorBox : EditableColorBox) (data : ColorBoxData) :
    BoxShown screen (writeBox screen colorBox data) colorBox :=
  ⟨⟨_, rfl, propToRect_rectToProp screen (abs_nonneg _) (abs_nonneg _)⟩, rfl⟩

theorem writeStart_shown (screen : Screen) (lineStart : EditableLineStart) (data : LineData) :
    StartShown screen Builds (writeStart screen lineStart data) lineStart :=
  ⟨⟨_, rfl, propToPoint_pointToProp screen lineStart.center⟩, _, rfl, .inl rfl⟩

theorem BoxShown.still {data : ColorBoxData} {colorBox colorBox' : EditableColorBox}
    (shown : BoxShown screen data colorBox)
    (same : colorBox'.frame = colorBox.frame ∧ colorBox'.rotation = colorBox.rotation) :
    BoxShown screen data colorBox' := by
  obtain ⟨⟨frame, stored, is⟩, rotation⟩ := shown
  exact ⟨⟨frame, stored, is.trans same.1.symm⟩, rotation.trans same.2.symm⟩

theorem StartShown.still {data : LineData} {lineStart lineStart' : EditableLineStart}
    (shown : StartShown screen Builds data lineStart)
    (same : lineStart'.center = lineStart.center ∧ SameKnob lineStart lineStart') :
    StartShown screen Builds data lineStart' := by
  obtain ⟨⟨position, stored, is⟩, velocity, storedVelocity, shows_⟩ := shown
  refine ⟨⟨position, stored, is.trans same.1.symm⟩, velocity, storedVelocity, ?_⟩
  rcases shows_ with read | ⟨builds, position, d, asBuilt⟩
  · exact .inl (by rw [read, same.2.knobVelocity screen])
  · exact .inr ⟨builds, position, d, asBuilt.trans same.2⟩

end Handlers

section Step
variable {Builds : CGVector → Prop} {view after : CreateLevelView}

/-- If the gesture calls `frameChanged`, the first entry found is the box's own object. -/
def BoxFoundFirst (view : CreateLevelView) (i : ℕ)
    (handler : EditableColorBox → EditableColorBox × Bool) : Prop :=
  ∀ colorBox, view.colorBoxes[i]? = some colorBox → (handler colorBox).2 = true →
    view.levelData.colorBoxData.FoundFirst colorBox.data

def StartFoundFirst (view : CreateLevelView) (i : ℕ)
    (handler : EditableLineStart → EditableLineStart × Bool) : Prop :=
  ∀ lineStart, view.lineStarts[i]? = some lineStart → (handler lineStart).2 = true →
    view.levelData.lineData.FoundFirst lineStart.data

/-- No other element's object with the same value stands before the edited one. -/
def FoundFirst (view : CreateLevelView) : Action → Prop
  | .addColorBox => True
  | .addLineStart => True
  | .panBox i state translation => BoxFoundFirst view i (·.handlePan state translation)
  | .pinchBox i state scale currentScale => BoxFoundFirst view i (·.handlePinch state scale currentScale)
  | .rotateBox i rotation => BoxFoundFirst view i (·.handleRotation rotation)
  | .panStart i state translation => StartFoundFirst view i (·.handlePan state translation)
  | .panKnob i state translation => StartFoundFirst view i (·.handleFrameChangePan state translation)

theorem handleBox_sync_iff {i : ℕ} {handler : EditableColorBox → EditableColorBox × Bool}
    (sync : InSyncFor Builds view) (honest : BoxHonest handler)
    (success : view.handleBox i handler = some after) :
    InSyncFor Builds after ↔ BoxFoundFirst view i handler := by
  obtain ⟨colorBox, at_, success⟩ := Option.bind_eq_some_iff.mp success
  have own := honest.data colorBox
  have calls : BoxFoundFirst view i handler ↔
      ((handler colorBox).2 = true → view.levelData.colorBoxData.FoundFirst (handler colorBox).1.data) := by
    unfold BoxFoundFirst
    rw [at_, own]
    simp only [Option.some.injEq, forall_eq']
  rw [calls]
  cases called : (handler colorBox).2 with
  | false =>
    simp only [called, Bool.false_eq_true, if_false, Option.some.injEq] at success
    subst success
    have touched := sync.boxes.touch at_ own fun shown => shown.still (honest.still colorBox called)
    exact iff_of_true ⟨touched, sync.starts⟩ fun none_ => by cases none_
  | true =>
    simp only [called, if_true, Option.some.injEq] at success
    subst success
    have refiled := sync.boxes.refile_iff at_ own (writeBox_shown view.screen (handler colorBox).1 _)
    rw [← own] at refiled
    constructor
    · intro syncAfter _
      exact refiled.mp syncAfter.boxes
    · intro first
      exact ⟨refiled.mpr (first rfl), sync.starts⟩

theorem handleStart_sync_iff {i : ℕ} {handler : EditableLineStart → EditableLineStart × Bool}
    (sync : InSyncFor Builds view) (honest : StartHonest handler)
    (success : view.handleStart i handler = some after) :
    InSyncFor Builds after ↔ StartFoundFirst view i handler := by
  obtain ⟨lineStart, at_, success⟩ := Option.bind_eq_some_iff.mp success
  have own := honest.data lineStart
  have calls : StartFoundFirst view i handler ↔
      ((handler lineStart).2 = true → view.levelData.lineData.FoundFirst (handler lineStart).1.data) := by
    unfold StartFoundFirst
    rw [at_, own]
    simp only [Option.some.injEq, forall_eq']
  rw [calls]
  cases called : (handler lineStart).2 with
  | false =>
    simp only [called, Bool.false_eq_true, if_false, Option.some.injEq] at success
    subst success
    have touched := sync.starts.touch at_ own fun shown => shown.still (honest.still lineStart called)
    exact iff_of_true ⟨sync.boxes, touched⟩ fun none_ => by cases none_
  | true =>
    simp only [called, if_true, Option.some.injEq] at success
    subst success
    have refiled := sync.starts.refile_iff at_ own (writeStart_shown view.screen (handler lineStart).1 _)
    rw [← own] at refiled
    constructor
    · intro syncAfter _
      exact refiled.mp syncAfter.starts
    · intro first
      exact ⟨sync.boxes, refiled.mpr (first rfl)⟩

/-- What comes onto the stage for an object. -/
theorem addColorBoxToView_shown {d : ℕ} (success : view.addColorBoxToView d = some after) :
    ∃ colorBox, after = { view with colorBoxes := view.colorBoxes ++ [colorBox] } ∧ colorBox.data = d ∧
      BoxShown view.screen (view.levelData.colorBoxData.value d) colorBox := by
  obtain ⟨frame, stored, success⟩ := Option.bind_eq_some_iff.mp success
  obtain ⟨_, _, success⟩ := Option.bind_eq_some_iff.mp success
  obtain ⟨_, _, success⟩ := Option.bind_eq_some_iff.mp success
  obtain ⟨_, _, success⟩ := Option.bind_eq_some_iff.mp success
  cases success
  obtain ⟨wide, high⟩ := propToRect_size_nonneg view.screen frame.cgRect
  exact ⟨_, rfl, rfl, ⟨frame, stored, (new_frame wide high _ _).symm⟩, rfl⟩

theorem addStartLineToView_shown {d : ℕ}
    (builds : ∀ velocity, (view.levelData.lineData.value d).startVelocity = some velocity →
      Builds velocity.cgVector)
    (success : view.addStartLineToView d = some after) :
    ∃ lineStart, after = { view with lineStarts := view.lineStarts ++ [lineStart] } ∧ lineStart.data = d ∧
      StartShown view.screen Builds (view.levelData.lineData.value d) lineStart := by
  obtain ⟨position, stored, success⟩ := Option.bind_eq_some_iff.mp success
  obtain ⟨velocity, storedVelocity, success⟩ := Option.bind_eq_some_iff.mp success
  obtain ⟨_, _, success⟩ := Option.bind_eq_some_iff.mp success
  cases success
  refine ⟨_, rfl, rfl, ⟨position, stored, (lineStartAt_center view.screen _ _ _).symm⟩, velocity,
    storedVelocity, .inr ⟨builds velocity storedVelocity, position, d, rfl, rfl, rfl⟩⟩

theorem addColorBox_sync (sync : InSyncFor Builds view) (success : view.addColorBox = some after) :
    InSyncFor Builds after := by
  obtain ⟨_, _, success⟩ := Option.bind_eq_some_iff.mp success
  obtain ⟨shown, added, success⟩ := Option.bind_eq_some_iff.mp success
  cases success
  obtain ⟨colorBox, rfl, own, shows_⟩ := addColorBoxToView_shown added
  dsimp only [Objects.create] at shows_
  rw [Function.update_self] at shows_
  exact ⟨sync.boxes.add own shows_, sync.starts⟩

theorem addLineStart_sync (sync : InSyncFor Builds view)
    (builds : ∀ velocity, toolboxLine.startVelocity = some velocity → Builds velocity.cgVector)
    (success : view.addLineStart = some after) : InSyncFor Builds after := by
  obtain ⟨shown, added, success⟩ := Option.bind_eq_some_iff.mp success
  cases success
  have toolbox : (view.levelData.lineData.create toolboxLine).value view.levelData.lineData.created =
      toolboxLine := Function.update_self ..
  have built := addStartLineToView_shown (fun velocity stored => builds velocity ?_) added
  · obtain ⟨lineStart, rfl, own, shows_⟩ := built
    rw [toolbox] at shows_
    exact ⟨sync.boxes, sync.starts.add own shows_⟩
  · rw [← toolbox]
    exact stored

/-- One action keeps the level in step exactly if it meets the condition. -/
theorem step_sync_iff {act : Action} (sync : InSyncFor Builds view)
    (builds : act = .addLineStart →
      ∀ velocity, toolboxLine.startVelocity = some velocity → Builds velocity.cgVector)
    (success : editor.step view act = some after) : InSyncFor Builds after ↔ FoundFirst view act := by
  cases act with
  | addColorBox => exact iff_of_true (addColorBox_sync sync success) trivial
  | addLineStart => exact iff_of_true (addLineStart_sync sync (builds rfl) success) trivial
  | panBox i state translation => exact handleBox_sync_iff sync (handlePan_honest state translation) success
  | pinchBox i state scale currentScale =>
    exact handleBox_sync_iff sync (handlePinch_honest state scale currentScale) success
  | rotateBox i rotation => exact handleBox_sync_iff sync (handleRotation_honest rotation) success
  | panStart i state translation =>
    exact handleStart_sync_iff sync (handleStartPan_honest state translation) success
  | panKnob i state translation =>
    exact handleStart_sync_iff sync (handleFrameChangePan_honest state translation) success

end Step

section Load
variable {Builds : CGVector → Prop} {view after : CreateLevelView}

theorem loadCurrentLevel_shown {array : List ℕ}
    (success : array.foldlM (fun view cBox => addColorBoxToView cBox view) view = some after) :
    ∃ boxes, after = { view with colorBoxes := view.colorBoxes ++ boxes } ∧
      boxes.map EditableColorBox.data = array ∧
      ∀ colorBox ∈ boxes, BoxShown view.screen (view.levelData.colorBoxData.value colorBox.data) colorBox := by
  induction array generalizing view with
  | nil =>
    cases success
    exact ⟨[], by rw [List.append_nil], rfl, fun _ member => by cases member⟩
  | cons d rest ih =>
    obtain ⟨first, added, success⟩ := Option.bind_eq_some_iff.mp success
    obtain ⟨colorBox, rfl, own, shown⟩ := addColorBoxToView_shown added
    obtain ⟨boxes, rfl, refs, shownRest⟩ := ih success
    refine ⟨colorBox :: boxes, ?_, by rw [List.map_cons, own, refs], ?_⟩
    · rw [List.append_assoc]
      rfl
    · exact List.forall_mem_cons.mpr ⟨by rw [own]; exact shown, shownRest⟩

theorem createStarts_shown {array : List ℕ}
    (builds : ∀ d ∈ array, ∀ velocity, (view.levelData.lineData.value d).startVelocity = some velocity →
      Builds velocity.cgVector)
    (success : array.foldlM (fun view lineData => addStartLineToView lineData view) view = some after) :
    ∃ starts, after = { view with lineStarts := view.lineStarts ++ starts } ∧
      starts.map EditableLineStart.data = array ∧
      ∀ lineStart ∈ starts,
        StartShown view.screen Builds (view.levelData.lineData.value lineStart.data) lineStart := by
  induction array generalizing view with
  | nil =>
    cases success
    exact ⟨[], by rw [List.append_nil], rfl, fun _ member => by cases member⟩
  | cons d rest ih =>
    obtain ⟨buildsFirst, buildsRest⟩ := List.forall_mem_cons.mp builds
    obtain ⟨first, added, success⟩ := Option.bind_eq_some_iff.mp success
    obtain ⟨lineStart, rfl, own, shown⟩ := addStartLineToView_shown buildsFirst added
    obtain ⟨starts, rfl, refs, shownRest⟩ := ih (by exact buildsRest) success
    refine ⟨lineStart :: starts, ?_, by rw [List.map_cons, own, refs], ?_⟩
    · rw [List.append_assoc]
      rfl
    · exact List.forall_mem_cons.mpr ⟨by rw [own]; exact shown, shownRest⟩

/-- A level whose element objects exist and are distinct. -/
structure ExistingLevel extends EditedLevel where
  boxes_known : ∀ d ∈ colorBoxData.array, d < colorBoxData.created
  boxes_distinct : colorBoxData.array.Nodup
  lines_known : ∀ d ∈ lineData.array, d < lineData.created
  lines_distinct : lineData.array.Nodup

/-- The velocities with which the lines of a level are built. -/
def StoredVelocities (level : EditedLevel) (velocity : CGVector) : Prop :=
  ∃ d ∈ level.lineData.array, ∃ stored, (level.lineData.value d).startVelocity = some stored ∧
    stored.cgVector = velocity

/-- The editor opens in step with the level. -/
theorem init_sync {screen : Screen} {level : ExistingLevel}
    (builds : ∀ velocity, StoredVelocities level.toEditedLevel velocity → Builds velocity)
    (success : init screen level.toEditedLevel = some view) : InSyncFor Builds view := by
  obtain ⟨withStarts, started, success⟩ := Option.bind_eq_some_iff.mp success
  obtain ⟨_, lines, started⟩ := Option.bind_eq_some_iff.mp started
  obtain ⟨_, _, started⟩ := Option.bind_eq_some_iff.mp started
  obtain ⟨_, _, started⟩ := Option.bind_eq_some_iff.mp started
  cases started
  obtain ⟨starts, rfl, startRefs, startsShown⟩ := createStarts_shown
    (fun d member velocity stored => builds _ ⟨d, member, velocity, stored, rfl⟩) lines
  obtain ⟨boxes, rfl, boxRefs, boxesShown⟩ := loadCurrentLevel_shown success
  have allBoxes : level.colorBoxData.array.Perm (boxes.map EditableColorBox.data) :=
    boxRefs ▸ List.Perm.refl _
  have allStarts : level.lineData.array.Perm (starts.map EditableLineStart.data) :=
    startRefs ▸ List.Perm.refl _
  exact ⟨⟨level.boxes_known, level.boxes_distinct, allBoxes, boxesShown⟩,
    ⟨level.lines_known, level.lines_distinct, allStarts, startsShown⟩⟩

end Load

section Run

/-- Over a run of actions. -/
theorem run_sync {Builds : CGVector → Prop} {view reached : CreateLevelView} {actions : List Action}
    (sync : InSyncFor Builds view)
    (builds : .addLineStart ∈ actions →
      ∀ velocity, toolboxLine.startVelocity = some velocity → Builds velocity.cgVector)
    (meets : editor.Meets FoundFirst view actions) (run : editor.run view actions = some reached) :
    InSyncFor Builds reached := by
  induction actions generalizing view with
  | nil =>
    cases run
    exact sync
  | cons act rest ih =>
    obtain ⟨after, step, runRest⟩ := editor.run_cons_some.mp run
    have next := (step_sync_iff sync (fun is => builds (is ▸ List.mem_cons_self ..)) step).mpr meets.1
    exact ih next (fun member => builds (List.mem_cons_of_mem _ member)) (meets.2 after step) runRest

/-- In every run in which each edit finds its own object first, the level is in
step with the screen; the next action keeps it so exactly if it does, too. If no
line start is added and the stored velocities are read back from the knob, the
velocities in the level are those the knobs show. -/
theorem editor_in_sync (screen : Screen) (level : ExistingLevel) (view reached : CreateLevelView)
    (actions : List Action) (built : init screen level.toEditedLevel = some view)
    (meets : editor.Meets FoundFirst view actions) (run : editor.run view actions = some reached) :
    InSync reached ∧
      (∀ act after, editor.step reached act = some after → (InSync after ↔ FoundFirst reached act)) ∧
      ((∀ velocity, StoredVelocities level.toEditedLevel velocity → ReadsBack reached.screen velocity) →
        .addLineStart ∉ actions → ∀ lineStart ∈ reached.lineStarts,
          (reached.levelData.lineData.value lineStart.data).startVelocity =
            some (CGVector.vector (lineStart.knobVelocity reached.screen))) := by
  have sync : InSync reached := run_sync (init_sync (fun _ _ => trivial) built) (fun _ _ _ => trivial) meets run
  refine ⟨sync, fun act after step => ?_, fun readsBack never lineStart member => ?_⟩
  · exact step_sync_iff sync (fun _ _ _ => trivial) step
  · have exact_ := run_sync (init_sync readsBack built) (fun added => absurd added never) meets run
    obtain ⟨_, velocity, stored, shows_⟩ := exact_.starts.faithful lineStart member
    have read : velocity.cgVector = (CGVector.vector (lineStart.knobVelocity reached.screen)).cgVector := by
      rcases shows_ with read | ⟨builds, position, d, asBuilt⟩
      · exact read
      · rw [asBuilt.knobVelocity reached.screen, builds position d]
    rw [stored, Source.Vector.ext (congrArg CGVector.dx read) (congrArg CGVector.dy read)]

/-- A level with one line and no boxes. -/
def oneLineLevel : ExistingLevel where
  colorBoxData := ⟨fun _ => {}, 0, []⟩
  lineData := ⟨fun _ => toolboxLine, 1, [0]⟩
  endPoints := [{ frame := some ⟨0, 0, 1 / 5, 1 / 5⟩ }]
  boxes_known _ member := by cases member
  boxes_distinct := List.nodup_nil
  lines_known d member := by rw [List.mem_singleton.mp member]; exact Nat.one_pos
  lines_distinct := List.nodup_singleton 0

def tablet : Screen := ⟨768, 1024, by norm_num, by norm_num⟩

theorem panBox_steps {view : CreateLevelView} {i : ℕ} {colorBox : EditableColorBox}
    (at_ : view.colorBoxes[i]? = some colorBox) (state : GestureState) (translation : CGPoint) :
    ∃ after, editor.step view (.panBox i state translation) = some after :=
  ⟨_, Option.bind_eq_some_iff.mpr ⟨colorBox, at_, rfl⟩⟩

/-- Two boxes from the toolbox have the same value; an edit of the second one
finds the object of the first. -/
theorem secondBox_aliases : ∃ view reached, init tablet oneLineLevel.toEditedLevel = some view ∧
    editor.run view [.addColorBox, .addColorBox, .panBox 1 .began ⟨0, 0⟩, .panBox 1 .changed ⟨10, 0⟩] =
      some reached ∧ ¬ InSync reached := by
  obtain ⟨view, built, before, run, second, array, values⟩ : ∃ view,
      init tablet oneLineLevel.toEditedLevel = some view ∧ ∃ before,
      editor.run view [.addColorBox, .addColorBox, .panBox 1 .began ⟨0, 0⟩] = some before ∧
      (∃ colorBox, before.colorBoxes[1]? = some colorBox ∧ colorBox.data = 1) ∧
      before.levelData.colorBoxData.array = [0, 1] ∧
      before.levelData.colorBoxData.value 0 = before.levelData.colorBoxData.value 1 :=
    ⟨_, rfl, _, rfl, ⟨_, rfl, rfl⟩, rfl, rfl⟩
  obtain ⟨colorBox, at_, own⟩ := second
  have meets : editor.Meets FoundFirst view [.addColorBox, .addColorBox, .panBox 1 .began ⟨0, 0⟩] := by
    refine ⟨trivial, fun _ _ => ⟨trivial, fun _ _ => ⟨fun _ _ called => ?_, fun _ _ => trivial⟩⟩⟩
    cases called
  have sync : InSync before := run_sync (init_sync (fun _ _ => trivial) built) (fun _ _ _ => trivial) meets run
  have other : ¬ FoundFirst before (.panBox 1 .changed ⟨10, 0⟩) := by
    intro first
    have found := first colorBox at_ rfl
    rw [own, Objects.FoundFirst, array, List.find?_cons_of_pos (by simp [values])] at found
    cases found
  obtain ⟨reached, step⟩ := panBox_steps at_ .changed ⟨10, 0⟩
  refine ⟨view, reached, built, ?_, fun syncAfter => other ?_⟩
  · exact editor.run_append_some.mpr ⟨before, run, editor.run_cons_some.mpr ⟨reached, step, rfl⟩⟩
  · exact (step_sync_iff sync (fun _ _ _ => trivial) step).mp syncAfter

/-- A single box can be panned. -/
theorem oneBox_panned : ∃ view reached, init tablet oneLineLevel.toEditedLevel = some view ∧
    editor.run view [.addColorBox, .panBox 0 .changed ⟨10, 0⟩] = some reached ∧ InSync reached := by
  obtain ⟨view, built, before, added, colorBox, at_, own, array⟩ : ∃ view,
      init tablet oneLineLevel.toEditedLevel = some view ∧ ∃ before,
      editor.step view .addColorBox = some before ∧ ∃ colorBox, before.colorBoxes[0]? = some colorBox ∧
      colorBox.data = 0 ∧ before.levelData.colorBoxData.array = [0] :=
    ⟨_, rfl, _, rfl, _, rfl, rfl, rfl⟩
  obtain ⟨reached, panned⟩ := panBox_steps at_ .changed ⟨10, 0⟩
  have run : editor.run view [.addColorBox, .panBox 0 .changed ⟨10, 0⟩] = some reached :=
    editor.run_cons_some.mpr ⟨before, added, editor.run_cons_some.mpr ⟨reached, panned, rfl⟩⟩
  refine ⟨view, reached, built, run, (editor_in_sync tablet oneLineLevel view reached _ built ?_ run).1⟩
  refine ⟨trivial, fun after step => ⟨fun other there _ => ?_, fun _ _ => trivial⟩⟩
  obtain rfl : before = after := Option.some.inj (added.symm.trans step)
  obtain rfl : colorBox = other := Option.some.inj (at_.symm.trans there)
  rw [own, Objects.FoundFirst, array]
  exact List.find?_cons_of_pos (by simp)

end Run

end
end Arthius.Guarantees.EditorSync
