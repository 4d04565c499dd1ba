import Arthius.Guarantees.PlayerWells
import Arthius.Guarantees.PredictionFreshness
import Arthius.Guarantees.StaleFlags

/-!
# Predicting again

`Line.reset` restores everything a prediction changes in a line, but nothing
clears the flags that it leaves up in the colour boxes. A prediction draws what
it would draw with every flag down, as if it were the first, if none of those it
finds up comes to show; where the boxes are apart, in no other case.
-/
namespace Arthius.Guarantees.PredictionRepeat
open Arthius.Lib Arthius.Source PredictionFrame PredictionFreshness PredictionTermination StaleFlags
open ColorGate (Apart)

noncomputable section

section Quiet
variable {gravityWells : List GravityWell} {antiGravityZones : List AntiGravityZone} {bs : List ColorBox}

/-- Between turns no second flag is up. -/
def Quiet (boxes : List ColorBox) : Prop := ∀ box ∈ boxes, ∀ uuid, box.getStep2 uuid = false

theorem handleColorBoxes_quiet (uuid : String) (p : CGPoint) (c : Color) (quiet : Quiet bs) :
    Quiet (handleColorBoxes uuid p c bs).2 := by
  induction bs generalizing c with
  | nil => exact quiet
  | cons box rest ih =>
    obtain ⟨here, there⟩ := List.forall_mem_cons.mp quiet
    refine List.forall_mem_cons.mpr ⟨fun other => ?_, ih _ there⟩
    by_cases same : other = uuid
    · subst same
      by_cases inBody : box.pointInBody p
      · exact (handleColorBox_passSides inBody (here other)).2
      · rw [ColorGate.handleColorBox_out other c inBody]
        simp
    · have kept := (handleColorBox_frame uuid p c box).flags_eq same
      exact (Prod.mk.inj kept).2.trans (here other)

theorem body_quiet {w : Walk} (enters : w.guard) (quiet : Quiet w.scaledColorBoxes) :
    Quiet (w.body gravityWells antiGravityZones).scaledColorBoxes := by
  rcases body_cases gravityWells antiGravityZones enters with ⟨forces, _, is⟩ | ⟨_, is⟩
  · rw [is]
    simp only [Walk.move, handleColorBoxesForLine, split_boxes]
    exact handleColorBoxes_quiet _ _ _ quiet
  · rw [is]
    simp only [Walk.lose, split_boxes, split_line]
    intro after member other
    obtain ⟨box, there, rfl⟩ := List.mem_map.mp member
    by_cases same : other = w.line.uuid
    · rw [same]
      simp
    · have kept := (((SameFor.refl box).setStep1 false).setStep2 false).flags_eq same
      exact (Prod.mk.inj kept).2.trans (quiet box there other)

theorem getPredictedPaths_quiet {fuel : ℕ} {lines : List Line} {prediction : Prediction}
    (success : getPredictedPaths fuel gravityWells antiGravityZones bs lines = some prediction)
    (quiet : Quiet bs) : Quiet prediction.scaledColorBoxes := by
  induction lines generalizing bs prediction with
  | nil =>
    cases success
    exact quiet
  | cons line rest ih =>
    obtain ⟨walk, others, first, later, rfl⟩ := getPredictedPaths_cons.mp success
    obtain ⟨n, _, ⟨enters, _⟩, rfl⟩ := (Walk.loop gravityWells antiGravityZones).run_eq_some_iff.mp first
    have quietFirst := (Walk.loop gravityWells antiGravityZones).after_invariant
      (I := fun w => Quiet w.scaledColorBoxes) (fun _ quiet enters => body_quiet enters quiet) quiet enters
    have quietRest := ih later quietFirst
    exact quietRest

end Quiet

section View

/-- The calls of a level view: gestures, and predictions between them. -/
def calls (fuel : ℕ) : Machine LevelView (Option LevelView.Gesture) :=
  ⟨fun view => fun
    | some gesture => (LevelView.gestures fuel).step view gesture
    | none => view.updatePredictPath fuel⟩

/-- The segments that a prediction returns. -/
def drawn (fuel : ℕ) (view : LevelView) : Option (List DummyLine) :=
  (view.getPredictedPaths fuel).map Prediction.layers

/-- The view with every flag down, as before any prediction. -/
def lowered (view : LevelView) : LevelView :=
  { view with scaledColorBoxes := view.scaledColorBoxes.map ColorBox.shape }

/-- No flag that is up comes to show in a prediction. -/
def Unheeded (view : LevelView) : Prop := ∀ line ∈ view.lines, ∀ box ∈ view.scaledColorBoxes,
  box.getStep1 line.uuid = true →
    Unread view.gravityWells view.antiGravityZones line view.scaledColorBoxes box

/-- Every line ends outside of each box whose flag could come to show. -/
def Parting (view : LevelView) : Prop := ∀ line ∈ view.lines, ∀ box ∈ view.scaledColorBoxes,
  EndsOutside view.gravityWells view.antiGravityZones line box ∨
    Unread view.gravityWells view.antiGravityZones line view.scaledColorBoxes box

/-- What holds of every reachable view. -/
structure Sound (view : LevelView) : Prop where
  centred : Centred view
  distinct : (view.lines.map Line.uuid).Nodup
  quiet : Quiet view.scaledColorBoxes

variable {fuel : ℕ} {view view' first : LevelView}

/-- A prediction with flags that do not come to show draws what it draws with all down. -/
theorem Sound.drawn_lowered (sound : Sound view) (unheeded : Unheeded view) (fuel : ℕ) :
    drawn fuel (lowered view) = drawn fuel view := by
  have pairs : ∀ line ∈ view.lines, List.Forall₂ (Beside view.gravityWells view.antiGravityZones line
      view.scaledColorBoxes 0 line.startColor) view.scaledColorBoxes (lowered view).scaledColorBoxes := by
    intro line member
    refine List.forall₂_map_right_iff.mpr (List.forall₂_same.mpr fun box there => ?_)
    refine ⟨⟨rfl, sound.quiet box there line.uuid, rfl⟩, ?_⟩
    cases flag : box.getStep1 line.uuid with
    | false => exact .inl (.inl flag.symm)
    | true =>
      rcases unheeded line member box there flag with plain | spared
      · exact .inl (.inr plain)
      · exact .inr ⟨fun i below => absurd below (Nat.not_lt_zero i), rfl, spared⟩
  have related := getPredictedPaths_beside fuel sound.distinct rfl pairs
  change Option.Rel _ (view.getPredictedPaths fuel) ((lowered view).getPredictedPaths fuel) at related
  unfold drawn
  generalize view.getPredictedPaths fuel = prediction, (lowered view).getPredictedPaths fuel = prediction'
    at related ⊢
  cases related with
  | none => rfl
  | some same => simp only [Option.map_some, Prediction.layers, same]

/-- Among boxes that hold no point in common, only then. -/
theorem Sound.unheeded_of_drawn (sound : Sound view) (apart : Apart view.scaledColorBoxes)
    (fuel : ℕ) (returns : (drawn fuel view).isSome) (same : drawn fuel (lowered view) = drawn fuel view) :
    Unheeded view := by
  intro line member box there up
  obtain ⟨layers, is⟩ := Option.isSome_iff_exists.mp returns
  obtain ⟨prediction, success, layersAre⟩ := Option.map_eq_some_iff.mp is
  obtain ⟨prediction', success', layersAre'⟩ := Option.map_eq_some_iff.mp (same.trans is)
  exact unread_of_layers sound.distinct success success' (layersAre'.trans layersAre.symm) apart member there
    (sound.quiet box there line.uuid) up

theorem updatePredictPath_quiet (success : view.updatePredictPath fuel = some view')
    (quiet : Quiet view.scaledColorBoxes) : Quiet view'.scaledColorBoxes := by
  obtain ⟨prediction, predicted, rest⟩ := Option.bind_eq_some_iff.mp success
  cases rest
  exact getPredictedPaths_quiet predicted quiet

theorem removeGravityWell_quiet {well : ℕ} (success : view.removeGravityWell fuel well = some view')
    (quiet : Quiet view.scaledColorBoxes) : Quiet view'.scaledColorBoxes := by
  unfold LevelView.removeGravityWell at success
  split at success
  · exact updatePredictPath_quiet success quiet
  · cases success

/-- A gesture touches the boxes by its predictions only. -/
theorem step_quiet {gesture : LevelView.Gesture} (success : (LevelView.gestures fuel).step view gesture = some view')
    (quiet : Quiet view.scaledColorBoxes) : Quiet view'.scaledColorBoxes := by
  cases gesture with
  | longPressBegan location =>
    obtain ⟨created, creation, rest⟩ := Option.bind_eq_some_iff.mp success
    cases rest
    have quietCreated := updatePredictPath_quiet creation quiet
    exact quietCreated
  | longPressChanged p =>
    obtain ⟨well, _, rfl⟩ := Option.map_eq_some_iff.mp success
    exact quiet
  | longPressEnded =>
    obtain ⟨well, _, success⟩ := Option.bind_eq_some_iff.mp success
    dsimp only at success
    split at success
    · exact removeGravityWell_quiet success quiet
    · cases success
      exact quiet
  | longPressCancelled =>
    cases success
    exact quiet
  | panChanged well translation =>
    obtain ⟨_, success⟩ := onStage_some success
    exact updatePredictPath_quiet success quiet
  | panBegan well | panEnded well | pinch well scale | touchesBegan well =>
    obtain ⟨_, success⟩ := onStage_some success
    cases success
    exact quiet
  | touchesEnded well location =>
    obtain ⟨_, success⟩ := onStage_some success
    unfold LevelView.touchesEnded at success
    split at success
    · obtain ⟨removed, removal, rfl⟩ := Option.map_eq_some_iff.mp success
      split at removal
      · have quietRemoved := removeGravityWell_quiet removal quiet
        exact quietRemoved
      · cases removal
        exact quiet
    · cases success
      exact quiet

theorem Sound.of_sameLines (sound : Sound view) (centred : Centred view') (lines : SameLines view view')
    (quiet : Quiet view'.scaledColorBoxes) : Sound view' := by
  refine ⟨centred, ?_, quiet⟩
  rw [map_of_restart (fun _ => rfl) lines]
  exact sound.distinct

theorem Sound.predicted (sound : Sound view) (success : view.updatePredictPath fuel = some view') :
    Sound view' := by
  obtain ⟨_, wells, lines, _⟩ := updatePredictPath_effects success
  refine sound.of_sameLines (fun well => ?_) lines (updatePredictPath_quiet success sound.quiet)
  rw [wells]
  exact sound.centred well

theorem createColorBoxesFromLevel_quiet {data : List ColorBoxData}
    (success : LevelView.createColorBoxesFromLevel data view = some view')
    (quiet : Quiet view.scaledColorBoxes) : Quiet view'.scaledColorBoxes := by
  induction data generalizing view with
  | nil =>
    cases success
    exact quiet
  | cons cBox rest ih =>
    obtain ⟨frame, _, success⟩ := Option.bind_eq_some_iff.mp success
    obtain ⟨leftColor, _, success⟩ := Option.bind_eq_some_iff.mp success
    obtain ⟨rightColor, _, success⟩ := Option.bind_eq_some_iff.mp success
    obtain ⟨backgroundColor, _, success⟩ := Option.bind_eq_some_iff.mp success
    refine ih success fun box member uuid => ?_
    rcases List.mem_append.mp member with before | new
    · exact quiet box before uuid
    · obtain rfl := List.mem_singleton.mp new
      rfl

/-- Every view that a run of calls leads to is sound. -/
theorem sound_of_run {screen : Screen} {uuidString : ℕ → String} {level : LevelData}
    {events : List (Option LevelView.Gesture)} (distinct : Function.Injective uuidString)
    (built : LevelView.init fuel screen uuidString level = some view)
    (run : (calls fuel).run view events = some view') : Sound view' := by
  have start : Sound view := by
    obtain ⟨_, centred, _⟩ := init_effects built
    obtain ⟨_, lines, zones, withWells, _, _, _, wells, boxes⟩ := LevelView.init_some built
    obtain ⟨_, _, _, _, noBoxes⟩ := createGravityWellsFromLevel_effects wells (fun _ => rfl) rfl
    refine ⟨centred, uuids_distinct distinct built rfl, createColorBoxesFromLevel_quiet boxes ?_⟩
    rw [noBoxes]
    exact fun box member => absurd member List.not_mem_nil
  refine (calls fuel).run_invariant (I := Sound) (fun before event after sound step => ?_) start run
  cases event with
  | none => exact sound.predicted step
  | some gesture =>
    have effect := step_effect gesture sound.centred step
    exact sound.of_sameLines effect.centred effect.lines (step_quiet step sound.quiet)

section Second
variable (sound : Sound view) (success : view.updatePredictPath fuel = some first)
include success

/-- With the flags down again, a second call is the first. -/
theorem drawn_lowered_first : drawn fuel (lowered first) = drawn fuel (lowered view) := by
  obtain ⟨prediction, predicted, is⟩ := Option.bind_eq_some_iff.mp success
  obtain ⟨lines, shapes⟩ := getPredictedPaths_frame predicted
  cases is
  unfold drawn LevelView.getPredictedPaths lowered
  dsimp only
  rw [shapes]
  exact congrArg _ (getPredictedPaths_restart lines)

theorem drawn_first : drawn fuel view = some first.drawLines := by
  obtain ⟨prediction, predicted, is⟩ := Option.bind_eq_some_iff.mp success
  cases is
  unfold drawn
  rw [predicted]
  rfl

include sound

/-- It returns the same, if neither of the two comes to see a flag. -/
theorem Sound.second_same (unheeded : Unheeded view) (unheededFirst : Unheeded first) :
    ∃ second, first.updatePredictPath fuel = some second ∧ second.drawLines = first.drawLines := by
  have same := drawn_lowered_first success
  rw [(sound.predicted success).drawn_lowered unheededFirst, sound.drawn_lowered unheeded,
    drawn_first success] at same
  obtain ⟨again, predictedAgain, layers⟩ := Option.map_eq_some_iff.mp same
  exact ⟨_, Option.bind_eq_some_iff.mpr ⟨again, predictedAgain, rfl⟩, layers⟩

/-- Among boxes that hold no point in common, only then. -/
theorem Sound.second_same_iff (unheeded : Unheeded view) (apart : Apart view.scaledColorBoxes)
    {second : LevelView} (again : first.updatePredictPath fuel = some second) :
    second.drawLines = first.drawLines ↔ Unheeded first := by
  constructor
  · intro same
    have apartFirst : Apart first.scaledColorBoxes := by
      obtain ⟨prediction, predicted, is⟩ := Option.bind_eq_some_iff.mp success
      cases is
      exact apart_of_shapes apart (getPredictedPaths_frame predicted).2
    refine (sound.predicted success).unheeded_of_drawn apartFirst fuel ?_ ?_
    · rw [drawn_first again]
      rfl
    · rw [drawn_lowered_first success, sound.drawn_lowered unheeded, drawn_first success, drawn_first again, same]
  · intro unheededFirst
    obtain ⟨other, predicted, same⟩ := sound.second_same success unheeded unheededFirst
    obtain rfl : second = other := Option.some.inj (again.symm.trans predicted)
    exact same

/-- Lines that end outside of the boxes leave no flag that comes to show. -/
theorem Sound.unheeded_first (parting : Parting view) : Unheeded first := by
  obtain ⟨prediction, predicted, is⟩ := Option.bind_eq_some_iff.mp success
  obtain ⟨lines, shapes⟩ := getPredictedPaths_frame predicted
  cases is
  intro line' member' box' there' up
  obtain ⟨line, member, restart⟩ : ∃ line ∈ view.lines, line.restart = line'.restart := by
    have there := List.mem_map_of_mem (f := Line.restart) member'
    rw [lines] at there
    exact List.mem_map.mp there
  obtain ⟨box, there, shape⟩ : ∃ box ∈ view.scaledColorBoxes, box.shape = box'.shape := by
    have here := List.mem_map_of_mem (f := ColorBox.shape) there'
    rw [shapes] at here
    exact List.mem_map.mp here
  have unread : Unread view.gravityWells view.antiGravityZones line view.scaledColorBoxes box := by
    rcases parting line member box there with ends | unread
    · refine .inr fun n _ reaches _ => ?_
      have starts := reaches.of_le (Nat.zero_le _)
      have down := getPredictedPaths_down sound.distinct predicted member starts there' (ends.of_shape shape.symm)
      rw [restart_uuid restart, up] at down
      cases down
    · exact unread
  exact unread.of_restart restart.symm shapes shape.symm

end Second

/-- In every view that gestures and predictions lead to, in any order: a prediction
in which no flag comes to show returns what it would return with every flag down,
as if it were the first. So of two successive calls the second returns what the first
did, if no flag comes to show in either; and none does in the second, if none does in
the first and every line ends outside of each box whose flag could come to show. Among
boxes that hold no point in common, both are so in no other case. -/
theorem predictions_repeat (fuel : ℕ) (screen : Screen) (uuidString : ℕ → String)
    (distinct : Function.Injective uuidString) (level : LevelData) (view reached : LevelView)
    (events : List (Option LevelView.Gesture))
    (built : LevelView.init fuel screen uuidString level = some view)
    (run : (calls fuel).run view events = some reached) :
    (Unheeded reached → ∀ fuel, drawn fuel (lowered reached) = drawn fuel reached) ∧
    (Unheeded reached → ∀ fuel first, reached.updatePredictPath fuel = some first →
      Parting reached ∨ Unheeded first →
      ∃ second, first.updatePredictPath fuel = some second ∧ second.drawLines = first.drawLines) ∧
    (Apart reached.scaledColorBoxes → ∀ fuel first, reached.updatePredictPath fuel = some first →
      (drawn fuel (lowered reached) = drawn fuel reached ↔ Unheeded reached) ∧
      (Unheeded reached → ∀ second, first.updatePredictPath fuel = some second →
        (second.drawLines = first.drawLines ↔ Unheeded first))) := by
  have sound := sound_of_run distinct built run
  refine ⟨fun unheeded fuel => sound.drawn_lowered unheeded fuel, ?_, ?_⟩
  · intro unheeded fuel first success parts
    exact sound.second_same success unheeded (parts.elim (sound.unheeded_first success) id)
  · intro apart fuel first success
    refine ⟨⟨sound.unheeded_of_drawn apart fuel ?_, fun unheeded => sound.drawn_lowered unheeded fuel⟩, ?_⟩
    · rw [drawn_first success]
      rfl
    · exact fun unheeded second again => sound.second_same_iff success unheeded apart again

end View

section Crossing

/-- A box as wide as the screen, red on the left and blue on the right. -/
def wideBoxData : ColorBoxData where
  frame := some ⟨0, 0, 1, 1 / 8⟩
  leftColor := some ⟨1, 0, 0, 1⟩
  rightColor := some ⟨0, 0, 1, 1⟩
  backgroundColor := some ⟨0, 0, 0, 1⟩

/-- A red line to the right of the box, with a velocity to the left. -/
def crossingLine (start : CGFloat) : LineData where
  startPosition := some ⟨start, 1 / 16⟩
  startVelocity := some ⟨-7 / 8, 0⟩
  startColor := some ⟨1, 0, 0, 1⟩
  startThickness := 1 / 40

def crossing (start : CGFloat) : LevelData where
  propFrame := some ⟨0, 0, 1, 1⟩
  lineData := [crossingLine start]
  colorBoxData := [wideBoxData]

def wideBox : ColorBox where
  frame := phone.propToRect ⟨⟨0, 0⟩, ⟨1, 1 / 8⟩⟩
  rotation := 0
  leftColor := ⟨1, 0, 0, 1⟩
  rightColor := ⟨0, 0, 1, 1⟩
  backgroundColor := ⟨0, 0, 0, 1⟩
  middlePropWidth := 0

def redLine (start : CGFloat) : Line :=
  .new (phone.propToPoint ⟨start, 1 / 16⟩) (phone.propToVector ⟨-7 / 8, 0⟩) ⟨1, 0, 0, 1⟩
    (phone.propToFloat (1 / 40) true) (uuidOf 0)

theorem crossing_init (fuel : ℕ) (start : CGFloat) :
    ∃ view, LevelView.init fuel phone uuidOf (crossing start) = some view ∧
      view.lines = [redLine start] ∧ view.scaledColorBoxes = [wideBox] ∧ view.gravityWells = [] ∧
      view.antiGravityZones = [] :=
  ⟨_, rfl, rfl, rfl, rfl, rfl⟩

/-- A turn of the loop without wells, for one box. -/
theorem free_turn {w : Walk} {box : ColorBox} (enters : w.guard) (boxes : w.scaledColorBoxes = [box]) :
    let p := w.line.currentPoint + ⟨w.line.lineVelocity.dx, w.line.lineVelocity.dy⟩
    let handled := handleColorBox w.line.uuid p w.line.lineColor box
    w.body [] [] =
      { line := { w.line with
          linePath := w.line.linePath ++ [p]
          currentPoint := p
          lineColor := handled.1
          levelCountDistance := w.line.levelCountDistance.map (· + w.line.lineVelocity.length) }
        scaledColorBoxes := [handled.2]
        linesForLine := w.split.linesForLine
        currentLine := w.split.currentLine.newLocation p } := by
  have unpulled : w.line.lineVelocity + CGVector.zero / Line.lineMass = w.line.lineVelocity := by
    ext <;> simp
  rcases body_cases [] [] enters with ⟨forces, found, is⟩ | ⟨lost, _⟩
  · obtain rfl : CGVector.zero = forces := Option.some.inj found
    rw [is]
    simp only [Walk.move, handleColorBoxesForLine, handleColorBoxes, split_line, split_boxes, boxes,
      unpulled, Line.newLocation, Line.changeLineColor, handleCollisions]
  · cases lost

theorem redLine_velocity (start : CGFloat) : (redLine start).startVelocity = ⟨-350, 0⟩ := by
  ext <;> norm_num [redLine, Line.new, Line.reset, Screen.propToVector, Screen.propToFloat, phone]

theorem wideBox_place (x : CGFloat) :
    (wideBox.pointInBody ⟨x, 50⟩ ↔ 0 ≤ x ∧ x < 400) ∧
      (wideBox.pointInLeftRect ⟨x, 50⟩ ↔ 0 ≤ x ∧ x < 200) ∧
      (wideBox.pointInRightRect ⟨x, 50⟩ ↔ 200 ≤ x ∧ x < 400) := by
  refine ⟨?_, ?_, ?_⟩ <;>
    norm_num [ColorBox.pointInBody, ColorBox.pointInLeftRect, ColorBox.pointInRightRect,
      ColorBox.bodyBounds, ColorBox.leftFrame, ColorBox.rightFrame, ColorBox.convertToBody, wideBox,
      Screen.propToRect, phone, CGRect.contains, CGRect.mk4, CGRect.minX, CGRect.minY, CGRect.width,
      CGRect.height]

/-- At its first two points, the box does to a red line what its first flag says. -/
theorem wideBox_gate {box : ColorBox} (shape : box.shape = wideBox.shape) (uuid : String) (c : Color)
    (idle : box.getStep2 uuid = false) (x : CGFloat) (side : ColorGate.Side)
    (place : ColorGate.placeOf wideBox ⟨x, 50⟩ = .on side) :
    (handleColorBox uuid ⟨x, 50⟩ c box).1 =
        (ColorGate.Gate.step (ColorGate.sideColor wideBox) (.on side) c (box.getStep1 uuid)).1 ∧
      (handleColorBox uuid ⟨x, 50⟩ c box).2.getStep1 uuid =
        (ColorGate.Gate.step (ColorGate.sideColor wideBox) (.on side) c (box.getStep1 uuid)).2 ∧
      (handleColorBox uuid ⟨x, 50⟩ c box).2.getStep2 uuid = false ∧
      (handleColorBox uuid ⟨x, 50⟩ c box).2.shape = wideBox.shape := by
  have narrow : 0 ≤ box.shape.middlePropWidth ∧ box.shape.middlePropWidth ≤ 1 := by
    rw [shape]
    norm_num [ColorBox.shape, wideBox]
  obtain ⟨step, idleAfter, shapeAfter⟩ := ColorGate.handleColorBox_gate box uuid ⟨x, 50⟩ c narrow idle
  have samePlace : ColorGate.placeOf box ⟨x, 50⟩ = .on side := by
    change ColorGate.placeOf box.shape ⟨x, 50⟩ = .on side
    rw [shape]
    exact place
  rw [samePlace, ← ColorGate.sideColor_shape, shape, ColorGate.sideColor_shape] at step
  obtain ⟨color, flag⟩ := Prod.mk.inj step
  exact ⟨color, flag, idleAfter, shapeAfter.trans shape⟩

theorem redLine_places : ColorGate.placeOf wideBox ⟨360, 50⟩ = .on .right ∧
    ColorGate.placeOf wideBox ⟨10, 50⟩ = .on .left := by
  have narrow : 0 ≤ wideBox.middlePropWidth ∧ wideBox.middlePropWidth ≤ 1 := by norm_num [wideBox]
  constructor
  · refine (ColorGate.placeOf_eq_on wideBox _ narrow .right).mpr ⟨?_, ?_⟩
    · exact (wideBox_place 360).1.mpr (by norm_num)
    · exact (wideBox_place 360).2.2.mpr (by norm_num)
  · refine (ColorGate.placeOf_eq_on wideBox _ narrow .left).mpr ⟨?_, ?_⟩
    · exact (wideBox_place 10).1.mpr (by norm_num)
    · exact (wideBox_place 10).2.1.mpr (by norm_num)

/-- The line that crosses the box from right to left in two turns. -/
structure Crosses (line : Line) : Prop where
  restart : line.restart = line
  point : line.currentPoint = ⟨710, 50⟩
  velocity : line.lineVelocity = ⟨-350, 0⟩
  color : line.lineColor = ⟨1, 0, 0, 1⟩
  thickness : line.lineThickness = 10

theorem redLine_crosses : Crosses (redLine (71 / 40)) where
  restart := rfl
  point := by
    ext <;> norm_num [redLine, Line.new, Line.reset, Screen.propToPoint, Screen.propToFloat, phone]
  velocity := redLine_velocity _
  color := rfl
  thickness := by norm_num [redLine, Line.new, Line.reset, Screen.propToFloat, phone]

section Crossed
variable {line : Line} (crosses : Crosses line)
include crosses

theorem Crosses.speed : line.lineVelocity.length = 350 := by
  rw [crosses.velocity]
  simp [CGVector.length]

theorem Crosses.start (boxes : List ColorBox) : Walk.start line boxes =
    ⟨line, boxes, [], .new line.startPosition line.lineColor line.lineThickness⟩ := by
  unfold Walk.start
  rw [crosses.restart]

theorem Crosses.distance : line.levelCountDistance = some 0 := by
  rw [← crosses.restart]
  rfl

theorem Crosses.going : line.madeItToEnd = false := by
  rw [← crosses.restart]
  rfl

theorem Crosses.points : line.currentPoint + ⟨line.lineVelocity.dx, line.lineVelocity.dy⟩ = ⟨360, 50⟩ ∧
    (⟨360, 50⟩ : CGPoint) + ⟨line.lineVelocity.dx, line.lineVelocity.dy⟩ = ⟨10, 50⟩ := by
  rw [crosses.point, crosses.velocity]
  constructor <;> ext <;> norm_num

/-- The two turns of the loop for the crossing line, from a box with the first
flag up or down: the first point lies on the right, the second on the left. -/
theorem Crosses.predicted (box : ColorBox) (shape : box.shape = wideBox.shape)
    (idle : box.getStep2 line.uuid = false) :
    ∃ w, predictLine 3 [] [] [box] line = some w ∧
      w.linesForLine.length = (if box.getStep1 line.uuid = true then 1 else 0) ∧
      ∃ after, w.scaledColorBoxes = [after] ∧ after.shape = wideBox.shape ∧
        after.getStep2 line.uuid = false ∧ (box.getStep1 line.uuid = false →
          after.getStep1 line.uuid = true) := by
  have start := crosses.start [box]
  have distance := crosses.distance
  have speed := crosses.speed
  have thick : line.lineThickness ≥ 1 := by norm_num [crosses.thickness]
  obtain ⟨first, second⟩ := crosses.points
  -- the first turn ends on the right of the box
  have enters₀ : (Walk.start line [box]).guard := by
    rw [start]
    exact ⟨⟨0, distance, by norm_num⟩, thick, crosses.going⟩
  have turn₀ := free_turn enters₀ rfl
  have unsplit : (Walk.start line [box]).split = Walk.start line [box] :=
    if_neg (by simp [start, DummyLine.new])
  rw [unsplit, start] at turn₀
  simp only [first, distance, speed, Option.map_some, zero_add] at turn₀
  obtain ⟨color₁, flag₁, idle₁, shape₁⟩ :=
    wideBox_gate shape line.uuid line.lineColor idle 360 .right redLine_places.1
  -- the second turn ends on the left of it
  have enters₁ : ((Walk.start line [box]).body [] []).guard := by
    rw [start, turn₀]
    exact ⟨⟨350, rfl, by norm_num⟩, thick, crosses.going⟩
  have turn₁ := free_turn enters₁ (by rw [start, turn₀])
  rw [start, turn₀] at turn₁
  simp only [second, speed, Option.map_some] at turn₁
  obtain ⟨_, flag₂, idle₂, shape₂⟩ :=
    wideBox_gate shape₁ line.uuid (handleColorBox line.uuid ⟨360, 50⟩ line.lineColor box).1 idle₁ 10 .left
      redLine_places.2
  have leaves : ¬ (((Walk.start line [box]).body [] []).body [] []).guard := by
    rw [start, turn₀, turn₁]
    rintro ⟨⟨d, is, below⟩, _⟩
    obtain rfl := Option.some.inj is
    norm_num at below
  refine ⟨((Walk.start line [box]).body [] []).body [] [], ?_, ?_, ?_⟩
  · refine (Walk.loop [] []).run_eq_some_iff.mpr ⟨2, by omega, ⟨fun i below => ?_, leaves⟩, rfl⟩
    rcases (show i = 0 ∨ i = 1 by omega) with rfl | rfl
    · exact enters₀
    · exact enters₁
  · rw [start, turn₀, turn₁]
    simp only [Walk.split, color₁]
    cases up : box.getStep1 line.uuid <;>
      simp [ColorGate.Gate.step, ColorGate.sideColor, ColorGate.Side.opposite, crosses.color, wideBox,
        DummyLine.newLocation, DummyLine.new]
  · rw [start, turn₀, turn₁]
    refine ⟨_, rfl, shape₂, idle₂, fun down => ?_⟩
    rw [flag₂, color₁, flag₁, down]
    simp [ColorGate.Gate.step, ColorGate.sideColor, crosses.color, wideBox]

end Crossed

/-- The line ends on the left of the box and leaves the flag up. The second
prediction starts on the right of it with the flag, and turns blue. -/
theorem crossing_changes : ∃ view first second,
    LevelView.init 3 phone uuidOf (crossing (71 / 40)) = some view ∧
    view.updatePredictPath 3 = some first ∧ first.updatePredictPath 3 = some second ∧
    second.drawLines ≠ first.drawLines := by
  obtain ⟨w, success, pieces, after, boxes, shape, idle, flag⟩ :=
    redLine_crosses.predicted wideBox rfl rfl
  have restart := (predictLine_frame success).1
  obtain ⟨w', success', pieces', _⟩ := redLine_crosses.predicted after shape idle
  rw [← predictLine_restart restart, ← boxes] at success'
  refine ⟨_, _, _, rfl, Option.bind_eq_some_iff.mpr ⟨_, getPredictedPaths_single success, rfl⟩,
    Option.bind_eq_some_iff.mpr ⟨_, getPredictedPaths_single success', rfl⟩, fun same => ?_⟩
  rw [flag rfl] at pieces'
  have lengths := congrArg List.length same
  simp [Prediction.layers, Walk.pieces, pieces, pieces', ColorBox.getStep1, wideBox] at lengths

/-- The line gets into the box at its second point, where it leaves the flag up. Its
first point is outside, and both predictions agree. -/
theorem passing_agrees : ∃ view first, LevelView.init 3 phone uuidOf (crossing 2) = some view ∧
    view.updatePredictPath 3 = some first ∧
    ∃ second, first.updatePredictPath 3 = some second ∧ second.drawLines = first.drawLines := by
  obtain ⟨view, built, lines, boxes, wells, zones⟩ := crossing_init 3 2
  have speed : (redLine 2).startVelocity.length = 350 := by
    rw [redLine_velocity]
    simp [CGVector.length]
  have moving : ∀ line ∈ [redLine 2], 700 ≤ ((2 : ℕ) : ℝ) * line.startVelocity.length :=
    List.forall_mem_singleton.mpr (by norm_num [speed])
  have returns : (view.getPredictedPaths 3).isSome := by
    unfold LevelView.getPredictedPaths
    rw [lines, boxes, wells, zones]
    exact PlayerWells.getPredictedPaths_of_idle (List.forall_mem_nil _) moving _
  obtain ⟨first, success⟩ : ∃ first, view.updatePredictPath 3 = some first := by
    obtain ⟨prediction, predicted⟩ := Option.isSome_iff_exists.mp returns
    exact ⟨_, Option.bind_eq_some_iff.mpr ⟨prediction, predicted, rfl⟩⟩
  refine ⟨view, first, built, success, ?_⟩
  have outside : ¬ wideBox.pointInBody (pointAt [] [] (redLine 2) 1) := by
    have first : pointAt [] [] (redLine 2) 1 = ⟨450, 50⟩ := by
      rw [PlayerWells.pointAt_one_of_idle (List.forall_mem_nil _), redLine_velocity]
      ext <;> norm_num [redLine, Line.new, Line.reset, Screen.propToPoint, Screen.propToFloat, phone]
    rw [first, (wideBox_place 450).1]
    norm_num
  refine (predictions_repeat 3 phone uuidOf uuidOf_injective (crossing 2) view view [] built rfl).2.1 ?_ 3 _
    success (.inl ?_)
  · intro line _ box there up
    rw [boxes] at there
    obtain rfl := List.mem_singleton.mp there
    cases up
  · intro line member box there
    rw [lines] at member
    rw [boxes] at there
    obtain rfl := List.mem_singleton.mp member
    obtain rfl := List.mem_singleton.mp there
    rw [wells, zones]
    refine .inr (.inr fun n dormant _ inBody => ?_)
    cases n with
    | zero => exact absurd inBody outside
    | succ n => exact absurd (dormant 0 (Nat.succ_pos n)).1 outside

end Crossing
end
end Arthius.Guarantees.PredictionRepeat
