import Arthius.Guarantees.PredictionFreshness
import Arthius.Guarantees.WellConsistency

/-!
# The wells that predictions read

A `LevelView` keeps of a well what predictions and handlers read of it. These
values are those of the well's views, over every run of gestures: what holds of
the views holds of the wells that move the lines.
-/
namespace Arthius.Guarantees.WellProjection
open Arthius.Lib Arthius.Source PredictionFreshness WellGeometry WellConsistency

noncomputable section

/-- What a `LevelView` keeps of a well. -/
def shown (well : StageWell) : WellView where
  corePoint := well.corePoint
  center := well.view.center
  coreDiameter := well.coreDiameter
  areaOfEffectDiameter := well.areaOfEffectDiameter
  mass := well.mass
  boxCenter := well.boxCenter
  heldDown := well.heldDown

section Wells

theorem shown_new (corePoint : CGPoint) (coreDiameter areaOfEffectDiameter mass : CGFloat) :
    shown (.new corePoint coreDiameter areaOfEffectDiameter mass) =
      .new corePoint coreDiameter areaOfEffectDiameter mass := by
  simp only [shown, StageWell.new, withFrame_frameAt, WellView.new]

theorem shown_updateSize (well : StageWell) : shown well.updateSize = (shown well).updateSize := by
  simp only [shown, StageWell.updateSize, withFrame_frameAt, WellView.updateSize]

theorem shown_resize (d : CGFloat) (well : StageWell) : shown (well.resize d) =
    ({ shown well with areaOfEffectDiameter := d * 2, coreDiameter := d / 2 } : WellView).updateSize := by
  rw [StageWell.resize, shown_updateSize]
  rfl

theorem shown_handlePinch (scale : CGFloat) (well : StageWell) : shown (well.handlePinch scale) =
    ({ shown well with
      coreDiameter := (shown well).coreDiameter * scale
      areaOfEffectDiameter := (shown well).areaOfEffectDiameter * scale } : WellView).updateSize := by
  rw [StageWell.handlePinch, shown_updateSize]
  rfl

/-- Both ask whether a touch is inside the same square. -/
theorem touchInBtn_iff {well : StageWell} (geometry : Geometry well) (point : CGPoint) :
    (shown well).touchInBtn point ↔ well.touchInBtn point := by
  have right : ∀ x side : CGFloat, x - side / 2 + side = x + side / 2 := fun x side => by ring
  unfold StageWell.touchInBtn WellView.touchInBtn
  rw [geometry.frame]
  simp only [shown, squareAround, CGRect.mk4, right, geometry.center]

end Wells

/-- The view keeps what the stage has. -/
structure Shows (view : LevelView) (stage : WellStage) : Prop where
  screen : view.screen = stage.screen
  wellViews : view.wellViews = fun well => shown (stage.wells well)
  created : view.created = stage.created
  scaledGravityWells : view.scaledGravityWells = stage.scaledGravityWells
  longTapInital : view.longTapInital = stage.longTapInital
  currentGravityWellCreated : view.currentGravityWellCreated = stage.currentGravityWellCreated
  justCreatedWell : view.justCreatedWell = stage.justCreatedWell

section Steps
variable {fuel : ℕ} {view view' : LevelView} {stage : WellStage}

theorem Shows.wellView (shows : Shows view stage) (well : ℕ) : view.wellViews well = shown (stage.wells well) :=
  congrFun shows.wellViews well

/-- A prediction touches none of it. -/
theorem shows_of_prediction (success : view.updatePredictPath fuel = some view')
    (shows : Shows view stage) : Shows view' stage := by
  obtain ⟨prediction, _, success⟩ := Option.bind_eq_some_iff.mp success
  cases success
  exact ⟨shows.screen, shows.wellViews, shows.created, shows.scaledGravityWells, shows.longTapInital,
    shows.currentGravityWellCreated, shows.justCreatedWell⟩

theorem Shows.modifyWell (shows : Shows view stage) (well : ℕ) {change : WellView → WellView}
    {change' : StageWell → StageWell} (same : ∀ other, shown (change' other) = change (shown other)) :
    Shows (view.modifyWell well change) (stage.modifyWell well change') where
  screen := shows.screen
  wellViews := by
    funext other
    rw [modifyWell_wells]
    simp only [LevelView.modifyWell, Function.update_apply, shows.wellView]
    split_ifs
    · exact (same _).symm
    · rfl
  created := shows.created
  scaledGravityWells := shows.scaledGravityWells
  longTapInital := shows.longTapInital
  currentGravityWellCreated := shows.currentGravityWellCreated
  justCreatedWell := shows.justCreatedWell

theorem Shows.create (shows : Shows view stage) {point : CGPoint} {core areaOfEffectDiameter mass : CGFloat}
    (success : view.createGravityWell fuel point core areaOfEffectDiameter mass = some view') :
    Shows view' (stage.createGravityWell point core areaOfEffectDiameter mass) := by
  unfold LevelView.createGravityWell at success
  refine shows_of_prediction success ⟨shows.screen, ?_, ?_, ?_, shows.longTapInital,
    shows.currentGravityWellCreated, shows.justCreatedWell⟩
  · funext other
    simp only [WellStage.createGravityWell, Function.update_apply, shows.wellView, shows.created]
    split_ifs
    · exact (shown_new _ _ _ _).symm
    · rfl
  · exact congrArg (· + 1) shows.created
  · rw [shows.scaledGravityWells, shows.created]
    rfl

/-- The view removes a well that is in the list only; so does the stage without a trap. -/
theorem Shows.remove (shows : Shows view stage) {well : ℕ}
    (success : view.removeGravityWell fuel well = some view') :
    Shows view' (stage.removeGravityWell well) := by
  unfold LevelView.removeGravityWell at success
  split at success
  · rw [removeGravityWell_eq]
    refine shows_of_prediction success ⟨shows.screen, shows.wellViews, shows.created, ?_,
      shows.longTapInital, shows.currentGravityWellCreated, shows.justCreatedWell⟩
    rw [shows.scaledGravityWells]
  · cases success

theorem Shows.touched (shows : Shows view stage) {well : ℕ} (success : view.touched fuel well = some view') :
    Shows view' (stage.touched well) := by
  obtain ⟨removed, removal, rfl⟩ := Option.map_eq_some_iff.mp success
  rw [shows.justCreatedWell] at removal
  have after : Shows removed
      (if stage.justCreatedWell = some false then stage.removeGravityWell well else stage) := by
    split_ifs at removal ⊢
    · exact shows.remove removal
    · cases removal
      exact shows
  exact ⟨after.screen, after.wellViews, after.created, after.scaledGravityWells, after.longTapInital,
    after.currentGravityWellCreated, rfl⟩

theorem Shows.ended (shows : Shows view stage) (success : view.handleTapEnded fuel = some view') :
    Shows view' stage.handleTapEnded := by
  obtain ⟨well, current, success⟩ := Option.bind_eq_some_iff.mp success
  rw [shows.currentGravityWellCreated] at current
  rw [handleTapEnded_eq current]
  have before : Shows { view with justCreatedWell := some true }
      { stage with pressing := false, justCreatedWell := some true } :=
    ⟨shows.screen, shows.wellViews, shows.created, shows.scaledGravityWells, shows.longTapInital,
      shows.currentGravityWellCreated, rfl⟩
  dsimp only at success
  rw [shows.wellView] at success
  change (if (stage.wells well).areaOfEffectDiameter / 2 = 0 then _ else _) = _ at success
  split_ifs at success ⊢
  · exact before.remove success
  · exact Option.some.inj success ▸ before

theorem Shows.changed (shows : Shows view stage) {location : CGPoint}
    (success : view.handleTapChanged location = some view') : Shows view' (stage.handleTapChanged location) := by
  obtain ⟨well, current, rfl⟩ := Option.map_eq_some_iff.mp success
  rw [shows.currentGravityWellCreated] at current
  have d : view.tapDistance location = stage.tapDistance location := by
    unfold LevelView.tapDistance WellStage.tapDistance
    rw [shows.longTapInital, shows.screen]
  unfold WellStage.handleTapChanged
  rw [current, d]
  exact shows.modifyWell well fun other => shown_resize _ other

theorem Shows.touchesEnded (shows : Shows view stage) {well : ℕ} {location : CGPoint}
    (geometry : Geometry (stage.wells well)) (success : view.touchesEnded fuel well location = some view') :
    Shows view' (stage.touchesEnded well location) := by
  have released : ∀ other : StageWell, shown { other with heldDown := false } =
      { shown other with heldDown := false } := fun _ => rfl
  have both : (view.wellViews well).heldDown = true ∧ (view.wellViews well).touchInBtn location ↔
      (stage.wells well).heldDown = true ∧ (stage.wells well).touchInBtn location := by
    rw [shows.wellView]
    exact and_congr_right fun _ => touchInBtn_iff geometry location
  unfold LevelView.touchesEnded at success
  unfold WellStage.touchesEnded
  by_cases tapped : (stage.wells well).heldDown = true ∧ (stage.wells well).touchInBtn location
  · rw [if_pos (both.mpr tapped)] at success
    rw [if_pos tapped]
    exact (shows.modifyWell well released).touched success
  · rw [if_neg (mt both.mp tapped)] at success
    rw [if_neg tapped]
    exact Option.some.inj success ▸ shows

/-- A gesture that both can take leaves the view showing the stage. -/
theorem Shows.step {level stage' : WellStage} {gesture : LevelView.Gesture} (shows : Shows view stage)
    (placed : Placed level stage) (success : view.step fuel gesture = some view')
    (taken : stage.step (.gesture gesture) = some stage') : Shows view' stage' := by
  obtain ⟨⟨_, possible⟩, rfl⟩ := step_some.mp taken
  cases gesture with
  | longPressBegan location =>
    obtain ⟨created, creation, rest⟩ := Option.bind_eq_some_iff.mp success
    cases rest
    have before : Shows { view with longTapInital := location } { stage with longTapInital := location } :=
      ⟨shows.screen, shows.wellViews, shows.created, shows.scaledGravityWells, rfl,
        shows.currentGravityWellCreated, shows.justCreatedWell⟩
    have after := before.create creation
    exact ⟨after.screen, after.wellViews, after.created, after.scaledGravityWells, after.longTapInital,
      congrArg some shows.created, after.justCreatedWell⟩
  | longPressChanged location => exact shows.changed success
  | longPressEnded => exact shows.ended success
  | longPressCancelled =>
    cases success
    exact ⟨shows.screen, shows.wellViews, shows.created, shows.scaledGravityWells, shows.longTapInital,
      shows.currentGravityWellCreated, shows.justCreatedWell⟩
  | panBegan well =>
    obtain ⟨_, success⟩ := onStage_some success
    cases success
    exact shows.modifyWell well fun other => rfl
  | panChanged well translation =>
    obtain ⟨_, success⟩ := onStage_some success
    exact shows_of_prediction success (shows.modifyWell well fun other => rfl)
  | panEnded well =>
    obtain ⟨_, success⟩ := onStage_some success
    cases success
    exact shows
  | pinch well scale =>
    obtain ⟨_, success⟩ := onStage_some success
    cases success
    have pinched : Shows (view.handlePinch well scale) (stage.modifyWell well (.handlePinch scale)) :=
      shows.modifyWell well fun other => shown_handlePinch scale other
    exact ⟨pinched.screen, pinched.wellViews, pinched.created, pinched.scaledGravityWells,
      pinched.longTapInital, pinched.currentGravityWellCreated, pinched.justCreatedWell⟩
  | touchesBegan well =>
    obtain ⟨_, success⟩ := onStage_some success
    cases success
    change Shows _ (stage.modifyWell well fun current => { current with heldDown := true })
    exact shows.modifyWell well fun other => rfl
  | touchesEnded well location =>
    obtain ⟨_, success⟩ := onStage_some success
    have listed : well ∈ stage.scaledGravityWells := (placed.aligned.shown well).mpr possible
    have known := placed.aligned.known well listed
    exact shows.touchesEnded (placed.shaped.geometry well known) success

end Steps

section Init
variable {fuel : ℕ} {view view' : LevelView} {stage : WellStage}

theorem Shows.createGravityWellsFromLevel (shows : Shows view stage) {data : List GravityWellData}
    (success : LevelView.createGravityWellsFromLevel fuel data view = some view') :
    ∃ stage', WellStage.createGravityWellsFromLevel data stage = some stage' ∧ Shows view' stage' := by
  induction data generalizing view stage with
  | nil =>
    cases success
    exact ⟨stage, rfl, shows⟩
  | cons gWell rest ih =>
    obtain ⟨position, found, success⟩ := Option.bind_eq_some_iff.mp success
    obtain ⟨created, creation, success⟩ := Option.bind_eq_some_iff.mp success
    obtain ⟨stage', built, after⟩ := ih (shows.create creation) success
    refine ⟨stage', ?_, after⟩
    rw [WellStage.createGravityWellsFromLevel, found, Option.bind_eq_bind, Option.bind_some,
      ← shows.screen]
    exact built

/-- Both begin with the wells of the level. -/
theorem init_shows {screen : Screen} {uuidString : ℕ → String} {level : LevelData}
    (success : LevelView.init fuel screen uuidString level = some view) :
    ∃ stage, WellStage.init screen level = some stage ∧ Shows view stage := by
  obtain ⟨_, lines, zones, withWells, framed, _, _, wells, boxes⟩ := LevelView.init_some success
  have empty : Shows (.empty screen lines zones) (.empty screen level.gravityWells.length) := by
    refine ⟨rfl, ?_, rfl, rfl, rfl, rfl, rfl⟩
    funext well
    exact (shown_new _ _ _ _).symm
  obtain ⟨stage, built, after⟩ := empty.createGravityWellsFromLevel wells
  obtain ⟨added, _, rfl⟩ := PredictionFreshness.createColorBoxesFromLevel_frame boxes
  have begun : WellStage.init screen level = some stage := by
    rw [WellStage.init, framed]
    exact built
  exact ⟨stage, begun, after.screen, after.wellViews, after.created, after.scaledGravityWells,
    after.longTapInital, after.currentGravityWellCreated, after.justCreatedWell⟩

end Init

/-- In every run of gestures that both can take, the wells of the `LevelView` are
what it keeps of the wells of the stage, listed in the same order. -/
theorem wells_shown {fuel : ℕ} {screen : Screen} {uuidString : ℕ → String} {level : LevelData}
    {view view' : LevelView} {stage stage' : WellStage} {gestures : List LevelView.Gesture}
    (success : LevelView.init fuel screen uuidString level = some view)
    (built : WellStage.init screen level = some stage)
    (run : (LevelView.gestures fuel).run view gestures = some view')
    (run' : WellStage.events.run stage (gestures.map .gesture) = some stage') :
    Shows view' stage' ∧ Placed stage stage' := by
  obtain ⟨first, built', shows⟩ := init_shows success
  obtain rfl := Option.some.inj (built.symm.trans built')
  exact (LevelView.gestures fuel).run_lockstep WellStage.events .gesture
    (R := fun view stage' => Shows view stage' ∧ Placed stage stage')
    (fun _ _ _ _ _ now moved taken => ⟨now.1.step now.2 moved taken, now.2.step taken⟩)
    ⟨shows, init_placed built⟩ run run'

/-- So a prediction finds every well around the point that forces and collisions
use, and those of the player's with a core a quarter as wide as the area of effect. -/
theorem predicted_wells {fuel : ℕ} {screen : Screen} {uuidString : ℕ → String} {level : LevelData}
    {view view' : LevelView} {stage stage' : WellStage} {gestures : List LevelView.Gesture}
    (success : LevelView.init fuel screen uuidString level = some view)
    (built : WellStage.init screen level = some stage)
    (run : (LevelView.gestures fuel).run view gestures = some view')
    (run' : WellStage.events.run stage (gestures.map .gesture) = some stage') :
    ∀ well ∈ view'.scaledGravityWells,
      (view'.wellViews well).center = (view'.wellViews well).corePoint ∧
      (view.created ≤ well →
        4 * (view'.wellViews well).coreDiameter = (view'.wellViews well).areaOfEffectDiameter) := by
  obtain ⟨shows, placed⟩ := wells_shown success built run run'
  obtain ⟨first, built', begun⟩ := init_shows success
  obtain rfl := Option.some.inj (built.symm.trans built')
  intro well listed
  rw [shows.scaledGravityWells] at listed
  have known := placed.aligned.known well listed
  rw [shows.wellView]
  refine ⟨(placed.shaped.geometry well known).center, fun player => ?_⟩
  exact (placed.shaped.quarter well known (placed.shaped.fromLevel.trans begun.created.symm ▸ player)).1

end
end Arthius.Guarantees.WellProjection
