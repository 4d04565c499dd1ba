import Arthius.Guarantees.PredictionFreshness
import Arthius.Source.LevelRun

/-!
# When a level is beaten

`update` asks the lines whether they made it to an end, which nothing tells them.
The trails say where they were: they are the paths of the lines, over every run.
-/
namespace Arthius.Guarantees.WinCondition
open Arthius.Lib Arthius.Source PredictionFrame PredictionFreshness

noncomputable section

section Loop
variable {gravityWells : List GravityWell} {antiGravityZones : List AntiGravityZone} {fuel : ℕ}

/-- The points of a trail. -/
def points : List (CGPoint × Color) → List CGPoint := List.map Prod.fst

/-- One turn takes a line that is somewhere one point further, or nowhere. -/
theorem body_path {w : Walk} (enters : w.guard) :
    ((w.body gravityWells antiGravityZones).line.levelCountDistance.isSome ∧
      (w.body gravityWells antiGravityZones).line.linePath =
        w.line.linePath ++ [(w.body gravityWells antiGravityZones).line.currentPoint]) ∨
    ((w.body gravityWells antiGravityZones).line.levelCountDistance = none ∧
      (w.body gravityWells antiGravityZones).line.linePath = w.line.linePath) := by
  obtain ⟨distance, counted, _⟩ := enters.1
  rcases body_cases gravityWells antiGravityZones enters with ⟨forces, _, is⟩ | ⟨_, is⟩
  · have moved : ((w.split.move gravityWells forces).line.levelCountDistance).isSome := by
      change (w.split.line.levelCountDistance.map _).isSome = true
      rw [Option.isSome_map, split_line, counted]
      rfl
    refine .inl ⟨is ▸ moved, ?_⟩
    rw [is, ← split_line w]
    rfl
  · refine .inr ?_
    rw [is, ← split_line w]
    exact ⟨rfl, rfl⟩

theorem here_some {w : Walk} (counted : w.line.levelCountDistance.isSome) :
    w.here = some (w.line.currentPoint, w.line.lineColor) := by
  obtain ⟨distance, is⟩ := Option.isSome_iff_exists.mp counted
  rw [Walk.here, is]
  rfl

/-- A line that is nowhere is not moved any more. -/
theorem trace_nowhere {w w' : Walk} (nowhere : w.line.levelCountDistance = none)
    (success : (Walk.loop gravityWells antiGravityZones).run fuel w = some w') :
    w' = w ∧ ((Walk.loop gravityWells antiGravityZones).trace fuel w).filterMap Walk.here = [] := by
  have stops : ¬ (Walk.loop gravityWells antiGravityZones).guard w := by
    rintro ⟨⟨distance, counted, _⟩, _⟩
    rw [nowhere] at counted
    cases counted
  have unseen : w.here = none := by rw [Walk.here, nowhere, Option.map_none]
  cases fuel with
  | zero => cases success
  | succ fuel =>
    rw [Loop.run, if_neg stops] at success
    rw [Loop.trace, if_neg stops, List.filterMap_cons_none unseen, List.filterMap_nil]
    exact ⟨(Option.some.inj success).symm, rfl⟩

/-- Induction over the turns: what the loop adds to the path are the points of its trace. -/
theorem trace_path {w w' : Walk} (success : (Walk.loop gravityWells antiGravityZones).run fuel w = some w')
    (counted : w.line.levelCountDistance.isSome) {before : List CGPoint}
    (path : w.line.linePath = before ++ [w.line.currentPoint]) :
    w'.line.linePath =
      before ++ points (((Walk.loop gravityWells antiGravityZones).trace fuel w).filterMap Walk.here) := by
  induction fuel generalizing w before with
  | zero => cases success
  | succ fuel ih =>
    unfold Loop.run at success
    unfold Loop.trace
    rw [List.filterMap_cons_some (here_some counted)]
    split_ifs at success ⊢ with enters
    · rcases body_path enters with ⟨countedNow, pathNow⟩ | ⟨nowhere, pathNow⟩
      · rw [path] at pathNow
        rw [ih success countedNow pathNow, List.append_assoc]
        rfl
      · obtain ⟨rfl, unseen⟩ := trace_nowhere nowhere success
        change _ = before ++ points (_ :: ((Walk.loop gravityWells antiGravityZones).trace fuel
          (w.body gravityWells antiGravityZones)).filterMap Walk.here)
        rw [unseen]
        exact pathNow.trans path
    · cases success
      exact path

theorem trail_path {boxes : List ColorBox} {line : Line} {w : Walk}
    (success : predictLine fuel gravityWells antiGravityZones boxes line = some w) :
    w.line.linePath = points (trail fuel gravityWells antiGravityZones boxes line) := by
  have path : (Walk.start line boxes).line.linePath = [] ++ [(Walk.start line boxes).line.currentPoint] := rfl
  exact trace_path success rfl path

/-- A prediction leaves the trails as the paths of the lines. -/
theorem trailsOf_paths {boxes : List ColorBox} {lines : List Line} {prediction : Prediction}
    (success : getPredictedPaths fuel gravityWells antiGravityZones boxes lines = some prediction) :
    prediction.lines.map Line.linePath =
      (trailsOf fuel gravityWells antiGravityZones boxes lines).map points := by
  induction lines generalizing boxes prediction with
  | nil =>
    cases success
    rfl
  | cons line rest ih =>
    obtain ⟨walk, others, first, later, rfl⟩ := getPredictedPaths_cons.mp success
    simp only [trailsOf, first, List.map_cons]
    rw [trail_path first, ih later]

theorem start_restart {line line' : Line} (same : line'.restart = line.restart) (boxes : List ColorBox) :
    Walk.start line' boxes = Walk.start line boxes := by
  unfold Walk.start
  rw [same]

/-- Lines that restart the same have the same trails. -/
theorem trailsOf_restart {boxes : List ColorBox} {lines lines' : List Line}
    (same : lines'.map Line.restart = lines.map Line.restart) :
    trailsOf fuel gravityWells antiGravityZones boxes lines' =
      trailsOf fuel gravityWells antiGravityZones boxes lines := by
  induction lines generalizing boxes lines' with
  | nil => rw [List.map_eq_nil_iff.mp same]
  | cons line rest ih =>
    obtain ⟨line', rest', rfl, first, later⟩ := List.map_eq_cons_iff.mp same
    have start := start_restart first boxes
    simp only [trailsOf, trail, predictLine, start]
    cases (Walk.loop gravityWells antiGravityZones).run fuel (Walk.start line boxes) with
    | none => rfl
    | some walk =>
      dsimp only
      rw [ih later]

/-- No loop tells a line that it made it. -/
theorem predictLine_made {boxes : List ColorBox} {line : Line} {w : Walk}
    (success : predictLine fuel gravityWells antiGravityZones boxes line = some w) :
    w.line.madeItToEnd = false := by
  obtain ⟨n, _, ⟨enters, _⟩, rfl⟩ := (Walk.loop gravityWells antiGravityZones).run_eq_some_iff.mp success
  refine (Walk.loop gravityWells antiGravityZones).after_invariant
    (I := fun w => w.line.madeItToEnd = false) ?_ rfl enters
  intro w made enters
  change (w.body gravityWells antiGravityZones).line.madeItToEnd = false
  rcases body_cases gravityWells antiGravityZones enters with ⟨forces, _, is⟩ | ⟨_, is⟩
  · rw [is, ← made, ← split_line w]
    rfl
  · rw [is, ← made, ← split_line w]
    rfl

theorem getPredictedPaths_made {boxes : List ColorBox} {lines : List Line} {prediction : Prediction}
    (success : getPredictedPaths fuel gravityWells antiGravityZones boxes lines = some prediction) :
    ∀ line ∈ prediction.lines, line.madeItToEnd = false := by
  induction lines generalizing boxes prediction with
  | nil =>
    cases success
    exact fun line none_ => absurd none_ List.not_mem_nil
  | cons line rest ih =>
    obtain ⟨walk, others, first, later, rfl⟩ := getPredictedPaths_cons.mp success
    exact List.forall_mem_cons.mpr ⟨predictLine_made first, ih later⟩

end Loop

section Gestures
variable {fuel : ℕ} {view view' : LevelView}

/-- The lines of a view after a prediction on its wells. -/
def PredictedFrom (fuel : ℕ) (view view' : LevelView) : Prop :=
  ∃ prediction, getPredictedPaths fuel view'.gravityWells view'.antiGravityZones view.scaledColorBoxes
    view.lines = some prediction ∧ view'.lines = prediction.lines

theorem updatePredictPath_predicted (success : view.updatePredictPath fuel = some view') :
    PredictedFrom fuel view view' := by
  obtain ⟨prediction, predicted, success⟩ := Option.bind_eq_some_iff.mp success
  cases success
  exact ⟨prediction, predicted, rfl⟩

theorem removeGravityWell_predicted {well : ℕ} (success : view.removeGravityWell fuel well = some view') :
    PredictedFrom fuel view view' := by
  unfold LevelView.removeGravityWell at success
  split at success
  · obtain ⟨prediction, predicted, lines⟩ := updatePredictPath_predicted success
    exact ⟨prediction, predicted, lines⟩
  · cases success

/-- A press that ends predicts again when it removes its well. -/
theorem handleTapEnded_predicted (success : view.handleTapEnded fuel = some view') :
    (view.predicts .longPressEnded → PredictedFrom fuel view view') ∧
      (¬ view.predicts .longPressEnded → view'.lines = view.lines) := by
  obtain ⟨well, current, success⟩ := Option.bind_eq_some_iff.mp success
  dsimp only at success
  split at success
  · next zero =>
    obtain ⟨prediction, predicted, lines⟩ := removeGravityWell_predicted success
    exact ⟨fun _ => ⟨prediction, predicted, lines⟩, fun still => absurd ⟨well, current, zero⟩ still⟩
  · next sized =>
    cases success
    refine ⟨?_, fun _ => rfl⟩
    rintro ⟨other, currentOther, zero⟩
    obtain rfl := Option.some.inj (current.symm.trans currentOther)
    exact absurd zero sized

/-- So does a tap that removes a well. -/
theorem touchesEnded_predicted {well : ℕ} {location : CGPoint}
    (success : view.touchesEnded fuel well location = some view') :
    (view.predicts (.touchesEnded well location) → PredictedFrom fuel view view') ∧
      (¬ view.predicts (.touchesEnded well location) → view'.lines = view.lines) := by
  unfold LevelView.touchesEnded at success
  split at success
  · next tapped =>
    obtain ⟨removed, removal, rfl⟩ := Option.map_eq_some_iff.mp success
    split at removal
    · next flag =>
      obtain ⟨prediction, predicted, lines⟩ := removeGravityWell_predicted removal
      exact ⟨fun _ => ⟨prediction, predicted, lines⟩, fun still => absurd ⟨tapped.1, tapped.2, flag⟩ still⟩
    · next flag =>
      cases removal
      exact ⟨fun ⟨_, _, flagged⟩ => absurd flagged flag, fun _ => rfl⟩
  · next untapped =>
    cases success
    exact ⟨fun ⟨held, inside, _⟩ => absurd ⟨held, inside⟩ untapped, fun _ => rfl⟩

/-- The handlers that predict do it with the lines and boxes as they were; the
others leave the lines alone. -/
theorem step_predicted {gesture : LevelView.Gesture} (success : view.step fuel gesture = some view') :
    (view.predicts gesture → PredictedFrom fuel view view') ∧
      (¬ view.predicts gesture → view'.lines = view.lines) := by
  cases gesture with
  | longPressBegan location =>
    obtain ⟨created, creation, rest⟩ := Option.bind_eq_some_iff.mp success
    cases rest
    obtain ⟨prediction, predicted, lines⟩ := updatePredictPath_predicted creation
    exact ⟨fun _ => ⟨prediction, predicted, lines⟩, fun still => absurd trivial still⟩
  | longPressChanged location =>
    obtain ⟨well, _, rfl⟩ := Option.map_eq_some_iff.mp success
    exact ⟨False.elim, fun _ => rfl⟩
  | longPressEnded =>
    exact handleTapEnded_predicted success
  | longPressCancelled =>
    cases success
    exact ⟨False.elim, fun _ => rfl⟩
  | panBegan well =>
    obtain ⟨_, success⟩ := onStage_some success
    cases success
    exact ⟨False.elim, fun _ => rfl⟩
  | panChanged well translation =>
    obtain ⟨_, success⟩ := onStage_some success
    obtain ⟨prediction, predicted, lines⟩ := updatePredictPath_predicted success
    exact ⟨fun _ => ⟨prediction, predicted, lines⟩, fun still => absurd trivial still⟩
  | panEnded well =>
    obtain ⟨_, success⟩ := onStage_some success
    cases success
    exact ⟨False.elim, fun _ => rfl⟩
  | pinch well scale =>
    obtain ⟨_, success⟩ := onStage_some success
    cases success
    exact ⟨False.elim, fun _ => rfl⟩
  | touchesBegan well =>
    obtain ⟨_, success⟩ := onStage_some success
    cases success
    exact ⟨False.elim, fun _ => rfl⟩
  | touchesEnded well location =>
    obtain ⟨_, success⟩ := onStage_some success
    exact touchesEnded_predicted success

end Gestures

section Init
variable {fuel : ℕ} {view view' : LevelView}

theorem PredictedFrom.made (predicted : PredictedFrom fuel view view') :
    ∀ line ∈ view'.lines, line.madeItToEnd = false := by
  obtain ⟨prediction, success, lines⟩ := predicted
  rw [lines]
  exact getPredictedPaths_made success

theorem PredictedFrom.paths (predicted : PredictedFrom fuel view view') :
    view'.lines.map Line.linePath = (trailsOf fuel view'.gravityWells view'.antiGravityZones
      view.scaledColorBoxes view.lines).map points := by
  obtain ⟨prediction, success, lines⟩ := predicted
  rw [lines]
  exact trailsOf_paths success

theorem PredictedFrom.sameLines (predicted : PredictedFrom fuel view view') : SameLines view view' := by
  obtain ⟨prediction, success, lines⟩ := predicted
  rw [SameLines, lines]
  exact (getPredictedPaths_frame success).1

/-- A line as `setupLines` makes it. -/
theorem setupLines_new {screen : Screen} {uuidString : ℕ → String} {i : ℕ} {data : List LineData}
    {lines : List Line} (success : setupLines screen uuidString i data = some lines) :
    ∀ line ∈ lines, line.madeItToEnd = false ∧ line.linePath = [line.startPosition] := by
  induction data generalizing i lines with
  | nil =>
    cases success
    exact fun line none_ => absurd none_ List.not_mem_nil
  | cons first rest ih =>
    obtain ⟨_, others, ⟨_, _, _, _, _, _, rfl⟩, later, rfl⟩ := setupLines_cons success
    exact List.forall_mem_cons.mpr ⟨⟨rfl, rfl⟩, ih later⟩

/-- The last well of a level is created with a prediction, before there are boxes. -/
theorem createGravityWellsFromLevel_predicted {wells : List GravityWellData}
    (success : LevelView.createGravityWellsFromLevel fuel wells view = some view')
    (noBoxes : view.scaledColorBoxes = []) (some_ : wells ≠ []) :
    ∃ before : LevelView, before.scaledColorBoxes = [] ∧ PredictedFrom fuel before view' := by
  induction wells generalizing view with
  | nil => exact absurd rfl some_
  | cons gWell rest ih =>
    obtain ⟨position, _, success⟩ := Option.bind_eq_some_iff.mp success
    obtain ⟨created, first, success⟩ := Option.bind_eq_some_iff.mp success
    by_cases last : rest = []
    · subst last
      cases success
      obtain ⟨prediction, predicted, lines⟩ := updatePredictPath_predicted first
      exact ⟨view, noBoxes, prediction, predicted, lines⟩
    · exact ih success ((createGravityWell_effects first).2.2.2 noBoxes) last

end Init

section Run
variable {fuel : ℕ} {run run' : LevelRun}

/-- Every line has made it to an end: its path has reached a point inside an end
that has the colour of the line there. There is a line at all. -/
def Won (run : LevelRun) : Prop :=
  run.view.lines ≠ [] ∧ ∀ trail ∈ run.trails, ∃ place ∈ trail, ∃ levelEnd ∈ run.endPoints,
    levelEnd.frame.contains place.1 ∧ levelEnd.color = place.2

/-- An update beats the level exactly when it is won and was not beaten before. -/
def BeatsRightly (run : LevelRun) : LevelRunEvent → Prop
  | .update => run.update.beats = run.beats + 1 ↔ run.beats = 0 ∧ Won run
  | _ => True

/-- An update finds a line, and the level not won. -/
def NotWon (run : LevelRun) : LevelRunEvent → Prop
  | .update => run.view.lines ≠ [] ∧ ¬ Won run
  | _ => True

/-- The trails are the paths of the lines. -/
def Traced (run : LevelRun) : Prop :=
  run.view.lines.map Line.linePath = run.trails.map points

def NoneMade (run : LevelRun) : Prop := ∀ line ∈ run.view.lines, line.madeItToEnd = false

/-- A view in which the level has not been beaten. -/
structure Going (run : LevelRun) : Prop where
  none_made : NoneMade run
  beats : run.beats = 0
  beatLevel : run.beatLevel = false

theorem init_going {screen : Screen} {uuidString : ℕ → String} {level : LevelData}
    (built : LevelRun.init fuel screen uuidString level = some run) :
    Traced run ∧ Going run := by
  obtain ⟨_, _, built⟩ := Option.bind_eq_some_iff.mp built
  obtain ⟨endPoints, _, built⟩ := Option.bind_eq_some_iff.mp built
  obtain ⟨view, viewed, built⟩ := Option.bind_eq_some_iff.mp built
  cases built
  obtain ⟨_, lines, zones, withWells, _, setup, _, wells, boxes⟩ := LevelView.init_some viewed
  obtain ⟨added, _, rfl⟩ := createColorBoxesFromLevel_frame boxes
  suffices Traced _ ∧ NoneMade _ from ⟨this.1, this.2, rfl, rfl⟩
  unfold Traced NoneMade
  dsimp only
  split_ifs with noWells
  · rw [noWells] at wells
    cases wells
    have new := setupLines_new setup
    refine ⟨?_, fun line member => (new line member).1⟩
    rw [resetTrails, List.map_map]
    exact List.map_congr_left fun line member => (new line member).2
  · obtain ⟨before, noBoxes, predicted⟩ := createGravityWellsFromLevel_predicted wells rfl noWells
    have paths : withWells.lines.map Line.linePath = (trailsOf fuel withWells.gravityWells
        withWells.antiGravityZones [] withWells.lines).map points := by
      rw [trailsOf_restart predicted.sameLines, predicted.paths, noBoxes]
    exact ⟨paths, predicted.made⟩

theorem update_eq (run : LevelRun) : run.update = if run.finishes then
    { run with paused := true, beatLevel := true, beats := run.beats + 1 } else run := by
  unfold LevelRun.update
  split_ifs <;> rfl

theorem resetLines_traced (run : LevelRun) : Traced run.resetLines := by
  simp only [Traced, LevelRun.resetLines, resetTrails, List.map_map]
  rfl

theorem resetLines_noneMade (run : LevelRun) : NoneMade run.resetLines := by
  intro line member
  obtain ⟨before, _, rfl⟩ := List.mem_map.mp member
  rfl

theorem gesture_keeps {gesture : LevelView.Gesture} (success : run.gesture fuel gesture = some run') :
    (Traced run → Traced run') ∧ (NoneMade run → NoneMade run') := by
  obtain ⟨view, moved, success⟩ := Option.bind_eq_some_iff.mp success
  cases success
  obtain ⟨predicts, still⟩ := step_predicted moved
  unfold Traced NoneMade
  dsimp only
  split_ifs with predicted
  · have from_ := predicts predicted
    exact ⟨fun _ => from_.paths, fun _ => from_.made⟩
  · rw [still predicted]
    exact ⟨id, id⟩

/-- Every event keeps the trails in step with the paths, and no line is told. -/
theorem step_keeps {event : LevelRunEvent} (success : (LevelRun.events fuel).step run event = some run') :
    (Traced run → Traced run') ∧ (NoneMade run → NoneMade run') := by
  cases event with
  | gesture gesture => exact gesture_keeps success
  | update =>
    obtain ⟨_, is⟩ := Option.ite_none_left_eq_some.mp success
    rw [← Option.some.inj is, update_eq]
    split_ifs <;> exact ⟨id, id⟩
  | pressPlayReset =>
    rw [← Option.some.inj success, LevelRun.pressPlayReset]
    split_ifs
    · exact ⟨id, id⟩
    · exact ⟨fun _ => resetLines_traced _, fun _ => resetLines_noneMade _⟩

theorem Going.finishes_iff (going : Going run) : run.finishes = true ↔ run.view.lines = [] := by
  rw [LevelRun.finishes, going.beatLevel, Bool.not_false, Bool.and_true, LevelRun.testAllLines,
    List.all_eq_true]
  constructor
  · intro all
    refine List.eq_nil_iff_forall_not_mem.mpr fun line member => ?_
    exact Bool.false_ne_true ((going.none_made line member).symm.trans (all line member))
  · intro empty line member
    rw [empty] at member
    exact absurd member List.not_mem_nil

/-- Where the level has not been beaten, an update decides rightly exactly when
there is a line and the level is not won. -/
theorem Going.beatsRightly_iff (going : Going run) (event : LevelRunEvent) :
    BeatsRightly run event ↔ NotWon run event := by
  cases event with
  | gesture gesture => exact Iff.rfl
  | pressPlayReset => exact Iff.rfl
  | update =>
    have executes : run.update.beats = run.beats + 1 ↔ run.view.lines = [] := by
      rw [update_eq, ← going.finishes_iff]
      split_ifs with finishes
      · exact iff_of_true rfl finishes
      · exact iff_of_false (Nat.ne_of_lt (Nat.lt_succ_self run.beats)) finishes
    change (_ ↔ _) ↔ _
    rw [executes, going.beats]
    constructor
    · intro rightly
      have lines : run.view.lines ≠ [] := fun empty => (rightly.mp empty).2.1 empty
      exact ⟨lines, fun won => lines (rightly.mpr ⟨rfl, won⟩)⟩
    · exact fun ⟨lines, notWon⟩ => iff_of_false lines fun won => notWon won.2

theorem Going.step {event : LevelRunEvent} (going : Going run) (rightly : BeatsRightly run event)
    (success : (LevelRun.events fuel).step run event = some run') : Going run' := by
  have made := (step_keeps success).2 going.none_made
  cases event with
  | gesture gesture =>
    obtain ⟨view, _, success⟩ := Option.bind_eq_some_iff.mp success
    cases success
    exact ⟨made, going.beats, going.beatLevel⟩
  | update =>
    obtain ⟨_, is⟩ := Option.ite_none_left_eq_some.mp success
    obtain ⟨lines, _⟩ := (going.beatsRightly_iff .update).mp rightly
    have waits : ¬ run.finishes = true := mt going.finishes_iff.mp lines
    rw [update_eq, if_neg waits] at is
    exact Option.some.inj is ▸ going
  | pressPlayReset =>
    have is : run.pressPlayReset = run' := Option.some.inj success
    rw [← is] at made ⊢
    unfold LevelRun.pressPlayReset at made ⊢
    split_ifs at made ⊢
    · exact going
    · exact ⟨made, going.beats, going.beatLevel⟩

end Run

/-- In every run from `LevelView.init`, the updates beat the level exactly when it
is won for the first time if and only if each of them finds a line and a level
that is not won. In every state reached the trails are the paths of the lines. -/
theorem win_condition (fuel : ℕ) (screen : Screen) (uuidString : ℕ → String) (level : LevelData)
    (run : LevelRun) (built : LevelRun.init fuel screen uuidString level = some run)
    (events : List LevelRunEvent) :
    ((LevelRun.events fuel).Meets BeatsRightly run events ↔ (LevelRun.events fuel).Meets NotWon run events) ∧
    (LevelRun.events fuel).Always Traced run events := by
  have going := init_going built
  refine ⟨?_, fun before after reached _ passed => ?_⟩
  · exact (LevelRun.events fuel).meets_congr (fun _ event (started : Going _) => started.beatsRightly_iff event)
      (fun _ _ _ started rightly success => started.step rightly success) going.2
  · exact (LevelRun.events fuel).run_invariant
      (fun _ _ _ tracedBefore success => (step_keeps success).1 tracedBefore) going.1 passed

section Levels

/-- A level without lines. -/
def noLines : LevelData where
  propFrame := some ⟨0, 0, 1, 1⟩
  levelConditions := some { maxDistance := 200, maxTime := 5 }

/-- A level with one line, and one whose line starts in an end of its colour. -/
def oneLine : LevelData :=
  { noLines with
    lineData := [{ startPosition := some ⟨1 / 2, 1 / 2⟩, startVelocity := some ⟨1 / 100, 0⟩
                   startColor := some ⟨1, 0, 0, 1⟩, startThickness := 1 / 40 }] }

def endAtStart : LevelData :=
  { oneLine with endPoints := [{ frame := some ⟨0, 0, 1, 1⟩, color := some ⟨1, 0, 0, 1⟩ }] }

def redLine : Line :=
  .new (phone.propToPoint ⟨1 / 2, 1 / 2⟩) (phone.propToVector ⟨1 / 100, 0⟩) ⟨1, 0, 0, 1⟩
    (phone.propToFloat (1 / 40) true) "0"

/-- The view of a level without wells. -/
def begin (level : LevelData) (lines : List Line) (endPoints : List LevelEnd) : LevelRun where
  level := level
  endPoints := endPoints
  view := .empty phone lines []
  paused := false
  beatLevel := false
  trails := resetTrails lines
  beats := 0

theorem oneLine_begins : LevelRun.init 1 phone toString oneLine = some (begin oneLine [redLine] []) := rfl

theorem oneLine_waits :
    (LevelRun.events 1).Meets BeatsRightly (begin oneLine [redLine] []) [.update, .update] := by
  have notWon : NotWon (begin oneLine [redLine] []) .update := by
    refine ⟨List.cons_ne_nil _ _, fun won => ?_⟩
    obtain ⟨_, _, levelEnd, none_, _⟩ := won.2 _ (List.mem_singleton.mpr rfl)
    exact absurd none_ List.not_mem_nil
  have same : (LevelRun.events 1).step (begin oneLine [redLine] []) .update =
      some (begin oneLine [redLine] []) := rfl
  refine (win_condition 1 phone toString oneLine _ oneLine_begins _).1.mpr ?_
  rw [Machine.meets_cons _ same, Machine.meets_cons _ same]
  exact ⟨notWon, notWon, trivial⟩

/-- The whole screen, in the colour of the line. -/
def redEnd : LevelEnd := ⟨phone.propToRect ⟨⟨0, 0⟩, ⟨1, 1⟩⟩, ⟨1, 0, 0, 1⟩⟩

theorem redEnd_contains : redEnd.frame.contains redLine.startPosition := by
  have wide : 0 ≤ phone.width * (⟨⟨0, 0⟩, ⟨1, 1⟩⟩ : CGRect).width := by
    norm_num [phone, CGRect.width]
  have high : 0 ≤ phone.height * (⟨⟨0, 0⟩, ⟨1, 1⟩⟩ : CGRect).height := by
    norm_num [phone, CGRect.height]
  refine (CGRect.contains_mk4 wide high redLine.startPosition).mpr ?_
  norm_num [redLine, Line.new, Line.reset, Screen.propToPoint, Screen.propToFloat, phone, CGRect.width,
    CGRect.height]

theorem endAtStart_won : Won (begin endAtStart [redLine] [redEnd]) := by
  refine ⟨List.cons_ne_nil _ _, fun trail member => ?_⟩
  obtain rfl := List.mem_singleton.mp member
  exact ⟨_, List.mem_singleton.mpr rfl, redEnd, List.mem_singleton.mpr rfl, redEnd_contains, rfl⟩

theorem updates_misjudge :
    (∃ run, LevelRun.init 1 phone toString noLines = some run ∧ ¬ BeatsRightly run .update) ∧
    ∃ run, LevelRun.init 1 phone toString endAtStart = some run ∧ ¬ BeatsRightly run .update := by
  constructor
  · refine ⟨begin noLines [] [], rfl, fun rightly => ?_⟩
    exact (rightly.mp rfl).2.1 rfl
  · have built : LevelRun.init 1 phone toString endAtStart = some (begin endAtStart [redLine] [redEnd]) := rfl
    have going : Going (begin endAtStart [redLine] [redEnd]) := (init_going built).2
    exact ⟨_, built, fun rightly => ((going.beatsRightly_iff .update).mp rightly).2 endAtStart_won⟩

end Levels

end
end Arthius.Guarantees.WinCondition
