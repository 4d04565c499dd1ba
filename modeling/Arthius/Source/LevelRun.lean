import Arthius.Source.LevelView

/-!
# The level while it runs

The display link of a `LevelView` and what its `update` decides. Both loops that
would set `madeItToEnd` are commented out in the source. `trails` records, for
each line, the points it was moved through since it was last reset, with the
colour it had there; `beats` counts the executions of `didBeatLevel`.
-/
namespace Arthius.Source
open Arthius.Lib

structure LevelEnd where
  frame : CGRect
  color : Color

structure LevelRun where
  level : LevelData
  endPoints : List LevelEnd
  view : LevelView
  paused : Bool
  beatLevel : Bool
  trails : List (List (CGPoint × Color))
  beats : ℕ

inductive LevelRunEvent where
  | gesture (gesture : LevelView.Gesture)
  | update
  | pressPlayReset

noncomputable section

def setupLevelEnds (screen : Screen) : List EndData → Option (List LevelEnd)
  | [] => some []
  | levelEnd :: rest => do
    let frame ← levelEnd.frame
    let color ← levelEnd.color
    let others ← setupLevelEnds screen rest
    some (⟨screen.propToRect frame.cgRect, color⟩ :: others)

/-- Where a line is, and in which colour; a line that is nowhere has no point. -/
def Walk.here (w : Walk) : Option (CGPoint × Color) :=
  w.line.levelCountDistance.map fun _ => (w.line.currentPoint, w.line.lineColor)

/-- The points that the loop for a line moves it through. -/
def trail (fuel : ℕ) (gravityWells : List GravityWell) (antiGravityZones : List AntiGravityZone)
    (scaledColorBoxes : List ColorBox) (line : Line) : List (CGPoint × Color) :=
  ((Walk.loop gravityWells antiGravityZones).trace fuel (Walk.start line scaledColorBoxes)).filterMap Walk.here

/-- The trails that a prediction leaves. -/
def trailsOf (fuel : ℕ) (gravityWells : List GravityWell) (antiGravityZones : List AntiGravityZone) :
    List ColorBox → List Line → List (List (CGPoint × Color))
  | _, [] => []
  | scaledColorBoxes, line :: rest =>
    trail fuel gravityWells antiGravityZones scaledColorBoxes line ::
      match predictLine fuel gravityWells antiGravityZones scaledColorBoxes line with
      | some walk => trailsOf fuel gravityWells antiGravityZones walk.scaledColorBoxes rest
      | none => []

/-- The trails of lines that have been reset. -/
def resetTrails (lines : List Line) : List (List (CGPoint × Color)) :=
  lines.map fun line => [(line.startPosition, line.startColor)]

/-- The gestures whose handlers call `updatePredictPath`. -/
def LevelView.predicts (view : LevelView) : LevelView.Gesture → Prop
  | .longPressBegan _ => True
  | .longPressEnded => ∃ well ∈ view.currentGravityWellCreated,
      (view.wellViews well).areaOfEffectDiameter / 2 = 0
  | .panChanged _ _ => True
  | .touchesEnded well location => (view.wellViews well).heldDown = true ∧
      (view.wellViews well).touchInBtn location ∧ view.justCreatedWell = some false
  | _ => False

namespace LevelRun
variable (run : LevelRun)

/-- `LevelView.init`; a well of the level predicts, the colour boxes come later. -/
def init (fuel : ℕ) (screen : Screen) (uuidString : ℕ → String) (level : LevelData) : Option LevelRun := do
  let _ ← level.propFrame
  let endPoints ← setupLevelEnds screen level.endPoints
  let view ← LevelView.init fuel screen uuidString level
  some { level := level
         endPoints := endPoints
         view := view
         paused := false
         beatLevel := false
         trails := if level.gravityWells = [] then resetTrails view.lines
           else trailsOf fuel view.gravityWells view.antiGravityZones [] view.lines
         beats := 0 }

def testAllLines : Bool := run.view.lines.all fun line => line.madeItToEnd

/-- Whatever the lines are like, `false` is returned. -/
def isLevelDead : Bool :=
  let _levelDead := run.view.lines.any fun line => decide (line.lineThickness < 1)
  false

def resetLines : LevelRun :=
  { run with
    view := { run.view with lines := run.view.lines.map Line.reset }
    trails := resetTrails run.view.lines }

/-- Whether `update` goes on to `didBeatLevel`. -/
def finishes : Bool := run.testAllLines && !run.beatLevel

def update : LevelRun :=
  let run := if run.finishes then { run with paused := true, beatLevel := true, beats := run.beats + 1 } else run
  if run.isLevelDead then { run with paused := true }.resetLines else run

/-- The closure of `playResetBtn`; there is nothing left of `playLevel`. -/
def pressPlayReset : LevelRun := if run.paused then run else { run with paused := true }.resetLines

open Classical in
/-- A gesture; what it predicts are the lines as they were, on the wells as they are now. -/
def gesture (fuel : ℕ) (gesture : LevelView.Gesture) : Option LevelRun := do
  let view ← run.view.step fuel gesture
  some { run with
    view := view
    trails := if run.view.predicts gesture then
        trailsOf fuel view.gravityWells view.antiGravityZones run.view.scaledColorBoxes run.view.lines
      else run.trails }

/-- `didBeatLevel` traps when the level has no conditions. -/
def step (fuel : ℕ) (run : LevelRun) : LevelRunEvent → Option LevelRun
  | .gesture gesture => run.gesture fuel gesture
  | .update => if run.finishes ∧ run.level.levelConditions.isNone then none else some run.update
  | .pressPlayReset => some run.pressPlayReset

def events (fuel : ℕ) : Machine LevelRun LevelRunEvent := ⟨step fuel⟩

end LevelRun
end
end Arthius.Source
