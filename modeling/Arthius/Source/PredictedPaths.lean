import Arthius.Lib.Loop
import Arthius.Source.ColorBox

/-!
# Predicted paths

`Line`, `DummyLine` and `GravityWell` as `LevelView.getPredictedPaths` reads and
writes them, and that function. A pull at the very centre of a well divides by
zero: the velocity, the point and the travelled distance are then no numbers,
nothing compares with them any more, and the loop ends. Forces and distances are
`none` in that case. The frame of the line's layer is then no rectangle either; that setting
it raises an exception is not modelled. `tempLineForces` is the accumulator of
`calculateGravityForcesForLine`, and zero outside of it.
-/
namespace Arthius.Source
open Arthius.Lib

/-- A gravity well on the stage; `center` is the centre of its frame. -/
structure GravityWell where
  corePoint : CGPoint
  center : CGPoint
  coreDiameter : CGFloat
  areaOfEffectDiameter : CGFloat
  mass : CGFloat

structure AntiGravityZone where
  frame : CGRect
  color : Color

structure Line where
  startPosition : CGPoint
  startVelocity : CGVector
  startColor : Color
  startThickness : CGFloat
  currentPoint : CGPoint
  linePath : List CGPoint
  lineVelocity : CGVector
  lineColor : Color
  lineThickness : CGFloat
  madeItToEnd : Bool
  levelCountDistance : Option CGFloat
  uuid : String

/-- A drawn piece of a predicted path, of one colour and one thickness. It is
`lost` once its last edge goes to a point that is no number. -/
structure DummyLine where
  linePath : List CGPoint
  currentPoint : CGPoint
  lineColor : Color
  lineThickness : CGFloat
  lost : Bool := false

noncomputable section

namespace DummyLine

def new (startPoint : CGPoint) (startColor : Color) (startThickness : CGFloat) : DummyLine :=
  { linePath := [startPoint]
    currentPoint := startPoint
    lineColor := startColor
    lineThickness := startThickness }

def newLocation (line : DummyLine) (p : CGPoint) : DummyLine :=
  { line with linePath := line.linePath ++ [p], currentPoint := p }

/-- `newLocation` with a point that is no number. -/
def newLocationNowhere (line : DummyLine) : DummyLine := { line with lost := true }

end DummyLine

namespace Line

def reset (line : Line) : Line :=
  { line with
    currentPoint := line.startPosition
    lineVelocity := line.startVelocity
    lineColor := line.startColor
    lineThickness := line.startThickness
    madeItToEnd := false
    linePath := [line.startPosition] }

/-- `Line.init`, under the UUID drawn for the line. -/
def new (startPoint : CGPoint) (startVelocity : CGVector) (startColor : Color)
    (startThickness : CGFloat) (uuid : String) : Line :=
  reset
    { startPosition := startPoint
      startVelocity := startVelocity
      startColor := startColor
      startThickness := startThickness
      currentPoint := startPoint
      linePath := []
      lineVelocity := startVelocity
      lineColor := startColor
      lineThickness := 10
      madeItToEnd := false
      levelCountDistance := some 0
      uuid := uuid }

/-- How a prediction begins with a line. -/
def restart (line : Line) : Line := { line.reset with levelCountDistance := some 0 }

def newLocation (line : Line) (p : CGPoint) : Line :=
  { line with linePath := line.linePath ++ [p], currentPoint := p }

def changeLineColor (line : Line) (color : Color) : Line := { line with lineColor := color }

/-- Every line has mass one. -/
def lineMass : CGFloat := 1

end Line

/-- `LevelView.G` -/
def G : CGFloat := 1

/-- The pull of a well on a point at a positive distance. -/
def GravityWell.force (gravWell : GravityWell) (currentPoint : CGPoint) : CGVector :=
  let distFromGravityCenter := distance currentPoint gravWell.center
  let f := G * gravWell.mass * Line.lineMass / (distFromGravityCenter * distFromGravityCenter)
  let p2 := gravWell.center
  let p1 := currentPoint
  let angleRad := atan2 (p2.y - p1.y) (p2.x - p1.x)
  ⟨f * Real.cos angleRad, f * Real.sin angleRad⟩

/-- The loop of `calculateGravityForcesForLine`. -/
def sumGravityForces (currentPoint : CGPoint) : CGVector → List GravityWell → Option CGVector
  | tempLineForces, [] => some tempLineForces
  | tempLineForces, gravWell :: rest =>
    let distFromGravityCenter := distance currentPoint gravWell.center
    if distFromGravityCenter < gravWell.areaOfEffectDiameter / 2 then
      if distFromGravityCenter = 0 then none
      else sumGravityForces currentPoint (tempLineForces + gravWell.force currentPoint) rest
    else sumGravityForces currentPoint tempLineForces rest

def calculateGravityForces (gravityWells : List GravityWell) (currentPoint : CGPoint) :
    Option CGVector :=
  sumGravityForces currentPoint CGVector.zero gravityWells

/-- What `calculateGravityForcesForLine` reads and writes of a line. -/
structure PulledLine where
  currentPoint : CGPoint
  tempLineForces : CGVector

/-- `calculateGravityForcesForLine` begins anew whatever `tempLineForces` holds. -/
def calculateGravityForcesForLine (gravityWells : List GravityWell) (line : PulledLine) :
    Option CGVector :=
  let line := { line with tempLineForces := CGVector.zero }
  sumGravityForces line.currentPoint line.tempLineForces gravityWells

/-- The forces on a line at a point: none of them inside an anti-gravity zone. -/
def forcesAt (gravityWells : List GravityWell) (antiGravityZones : List AntiGravityZone)
    (currentPoint : CGPoint) : Option CGVector :=
  antiGravityZones.foldl
    (fun forces antiGrav =>
      if antiGrav.frame.contains currentPoint then some CGVector.zero else forces)
    (calculateGravityForces gravityWells currentPoint)

/-- The collision loop: each core that touches the line takes one unit off it. -/
def handleCollisions (currentPoint : CGPoint) : CGFloat → List GravityWell → CGFloat
  | lineThickness, [] => lineThickness
  | lineThickness, gravWell :: rest =>
    let lineCircle : Circle := ⟨currentPoint, lineThickness / 2⟩
    let gravCircle : Circle := ⟨gravWell.corePoint, gravWell.coreDiameter / 2⟩
    let collide := lineCircle.collidesWith gravCircle
    handleCollisions currentPoint
      (if collide ∧ lineThickness ≥ 1 then lineThickness - 1 else lineThickness) rest

def handleColorBoxesForLine (line : Line) (scaledColorBoxes : List ColorBox) :
    Line × List ColorBox :=
  let handled := handleColorBoxes line.uuid line.currentPoint line.lineColor scaledColorBoxes
  (line.changeLineColor handled.1, handled.2)

/-- The variables of the loop of `getPredictedPaths` for one line. -/
structure Walk where
  line : Line
  scaledColorBoxes : List ColorBox
  linesForLine : List DummyLine
  currentLine : DummyLine

namespace Walk

def guard (w : Walk) : Prop :=
  (∃ distance ∈ w.line.levelCountDistance, distance < 700) ∧ w.line.lineThickness ≥ 1 ∧
    w.line.madeItToEnd = false

/-- A new piece is begun when the line has changed. -/
def split (w : Walk) : Walk :=
  if w.line.lineThickness ≠ w.currentLine.lineThickness ∨ w.line.lineColor ≠ w.currentLine.lineColor
  then
    { w with
      linesForLine := w.linesForLine ++ [w.currentLine]
      currentLine := .new w.currentLine.currentPoint w.line.lineColor w.line.lineThickness }
  else w

/-- The line moves under the forces, meets the cores, then the colour boxes. -/
def move (gravityWells : List GravityWell) (forces : CGVector) (w : Walk) : Walk :=
  let dV := forces / Line.lineMass
  let deltaVel := w.line.lineVelocity + dV
  let pos := w.line.currentPoint + ⟨deltaVel.dx, deltaVel.dy⟩
  let moved := { w.line with
    lineVelocity := deltaVel
    levelCountDistance := w.line.levelCountDistance.map (· + deltaVel.length) }.newLocation pos
  let worn := { moved with
    lineThickness := handleCollisions moved.currentPoint moved.lineThickness gravityWells }
  let handled := handleColorBoxesForLine worn w.scaledColorBoxes
  { w with
    line := handled.1
    scaledColorBoxes := handled.2
    currentLine := w.currentLine.newLocation pos }

/-- A line that is nowhere touches no core and lies in no box. -/
def lose (w : Walk) : Walk :=
  { w with
    line := { w.line with levelCountDistance := none }
    scaledColorBoxes := w.scaledColorBoxes.map fun cBox =>
      (cBox.setStep1 w.line.uuid false).setStep2 w.line.uuid false
    currentLine := w.currentLine.newLocationNowhere }

def body (gravityWells : List GravityWell) (antiGravityZones : List AntiGravityZone) (w : Walk) :
    Walk :=
  let w := w.split
  if w.line.madeItToEnd = false ∧ w.line.lineThickness ≥ 1 then
    match forcesAt gravityWells antiGravityZones w.line.currentPoint with
    | some forces => w.move gravityWells forces
    | none => w.lose
  else w

def loop (gravityWells : List GravityWell) (antiGravityZones : List AntiGravityZone) : Loop Walk :=
  ⟨guard, fun _ => Classical.dec _, body gravityWells antiGravityZones⟩

/-- The variables when the loop for a line begins. -/
def start (line : Line) (scaledColorBoxes : List ColorBox) : Walk :=
  let line := line.restart
  ⟨line, scaledColorBoxes, [], .new line.startPosition line.lineColor line.lineThickness⟩

/-- The pieces of a line's predicted path, once its loop is over. -/
def pieces (w : Walk) : List DummyLine := w.linesForLine ++ [w.currentLine]

end Walk

/-- The predicted path of one line. -/
def predictLine (fuel : ℕ) (gravityWells : List GravityWell)
    (antiGravityZones : List AntiGravityZone) (scaledColorBoxes : List ColorBox) (line : Line) :
    Option Walk :=
  (Walk.loop gravityWells antiGravityZones).run fuel (Walk.start line scaledColorBoxes)

/-- What `getPredictedPaths` has when it returns: the pieces of each line, the
lines as their loops left them, and the colour boxes. -/
structure Prediction where
  paths : List (List DummyLine)
  lines : List Line
  scaledColorBoxes : List ColorBox

/-- `layers` -/
def Prediction.layers (prediction : Prediction) : List DummyLine := prediction.paths.flatten

/-- The loop of `getPredictedPaths` over the lines. -/
def getPredictedPaths (fuel : ℕ) (gravityWells : List GravityWell)
    (antiGravityZones : List AntiGravityZone) : List ColorBox → List Line → Option Prediction
  | scaledColorBoxes, [] => some ⟨[], [], scaledColorBoxes⟩
  | scaledColorBoxes, line :: rest => do
    let walk ← predictLine fuel gravityWells antiGravityZones scaledColorBoxes line
    let others ← getPredictedPaths fuel gravityWells antiGravityZones walk.scaledColorBoxes rest
    some ⟨walk.pieces :: others.paths, walk.line :: others.lines, others.scaledColorBoxes⟩

end
end Arthius.Source
