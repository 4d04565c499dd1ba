import Arthius.Lib.Machine
import Arthius.Lib.ObjectArray
import Arthius.Source.LevelData

/-!
# The level editor

`CreateLevelView.swift` with `EditableColorBox.swift` and `LineStart.swift`. The
data of boxes and lines are objects: the arrays of `levelData` and the closures
of the elements on the stage hold references to them. A forced unwrapping of
`nil` is a refused action. What is only drawn (colours, the body of a box, the
direction of a line start) is left out, and so is the order of the subviews.
-/
namespace Arthius.Source
open Arthius.Lib

/-- `pan.state` as the handlers tell it apart; `ended` is also failed and cancelled. -/
inductive GestureState where
  | began | changed | ended
  deriving DecidableEq, Repr

/-- A view whose transform scales it about its centre; the angle of the transform
of the body view is `bodyAngle`. `data` is the object its closure has captured. -/
structure EditableColorBox where
  center : CGPoint
  size : CGSize
  scale : CGFloat
  bodyAngle : CGFloat
  rotation : CGFloat
  boxCenter : CGPoint
  lastScale : CGFloat
  data : ℕ

/-- `knobCenter` is the centre of `frameChangeKnob`, in the coordinates of the view. -/
structure EditableLineStart where
  center : CGPoint
  width : CGFloat
  knobCenter : CGPoint
  maxPropStartVelocity : CGVector
  boxCenter : CGPoint
  preLoc : CGPoint
  data : ℕ

noncomputable section

/-- `==` of `Extensions.swift`, which compares all fields. -/
instance : DecidableEq ColorBoxData := Classical.decEq _
instance : DecidableEq LineData := Classical.decEq _

namespace EditableColorBox

/-- `EditableColorBox.init` -/
def new (frame : CGRect) (rotation : CGFloat) (data : ℕ) : EditableColorBox where
  center := ⟨frame.midX, frame.midY⟩
  size := ⟨frame.width, frame.height⟩
  scale := 1
  bodyAngle := rotation
  rotation := rotation
  boxCenter := CGPoint.zero
  lastScale := 1
  data := data

/-- The frame of a transformed view encloses it. -/
def frame (box : EditableColorBox) : CGRect :=
  let width := |box.size.width * box.scale|
  let height := |box.size.height * box.scale|
  .mk4 (box.center.x - width / 2) (box.center.y - height / 2) width height

def maxScale : CGFloat := 2
def minScale : CGFloat := 9 / 10

/-! The handlers also return whether they call `frameChanged`. -/

def handlePan (state : GestureState) (location : CGPoint) (box : EditableColorBox) :
    EditableColorBox × Bool :=
  match state with
  | .began => ({ box with boxCenter := box.center }, false)
  | .ended => (box, false)
  | .changed =>
    ({ box with center := ⟨box.boxCenter.x + location.x, box.boxCenter.y + location.y⟩ }, true)

/-- `currentScale` is what the layer reports under `transform.scale`. -/
def handlePinch (state : GestureState) (pinchScale currentScale : CGFloat) (box : EditableColorBox) :
    EditableColorBox × Bool :=
  let box := if state = .began then { box with lastScale := pinchScale } else box
  if state = .began ∨ state = .changed then
    let newScale := 1 - (box.lastScale - pinchScale)
    let newScale := min newScale (maxScale / currentScale)
    let newScale := max newScale (minScale / currentScale)
    ({ box with scale := box.scale * newScale, lastScale := pinchScale }, true)
  else (box, false)

def handleRotation (rotation : CGFloat) (box : EditableColorBox) : EditableColorBox × Bool :=
  let bodyAngle := box.bodyAngle + rotation
  let radians := atan2 (Real.sin bodyAngle) (Real.cos bodyAngle)
  ({ box with bodyAngle := bodyAngle, rotation := radians }, true)

end EditableColorBox

namespace EditableLineStart
variable (screen : Screen)

def maxVectorRadius (lineStart : EditableLineStart) : CGFloat := lineStart.width

def offset (lineStart : EditableLineStart) : CGPoint := ⟨lineStart.width / 2, lineStart.width / 2⟩

/-- The velocities are stored with the aspect of the screen. -/
def aspect : CGVector := ⟨1, screen.width / screen.height⟩

def getKnobPointFromVector (lineStart : EditableLineStart) (velocityVector : CGVector) : CGPoint :=
  let vector := (velocityVector / lineStart.maxPropStartVelocity) * (lineStart.maxVectorRadius / (3 / 2))
  ⟨vector.dx, vector.dy⟩

/-- Where `init` puts the knob for a start velocity. -/
def initialKnob (lineStart : EditableLineStart) (startVelocity : CGVector) : CGPoint :=
  let scaledStart := startVelocity / aspect screen
  lineStart.getKnobPointFromVector scaledStart + lineStart.offset

/-- `EditableLineStart.init` -/
def new (f : CGRect) (startVelocity maxPropStartVelocity : CGVector) (data : ℕ) : EditableLineStart :=
  let frame := CGRect.mk4 (f.origin.x - f.width / 2) (f.origin.y - f.width / 2) f.width f.width
  let lineStart : EditableLineStart :=
    { center := ⟨frame.midX, frame.midY⟩
      width := frame.width
      knobCenter := CGPoint.zero
      maxPropStartVelocity := maxPropStartVelocity
      boxCenter := CGPoint.zero
      preLoc := CGPoint.zero
      data := data }
  { lineStart with knobCenter := lineStart.initialKnob screen startVelocity }

def getCurrentKnobVectorNormalized (lineStart : EditableLineStart) : CGVector :=
  let x := lineStart.knobCenter.x
  let y := lineStart.knobCenter.y
  let nx := lineStart.knobCenter.x - lineStart.offset.x
  let ny := lineStart.knobCenter.y - lineStart.offset.y
  let d := Real.sqrt (x * x + y * y)
  let s := d / lineStart.maxVectorRadius
  (⟨nx, ny⟩ : CGVector).normalized * (if s > 1 then 1 else s)

/-- The velocity that `frameChanged` reads off the knob. -/
def knobVelocity (lineStart : EditableLineStart) : CGVector :=
  lineStart.getCurrentKnobVectorNormalized * lineStart.maxPropStartVelocity * aspect screen

def updateKnobPosition (panTranslation : CGPoint) (lineStart : EditableLineStart) : EditableLineStart :=
  let newCenter := lineStart.preLoc + panTranslation
  let distFrom := newCenter - lineStart.offset
  if distFrom.x * distFrom.x + distFrom.y * distFrom.y <
      lineStart.maxVectorRadius * lineStart.maxVectorRadius then
    { lineStart with knobCenter := newCenter }
  else
    let newBoundedCenter := (⟨newCenter.x, newCenter.y⟩ : CGVector).normalized * lineStart.maxVectorRadius
    { lineStart with knobCenter := ⟨newBoundedCenter.dx, newBoundedCenter.dy⟩ + lineStart.offset }

def handlePan (state : GestureState) (location : CGPoint) (lineStart : EditableLineStart) :
    EditableLineStart × Bool :=
  match state with
  | .began => ({ lineStart with boxCenter := lineStart.center }, false)
  | .ended => (lineStart, false)
  | .changed =>
    ({ lineStart with
        center := ⟨lineStart.boxCenter.x + location.x, lineStart.boxCenter.y + location.y⟩ }, true)

def handleFrameChangePan (state : GestureState) (panTranslation : CGPoint)
    (lineStart : EditableLineStart) : EditableLineStart × Bool :=
  match state with
  | .began => ({ lineStart with preLoc := lineStart.knobCenter }, false)
  | .ended => (lineStart, false)
  | .changed => (lineStart.updateKnobPosition panTranslation, true)

end EditableLineStart

/-- What the editor reads and writes of its `levelData`. -/
structure EditedLevel where
  colorBoxData : Objects ColorBoxData
  lineData : Objects LineData
  endPoints : List EndData

structure CreateLevelView where
  screen : Screen
  levelData : EditedLevel
  colorBoxes : List EditableColorBox
  lineStarts : List EditableLineStart

namespace CreateLevelView

def maxPropStartVelocity : CGVector := ⟨1 / 500, 1 / 500⟩

def addColorBoxToView (d : ℕ) (view : CreateLevelView) : Option CreateLevelView := do
  let data := view.levelData.colorBoxData.value d
  let frame ← data.frame
  let _leftColor ← data.leftColor
  let _rightColor ← data.rightColor
  let _backgroundColor ← data.backgroundColor
  some { view with
    colorBoxes := view.colorBoxes ++ [.new (view.screen.propToRect frame.cgRect) data.rotation d] }

/-- The line start that is built for a position and a velocity. -/
def lineStartAt (screen : Screen) (startPosition : Point) (startVelocity : CGVector) (d : ℕ) :
    EditableLineStart :=
  .new screen (screen.propToRect (.mk4 startPosition.x startPosition.y (1 / 10) 0)) startVelocity
    maxPropStartVelocity d

def addStartLineToView (d : ℕ) (view : CreateLevelView) : Option CreateLevelView := do
  let data := view.levelData.lineData.value d
  let startPosition ← data.startPosition
  let startVelocity ← data.startVelocity
  let _startColor ← data.startColor
  some { view with
    lineStarts := view.lineStarts ++ [lineStartAt view.screen startPosition startVelocity.cgVector d] }

/-- `createStartAndEnd`, whose end frame needs an end point. -/
def createStartAndEnd (view : CreateLevelView) : Option CreateLevelView := do
  let view ← view.levelData.lineData.array.foldlM (fun view lineData => view.addStartLineToView lineData) view
  let endPoint ← view.levelData.endPoints.head?
  let _frame ← endPoint.frame
  some view

def loadCurrentLevel (view : CreateLevelView) : Option CreateLevelView :=
  view.levelData.colorBoxData.array.foldlM (fun view cBox => view.addColorBoxToView cBox) view

/-- `CreateLevelView.init` -/
def init (screen : Screen) (existingLevel : EditedLevel) : Option CreateLevelView := do
  let view ← createStartAndEnd ⟨screen, existingLevel, [], []⟩
  view.loadCurrentLevel

/-- `colorChangeBtn.pressed` -/
def addColorBox (view : CreateLevelView) : Option CreateLevelView := do
  let first ← view.levelData.lineData.array.head?
  let startColor := (view.levelData.lineData.value first).startColor
  let own := view.levelData.colorBoxData.created
  let created := { view with levelData := { view.levelData with
    colorBoxData := view.levelData.colorBoxData.create
      { frame := some ⟨9 / 20, 9 / 20, 1 / 10, 1 / 10⟩, rotation := 0, leftColor := startColor
        rightColor := startColor, backgroundColor := some ⟨1 / 5, 1 / 5, 1 / 5, 1⟩
        middlePropWidth := 1 / 5 } } }
  let shown ← created.addColorBoxToView own
  some { shown with levelData := { shown.levelData with
    colorBoxData := shown.levelData.colorBoxData.append own } }

/-- The line start of the toolbox. -/
def toolboxLine : LineData where
  startPosition := some ⟨1 / 2, 1 / 2⟩
  startVelocity := some (CGVector.vector ⟨1 / 1000, 0⟩)
  startColor := some ⟨0, 0, 0, 1⟩
  startThickness := 3 / 100

/-- `lineStartBtn.pressed` -/
def addLineStart (view : CreateLevelView) : Option CreateLevelView := do
  let own := view.levelData.lineData.created
  let created := { view with levelData := { view.levelData with
    lineData := view.levelData.lineData.create toolboxLine } }
  let shown ← created.addStartLineToView own
  some { shown with levelData := { shown.levelData with
    lineData := shown.levelData.lineData.append own } }

/-- What `frameChanged` of a colour box makes of its object. -/
def writeBox (screen : Screen) (colorBox : EditableColorBox) (data : ColorBoxData) : ColorBoxData :=
  { data with frame := some (screen.rectToProp colorBox.frame).rect, rotation := colorBox.rotation }

/-- What `frameChanged` of a line start makes of its object. -/
def writeStart (screen : Screen) (lineStart : EditableLineStart) (data : LineData) : LineData :=
  { data with
    startPosition := some (CGPoint.point (screen.pointToProp lineStart.center))
    startVelocity := some (CGVector.vector (lineStart.knobVelocity screen)) }

/-- `colorBox.frameChanged` -/
def boxFrameChanged (colorBox : EditableColorBox) (view : CreateLevelView) : CreateLevelView :=
  { view with levelData := { view.levelData with
    colorBoxData := view.levelData.colorBoxData.refile colorBox.data (writeBox view.screen colorBox) } }

/-- `lineStart.frameChanged` -/
def startFrameChanged (lineStart : EditableLineStart) (view : CreateLevelView) : CreateLevelView :=
  { view with levelData := { view.levelData with
    lineData := view.levelData.lineData.refile lineStart.data (writeStart view.screen lineStart) } }

/-- A gesture of the colour box number `i`. -/
def handleBox (i : ℕ) (handler : EditableColorBox → EditableColorBox × Bool) (view : CreateLevelView) :
    Option CreateLevelView := do
  let colorBox ← view.colorBoxes[i]?
  let handled := handler colorBox
  let moved := { view with colorBoxes := view.colorBoxes.set i handled.1 }
  some (if handled.2 then moved.boxFrameChanged handled.1 else moved)

/-- A gesture of the line start number `i`. -/
def handleStart (i : ℕ) (handler : EditableLineStart → EditableLineStart × Bool) (view : CreateLevelView) :
    Option CreateLevelView := do
  let lineStart ← view.lineStarts[i]?
  let handled := handler lineStart
  let moved := { view with lineStarts := view.lineStarts.set i handled.1 }
  some (if handled.2 then moved.startFrameChanged handled.1 else moved)

inductive Action where
  | addColorBox
  | addLineStart
  | panBox (i : ℕ) (state : GestureState) (translation : CGPoint)
  | pinchBox (i : ℕ) (state : GestureState) (scale currentScale : CGFloat)
  | rotateBox (i : ℕ) (rotation : CGFloat)
  | panStart (i : ℕ) (state : GestureState) (translation : CGPoint)
  | panKnob (i : ℕ) (state : GestureState) (translation : CGPoint)

def step (view : CreateLevelView) : Action → Option CreateLevelView
  | .addColorBox => view.addColorBox
  | .addLineStart => view.addLineStart
  | .panBox i state translation => view.handleBox i (·.handlePan state translation)
  | .pinchBox i state scale currentScale => view.handleBox i (·.handlePinch state scale currentScale)
  | .rotateBox i rotation => view.handleBox i (·.handleRotation rotation)
  | .panStart i state translation => view.handleStart i (·.handlePan state translation)
  | .panKnob i state translation => view.handleStart i (·.handleFrameChangePan state translation)

def editor : Machine CreateLevelView Action := ⟨step⟩

end CreateLevelView
end
end Arthius.Source
