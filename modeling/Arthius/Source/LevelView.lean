import Arthius.Lib.Machine
import Arthius.Source.PredictedPaths

/-!
# The level view

`LevelView.init` and the gesture handlers of `LevelView.swift` and
`GravityWell.swift`. A well is an object: the stage and the handlers hold
references to it, and a handler can still resize a well that has been removed.
A forced unwrapping of `nil` is a refused event, and so is a prediction that
does not return. `lastRead` records what the last `updatePredictPath` read.
-/
namespace Arthius.Source
open Arthius.Lib

/-- A well with what its gesture handlers keep. -/
structure WellView extends GravityWell where
  boxCenter : CGPoint := CGPoint.zero
  heldDown : Bool := false

/-- What a prediction reads of the stage, besides the lines. -/
structure PredictionInput where
  gravityWells : List GravityWell
  colorBoxes : List ColorBox
  antiGravityZones : List AntiGravityZone

structure LevelView where
  screen : Screen
  lines : List Line
  antiGravityZones : List AntiGravityZone
  /-- The well objects; those numbered below `created` exist. -/
  wellViews : ℕ → WellView
  created : ℕ
  scaledGravityWells : List ℕ
  scaledColorBoxes : List ColorBox
  drawLines : List DummyLine
  longTapInital : CGPoint
  currentGravityWellCreated : Option ℕ
  justCreatedWell : Option Bool
  lastRead : Option PredictionInput

noncomputable section

namespace WellView

/-- `GravityWell.init` -/
def new (corePoint : CGPoint) (coreDiameter areaOfEffectDiameter mass : CGFloat) : WellView :=
  { corePoint := corePoint, center := corePoint, coreDiameter := coreDiameter
    areaOfEffectDiameter := areaOfEffectDiameter, mass := mass }

/-- The frame is laid around the core point again. -/
def updateSize (well : WellView) : WellView := { well with center := well.corePoint }

def touchInBtn (well : WellView) (point : CGPoint) : Prop :=
  well.center.x - |well.areaOfEffectDiameter| / 2 < point.x ∧
    point.x < well.center.x + |well.areaOfEffectDiameter| / 2 ∧
    well.center.y - |well.areaOfEffectDiameter| / 2 < point.y ∧
    point.y < well.center.y + |well.areaOfEffectDiameter| / 2

instance (well : WellView) (point : CGPoint) : Decidable (well.touchInBtn point) := Classical.dec _

end WellView

/-- `setupLines`; the UUIDs are those drawn from line number `i` on. -/
def setupLines (screen : Screen) (uuidString : ℕ → String) : ℕ → List LineData → Option (List Line)
  | _, [] => some []
  | i, line :: rest => do
    let startPosition ← line.startPosition
    let startVelocity ← line.startVelocity
    let startColor ← line.startColor
    let newLine := Line.new (screen.propToPoint startPosition.cgPoint)
      (screen.propToVector startVelocity.cgVector) startColor
      (screen.propToFloat line.startThickness true) (uuidString i)
    let others ← setupLines screen uuidString (i + 1) rest
    some (newLine :: others)

def setupAntiGrvityZones (screen : Screen) : List AntiGravityData → Option (List AntiGravityZone)
  | [] => some []
  | zone :: rest => do
    let frame ← zone.frame
    let color ← zone.color
    let others ← setupAntiGrvityZones screen rest
    some (⟨screen.propToRect frame.cgRect, color⟩ :: others)

namespace LevelView

/-- The wells on the stage, as a prediction reads them. -/
def gravityWells (view : LevelView) : List GravityWell :=
  view.scaledGravityWells.map fun well => (view.wellViews well).toGravityWell

/-- What a prediction would read now. -/
def predictionInput (view : LevelView) : PredictionInput :=
  ⟨view.gravityWells, view.scaledColorBoxes.map ColorBox.shape, view.antiGravityZones⟩

/-- `getPredictedPaths` on the view, within so many turns for each line. -/
def getPredictedPaths (fuel : ℕ) (view : LevelView) : Option Prediction :=
  Source.getPredictedPaths fuel view.gravityWells view.antiGravityZones view.scaledColorBoxes view.lines

def updatePredictPath (fuel : ℕ) (view : LevelView) : Option LevelView := do
  let prediction ← view.getPredictedPaths fuel
  some { view with
    lines := prediction.lines
    scaledColorBoxes := prediction.scaledColorBoxes
    drawLines := prediction.layers
    lastRead := some view.predictionInput }

def createGravityWell (fuel : ℕ) (point : CGPoint) (core areaOfEffectDiameter mass : CGFloat)
    (view : LevelView) : Option LevelView :=
  updatePredictPath fuel { view with
    wellViews := Function.update view.wellViews view.created
      (.new point core areaOfEffectDiameter mass)
    created := view.created + 1
    scaledGravityWells := view.scaledGravityWells ++ [view.created] }

/-- The index of a well that is not on the stage is `nil`. -/
def removeGravityWell (fuel : ℕ) (well : ℕ) (view : LevelView) : Option LevelView :=
  if well ∈ view.scaledGravityWells then
    updatePredictPath fuel { view with scaledGravityWells := view.scaledGravityWells.erase well }
  else none

def createGravityWellsFromLevel (fuel : ℕ) : List GravityWellData → LevelView → Option LevelView
  | [], view => some view
  | gWell :: rest, view => do
    let position ← gWell.position
    let created ← view.createGravityWell fuel (view.screen.propToPoint position.cgPoint)
      (view.screen.propToFloat gWell.coreDiameter true)
      (view.screen.propToFloat gWell.areaOfEffectDiameter true) gWell.mass
    createGravityWellsFromLevel fuel rest created

def createColorBox (frame : CGRect) (rotation : CGFloat) (leftCol rightCol backgroundColor : Color)
    (middlePropWidth : CGFloat) (view : LevelView) : LevelView :=
  { view with scaledColorBoxes := view.scaledColorBoxes ++
      [{ frame := frame, rotation := rotation, leftColor := leftCol, rightColor := rightCol
         backgroundColor := backgroundColor, middlePropWidth := middlePropWidth }] }

def createColorBoxesFromLevel : List ColorBoxData → LevelView → Option LevelView
  | [], view => some view
  | cBox :: rest, view => do
    let frame ← cBox.frame
    let leftColor ← cBox.leftColor
    let rightColor ← cBox.rightColor
    let backgroundColor ← cBox.backgroundColor
    createColorBoxesFromLevel rest <| view.createColorBox (view.screen.propToRect frame.cgRect)
      cBox.rotation leftColor rightColor backgroundColor cBox.middlePropWidth

/-- The view before the elements of the level are created. -/
def empty (screen : Screen) (lines : List Line) (zones : List AntiGravityZone) : LevelView where
  screen := screen
  lines := lines
  antiGravityZones := zones
  wellViews := fun _ => .new CGPoint.zero 0 0 0
  created := 0
  scaledGravityWells := []
  scaledColorBoxes := []
  drawLines := []
  longTapInital := CGPoint.zero
  currentGravityWellCreated := none
  justCreatedWell := none
  lastRead := none

/-- `LevelView.init`, as far as the stage and the predictions go. `setupLevelView`
unwraps the frame of the level. -/
def init (fuel : ℕ) (screen : Screen) (uuidString : ℕ → String) (level : LevelData) :
    Option LevelView := do
  let _ ← level.propFrame
  let lines ← setupLines screen uuidString 0 level.lineData
  let zones ← setupAntiGrvityZones screen level.antiGravityZones
  let withWells ← createGravityWellsFromLevel fuel level.gravityWells (empty screen lines zones)
  createColorBoxesFromLevel level.colorBoxData withWells

theorem init_some {fuel : ℕ} {screen : Screen} {uuidString : ℕ → String} {level : LevelData}
    {view : LevelView} (success : init fuel screen uuidString level = some view) :
    ∃ frame lines zones withWells, level.propFrame = some frame ∧
      setupLines screen uuidString 0 level.lineData = some lines ∧
      setupAntiGrvityZones screen level.antiGravityZones = some zones ∧
      createGravityWellsFromLevel fuel level.gravityWells (empty screen lines zones) = some withWells ∧
      createColorBoxesFromLevel level.colorBoxData withWells = some view := by
  obtain ⟨frame, framed, success⟩ := Option.bind_eq_some_iff.mp success
  obtain ⟨lines, setup, success⟩ := Option.bind_eq_some_iff.mp success
  obtain ⟨zones, setupZones, success⟩ := Option.bind_eq_some_iff.mp success
  obtain ⟨withWells, wells, boxes⟩ := Option.bind_eq_some_iff.mp success
  exact ⟨frame, lines, zones, withWells, framed, setup, setupZones, wells, boxes⟩

/-- A change to a well object. -/
def modifyWell (well : ℕ) (change : WellView → WellView) (view : LevelView) : LevelView :=
  { view with wellViews := Function.update view.wellViews well (change (view.wellViews well)) }

/-- Recogniser states, with what the handlers read of them. The gestures of a
well are those of a well on the stage. -/
inductive Gesture where
  | longPressBegan (location : CGPoint)
  | longPressChanged (location : CGPoint)
  | longPressEnded
  | longPressCancelled
  | panBegan (well : ℕ)
  | panChanged (well : ℕ) (translation : CGPoint)
  | panEnded (well : ℕ)
  | pinch (well : ℕ) (scale : CGFloat)
  | touchesBegan (well : ℕ)
  | touchesEnded (well : ℕ) (location : CGPoint)

/-- The distance of a long press from where it began, zero while it is short. -/
def tapDistance (view : LevelView) (p : CGPoint) : CGFloat :=
  let d := distance p view.longTapInital
  if d < view.screen.propToFloat (1 / 10) true then 0 else d

/-- `handleTap` -/
def handleTapBegan (fuel : ℕ) (location : CGPoint) (view : LevelView) : Option LevelView := do
  let created ← { view with longTapInital := location }.createGravityWell fuel location 0 0 100
  some { created with currentGravityWellCreated := some view.created }

def handleTapChanged (p : CGPoint) (view : LevelView) : Option LevelView :=
  view.currentGravityWellCreated.map fun well =>
    let d := view.tapDistance p
    view.modifyWell well fun current =>
      { current with areaOfEffectDiameter := d * 2, coreDiameter := d / 2 }.updateSize

def handleTapEnded (fuel : ℕ) (view : LevelView) : Option LevelView := do
  let well ← view.currentGravityWellCreated
  let view := { view with justCreatedWell := some true }
  if (view.wellViews well).areaOfEffectDiameter / 2 = 0 then view.removeGravityWell fuel well
  else some view

/-- `GravityWell.handlePan`, whose last branch calls `frameChanged`. -/
def handlePanChanged (fuel : ℕ) (well : ℕ) (location : CGPoint) (view : LevelView) : Option LevelView :=
  updatePredictPath fuel <| view.modifyWell well fun current =>
    let newCenter := current.boxCenter + location
    { current with center := newCenter, corePoint := newCenter }

/-- `GravityWell.handlePinch`, which does not call `frameChanged`. -/
def handlePinch (well : ℕ) (scale : CGFloat) (view : LevelView) : LevelView :=
  view.modifyWell well fun current =>
    { current with
      coreDiameter := current.coreDiameter * scale
      areaOfEffectDiameter := current.areaOfEffectDiameter * scale }.updateSize

/-- The `touched` closure of a well. -/
def touched (fuel : ℕ) (well : ℕ) (view : LevelView) : Option LevelView :=
  let removed := if view.justCreatedWell = some false then view.removeGravityWell fuel well else some view
  removed.map fun view => { view with justCreatedWell := some false }

/-- `GravityWell.touchesEnded` -/
def touchesEnded (fuel : ℕ) (well : ℕ) (location : CGPoint) (view : LevelView) : Option LevelView :=
  if (view.wellViews well).heldDown = true ∧ (view.wellViews well).touchInBtn location then
    (view.modifyWell well fun current => { current with heldDown := false }).touched fuel well
  else some view

/-- Only a well on the stage has gestures of its own. -/
def onStage (view : LevelView) (well : ℕ) (next : Option LevelView) : Option LevelView :=
  if well ∈ view.scaledGravityWells then next else none

def step (fuel : ℕ) (view : LevelView) : Gesture → Option LevelView
  | .longPressBegan location => view.handleTapBegan fuel location
  | .longPressChanged location => view.handleTapChanged location
  | .longPressEnded => view.handleTapEnded fuel
  | .longPressCancelled => some view
  | .panBegan well => view.onStage well <| some <|
      view.modifyWell well fun current => { current with boxCenter := current.center }
  | .panChanged well translation => view.onStage well <| view.handlePanChanged fuel well translation
  | .panEnded well => view.onStage well <| some view
  | .pinch well scale => view.onStage well <| some <| view.handlePinch well scale
  | .touchesBegan well => view.onStage well <| some <|
      view.modifyWell well fun current => { current with heldDown := true }
  | .touchesEnded well location => view.onStage well <| view.touchesEnded fuel well location

def gestures (fuel : ℕ) : Machine LevelView Gesture := ⟨step fuel⟩

end LevelView
end
end Arthius.Source
