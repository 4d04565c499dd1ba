import Arthius.Source.LevelView

/-!
# Wells as views

The wells of a `LevelView` with everything the gestures change of them: the
view's own centre and bounds, the core view inside it, the diameters and the core
point; and the stage, whose subviews and `scaledGravityWells` are two lists. The
long press is a recogniser: it begins, changes and ends or is cancelled, or fails
before it begins, which calls no handler. Predictions are left out, they change no
well. A forced index of `nil` stops the process.
-/
namespace Arthius.Source
open Arthius.Lib

/-- A view, by its centre in the superview and the size of its bounds. -/
structure UIView where
  center : CGPoint
  size : CGSize

structure StageWell where
  view : UIView
  coreView : UIView
  corePoint : CGPoint
  coreDiameter : CGFloat
  areaOfEffectDiameter : CGFloat
  mass : CGFloat
  boxCenter : CGPoint
  heldDown : Bool

structure WellStage where
  screen : Screen
  /-- The well objects; those numbered below `created` exist, those below
  `levelWells` come from the level. -/
  wells : ℕ → StageWell
  created : ℕ
  levelWells : ℕ
  /-- The wells among the subviews of `stageView`, the front one last. -/
  subviews : List ℕ
  scaledGravityWells : List ℕ
  longTapInital : CGPoint
  currentGravityWellCreated : Option ℕ
  justCreatedWell : Option Bool
  /-- A long press has begun and is not over. -/
  pressing : Bool
  trapped : Bool

/-- What the stage is sent: the gestures, and a long press that fails. -/
inductive StageEvent where
  | gesture (gesture : LevelView.Gesture)
  | longPressFailed

noncomputable section

namespace UIView

/-- Setting the frame: the bounds get its size without the sign. -/
def withFrame (frame : CGRect) : UIView :=
  ⟨⟨frame.midX, frame.midY⟩, ⟨frame.width, frame.height⟩⟩

def frame (view : UIView) : CGRect :=
  .mk4 (view.center.x - view.size.width / 2) (view.center.y - view.size.height / 2) view.size.width
    view.size.height

end UIView

namespace StageWell

/-- The frames that `init` and `updateSize` compute. -/
def frameAt (corePoint : CGPoint) (areaOfEffectDiameter : CGFloat) : CGRect :=
  .mk4 (corePoint.x - areaOfEffectDiameter / 2) (corePoint.y - areaOfEffectDiameter / 2)
    areaOfEffectDiameter areaOfEffectDiameter

def coreFrameIn (frame : CGRect) (coreDiameter : CGFloat) : CGRect :=
  .mk4 (frame.width / 2 - coreDiameter / 2) (frame.height / 2 - coreDiameter / 2) coreDiameter coreDiameter

def new (corePoint : CGPoint) (coreDiameter areaOfEffectDiameter mass : CGFloat) : StageWell :=
  let frame := frameAt corePoint areaOfEffectDiameter
  { view := .withFrame frame
    coreView := .withFrame (coreFrameIn frame coreDiameter)
    corePoint := corePoint
    coreDiameter := coreDiameter
    areaOfEffectDiameter := areaOfEffectDiameter
    mass := mass
    boxCenter := CGPoint.zero
    heldDown := false }

def updateSize (well : StageWell) : StageWell :=
  let frame := frameAt well.corePoint well.areaOfEffectDiameter
  { well with
    view := .withFrame frame
    coreView := .withFrame (coreFrameIn frame well.coreDiameter) }

def handlePanBegan (well : StageWell) : StageWell := { well with boxCenter := well.view.center }

def handlePanChanged (location : CGPoint) (well : StageWell) : StageWell :=
  let newCenter := well.boxCenter + location
  { well with view := { well.view with center := newCenter }, corePoint := newCenter }

def handlePinch (scale : CGFloat) (well : StageWell) : StageWell :=
  { well with
    coreDiameter := well.coreDiameter * scale
    areaOfEffectDiameter := well.areaOfEffectDiameter * scale }.updateSize

/-- What a long press makes of the well at a distance from where it began. -/
def resize (d : CGFloat) (well : StageWell) : StageWell :=
  { well with areaOfEffectDiameter := d * 2, coreDiameter := d / 2 }.updateSize

def touchInBtn (well : StageWell) (point : CGPoint) : Prop :=
  let f := well.view.frame
  f.origin.x < point.x ∧ point.x < f.origin.x + f.size.width ∧
    f.origin.y < point.y ∧ point.y < f.origin.y + f.size.height

instance (well : StageWell) (point : CGPoint) : Decidable (well.touchInBtn point) := Classical.dec _

end StageWell

namespace WellStage
variable (stage : WellStage)

def modifyWell (well : ℕ) (change : StageWell → StageWell) : WellStage :=
  { stage with wells := Function.update stage.wells well (change (stage.wells well)) }

def createGravityWell (point : CGPoint) (core areaOfEffectDiameter mass : CGFloat) : WellStage :=
  { stage with
    wells := Function.update stage.wells stage.created (.new point core areaOfEffectDiameter mass)
    created := stage.created + 1
    subviews := stage.subviews ++ [stage.created]
    scaledGravityWells := stage.scaledGravityWells ++ [stage.created] }

def removeGravityWell (well : ℕ) : WellStage :=
  let stage := { stage with subviews := stage.subviews.erase well }
  if well ∈ stage.scaledGravityWells then
    { stage with scaledGravityWells := stage.scaledGravityWells.erase well }
  else { stage with trapped := true }

/-- The wells of a level, one after the other. -/
def createGravityWellsFromLevel : List GravityWellData → WellStage → Option WellStage
  | [], stage => some stage
  | gWell :: rest, stage => do
    let position ← gWell.position
    createGravityWellsFromLevel rest <|
      stage.createGravityWell (stage.screen.propToPoint position.cgPoint)
        (stage.screen.propToFloat gWell.coreDiameter true)
        (stage.screen.propToFloat gWell.areaOfEffectDiameter true) gWell.mass

def empty (screen : Screen) (levelWells : ℕ) : WellStage where
  screen := screen
  wells := fun _ => .new CGPoint.zero 0 0 0
  created := 0
  levelWells := levelWells
  subviews := []
  scaledGravityWells := []
  longTapInital := CGPoint.zero
  currentGravityWellCreated := none
  justCreatedWell := none
  pressing := false
  trapped := false

/-- The stage after `LevelView.init`, which unwraps the frame of the level. -/
def init (screen : Screen) (level : LevelData) : Option WellStage := do
  let _ ← level.propFrame
  createGravityWellsFromLevel level.gravityWells (empty screen level.gravityWells.length)

theorem init_some {screen : Screen} {level : LevelData} {stage : WellStage}
    (success : init screen level = some stage) :
    createGravityWellsFromLevel level.gravityWells (empty screen level.gravityWells.length) =
      some stage :=
  (Option.bind_eq_some_iff.mp success).choose_spec.2

def tapDistance (p : CGPoint) : CGFloat :=
  let d := distance p stage.longTapInital
  if d < stage.screen.propToFloat (1 / 10) true then 0 else d

/-- `handleTap` -/
def handleTapBegan (location : CGPoint) : WellStage :=
  { { stage with longTapInital := location }.createGravityWell location 0 0 100 with
    currentGravityWellCreated := some stage.created, pressing := true }

def handleTapChanged (p : CGPoint) : WellStage :=
  match stage.currentGravityWellCreated with
  | some well => stage.modifyWell well (.resize (stage.tapDistance p))
  | none => { stage with trapped := true }

def handleTapEnded : WellStage :=
  let stage := { stage with pressing := false }
  match stage.currentGravityWellCreated with
  | some well =>
    let stage := { stage with justCreatedWell := some true }
    if (stage.wells well).areaOfEffectDiameter / 2 = 0 then stage.removeGravityWell well else stage
  | none => { stage with trapped := true }

/-- `handleTap` has no branch for a cancelled press. -/
def handleTapCancelled : WellStage := { stage with pressing := false }

/-- The `touched` closure of a well. -/
def touched (well : ℕ) : WellStage :=
  let removed := if stage.justCreatedWell = some false then stage.removeGravityWell well else stage
  { removed with justCreatedWell := some false }

def touchesEnded (well : ℕ) (location : CGPoint) : WellStage :=
  if (stage.wells well).heldDown = true ∧ (stage.wells well).touchInBtn location then
    (stage.modifyWell well fun current => { current with heldDown := false }).touched well
  else stage

/-- `handlePinch` also brings the well to the front. -/
def handlePinch (well : ℕ) (scale : CGFloat) : WellStage :=
  { stage with subviews := stage.subviews.erase well ++ [well] }.modifyWell well (.handlePinch scale)

/-- The events that can come: the recogniser is in step with them, a well has
gestures while it is on the stage, and the scale of a pinch is not negative. -/
def Possible : StageEvent → Prop
  | .gesture (.longPressBegan _) => stage.pressing = false
  | .gesture (.longPressChanged _) => stage.pressing = true
  | .gesture .longPressEnded => stage.pressing = true
  | .gesture .longPressCancelled => stage.pressing = true
  | .longPressFailed => stage.pressing = false
  | .gesture (.panBegan well) => well ∈ stage.subviews
  | .gesture (.panChanged well _) => well ∈ stage.subviews
  | .gesture (.panEnded well) => well ∈ stage.subviews
  | .gesture (.pinch well scale) => well ∈ stage.subviews ∧ 0 ≤ scale
  | .gesture (.touchesBegan well) => well ∈ stage.subviews
  | .gesture (.touchesEnded well _) => well ∈ stage.subviews

def handle : StageEvent → WellStage
  | .gesture (.longPressBegan location) => stage.handleTapBegan location
  | .gesture (.longPressChanged location) => stage.handleTapChanged location
  | .gesture .longPressEnded => stage.handleTapEnded
  | .gesture .longPressCancelled => stage.handleTapCancelled
  | .longPressFailed => stage
  | .gesture (.panBegan well) => stage.modifyWell well .handlePanBegan
  | .gesture (.panChanged well translation) => stage.modifyWell well (.handlePanChanged translation)
  | .gesture (.panEnded _) => stage
  | .gesture (.pinch well scale) => stage.handlePinch well scale
  | .gesture (.touchesBegan well) => stage.modifyWell well fun current => { current with heldDown := true }
  | .gesture (.touchesEnded well location) => stage.touchesEnded well location

open Classical in
def step (event : StageEvent) : Option WellStage :=
  if stage.trapped = false ∧ stage.Possible event then some (stage.handle event) else none

def events : Machine WellStage StageEvent := ⟨step⟩

end WellStage
end
end Arthius.Source
