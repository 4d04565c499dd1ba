import Arthius.Source.LevelData

/-!
# Colour boxes

`ColorBox.swift` and the body of the loop of `LevelView.handleColorBoxesForLine`.
The body view fills the box's frame and is rotated about its own centre; the
left and right views lie in the body's unrotated coordinates. `lineStates` holds
two flags for each line, under the line's UUID.
-/
namespace Arthius.Source

structure LineState where
  step1 : Bool := false
  step2 : Bool := false
  deriving DecidableEq, Repr

structure ColorBox where
  frame : CGRect
  rotation : CGFloat
  leftColor : Color
  rightColor : Color
  backgroundColor : Color
  middlePropWidth : CGFloat
  lineStates : String → Option LineState := fun _ => none

noncomputable section

namespace ColorBox
variable (box : ColorBox)

/-- The middle and the sides of the body view, in its own coordinates. -/
def bodyBounds : CGRect := .mk4 0 0 box.frame.width box.frame.height

def leftFrame : CGRect :=
  .mk4 0 0 (box.frame.width / 2 - box.middlePropWidth / 2 * box.frame.width) box.frame.height

def rightFrame : CGRect :=
  .mk4 (box.frame.width / 2 + box.middlePropWidth / 2 * box.frame.width) 0
    (box.frame.width / 2 - box.middlePropWidth / 2 * box.frame.width) box.frame.height

/-- `bodyView.convert(_:from: stageView)` -/
def convertToBody (locInMain : CGPoint) : CGPoint :=
  let midX := box.frame.width / 2
  let midY := box.frame.height / 2
  let x := locInMain.x - box.frame.minX - midX
  let y := locInMain.y - box.frame.minY - midY
  ⟨Real.cos box.rotation * x + Real.sin box.rotation * y + midX,
    Real.cos box.rotation * y - Real.sin box.rotation * x + midY⟩

/-- `bodyView.pointInRect(locInMain:view: stageView)` -/
def pointInBody (locInMain : CGPoint) : Prop := box.bodyBounds.contains (box.convertToBody locInMain)

def pointInLeftRect (locInMain : CGPoint) : Prop :=
  box.leftFrame.contains (box.convertToBody locInMain)

def pointInRightRect (locInMain : CGPoint) : Prop :=
  box.rightFrame.contains (box.convertToBody locInMain)

instance (p : CGPoint) : Decidable (box.pointInBody p) := Classical.dec _
instance (p : CGPoint) : Decidable (box.pointInLeftRect p) := Classical.dec _
instance (p : CGPoint) : Decidable (box.pointInRightRect p) := Classical.dec _

def getStep1 (lineUUID : String) : Bool :=
  match box.lineStates lineUUID with
  | some states => states.step1
  | none => false

def getStep2 (lineUUID : String) : Bool :=
  match box.lineStates lineUUID with
  | some states => states.step2
  | none => false

def setStep1 (lineUUID : String) (value : Bool) : ColorBox :=
  { box with lineStates := Function.update box.lineStates lineUUID <|
      match box.lineStates lineUUID with
      | some states => some { states with step1 := value }
      | none => some { step1 := value, step2 := false } }

def setStep2 (lineUUID : String) (value : Bool) : ColorBox :=
  { box with lineStates := Function.update box.lineStates lineUUID <|
      match box.lineStates lineUUID with
      | some states => some { states with step2 := value }
      | none => some { step1 := false, step2 := value } }

/-- The box without the flags it keeps for the lines. -/
def shape : ColorBox := { box with lineStates := fun _ => none }

section Flags
variable (lineUUID other : String) (value : Bool) (p : CGPoint)

@[simp] theorem getStep1_setStep1 : (box.setStep1 lineUUID value).getStep1 lineUUID = value := by
  unfold getStep1 setStep1
  cases box.lineStates lineUUID <;> simp

@[simp] theorem getStep1_setStep2 :
    (box.setStep2 lineUUID value).getStep1 lineUUID = box.getStep1 lineUUID := by
  unfold getStep1 setStep2
  cases box.lineStates lineUUID <;> simp

@[simp] theorem getStep2_setStep2 : (box.setStep2 lineUUID value).getStep2 lineUUID = value := by
  unfold getStep2 setStep2
  cases box.lineStates lineUUID <;> simp

@[simp] theorem getStep2_setStep1 :
    (box.setStep1 lineUUID value).getStep2 lineUUID = box.getStep2 lineUUID := by
  unfold getStep2 setStep1
  cases box.lineStates lineUUID <;> simp

theorem lineStates_setStep1_other (different : other ≠ lineUUID) :
    (box.setStep1 lineUUID value).lineStates other = box.lineStates other :=
  Function.update_of_ne different _ _

theorem lineStates_setStep2_other (different : other ≠ lineUUID) :
    (box.setStep2 lineUUID value).lineStates other = box.lineStates other :=
  Function.update_of_ne different _ _

@[simp] theorem shape_setStep1 : (box.setStep1 lineUUID value).shape = box.shape := rfl
@[simp] theorem shape_setStep2 : (box.setStep2 lineUUID value).shape = box.shape := rfl
@[simp] theorem pointInBody_shape : box.shape.pointInBody p ↔ box.pointInBody p := Iff.rfl
@[simp] theorem pointInLeftRect_shape : box.shape.pointInLeftRect p ↔ box.pointInLeftRect p := Iff.rfl
@[simp] theorem pointInRightRect_shape : box.shape.pointInRightRect p ↔ box.pointInRightRect p := Iff.rfl

end Flags

end ColorBox

/-- One half of `handleColorBoxesForLine`: the line is on the side of the box
that changes it to `own`, and `other` is the colour of the opposite side. The
result is the colour of the line and the box. -/
def handleSide (lineUUID : String) (own other lineColor : Color) (cBox : ColorBox) :
    Color × ColorBox :=
  let cBox :=
    if cBox.getStep1 lineUUID = false then
      if own = lineColor then cBox.setStep1 lineUUID true else cBox
    else
      if lineColor = other then cBox.setStep2 lineUUID true else cBox
  if cBox.getStep2 lineUUID = true then
    (own, (cBox.setStep1 lineUUID false).setStep2 lineUUID false)
  else (lineColor, cBox)

/-- What `handleColorBoxesForLine` does for one box. -/
def handleColorBox (lineUUID : String) (currentPoint : CGPoint) (lineColor : Color)
    (cBox : ColorBox) : Color × ColorBox :=
  if cBox.pointInBody currentPoint then
    let left :=
      if cBox.pointInLeftRect currentPoint then
        handleSide lineUUID cBox.leftColor cBox.rightColor lineColor cBox
      else (lineColor, cBox)
    if left.2.pointInRightRect currentPoint then
      handleSide lineUUID left.2.rightColor left.2.leftColor left.1 left.2
    else left
  else (lineColor, (cBox.setStep1 lineUUID false).setStep2 lineUUID false)

/-- The loop of `handleColorBoxesForLine`. -/
def handleColorBoxes (lineUUID : String) (currentPoint : CGPoint) :
    Color → List ColorBox → Color × List ColorBox
  | lineColor, [] => (lineColor, [])
  | lineColor, cBox :: rest =>
    let handled := handleColorBox lineUUID currentPoint lineColor cBox
    let others := handleColorBoxes lineUUID currentPoint handled.1 rest
    (others.1, handled.2 :: others.2)

end
end Arthius.Source
