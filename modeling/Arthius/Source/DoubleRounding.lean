import Arthius.Source.PredictedPaths

/-!
# Rounded operations

The geometry of a pressed well and the turn of a line that nothing pulls, with
each operation of `CGFloat` rounded by `fl` and each of `Float` by `single`. With
`double` and `float32` they are what the code computes, with the identity they are
the steps of the model in exact arithmetic.
-/
namespace Arthius.Source

noncomputable section

variable (fl single : CGFloat → CGFloat)

/-- The centre of the frame that `GravityWell.updateSize` sets. -/
def roundedCenter (corePoint : CGPoint) (areaOfEffectDiameter : CGFloat) : CGPoint :=
  let half := fl (areaOfEffectDiameter / 2)
  let origin : CGPoint := ⟨fl (corePoint.x - half), fl (corePoint.y - half)⟩
  ⟨fl (origin.x + half), fl (origin.y + half)⟩

structure PressedWell where
  corePoint : CGPoint
  center : CGPoint
  coreDiameter : CGFloat
  areaOfEffectDiameter : CGFloat

/-- `handleTap`: a long press that began at one point and is drawn out far enough
to another. The distance is taken in `Float`. -/
def PressedWell.drawn (longTapInital p : CGPoint) : PressedWell :=
  let xDist := fl (p.x - longTapInital.x)
  let yDist := fl (p.y - longTapInital.y)
  let d := single (Real.sqrt (single (fl (fl (xDist * xDist) + fl (yDist * yDist)))))
  let areaOfEffectDiameter := fl (d * 2)
  { corePoint := longTapInital
    center := roundedCenter fl longTapInital areaOfEffectDiameter
    coreDiameter := fl (d / 2)
    areaOfEffectDiameter := areaOfEffectDiameter }

/-- `CGVector.length` -/
def roundedLength (v : CGVector) : CGFloat :=
  fl (Real.sqrt (fl (fl (v.dx * v.dx) + fl (v.dy * v.dy))))

/-- What a turn of `getPredictedPaths` changes of a line, where no well is. -/
structure FreeLine where
  currentPoint : CGPoint
  lineVelocity : CGVector
  levelCountDistance : CGFloat

def FreeLine.start (line : Line) : FreeLine := ⟨line.startPosition, line.startVelocity, 0⟩

def FreeLine.turn (line : FreeLine) : FreeLine :=
  let dV : CGVector := ⟨fl (0 / Line.lineMass), fl (0 / Line.lineMass)⟩
  let deltaVel : CGVector := ⟨fl (line.lineVelocity.dx + dV.dx), fl (line.lineVelocity.dy + dV.dy)⟩
  { currentPoint := ⟨fl (line.currentPoint.x + deltaVel.dx), fl (line.currentPoint.y + deltaVel.dy)⟩
    lineVelocity := deltaVel
    levelCountDistance := fl (line.levelCountDistance + roundedLength fl deltaVel) }

end
end Arthius.Source
