import Arthius.Source.Geometry

/-!
# Level data

The FlatBuffers classes of `LevelFB2.swift`, with the defaults of their empty
initialisers. The components of a colour are only stored and compared, so they
are kept by their exact values as rationals; everything else follows
`Float32`. Where the object identity of a class matters (the editor), the model
refers to its instances by reference; elsewhere they are values.
-/
namespace Arthius.Source

structure Color where
  r : ℚ
  g : ℚ
  b : ℚ
  a : ℚ
  deriving DecidableEq, Repr

@[ext] structure Point where
  x : Float32
  y : Float32

@[ext] structure Vector where
  dx : Float32
  dy : Float32

@[ext] structure Rect where
  x : Float32
  y : Float32
  width : Float32
  height : Float32

def Point.cgPoint (p : Point) : CGPoint := ⟨p.x, p.y⟩
def Vector.cgVector (v : Vector) : CGVector := ⟨v.dx, v.dy⟩
def Rect.cgRect (r : Rect) : CGRect := ⟨⟨r.x, r.y⟩, ⟨r.width, r.height⟩⟩
def CGPoint.point (p : CGPoint) : Point := ⟨p.x, p.y⟩
noncomputable def CGVector.vector (v : CGVector) : Vector := ⟨float32 v.dx, float32 v.dy⟩
noncomputable def CGRect.rect (r : CGRect) : Rect := ⟨r.origin.x, r.origin.y, r.width, r.height⟩

inductive LevelTextTriggers where
  | none | start | tap | pressPlay
  deriving DecidableEq, Repr

noncomputable section

structure LevelConditions where
  maxDistance : Float32 := 0
  maxTime : Float32 := 0

structure LevelText where
  id : Int := 0
  text : Option String := none
  triggerOn : Option LevelTextTriggers := some .none
  nextText : Int := 0
  animateTime : Float32 := 0
  animateIn : Bool := false
  animateOut : Bool := false
  propFrame : Option Rect := none
  fontColor : Option Color := none
  fontSize : Int := 0

structure LevelMetadata where
  levelUUID : Option String := none
  levelNumber : Int := 0
  levelName : Option String := none
  levelVersion : Option String := none
  levelAuthor : Option String := none
  levelThumbnail : Option Rect := none

structure GravityWellData where
  position : Option Point := none
  mass : Float32 := 0
  coreDiameter : Float32 := 0
  areaOfEffectDiameter : Float32 := 0

structure ColorBoxData where
  frame : Option Rect := none
  rotation : Float32 := 0
  leftColor : Option Color := none
  rightColor : Option Color := none
  backgroundColor : Option Color := none
  middlePropWidth : Float32 := 0

structure LineData where
  startPosition : Option Point := none
  startVelocity : Option Vector := none
  startColor : Option Color := none
  startThickness : Float32 := 0

structure RockData where
  position : Option Point := none
  diameter : Float32 := 0

structure AntiGravityData where
  frame : Option Rect := none
  color : Option Color := none

structure EndData where
  frame : Option Rect := none
  color : Option Color := none

structure LevelData where
  levelMetadata : Option LevelMetadata := none
  levelConditions : Option LevelConditions := none
  texts : List LevelText := []
  propFrame : Option Rect := none
  endPoints : List EndData := []
  lineData : List LineData := []
  gravityWells : List GravityWellData := []
  colorBoxData : List ColorBoxData := []
  rockData : List RockData := []
  antiGravityZones : List AntiGravityData := []

end
end Arthius.Source
