import Arthius.Source.FlatBuffersTables

/-!
# The level tables

`LevelFB2.swift`: the classes of a level, with the defaults of their empty
initialisers, `addToByteArray` and `create` of each, and `makeData` and `makeLevel`
of `Level`. A level being written is a graph: its objects are numbered, and a
`LevelData` refers to its parts by number, so that a part that occurs twice is one
object. What is read back are values. `LevelData` is therefore indexed by what
stands for a part.
-/
namespace Arthius.Source.FlatBuffers

inductive LevelTextTriggers where
  | none | start | tap | pressPlay
  deriving DecidableEq, Repr

namespace LevelTextTriggers

def rawValue : LevelTextTriggers → Int8
  | .none => 0
  | .start => 1
  | .tap => 2
  | .pressPlay => 3

/-- `init?(rawValue:)` -/
def ofRawValue (value : Int8) : Option LevelTextTriggers :=
  if value = 0 then some .none
  else if value = 1 then some .start
  else if value = 2 then some .tap
  else if value = 3 then some .pressPlay
  else Option.none

end LevelTextTriggers

structure LevelConditions where
  maxDistance : Single := 0
  maxTime : Single := 0
  deriving DecidableEq, Repr

structure LevelText where
  id : Int32 := 0
  text : Option String := none
  triggerOn : Option LevelTextTriggers := some .none
  nextText : Int32 := 0
  animateTime : Single := 0
  animateIn : Bool := false
  animateOut : Bool := false
  propFrame : Option Rect := none
  fontColor : Option Color := none
  fontSize : Int32 := 0
  deriving DecidableEq, Repr

structure LevelMetadata where
  levelUUID : Option String := none
  levelNumber : Int32 := 0
  levelName : Option String := none
  levelVersion : Option String := none
  levelAuthor : Option String := none
  levelThumbnail : Option Rect := none
  deriving DecidableEq, Repr

structure GravityWellData where
  position : Option Point := none
  mass : Single := 0
  coreDiameter : Single := 0
  areaOfEffectDiameter : Single := 0
  deriving DecidableEq, Repr

structure ColorBoxData where
  frame : Option Rect := none
  rotation : Single := 0
  leftColor : Option Color := none
  rightColor : Option Color := none
  backgroundColor : Option Color := none
  middlePropWidth : Single := 0
  deriving DecidableEq, Repr

structure LineData where
  startPosition : Option Point := none
  startVelocity : Option Vector := none
  startColor : Option Color := none
  startThickness : Single := 0
  deriving DecidableEq, Repr

structure RockData where
  position : Option Point := none
  diameter : Single := 0
  deriving DecidableEq, Repr

structure AntiGravityData where
  frame : Option Rect := none
  color : Option Color := none
  deriving DecidableEq, Repr

structure EndData where
  frame : Option Rect := none
  color : Option Color := none
  deriving DecidableEq, Repr

/-- The classes whose objects refer to no others. -/
inductive Part where
  | levelConditions | levelText | levelMetadata | gravityWellData | colorBoxData | lineData
  | rockData | antiGravityData | endData
  deriving DecidableEq, Repr

abbrev Part.Record : Part → Type
  | levelConditions => LevelConditions
  | levelText => LevelText
  | levelMetadata => LevelMetadata
  | gravityWellData => GravityWellData
  | colorBoxData => ColorBoxData
  | lineData => LineData
  | rockData => RockData
  | antiGravityData => AntiGravityData
  | endData => EndData

structure LevelData (F : Part → Type) where
  levelMetadata : Option (F .levelMetadata) := none
  levelConditions : Option (F .levelConditions) := none
  texts : List (F .levelText) := []
  propFrame : Option Rect := none
  endPoints : List (F .endData) := []
  lineData : List (F .lineData) := []
  gravityWells : List (F .gravityWellData) := []
  colorBoxData : List (F .colorBoxData) := []
  rockData : List (F .rockData) := []
  antiGravityZones : List (F .antiGravityData) := []

structure Level (F : Part → Type) where
  levelData : Option (LevelData F) := none

inductive LevelClass where
  | level | levelData | part (part : Part)
  deriving DecidableEq, Repr

section Writer
variable (canonical : String → String)

abbrev LevelBuild := Build (ObjectIdentifier LevelClass)

/-- The objects of a level, by class and number. -/
abbrev Heap := (part : Part) → ℕ → part.Record

def LevelConditions.slots (self : LevelConditions) : List (ℕ × Slot) :=
  [(1, .value self.maxTime 0), (0, .value self.maxDistance 0)]

def LevelText.slots (self : LevelText) (offset1 : Offset) : List (ℕ × Slot) :=
  [(9, .value self.fontSize 0), (8, .optional self.fontColor), (7, .optional self.propFrame),
    (6, .value self.animateOut false), (5, .value self.animateIn false),
    (4, .value self.animateTime 0), (3, .value self.nextText 0),
    (2, .value ((self.triggerOn.map LevelTextTriggers.rawValue).getD 0) 0),
    (1, .offset offset1), (0, .value self.id 0)]

def LevelMetadata.slots (self : LevelMetadata) (offset4 offset3 offset2 offset0 : Offset) :
    List (ℕ × Slot) :=
  [(5, .optional self.levelThumbnail), (4, .offset offset4), (3, .offset offset3),
    (2, .offset offset2), (1, .value self.levelNumber 0), (0, .offset offset0)]

def GravityWellData.slots (self : GravityWellData) : List (ℕ × Slot) :=
  [(3, .value self.areaOfEffectDiameter 0), (2, .value self.coreDiameter 0),
    (1, .value self.mass 0), (0, .optional self.position)]

def ColorBoxData.slots (self : ColorBoxData) : List (ℕ × Slot) :=
  [(5, .value self.middlePropWidth 0), (4, .optional self.backgroundColor),
    (3, .optional self.rightColor), (2, .optional self.leftColor), (1, .value self.rotation 0),
    (0, .optional self.frame)]

def LineData.slots (self : LineData) : List (ℕ × Slot) :=
  [(3, .value self.startThickness 0), (2, .optional self.startColor),
    (1, .optional self.startVelocity), (0, .optional self.startPosition)]

def RockData.slots (self : RockData) : List (ℕ × Slot) :=
  [(1, .value self.diameter 0), (0, .optional self.position)]

def AntiGravityData.slots (self : AntiGravityData) : List (ℕ × Slot) :=
  [(1, .optional self.color), (0, .optional self.frame)]

def EndData.slots (self : EndData) : List (ℕ × Slot) :=
  [(1, .optional self.color), (0, .optional self.frame)]

/-- `addToByteArray` of a part below its cache: the strings it holds, then its table. -/
def Part.addBody : (part : Part) → part.Record → LevelBuild Offset
  | levelConditions, self => writeTable 2 (LevelConditions.slots self)
  | levelText, self => do
    let offset1 ← insertString canonical (LevelText.text self)
    writeTable 10 (LevelText.slots self offset1)
  | levelMetadata, self => do
    let offset4 ← insertString canonical (LevelMetadata.levelAuthor self)
    let offset3 ← insertString canonical (LevelMetadata.levelVersion self)
    let offset2 ← insertString canonical (LevelMetadata.levelName self)
    let offset0 ← insertString canonical (LevelMetadata.levelUUID self)
    writeTable 6 (LevelMetadata.slots self offset4 offset3 offset2 offset0)
  | gravityWellData, self => writeTable 4 (GravityWellData.slots self)
  | colorBoxData, self => writeTable 6 (ColorBoxData.slots self)
  | lineData, self => writeTable 4 (LineData.slots self)
  | rockData, self => writeTable 2 (RockData.slots self)
  | antiGravityData, self => writeTable 2 (AntiGravityData.slots self)
  | endData, self => writeTable 2 (EndData.slots self)

def Part.addToByteArray (heap : Heap) (part : Part) (number : ℕ) : LevelBuild Offset :=
  cached ⟨.part part, number⟩ (part.addBody canonical (heap part number))

variable (heap : Heap)

def LevelData.slots {F : Part → Type} (self : LevelData F)
    (offset9 offset8 offset7 offset6 offset5 offset4 offset2 offset1 offset0 : Offset) :
    List (ℕ × Slot) :=
  [(9, .vector self.antiGravityZones offset9), (8, .vector self.rockData offset8),
    (7, .vector self.colorBoxData offset7), (6, .vector self.gravityWells offset6),
    (5, .vector self.lineData offset5), (4, .vector self.endPoints offset4),
    (3, .optional self.propFrame), (2, .vector self.texts offset2),
    (1, .object self.levelConditions offset1), (0, .object self.levelMetadata offset0)]

def LevelData.addToByteArray (number : ℕ) (self : LevelData fun _ => ℕ) : LevelBuild Offset :=
  cached ⟨.levelData, number⟩ do
    let offset9 ← insertVector (Part.antiGravityData.addToByteArray canonical heap)
      self.antiGravityZones
    let offset8 ← insertVector (Part.rockData.addToByteArray canonical heap) self.rockData
    let offset7 ← insertVector (Part.colorBoxData.addToByteArray canonical heap) self.colorBoxData
    let offset6 ← insertVector (Part.gravityWellData.addToByteArray canonical heap)
      self.gravityWells
    let offset5 ← insertVector (Part.lineData.addToByteArray canonical heap) self.lineData
    let offset4 ← insertVector (Part.endData.addToByteArray canonical heap) self.endPoints
    let offset2 ← insertVector (Part.levelText.addToByteArray canonical heap) self.texts
    let offset1 ← insertObject (Part.levelConditions.addToByteArray canonical heap)
      self.levelConditions
    let offset0 ← insertObject (Part.levelMetadata.addToByteArray canonical heap)
      self.levelMetadata
    writeTable 10
      (self.slots offset9 offset8 offset7 offset6 offset5 offset4 offset2 offset1 offset0)

end Writer

/-- A level as the program holds it: a graph of numbered objects. -/
structure LevelGraph where
  heap : Heap
  level : ℕ
  levelData : Option (ℕ × LevelData fun _ => ℕ)

namespace LevelGraph
variable (canonical : String → String) (graph : LevelGraph)

/-- `Level.addToByteArray` -/
def addToByteArray : LevelBuild Offset :=
  cached ⟨.level, graph.level⟩ do
    let offset0 ← insertObject
      (fun (number, levelData) => levelData.addToByteArray canonical graph.heap number)
      graph.levelData
    writeTable 1 [(0, .object graph.levelData offset0)]

/-- `Level.makeData(withOptions:)` -/
def makeData (options : FlatBuffersBuilderOptions) (garbage : ℕ → UInt8) :
    Except Failure (List UInt8) :=
  FlatBuffers.makeData options garbage (graph.addToByteArray canonical)

end LevelGraph

/-- What the pool of a reader of levels holds. -/
inductive LevelObject where
  | level (value : Level Part.Record)
  | levelData (value : LevelData Part.Record)
  | part (part : Part) (value : part.Record)

namespace LevelObject

/-! The casts `o as? T`. -/

def asLevel : LevelObject → Option (Level Part.Record)
  | level value => some value
  | _ => none

def asLevelData : LevelObject → Option (LevelData Part.Record)
  | levelData value => some value
  | _ => none

def asPart (p : Part) : LevelObject → Option p.Record
  | part q value => if same : q = p then some (same ▸ value) else none
  | _ => none

end LevelObject

section Reader
variable (reader : FlatBuffersReader)

/-- What `create` reads into a new part. -/
def Part.fill (objectOffset : Offset) : (part : Part) → Except ReadFailure part.Record
  | levelConditions => do
    let maxDistance ← reader.get objectOffset 0 (0 : Single)
    let maxTime ← reader.get objectOffset 1 (0 : Single)
    .ok { maxDistance, maxTime }
  | levelText => do
    let id ← reader.get objectOffset 0 (0 : Int32)
    let text ← readString reader objectOffset 1
    let rawValue ← reader.get objectOffset 2 LevelTextTriggers.none.rawValue
    let nextText ← reader.get objectOffset 3 (0 : Int32)
    let animateTime ← reader.get objectOffset 4 (0 : Single)
    let animateIn ← reader.get objectOffset 5 false
    let animateOut ← reader.get objectOffset 6 false
    let propFrame ← reader.getOptional Rect objectOffset 7
    let fontColor ← reader.getOptional Color objectOffset 8
    let fontSize ← reader.get objectOffset 9 (0 : Int32)
    .ok { id, text, triggerOn := LevelTextTriggers.ofRawValue rawValue, nextText, animateTime,
          animateIn, animateOut, propFrame, fontColor, fontSize }
  | levelMetadata => do
    let levelUUID ← readString reader objectOffset 0
    let levelNumber ← reader.get objectOffset 1 (0 : Int32)
    let levelName ← readString reader objectOffset 2
    let levelVersion ← readString reader objectOffset 3
    let levelAuthor ← readString reader objectOffset 4
    let levelThumbnail ← reader.getOptional Rect objectOffset 5
    .ok { levelUUID, levelNumber, levelName, levelVersion, levelAuthor, levelThumbnail }
  | gravityWellData => do
    let position ← reader.getOptional Point objectOffset 0
    let mass ← reader.get objectOffset 1 (0 : Single)
    let coreDiameter ← reader.get objectOffset 2 (0 : Single)
    let areaOfEffectDiameter ← reader.get objectOffset 3 (0 : Single)
    .ok { position, mass, coreDiameter, areaOfEffectDiameter }
  | colorBoxData => do
    let frame ← reader.getOptional Rect objectOffset 0
    let rotation ← reader.get objectOffset 1 (0 : Single)
    let leftColor ← reader.getOptional Color objectOffset 2
    let rightColor ← reader.getOptional Color objectOffset 3
    let backgroundColor ← reader.getOptional Color objectOffset 4
    let middlePropWidth ← reader.get objectOffset 5 (0 : Single)
    .ok { frame, rotation, leftColor, rightColor, backgroundColor, middlePropWidth }
  | lineData => do
    let startPosition ← reader.getOptional Point objectOffset 0
    let startVelocity ← reader.getOptional Vector objectOffset 1
    let startColor ← reader.getOptional Color objectOffset 2
    let startThickness ← reader.get objectOffset 3 (0 : Single)
    .ok { startPosition, startVelocity, startColor, startThickness }
  | rockData => do
    let position ← reader.getOptional Point objectOffset 0
    let diameter ← reader.get objectOffset 1 (0 : Single)
    .ok { position, diameter }
  | antiGravityData => do
    let frame ← reader.getOptional Rect objectOffset 0
    let color ← reader.getOptional Color objectOffset 1
    .ok { frame, color }
  | endData => do
    let frame ← reader.getOptional Rect objectOffset 0
    let color ← reader.getOptional Color objectOffset 1
    .ok { frame, color }

/-- The empty initialiser of a part. -/
def Part.blank : (part : Part) → part.Record
  | levelConditions => ({} : LevelConditions)
  | levelText => ({} : LevelText)
  | levelMetadata => ({} : LevelMetadata)
  | gravityWellData => ({} : GravityWellData)
  | colorBoxData => ({} : ColorBoxData)
  | lineData => ({} : LineData)
  | rockData => ({} : RockData)
  | antiGravityData => ({} : AntiGravityData)
  | endData => ({} : EndData)

def Part.create (part : Part) : Option Offset → Read LevelObject (Option part.Record) :=
  FlatBuffers.create (.part part) (LevelObject.asPart part) part.blank fun objectOffset =>
    liftRead (part.fill reader objectOffset)

/-- What `create` reads into a new `LevelData`. -/
def LevelData.fill (objectOffset : Offset) : Read LevelObject (LevelData Part.Record) := do
  let levelMetadata ← readObject reader (Part.levelMetadata.create reader) objectOffset 0
  let levelConditions ← readObject reader (Part.levelConditions.create reader) objectOffset 1
  let texts ← readVector reader (Part.levelText.create reader) objectOffset 2
  let propFrame ← liftRead (reader.getOptional Rect objectOffset 3)
  let endPoints ← readVector reader (Part.endData.create reader) objectOffset 4
  let lineData ← readVector reader (Part.lineData.create reader) objectOffset 5
  let gravityWells ← readVector reader (Part.gravityWellData.create reader) objectOffset 6
  let colorBoxData ← readVector reader (Part.colorBoxData.create reader) objectOffset 7
  let rockData ← readVector reader (Part.rockData.create reader) objectOffset 8
  let antiGravityZones ← readVector reader (Part.antiGravityData.create reader) objectOffset 9
  pure { levelMetadata, levelConditions, texts, propFrame, endPoints, lineData, gravityWells,
         colorBoxData, rockData, antiGravityZones }

def LevelData.create : Option Offset → Read LevelObject (Option (LevelData Part.Record)) :=
  FlatBuffers.create .levelData LevelObject.asLevelData {} (LevelData.fill reader)

/-- What `create` reads into a new `Level`. -/
def Level.fill (objectOffset : Offset) : Read LevelObject (Level Part.Record) := do
  let levelData ← readObject reader (LevelData.create reader) objectOffset 0
  pure { levelData }

def Level.create : Option Offset → Read LevelObject (Option (Level Part.Record)) :=
  FlatBuffers.create .level LevelObject.asLevel {} (Level.fill reader)

end Reader

/-- `Level.makeLevel(data:cache:)` -/
def makeLevel (data : List UInt8) (cache : FlatBuffersReaderCache LevelObject) :
    Except ReadFailure (Option (Level Part.Record)) :=
  let reader : FlatBuffersReader := ⟨data⟩
  let read : Read LevelObject (Option (Level Part.Record)) := do
    let objectOffset ← liftRead reader.rootObjectOffset
    Level.create reader objectOffset
  match read cache with
  | .ok level _ => .ok level
  | .error failure _ => .error failure

end Arthius.Source.FlatBuffers
