import Arthius.Source.FlatBuffersTables

/-!
# The progress tables

`ProgressFB.swift`: the classes of the stored progress, `addToByteArray` and `create` of
each, and `makeData` and `makeProgress` of `Progress`. As with levels, the entries
being written are numbered objects and those read back are values.
-/
namespace Arthius.Source.FlatBuffers

structure LevelProgressData where
  uuid : Option String := none
  completed : Bool := false
  locked : Bool := false
  stars : Int32 := 0
  time : Single := 0
  distance : Single := 0
  deriving DecidableEq, Repr

structure Progress where
  progressData : List LevelProgressData := []
  deriving DecidableEq, Repr

inductive ProgressClass where
  | progress | levelProgressData
  deriving DecidableEq, Repr

abbrev ProgressBuild := Build (ObjectIdentifier ProgressClass)

def LevelProgressData.slots (self : LevelProgressData) (offset0 : Offset) : List (ℕ × Slot) :=
  [(5, .value self.distance 0), (4, .value self.time 0), (3, .value self.stars 0),
    (2, .value self.locked false), (1, .value self.completed false), (0, .offset offset0)]

/-- The progress as the program holds it: numbered entries, in a numbered object. -/
structure ProgressGraph where
  entry : ℕ → LevelProgressData
  progress : ℕ
  progressData : List ℕ

namespace ProgressGraph
variable (canonical : String → String) (graph : ProgressGraph)

/-- `LevelProgressData.addToByteArray` -/
def addEntry (number : ℕ) : ProgressBuild Offset :=
  cached ⟨.levelProgressData, number⟩ do
    let offset0 ← insertString canonical (graph.entry number).uuid
    writeTable 6 ((graph.entry number).slots offset0)

/-- `Progress.addToByteArray` -/
def addToByteArray : ProgressBuild Offset :=
  cached ⟨.progress, graph.progress⟩ do
    let offset0 ← insertVector (graph.addEntry canonical) graph.progressData
    writeTable 1 [(0, .vector graph.progressData offset0)]

/-- `Progress.makeData(withOptions:)` -/
def makeData (options : FlatBuffersBuilderOptions) (garbage : ℕ → UInt8) :
    Except Failure (List UInt8) :=
  FlatBuffers.makeData options garbage (graph.addToByteArray canonical)

end ProgressGraph

/-- What the pool of a reader of progress holds. -/
inductive ProgressObject where
  | progress (value : Progress)
  | levelProgressData (value : LevelProgressData)

namespace ProgressObject

def asProgress : ProgressObject → Option Progress
  | progress value => some value
  | _ => none

def asLevelProgressData : ProgressObject → Option LevelProgressData
  | levelProgressData value => some value
  | _ => none

end ProgressObject

section Reader
variable (reader : FlatBuffersReader)

def LevelProgressData.fill (objectOffset : Offset) : Except ReadFailure LevelProgressData := do
  let uuid ← readString reader objectOffset 0
  let completed ← reader.get objectOffset 1 false
  let locked ← reader.get objectOffset 2 false
  let stars ← reader.get objectOffset 3 (0 : Int32)
  let time ← reader.get objectOffset 4 (0 : Single)
  let distance ← reader.get objectOffset 5 (0 : Single)
  .ok { uuid, completed, locked, stars, time, distance }

def LevelProgressData.create : Option Offset → Read ProgressObject (Option LevelProgressData) :=
  FlatBuffers.create .levelProgressData ProgressObject.asLevelProgressData {} fun objectOffset =>
    liftRead (LevelProgressData.fill reader objectOffset)

def Progress.fill (objectOffset : Offset) : Read ProgressObject Progress := do
  let progressData ← readVector reader (LevelProgressData.create reader) objectOffset 0
  pure { progressData }

def Progress.create : Option Offset → Read ProgressObject (Option Progress) :=
  FlatBuffers.create .progress ProgressObject.asProgress {} (Progress.fill reader)

end Reader

/-- `Progress.makeProgress(data:cache:)` -/
def makeProgress (data : List UInt8) (cache : FlatBuffersReaderCache ProgressObject) :
    Except ReadFailure (Option Progress) :=
  let reader : FlatBuffersReader := ⟨data⟩
  let read : Read ProgressObject (Option Progress) := do
    let objectOffset ← liftRead reader.rootObjectOffset
    Progress.create reader objectOffset
  match read cache with
  | .ok progress _ => .ok progress
  | .error failure _ => .error failure

end Arthius.Source.FlatBuffers
