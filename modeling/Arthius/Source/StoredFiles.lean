import Arthius.Source.DataCompression
import Arthius.Source.LevelFiles
import Arthius.Source.LevelFB
import Arthius.Source.ProgressFB

/-!
# The bytes of the files

The saves and loads of `File.swift` down to the bytes on the disk: the tables of the
binary format, compressed with LZMA. A level in memory is a graph of objects, as in
`LevelFB`. `none` is a trap, a failed force unwrap, or a lack of fuel.
-/
namespace Arthius.Source.StoredFiles
open Arthius.Lib LevelFiles FlatBuffers DataCompression

/-- What the app runs on: the file system, the compression library and how strings compare. -/
structure Platform (sets : CharacterSets) where
  fs : FileSystem sets
  library : CompressionLibrary
  canonical : String → String

abbrev Files (sets : CharacterSets) := Disk sets (List UInt8)

/-- `try?` -/
def attempt {α : Type} : Except Failure α → Option (Option α)
  | .ok value => some (some value)
  | .error (.thrown _) => some none
  | .error .trap => none

section Level
variable (heap : Heap) (l : FlatBuffers.LevelData fun _ => ℕ) (lm : FlatBuffers.LevelMetadata)

/-- The objects of the record that `saveLevel` puts together: metadata and conditions of its
own, the other parts those of the level. -/
def newHeap : Heap
  | .levelMetadata => fun _ =>
    ({ levelUUID := lm.levelUUID, levelNumber := lm.levelNumber, levelName := lm.levelName,
       levelVersion := lm.levelVersion, levelAuthor := lm.levelAuthor,
       levelThumbnail := lm.levelThumbnail } : FlatBuffers.LevelMetadata)
  | .levelConditions => fun _ =>
    ({ maxDistance := ⟨0x43480000⟩, maxTime := ⟨0x40a00000⟩ } : FlatBuffers.LevelConditions)
  | part => heap part

def newLevelData : FlatBuffers.LevelData fun _ => ℕ where
  levelMetadata := some 0
  levelConditions := some 0
  texts := l.texts
  propFrame := l.propFrame
  endPoints := l.endPoints
  lineData := l.lineData
  gravityWells := l.gravityWells
  colorBoxData := l.colorBoxData
  rockData := l.rockData
  antiGravityZones := l.antiGravityZones

/-- `Level(levelData: newLevelData)` -/
def newLevel : LevelGraph := ⟨newHeap heap lm, 0, some (0, newLevelData l)⟩

end Level

section Files
variable {sets : CharacterSets} (app : Platform sets) (fuel : ℕ)

/-- `compress(withAlgorithm: .LZMA)`, unwrapped by force. -/
def compressed (data : List UInt8) : Option (List UInt8) :=
  (compress app.library data fuel .lzma).join

def decompressed (data : List UInt8) : Option (List UInt8) :=
  (decompress app.library data fuel .lzma).join

/-- The bytes found in memory are those of `garbage`. -/
def saveLevel (garbage : ℕ → UInt8) (disk : Files sets) (heap : Heap)
    (level : Option (FlatBuffers.LevelData fun _ => ℕ)) (levelType : LevelType) :
    Option (Files sets) := do
  let l ← level
  let number ← l.levelMetadata
  let lm : FlatBuffers.LevelMetadata := heap .levelMetadata number
  let datao ← attempt ((newLevel heap l lm).makeData app.canonical {} garbage)
  let data ← datao.bind (compressed app fuel)
  let levelUUID ← lm.levelUUID
  some ((Disk.save app.fs disk data (levelPath levelUUID levelType)).getD disk)

/-- A round of the loop of `getAllLevels`. -/
def loadFile (disk : Files sets) (type : LevelType) (fileName : FileName sets) :
    Option (List (FlatBuffers.LevelData Part.Record)) :=
  if (FilePath.pathExtension (dot sets) fileName).map Subtype.val = (levelExtensionForType type).toList then
    match Disk.retrieve app.fs disk
        (getFolderForLevelType type ++ "/" ++ String.ofList (fileName.map Subtype.val)) with
    | none => some []
    | some datao => do
      let data ← decompressed app fuel datao
      match makeLevel data (some []) with
      | .ok level => some (level.bind FlatBuffers.Level.levelData).toList
      | .error _ => none
  else some []

def saveProgress (garbage : ℕ → UInt8) (disk : Files sets) (progress : ProgressGraph) :
    Option (Files sets) :=
  match progress.makeData app.canonical {} garbage with
  | .ok data0 => do
    let data ← compressed app fuel data0
    some ((Disk.save app.fs disk data progressFile).getD disk)
  | .error (.thrown _) => some disk
  | .error .trap => none

/-- What a first start begins with: the first level of the campaign, unlocked. -/
def startingProgress (allLevels : List (FlatBuffers.LevelData Part.Record)) :
    FlatBuffers.Progress where
  progressData :=
    match allLevels with
    | [] => []
    | first :: _ => [{ uuid := first.levelMetadata.bind FlatBuffers.LevelMetadata.levelUUID }]

def loadProgress (allLevels : List (FlatBuffers.LevelData Part.Record)) (disk : Files sets) :
    Option FlatBuffers.Progress :=
  match Disk.retrieve app.fs disk progressFile with
  | none => some (startingProgress allLevels)
  | some cp => do
    let data ← decompressed app fuel cp
    match makeProgress data (some []) with
    | .ok progress => progress
    | .error _ => none

/-- A save that the app makes. -/
inductive Save where
  | level (garbage : ℕ → UInt8) (heap : Heap) (l : FlatBuffers.LevelData fun _ => ℕ)
    (type : LevelType)
  | progress (garbage : ℕ → UInt8) (graph : ProgressGraph)

def Save.run (disk : Files sets) : Save → Option (Files sets)
  | .level garbage heap l type => saveLevel app fuel garbage disk heap (some l) type
  | .progress garbage graph => saveProgress app fuel garbage disk graph

end Files
end Arthius.Source.StoredFiles
