import Arthius.Source.DownloadCounter
import Arthius.Source.PublishLevel
import Arthius.Source.LevelFiles

/-!
# The list of global levels

`globalLevelSelect_getLevels` and `getLevelFile` of `ViewController.swift`, from
the moment the query has answered, and `updateLevels` of `GLSLevelSelector.swift`.
For each document a file callback is outstanding, and after it a count callback;
the schedule picks which one runs next. What storage and the counter answer
belongs to the document: an error, or any bytes and any shards. A failed force
unwrap stops the process with everything done before it in place.
-/
namespace Arthius.Source.GlobalLevels
open Arthius.Lib Arthius.Source.LevelFiles

/-- A document of the query, with the answers to `getData` for its file and to
the query for its shards; an error is `none`. -/
structure Answer (Data : Type) where
  document : PublishLevel.LevelDocument
  datao : Option Data
  shards : Option (List DownloadCounter.Shard)

inductive Callback where
  | file (i : Nat)
  | count (i : Nat)
  deriving DecidableEq, Repr

/-- The variables the callbacks share, the disk, and the calls of `completion`. -/
structure State (sets : CharacterSets) (Data : Type) where
  lData : List LevelData
  downloadData : List (String × Nat)
  num : Nat
  disk : Disk sets Data
  outstanding : List Callback
  completions : List (List LevelData × List (String × Nat))
  alive : Bool

/-- What the callback of `getData` comes to: an error is printed, bytes are
decompressed and decoded with force unwraps, and the level is passed on. -/
inductive Download where
  | failed
  | trapped
  | completed (levelData : LevelData)

section
variable {sets : CharacterSets} {Data : Type} (fs : FileSystem sets) (codec : LevelCodec Data)

def getLevelFile : Option Data → Download
  | none => .failed
  | some datao => match (codec.decompress datao).bind codec.makeLevel with
    | some (some levelData) => .completed levelData
    | _ => .trapped

/-- The query has answered: every file is asked for. -/
def globalLevelSelect_getLevels (disk : Disk sets Data) (answers : List (Answer Data)) :
    State sets Data where
  lData := []
  downloadData := []
  num := 0
  disk := disk
  outstanding := (List.range answers.length).map .file
  completions := []
  alive := true

/-- A level that arrives is saved, appended, and its downloads are asked for. -/
noncomputable def fileCallback (s : State sets Data) (answer : Answer Data) (i : Nat) : State sets Data :=
  match getLevelFile codec answer.datao with
  | .failed => s
  | .trapped => { s with alive := false }
  | .completed levelData => match saveLevel fs codec s.disk (some levelData) .publicMade with
    | none => { s with alive := false }
    | some disk =>
      { s with
        disk := disk
        lData := s.lData ++ [levelData]
        outstanding := s.outstanding ++ [.count i] }

/-- The downloads are entered, and the last document to get here completes. -/
def countCallback (s : State sets Data) (answers : List (Answer Data)) (answer : Answer Data) :
    State sets Data :=
  let downloadData := KeyedList.put Prod.fst
    (answer.document.levelID, DownloadCounter.getCount answer.shards) s.downloadData
  let num := s.num + 1
  { s with
    downloadData := downloadData
    num := num
    completions := if answers.length = num then s.completions ++ [(s.lData, downloadData)]
      else s.completions }

/-- Event `j` runs the `j`-th outstanding callback. -/
noncomputable def step (answers : List (Answer Data)) (s : State sets Data) (j : Nat) :
    Option (State sets Data) := do
  let callback ← s.outstanding[j]?
  let s' := { s with outstanding := s.outstanding.eraseIdx j }
  if s.alive then
    match callback with
    | .file i => (answers[i]?).map fun answer => fileCallback fs codec s' answer i
    | .count i => (answers[i]?).map fun answer => countCallback s' answers answer
  else none

noncomputable def system (answers : List (Answer Data)) : Machine (State sets Data) Nat :=
  ⟨step fs codec answers⟩

end

/-- `downloads[(level.levelMetadata?.levelUUID)!]!` -/
def downloadsOf (downloads : List (String × Nat)) (level : LevelData) : Option Nat := do
  let lm ← level.levelMetadata
  let levelUUID ← lm.levelUUID
  let entry ← KeyedList.get Prod.fst levelUUID downloads
  some entry.2

/-- `GLSSelectTile.init`, which unwraps the frame of the level, for its `LevelView`,
and its thumbnail. -/
def newTile (level : LevelData) (downloads : Nat) : Option (LevelData × Nat) := do
  let _ ← level.propFrame
  let lm ← level.levelMetadata
  let _ ← lm.levelThumbnail
  some (level, downloads)

/-- `GLSLevelSelector.updateLevels`: a tile for each level, with its downloads. -/
def updateLevels (downloads : List (String × Nat)) : List LevelData → Option (List (LevelData × Nat))
  | [] => some []
  | level :: rest => do
    let count ← downloadsOf downloads level
    let tile ← newTile level count
    let tiles ← updateLevels downloads rest
    some (tile :: tiles)

end Arthius.Source.GlobalLevels
