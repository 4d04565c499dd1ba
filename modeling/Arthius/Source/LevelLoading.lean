import Arthius.Source.LevelFiles

/-!
# Loading a folder with everything that can fail

`File.getAllLevels` with the two calls of `FileManager` that may throw. The read
of a level has a handler of its own; the listing and the attributes share the
outer one, behind the loop. A file that cannot be read is one that is listed and
not on the disk. A failed force unwrap is `none`.
-/
namespace Arthius.Source.LevelLoading
open Arthius.Lib LevelFiles

/-- An error is `none`; of the attributes only the size is read. -/
structure FileManager (sets : CharacterSets) where
  contentsOfDirectory : URL sets → Option (List (FileName sets))
  attributesOfItem : URL sets → Option ℕ

section Load
variable {sets : CharacterSets} {Data : Type} (fileManager : FileManager sets) (fs : FileSystem sets)
variable (codec : LevelCodec Data) (disk : Disk sets Data) (type : LevelType)

/-- `url.pathExtension == levelExtensionForType(type: type)` -/
def HasExtension (fileName : FileName sets) : Prop :=
  (FilePath.pathExtension (dot sets) fileName).map Subtype.val = (levelExtensionForType type).toList

instance (fileName : FileName sets) : Decidable (HasExtension type fileName) :=
  inferInstanceAs (Decidable (_ = _))

/-- The inner `do` and `catch`, with the levels so far. -/
def loadLevel (fileName : FileName sets) (levels : List LevelData) : Option (List LevelData) :=
  match Disk.retrieve fs disk
      (getFolderForLevelType type ++ "/" ++ String.ofList (fileName.map Subtype.val)) with
  | none => some levels
  | some datao => (codec.decompress datao).map fun data =>
      levels ++ ((codec.makeLevel data).bind id).toList

/-- The loop; an error of `attributesOfItem` leaves it. -/
def processFiles : List (FileName sets) → List LevelData → Option (List LevelData)
  | [], levels => some levels
  | fileName :: rest, levels =>
    if HasExtension type fileName then
      match loadLevel fs codec disk type fileName levels with
      | none => none
      | some levels =>
        match fileManager.attributesOfItem (folderURL fs type ++ [fileName]) with
        | none => some levels
        | some _size => processFiles rest levels
    else processFiles rest levels

def getAllLevels : Option (List LevelData) :=
  match fileManager.contentsOfDirectory (folderURL fs type) with
  | none => some []
  | some fileNames => processFiles fileManager fs codec disk type fileNames []

end Load
end Arthius.Source.LevelLoading
