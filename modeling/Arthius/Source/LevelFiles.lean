import Arthius.Lib.KeyedList
import Arthius.Lib.FilePath
import Arthius.Source.LevelData

/-!
# Level files

`File.saveLevel` and `File.getAllLevels` of `File.swift`, over the `Disk` library
and its `getValidFilePath`. What iOS supplies is a parameter: the character sets
that the sanitiser strips, the documents directory, and the paths at which a file
can be created. FlatBuffers and LZMA are a `LevelCodec`. Characters are Unicode
scalars; a file name consists of characters that the sanitiser leaves alone, since
every file of the app is written by `Disk` or shipped with it. Subdirectories are
created on demand and are not part of the model. A failed force unwrap is `none`.
-/
namespace Arthius.Source.LevelFiles
open Arthius.Lib

inductive LevelType where
  | campaign | campaignSave | publicMade | userMade | userSave
  deriving DecidableEq, Repr

def campaignLevelFolder : String := "CampaignLevels"
def campaignSavesFolder : String := "CampaignSaves"
def publicLevelsFolder : String := "PublicLevels"
def userLevelsFolder : String := "UserLevels"
def userSavesFolder : String := "UserSave"
def progressFile : String := "progress.gpg"

def levelExtensionForType : LevelType → String
  | .campaign => "cgws"
  | _ => "gws"

def getFolderForLevelType : LevelType → String
  | .campaign => campaignLevelFolder
  | .campaignSave => campaignSavesFolder
  | .publicMade => publicLevelsFolder
  | .userMade => userLevelsFolder
  | .userSave => userSavesFolder

/-- The character sets of Foundation; none has a printable ASCII character. -/
structure CharacterSets where
  newlines : Char → Bool
  illegalCharacters : Char → Bool
  controlCharacters : Char → Bool
  printable : ∀ c : Char, 32 ≤ c.toNat → c.toNat < 127 →
    newlines c = false ∧ illegalCharacters c = false ∧ controlCharacters c = false

/-- `invalidCharacters` of `getValidFilePath`. -/
def CharacterSets.invalid (sets : CharacterSets) (c : Char) : Bool :=
  c = ':' || sets.newlines c || sets.illegalCharacters c || sets.controlCharacters c

theorem CharacterSets.valid_of_printable (sets : CharacterSets) {c : Char} (low : 32 ≤ c.toNat)
    (high : c.toNat < 127) (colon : c ≠ ':') : sets.invalid c = false := by
  have absent := sets.printable c low high
  simp [invalid, colon, absent]

/-- A character that the sanitiser leaves alone. -/
abbrev FileChar (sets : CharacterSets) := {c : Char // sets.invalid c = false}

abbrev FileName (sets : CharacterSets) := List (FileChar sets)

abbrev URL (sets : CharacterSets) := List (FileName sets)

section Paths
variable (sets : CharacterSets)

def slash : FileChar sets := ⟨'/', sets.valid_of_printable (by decide) (by decide) (by decide)⟩
def dot : FileChar sets := ⟨'.', sets.valid_of_printable (by decide) (by decide) (by decide)⟩

/-- `components(separatedBy: invalidCharacters).joined(separator: "")` -/
def withoutInvalid (text : List Char) : FileName sets :=
  text.filterMap fun c => if valid : sets.invalid c = false then some ⟨c, valid⟩ else none

def removeSlashesAtBeginning : FileName sets → FileName sets
  | [] => []
  | c :: rest => if c = slash sets then removeSlashesAtBeginning rest else c :: rest

def getValidFilePath (originalString : String) : Option (FileName sets) :=
  let validFileName := removeSlashesAtBeginning sets (withoutInvalid sets originalString.toList)
  if validFileName.length > 0 ∧ validFileName ≠ [dot sets] then some validFileName else none

end Paths

/-- The documents directory, and where the file system can hold a file (its names
may be too long, or a directory may be in the way). -/
structure FileSystem (sets : CharacterSets) where
  documents : URL sets
  accepts : URL sets → Bool
  proper : ∀ name ∈ documents, slash sets ∉ name

/-- The files below the root, each at one path; no name holds a slash. -/
structure Disk (sets : CharacterSets) (Data : Type) where
  files : List (URL sets × Data)
  distinct : (files.map Prod.fst).Nodup
  proper : ∀ file ∈ files, ∀ name ∈ file.1, slash sets ∉ name

namespace Disk
variable {sets : CharacterSets} {Data : Type}

def empty : Disk sets Data := ⟨[], List.nodup_nil, by simp⟩

def read (disk : Disk sets Data) (url : URL sets) : Option Data :=
  (KeyedList.get Prod.fst url disk.files).map Prod.snd

def write (disk : Disk sets Data) (url : URL sets) (proper : ∀ name ∈ url, slash sets ∉ name)
    (data : Data) : Disk sets Data where
  files := KeyedList.put Prod.fst (url, data) disk.files
  distinct := KeyedList.nodup_put Prod.fst (url, data) disk.distinct
  proper := fun file member => by
    rcases KeyedList.mem_of_mem_put Prod.fst member with rfl | old
    · exact proper
    · exact disk.proper file old

variable (fs : FileSystem sets)

def createURL (path : String) : Option (URL sets) :=
  (getValidFilePath sets path).map (FilePath.resolve (slash sets) (dot sets) fs.documents)

theorem createURL_proper {path : String} {url : URL sets} (created : createURL fs path = some url) :
    ∀ name ∈ url, slash sets ∉ name := by
  obtain ⟨text, _, rfl⟩ := Option.map_eq_some_iff.mp created
  exact FilePath.slash_notMem_of_mem_resolve _ _ fs.proper text

/-- `Disk.save(data:to:as:)`; an error is `none`. -/
def save (disk : Disk sets Data) (data : Data) (path : String) : Option (Disk sets Data) :=
  match created : createURL fs path with
  | some url =>
    if fs.accepts url then some (disk.write url (createURL_proper fs created) data) else none
  | none => none

/-- `Disk.retrieve(_:from:as:)`; an error is `none`. -/
def retrieve (disk : Disk sets Data) (path : String) : Option Data := do
  let url ← createURL fs path
  disk.read url

end Disk

/-- `makeData` and `makeLevel` of the `Level` table, which holds an optional
`LevelData`, and LZMA. Every level can be written. -/
structure LevelCodec (Data : Type) where
  makeData : LevelData → Option Data
  compress : Data → Option Data
  decompress : Data → Option Data
  makeLevel : Data → Option (Option LevelData)
  encodes : ∀ level, ∃ data compressed, makeData level = some data ∧ compress data = some compressed

/-- What is written reads back as the level it was written from. -/
def LevelCodec.Lossless {Data : Type} (codec : LevelCodec Data) : Prop :=
  ∀ level data compressed, codec.makeData level = some data → codec.compress data = some compressed →
    codec.decompress compressed = some data ∧ codec.makeLevel data = some (some level)

section Files
variable {sets : CharacterSets} {Data : Type} (fs : FileSystem sets) (codec : LevelCodec Data)

/-- The nested record that `saveLevel` builds by hand. -/
noncomputable def newLevelData (l : LevelData) (lm : LevelMetadata) : LevelData where
  levelMetadata := some ⟨lm.levelUUID, lm.levelNumber, lm.levelName, lm.levelVersion,
    lm.levelAuthor, lm.levelThumbnail⟩
  levelConditions := some ⟨200, 5⟩
  texts := l.texts
  propFrame := l.propFrame
  endPoints := l.endPoints
  lineData := l.lineData
  gravityWells := l.gravityWells
  colorBoxData := l.colorBoxData
  rockData := l.rockData
  antiGravityZones := l.antiGravityZones

/-- The path in front of the UUID, and the one `saveLevel` interpolates. -/
def levelPath (levelUUID : String) (type : LevelType) : String :=
  getFolderForLevelType type ++ "/" ++ levelUUID ++ "." ++ levelExtensionForType type

/-- A level without metadata, without a UUID or that does not compress traps; an
error of `Disk.save` is printed. -/
noncomputable def saveLevel (disk : Disk sets Data) (level : Option LevelData) (levelType : LevelType) :
    Option (Disk sets Data) := do
  let l ← level
  let lm ← l.levelMetadata
  let data ← (codec.makeData (newLevelData l lm)).bind codec.compress
  let levelUUID ← lm.levelUUID
  some ((Disk.save fs disk data (levelPath levelUUID levelType)).getD disk)

/-- One round of the loop: the levels it appends. A file that cannot be retrieved
or is no level is skipped, one that does not decompress traps. -/
def loadFile (disk : Disk sets Data) (type : LevelType) (fileName : FileName sets) :
    Option (List LevelData) :=
  if (FilePath.pathExtension (dot sets) fileName).map Subtype.val = (levelExtensionForType type).toList then
    match Disk.retrieve fs disk
        (getFolderForLevelType type ++ "/" ++ String.ofList (fileName.map Subtype.val)) with
    | none => some []
    | some datao => (codec.decompress datao).map fun data =>
        ((codec.makeLevel data).bind id).toList
  else some []

/-- `getAllLevels`, over the names `contentsOfDirectory` returned. -/
def getAllLevels (disk : Disk sets Data) (type : LevelType) :
    List (FileName sets) → Option (List LevelData)
  | [] => some []
  | fileName :: rest => do
    let loaded ← loadFile fs codec disk type fileName
    let levels ← getAllLevels disk type rest
    some (loaded ++ levels)

/-- The names of the files directly in a directory. -/
def Disk.contents (disk : Disk sets Data) (dir : URL sets) : List (FileName sets) :=
  disk.files.filterMap fun file => if file.1.dropLast = dir then file.1.getLast? else none

/-- The folder of a level type. -/
def folderURL (type : LevelType) : URL sets :=
  fs.documents ++ [withoutInvalid sets (getFolderForLevelType type).toList]

/-- What `contentsOfDirectory` may return for the folder: its files, in any order. -/
def Listing (disk : Disk sets Data) (type : LevelType) (fileNames : List (FileName sets)) : Prop :=
  fileNames.Perm (disk.contents (folderURL fs type))

end Files
end Arthius.Source.LevelFiles
