import Arthius.Source.LevelFiles

/-!
# Where a level is stored

The path that `saveLevel` interpolates, after the sanitiser and the file system
have read it: the folder of the type, then wherever the directories in the
sanitised UUID lead from there, and a name made of what follows the last slash.
-/
namespace Arthius.Guarantees.LevelPaths
open Arthius.Lib Arthius.Source Arthius.Source.LevelFiles

/-- Letters, digits and hyphens: a well-formed UUID, and every folder and
extension of the app. -/
def Word (text : List Char) : Prop := ∀ c ∈ text, c.isAlphanum ∨ c = '-'

instance (text : List Char) : Decidable (Word text) :=
  List.decidableBAll (fun c : Char => c.isAlphanum ∨ c = '-') text

theorem Word.bounds {text : List Char} (word : Word text) {c : Char} (member : c ∈ text) :
    32 ≤ c.toNat ∧ c.toNat < 127 ∧ c ≠ ':' ∧ c ≠ '/' ∧ c ≠ '.' := by
  have apart : ∀ d : Char, c.toNat ≠ d.toNat → c ≠ d := fun d differs same => differs (same ▸ rfl)
  have range : (48 ≤ c.toNat ∧ c.toNat ≤ 57) ∨ (65 ≤ c.toNat ∧ c.toNat ≤ 90) ∨
      (97 ≤ c.toNat ∧ c.toNat ≤ 122) ∨ c.toNat = 45 := by
    rcases word c member with alnum | rfl
    · delta Char.isAlphanum Char.isAlpha Char.isUpper Char.isLower Char.isDigit at alnum
      simp only [Bool.or_eq_true, Bool.and_eq_true, decide_eq_true_eq, ge_iff_le,
        UInt32.le_iff_toNat_le] at alnum
      simp at alnum
      omega
    · decide
  refine ⟨by omega, by omega, ?_, ?_, ?_⟩ <;> apply apart <;> simp <;> omega

section Sanitiser
variable (sets : CharacterSets)

theorem withoutInvalid_append (front back : List Char) :
    withoutInvalid sets (front ++ back) = withoutInvalid sets front ++ withoutInvalid sets back :=
  List.filterMap_append

theorem withoutInvalid_val {text : List Char} (word : Word text) :
    (withoutInvalid sets text).map Subtype.val = text := by
  induction text with
  | nil => rfl
  | cons c rest ih =>
    have bounds := word.bounds List.mem_cons_self
    have valid := sets.valid_of_printable bounds.1 bounds.2.1 bounds.2.2.1
    have later := ih fun other member => word other (List.mem_cons_of_mem c member)
    simpa [withoutInvalid, valid] using later

/-- The sanitiser keeps words apart. -/
theorem withoutInvalid_injective {a b : List Char} (wordA : Word a) (wordB : Word b)
    (same : withoutInvalid sets a = withoutInvalid sets b) : a = b := by
  rw [← withoutInvalid_val sets wordA, ← withoutInvalid_val sets wordB, same]

theorem slash_notMem_word {text : List Char} (word : Word text) : slash sets ∉ withoutInvalid sets text := by
  intro member
  have inside := List.mem_map_of_mem (f := Subtype.val) member
  rw [withoutInvalid_val sets word] at inside
  exact (word.bounds inside).2.2.2.1 rfl

theorem dot_notMem_word {text : List Char} (word : Word text) : dot sets ∉ withoutInvalid sets text := by
  intro member
  have inside := List.mem_map_of_mem (f := Subtype.val) member
  rw [withoutInvalid_val sets word] at inside
  exact (word.bounds inside).2.2.2.2 rfl

theorem withoutInvalid_ne_nil {text : List Char} (word : Word text) (proper : text ≠ []) :
    withoutInvalid sets text ≠ [] := by
  intro empty
  have whole := withoutInvalid_val sets word
  rw [empty] at whole
  exact proper whole.symm

theorem slash_ne_dot : slash sets ≠ dot sets := by
  intro same
  have := congrArg Subtype.val same
  simp [slash, dot] at this

theorem withoutInvalid_slash : withoutInvalid sets ['/'] = [slash sets] := by
  have valid := sets.valid_of_printable (c := '/') (by decide) (by decide) (by decide)
  simp [withoutInvalid, valid, slash]

theorem withoutInvalid_dot : withoutInvalid sets ['.'] = [dot sets] := by
  have valid := sets.valid_of_printable (c := '.') (by decide) (by decide) (by decide)
  simp [withoutInvalid, valid, dot]

/-- A path that does not begin with a slash and holds one is accepted as it is. -/
theorem getValidFilePath_eq {path : String} {c : FileChar sets} {rest : FileName sets}
    (sanitised : withoutInvalid sets path.toList = c :: rest) (first : c ≠ slash sets)
    (inside : slash sets ∈ rest) : getValidFilePath sets path = some (c :: rest) := by
  have kept : removeSlashesAtBeginning sets (c :: rest) = c :: rest := by
    simp [removeSlashesAtBeginning, first]
  have notDot : c :: rest ≠ [dot sets] := by
    rintro same
    cases same
    cases inside
  simp only [getValidFilePath, sanitised, kept]
  rw [if_pos ⟨Nat.succ_pos _, notDot⟩]

end Sanitiser

section Folders
variable (type : LevelType)

theorem folder_word : Word (getFolderForLevelType type).toList := by cases type <;> decide

theorem folder_ne_nil : (getFolderForLevelType type).toList ≠ [] := by cases type <;> decide

theorem extension_word : Word (levelExtensionForType type).toList := by cases type <;> decide

theorem extension_ne_nil : (levelExtensionForType type).toList ≠ [] := by cases type <;> decide

/-- Each type has a folder of its own. -/
theorem folder_injective {a b : LevelType} (same : getFolderForLevelType a = getFolderForLevelType b) :
    a = b := by
  revert same
  cases a <;> cases b <;> decide

end Folders

section Names
variable (sets : CharacterSets) (levelUUID : String) (type : LevelType)

def extensionName : FileName sets := withoutInvalid sets (levelExtensionForType type).toList

/-- What follows the last slash of the UUID. -/
def stem : FileName sets := FilePath.leaf (slash sets) (withoutInvalid sets levelUUID.toList)

def levelFile : FileName sets := stem sets levelUUID ++ dot sets :: extensionName sets type

end Names

section Place
variable {sets : CharacterSets} (fs : FileSystem sets) (levelUUID : String) (type : LevelType)

/-- The directory that the directories in the UUID lead to from the folder. -/
def levelFolder : URL sets :=
  FilePath.resolve (slash sets) (dot sets) (folderURL fs type)
    (FilePath.directory (slash sets) (withoutInvalid sets levelUUID.toList))

/-- The folder is one directory below the documents. -/
theorem resolve_folder :
    FilePath.resolve (slash sets) (dot sets) fs.documents
      (withoutInvalid sets (getFolderForLevelType type).toList) = folderURL fs type := by
  have word := folder_word type
  obtain ⟨c, member⟩ := List.exists_mem_of_ne_nil _ (withoutInvalid_ne_nil sets word (folder_ne_nil type))
  have notDot : c ≠ dot sets := fun same => dot_notMem_word sets word (same ▸ member)
  rw [FilePath.resolve_name _ _ _ (slash_notMem_word sets word),
    FilePath.descend_of_mem _ _ member notDot, folderURL]

theorem getValidFilePath_folder (tail : String) :
    getValidFilePath sets (getFolderForLevelType type ++ "/" ++ tail) =
      some (withoutInvalid sets (getFolderForLevelType type).toList ++
        slash sets :: withoutInvalid sets tail.toList) := by
  have word := folder_word type
  have noSlash := slash_notMem_word sets word
  have proper := withoutInvalid_ne_nil sets word (folder_ne_nil type)
  have sanitised : withoutInvalid sets (getFolderForLevelType type ++ "/" ++ tail).toList =
      withoutInvalid sets (getFolderForLevelType type).toList ++
        slash sets :: withoutInvalid sets tail.toList := by
    have separator : "/".toList = ['/'] := by decide
    rw [String.toList_append, String.toList_append, separator, withoutInvalid_append,
      withoutInvalid_append, withoutInvalid_slash, List.append_assoc, List.singleton_append]
  cases folder : withoutInvalid sets (getFolderForLevelType type).toList with
  | nil => exact absurd folder proper
  | cons c rest =>
    rw [folder] at sanitised noSlash
    have first : c ≠ slash sets := fun same => noSlash (same ▸ List.mem_cons_self)
    exact getValidFilePath_eq sets sanitised first (List.mem_append_right _ List.mem_cons_self)

/-- Any path below the folder is resolved from there. -/
theorem createURL_folder (tail : String) :
    Disk.createURL fs (getFolderForLevelType type ++ "/" ++ tail) =
      some (FilePath.resolve (slash sets) (dot sets) (folderURL fs type)
        (withoutInvalid sets tail.toList)) := by
  rw [Disk.createURL, getValidFilePath_folder, Option.map_some, FilePath.resolve_append,
    resolve_folder]

theorem createURL_levelPath :
    Disk.createURL fs (levelPath levelUUID type) =
      some (levelFolder fs levelUUID type ++ [levelFile sets levelUUID type]) := by
  have word := extension_word type
  obtain ⟨c, member⟩ := List.exists_mem_of_ne_nil _ (withoutInvalid_ne_nil sets word (extension_ne_nil type))
  have notDot : c ≠ dot sets := fun same => dot_notMem_word sets word (same ▸ member)
  have absent : slash sets ∉ dot sets :: extensionName sets type := by
    intro inside
    rcases List.mem_cons.mp inside with same | inside
    · exact slash_ne_dot sets same
    · exact slash_notMem_word sets word inside
  have tail : withoutInvalid sets (levelUUID ++ "." ++ levelExtensionForType type).toList =
      withoutInvalid sets levelUUID.toList ++ dot sets :: extensionName sets type := by
    have point : ".".toList = ['.'] := by decide
    rw [String.toList_append, String.toList_append, point, withoutInvalid_append,
      withoutInvalid_append, withoutInvalid_dot, List.append_assoc, List.singleton_append,
      extensionName]
  have path : levelPath levelUUID type =
      getFolderForLevelType type ++ "/" ++ (levelUUID ++ "." ++ levelExtensionForType type) := by
    simp only [levelPath, String.append_assoc]
  have inLeaf : c ∈ stem sets levelUUID ++ dot sets :: extensionName sets type :=
    List.mem_append_right _ (List.mem_cons_of_mem _ member)
  rw [path, createURL_folder, tail, FilePath.resolve_eq, FilePath.directory_append _ absent,
    FilePath.leaf_append _ absent]
  exact congrArg some (FilePath.descend_of_mem _ _ inLeaf notDot)

end Place

/-- The UUID under which a level is saved. -/
def uuidOf (level : LevelData) : Option String := level.levelMetadata.bind LevelMetadata.levelUUID

/-- What `saveLevel` puts together from a level, if it has metadata. -/
noncomputable def stored (level : LevelData) : LevelData :=
  { level with levelConditions := some ⟨200, 5⟩ }

section Save
variable {sets : CharacterSets} {Data : Type} (fs : FileSystem sets) (codec : LevelCodec Data)

theorem encoded (level : LevelData) : ∃ data, (codec.makeData level).bind codec.compress = some data := by
  obtain ⟨data, compressed, made, packed⟩ := codec.encodes level
  exact ⟨compressed, by rw [made, Option.bind_some, packed]⟩

theorem newLevelData_eq {level : LevelData} {lm : LevelMetadata} (metadata : level.levelMetadata = some lm) :
    newLevelData level lm = stored level := by
  rw [stored, newLevelData, ← metadata]

theorem levelURL_proper (levelUUID : String) (type : LevelType) :
    ∀ name ∈ levelFolder fs levelUUID type ++ [levelFile sets levelUUID type], slash sets ∉ name :=
  Disk.createURL_proper fs (createURL_levelPath fs levelUUID type)

theorem save_eq (disk : Disk sets Data) (data : Data) {path : String} {url : URL sets}
    (created : Disk.createURL fs path = some url) :
    Disk.save fs disk data path = if fs.accepts url then
      some (disk.write url (Disk.createURL_proper fs created) data) else none := by
  unfold Disk.save
  split
  · next url' created' =>
    cases created.symm.trans created'
    rfl
  · next failed => cases created.symm.trans failed

/-- A level with metadata and a UUID is written to its file, if the file system
takes it, and nothing else is. -/
theorem saveLevel_eq (disk : Disk sets Data) {level : LevelData} {levelUUID : String}
    (is : uuidOf level = some levelUUID) (type : LevelType) :
    ∃ data, (codec.makeData (stored level)).bind codec.compress = some data ∧
      saveLevel fs codec disk (some level) type =
        some (if fs.accepts (levelFolder fs levelUUID type ++ [levelFile sets levelUUID type]) then
          disk.write _ (levelURL_proper fs levelUUID type) data else disk) := by
  obtain ⟨lm, metadata, uuid⟩ := Option.bind_eq_some_iff.mp is
  obtain ⟨data, made⟩ := encoded codec (stored level)
  refine ⟨data, made, ?_⟩
  have saved := save_eq fs disk data (createURL_levelPath fs levelUUID type)
  simp only [saveLevel, metadata, newLevelData_eq metadata, made, uuid, saved, bind, Option.bind_some]
  split <;> rfl

/-- Without metadata or without a UUID it traps. -/
theorem saveLevel_none (disk : Disk sets Data) {level : LevelData} (is : uuidOf level = none)
    (type : LevelType) : saveLevel fs codec disk (some level) type = none := by
  simp only [saveLevel, bind, Option.bind_some]
  cases metadata : level.levelMetadata with
  | none => rfl
  | some lm =>
    have absent : lm.levelUUID = none := by simpa [uuidOf, metadata] using is
    simp only [Option.bind_some, absent, Option.bind_none, Option.bind_fun_none]

end Save
end Arthius.Guarantees.LevelPaths
