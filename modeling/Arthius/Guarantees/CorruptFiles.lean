import Arthius.Guarantees.LevelRoundTrip
import Arthius.Source.LevelLoading

/-!
# Loading a folder that holds bad files

A file that cannot be read or holds no level is skipped. One that does not
decompress ends the process, and one without attributes ends the loop, so that
the levels listed after it are lost.
-/
namespace Arthius.Guarantees.CorruptFiles
open Arthius.Lib Arthius.Source Arthius.Source.LevelFiles
open LevelLoading (FileManager HasExtension processFiles)
open LevelContainment (foundationSets device levelNamed)

section Load
variable {sets : CharacterSets} {Data : Type} (fileManager : FileManager sets) (fs : FileSystem sets)
variable (codec : LevelCodec Data) (disk : Disk sets Data) (type : LevelType)

/-- The bytes of a listed file with the extension of the type, if they can be read. -/
def bytesOf (fileName : FileName sets) : Option Data :=
  if HasExtension type fileName then
    Disk.retrieve fs disk (getFolderForLevelType type ++ "/" ++ String.ofList (fileName.map Subtype.val))
  else none

/-- The level that a file decodes to. -/
def levelOf (fileName : FileName sets) : Option LevelData :=
  (bytesOf fs disk type fileName).bind fun datao =>
    (codec.decompress datao).bind fun data => (codec.makeLevel data).bind id

/-- What is read from the file decompresses. -/
def Unpacks (fileName : FileName sets) : Prop :=
  ∀ datao, bytesOf fs disk type fileName = some datao → (codec.decompress datao).isSome

/-- The attributes of the file are asked for in vain. -/
def Stops (fileName : FileName sets) : Prop :=
  HasExtension type fileName ∧ fileManager.attributesOfItem (folderURL fs type ++ [fileName]) = none

instance (fileName : FileName sets) : Decidable (Stops fileManager fs type fileName) :=
  inferInstanceAs (Decidable (_ ∧ _))

variable {fileManager fs codec disk type} {fileName : FileName sets} {rest : List (FileName sets)}
variable {levels : List LevelData}

/-- A file whose bytes do not decompress traps. -/
theorem processFiles_packed (packed : ¬ Unpacks fs codec disk type fileName) :
    processFiles fileManager fs codec disk type (fileName :: rest) levels = none := by
  simp only [Unpacks, not_forall, Bool.not_eq_true, Option.isSome_eq_false_iff, Option.isNone_iff_eq_none] at packed
  obtain ⟨datao, read, broken⟩ := packed
  unfold bytesOf at read
  split_ifs at read with matches_
  simp only [processFiles, LevelLoading.loadLevel, if_pos matches_, read, broken, Option.map_none]

/-- One round of the loop on any other file. -/
theorem processFiles_unpacked (unpacks : Unpacks fs codec disk type fileName) :
    processFiles fileManager fs codec disk type (fileName :: rest) levels =
      if Stops fileManager fs type fileName then some (levels ++ (levelOf fs codec disk type fileName).toList)
      else processFiles fileManager fs codec disk type rest
        (levels ++ (levelOf fs codec disk type fileName).toList) := by
  rw [processFiles]
  by_cases matches_ : HasExtension type fileName
  · have loaded : LevelLoading.loadLevel fs codec disk type fileName levels =
        some (levels ++ (levelOf fs codec disk type fileName).toList) := by
      unfold Unpacks bytesOf at unpacks
      rw [if_pos matches_] at unpacks
      unfold LevelLoading.loadLevel levelOf bytesOf
      rw [if_pos matches_]
      cases read : Disk.retrieve fs disk
          (getFolderForLevelType type ++ "/" ++ String.ofList (fileName.map Subtype.val)) with
      | none => simp
      | some datao =>
        obtain ⟨data, is⟩ := Option.isSome_iff_exists.mp (unpacks datao read)
        simp [is]
    rw [if_pos matches_, loaded]
    cases attributes : fileManager.attributesOfItem (folderURL fs type ++ [fileName]) <;>
      simp [Stops, matches_, attributes]
  · simp [Stops, matches_, levelOf, bytesOf]

variable (fileManager fs codec disk type) in
/-- Every file that the loop comes to decompresses, and if it has no attributes,
then no file listed after it is a level. -/
def Isolated (fileNames : List (FileName sets)) : Prop :=
  ∀ before fileName after, fileNames = before ++ fileName :: after →
    (∀ other ∈ before, ¬ Stops fileManager fs type other) →
    Unpacks fs codec disk type fileName ∧
      (Stops fileManager fs type fileName → ∀ other ∈ after, levelOf fs codec disk type other = none)

theorem isolated_nil : Isolated fileManager fs codec disk type [] := by
  intro before fileName after split
  simp at split

theorem isolated_cons_iff : Isolated fileManager fs codec disk type (fileName :: rest) ↔
    Unpacks fs codec disk type fileName ∧
      if Stops fileManager fs type fileName then ∀ other ∈ rest, levelOf fs codec disk type other = none
      else Isolated fileManager fs codec disk type rest := by
  constructor
  · intro isolated
    obtain ⟨unpacks, last⟩ := isolated [] fileName rest rfl (by simp)
    refine ⟨unpacks, ?_⟩
    split_ifs with stops
    · exact last stops
    · intro before other after split none_
      refine isolated (fileName :: before) other after (by rw [split]; rfl) ?_
      exact List.forall_mem_cons.mpr ⟨stops, none_⟩
  · rintro ⟨unpacks, later⟩ before other after split none_
    cases before with
    | nil =>
      cases split
      exact ⟨unpacks, fun stops => by rwa [if_pos stops] at later⟩
    | cons first before =>
      cases split
      obtain ⟨goesOn, none_⟩ := List.forall_mem_cons.mp none_
      rw [if_neg goesOn] at later
      exact later before other after rfl none_

/-- The loop appends exactly the levels of the files. -/
theorem processFiles_iff (fileNames : List (FileName sets)) (levels : List LevelData) :
    processFiles fileManager fs codec disk type fileNames levels =
        some (levels ++ fileNames.filterMap (levelOf fs codec disk type)) ↔
      Isolated fileManager fs codec disk type fileNames := by
  induction fileNames generalizing levels with
  | nil => exact iff_of_true (by simp [processFiles]) isolated_nil
  | cons fileName rest ih =>
    rw [isolated_cons_iff]
    by_cases unpacks : Unpacks fs codec disk type fileName
    · have levelsOf : levels ++ (fileName :: rest).filterMap (levelOf fs codec disk type) =
          levels ++ (levelOf fs codec disk type fileName).toList ++
            rest.filterMap (levelOf fs codec disk type) := by
        cases is : levelOf fs codec disk type fileName <;> simp [is]
      rw [processFiles_unpacked unpacks, levelsOf, and_iff_right unpacks]
      split_ifs with stops
      · rw [Option.some.injEq, List.self_eq_append_right, List.filterMap_eq_nil_iff]
      · exact ih _
    · rw [processFiles_packed unpacks]
      exact iff_of_false (by simp) fun both => unpacks both.1

theorem loadLevel_eq (matches_ : HasExtension type fileName) :
    LevelLoading.loadLevel fs codec disk type fileName levels =
      (loadFile fs codec disk type fileName).map (levels ++ ·) := by
  unfold HasExtension at matches_
  unfold LevelLoading.loadLevel loadFile
  rw [if_pos matches_]
  cases Disk.retrieve fs disk (getFolderForLevelType type ++ "/" ++ String.ofList (fileName.map Subtype.val)) with
  | none => simp
  | some datao => simp [Function.comp_def]

/-- Where no attributes are missing, the loop is the one without them. -/
theorem processFiles_eq (fileNames : List (FileName sets)) (levels : List LevelData)
    (present : ∀ fileName ∈ fileNames, ¬ Stops fileManager fs type fileName) :
    processFiles fileManager fs codec disk type fileNames levels =
      (LevelFiles.getAllLevels fs codec disk type fileNames).map (levels ++ ·) := by
  induction fileNames generalizing levels with
  | nil => simp [processFiles, LevelFiles.getAllLevels]
  | cons fileName rest ih =>
    obtain ⟨goesOn, later⟩ := List.forall_mem_cons.mp present
    rw [processFiles, LevelFiles.getAllLevels]
    by_cases matches_ : HasExtension type fileName
    · rw [if_pos matches_, loadLevel_eq matches_]
      cases loadFile fs codec disk type fileName with
      | none => rfl
      | some loaded =>
        obtain ⟨size, attributes⟩ := Option.ne_none_iff_exists'.mp fun none_ => goesOn ⟨matches_, none_⟩
        simp only [Option.map_some, attributes, ih _ later]
        cases LevelFiles.getAllLevels fs codec disk type rest <;> simp
    · have skipped : loadFile fs codec disk type fileName = some [] := if_neg matches_
      rw [if_neg matches_, ih levels later, skipped]
      cases LevelFiles.getAllLevels fs codec disk type rest <;> simp

end Load

/-- Exactly the levels of the listed files are loaded, without a trap, if and only
if the bad files are isolated. -/
theorem getAllLevels_isolates_iff {sets : CharacterSets} {Data : Type} (fileManager : FileManager sets)
    (fs : FileSystem sets) (codec : LevelCodec Data) (disk : Disk sets Data) (type : LevelType) :
    LevelLoading.getAllLevels fileManager fs codec disk type =
        some (((fileManager.contentsOfDirectory (folderURL fs type)).getD []).filterMap
          (levelOf fs codec disk type)) ↔
      Isolated fileManager fs codec disk type ((fileManager.contentsOfDirectory (folderURL fs type)).getD []) := by
  unfold LevelLoading.getAllLevels
  cases fileManager.contentsOfDirectory (folderURL fs type) with
  | none => exact iff_of_true rfl isolated_nil
  | some fileNames => exact processFiles_iff fileNames []

/-- Levels as their own bytes, next to bytes that do not decompress. -/
def brokenCodec : LevelCodec (Option LevelData) where
  makeData level := some (some level)
  compress := some
  decompress := Option.map some
  makeLevel := some
  encodes level := ⟨some level, some level, rfl, rfl⟩

noncomputable section

def fileNamed (name : String) : FileName foundationSets := withoutInvalid foundationSets name.toList

/-- The user's levels hold `a.gws`, which does not decompress, and `b.gws`, a level. -/
def badFolder : Disk foundationSets (Option LevelData) where
  files := [(folderURL device .userMade ++ [fileNamed "a.gws"], none),
    (folderURL device .userMade ++ [fileNamed "b.gws"], some (levelNamed "b"))]
  distinct := by decide
  proper := by
    have urls : ∀ url ∈ [folderURL device .userMade ++ [fileNamed "a.gws"],
        folderURL device .userMade ++ [fileNamed "b.gws"]], ∀ name ∈ url, slash foundationSets ∉ name := by
      decide
    exact fun file member => urls file.1 (List.mem_map_of_mem member)

theorem badFolder_bytes {fileName : FileName foundationSets} (noSlash : slash foundationSets ∉ fileName)
    (matches_ : HasExtension .userMade fileName) :
    bytesOf device badFolder .userMade fileName = badFolder.read (folderURL device .userMade ++ [fileName]) := by
  rw [bytesOf, if_pos matches_, LevelRoundTrip.retrieve_eq device .userMade badFolder noSlash matches_]

/-- Both files are listed and have attributes. -/
def wholeFolder : FileManager foundationSets where
  contentsOfDirectory _ := some [fileNamed "a.gws", fileNamed "b.gws"]
  attributesOfItem _ := some 100

/-- The bad file stops the loading of the good one. -/
theorem badFolder_traps :
    LevelLoading.getAllLevels wholeFolder device brokenCodec badFolder .userMade = none ∧
      levelOf device brokenCodec badFolder .userMade (fileNamed "b.gws") = some (levelNamed "b") := by
  have bad : bytesOf device badFolder .userMade (fileNamed "a.gws") = some none :=
    badFolder_bytes (by decide) (by decide)
  have good : bytesOf device badFolder .userMade (fileNamed "b.gws") = some (some (levelNamed "b")) :=
    badFolder_bytes (by decide) (by decide)
  have packed : ¬ Unpacks device brokenCodec badFolder .userMade (fileNamed "a.gws") := by
    intro unpacks
    have isSome := unpacks none bad
    cases isSome
  constructor
  · exact processFiles_packed packed
  · rw [levelOf, good]
    rfl

end
end Arthius.Guarantees.CorruptFiles
