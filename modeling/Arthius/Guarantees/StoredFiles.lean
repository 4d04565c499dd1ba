import Arthius.Source.StoredFiles
import Arthius.Guarantees.Compression
import Arthius.Guarantees.LevelEncoding
import Arthius.Guarantees.LevelRoundTrip
import Arthius.Guarantees.ProgressEncoding

/-!
# What is on the disk comes back

Levels of any type and the progress share the documents directory, each in a file of
its own. After any run of saves that fit, in any order, every file loads as what was
saved to it last, through the binary format and the compression, and every file that no
save was for is as it was. The UUID of a level that fits is made of letters, digits and
hyphens, and a level loads in one round of the loop of `getAllLevels`, which is at its file.
-/
namespace Arthius.Guarantees.StoredFiles
open Arthius.Lib Arthius.Source Arthius.Source.FlatBuffers Arthius.Source.StoredFiles
open Arthius.Source.LevelFiles hiding newLevelData saveLevel loadFile
open Arthius.Guarantees.LevelPaths Arthius.Guarantees.LevelContainment Arthius.Guarantees.Compression
open Arthius.Guarantees.LevelRoundTrip (stem_word levelFolder_word retrieve_eq)

/-- What `saveLevel` puts together from a level in memory. -/
def newValue (heap : Heap) (l : FlatBuffers.LevelData fun _ => ℕ) : FlatBuffers.LevelData Part.Record :=
  { mapParts heap l with
    levelConditions := some ({ maxDistance := ⟨0x43480000⟩, maxTime := ⟨0x40a00000⟩ } :
      FlatBuffers.LevelConditions) }

theorem levelOf_newLevel {heap : Heap} {l : FlatBuffers.LevelData fun _ => ℕ} {number : ℕ}
    (metadata : l.levelMetadata = some number) :
    levelOf (newLevel heap l (heap .levelMetadata number)) = ⟨some (newValue heap l)⟩ := by
  simp [levelOf, newLevel, mapLevel, mapParts, newLevelData, newHeap, newValue, metadata]

theorem levelStrings_some (levelData : FlatBuffers.LevelData Part.Record) :
    levelStrings ⟨some levelData⟩ = levelDataStrings levelData := by
  simp [levelStrings]

/-- The UUID under which a level in memory is saved. -/
def levelUUID (heap : Heap) (l : FlatBuffers.LevelData fun _ => ℕ) : Option String :=
  l.levelMetadata.bind fun number => FlatBuffers.LevelMetadata.levelUUID (heap .levelMetadata number)

/-- The tables of a level that is saved. -/
def levelGraph (heap : Heap) (l : FlatBuffers.LevelData fun _ => ℕ) : LevelGraph :=
  newLevel heap l (heap .levelMetadata (l.levelMetadata.getD 0))

section Places
variable {sets : CharacterSets} (fs : FileSystem sets)

/-- The type and the UUID of a level, or nothing for the progress. -/
def target : Save → Option (LevelType × Option String)
  | .level _ heap l type => some (type, levelUUID heap l)
  | .progress _ _ => none

def place : Save → URL sets
  | .level _ heap l type =>
    levelFolder fs ((levelUUID heap l).getD "") type ++ [levelFile sets ((levelUUID heap l).getD "") type]
  | .progress _ _ => fs.documents ++ [withoutInvalid sets progressFile.toList]

/-- The UUID is not empty and has only letters, digits and hyphens, the file system can hold
the file, and its bytes have numbers that an `Int32` can hold. -/
def Fits : Save → Prop
  | .level _ heap l type => (∃ uuid, levelUUID heap l = some uuid ∧ uuid.toList ≠ [] ∧ Word uuid.toList ∧
      Accepted fs type uuid) ∧ levelBound (levelGraph heap l) + 11 < 2 ^ 31
  | .progress _ graph => fs.accepts (fs.documents ++ [withoutInvalid sets progressFile.toList]) ∧
      progressBound graph + 11 < 2 ^ 31

/-- The name of the progress file is left as it is. -/
theorem progressFile_val (sets : CharacterSets) :
    (withoutInvalid sets progressFile.toList).map Subtype.val = progressFile.toList := by
  have parts : progressFile.toList = "progress".toList ++ (['.'] ++ "gpg".toList) := by decide
  rw [parts, withoutInvalid_append, withoutInvalid_append, withoutInvalid_dot, List.map_append,
    List.map_append, withoutInvalid_val sets (by decide), withoutInvalid_val sets (by decide)]
  rfl

theorem createURL_progressFile : Disk.createURL fs progressFile =
    some (fs.documents ++ [withoutInvalid sets progressFile.toList]) := by
  have val := progressFile_val sets
  have noSlash : slash sets ∉ withoutInvalid sets progressFile.toList := by
    intro member
    have inside := List.mem_map_of_mem (f := Subtype.val) member
    rw [val] at inside
    exact (by decide : '/' ∉ progressFile.toList) inside
  cases name : withoutInvalid sets progressFile.toList with
  | nil =>
    rw [name] at val
    have empty : progressFile.toList = [] := val.symm
    exact absurd empty (by decide)
  | cons c rest =>
    rw [name] at noSlash val
    have first : c ≠ slash sets := fun same => noSlash (same ▸ List.mem_cons_self)
    have notDot : c ≠ dot sets := by
      rintro rfl
      simp [progressFile, dot] at val
    have kept : removeSlashesAtBeginning sets (c :: rest) = c :: rest := by
      simp [removeSlashesAtBeginning, first]
    have valid : getValidFilePath sets progressFile = some (c :: rest) := by
      simp [getValidFilePath, name, kept, notDot]
    rw [Disk.createURL, valid, Option.map_some, FilePath.resolve_name _ _ _ noSlash,
      FilePath.descend_of_mem _ _ List.mem_cons_self notDot]

theorem place_proper (save : Save) : ∀ name ∈ place fs save, slash sets ∉ name := by
  cases save with
  | level garbage heap l type => exact levelURL_proper fs _ type
  | progress garbage graph => exact Disk.createURL_proper fs (createURL_progressFile fs)

variable {fs} in
/-- The file of a level with a well-formed UUID. -/
theorem place_level {garbage : ℕ → UInt8} {heap : Heap} {l : FlatBuffers.LevelData fun _ => ℕ}
    {type : LevelType} {uuid : String} (is : levelUUID heap l = some uuid)
    (word : Word uuid.toList) :
    place fs (.level garbage heap l type) = folderURL fs type ++ [levelFile sets uuid type] := by
  simp only [place, is, Option.getD_some, levelFolder_word word]

variable {fs} in
/-- Different targets are different files. -/
theorem target_eq_of_place_eq {a b : Save} (fitsA : Fits fs a) (fitsB : Fits fs b)
    (same : place fs a = place fs b) : target a = target b := by
  cases a with
  | level _ heap l type =>
    obtain ⟨⟨uuid, is, _, word, _⟩, _⟩ := fitsA
    cases b with
    | level _ heap' l' type' =>
      obtain ⟨⟨uuid', is', _, word', _⟩, _⟩ := fitsB
      rw [place_level is word, place_level is' word'] at same
      obtain ⟨folders, names⟩ := List.append_inj' same rfl
      obtain rfl := folderURL_injective fs folders
      have files := (List.cons.inj names).1
      have stems := (List.append_inj' files rfl).1
      rw [stem_word word, stem_word word'] at stems
      rw [target, target, is, is', String.toList_inj.mp (withoutInvalid_injective sets word word' stems)]
    | progress _ graph =>
      have lengths := congrArg List.length same
      simp [place, is, levelFolder_word word, folderURL] at lengths
  | progress _ graph =>
    cases b with
    | level _ heap l type =>
      obtain ⟨⟨uuid, is, _, word, _⟩, _⟩ := fitsB
      have lengths := congrArg List.length same
      simp [place, is, levelFolder_word word, folderURL] at lengths
    | progress _ graph' => rfl

end Places

section Bytes
variable {sets : CharacterSets} (app : Platform sets)

/-- The tables that a save writes, if they can be written. -/
def tables : Save → Option (List UInt8)
  | .level garbage heap l _ => ((levelGraph heap l).makeData app.canonical {} garbage).toOption
  | .progress garbage graph => (graph.makeData app.canonical {} garbage).toOption

theorem ok_of_toOption {ε α : Type} {result : Except ε α} {value : α}
    (there : result.toOption = some value) : result = .ok value := by
  cases result with
  | error failure => cases there
  | ok found => exact congrArg Except.ok (Option.some.inj there)

variable {app} {encoded : DataCompression.CompressionAlgorithm → List UInt8 → List UInt8}

theorem compressed_eq (lossless : Lossless app.library encoded) {data : List UInt8} {fuel : ℕ}
    (enough : (encoded .lzma data).length + 1 < fuel) :
    compressed app fuel data = some (encoded .lzma data) := by
  rw [compressed, DataCompression.compress, perform_encode lossless .lzma enough]
  rfl

theorem decompressed_eq (lossless : Lossless app.library encoded) {data : List UInt8} {fuel : ℕ}
    (enough : data.length + 1 < fuel) :
    decompressed app fuel (encoded .lzma data) = some data := by
  rw [decompressed, DataCompression.decompress, perform_decode lossless .lzma enough]
  rfl

/-- A save that fits writes its file and nothing else. -/
theorem run_eq (lossless : Lossless app.library encoded) {save : Save} (fits : Fits app.fs save) :
    ∃ file, tables app save = some file ∧
      ∀ fuel > (encoded .lzma file).length + 1, ∀ disk, save.run app fuel disk =
        some (disk.write _ (place_proper app.fs save) (encoded .lzma file)) := by
  cases save with
  | level garbage heap l type =>
    obtain ⟨⟨uuid, is, _, word, accepted⟩, small⟩ := fits
    obtain ⟨number, metadata, named⟩ := Option.bind_eq_some_iff.mp is
    have made := makeLevel_makeData (levelGraph heap l) app.canonical {} garbage
    split at made
    · next file written =>
      refine ⟨file, by rw [tables, written]; rfl, fun fuel enough disk => ?_⟩
      have saved := save_eq app.fs disk (encoded .lzma file) (createURL_levelPath app.fs uuid type)
      unfold Accepted at accepted
      rw [if_pos accepted] at saved
      rw [levelGraph, metadata, Option.getD_some] at written
      simp only [Save.run, saveLevel, metadata, written, attempt, compressed_eq lossless enough, named,
        saved, bind, Option.bind_some, Option.getD_some, place, is]
    · omega
  | progress garbage graph =>
    obtain ⟨accepted, small⟩ := fits
    have made := makeProgress_makeData graph app.canonical {} garbage
    split at made
    · next file written =>
      refine ⟨file, by rw [tables, written]; rfl, fun fuel enough disk => ?_⟩
      have saved := save_eq app.fs disk (encoded .lzma file) (createURL_progressFile app.fs)
      rw [if_pos accepted] at saved
      simp only [Save.run, saveProgress, written, compressed_eq lossless enough, saved, bind,
        Option.bind_some, Option.getD_some, place]
    · omega

/-- What the file of a save loads as. `loadFile` is what one round of the loop of
`getAllLevels` adds to the levels; the rounds for the other files are not part of this. -/
def Loads (app : Platform sets) (fuel : ℕ) (allLevels : List (FlatBuffers.LevelData Part.Record))
    (disk : Files sets) : Save → Prop
  | .level _ heap l type => ∃ uuid levelData, levelUUID heap l = some uuid ∧
      StoredFiles.loadFile app fuel disk type (levelFile sets uuid type) = some [levelData] ∧
      mapParts (mapStrings app.canonical) levelData =
        mapParts (mapStrings app.canonical) (mapParts (written false) (newValue heap l)) ∧
      (Set.InjOn app.canonical (levelDataStrings (newValue heap l)) →
        levelData = mapParts (written false) (newValue heap l))
  | .progress _ graph => ∃ progress : FlatBuffers.Progress, loadProgress app fuel allLevels disk = some progress ∧
      mapEntries (mapEntry app.canonical) progress =
        progressOf (fun self => mapEntry app.canonical (writtenEntry false self)) graph ∧
      (Set.InjOn app.canonical (progressStrings graph) →
        progress = progressOf (writtenEntry false) graph)

/-- The extension of a level's file is that of its type. -/
theorem levelFile_extension (sets : CharacterSets) {uuid : String} (proper : uuid.toList ≠ [])
    (word : Word uuid.toList) (type : LevelType) :
    (FilePath.pathExtension (dot sets) (levelFile sets uuid type)).map Subtype.val =
      (levelExtensionForType type).toList := by
  have hasStem : stem sets uuid ≠ [] := by
    rw [stem_word word]
    exact withoutInvalid_ne_nil sets word proper
  have noDot : dot sets ∉ extensionName sets type := dot_notMem_word sets (extension_word type)
  rw [levelFile, FilePath.pathExtension_append _ hasStem noDot, extensionName,
    withoutInvalid_val sets (extension_word type)]

/-- The tables of a level that fits are read as the level. -/
theorem level_read {garbage : ℕ → UInt8} {heap : Heap} {l : FlatBuffers.LevelData fun _ => ℕ}
    {type : LevelType} (fits : Fits app.fs (.level garbage heap l type)) {file : List UInt8}
    (made : tables app (.level garbage heap l type) = some file) :
    ∃ levelData, makeLevel file (some []) = .ok (some ⟨some levelData⟩) ∧
      mapParts (mapStrings app.canonical) levelData =
        mapParts (mapStrings app.canonical) (mapParts (written false) (newValue heap l)) ∧
      (Set.InjOn app.canonical (levelDataStrings (newValue heap l)) →
        levelData = mapParts (written false) (newValue heap l)) := by
  obtain ⟨⟨uuid, is, _⟩, _⟩ := fits
  obtain ⟨number, metadata, _⟩ := Option.bind_eq_some_iff.mp is
  have returns := makeLevel_makeData (levelGraph heap l) app.canonical {} garbage
  rw [ok_of_toOption made] at returns
  obtain ⟨_, level, read, alike, same⟩ := returns
  have whole : levelOf (levelGraph heap l) = ⟨some (newValue heap l)⟩ := by
    rw [levelGraph, metadata]
    exact levelOf_newLevel metadata
  rw [whole] at alike same
  rw [levelStrings_some] at same
  obtain ⟨_ | levelData⟩ := level
  · cases congrArg FlatBuffers.Level.levelData alike
  · refine ⟨levelData, read _ (by simp), ?_, fun distinct => ?_⟩
    · exact Option.some.inj (congrArg FlatBuffers.Level.levelData alike)
    · exact Option.some.inj (congrArg FlatBuffers.Level.levelData (same (.inr distinct)))

/-- The file of a level loads as what its tables are read as. -/
theorem loadFile_of_read (lossless : Lossless app.library encoded) {uuid : String}
    (proper : uuid.toList ≠ []) (word : Word uuid.toList) {type : LevelType} {file : List UInt8}
    {fuel : ℕ} (enough : file.length + 1 < fuel) {disk : Files sets}
    (present : disk.read (folderURL app.fs type ++ [levelFile sets uuid type]) =
      some (encoded .lzma file))
    {levelData : FlatBuffers.LevelData Part.Record}
    (read : makeLevel file (some []) = .ok (some ⟨some levelData⟩)) :
    StoredFiles.loadFile app fuel disk type (levelFile sets uuid type) = some [levelData] := by
  have noSlash : slash sets ∉ levelFile sets uuid type :=
    levelURL_proper app.fs uuid type _ (List.mem_append_right _ (List.mem_singleton_self _))
  have matches_ := levelFile_extension sets proper word type
  rw [StoredFiles.loadFile, if_pos matches_, retrieve_eq app.fs type disk noSlash matches_, present]
  simp [decompressed_eq lossless enough, read]

/-- Bytes that a save has written load as what was saved. -/
theorem loads_of_read (lossless : Lossless app.library encoded) {save : Save}
    (fits : Fits app.fs save) {file : List UInt8} (made : tables app save = some file) {fuel : ℕ}
    (enough : file.length + 1 < fuel)
    (allLevels : List (FlatBuffers.LevelData Part.Record)) {disk : Files sets}
    (present : disk.read (place app.fs save) = some (encoded .lzma file)) :
    Loads app fuel allLevels disk save := by
  cases save with
  | level garbage heap l type =>
    obtain ⟨levelData, read, alike, same⟩ := level_read fits made
    obtain ⟨⟨uuid, is, proper, word, _⟩, _⟩ := fits
    rw [place_level is word] at present
    exact ⟨uuid, levelData, is, loadFile_of_read lossless proper word enough present read, alike,
      same⟩
  | progress garbage graph =>
    have returns := makeProgress_makeData graph app.canonical {} garbage
    rw [place] at present
    rw [ok_of_toOption made] at returns
    obtain ⟨_, progress, read, alike, same⟩ := returns
    refine ⟨progress, ?_, alike, fun distinct => same (.inr distinct)⟩
    rw [loadProgress, Disk.retrieve, createURL_progressFile]
    simp [present, decompressed_eq lossless enough, read]

end Bytes

section Run
variable {sets : CharacterSets} (app : Platform sets) (fuel : ℕ)

/-- One save after the other. -/
def saveAll (disk : Files sets) (saves : List Save) : Option (Files sets) :=
  saves.foldlM (Save.run app fuel) disk

variable {app fuel} {encoded : DataCompression.CompressionAlgorithm → List UInt8 → List UInt8}

/-- The saves of a run write their files in turn. -/
theorem saveAll_reads (bytes : Save → List UInt8) {saves : List Save}
    (writes : ∀ save ∈ saves, ∀ disk, save.run app fuel disk =
      some (disk.write _ (place_proper app.fs save) (bytes save))) (disk : Files sets) :
    ∃ disk', saveAll app fuel disk saves = some disk' ∧
      (∀ url, (∀ save ∈ saves, place app.fs save ≠ url) → disk'.read url = disk.read url) ∧
      ∀ before save after, saves = before ++ save :: after →
        (∀ later ∈ after, place app.fs later ≠ place app.fs save) →
        disk'.read (place app.fs save) = some (bytes save) := by
  induction saves generalizing disk with
  | nil => exact ⟨disk, rfl, fun _ _ => rfl, fun before save after split => by simp at split⟩
  | cons first rest ih =>
    obtain ⟨disk', saved, others, own⟩ := ih
      (fun save member => writes save (List.mem_cons_of_mem first member))
      (disk.write _ (place_proper app.fs first) (bytes first))
    have run := writes first List.mem_cons_self disk
    refine ⟨disk', ?_, ?_, ?_⟩
    · simpa only [saveAll, List.foldlM_cons, run, bind, Option.bind_some] using saved
    · intro url apart
      rw [others url fun save member => apart save (List.mem_cons_of_mem first member), read_write,
        if_neg (apart first List.mem_cons_self).symm]
    · intro before save after split last
      cases before with
      | nil =>
        obtain ⟨rfl, rfl⟩ := List.cons.inj split
        rw [others _ last, read_write, if_pos rfl]
      | cons _ before => exact own before save after (List.cons.inj split).2 last

end Run

/-- For any run of saves of levels and of the progress that fit, in any order and onto any
disk, with a lossless library: no save traps; the last save under each type and UUID, and the
last one of the progress, load as what was saved (a level in the round that is at its file), up
to strings that compare equal, and exactly where no two different strings do; all other files
are as they were. -/
theorem saved_files_load {sets : CharacterSets} (app : Platform sets)
    (encoded : DataCompression.CompressionAlgorithm → List UInt8 → List UInt8)
    (lossless : Lossless app.library encoded) (saves : List Save)
    (fit : ∀ save ∈ saves, Fits app.fs save) (disk : Files sets)
    (allLevels : List (FlatBuffers.LevelData Part.Record)) :
    ∃ calls, ∀ fuel ≥ calls, ∃ disk', saveAll app fuel disk saves = some disk' ∧
      (∀ before save after, saves = before ++ save :: after →
        (∀ later ∈ after, target later ≠ target save) → Loads app fuel allLevels disk' save) ∧
      ∀ url, (∀ save ∈ saves, place app.fs save ≠ url) → disk'.read url = disk.read url := by
  let file (save : Save) : List UInt8 := (tables app save).getD []
  let cost (save : Save) : ℕ := (encoded .lzma (file save)).length + (file save).length + 2
  refine ⟨(saves.map cost).sum, fun fuel enough => ?_⟩
  have lasts : ∀ save ∈ saves, cost save ≤ fuel := fun save member =>
    le_trans (List.single_le_sum (by simp) _ (List.mem_map_of_mem member)) enough
  have writes : ∀ save ∈ saves, ∀ disk, save.run app fuel disk =
      some (disk.write _ (place_proper app.fs save) (encoded .lzma (file save))) := by
    intro save member disk
    obtain ⟨made, is, run⟩ := run_eq lossless (fit save member)
    have same : file save = made := by simp only [file, is, Option.getD_some]
    have cheap : (encoded .lzma (file save)).length + (file save).length + 2 ≤ fuel := lasts save member
    rw [same]
    exact run fuel (by rw [← same]; omega) disk
  obtain ⟨disk', saved, others, own⟩ :=
    saveAll_reads (fun save => encoded .lzma (file save)) writes disk
  refine ⟨disk', saved, ?_, others⟩
  intro before save after split last
  have member : save ∈ saves := by simp [split]
  have apart : ∀ later ∈ after, place app.fs later ≠ place app.fs save := by
    intro later inAfter same
    have inSaves : later ∈ saves := by simp [split, inAfter]
    exact last later inAfter (target_eq_of_place_eq (fit later inSaves) (fit save member) same)
  obtain ⟨made, is, _⟩ := run_eq lossless (fit save member)
  have same : file save = made := by simp only [file, is, Option.getD_some]
  have cheap : (encoded .lzma (file save)).length + (file save).length + 2 ≤ fuel := lasts save member
  exact loads_of_read lossless (fit save member) (same ▸ is) (by omega) allLevels
    (own before save after split apart)

/-- A device with the library that packs runs. -/
def phone : Platform foundationSets := ⟨device, packingLibrary, id⟩

/-- The parts of a level with a line, two wells and a text whose trigger is `nil`. -/
def namedHeap : Heap
  | .levelMetadata => fun _ =>
    ({ levelUUID := some "a", levelNumber := 1, levelName := some "Two wells" } : FlatBuffers.LevelMetadata)
  | .lineData => fun _ =>
    ({ startPosition := some ⟨⟨0x3f000000⟩, ⟨0x3e800000⟩⟩, startVelocity := some ⟨⟨0x3c23d70a⟩, 0⟩
       startThickness := ⟨0x3ccccccd⟩ } : FlatBuffers.LineData)
  | .gravityWellData => fun number =>
    ({ position := some ⟨⟨0x3f000000⟩, ⟨if number = 0 then 0x3e800000 else 0x3f400000⟩⟩, mass := ⟨0x42c80000⟩ } :
      FlatBuffers.GravityWellData)
  | .levelText => fun _ =>
    ({ id := 1, text := some "Two wells", triggerOn := none, nextText := -1 } : FlatBuffers.LevelText)
  | part => fun _ => part.blank

/-- The first well occurs twice. -/
def namedData : FlatBuffers.LevelData fun _ => ℕ :=
  { levelMetadata := some 0, texts := [0], lineData := [0], gravityWells := [0, 1, 0] }

def namedLevel (garbage : ℕ → UInt8) : Save := .level garbage namedHeap namedData .userMade

/-- Progress with two levels, one of them completed. -/
def someProgress (garbage : ℕ → UInt8) : Save := .progress garbage
  ⟨fun number => if number = 0 then { uuid := some "a", completed := true, stars := 3 }
    else { uuid := some "b", locked := true }, 0, [0, 1]⟩

theorem named_fits (garbage : ℕ → UInt8) : Fits device (namedLevel garbage) :=
  ⟨⟨"a", rfl, by decide, by decide, by unfold Accepted; decide⟩, by decide⟩

theorem progress_fits (garbage : ℕ → UInt8) : Fits device (someProgress garbage) :=
  ⟨by decide, by decide⟩

/-- A level saved twice with the progress in between. -/
theorem phone_files_load : ∃ calls, ∀ fuel ≥ calls, ∃ disk',
    saveAll phone fuel Disk.empty
      [namedLevel fun _ => 0, someProgress fun _ => 0, namedLevel fun _ => 1] = some disk' ∧
    Loads phone fuel [] disk' (someProgress fun _ => 0) ∧
    Loads phone fuel [] disk' (namedLevel fun _ => 1) := by
  obtain ⟨calls, holds⟩ := saved_files_load phone _ packing_lossless
    [namedLevel fun _ => 0, someProgress fun _ => 0, namedLevel fun _ => 1]
    (by simp [phone, named_fits, progress_fits]) Disk.empty []
  refine ⟨calls, fun fuel enough => ?_⟩
  obtain ⟨disk', saved, loads, _⟩ := holds fuel enough
  refine ⟨disk', saved, ?_, ?_⟩
  · exact loads [namedLevel fun _ => 0] _ [namedLevel fun _ => 1] rfl
      (by simp [target, namedLevel, someProgress])
  · exact loads [namedLevel fun _ => 0, someProgress fun _ => 0] _ [] rfl (by simp)

end Arthius.Guarantees.StoredFiles
