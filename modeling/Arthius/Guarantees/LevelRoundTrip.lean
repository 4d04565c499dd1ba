import Arthius.Guarantees.LevelContainment

/-!
# Saved levels read back

After any saves of one type, the folder of the type holds one file for each UUID
saved and the other files as they were. Reading them gives the last level saved
under each UUID, except for its conditions: `saveLevel` puts a distance of 200
and a time of 5 in their place.
-/
namespace Arthius.Guarantees.LevelRoundTrip
open Arthius.Lib Arthius.Source Arthius.Source.LevelFiles Arthius.Guarantees.LevelPaths
open Arthius.Guarantees.LevelContainment

section Contents
variable {sets : CharacterSets} {Data : Type}

theorem mem_contents {disk : Disk sets Data} {dir : URL sets} {name : FileName sets} :
    name ∈ disk.contents dir ↔ (disk.read (dir ++ [name])).isSome := by
  have parts : ∀ url : URL sets,
      (if url.dropLast = dir then url.getLast? else none) = some name ↔ url = dir ++ [name] := by
    intro url
    constructor
    · intro last
      split at last
      · next front => rw [← front, List.dropLast_append_getLast? name last]
      · cases last
    · rintro rfl
      simp
  simp only [Disk.contents, List.mem_filterMap, parts, Disk.read, Option.isSome_map,
    KeyedList.get_isSome]

/-- Files at different paths in one directory have different names. -/
theorem nodup_contents (disk : Disk sets Data) (dir : URL sets) : (disk.contents dir).Nodup := by
  have whole : ∀ files : List (URL sets × Data),
      ((files.filterMap fun file => if file.1.dropLast = dir then file.1.getLast? else none).map
        fun name => dir ++ [name]).Sublist (files.map Prod.fst) := by
    intro files
    induction files with
    | nil => exact List.Sublist.slnil
    | cons file rest ih =>
      rw [List.filterMap_cons, List.map_cons]
      split
      · exact List.Sublist.cons _ ih
      · next name last =>
        split at last
        · next front =>
          have url : dir ++ [name] = file.1 := by rw [← front, List.dropLast_append_getLast? name last]
          rw [List.map_cons, url]
          exact ih.cons_cons file.1
        · cases last
  exact ((whole disk.files).nodup disk.distinct).of_map _

theorem slash_notMem_of_mem_contents {disk : Disk sets Data} {dir : URL sets} {name : FileName sets}
    (member : name ∈ disk.contents dir) : slash sets ∉ name := by
  have present := mem_contents.mp member
  simp only [Disk.read, Option.isSome_map, KeyedList.get_isSome] at present
  obtain ⟨file, inFiles, url⟩ := present
  apply disk.proper file inFiles
  rw [url]
  exact List.mem_append_right _ (List.mem_singleton_self name)

end Contents

section Load
variable {sets : CharacterSets} {Data : Type} (fs : FileSystem sets) (codec : LevelCodec Data)
variable (type : LevelType)

theorem withoutInvalid_name (name : FileName sets) :
    withoutInvalid sets (name.map Subtype.val) = name := by
  induction name with
  | nil => rfl
  | cons c rest ih =>
    have later : (rest.map Subtype.val).filterMap (fun c =>
        if valid : sets.invalid c = false then some (⟨c, valid⟩ : FileChar sets) else none) = rest := ih
    simp only [withoutInvalid, List.map_cons, List.filterMap_cons, c.property, dite_true, later]

/-- A file with the extension of the type is read at its own path. -/
theorem retrieve_eq (disk : Disk sets Data) {name : FileName sets} (noSlash : slash sets ∉ name)
    (matches_ : (FilePath.pathExtension (dot sets) name).map Subtype.val =
      (levelExtensionForType type).toList) :
    Disk.retrieve fs disk (getFolderForLevelType type ++ "/" ++
      String.ofList (name.map Subtype.val)) = disk.read (folderURL fs type ++ [name]) := by
  have word := extension_word type
  obtain ⟨letter, inExtension⟩ := List.exists_mem_of_ne_nil _ (extension_ne_nil type)
  rw [← matches_] at inExtension
  obtain ⟨c, member, rfl⟩ := List.mem_map.mp inExtension
  have notDot : c ≠ dot sets := by
    rintro rfl
    rw [matches_] at inExtension
    exact (word.bounds inExtension).2.2.2.2 rfl
  rw [Disk.retrieve, createURL_folder, String.toList_ofList, withoutInvalid_name,
    FilePath.resolve_name _ _ _ noSlash,
    FilePath.descend_of_mem _ _ (FilePath.mem_of_mem_pathExtension _ member) notDot]
  rfl

/-- What a file contributes depends on its own bytes alone. -/
theorem loadFile_congr {disk disk' : Disk sets Data} {name : FileName sets} (noSlash : slash sets ∉ name)
    (same : disk'.read (folderURL fs type ++ [name]) = disk.read (folderURL fs type ++ [name])) :
    loadFile fs codec disk' type name = loadFile fs codec disk type name := by
  unfold loadFile
  split
  · next matches_ => rw [retrieve_eq fs type disk noSlash matches_, retrieve_eq fs type disk' noSlash matches_, same]
  · rfl

theorem getAllLevels_congr {disk disk' : Disk sets Data} {names : List (FileName sets)}
    (same : ∀ name ∈ names, loadFile fs codec disk' type name = loadFile fs codec disk type name) :
    getAllLevels fs codec disk' type names = getAllLevels fs codec disk type names := by
  induction names with
  | nil => rfl
  | cons name rest ih =>
    have later := ih fun other member => same other (List.mem_cons_of_mem name member)
    simp only [getAllLevels, same name List.mem_cons_self, later]

theorem getAllLevels_append {disk : Disk sets Data} {front back : List (FileName sets)}
    {first second : List LevelData} (loadedFirst : getAllLevels fs codec disk type front = some first)
    (loadedSecond : getAllLevels fs codec disk type back = some second) :
    getAllLevels fs codec disk type (front ++ back) = some (first ++ second) := by
  induction front generalizing first with
  | nil =>
    cases loadedFirst
    exact loadedSecond
  | cons name rest ih =>
    obtain ⟨loaded, one, later⟩ := Option.bind_eq_some_iff.mp loadedFirst
    obtain ⟨levels, more, joined⟩ := Option.bind_eq_some_iff.mp later
    cases joined
    simp only [List.cons_append, getAllLevels, one, ih more, bind, Option.bind_some, List.append_assoc]

theorem getAllLevels_isSome {disk : Disk sets Data} {names : List (FileName sets)} :
    (getAllLevels fs codec disk type names).isSome ↔
      ∀ name ∈ names, (loadFile fs codec disk type name).isSome := by
  induction names with
  | nil => exact iff_of_true rfl (by simp)
  | cons name rest ih =>
    rw [List.forall_mem_cons, ← ih]
    simp only [getAllLevels, bind]
    cases loadFile fs codec disk type name with
    | none => simp
    | some loaded => cases getAllLevels fs codec disk type rest <;> simp

/-- A file of the folder is no level of the type, or cannot be retrieved, or its
data decompresses. -/
def Decompresses (disk : Disk sets Data) (name : FileName sets) : Prop :=
  (FilePath.pathExtension (dot sets) name).map Subtype.val = (levelExtensionForType type).toList →
    ∀ datao, disk.read (folderURL fs type ++ [name]) = some datao → (codec.decompress datao).isSome

theorem loadFile_isSome {disk : Disk sets Data} {name : FileName sets} (noSlash : slash sets ∉ name) :
    (loadFile fs codec disk type name).isSome ↔ Decompresses fs codec type disk name := by
  unfold loadFile Decompresses
  split
  · next matches_ =>
    rw [retrieve_eq fs type disk noSlash matches_]
    cases disk.read (folderURL fs type ++ [name]) <;> simp [matches_]
  · next other => exact iff_of_true rfl fun matches_ => absurd matches_ other

/-- The order in which the directory lists its files only reorders the levels. -/
theorem getAllLevels_perm {disk : Disk sets Data} {names names' : List (FileName sets)}
    (perm : names.Perm names') {levels : List LevelData}
    (loaded : getAllLevels fs codec disk type names = some levels) :
    ∃ levels', getAllLevels fs codec disk type names' = some levels' ∧ levels.Perm levels' := by
  induction perm generalizing levels with
  | nil => exact ⟨levels, loaded, .refl levels⟩
  | cons name _ ih =>
    obtain ⟨first, one, later⟩ := Option.bind_eq_some_iff.mp loaded
    obtain ⟨rest, more, joined⟩ := Option.bind_eq_some_iff.mp later
    cases joined
    obtain ⟨rest', more', same⟩ := ih more
    exact ⟨first ++ rest', by simp only [getAllLevels, one, more', bind, Option.bind_some],
      same.append_left first⟩
  | swap a b names =>
    obtain ⟨first, one, later⟩ := Option.bind_eq_some_iff.mp loaded
    obtain ⟨rest, more, joined⟩ := Option.bind_eq_some_iff.mp later
    obtain ⟨second, two, last⟩ := Option.bind_eq_some_iff.mp more
    obtain ⟨tail, end_, joined'⟩ := Option.bind_eq_some_iff.mp last
    cases joined
    cases joined'
    refine ⟨second ++ (first ++ tail), by simp only [getAllLevels, one, two, end_, bind, Option.bind_some], ?_⟩
    rw [← List.append_assoc, ← List.append_assoc]
    exact List.perm_append_comm.append_right tail
  | trans _ _ ih ih' =>
    obtain ⟨middle, loaded', same⟩ := ih loaded
    obtain ⟨levels', loaded'', same'⟩ := ih' loaded'
    exact ⟨levels', loaded'', same.trans same'⟩

end Load

section Saves
variable {sets : CharacterSets} {Data : Type} (fs : FileSystem sets) (codec : LevelCodec Data)
variable (type : LevelType)

noncomputable def saveAll : Disk sets Data → List LevelData → Option (Disk sets Data)
  | disk, [] => some disk
  | disk, level :: rest =>
    (saveLevel fs codec disk (some level) type).bind fun disk' => saveAll disk' rest

/-- The last level saved under each UUID, after those of `saved`. -/
def lastSaved (saved saves : List LevelData) : List LevelData :=
  saves.foldl (fun saved level => KeyedList.put uuidOf level saved) saved

/-- The level has a well-formed UUID, and the file system can hold its file. -/
def Savable (level : LevelData) : Prop :=
  ∃ levelUUID, uuidOf level = some levelUUID ∧ levelUUID.toList ≠ [] ∧ Word levelUUID.toList ∧
    Accepted fs type levelUUID

variable (sets) in
def fileOf (level : LevelData) : FileName sets := levelFile sets ((uuidOf level).getD "") type

variable {fs type}

theorem stem_word {levelUUID : String} (word : Word levelUUID.toList) :
    stem sets levelUUID = withoutInvalid sets levelUUID.toList :=
  FilePath.leaf_of_notMem _ (slash_notMem_word sets word)

theorem levelFolder_word {levelUUID : String} (word : Word levelUUID.toList) :
    levelFolder fs levelUUID type = folderURL fs type := by
  rw [levelFolder, FilePath.directory_of_notMem _ (slash_notMem_word sets word), FilePath.resolve_nil]

theorem fileOf_injective {a b : LevelData} (savableA : Savable fs type a) (savableB : Savable fs type b)
    (same : fileOf sets type a = fileOf sets type b) : uuidOf a = uuidOf b := by
  obtain ⟨uuidA, isA, _, wordA, _⟩ := savableA
  obtain ⟨uuidB, isB, _, wordB, _⟩ := savableB
  simp only [fileOf, isA, isB, Option.getD_some, levelFile] at same
  have stems := (List.append_inj' same rfl).1
  rw [stem_word wordA, stem_word wordB] at stems
  rw [isA, isB, String.toList_inj.mp (withoutInvalid_injective sets wordA wordB stems)]

/-- Where the folder stands after some saves: every file but those of the saved
levels is as it was, and theirs read back as what `saveLevel` put together. -/
structure Holds (fs : FileSystem sets) (codec : LevelCodec Data) (type : LevelType)
    (start disk : Disk sets Data) (saved : List LevelData) : Prop where
  others : ∀ name, name ∉ saved.map (fileOf sets type) →
    disk.read (folderURL fs type ++ [name]) = start.read (folderURL fs type ++ [name])
  own : ∀ level ∈ saved, ∃ data, disk.read (folderURL fs type ++ [fileOf sets type level]) = some data ∧
    (codec.decompress data).map (fun data => ((codec.makeLevel data).bind id).toList) =
      some [stored level]
  savable : ∀ level ∈ saved, Savable fs type level
  distinct : (saved.map uuidOf).Nodup

variable {codec}

/-- The bytes written for a level read back as what was put together. -/
theorem reads_of_lossless (lossless : codec.Lossless) {level : LevelData} {data : Data}
    (made : (codec.makeData level).bind codec.compress = some data) :
    (codec.decompress data).map (fun data => ((codec.makeLevel data).bind id).toList) = some [level] := by
  obtain ⟨plain, encoded, packed⟩ := Option.bind_eq_some_iff.mp made
  obtain ⟨unpacked, read⟩ := lossless level plain data encoded packed
  rw [unpacked, Option.map_some, read]
  rfl

theorem saveLevel_holds (lossless : codec.Lossless) {start disk : Disk sets Data} {saved : List LevelData}
    (holds : Holds fs codec type start disk saved) {level : LevelData} (savable : Savable fs type level) :
    ∃ disk', saveLevel fs codec disk (some level) type = some disk' ∧
      Holds fs codec type start disk' (KeyedList.put uuidOf level saved) := by
  obtain ⟨levelUUID, is, proper, word, accepted⟩ := savable
  have savable : Savable fs type level := ⟨levelUUID, is, proper, word, accepted⟩
  obtain ⟨data, made, writes⟩ := saveLevel_eq fs codec disk is type
  have reads := reads_of_lossless lossless made
  unfold Accepted at accepted
  rw [if_pos accepted] at writes
  have place : levelFolder fs levelUUID type ++ [levelFile sets levelUUID type] =
      folderURL fs type ++ [fileOf sets type level] := by
    rw [levelFolder_word word, fileOf, is, Option.getD_some]
  have read : ∀ name, (disk.write _ (levelURL_proper fs levelUUID type) data).read
      (folderURL fs type ++ [name]) = if name = fileOf sets type level then some data
        else disk.read (folderURL fs type ++ [name]) := by
    intro name
    rw [read_write, place]
    simp only [List.append_cancel_left_eq, List.cons.injEq, and_true]
  refine ⟨_, writes, ?_, ?_, ?_, KeyedList.nodup_put uuidOf level holds.distinct⟩
  · intro name absent
    have notOwn : name ≠ fileOf sets type level := by
      rintro rfl
      exact absent (List.mem_map_of_mem (KeyedList.mem_put_self uuidOf level saved))
    rw [read, if_neg notOwn]
    apply holds.others
    intro member
    obtain ⟨other, inSaved, rfl⟩ := List.mem_map.mp member
    have differs : uuidOf other ≠ uuidOf level := fun same => notOwn (by rw [fileOf, fileOf, same])
    exact absent (List.mem_map_of_mem ((KeyedList.mem_put uuidOf holds.distinct).mpr (.inr ⟨inSaved, differs⟩)))
  · intro other member
    rcases (KeyedList.mem_put uuidOf holds.distinct).mp member with rfl | ⟨inSaved, differs⟩
    · exact ⟨data, by rw [read, if_pos rfl], reads⟩
    · have notSame : fileOf sets type other ≠ fileOf sets type level := fun same =>
        differs (fileOf_injective (holds.savable other inSaved) savable same)
      rw [read, if_neg notSame]
      exact holds.own other inSaved
  · intro other member
    rcases KeyedList.mem_of_mem_put uuidOf member with rfl | inSaved
    · exact savable
    · exact holds.savable other inSaved

theorem saveAll_holds (lossless : codec.Lossless) {start disk : Disk sets Data} {saved saves : List LevelData}
    (holds : Holds fs codec type start disk saved) (savable : ∀ level ∈ saves, Savable fs type level) :
    ∃ disk', saveAll fs codec type disk saves = some disk' ∧
      Holds fs codec type start disk' (lastSaved saved saves) := by
  induction saves generalizing disk saved with
  | nil => exact ⟨disk, rfl, holds⟩
  | cons level rest ih =>
    obtain ⟨disk', written, holds'⟩ := saveLevel_holds lossless holds (savable level List.mem_cons_self)
    obtain ⟨disk'', done, holds''⟩ := ih holds' fun other member => savable other (List.mem_cons_of_mem level member)
    exact ⟨disk'', by rw [saveAll, written, Option.bind_some, done], holds''⟩

/-- The file of a saved level contributes exactly what was put together. -/
theorem loadFile_saved {disk : Disk sets Data} {level : LevelData} (savable : Savable fs type level)
    {data : Data} (present : disk.read (folderURL fs type ++ [fileOf sets type level]) = some data)
    (reads : (codec.decompress data).map (fun data => ((codec.makeLevel data).bind id).toList) =
      some [stored level]) :
    loadFile fs codec disk type (fileOf sets type level) = some [stored level] := by
  obtain ⟨levelUUID, is, proper, word, _⟩ := savable
  have file : fileOf sets type level = levelFile sets levelUUID type := by
    rw [fileOf, is, Option.getD_some]
  have noSlash : slash sets ∉ fileOf sets type level := by
    apply levelURL_proper fs levelUUID type
    rw [file]
    exact List.mem_append_right _ (List.mem_singleton_self _)
  have hasStem : stem sets levelUUID ≠ [] := by
    rw [stem_word word]
    exact withoutInvalid_ne_nil sets word proper
  have noDot : dot sets ∉ extensionName sets type := dot_notMem_word sets (extension_word type)
  have matches_ : (FilePath.pathExtension (dot sets) (fileOf sets type level)).map Subtype.val =
      (levelExtensionForType type).toList := by
    rw [file, levelFile, FilePath.pathExtension_append _ hasStem noDot, extensionName,
      withoutInvalid_val sets (extension_word type)]
  rw [loadFile, if_pos matches_, retrieve_eq fs type disk noSlash matches_, present]
  exact reads

theorem getAllLevels_saved {start disk : Disk sets Data} {saved : List LevelData}
    (holds : Holds fs codec type start disk saved) :
    getAllLevels fs codec disk type (saved.map (fileOf sets type)) = some (saved.map stored) := by
  have loads : ∀ level ∈ saved, loadFile fs codec disk type (fileOf sets type level) = some [stored level] := by
    intro level member
    obtain ⟨data, present, reads⟩ := holds.own level member
    exact loadFile_saved (holds.savable level member) present reads
  clear holds
  induction saved with
  | nil => rfl
  | cons level rest ih =>
    have later := ih fun other member => loads other (List.mem_cons_of_mem level member)
    simp only [List.map_cons, getAllLevels, loads level List.mem_cons_self, later, bind,
      Option.bind_some, List.singleton_append]

/-- The folder lists the other files it listed before, and one file for each UUID. -/
theorem contents_perm {start disk : Disk sets Data} {saved : List LevelData}
    (holds : Holds fs codec type start disk saved) {names names' : List (FileName sets)}
    (before : Listing fs start type names) (after : Listing fs disk type names') :
    names'.Perm (names.filter (· ∉ saved.map (fileOf sets type)) ++ saved.map (fileOf sets type)) := by
  have distinctNames : names.Nodup := before.nodup_iff.mpr (nodup_contents start _)
  have distinctNames' : names'.Nodup := after.nodup_iff.mpr (nodup_contents disk _)
  have distinctOwn : (saved.map (fileOf sets type)).Nodup := by
    apply List.Nodup.map_on _ holds.distinct.of_map
    intro a inA b inB same
    exact List.inj_on_of_nodup_map holds.distinct inA inB
      (fileOf_injective (holds.savable a inA) (holds.savable b inB) same)
  have listed : ∀ name, name ∈ names' ↔
      name ∈ names ∧ name ∉ saved.map (fileOf sets type) ∨ name ∈ saved.map (fileOf sets type) := by
    intro name
    rw [after.mem_iff, before.mem_iff, mem_contents, mem_contents]
    by_cases own : name ∈ saved.map (fileOf sets type)
    · obtain ⟨level, member, rfl⟩ := List.mem_map.mp own
      obtain ⟨data, present, _⟩ := holds.own level member
      simp [present, own]
    · simp [holds.others name own, own]
  rw [List.perm_ext_iff_of_nodup distinctNames']
  · intro name
    rw [listed, List.mem_append, List.mem_filter, decide_eq_true_eq]
  · apply List.Nodup.append (distinctNames.filter _) distinctOwn
    intro name other own
    simp only [List.mem_filter, decide_eq_true_eq] at other
    exact other.2 own

/-- What `saveLevel` puts together is the level itself exactly when its
conditions are a distance of 200 and a time of 5. -/
theorem map_stored_perm_iff {saved : List LevelData} : (saved.map stored).Perm saved ↔
    ∀ level ∈ saved, level.levelConditions = some ⟨200, 5⟩ := by
  constructor
  · intro perm level member
    obtain ⟨original, _, rfl⟩ := List.mem_map.mp (perm.mem_iff.mpr member)
    rfl
  · intro same
    have each : ∀ level ∈ saved, stored level = level := by
      intro level member
      rw [stored, ← same level member]
    rw [List.map_congr_left each, List.map_id']

/-- Whether the files that no level was saved to can be loaded. -/
theorem getAllLevels_isSome_others (codec : LevelCodec Data) {disk : Disk sets Data} {names : List (FileName sets)}
    (before : Listing fs disk type names) (own : List (FileName sets)) :
    (getAllLevels fs codec disk type (names.filter (· ∉ own))).isSome ↔
      ∀ name ∈ names, name ∉ own → Decompresses fs codec type disk name := by
  rw [getAllLevels_isSome fs codec type]
  simp only [List.mem_filter, decide_eq_true_eq, and_imp]
  refine forall_congr' fun name => forall_congr' fun listed => forall_congr' fun _ => ?_
  exact loadFile_isSome fs codec type (slash_notMem_of_mem_contents (before.mem_iff.mp listed))

/-- What can be read back at all, and whatever order the folder is listed in, is the
levels of the other files and, for each UUID, what was put together from the last
level saved. -/
theorem read_back (lossless : codec.Lossless) (disk : Disk sets Data) {saves : List LevelData}
    (savable : ∀ level ∈ saves, Savable fs type level)
    {names : List (FileName sets)} (before : Listing fs disk type names) :
    ∃ disk', saveAll fs codec type disk saves = some disk' ∧
      ∀ names', Listing fs disk' type names' →
        ((getAllLevels fs codec disk' type names').isSome ↔
          ∀ name ∈ names, name ∉ (lastSaved [] saves).map (fileOf sets type) →
            Decompresses fs codec type disk name) ∧
        ∀ others, getAllLevels fs codec disk type
            (names.filter (· ∉ (lastSaved [] saves).map (fileOf sets type))) = some others →
          ∃ levels, getAllLevels fs codec disk' type names' = some levels ∧
            levels.Perm (others ++ (lastSaved [] saves).map stored) := by
  have start : Holds fs codec type disk disk [] :=
    ⟨fun _ _ => rfl, by simp, by simp, List.nodup_nil⟩
  obtain ⟨disk', saved, holds⟩ := saveAll_holds lossless start savable
  refine ⟨disk', saved, fun names' after => ?_⟩
  have perm := contents_perm holds before after
  have sameOthers : getAllLevels fs codec disk' type
        (names.filter (· ∉ (lastSaved [] saves).map (fileOf sets type))) =
      getAllLevels fs codec disk type
        (names.filter (· ∉ (lastSaved [] saves).map (fileOf sets type))) := by
    apply getAllLevels_congr fs codec type
    intro name member
    obtain ⟨listed, other⟩ := List.mem_filter.mp member
    have noSlash := slash_notMem_of_mem_contents (before.mem_iff.mp listed)
    exact loadFile_congr fs codec type noSlash (holds.others name (by simpa using other))
  have own := getAllLevels_saved holds
  constructor
  · have ownLoads := (getAllLevels_isSome fs codec type).mp (Option.isSome_iff_exists.mpr ⟨_, own⟩)
    have othersLoad := getAllLevels_isSome_others codec before
      ((lastSaved [] saves).map (fileOf sets type))
    rw [getAllLevels_isSome fs codec type, ← othersLoad, ← sameOthers, getAllLevels_isSome fs codec type]
    constructor
    · exact fun all name member => all name (perm.mem_iff.mpr (List.mem_append_left _ member))
    · intro all name member
      rcases List.mem_append.mp (perm.mem_iff.mp member) with other | isOwn
      · exact all name other
      · exact ownLoads name isOwn
  · intro others readable
    have whole := getAllLevels_append fs codec type (sameOthers.trans readable) own
    obtain ⟨levels, loaded, same⟩ := getAllLevels_perm fs codec type perm.symm whole
    exact ⟨levels, loaded, same.symm⟩

end Saves

/-- A level as the editor makes it: its conditions are zero. -/
noncomputable def editedLevel : LevelData :=
  { levelMetadata := some { levelUUID := some "a" }, levelConditions := some {} }

theorem named_savable {level : LevelData} (is : uuidOf level = some "a") :
    Savable device .userMade level :=
  ⟨"a", is, by decide, by decide, by unfold Accepted; decide⟩

theorem empty_listing :
    Listing device (Disk.empty : Disk foundationSets LevelData) .userMade [] := .nil

theorem plainCodec_lossless : plainCodec.Lossless := by
  rintro level data compressed ⟨⟩ ⟨⟩
  exact ⟨rfl, rfl⟩

end Arthius.Guarantees.LevelRoundTrip
