import Arthius.Guarantees.LevelPaths

/-!
# Levels and the files of others

A saved level goes to one file at most. Whether that file lies in the folder of
its type, and whether it is its own, depends on the UUID alone, which for a
downloaded level is any string: the directories in it must lead back to the
folder, and what follows its last slash must tell it from other levels once the
sanitiser has dropped characters from both.
-/
namespace Arthius.Guarantees.LevelContainment
open Arthius.Lib Arthius.Source Arthius.Source.LevelFiles Arthius.Guarantees.LevelPaths

section Disks
variable {sets : CharacterSets} {Data : Type}

theorem read_write (disk : Disk sets Data) {url : URL sets} (proper : ∀ name ∈ url, slash sets ∉ name)
    (other : URL sets) (data : Data) : (disk.write url proper data).read other = if other = url then some data else disk.read other := by
  simp only [Disk.read, Disk.write, KeyedList.get_put]
  split <;> rfl

@[simp] theorem read_empty (url : URL sets) : (Disk.empty : Disk sets Data).read url = none := rfl

end Disks

section Containment
variable {sets : CharacterSets} {Data : Type} (fs : FileSystem sets) (codec : LevelCodec Data)
variable (type : LevelType) (a b : LevelData)

/-- Saving the level can change the file at `url`: it does on some disk. -/
def Writes (url : URL sets) : Prop :=
  ∃ disk disk', saveLevel fs codec disk (some a) type = some disk' ∧ disk'.read url ≠ disk.read url

/-- One file at most, directly in the folder of the type. -/
structure Contained : Prop where
  single : ∀ p q, Writes fs codec type a p → Writes fs codec type a q → p = q
  inFolder : ∀ p, Writes fs codec type a p → ∃ name, p = folderURL fs type ++ [name]

/-- The file system can hold the file of a level with this UUID. -/
def Accepted (levelUUID : String) : Prop :=
  fs.accepts (levelFolder fs levelUUID type ++ [levelFile sets levelUUID type]) = true

/-- The directories in the UUID, as the sanitiser leaves them, lead from the
folder back to it. A UUID without a slash has none. -/
def LeadsBack : Prop :=
  ∀ levelUUID, uuidOf a = some levelUUID → Accepted fs type levelUUID →
    levelFolder fs levelUUID type = folderURL fs type

/-- Different UUIDs still differ behind their last slash, once sanitised. -/
def LeavesApart : Prop :=
  ∀ uuidA uuidB, uuidOf a = some uuidA → uuidOf b = some uuidB → uuidA ≠ uuidB →
    Accepted fs type uuidA → Accepted fs type uuidB → stem sets uuidA ≠ stem sets uuidB

variable {fs codec type a b}

/-- The only file a save can write is the one its UUID leads to. -/
theorem writes_iff {url : URL sets} : Writes fs codec type a url ↔
    ∃ levelUUID, uuidOf a = some levelUUID ∧ Accepted fs type levelUUID ∧
      url = levelFolder fs levelUUID type ++ [levelFile sets levelUUID type] := by
  constructor
  · rintro ⟨disk, disk', saved, changed⟩
    cases is : uuidOf a with
    | none =>
      rw [saveLevel_none fs codec disk is] at saved
      cases saved
    | some levelUUID =>
      obtain ⟨data, _, writes⟩ := saveLevel_eq fs codec disk is type
      rw [writes] at saved
      split at saved
      · next accepted =>
        cases saved
        rw [read_write] at changed
        split at changed
        · next here => exact ⟨levelUUID, rfl, accepted, here⟩
        · exact absurd rfl changed
      · cases saved
        exact absurd rfl changed
  · rintro ⟨levelUUID, is, accepted, rfl⟩
    obtain ⟨data, _, writes⟩ := saveLevel_eq fs codec Disk.empty is type
    unfold Accepted at accepted
    rw [if_pos accepted] at writes
    refine ⟨Disk.empty, _, writes, ?_⟩
    rw [read_write, if_pos rfl]
    simp

theorem writes_single {p q : URL sets} (first : Writes fs codec type a p)
    (second : Writes fs codec type a q) : p = q := by
  obtain ⟨uuid, is, _, rfl⟩ := writes_iff.mp first
  obtain ⟨uuid', is', _, rfl⟩ := writes_iff.mp second
  cases is.symm.trans is'
  rfl

theorem contained_iff : Contained fs codec type a ↔ LeadsBack fs type a := by
  constructor
  · intro contained levelUUID is accepted
    obtain ⟨name, same⟩ := contained.inFolder _ (writes_iff.mpr ⟨levelUUID, is, accepted, rfl⟩)
    exact (List.append_inj' same rfl).1
  · intro back
    refine ⟨fun p q => writes_single, ?_⟩
    intro p writes
    obtain ⟨levelUUID, is, accepted, rfl⟩ := writes_iff.mp writes
    exact ⟨levelFile sets levelUUID type, by rw [back levelUUID is accepted]⟩

/-- In one folder, two files are the same exactly when the leaves of the UUIDs are. -/
theorem separate_iff (backA : LeadsBack fs type a) (backB : LeadsBack fs type b) :
    (uuidOf a ≠ uuidOf b → ∀ url, ¬ (Writes fs codec type a url ∧ Writes fs codec type b url)) ↔
      LeavesApart fs type a b := by
  constructor
  · intro separate uuidA uuidB isA isB differ acceptedA acceptedB same
    have distinct : uuidOf a ≠ uuidOf b := by
      rw [isA, isB]
      exact fun equal => differ (Option.some.inj equal)
    have samePlace : levelFolder fs uuidA type ++ [levelFile sets uuidA type] =
        levelFolder fs uuidB type ++ [levelFile sets uuidB type] := by
      rw [backA uuidA isA acceptedA, backB uuidB isB acceptedB, levelFile, levelFile, same]
    apply separate distinct _
    exact ⟨writes_iff.mpr ⟨uuidA, isA, acceptedA, rfl⟩,
      writes_iff.mpr ⟨uuidB, isB, acceptedB, samePlace⟩⟩
  · intro apart distinct url both
    obtain ⟨uuidA, isA, acceptedA, hereA⟩ := writes_iff.mp both.1
    obtain ⟨uuidB, isB, acceptedB, hereB⟩ := writes_iff.mp both.2
    have differ : uuidA ≠ uuidB := by
      rintro rfl
      exact distinct (isA.trans isB.symm)
    have sameFile := (List.append_inj' (hereA.symm.trans hereB) rfl).2
    have sameStem := (List.append_inj' (List.cons.inj sameFile).1 rfl).1
    exact apart uuidA uuidB isA isB differ acceptedA acceptedB sameStem

end Containment

section Others
variable {sets : CharacterSets} (fs : FileSystem sets)

theorem folderURL_injective {a b : LevelType} (same : folderURL fs a = folderURL fs b) : a = b := by
  have names := (List.cons.inj (List.append_cancel_left same)).1
  have texts := withoutInvalid_injective sets (folder_word a) (folder_word b) names
  exact folder_injective (String.toList_inj.mp texts)

theorem removeSlashesAtBeginning_subset (text : FileName sets) :
    removeSlashesAtBeginning sets text ⊆ text := by
  induction text with
  | nil => exact List.Subset.refl _
  | cons c rest ih =>
    unfold removeSlashesAtBeginning
    split
    · exact List.subset_cons_of_subset c ih
    · exact List.Subset.refl _

/-- A file named without a slash lies in the documents themselves. -/
theorem length_createURL {path : String} (absent : '/' ∉ path.toList) {url : URL sets}
    (created : Disk.createURL fs path = some url) : url.length ≤ fs.documents.length + 1 := by
  obtain ⟨text, valid, rfl⟩ := Option.map_eq_some_iff.mp created
  have noSlash : slash sets ∉ text := by
    intro member
    simp only [getValidFilePath] at valid
    split at valid
    · cases valid
      have stripped := removeSlashesAtBeginning_subset _ member
      obtain ⟨c, inPath, kept⟩ := List.mem_filterMap.mp stripped
      split at kept
      · cases kept
        exact absent inPath
      · cases kept
    · cases valid
  rw [FilePath.resolve_name _ _ _ noSlash, FilePath.descend]
  split
  · omega
  · split
    · simp only [List.length_dropLast]
      omega
    · simp

end Others

/-- For any two levels saved with one type: each goes to one file at most, directly
in the folder of the type, and with different UUIDs never to the same one, if and
only if both UUIDs lead back to the folder and they differ behind their last
slash. Then a downloaded level leaves every file in another folder, and the
progress file, as they were. -/
theorem saved_levels_contained_iff {sets : CharacterSets} {Data : Type} (fs : FileSystem sets)
    (codec : LevelCodec Data) (type : LevelType) (a b : LevelData) :
    ((Contained fs codec type a ∧ Contained fs codec type b ∧
        (uuidOf a ≠ uuidOf b → ∀ url, ¬ (Writes fs codec type a url ∧ Writes fs codec type b url))) ↔
      LeadsBack fs type a ∧ LeadsBack fs type b ∧ LeavesApart fs type a b) ∧
    (LeadsBack fs .publicMade a → ∀ disk disk',
      saveLevel fs codec disk (some a) .publicMade = some disk' →
      (∀ other name, other ≠ .publicMade →
        disk'.read (folderURL fs other ++ [name]) = disk.read (folderURL fs other ++ [name])) ∧
      ∀ url, Disk.createURL fs progressFile = some url → disk'.read url = disk.read url) := by
  constructor
  · rw [contained_iff, contained_iff]
    constructor
    · intro contained
      exact ⟨contained.1, contained.2.1, (separate_iff contained.1 contained.2.1).mp contained.2.2⟩
    · intro condition
      exact ⟨condition.1, condition.2.1, (separate_iff condition.1 condition.2.1).mpr condition.2.2⟩
  · intro back disk disk' saved
    have contained : Contained fs codec .publicMade a := contained_iff.mpr back
    constructor
    · intro other name differs
      by_contra changed
      obtain ⟨own, same⟩ := contained.inFolder _ ⟨disk, disk', saved, changed⟩
      exact differs (folderURL_injective fs (List.append_inj' same rfl).1)
    · intro url created
      by_contra changed
      obtain ⟨own, same⟩ := contained.inFolder _ ⟨disk, disk', saved, changed⟩
      have short := length_createURL fs (by decide) created
      rw [same, folderURL] at short
      simp at short

/-- Foundation's sets as far as controls, line ends and noncharacters go. -/
def foundationSets : CharacterSets where
  newlines c := c.toNat = 0x85 || c.toNat = 0x2028 || c.toNat = 0x2029 ||
    (10 ≤ c.toNat && c.toNat ≤ 13)
  illegalCharacters c := 0xFFFE ≤ c.toNat % 0x10000
  controlCharacters c := c.toNat < 32 || (127 ≤ c.toNat && c.toNat < 160)
  printable := by
    intro c low high
    have small : c.toNat % 0x10000 = c.toNat := Nat.mod_eq_of_lt (by omega)
    simp only [small]
    refine ⟨?_, ?_, ?_⟩ <;> simp <;> omega

/-- File names may have at most 255 characters. -/
def device : FileSystem foundationSets where
  documents := [withoutInvalid _ "Documents".toList]
  accepts url := url.all fun name => name.length ≤ 255
  proper := by decide

/-- Levels as their own bytes. -/
def plainCodec : LevelCodec LevelData where
  makeData := some
  compress := some
  decompress := some
  makeLevel level := some (some level)
  encodes level := ⟨level, level, rfl, rfl⟩

noncomputable def levelNamed (levelUUID : String) : LevelData :=
  { levelMetadata := some { levelUUID := some levelUUID, levelThumbnail := some ⟨0, 0, 1, 1⟩ },
    propFrame := some ⟨0, 0, 1, 1⟩ }

/-- Downloaded as a public level, it is written over the file of the user's level x. -/
theorem upward_path_escapes :
    Writes device plainCodec .publicMade (levelNamed "../UserLevels/x")
      (folderURL device .userMade ++ [levelFile foundationSets "x" .userMade]) ∧
    ¬ Contained device plainCodec .publicMade (levelNamed "../UserLevels/x") := by
  have place : levelFolder device "../UserLevels/x" .publicMade = folderURL device .userMade := by decide
  have file : levelFile foundationSets "../UserLevels/x" .publicMade = levelFile foundationSets "x" .userMade := by
    decide
  have accepted : Accepted device .publicMade "../UserLevels/x" := by
    unfold Accepted
    decide
  have writes : Writes device plainCodec .publicMade (levelNamed "../UserLevels/x")
      (folderURL device .userMade ++ [levelFile foundationSets "x" .userMade]) :=
    writes_iff.mpr ⟨_, rfl, accepted, by rw [place, file]⟩
  refine ⟨writes, ?_⟩
  intro contained
  obtain ⟨name, same⟩ := contained.inFolder _ writes
  have wrong := folderURL_injective device (List.append_inj' same rfl).1
  cases wrong

-- The sanitiser drops the colon, so these two levels share one file.
example : stem foundationSets "a:" = stem foundationSets "a" := by decide

end Arthius.Guarantees.LevelContainment
