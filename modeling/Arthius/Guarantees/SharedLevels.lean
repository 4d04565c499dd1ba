import Arthius.Source.SharedLevels
import Arthius.Guarantees.StoredFiles

/-!
# What is downloaded was saved

Any number of devices save, publish and download levels, and storage takes files from all of
them in any order. Whatever it holds under a UUID is the file that its device had last saved
under that UUID, so a download hands over that level, through the sanitised path of the save,
the path of the upload, the compression and the binary format. All devices have one compression:
`encoded` is what each of their libraries makes of the data.
-/
namespace Arthius.Guarantees.SharedLevels
open Arthius.Lib Arthius.Source Arthius.Source.FlatBuffers Arthius.Source.StoredFiles
open Arthius.Source.SharedLevels
open Arthius.Source.LevelFiles hiding newLevelData saveLevel loadFile
open Arthius.Source.PublishLevel (levelRef)
open Arthius.Guarantees.LevelPaths Arthius.Guarantees.LevelContainment
open Arthius.Guarantees.Compression
open Arthius.Guarantees.LevelRoundTrip (stem_word)
open Arthius.Guarantees.StoredFiles

section Paths
variable {sets : CharacterSets} (fs : FileSystem sets)

/-- The characters of the names of a path. -/
def letters (url : URL sets) : List (List Char) := url.map fun name => name.map Subtype.val

theorem letters_injective : Function.Injective (@letters sets) :=
  List.map_injective_iff.mpr (List.map_injective_iff.mpr Subtype.val_injective)

theorem fileAt_letters (disk : Files sets) (url : URL sets) :
    fileAt disk (letters url) = disk.read url := by
  have same : ∀ file : URL sets × List UInt8,
      decide (file.1.map (fun name => name.map Subtype.val) = letters url) =
        decide (file.1 = url) :=
    fun file => decide_eq_decide.mpr (letters_injective.eq_iff (a := file.1))
  simp only [fileAt, Disk.read, KeyedList.get, same]

/-- The path of an upload leads to the file of the save. -/
theorem getLevelPath_word {uuid : String} (word : Word uuid.toList) (type : LevelType) :
    getLevelPath fs uuid type = letters (folderURL fs type ++ [levelFile sets uuid type]) := by
  have noSlash : ∀ {text : List Char}, Word text → '/' ∉ text :=
    fun word member => (word.bounds member).2.2.2.1 rfl
  obtain ⟨c, member⟩ := List.exists_mem_of_ne_nil _ (folder_ne_nil type)
  obtain ⟨e, inside⟩ := List.exists_mem_of_ne_nil _ (extension_ne_nil type)
  have text : (levelPath uuid type).toList = (getFolderForLevelType type).toList ++
      '/' :: (uuid.toList ++ '.' :: (levelExtensionForType type).toList) := by
    simp [levelPath, String.toList_append]
  have absent : '/' ∉ uuid.toList ++ '.' :: (levelExtensionForType type).toList := by
    simp [noSlash word, noSlash (extension_word type)]
  have inName : e ∈ uuid.toList ++ '.' :: (levelExtensionForType type).toList := by simp [inside]
  rw [getLevelPath, text, FilePath.resolve_append,
    FilePath.resolve_name _ _ _ (noSlash (folder_word type)), FilePath.resolve_name _ _ _ absent,
    FilePath.descend_of_mem _ _ member ((folder_word type).bounds member).2.2.2.2,
    FilePath.descend_of_mem _ _ inName ((extension_word type).bounds inside).2.2.2.2]
  simp only [letters, folderURL, levelFile, extensionName, stem_word word, List.map_append,
    List.map_cons, List.map_nil, withoutInvalid_val sets word,
    withoutInvalid_val sets (folder_word type), withoutInvalid_val sets (extension_word type)]
  rfl

end Paths

/-- What a device had last saved of its own under a UUID. -/
def lastSave (uuid : String) (saves : List Save) : Option Save :=
  saves.reverse.find? fun save => target save = some (.userMade, some uuid)

theorem lastSave_concat (uuid : String) (saves : List Save) (save : Save) :
    lastSave uuid (saves ++ [save]) =
      if target save = some (.userMade, some uuid) then some save else lastSave uuid saves := by
  by_cases own : target save = some (.userMade, some uuid) <;> simp [lastSave, own]

theorem target_of_lastSave {uuid : String} {saves : List Save} {save : Save}
    (last : lastSave uuid saves = some save) : target save = some (.userMade, some uuid) := by
  simpa using List.find?_some last

theorem mem_of_lastSave {uuid : String} {saves : List Save} {save : Save}
    (last : lastSave uuid saves = some save) : save ∈ saves :=
  List.mem_reverse.mp (List.mem_of_find?_eq_some last)

theorem fileAt_place {sets : CharacterSets} {fs : FileSystem sets} {save : Save}
    (fits : Fits fs save) {uuid : String} (own : target save = some (.userMade, some uuid))
    (disk : Files sets) :
    fileAt disk (getLevelPath fs uuid .userMade) = disk.read (place fs save) := by
  cases save with
  | progress => cases own
  | level garbage heap l type =>
    obtain ⟨⟨uuid', is, _, word, _⟩, _⟩ := fits
    simp only [target, is, Option.some.injEq, Prod.mk.injEq] at own
    obtain ⟨rfl, rfl⟩ := own
    rw [getLevelPath_word fs word, fileAt_letters, place_level is word]

section Stores
variable {sets : CharacterSets} (net : Network sets) (uuid : String)

/-- The file of a level in storage. -/
def stored : Option (List UInt8) :=
  (KeyedList.get Prod.fst (levelRef uuid) net.storage).map Prod.snd

/-- The device that it came from, and what that device had saved by then. -/
def upload : Option (ℕ × List Save) := (KeyedList.get Prod.fst uuid net.uploads).map Prod.snd

theorem levelRef_injective : Function.Injective levelRef := by
  intro a b same
  have letters := congrArg String.toList same
  simp only [levelRef, String.toList_append] at letters
  exact String.toList_inj.mp (List.append_cancel_left (List.append_cancel_right letters))

variable (device : ℕ) (levelUUID : String) (data : List UInt8)

theorem stored_put : stored (net.put device levelUUID data) uuid =
    if uuid = levelUUID then some data else stored net uuid := by
  simp only [stored, Network.put, KeyedList.get_put, levelRef_injective.eq_iff]
  split <;> rfl

theorem upload_put : upload (net.put device levelUUID data) uuid =
    if uuid = levelUUID then some (device, net.saved device) else upload net uuid := by
  simp only [upload, Network.put, KeyedList.get_put]
  split <;> rfl

end Stores

namespace Message

/-- The device and the UUID that a message is about. -/
def about : Message → ℕ × String
  | .setData device levelUUID => (device, levelUUID)
  | .acknowledged device levelUUID => (device, levelUUID)
  | .putFile device levelUUID => (device, levelUUID)

end Message

section Runs
variable {sets : CharacterSets} (app : ℕ → Platform sets)
  (encoded : DataCompression.CompressionAlgorithm → List UInt8 → List UInt8) (fuel : ℕ)

/-- The tables of a save, and calls enough to write and to read their file. -/
def Costs (device : ℕ) (save : Save) (file : List UInt8) : Prop :=
  tables (app device) save = some file ∧ (encoded .lzma file).length + file.length + 2 ≤ fuel

/-- A save that fits, on its device. -/
def Ready (device : ℕ) (save : Save) : Prop :=
  Fits (app device).fs save ∧ ∃ file, Costs app encoded fuel device save file

/-- The disks hold what was saved last under each UUID, messages are about saved levels, and
storage has what was saved on the device that it was uploaded from. -/
structure Shared (net : Network sets) : Prop where
  ready : ∀ device, ∀ save ∈ net.saved device, Ready app encoded fuel device save
  files : ∀ device uuid save, lastSave uuid (net.saved device) = some save →
    ∃ file, Costs app encoded fuel device save file ∧
      (net.disk device).read (place (app device).fs save) = some (encoded .lzma file)
  sent : ∀ message ∈ net.inFlight, ∃ save,
    lastSave (Message.about message).2 (net.saved (Message.about message).1) = some save
  absent : ∀ uuid, upload net uuid = none → stored net uuid = none
  present : ∀ uuid device saves, upload net uuid = some (device, saves) → ∃ save file,
    lastSave uuid saves = some save ∧ Fits (app device).fs save ∧
      Costs app encoded fuel device save file ∧ stored net uuid = some (encoded .lzma file)

variable {app encoded fuel} {net : Network sets}

/-- A save that fits is never refused, and keeps the other files. -/
theorem save_keeps (lossless : ∀ device, Lossless (app device).library encoded)
    (shared : Shared app encoded fuel net) {device : ℕ} {save : Save}
    (ready : Ready app encoded fuel device save) :
    ∃ net', net.save app fuel device save = some net' ∧ Shared app encoded fuel net' ∧
      net'.saved device = net.saved device ++ [save] ∧ net'.inFlight = net.inFlight := by
  obtain ⟨fits, file, costs⟩ := ready
  obtain ⟨made, is, run⟩ := run_eq (lossless device) fits
  obtain rfl : made = file := Option.some.inj (is.symm.trans costs.1)
  have cheap := costs.2
  have written := run fuel (by omega) (net.disk device)
  have kept : net.save app fuel device save = some { net with
      disk := Function.update net.disk device ((net.disk device).write (place (app device).fs save)
        (place_proper (app device).fs save) (encoded .lzma made))
      saved := Function.update net.saved device (net.saved device ++ [save]) } := by
    rw [Network.save, written]
    rfl
  refine ⟨_, kept, ?_, by simp, rfl⟩
  have last : ∀ other uuid found,
      lastSave uuid (Function.update net.saved device (net.saved device ++ [save]) other) =
        some found →
      (other = device ∧ found = save) ∨ (lastSave uuid (net.saved other) = some found ∧
        (other = device → target found ≠ target save)) := by
    intro other uuid found is
    by_cases same : other = device
    · subst same
      rw [Function.update_self, lastSave_concat] at is
      split at is
      · exact .inl ⟨rfl, (Option.some.inj is).symm⟩
      · next differs =>
        exact .inr ⟨is, fun _ same => differs (same ▸ target_of_lastSave is)⟩
    · rw [Function.update_of_ne same] at is
      exact .inr ⟨is, fun equal => absurd equal same⟩
  constructor
  · intro other found member
    dsimp only at member
    by_cases same : other = device
    · subst same
      rw [Function.update_self] at member
      rcases List.mem_append.mp member with old | new
      · exact shared.ready other found old
      · exact List.mem_singleton.mp new ▸ ⟨fits, made, costs⟩
    · rw [Function.update_of_ne same] at member
      exact shared.ready other found member
  · intro other uuid found is
    dsimp only
    rcases last other uuid found is with ⟨rfl, rfl⟩ | ⟨before, apart⟩
    · exact ⟨made, costs, by rw [Function.update_self, read_write, if_pos rfl]⟩
    · obtain ⟨file, cost, read⟩ := shared.files other uuid found before
      refine ⟨file, cost, ?_⟩
      by_cases same : other = device
      · subst same
        have fitted := (shared.ready other found (mem_of_lastSave before)).1
        have places : place (app other).fs found ≠ place (app other).fs save :=
          fun equal => apart rfl (target_eq_of_place_eq fitted fits equal)
        rw [Function.update_self, read_write, if_neg places, read]
      · rw [Function.update_of_ne same, read]
  · intro message member
    obtain ⟨found, is⟩ := shared.sent message member
    dsimp only
    by_cases same : (Message.about message).1 = device
    · rw [same] at is ⊢
      rw [Function.update_self, lastSave_concat]
      split
      · exact ⟨save, rfl⟩
      · exact ⟨found, is⟩
    · rw [Function.update_of_ne same]
      exact ⟨found, is⟩
  · exact shared.absent
  · exact shared.present

theorem send_keeps (shared : Shared app encoded fuel net) {message : Message}
    (known : ∃ save,
      lastSave (Message.about message).2 (net.saved (Message.about message).1) = some save) :
    Shared app encoded fuel (net.send message) where
  ready := shared.ready
  files := shared.files
  sent := fun other member => by
    rcases List.mem_append.mp member with old | new
    · exact shared.sent other old
    · exact List.mem_singleton.mp new ▸ known
  absent := shared.absent
  present := shared.present

/-- A delivered file is the one last saved under its UUID. -/
theorem put_keeps (shared : Shared app encoded fuel net) {device : ℕ} {levelUUID : String}
    {save : Save} (last : lastSave levelUUID (net.saved device) = some save) {file : List UInt8}
    (costs : Costs app encoded fuel device save file) :
    Shared app encoded fuel (net.put device levelUUID (encoded .lzma file)) where
  ready := shared.ready
  files := shared.files
  sent := shared.sent
  absent := fun uuid missing => by
    rw [upload_put] at missing
    rw [stored_put]
    split at missing
    · cases missing
    · next other => rw [if_neg other, shared.absent uuid missing]
  present := fun uuid author saves is => by
    rw [upload_put] at is
    rw [stored_put]
    split at is
    · next same =>
      obtain ⟨rfl, rfl⟩ := Prod.mk.inj (Option.some.inj is)
      subst same
      have fits := (shared.ready device save (mem_of_lastSave last)).1
      exact ⟨save, file, last, fits, costs, if_pos rfl⟩
    · next other =>
      rw [if_neg other]
      exact shared.present uuid author saves is

theorem deliver_keeps (shared : Shared app encoded fuel net) (ok : Bool) {message : Message}
    (known : ∃ save,
      lastSave (Message.about message).2 (net.saved (Message.about message).1) = some save) :
    Shared app encoded fuel (deliver app net ok message) := by
  cases message with
  | setData device levelUUID => exact send_keeps shared known
  | acknowledged device levelUUID => exact send_keeps shared known
  | putFile device levelUUID =>
    obtain ⟨save, last⟩ := known
    dsimp only [Message.about] at last
    obtain ⟨file, costs, read⟩ := shared.files device levelUUID save last
    have fits := (shared.ready device save (mem_of_lastSave last)).1
    have found := fileAt_place fits (target_of_lastSave last) (net.disk device)
    rw [deliver, found, read]
    cases ok with
    | false => exact shared
    | true => exact put_keeps shared last costs

/-- Delivery of what has been sent last. -/
theorem deliver_sent (net : Network sets) (message : Message) (ok : Bool) :
    step app fuel (net.send message) (.deliver net.inFlight.length ok) =
      some (deliver app net ok message) := by
  simp [step, Network.send, List.eraseIdx_append_of_length_le]

/-- The save that a step makes, if any, and its device. -/
def saveOf : Event → Option (ℕ × Save)
  | .save device save => some (device, save)
  | .publishLv device (some _) garbage heap l thumbnail =>
    some (device, .level garbage (withThumbnail heap l thumbnail) l .userMade)
  | _ => none

theorem step_keeps (lossless : ∀ device, Lossless (app device).library encoded)
    (shared : Shared app encoded fuel net) {event : Event}
    (ready : ∀ device save, saveOf event = some (device, save) →
      Ready app encoded fuel device save) :
    ∃ net', step app fuel net event = some net' ∧ Shared app encoded fuel net' := by
  cases event with
  | save device save =>
    obtain ⟨net', is, keeps, _⟩ := save_keeps lossless shared (ready device save rfl)
    exact ⟨net', is, keeps⟩
  | publishLv device currentUser garbage heap l thumbnail =>
    cases currentUser with
    | none => exact ⟨net, rfl, shared⟩
    | some userId =>
      have prepared := ready device _ rfl
      obtain ⟨net', is, keeps, saved, _⟩ := save_keeps lossless shared prepared
      obtain ⟨⟨⟨uuid, named, _⟩, _⟩, _⟩ := prepared
      obtain ⟨number, metadata, levelId⟩ := Option.bind_eq_some_iff.mp named
      have known : lastSave uuid (net'.saved device) =
          some (.level garbage (withThumbnail heap l thumbnail) l .userMade) := by
        rw [saved, lastSave_concat, if_pos (by rw [target, named])]
      simp only [step, publishLv, is, metadata, levelId, bind, Option.bind_some]
      refine ⟨_, rfl, ?_⟩
      split
      · exact send_keeps keeps ⟨_, known⟩
      · exact keeps
  | deliver j ok =>
    simp only [step]
    cases there : net.inFlight[j]? with
    | none => exact ⟨net, rfl, shared⟩
    | some message =>
      have rest : Shared app encoded fuel { net with inFlight := net.inFlight.eraseIdx j } :=
        { shared with
          sent := fun other member => shared.sent other (List.mem_of_mem_eraseIdx member) }
      exact ⟨_, rfl, deliver_keeps rest ok (shared.sent message (List.mem_of_getElem? there))⟩

/-- The messages of a publishing, delivered one after the other. -/
def published (net : Network sets) (device : ℕ) (userId : String) (garbage : ℕ → UInt8)
    (heap : Heap) (l : FlatBuffers.LevelData fun _ => ℕ) (thumbnail : FlatBuffers.Rect)
    (acknowledged uploading : Bool) : List Event :=
  [.publishLv device (some userId) garbage heap l thumbnail,
    .deliver net.inFlight.length acknowledged, .deliver net.inFlight.length uploading,
    .deliver net.inFlight.length true]

/-- Storage takes the file of a level that is published. -/
theorem published_keeps (lossless : ∀ device, Lossless (app device).library encoded)
    (shared : Shared app encoded fuel net) {device : ℕ} {userId : String} (user : userId ≠ "")
    {garbage : ℕ → UInt8} {heap : Heap} {l : FlatBuffers.LevelData fun _ => ℕ}
    {thumbnail : FlatBuffers.Rect} {uuid : String}
    (named : levelUUID (withThumbnail heap l thumbnail) l = some uuid)
    (ready : Ready app encoded fuel device
      (.level garbage (withThumbnail heap l thumbnail) l .userMade))
    (acknowledged uploading : Bool) :
    ∃ net', (network app fuel).run net
        (published net device userId garbage heap l thumbnail acknowledged uploading) = some net' ∧
      Shared app encoded fuel net' ∧ upload net' uuid = some (device, net.saved device ++
        [.level garbage (withThumbnail heap l thumbnail) l .userMade]) := by
  obtain ⟨number, metadata, levelId⟩ := Option.bind_eq_some_iff.mp named
  obtain ⟨net', is, keeps, saved, inFlight⟩ := save_keeps lossless shared ready
  have last : lastSave uuid (net'.saved device) =
      some (.level garbage (withThumbnail heap l thumbnail) l .userMade) := by
    rw [saved, lastSave_concat, if_pos (by rw [target, named])]
  obtain ⟨file, costs, read⟩ := keeps.files device uuid _ last
  have found := fileAt_place ready.1 (target_of_lastSave last) (net'.disk device)
  have first : step app fuel net (.publishLv device (some userId) garbage heap l thumbnail) =
      some (net'.send (.setData device uuid)) := by
    simp only [step, publishLv, is, metadata, levelId, bind, Option.bind_some, if_pos user]
  have taken : deliver app net' true (.putFile device uuid) =
      net'.put device uuid (encoded .lzma file) := by
    rw [deliver, found, read]
    rfl
  refine ⟨net'.put device uuid (encoded .lzma file), ?_, put_keeps keeps last costs, ?_⟩
  · simp only [published, ← inFlight, Machine.run, network, first, Option.bind_some, deliver_sent]
    rw [deliver, deliver_sent, Option.bind_some, deliver, deliver_sent, Option.bind_some, taken]
  · rw [upload_put, if_pos rfl, saved]

/-- No step of a run is refused, and what the disks and storage hold stays in step. -/
theorem run_keeps (lossless : ∀ device, Lossless (app device).library encoded) (events : List Event)
    (shared : Shared app encoded fuel net) (ready : ∀ event ∈ events, ∀ device save,
      saveOf event = some (device, save) → Ready app encoded fuel device save) :
    ∃ net', (network app fuel).run net events = some net' ∧ Shared app encoded fuel net' := by
  induction events generalizing net with
  | nil => exact ⟨net, rfl, shared⟩
  | cons event rest ih =>
    obtain ⟨next, is, keeps⟩ := step_keeps lossless shared (ready event List.mem_cons_self)
    obtain ⟨net', run, still⟩ :=
      ih keeps fun later member => ready later (List.mem_cons_of_mem event member)
    exact ⟨net', (Machine.run_cons_some _).mpr ⟨next, is, run⟩, still⟩

end Runs

/-- A level as a save has written it: with the metadata and conditions of its own, up to
strings that compare equal, and exactly where no two different ones do. -/
def AsSaved (canonical : String → String) (levelData : FlatBuffers.LevelData Part.Record) :
    Save → Prop
  | .level _ heap l _ => mapParts (mapStrings canonical) levelData =
        mapParts (mapStrings canonical) (mapParts (written false) (newValue heap l)) ∧
      (Set.InjOn canonical (levelDataStrings (newValue heap l)) →
        levelData = mapParts (written false) (newValue heap l))
  | .progress _ _ => False

section Downloads
variable {sets : CharacterSets} {app : ℕ → Platform sets}
  {encoded : DataCompression.CompressionAlgorithm → List UInt8 → List UInt8} {fuel : ℕ}

/-- A file in storage is handed over as what its tables are read as, if it is not too large. -/
theorem getLevelFile_of_read {reader : Platform sets} (lossless : Lossless reader.library encoded)
    {net : Network sets} {uuid : String} {file : List UInt8} (lasts : file.length + 1 < fuel)
    (there : stored net uuid = some (encoded .lzma file))
    {levelData : FlatBuffers.LevelData Part.Record}
    (read : makeLevel file (some []) = .ok (some ⟨some levelData⟩)) :
    getLevelFile fuel net reader uuid =
      some (if (encoded .lzma file).length ≤ 1024 * 1024 then some levelData else none) := by
  rw [stored] at there
  simp only [getLevelFile, there, decompressed_eq lossless lasts, bind, Option.bind_some, read,
    Nat.one_mul]
  split <;> rfl

/-- A file in storage is handed over as the level that was saved. -/
theorem getLevelFile_present (lossless : ∀ device, Lossless (app device).library encoded)
    {net : Network sets} {uuid : String} {device : ℕ} {save : Save} {file : List UInt8}
    (own : target save = some (.userMade, some uuid)) (fits : Fits (app device).fs save)
    (costs : Costs app encoded fuel device save file)
    (there : stored net uuid = some (encoded .lzma file)) (reader : ℕ) :
    if (encoded .lzma file).length ≤ 1024 * 1024 then
      ∃ levelData, getLevelFile fuel net (app reader) uuid = some (some levelData) ∧
        AsSaved (app device).canonical levelData save
    else getLevelFile fuel net (app reader) uuid = some none := by
  cases save with
  | progress => cases own
  | level garbage heap l type =>
    obtain ⟨levelData, read, alike, same⟩ := level_read fits costs.1
    have cheap := costs.2
    rw [getLevelFile_of_read (lossless reader) (by omega) there read]
    split
    · exact ⟨levelData, rfl, alike, same⟩
    · rfl

/-- What a download gives: nothing without a file in storage, and else what its device had
last saved under the UUID. -/
def Downloads (app : ℕ → Platform sets)
    (encoded : DataCompression.CompressionAlgorithm → List UInt8 → List UInt8) (fuel : ℕ)
    (net : Network sets) (uuid : String) : Prop :=
  ∀ reader, (upload net uuid = none → getLevelFile fuel net (app reader) uuid = some none) ∧
    ∀ device saves, upload net uuid = some (device, saves) → ∃ save file,
      lastSave uuid saves = some save ∧ tables (app device) save = some file ∧
      if (encoded .lzma file).length ≤ 1024 * 1024 then
        ∃ levelData, getLevelFile fuel net (app reader) uuid = some (some levelData) ∧
          AsSaved (app device).canonical levelData save
      else getLevelFile fuel net (app reader) uuid = some none

theorem Shared.downloads (lossless : ∀ device, Lossless (app device).library encoded)
    {net : Network sets} (shared : Shared app encoded fuel net) (uuid : String) :
    Downloads app encoded fuel net uuid := by
  refine fun reader => ⟨fun missing => ?_, fun device saves is => ?_⟩
  · have absent := shared.absent uuid missing
    rw [stored] at absent
    simp only [getLevelFile, absent]
  · obtain ⟨save, file, last, fits, costs, there⟩ := shared.present uuid device saves is
    exact ⟨save, file, last, costs.1,
      getLevelFile_present lossless (target_of_lastSave last) fits costs there reader⟩

/-- The size of the tables of a level. -/
theorem length_tables {device : ℕ} {garbage : ℕ → UInt8} {heap : Heap}
    {l : FlatBuffers.LevelData fun _ => ℕ} {type : LevelType} {file : List UInt8}
    (made : tables (app device) (.level garbage heap l type) = some file) :
    file.length ≤ levelBound (levelGraph heap l) + 11 := by
  have returns := makeLevel_makeData (levelGraph heap l) (app device).canonical {} garbage
  rw [ok_of_toOption made] at returns
  exact returns.1

/-- With calls enough, the saves of a run that fit are ready. -/
theorem ready_of_fits (lossless : ∀ device, Lossless (app device).library encoded)
    (events : List Event) (fit : ∀ event ∈ events, ∀ device save,
      saveOf event = some (device, save) → Fits (app device).fs save) :
    ∃ calls, ∀ fuel ≥ calls, ∀ event ∈ events, ∀ device save, saveOf event = some (device, save) →
      Ready app encoded fuel device save := by
  let file (device : ℕ) (save : Save) : List UInt8 := (tables (app device) save).getD []
  let cost (event : Event) : ℕ := ((saveOf event).map fun save =>
    (encoded .lzma (file save.1 save.2)).length + (file save.1 save.2).length + 2).getD 0
  refine ⟨(events.map cost).sum, fun fuel enough event member device save is => ?_⟩
  have fits := fit event member device save is
  obtain ⟨made, written, _⟩ := run_eq (lossless device) fits
  have within : cost event ≤ fuel :=
    le_trans (List.single_le_sum (by simp) _ (List.mem_map_of_mem member)) enough
  simp only [cost, is, Option.map_some, Option.getD_some, file, written] at within
  exact ⟨fits, made, written, within⟩

/-- Empty storage, before anything is saved. -/
def start (disk : ℕ → Files sets) : Network sets := ⟨disk, [], [], fun _ => [], []⟩

theorem start_shared (disk : ℕ → Files sets) : Shared app encoded fuel (start disk) := by
  constructor <;> simp [start, lastSave, upload, stored]

end Downloads

/-- For any number of devices, any run of saves, publishings and deliveries that fail or not, in
any order, from any disks and an empty storage: if every save fits and the libraries are
lossless, nothing traps, and a download on any device hands over the level that the device of
the uploaded file had last saved under the UUID when storage took the file, unless there is none
or it is too large. -/
theorem shared_levels_download {sets : CharacterSets} (app : ℕ → Platform sets)
    (encoded : DataCompression.CompressionAlgorithm → List UInt8 → List UInt8)
    (lossless : ∀ device, Lossless (app device).library encoded) (events : List Event)
    (fit : ∀ event ∈ events, ∀ device save, saveOf event = some (device, save) →
      Fits (app device).fs save)
    (disk : ℕ → Files sets) :
    ∃ calls, ∀ fuel ≥ calls, ∃ net, (network app fuel).run (start disk) events = some net ∧
      ∀ uuid, Downloads app encoded fuel net uuid := by
  obtain ⟨calls, ready⟩ := ready_of_fits lossless events fit
  refine ⟨calls, fun fuel enough => ?_⟩
  obtain ⟨net, run, shared⟩ := run_keeps lossless events (start_shared disk) (ready fuel enough)
  exact ⟨net, run, fun uuid => shared.downloads lossless uuid⟩

def phones (_ : ℕ) : Platform foundationSets := phone

def frame : FlatBuffers.Rect := ⟨0, 0, 0, 0⟩

theorem framed_fits (garbage : ℕ → UInt8) :
    Fits device (.level garbage (withThumbnail namedHeap namedData frame) namedData .userMade) :=
  ⟨⟨"a", rfl, by decide, by decide, by unfold Accepted; decide⟩, by decide⟩

/-- Two phones publish the same level, and storage takes the second file first. -/
def twoPublish : List Event :=
  [.publishLv 0 (some "u") (fun _ => 0) namedHeap namedData frame,
    .publishLv 1 (some "v") (fun _ => 0) namedHeap namedData frame,
    .deliver 1 true, .deliver 0 false, .deliver 0 true, .deliver 1 true, .deliver 0 true,
    .deliver 0 true]

theorem twoPublish_fit : ∀ event ∈ twoPublish, ∀ device save, saveOf event = some (device, save) →
    Fits (phones device).fs save := by
  intro event member device save is
  simp only [twoPublish, List.mem_cons, List.not_mem_nil, or_false] at member
  rcases member with rfl | rfl | rfl | rfl | rfl | rfl | rfl | rfl <;> cases is <;>
    exact framed_fits _

theorem phones_levels_download : ∃ calls, ∀ fuel ≥ calls, ∃ net,
    (network phones fuel).run (start fun _ => Disk.empty) twoPublish = some net ∧
    ∀ uuid, Downloads phones (fun _ => packed) fuel net uuid :=
  shared_levels_download phones _ (fun _ => packing_lossless) twoPublish twoPublish_fit fun _ => Disk.empty

/-- After any such run, a publishing whose messages are delivered right after one another, with
nothing in between, makes the level, with its thumbnail, what every device downloads under its
UUID, whether or not the document write succeeded. -/
theorem published_level_downloads {sets : CharacterSets} (app : ℕ → Platform sets)
    (encoded : DataCompression.CompressionAlgorithm → List UInt8 → List UInt8)
    (lossless : ∀ device, Lossless (app device).library encoded) (events : List Event)
    (fit : ∀ event ∈ events, ∀ device save, saveOf event = some (device, save) →
      Fits (app device).fs save)
    (disk : ℕ → Files sets) (device : ℕ) (userId : String) (user : userId ≠ "")
    (garbage : ℕ → UInt8) (heap : Heap) (l : FlatBuffers.LevelData fun _ => ℕ)
    (thumbnail : FlatBuffers.Rect)
    (fits : Fits (app device).fs (.level garbage (withThumbnail heap l thumbnail) l .userMade))
    (small : ∀ file,
      tables (app device) (.level garbage (withThumbnail heap l thumbnail) l .userMade) = some file →
        (encoded .lzma file).length ≤ 1024 * 1024) (acknowledged uploading : Bool) :
    ∃ uuid calls, levelUUID (withThumbnail heap l thumbnail) l = some uuid ∧
      ∀ fuel ≥ calls, ∃ net net',
      (network app fuel).run (start disk) events = some net ∧
      (network app fuel).run net
        (published net device userId garbage heap l thumbnail acknowledged uploading) = some net' ∧
      ∀ reader, ∃ levelData, getLevelFile fuel net' (app reader) uuid = some (some levelData) ∧
        AsSaved (app device).canonical levelData
          (.level garbage (withThumbnail heap l thumbnail) l .userMade) := by
  obtain ⟨uuid, named, _⟩ := fits.1
  obtain ⟨calls, ready⟩ := ready_of_fits lossless events fit
  obtain ⟨more, prepared⟩ := ready_of_fits lossless
    [.publishLv device (some userId) garbage heap l thumbnail] (by
      intro event member author save is
      obtain rfl := List.mem_singleton.mp member
      obtain ⟨rfl, rfl⟩ := Prod.mk.inj (Option.some.inj is)
      exact fits)
  refine ⟨uuid, calls + more, named, fun fuel enough => ?_⟩
  obtain ⟨net, run, shared⟩ := run_keeps lossless events (start_shared disk) (ready fuel (by omega))
  have last := prepared fuel (by omega) _ List.mem_cons_self device _ rfl
  obtain ⟨net', goes, keeps, taken⟩ :=
    published_keeps lossless shared user named last acknowledged uploading
  refine ⟨net, net', run, goes, fun reader => ?_⟩
  obtain ⟨save, file, is, made, given⟩ := (keeps.downloads lossless uuid reader).2 device _ taken
  rw [lastSave_concat, if_pos (by rw [target, named])] at is
  obtain rfl := Option.some.inj is
  rwa [if_pos (small file made)] at given

/-- After that run, the second phone publishes its level again. -/
theorem phone_level_downloads : ∃ uuid calls,
    levelUUID (withThumbnail namedHeap namedData frame) namedData = some uuid ∧
    ∀ fuel ≥ calls, ∃ net net',
      (network phones fuel).run (start fun _ => Disk.empty) twoPublish = some net ∧
      (network phones fuel).run net
        (published net 1 "v" (fun _ => 1) namedHeap namedData frame false true) = some net' ∧
      ∀ reader, ∃ levelData, getLevelFile fuel net' (phones reader) uuid = some (some levelData) ∧
        AsSaved id levelData
          (.level (fun _ => 1) (withThumbnail namedHeap namedData frame) namedData .userMade) := by
  refine published_level_downloads phones (fun _ => packed) (fun _ => packing_lossless) twoPublish
    twoPublish_fit (fun _ => Disk.empty) 1 "v" (by decide) (fun _ => 1) namedHeap namedData frame
    (framed_fits _) ?_ false true
  intro file made
  have short : file.length ≤
      levelBound (levelGraph (withThumbnail namedHeap namedData frame) namedData) + 11 :=
    length_tables made
  have bound :
      levelBound (levelGraph (withThumbnail namedHeap namedData frame) namedData) ≤ 4096 := by
    decide
  have packs := length_packed file
  omega

end Arthius.Guarantees.SharedLevels
