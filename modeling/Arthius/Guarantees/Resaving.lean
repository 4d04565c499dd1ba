import Mathlib.Logic.Relation
import Arthius.Guarantees.SharedLevels

/-!
# Saving again changes nothing

A save puts conditions of its own into a level, turns a missing trigger into `none` and a
negative zero into zero. All of this happens the first time: a level that was loaded or
downloaded, and then saved and loaded or published and downloaded, however often and on whatever
devices, stays as it is. The devices have one compression, as in `SharedLevels`.
-/
namespace Arthius.Guarantees.Resaving
open Arthius.Lib Arthius.Source Arthius.Source.FlatBuffers Arthius.Source.StoredFiles
open Arthius.Source.LevelFiles hiding newLevelData saveLevel loadFile
open Arthius.Guarantees.LevelContainment
open Arthius.Guarantees.LevelPaths hiding stored
open Arthius.Guarantees.Compression
open Arthius.Guarantees.StoredFiles Arthius.Guarantees.SharedLevels
open Arthius.Source.SharedLevels (Network fileAt getLevelPath getLevelFile)
open Arthius.Source.PublishLevel (levelRef)

section Parts
variable {f : String → String} {force : Bool}

theorem kept_kept {T : Type} [Scalar T] (value defaultValue : T) :
    kept force (kept force value defaultValue) defaultValue = kept force value defaultValue := by
  by_cases equal : force = false ∧ Scalar.equal value defaultValue = true
  · simp [kept, equal]
  · simp [kept, equal]

/-- What a part reads as is written as it is. -/
theorem written_written (part : Part) (self : part.Record) :
    written force part (written force part self) = written force part self := by
  cases part <;> simp [written, kept_kept]

/-- Writing changes no string. -/
theorem mapStrings_written (part : Part) (self : part.Record) :
    mapStrings f part (written force part self) = written force part (mapStrings f part self) := by
  cases part <;> rfl

/-- What writing changes is not in the strings. -/
theorem written_eq_self {part : Part} {self : part.Record}
    (same : mapStrings f part (written force part self) = mapStrings f part self) :
    written force part self = self := by
  cases part with
  | levelText =>
    simp only [mapStrings, written, FlatBuffers.LevelText.mk.injEq] at same
    simp only [written, same]
  | levelMetadata => rfl
  | levelConditions => exact same
  | gravityWellData => exact same
  | colorBoxData => exact same
  | lineData => exact same
  | rockData => exact same
  | antiGravityData => rfl
  | endData => rfl

end Parts

section Levels
variable {f : String → String}

/-- A level as a save writes it. -/
def settled (levelData : FlatBuffers.LevelData Part.Record) : FlatBuffers.LevelData Part.Record :=
  mapParts (written false) { levelData with
    levelConditions := some ({ maxDistance := ⟨0x43480000⟩, maxTime := ⟨0x40a00000⟩ } :
      FlatBuffers.LevelConditions) }

theorem settled_settled (levelData : FlatBuffers.LevelData Part.Record) :
    settled (settled levelData) = settled levelData := by
  simp only [settled, mapParts, List.map_map, Option.map_map, Function.comp_def, written_written]

theorem mapStrings_settled (levelData : FlatBuffers.LevelData Part.Record) :
    mapParts (mapStrings f) (settled levelData) = settled (mapParts (mapStrings f) levelData) := by
  simp only [settled, mapParts, List.map_map, Option.map_map, Function.comp_def,
    mapStrings_written]
  rfl

theorem map_eq_self {α : Type} {w g : α → α} (once : ∀ x, g (w x) = g x → w x = x) :
    ∀ {xs : List α}, (xs.map w).map g = xs.map g → xs.map w = xs
  | [], _ => rfl
  | x :: xs, same => by
    obtain ⟨first, rest⟩ := List.cons.inj same
    rw [List.map_cons, once x first, map_eq_self once rest]

theorem optionMap_eq_self {α : Type} {w g : α → α} (once : ∀ x, g (w x) = g x → w x = x)
    {x : Option α} (same : (x.map w).map g = x.map g) : x.map w = x := by
  cases x with
  | none => rfl
  | some x => exact congrArg some (once x (Option.some.inj same))

/-- What a save changes is not in the strings. -/
theorem settled_eq_self {levelData : FlatBuffers.LevelData Part.Record}
    (same : mapParts (mapStrings f) (settled levelData) = mapParts (mapStrings f) levelData) :
    settled levelData = levelData := by
  obtain ⟨metadata, conditions, texts, frame, ends, lines, wells, boxes, rocks, zones⟩ := levelData
  simp only [settled, mapParts, FlatBuffers.LevelData.mk.injEq] at same ⊢
  obtain ⟨metadata_, conditions_, texts_, -, ends_, lines_, wells_, boxes_, rocks_, zones_⟩ := same
  refine ⟨optionMap_eq_self (fun _ => written_eq_self) metadata_, ?_,
    map_eq_self (fun _ => written_eq_self) texts_, trivial,
    map_eq_self (fun _ => written_eq_self) ends_, map_eq_self (fun _ => written_eq_self) lines_,
    map_eq_self (fun _ => written_eq_self) wells_, map_eq_self (fun _ => written_eq_self) boxes_,
    map_eq_self (fun _ => written_eq_self) rocks_, map_eq_self (fun _ => written_eq_self) zones_⟩
  have plain : mapStrings f .levelConditions = id := rfl
  rw [plain, Option.map_id] at conditions_
  exact conditions_

end Levels

section Files
variable {sets : CharacterSets}

/-- What loads from the file of a save is `after`, whatever was on the disk. -/
def Reloads (app : Platform sets) (before after : FlatBuffers.LevelData Part.Record) : Prop :=
  ∃ garbage heap l type uuid, mapParts heap l = before ∧ levelUUID heap l = some uuid ∧
    Fits app.fs (.level garbage heap l type) ∧ ∃ calls, ∀ fuel ≥ calls, ∀ disk : Files sets,
      ∃ disk', saveLevel app fuel garbage disk heap (some l) type = some disk' ∧
        loadFile app fuel disk' type (levelFile sets uuid type) = some [after]

variable {app : Platform sets}
  {encoded : DataCompression.CompressionAlgorithm → List UInt8 → List UInt8}

/-- What a save that fits writes, and what that is read as. -/
theorem saved_level (lossless : Lossless app.library encoded) {garbage : ℕ → UInt8} {heap : Heap}
    {l : FlatBuffers.LevelData fun _ => ℕ} {type : LevelType}
    (fits : Fits app.fs (.level garbage heap l type)) : ∃ file after,
      tables app (.level garbage heap l type) = some file ∧
      makeLevel file (some []) = .ok (some ⟨some after⟩) ∧
      (mapParts (mapStrings app.canonical) after =
          mapParts (mapStrings app.canonical) (settled (mapParts heap l)) ∧
        (Set.InjOn app.canonical (levelDataStrings (mapParts heap l)) →
          after = settled (mapParts heap l))) ∧
      ∀ fuel > (encoded .lzma file).length + 1, ∀ disk : Files sets,
        saveLevel app fuel garbage disk heap (some l) type =
          some (disk.write _ (place_proper app.fs (.level garbage heap l type))
            (encoded .lzma file)) := by
  obtain ⟨file, made, run⟩ := run_eq lossless fits
  obtain ⟨after, read, same⟩ := level_read fits made
  exact ⟨file, after, made, read, same, run⟩

/-- Every save that fits reloads as the level that it has settled. -/
theorem reloads_of_fits (lossless : Lossless app.library encoded) {garbage : ℕ → UInt8}
    {heap : Heap} {l : FlatBuffers.LevelData fun _ => ℕ} {type : LevelType}
    (fits : Fits app.fs (.level garbage heap l type)) : ∃ after,
      Reloads app (mapParts heap l) after ∧
      mapParts (mapStrings app.canonical) after =
        mapParts (mapStrings app.canonical) (settled (mapParts heap l)) ∧
      (Set.InjOn app.canonical (levelDataStrings (mapParts heap l)) →
        after = settled (mapParts heap l)) := by
  obtain ⟨file, after, _, read, same, writes⟩ := saved_level lossless fits
  have fitted := fits
  obtain ⟨⟨uuid, is, proper, word, _⟩, _⟩ := fitted
  refine ⟨after, ⟨garbage, heap, l, type, uuid, rfl, is, fits,
    (encoded .lzma file).length + file.length + 2, fun fuel enough disk => ?_⟩, same⟩
  refine ⟨_, writes fuel (by omega) disk, loadFile_of_read lossless proper word (by omega) ?_ read⟩
  rw [read_write, place_level is word, if_pos rfl]

/-- What a save reloads as is settled already, and the next save keeps it. -/
theorem settled_of_reloads (lossless : Lossless app.library encoded)
    {before after : FlatBuffers.LevelData Part.Record} (reloads : Reloads app before after) :
    mapParts (mapStrings app.canonical) after =
        mapParts (mapStrings app.canonical) (settled before) ∧
      (Set.InjOn app.canonical (levelDataStrings before) → after = settled before) := by
  obtain ⟨garbage, heap, l, type, uuid, rfl, is, fits, calls, loads⟩ := reloads
  obtain ⟨file, found, _, read, same, writes⟩ := saved_level lossless fits
  obtain ⟨⟨uuid', is', proper, word, _⟩, _⟩ := fits
  obtain rfl : uuid' = uuid := Option.some.inj (is'.symm.trans is)
  let fuel := calls + (encoded .lzma file).length + file.length + 2
  obtain ⟨disk', saved, loaded⟩ := loads fuel (by omega) Disk.empty
  rw [writes fuel (by omega)] at saved
  obtain rfl := Option.some.inj saved
  have present : ((Disk.empty : Files sets).write _
      (place_proper app.fs (.level garbage heap l type)) (encoded .lzma file)).read
      (folderURL app.fs type ++ [levelFile sets uuid' type]) = some (encoded .lzma file) := by
    rw [read_write, place_level is word, if_pos rfl]
  have again :=
    loadFile_of_read lossless proper word (by omega : file.length + 1 < fuel) present read
  obtain rfl : after = found := (List.cons.inj (Option.some.inj (loaded.symm.trans again))).1
  exact same

end Files

section Devices
variable {sets : CharacterSets} {app : ℕ → Platform sets}
  {encoded : DataCompression.CompressionAlgorithm → List UInt8 → List UInt8}

/-- What the reader downloads is `after`, whenever storage has the file that a device has saved. -/
def Redownloads (app : ℕ → Platform sets) (device reader : ℕ)
    (before after : FlatBuffers.LevelData Part.Record) : Prop :=
  ∃ garbage heap l uuid, mapParts heap l = before ∧ levelUUID heap l = some uuid ∧
    Fits (app device).fs (.level garbage heap l .userMade) ∧ ∃ calls, ∀ fuel ≥ calls,
      ∀ disk : Files sets, ∃ disk',
        saveLevel (app device) fuel garbage disk heap (some l) .userMade = some disk' ∧
        ∀ net : Network sets,
          stored net uuid = fileAt disk' (getLevelPath (app device).fs uuid .userMade) →
          getLevelFile fuel net (app reader) uuid = some (some after)

/-- Every save that fits and is not too large is downloaded as the level that it has settled. -/
theorem redownloads_of_fits (lossless : ∀ device, Lossless (app device).library encoded)
    {device : ℕ} {garbage : ℕ → UInt8} {heap : Heap} {l : FlatBuffers.LevelData fun _ => ℕ}
    (fits : Fits (app device).fs (.level garbage heap l .userMade))
    (small : ∀ file, tables (app device) (.level garbage heap l .userMade) = some file →
      (encoded .lzma file).length ≤ 1024 * 1024) (reader : ℕ) : ∃ after,
      Redownloads app device reader (mapParts heap l) after := by
  obtain ⟨file, after, made, read, _, writes⟩ := saved_level (lossless device) fits
  have fitted := fits
  obtain ⟨⟨uuid, is, _⟩, _⟩ := fitted
  have own : target (.level garbage heap l .userMade) = some (.userMade, some uuid) := by
    rw [target, is]
  refine ⟨after, garbage, heap, l, uuid, rfl, is, fits,
    (encoded .lzma file).length + file.length + 2, fun fuel enough disk => ?_⟩
  refine ⟨_, writes fuel (by omega) disk, fun net there => ?_⟩
  rw [fileAt_place fits own, read_write, if_pos rfl] at there
  rw [getLevelFile_of_read (lossless reader) (by omega) there read, if_pos (small file made)]

theorem settled_of_redownloads (lossless : ∀ device, Lossless (app device).library encoded)
    {device reader : ℕ} {before after : FlatBuffers.LevelData Part.Record}
    (downloads : Redownloads app device reader before after) :
    mapParts (mapStrings (app device).canonical) after =
        mapParts (mapStrings (app device).canonical) (settled before) ∧
      (Set.InjOn (app device).canonical (levelDataStrings before) → after = settled before) := by
  obtain ⟨garbage, heap, l, uuid, rfl, is, fits, calls, loads⟩ := downloads
  obtain ⟨file, found, _, read, same, writes⟩ := saved_level (lossless device) fits
  let fuel := calls + (encoded .lzma file).length + file.length + 2
  obtain ⟨disk', saved, given⟩ := loads fuel (by omega) Disk.empty
  rw [writes fuel (by omega)] at saved
  obtain rfl := Option.some.inj saved
  have own : target (.level garbage heap l .userMade) = some (.userMade, some uuid) := by
    rw [target, is]
  let net : Network sets :=
    { start (fun _ => Disk.empty) with storage := [(levelRef uuid, encoded .lzma file)] }
  have there : stored net uuid = some (encoded .lzma file) := by simp [net, stored, KeyedList.get]
  have handed := given net (by rw [there, fileAt_place fits own, read_write, if_pos rfl])
  rw [getLevelFile_of_read (lossless reader) (by omega) there read] at handed
  have kept : (if (encoded .lzma file).length ≤ 1024 * 1024 then some found else none) =
      some after := Option.some.inj handed
  split at kept
  · obtain rfl := Option.some.inj kept
    exact same
  · cases kept

/-- Once around: a device saves a level, and it or another one reads it back. -/
inductive Passes (app : ℕ → Platform sets) (before after : FlatBuffers.LevelData Part.Record) : Prop
  | loaded (device : ℕ) (reloads : Reloads (app device) before after)
  | downloaded (device reader : ℕ) (downloads : Redownloads app device reader before after)

theorem settled_of_passes (lossless : ∀ device, Lossless (app device).library encoded)
    {canonical : String → String} (compares : ∀ device, (app device).canonical = canonical)
    {before after : FlatBuffers.LevelData Part.Record} (passes : Passes app before after) :
    mapParts (mapStrings canonical) after = mapParts (mapStrings canonical) (settled before) ∧
      (Set.InjOn canonical (levelDataStrings before) → after = settled before) := by
  cases passes with
  | loaded device reloads =>
    rw [← compares device]
    exact settled_of_reloads (lossless device) reloads
  | downloaded device reader downloads =>
    rw [← compares device]
    exact settled_of_redownloads lossless downloads

end Devices

/-- A level that was saved and read back once, and then any number of times, each time loaded on
the device that saved it or published and downloaded on another, is the same as after the first
time, up to strings that compare equal, and exactly where no two different ones do. -/
theorem resaved_levels_same {sets : CharacterSets} (app : ℕ → Platform sets)
    (encoded : DataCompression.CompressionAlgorithm → List UInt8 → List UInt8)
    (lossless : ∀ device, Lossless (app device).library encoded)
    (canonical : String → String) (compares : ∀ device, (app device).canonical = canonical)
    (first second last : FlatBuffers.LevelData Part.Record) (once : Passes app first second)
    (again : Relation.ReflTransGen (Passes app) second last) :
    mapParts (mapStrings canonical) last = mapParts (mapStrings canonical) second ∧
      (Set.InjOn canonical (levelDataStrings second) → last = second) := by
  have fixed : mapParts (mapStrings canonical) (settled second) =
      mapParts (mapStrings canonical) second := by
    have same := (settled_of_passes lossless compares once).1
    rw [mapStrings_settled, same, mapStrings_settled, settled_settled]
  induction again with
  | refl => exact ⟨rfl, fun _ => rfl⟩
  | tail _ step ih =>
    obtain ⟨alike, same⟩ := settled_of_passes lossless compares step
    refine ⟨?_, fun distinct => ?_⟩
    · rw [alike, mapStrings_settled, ih.1, ← mapStrings_settled, fixed]
    · rw [same (by rw [ih.2 distinct]; exact distinct), ih.2 distinct, settled_eq_self fixed]

/-- The named level as its file has it. -/
def settledHeap : Heap
  | .levelConditions => fun _ =>
    ({ maxDistance := ⟨0x43480000⟩, maxTime := ⟨0x40a00000⟩ } : FlatBuffers.LevelConditions)
  | .levelText => fun number => written false .levelText (namedHeap .levelText number)
  | part => namedHeap part

def settledData : FlatBuffers.LevelData fun _ => ℕ :=
  { namedData with levelConditions := some 0 }

theorem settled_named : mapParts settledHeap settledData =
    settled (mapParts namedHeap namedData) := rfl

theorem settled_fits (garbage : ℕ → UInt8) :
    Fits (phones 0).fs (.level garbage settledHeap settledData .userMade) :=
  ⟨⟨"a", rfl, by decide, by decide, by unfold Accepted; decide⟩, by decide⟩

/-- Saved and loaded on one phone, then published and downloaded on another. -/
theorem named_resaved : ∃ second last,
    Passes phones (mapParts namedHeap namedData) second ∧ Passes phones second last ∧
    last = second := by
  have fits : Fits phone.fs (.level (fun _ => 0) namedHeap namedData .userMade) := named_fits _
  obtain ⟨second, saved, _, same⟩ := reloads_of_fits packing_lossless fits
  have small : ∀ file,
      tables (phones 0) (.level (fun _ => 1) settledHeap settledData .userMade) = some file →
      (packed file).length ≤ 1024 * 1024 := by
    intro file made
    have short : file.length ≤ levelBound (levelGraph settledHeap settledData) + 11 :=
      length_tables made
    have bound : levelBound (levelGraph settledHeap settledData) ≤ 4096 := by decide
    have packs := length_packed file
    omega
  obtain ⟨last, downloaded⟩ := redownloads_of_fits (fun _ => packing_lossless)
    (settled_fits fun _ => 1) small 1
  rw [settled_named, ← same Function.injective_id.injOn] at downloaded
  refine ⟨second, last, .loaded 0 saved, .downloaded 0 1 downloaded, ?_⟩
  have both := resaved_levels_same phones (fun _ => packed) (fun _ => packing_lossless) id
    (fun _ => rfl) _ second last (.loaded 0 saved) (.single (.downloaded 0 1 downloaded))
  exact both.2 Function.injective_id.injOn

end Arthius.Guarantees.Resaving
