import Arthius.Guarantees.LevelFormat

/-!
# A level on file

Every level that can be written is read back: `makeLevel` returns the parts of the
level in their order, each as `written` says, whatever the options, the bytes found
in memory, the sharing of objects and the reader's pool. Writing throws no error, and
it traps only when the bytes do not fit an `Int32`.
-/
namespace Arthius.Guarantees
open Arthius.Lib Arthius.Source.FlatBuffers

section Maps
variable {F G : Part → Type}

def mapParts (f : (part : Part) → F part → G part) (self : LevelData F) : LevelData G where
  levelMetadata := self.levelMetadata.map (f _)
  levelConditions := self.levelConditions.map (f _)
  texts := self.texts.map (f _)
  propFrame := self.propFrame
  endPoints := self.endPoints.map (f _)
  lineData := self.lineData.map (f _)
  gravityWells := self.gravityWells.map (f _)
  colorBoxData := self.colorBoxData.map (f _)
  rockData := self.rockData.map (f _)
  antiGravityZones := self.antiGravityZones.map (f _)

def mapLevel (f : (part : Part) → F part → G part) (self : Level F) : Level G :=
  ⟨self.levelData.map (mapParts f)⟩

end Maps

/-- The level that a graph of objects stands for. -/
def levelOf (graph : LevelGraph) : Level Part.Record :=
  mapLevel graph.heap ⟨graph.levelData.map Prod.snd⟩

/-- The strings of a level. -/
def levelDataStrings (self : LevelData Part.Record) : Set String :=
  {s | (∃ text ∈ self.texts, s ∈ partStrings .levelText text) ∨
    ∃ metadata ∈ self.levelMetadata, s ∈ partStrings .levelMetadata metadata}

def levelStrings (self : Level Part.Record) : Set String :=
  {s | ∃ levelData ∈ self.levelData, s ∈ levelDataStrings levelData}

def levelDataClass : TableClass LevelObject (LevelData Part.Record) where
  inject := .levelData
  cast := LevelObject.asLevelData
  blank := {}
  fill := LevelData.fill
  cast_inject := fun _ => rfl

def levelClass : TableClass LevelObject (Level Part.Record) where
  inject := .level
  cast := LevelObject.asLevel
  blank := {}
  fill := Level.fill
  cast_inject := fun _ => rfl

/-- The parts that the offsets of a `LevelData` refer to. -/
def partsAt {F : Part → Type} (meaning : (part : Part) → F part → Meaning LevelObject)
    (self : LevelData F)
    (offset9 offset8 offset7 offset6 offset5 offset4 offset2 offset1 offset0 : Offset) :
    Statement LevelObject :=
  (((((((((Statement.nothing).and
    (Meaning.vector (self.antiGravityZones.map (meaning _)) offset9)).and
    (Meaning.vector (self.rockData.map (meaning _)) offset8)).and
    (Meaning.vector (self.colorBoxData.map (meaning _)) offset7)).and
    (Meaning.vector (self.gravityWells.map (meaning _)) offset6)).and
    (Meaning.vector (self.lineData.map (meaning _)) offset5)).and
    (Meaning.vector (self.endPoints.map (meaning _)) offset4)).and
    (Meaning.vector (self.texts.map (meaning _)) offset2)).and
    (Meaning.optional (self.levelConditions.map (meaning _)) offset1)).and
    (Meaning.optional (self.levelMetadata.map (meaning _)) offset0)

section Parts
variable {F G : Part → Type} {doc : Document LevelObject} {self : LevelData F}
  {offset9 offset8 offset7 offset6 offset5 offset4 offset2 offset1 offset0 : Offset}

theorem values_of_partsAt {view : (part : Part) → part.Record → G part}
    {image : (part : Part) → F part → G part}
    (said : (partsAt (fun part x => (partClass part).meaning (view part) (image part x)) self offset9
      offset8 offset7 offset6 offset5 offset4 offset2 offset1 offset0).holds doc) :
    ∃ value : LevelData Part.Record, mapParts view value = mapParts image self ∧
      (partsAt (fun part => (partClass part).exactly) value offset9 offset8 offset7 offset6 offset5
        offset4 offset2 offset1 offset0).holds doc := by
  obtain ⟨⟨⟨⟨⟨⟨⟨⟨⟨_, said9⟩, said8⟩, said7⟩, said6⟩, said5⟩, said4⟩, said2⟩, said1⟩, said0⟩ := said
  obtain ⟨v9, same9, read9⟩ := TableClass.values_of_vector said9
  obtain ⟨v8, same8, read8⟩ := TableClass.values_of_vector said8
  obtain ⟨v7, same7, read7⟩ := TableClass.values_of_vector said7
  obtain ⟨v6, same6, read6⟩ := TableClass.values_of_vector said6
  obtain ⟨v5, same5, read5⟩ := TableClass.values_of_vector said5
  obtain ⟨v4, same4, read4⟩ := TableClass.values_of_vector said4
  obtain ⟨v2, same2, read2⟩ := TableClass.values_of_vector said2
  obtain ⟨v1, same1, read1⟩ := TableClass.value_of_optional said1
  obtain ⟨v0, same0, read0⟩ := TableClass.value_of_optional said0
  refine ⟨⟨v0, v1, v2, self.propFrame, v4, v5, v6, v7, v8, v9⟩, ?_, ⟨⟨⟨⟨⟨⟨⟨⟨⟨trivial, read9⟩, read8⟩,
    read7⟩, read6⟩, read5⟩, read4⟩, read2⟩, read1⟩, read0⟩⟩
  simp only [mapParts, same0, same1, same2, same4, same5, same6, same7, same8, same9]

theorem slotWritten_partsAt {format : Format LevelObject (ObjectIdentifier LevelClass)}
    {b : FlatBuffersBuilder (ObjectIdentifier LevelClass)} (sound : Sound format doc b)
    {meaning : (part : Part) → G part → Meaning LevelObject} {value : LevelData G}
    (said : (partsAt meaning value offset9 offset8 offset7 offset6 offset5 offset4 offset2 offset1
      offset0).holds doc) :
    ∀ slot ∈ self.slots offset9 offset8 offset7 offset6 offset5 offset4 offset2 offset1 offset0,
      SlotWritten b.cursor slot.2 := by
  obtain ⟨⟨⟨⟨⟨⟨⟨⟨⟨_, said9⟩, said8⟩, said7⟩, said6⟩, said5⟩, said4⟩, said2⟩, said1⟩, said0⟩ := said
  simp only [LevelData.slots, List.forall_mem_cons]
  exact ⟨(slotWritten_vector sound said9).vector _, (slotWritten_vector sound said8).vector _,
    (slotWritten_vector sound said7).vector _, (slotWritten_vector sound said6).vector _,
    (slotWritten_vector sound said5).vector _, (slotWritten_vector sound said4).vector _,
    slotWritten_optional _, (slotWritten_vector sound said2).vector _,
    (slotWritten_object sound said1).object _, (slotWritten_object sound said0).object _,
    fun _ member => nomatch member⟩

end Parts

section Reader
variable {file : List UInt8} {doc : Document LevelObject} {n : ℕ} {object : LevelObject}
  {properties : List (Option Property)} {force : Bool} {reading : List ℕ}

/-- `LevelData.fill` follows the offsets. -/
theorem fill_levelData {F : Part → Type} {G : Part → Type} {self : LevelData F}
    {value : LevelData Part.Record} {view : (part : Part) → part.Record → G part}
    {image : (part : Part) → F part → G part}
    {offset9 offset8 offset7 offset6 offset5 offset4 offset2 offset1 offset0 : Offset}
    (stores : Stores file doc) (there : doc n = some (.table object properties))
    (outer : ∀ m ∈ reading, n ≤ m) (same : mapParts view value = mapParts image self)
    (slotted : Slotted force properties
      (self.slots offset9 offset8 offset7 offset6 offset5 offset4 offset2 offset1 offset0))
    (parts : (partsAt (fun part => (partClass part).exactly) value offset9 offset8 offset7 offset6
      offset5 offset4 offset2 offset1 offset0).holds doc) :
    Reads file doc reading (LevelData.fill ⟨file⟩ (file.length - n)) value := by
  simp only [Slotted, LevelData.slots, List.forall_mem_cons] at slotted
  obtain ⟨slot9, slot8, slot7, slot6, slot5, slot4, slot3, slot2, slot1, slot0, _⟩ := slotted
  simp only [mapParts, LevelData.mk.injEq] at same
  obtain ⟨same0, same1, same2, frame, same4, same5, same6, same7, same8, same9⟩ := same
  obtain ⟨⟨⟨⟨⟨⟨⟨⟨⟨_, read9⟩, read8⟩, read7⟩, read6⟩, read5⟩, read4⟩, read2⟩, read1⟩, read0⟩ := parts
  have rebuilt : value = ⟨value.levelMetadata, value.levelConditions, value.texts, self.propFrame,
      value.endPoints, value.lineData, value.gravityWells, value.colorBoxData, value.rockData,
      value.antiGravityZones⟩ := by rw [← frame]
  rw [rebuilt]
  simp only [LevelData.fill, ← partClass_create]
  exact .bind (TableClass.readObject_reads stores outer there same0 read0 slot0)
    (.bind (TableClass.readObject_reads stores outer there same1 read1 slot1)
    (.bind (TableClass.readVector_reads stores outer there same2 read2 slot2)
    (.bind (.lift (getOptional_optional stores there slot3))
    (.bind (TableClass.readVector_reads stores outer there same4 read4 slot4)
    (.bind (TableClass.readVector_reads stores outer there same5 read5 slot5)
    (.bind (TableClass.readVector_reads stores outer there same6 read6 slot6)
    (.bind (TableClass.readVector_reads stores outer there same7 read7 slot7)
    (.bind (TableClass.readVector_reads stores outer there same8 read8 slot8)
    (.bind (TableClass.readVector_reads stores outer there same9 read9 slot9) .pure)))))))))

end Reader
section Writer
variable {format : Format LevelObject (ObjectIdentifier LevelClass)} {heap : Heap} {total : ℕ}

/-- The bytes that a `LevelData` takes at most, its parts included. -/
def levelDataBound (heap : Heap) (self : LevelData fun _ => ℕ) : ℕ :=
  vectorBound (fun number => partBound _ (heap .antiGravityData number)) self.antiGravityZones +
  (vectorBound (fun number => partBound _ (heap .rockData number)) self.rockData +
  (vectorBound (fun number => partBound _ (heap .colorBoxData number)) self.colorBoxData +
  (vectorBound (fun number => partBound _ (heap .gravityWellData number)) self.gravityWells +
  (vectorBound (fun number => partBound _ (heap .lineData number)) self.lineData +
  (vectorBound (fun number => partBound _ (heap .endData number)) self.endPoints +
  (vectorBound (fun number => partBound _ (heap .levelText number)) self.texts +
  ((self.levelConditions.map fun number => partBound _ (heap .levelConditions number)).getD 0 +
  ((self.levelMetadata.map fun number => partBound _ (heap .levelMetadata number)).getD 0 +
    tableBound 10 10))))))))

/-- A `LevelData` as the reader returns it. -/
def levelDataMeaning (encoding : Encoding) (heap : Heap) (self : LevelData fun _ => ℕ) :
    Meaning LevelObject :=
  levelDataClass.meaning (mapParts (mapStrings encoding.compared))
    (mapParts (fun part number => compared encoding part (heap part number)) self)

/-- The table of a `LevelData`, once its parts are there. -/
theorem levelDataTable_writes (self : LevelData fun _ => ℕ)
    (offset9 offset8 offset7 offset6 offset5 offset4 offset2 offset1 offset0 : Offset) :
    Writes format total (tableBound 10 10)
      (partsAt (fun part number => partMeaning format.toEncoding part (heap part number)) self offset9 offset8
        offset7 offset6 offset5 offset4 offset2 offset1 offset0)
      (levelDataMeaning format.toEncoding heap self).under (writeTable 10
        (self.slots offset9 offset8 offset7 offset6 offset5 offset4 offset2 offset1 offset0)) := by
  intro doc b sound said room
  obtain ⟨value, same, parts⟩ := values_of_partsAt said
  have writes : Writes format total (tableBound 10 10)
      (partsAt (fun part => (partClass part).exactly) value offset9 offset8 offset7 offset6 offset5
        offset4 offset2 offset1 offset0) (levelDataClass.meaning id value).under (writeTable 10
        (self.slots offset9 offset8 offset7 offset6 offset5 offset4 offset2 offset1 offset0)) := by
    have indices : ∀ slot ∈ self.slots offset9 offset8 offset7 offset6 offset5 offset4 offset2
        offset1 offset0, slot.1 < 10 := by simp [LevelData.slots]
    exact levelDataClass.writeTable_created indices
      (fun doc b sound parts => slotWritten_partsAt sound parts)
      (by decide : tableBound 10 10 < 2 ^ 15) fun parts stores there outer =>
        fill_levelData stores there outer same (slotted_tableProperties _
          (by decide : [9, 8, 7, 6, 5, 4, 3, 2, 1, 0].Nodup) indices) parts
  refine (writes doc b sound parts room).mono fun o b' spec => ?_
  obtain ⟨doc', further, sound', grown, n, is, value, rfl, read⟩ := spec
  exact ⟨doc', further, sound', grown, n, is, _, same, read⟩

section Graph
variable (parts : ∀ part number, format.meaning ⟨.part part, number⟩ =
  partMeaning format.toEncoding part (heap part number))
include parts

theorem addToByteArray_writes (part : Part) (number : ℕ)
    (known : ∀ s ∈ partStrings part (heap part number), s ∈ format.strings) :
    Writes format total (partBound part (heap part number)) .nothing
      (partMeaning format.toEncoding part (heap part number)).under
      (part.addToByteArray format.canonical heap number) := by
  rw [← parts]
  refine cached_writes ?_
  rw [parts]
  exact addPart_writes part (heap part number) known

theorem addLevelData_writes (self : LevelData fun _ => ℕ) (number : ℕ)
    (known : levelDataStrings (mapParts heap self) ⊆ format.strings)
    (means : format.meaning ⟨.levelData, number⟩ = levelDataMeaning format.toEncoding heap self) :
    Writes format total (levelDataBound heap self) .nothing
      (levelDataMeaning format.toEncoding heap self).under
      (self.addToByteArray format.canonical heap number) := by
  have plain : ∀ part number, partStrings part (heap part number) = [] →
      Writes format total (partBound part (heap part number)) .nothing
        (partMeaning format.toEncoding part (heap part number)).under
        (part.addToByteArray format.canonical heap number) := fun part number none =>
    addToByteArray_writes parts part number (none ▸ fun _ member => nomatch member)
  rw [← means]
  refine cached_writes ?_
  rw [means]
  exact (insertVector_writes _ fun _ _ => plain _ _ rfl).bind fun _ =>
    (insertVector_writes _ fun _ _ => plain _ _ rfl).afterwards.bind fun _ =>
    (insertVector_writes _ fun _ _ => plain _ _ rfl).afterwards.bind fun _ =>
    (insertVector_writes _ fun _ _ => plain _ _ rfl).afterwards.bind fun _ =>
    (insertVector_writes _ fun _ _ => plain _ _ rfl).afterwards.bind fun _ =>
    (insertVector_writes _ fun _ _ => plain _ _ rfl).afterwards.bind fun _ =>
    (insertVector_writes _ fun number member => addToByteArray_writes parts .levelText number
      fun s there => known (.inl ⟨_, List.mem_map_of_mem member, there⟩)).afterwards.bind fun _ =>
    (insertObject_writes _ fun _ _ => plain _ _ rfl).afterwards.bind fun _ =>
    (insertObject_writes _ fun number is => addToByteArray_writes parts .levelMetadata number
      fun s there => known (.inr ⟨_, Option.mem_map_of_mem _ is, there⟩)).afterwards.bind fun _ =>
    levelDataTable_writes self _ _ _ _ _ _ _ _ _

end Graph
end Writer

section Level
variable (encoding : Encoding) (graph : LevelGraph)

/-- The bytes that a level takes at most. -/
def levelBound : ℕ :=
  (graph.levelData.map fun levelData => levelDataBound graph.heap levelData.2).getD 0 +
    tableBound 1 1

/-- A level as the reader returns it. -/
def levelMeaning : Meaning LevelObject :=
  levelClass.meaning (mapLevel (mapStrings encoding.compared))
    (mapLevel (compared encoding) (levelOf graph))

/-- What the object identifiers of a level stand for. -/
def levelFormat : Format LevelObject (ObjectIdentifier LevelClass) where
  toEncoding := encoding
  meaning := fun self =>
    match self.kind with
    | .level => levelMeaning encoding graph
    | .levelData => levelDataMeaning encoding graph.heap ((graph.levelData.map Prod.snd).getD {})
    | .part part => partMeaning encoding part (graph.heap part self.number)

theorem mapParts_mapParts {F G H : Part → Type} (f : (part : Part) → F part → G part)
    (g : (part : Part) → G part → H part) (self : LevelData F) :
    mapParts g (mapParts f self) = mapParts (fun part x => g part (f part x)) self := by
  simp [mapParts, Function.comp_def]

theorem mapLevel_mapLevel {F G H : Part → Type} (f : (part : Part) → F part → G part)
    (g : (part : Part) → G part → H part) (self : Level F) :
    mapLevel g (mapLevel f self) = mapLevel (fun part x => g part (f part x)) self := by
  simp [mapLevel, Function.comp_def, mapParts_mapParts]

theorem mapLevel_strings_id (self : Level Part.Record) : mapLevel (mapStrings id) self = self := by
  have parts : mapParts (mapStrings id) = id := by
    funext self
    simp [mapParts, mapStrings_id]
  simp [mapLevel, parts]

theorem levelTable_writes {total : ℕ} (offset0 : Offset) :
    Writes (levelFormat encoding graph) total (tableBound 1 1)
      ((Statement.nothing).and (Meaning.optional (graph.levelData.map fun levelData =>
        levelDataMeaning encoding graph.heap levelData.2) offset0))
      (levelMeaning encoding graph).under
      (writeTable 1 [(0, .object graph.levelData offset0)]) := by
  rintro doc b sound ⟨_, said⟩ room
  obtain ⟨value, same, read⟩ := TableClass.value_of_optional said
  have writes : Writes (levelFormat encoding graph) total (tableBound 1 1)
      (Meaning.optional (value.map levelDataClass.exactly) offset0)
      (levelClass.meaning id ⟨value⟩).under (writeTable 1 [(0, .object graph.levelData offset0)]) := by
    have indices : ∀ slot ∈ [(0, Slot.object graph.levelData offset0)], slot.1 < 1 := by simp
    refine levelClass.writeTable_created indices (fun doc b sound read => ?_)
      (by decide : tableBound 1 1 < 2 ^ 15) fun read stores there outer => ?_
    · simpa using (slotWritten_object sound read).object graph.levelData
    · have slotted := slotted_tableProperties encoding.options.forceDefaults (by simp) indices
      exact .bind (TableClass.readObject_reads stores outer there same read
        (slotted _ List.mem_cons_self)) .pure
  refine (writes doc b sound read room).mono fun o b' spec => ?_
  obtain ⟨doc', further, sound', grown, n, is, level, rfl, created⟩ := spec
  refine ⟨doc', further, sound', grown, n, is, _, ?_, created⟩
  simp only [mapLevel, levelOf, same, Option.map_map, Function.comp_def, mapParts_mapParts]

theorem addLevel_writes (known : levelStrings (levelOf graph) ⊆ encoding.strings) (total : ℕ) :
    Writes (levelFormat encoding graph) total (levelBound graph) .nothing
      (levelMeaning encoding graph).under (graph.addToByteArray encoding.canonical) := by
  have means : (levelFormat encoding graph).meaning ⟨.level, graph.level⟩ =
      levelMeaning encoding graph := rfl
  rw [← means]
  refine cached_writes ?_
  refine (insertObject_writes graph.levelData fun levelData there => ?_).bind
    (levelTable_writes encoding graph)
  refine addLevelData_writes (fun _ _ => rfl) levelData.2 levelData.1 (fun s member => ?_) ?_
  · refine known ⟨_, ?_, member⟩
    simp only [levelOf, mapLevel, there, Option.map_some]
    rfl
  · simp only [levelFormat, there, Option.map_some, Option.getD_some]

/-- What is read from the file of a level, under any view of its strings. -/
theorem makeLevel_view (known : levelStrings (levelOf graph) ⊆ encoding.strings)
    (garbage : ℕ → UInt8) :
    match graph.makeData encoding.canonical encoding.options garbage with
    | .ok file => file.length ≤ levelBound graph + 11 ∧ ∃ level,
        (∀ cache ∈ [none, some []], makeLevel file cache = .ok (some level)) ∧
        mapLevel (mapStrings encoding.compared) level = mapLevel (compared encoding) (levelOf graph)
    | .error failure => failure = .trap ∧ 2 ^ 31 ≤ levelBound graph + 11 := by
  have spec := makeData_spec (addLevel_writes encoding graph known) garbage
  change match graph.makeData encoding.canonical encoding.options garbage with
    | .ok file => _
    | .error failure => _ at spec
  split at spec
  · next file _ =>
    obtain ⟨bound, doc, root, finished, level, same, read⟩ := spec
    refine ⟨bound, level, fun cache fresh => ?_, same⟩
    obtain ⟨cache', returned⟩ := TableClass.read_root finished read fresh
    have creates : levelClass.create ⟨file⟩ = Level.create ⟨file⟩ := rfl
    rw [creates] at returned
    dsimp only [makeLevel]
    rw [returned]
  · exact spec

/-- Every level that fits is read back, under the canonical form of its strings, and exactly
where no two of them compare equal. -/
theorem makeLevel_makeData (canonical : String → String) (options : FlatBuffersBuilderOptions)
    (garbage : ℕ → UInt8) :
    match graph.makeData canonical options garbage with
    | .ok file => file.length ≤ levelBound graph + 11 ∧ ∃ level,
        (∀ cache ∈ [none, some []], makeLevel file cache = .ok (some level)) ∧
        mapLevel (mapStrings canonical) level = mapLevel (mapStrings canonical)
          (mapLevel (written options.forceDefaults) (levelOf graph)) ∧
        (Distinct canonical options (levelStrings (levelOf graph)) →
          level = mapLevel (written options.forceDefaults) (levelOf graph))
    | .error failure => failure = .trap ∧ 2 ^ 31 ≤ levelBound graph + 11 := by
  have viewed := makeLevel_view (.canonically canonical options _) graph (Set.Subset.refl _) garbage
  have exact_ : ∀ distinct : Distinct canonical options (levelStrings (levelOf graph)), _ :=
    fun distinct => makeLevel_view (.exactly distinct) graph (Set.Subset.refl _) garbage
  dsimp only [Encoding.canonically, Encoding.exactly] at viewed exact_
  split at viewed
  · next file made =>
    obtain ⟨bound, level, read, same⟩ := viewed
    refine ⟨bound, level, read, ?_, fun distinct => ?_⟩
    · rw [same, mapLevel_mapLevel]
      rfl
    · have other := exact_ distinct
      rw [made] at other
      obtain ⟨_, level', read', same'⟩ := other
      have agree := (read none List.mem_cons_self).symm.trans (read' none List.mem_cons_self)
      obtain rfl : level = level' := Option.some.inj (Except.ok.inj agree)
      have strings : compared (.exactly distinct) = written options.forceDefaults := by
        funext part self
        exact congrFun (mapStrings_id part) _
      rw [mapLevel_strings_id] at same'
      exact same'.trans (congrArg (mapLevel · (levelOf graph)) strings)
  · exact viewed

end Level
end Arthius.Guarantees
