import Arthius.Source.ProgressFB
import Arthius.Guarantees.DocumentReading

/-!
# The progress on file

The stored progress is read back entry by entry, in order, with the same guarantees
as a level: whatever the options and the bytes found in memory, with entries
shared or not, with or without a pool.
-/
namespace Arthius.Guarantees
open Arthius.Lib Arthius.Source.FlatBuffers

/-- What an entry reads as when its identifier is written as it is. -/
def writtenEntry (force : Bool) (self : LevelProgressData) : LevelProgressData :=
  { self with time := kept force self.time 0, distance := kept force self.distance 0 }

def mapEntry (f : String → String) (self : LevelProgressData) : LevelProgressData :=
  { self with uuid := self.uuid.map f }

def entryClass : TableClass ProgressObject LevelProgressData where
  inject := .levelProgressData
  cast := ProgressObject.asLevelProgressData
  blank := {}
  fill := fun reader objectOffset => liftRead (LevelProgressData.fill reader objectOffset)
  cast_inject := fun _ => rfl

def progressClass : TableClass ProgressObject Progress where
  inject := .progress
  cast := ProgressObject.asProgress
  blank := {}
  fill := Progress.fill
  cast_inject := fun _ => rfl

/-- The progress that a graph of entries stands for, its entries mapped. -/
def progressOf (f : LevelProgressData → LevelProgressData) (graph : ProgressGraph) : Progress :=
  ⟨graph.progressData.map fun number => f (graph.entry number)⟩

def mapEntries (f : LevelProgressData → LevelProgressData) (self : Progress) : Progress :=
  ⟨self.progressData.map f⟩

theorem fill_entry {file : List UInt8} {doc : Document ProgressObject} {n : ℕ}
    {object : ProgressObject} {properties : List (Option Property)} {force : Bool}
    (stores : Stores file doc) (there : doc n = some (.table object properties))
    {self : LevelProgressData} {offset0 : Offset} {s : Option String}
    (slotted : Slotted force properties (self.slots offset0))
    (uuid : (Statement.text offset0 s).holds doc) :
    LevelProgressData.fill ⟨file⟩ (file.length - n) =
      .ok (writtenEntry force { self with uuid := s }) := by
  simp only [Slotted, LevelProgressData.slots, List.forall_mem_cons] at slotted
  obtain ⟨distance, time, stars, locked, completed, string, _⟩ := slotted
  simp only [LevelProgressData.fill, get_value stores there distance, get_value stores there time,
    get_value stores there stars, get_value stores there locked, get_value stores there completed,
    readString_text stores there uuid string, kept_int32, kept_bool, bind, Except.bind]
  rfl

section Writer
variable (encoding : Encoding) (graph : ProgressGraph)

def entryMeaning (self : LevelProgressData) : Meaning ProgressObject :=
  entryClass.meaning (mapEntry encoding.compared)
    (mapEntry encoding.compared (writtenEntry encoding.options.forceDefaults self))

def progressMeaning : Meaning ProgressObject :=
  progressClass.meaning (mapEntries (mapEntry encoding.compared)) (progressOf (fun self =>
    mapEntry encoding.compared (writtenEntry encoding.options.forceDefaults self)) graph)

def progressFormat : Format ProgressObject (ObjectIdentifier ProgressClass) where
  toEncoding := encoding
  meaning := fun self =>
    match self.kind with
    | .progress => progressMeaning encoding graph
    | .levelProgressData => entryMeaning encoding (graph.entry self.number)

def entryBound (self : LevelProgressData) : ℕ := stringBound self.uuid + tableBound 6 6

/-- The bytes that the progress takes at most. -/
def progressBound : ℕ :=
  vectorBound (fun number => entryBound (graph.entry number)) graph.progressData + tableBound 1 1

/-- The identifiers of the entries. -/
def progressStrings : Set String :=
  {s | ∃ number ∈ graph.progressData, s ∈ (graph.entry number).uuid}

variable {total : ℕ}

/-- An entry, once its string is there. -/
theorem entryTable_writes {format : Format ProgressObject (ObjectIdentifier ProgressClass)}
    (self : LevelProgressData) (offset0 : Offset) :
    Writes format total (tableBound 6 6)
      ((Statement.nothing).and (.textLike format.compared self.uuid offset0))
      (entryMeaning format.toEncoding self).under (writeTable 6 (self.slots offset0)) := by
  rintro doc b sound ⟨_, s, same, string⟩ room
  have writes : Writes format total (tableBound 6 6) (.text offset0 s)
      (entryClass.meaning id (writtenEntry format.options.forceDefaults { self with uuid := s })).under
      (writeTable 6 (self.slots offset0)) := by
    have indices : ∀ slot ∈ self.slots offset0, slot.1 < 6 := by simp [LevelProgressData.slots]
    refine entryClass.writeTable_created indices (fun doc b sound text => ?_)
      (by decide : tableBound 6 6 < 2 ^ 15) fun text stores there _ =>
        .lift (fill_entry stores there (slotted_tableProperties _
          (by decide : [5, 4, 3, 2, 1, 0].Nodup) indices) text)
    simp [LevelProgressData.slots, slotWritten_text sound text]
  refine (writes doc b sound string room).mono fun o b' spec => ?_
  obtain ⟨doc', further, sound', grown, n, is, value, rfl, read⟩ := spec
  refine ⟨doc', further, sound', grown, n, is, _, ?_, read⟩
  simp only [mapEntry, writtenEntry, same]

theorem addEntry_writes (number : ℕ)
    (known : ∀ s ∈ (graph.entry number).uuid, s ∈ encoding.strings) :
    Writes (progressFormat encoding graph) total (entryBound (graph.entry number)) .nothing
      (entryMeaning encoding (graph.entry number)).under
      (graph.addEntry encoding.canonical number) := by
  have means : (progressFormat encoding graph).meaning ⟨.levelProgressData, number⟩ =
      entryMeaning encoding (graph.entry number) := rfl
  rw [← means]
  exact cached_writes ((insertString_writes known).bind (entryTable_writes (graph.entry number)))

theorem progressTable_writes (offset0 : Offset) :
    Writes (progressFormat encoding graph) total (tableBound 1 1)
      ((Statement.nothing).and (Meaning.vector (graph.progressData.map fun number =>
        entryMeaning encoding (graph.entry number)) offset0))
      (progressMeaning encoding graph).under
      (writeTable 1 [(0, .vector graph.progressData offset0)]) := by
  rintro doc b sound ⟨_, said⟩ room
  obtain ⟨values, same, read⟩ := TableClass.values_of_vector said
  have writes : Writes (progressFormat encoding graph) total (tableBound 1 1)
      (Meaning.vector (values.map entryClass.exactly) offset0)
      (progressClass.meaning id ⟨values⟩).under
      (writeTable 1 [(0, .vector graph.progressData offset0)]) := by
    have indices : ∀ slot ∈ [(0, Slot.vector graph.progressData offset0)], slot.1 < 1 := by simp
    refine progressClass.writeTable_created indices (fun doc b sound read => ?_)
      (by decide : tableBound 1 1 < 2 ^ 15) fun read stores there outer => ?_
    · simpa using (slotWritten_vector sound read).vector graph.progressData
    · have slotted := slotted_tableProperties encoding.options.forceDefaults (by simp) indices
      exact .bind (TableClass.readVector_reads stores outer there same read
        (slotted _ List.mem_cons_self)) .pure
  refine (writes doc b sound read room).mono fun o b' spec => ?_
  obtain ⟨doc', further, sound', grown, n, is, progress, rfl, created⟩ := spec
  exact ⟨doc', further, sound', grown, n, is, _, congrArg Progress.mk same, created⟩

theorem addProgress_writes (known : progressStrings graph ⊆ encoding.strings) (total : ℕ) :
    Writes (progressFormat encoding graph) total (progressBound graph) .nothing
      (progressMeaning encoding graph).under (graph.addToByteArray encoding.canonical) := by
  have means : (progressFormat encoding graph).meaning ⟨.progress, graph.progress⟩ =
      progressMeaning encoding graph := rfl
  rw [← means]
  exact cached_writes ((insertVector_writes graph.progressData fun number member =>
    addEntry_writes encoding graph number fun s there => known ⟨number, member, there⟩).bind
      (progressTable_writes encoding graph))

/-- What is read from the file of the progress, under any view of its strings. -/
theorem makeProgress_view (known : progressStrings graph ⊆ encoding.strings)
    (garbage : ℕ → UInt8) :
    match graph.makeData encoding.canonical encoding.options garbage with
    | .ok file => file.length ≤ progressBound graph + 11 ∧ ∃ progress,
        (∀ cache ∈ [none, some []], makeProgress file cache = .ok (some progress)) ∧
        mapEntries (mapEntry encoding.compared) progress = progressOf (fun self =>
          mapEntry encoding.compared (writtenEntry encoding.options.forceDefaults self)) graph
    | .error failure => failure = .trap ∧ 2 ^ 31 ≤ progressBound graph + 11 := by
  have spec := makeData_spec (addProgress_writes encoding graph known) garbage
  change match graph.makeData encoding.canonical encoding.options garbage with
    | .ok file => _
    | .error failure => _ at spec
  split at spec
  · next file _ =>
    obtain ⟨bound, doc, root, finished, progress, same, read⟩ := spec
    refine ⟨bound, progress, fun cache fresh => ?_, same⟩
    obtain ⟨cache', returned⟩ := TableClass.read_root finished read fresh
    have creates : progressClass.create ⟨file⟩ = Progress.create ⟨file⟩ := rfl
    rw [creates] at returned
    dsimp only [makeProgress]
    rw [returned]
  · exact spec

/-- Every progress that fits is read back, under the canonical form of its identifiers, and
exactly where no two of them compare equal. -/
theorem makeProgress_makeData (canonical : String → String) (options : FlatBuffersBuilderOptions)
    (garbage : ℕ → UInt8) :
    match graph.makeData canonical options garbage with
    | .ok file => file.length ≤ progressBound graph + 11 ∧ ∃ progress,
        (∀ cache ∈ [none, some []], makeProgress file cache = .ok (some progress)) ∧
        mapEntries (mapEntry canonical) progress = progressOf (fun self =>
          mapEntry canonical (writtenEntry options.forceDefaults self)) graph ∧
        (Distinct canonical options (progressStrings graph) →
          progress = progressOf (writtenEntry options.forceDefaults) graph)
    | .error failure => failure = .trap ∧ 2 ^ 31 ≤ progressBound graph + 11 := by
  have viewed := makeProgress_view (.canonically canonical options _) graph (Set.Subset.refl _)
    garbage
  have exact_ : ∀ distinct : Distinct canonical options (progressStrings graph), _ :=
    fun distinct => makeProgress_view (.exactly distinct) graph (Set.Subset.refl _) garbage
  dsimp only [Encoding.canonically, Encoding.exactly] at viewed exact_
  split at viewed
  · next file made =>
    obtain ⟨bound, progress, read, same⟩ := viewed
    refine ⟨bound, progress, read, same, fun distinct => ?_⟩
    have other := exact_ distinct
    rw [made] at other
    obtain ⟨_, progress', read', same'⟩ := other
    have agree := (read none List.mem_cons_self).symm.trans (read' none List.mem_cons_self)
    obtain rfl : progress = progress' := Option.some.inj (Except.ok.inj agree)
    have strings : mapEntry id = id := by
      funext self
      simp [mapEntry]
    simpa [strings, mapEntries] using same'
  · exact viewed

end Writer
end Arthius.Guarantees
