import Arthius.Source.LevelFB
import Arthius.Guarantees.DocumentReading

/-!
# Parts of a level on file

What a part of a level reads as after it has been written. A missing text trigger
comes back as the trigger `none`, and a number that equals its default comes back as
the default, which turns a negative zero into zero. A unique string comes back as the
first one written that compares equal to it.
-/
namespace Arthius.Guarantees
open Arthius.Lib Arthius.Source.FlatBuffers

/-- What a part reads as when its strings are written as they are. -/
def written (force : Bool) : (part : Part) → part.Record → part.Record
  | .levelConditions, (self : LevelConditions) =>
    ({ maxDistance := kept force self.maxDistance 0, maxTime := kept force self.maxTime 0 } :
      LevelConditions)
  | .levelText, (self : LevelText) =>
    ({ self with triggerOn := some (self.triggerOn.getD .none)
                 animateTime := kept force self.animateTime 0 } : LevelText)
  | .levelMetadata, self => self
  | .gravityWellData, (self : GravityWellData) =>
    ({ self with mass := kept force self.mass 0
                 coreDiameter := kept force self.coreDiameter 0
                 areaOfEffectDiameter := kept force self.areaOfEffectDiameter 0 } : GravityWellData)
  | .colorBoxData, (self : ColorBoxData) =>
    ({ self with rotation := kept force self.rotation 0
                 middlePropWidth := kept force self.middlePropWidth 0 } : ColorBoxData)
  | .lineData, (self : LineData) =>
    ({ self with startThickness := kept force self.startThickness 0 } : LineData)
  | .rockData, (self : RockData) =>
    ({ self with diameter := kept force self.diameter 0 } : RockData)
  | .antiGravityData, self => self
  | .endData, self => self

def mapStrings (f : String → String) : (part : Part) → part.Record → part.Record
  | .levelText, (self : LevelText) => ({ self with text := self.text.map f } : LevelText)
  | .levelMetadata, (self : LevelMetadata) =>
    ({ self with levelUUID := self.levelUUID.map f
                 levelName := self.levelName.map f
                 levelVersion := self.levelVersion.map f
                 levelAuthor := self.levelAuthor.map f } : LevelMetadata)
  | _, self => self

/-- The strings of a part, in the order in which they are written. -/
def partStrings : (part : Part) → part.Record → List String
  | .levelText, (self : LevelText) => self.text.toList
  | .levelMetadata, (self : LevelMetadata) => self.levelAuthor.toList ++ self.levelVersion.toList ++
      self.levelName.toList ++ self.levelUUID.toList
  | _, _ => []

theorem mapStrings_id (part : Part) : mapStrings id part = id := by
  funext self
  cases part <;> simp [mapStrings]

theorem ofRawValue_rawValue (trigger : LevelTextTriggers) :
    LevelTextTriggers.ofRawValue trigger.rawValue = some trigger := by
  cases trigger <;> rfl

section Fill
variable {file : List UInt8} {doc : Document LevelObject} {n : ℕ} {object : LevelObject}
  {properties : List (Option Property)} {force : Bool} (stores : Stores file doc)
  (there : doc n = some (.table object properties))
include stores there

theorem fill_levelConditions {self : LevelConditions}
    (slotted : Slotted force properties self.slots) :
    Part.levelConditions.fill ⟨file⟩ (file.length - n) =
      .ok (written force .levelConditions self) := by
  simp only [Slotted, LevelConditions.slots, List.forall_mem_cons] at slotted
  obtain ⟨time, distance, _⟩ := slotted
  simp only [Part.fill, get_value stores there time, get_value stores there distance, bind,
    Except.bind]
  rfl

theorem fill_levelText {self : LevelText} {offset1 : Offset} {s : Option String}
    (slotted : Slotted force properties (self.slots offset1))
    (text : (Statement.text offset1 s).holds doc) :
    Part.levelText.fill ⟨file⟩ (file.length - n) =
      .ok (written force .levelText { self with text := s }) := by
  simp only [Slotted, LevelText.slots, List.forall_mem_cons] at slotted
  obtain ⟨size, color, frame, animateOut, animateIn, time, next, trigger, string, id, _⟩ := slotted
  have none : LevelTextTriggers.none.rawValue = 0 := rfl
  have raw : (self.triggerOn.map LevelTextTriggers.rawValue).getD 0 =
      (self.triggerOn.getD .none).rawValue := by cases self.triggerOn <;> rfl
  simp only [Part.fill, none, get_value stores there size, getOptional_optional stores there color,
    getOptional_optional stores there frame, get_value stores there animateOut,
    get_value stores there animateIn, get_value stores there time, get_value stores there next,
    get_value stores there trigger, readString_text stores there text string,
    get_value stores there id, kept_int32, kept_int8, kept_bool, raw, ofRawValue_rawValue, bind,
    Except.bind]
  rfl

theorem fill_levelMetadata {self : LevelMetadata} {offset4 offset3 offset2 offset0 : Offset}
    {s4 s3 s2 s0 : Option String}
    (slotted : Slotted force properties (self.slots offset4 offset3 offset2 offset0))
    (author : (Statement.text offset4 s4).holds doc)
    (version : (Statement.text offset3 s3).holds doc) (name : (Statement.text offset2 s2).holds doc)
    (uuid : (Statement.text offset0 s0).holds doc) :
    Part.levelMetadata.fill ⟨file⟩ (file.length - n) = .ok (written force .levelMetadata
      { self with levelUUID := s0, levelName := s2, levelVersion := s3, levelAuthor := s4 }) := by
  simp only [Slotted, LevelMetadata.slots, List.forall_mem_cons] at slotted
  obtain ⟨thumbnail, slot4, slot3, slot2, number, slot0, _⟩ := slotted
  simp only [Part.fill, getOptional_optional stores there thumbnail,
    readString_text stores there author slot4, readString_text stores there version slot3,
    readString_text stores there name slot2, get_value stores there number, kept_int32,
    readString_text stores there uuid slot0, bind, Except.bind]
  rfl

theorem fill_gravityWellData {self : GravityWellData}
    (slotted : Slotted force properties self.slots) :
    Part.gravityWellData.fill ⟨file⟩ (file.length - n) =
      .ok (written force .gravityWellData self) := by
  simp only [Slotted, GravityWellData.slots, List.forall_mem_cons] at slotted
  obtain ⟨area, core, mass, position, _⟩ := slotted
  simp only [Part.fill, get_value stores there area, get_value stores there core,
    get_value stores there mass, getOptional_optional stores there position, bind, Except.bind]
  rfl

theorem fill_colorBoxData {self : ColorBoxData} (slotted : Slotted force properties self.slots) :
    Part.colorBoxData.fill ⟨file⟩ (file.length - n) = .ok (written force .colorBoxData self) := by
  simp only [Slotted, ColorBoxData.slots, List.forall_mem_cons] at slotted
  obtain ⟨width, background, right, left, rotation, frame, _⟩ := slotted
  simp only [Part.fill, get_value stores there width, getOptional_optional stores there background,
    getOptional_optional stores there right, getOptional_optional stores there left,
    get_value stores there rotation, getOptional_optional stores there frame, bind, Except.bind]
  rfl

theorem fill_lineData {self : LineData} (slotted : Slotted force properties self.slots) :
    Part.lineData.fill ⟨file⟩ (file.length - n) = .ok (written force .lineData self) := by
  simp only [Slotted, LineData.slots, List.forall_mem_cons] at slotted
  obtain ⟨thickness, color, velocity, position, _⟩ := slotted
  simp only [Part.fill, get_value stores there thickness, getOptional_optional stores there color,
    getOptional_optional stores there velocity, getOptional_optional stores there position,
    bind, Except.bind]
  rfl

theorem fill_rockData {self : RockData} (slotted : Slotted force properties self.slots) :
    Part.rockData.fill ⟨file⟩ (file.length - n) = .ok (written force .rockData self) := by
  simp only [Slotted, RockData.slots, List.forall_mem_cons] at slotted
  obtain ⟨diameter, position, _⟩ := slotted
  simp only [Part.fill, get_value stores there diameter,
    getOptional_optional stores there position, bind, Except.bind]
  rfl

theorem fill_antiGravityData {self : AntiGravityData}
    (slotted : Slotted force properties self.slots) :
    Part.antiGravityData.fill ⟨file⟩ (file.length - n) =
      .ok (written force .antiGravityData self) := by
  simp only [Slotted, AntiGravityData.slots, List.forall_mem_cons] at slotted
  obtain ⟨color, frame, _⟩ := slotted
  simp only [Part.fill, getOptional_optional stores there color,
    getOptional_optional stores there frame, bind, Except.bind]
  rfl

theorem fill_endData {self : EndData} (slotted : Slotted force properties self.slots) :
    Part.endData.fill ⟨file⟩ (file.length - n) = .ok (written force .endData self) := by
  simp only [Slotted, EndData.slots, List.forall_mem_cons] at slotted
  obtain ⟨color, frame, _⟩ := slotted
  simp only [Part.fill, getOptional_optional stores there color,
    getOptional_optional stores there frame, bind, Except.bind]
  rfl

end Fill

/-! Writing a part. -/

def partClass (part : Part) : TableClass LevelObject part.Record where
  inject := .part part
  cast := LevelObject.asPart part
  blank := part.blank
  fill := fun reader objectOffset => liftRead (part.fill reader objectOffset)
  cast_inject := fun value => by rw [LevelObject.asPart, dif_pos rfl]

theorem partClass_create (reader : FlatBuffersReader) (part : Part) :
    (partClass part).create reader = part.create reader := rfl

section Writer
variable {format : Format LevelObject (ObjectIdentifier LevelClass)} {total : ℕ}

/-- A part whose table reads as the value. -/
theorem writePart_created {part : Part} {value : part.Record} {count : ℕ}
    (slots : List (ℕ × Slot)) {given : Statement LevelObject}
    (distinct : (slots.map Prod.fst).Nodup) (indices : ∀ slot ∈ slots, slot.1 < count)
    (written : ∀ (doc : Document LevelObject) (b : FlatBuffersBuilder (ObjectIdentifier LevelClass)),
      Sound format doc b → given.holds doc → ∀ slot ∈ slots, SlotWritten b.cursor slot.2)
    (few : tableBound count slots.length < 2 ^ 15)
    (fills : ∀ {doc file properties} {n : ℕ} {object}, given.holds doc → Stores file doc →
      doc n = some (.table object properties) →
      Slotted format.options.forceDefaults properties slots →
      part.fill ⟨file⟩ (file.length - n) = .ok value) :
    Writes format total (tableBound count slots.length) given
      ((partClass part).meaning id value).under (writeTable count slots) :=
  TableClass.writeTable_created indices written few fun before stores there _ =>
    .lift (fills before stores there (slotted_tableProperties _ distinct indices))

/-- The bytes that a part takes at most, its strings included. -/
def partBound : (part : Part) → part.Record → ℕ
  | .levelConditions, _ => tableBound 2 2
  | .levelText, (self : LevelText) => stringBound self.text + tableBound 10 10
  | .levelMetadata, (self : LevelMetadata) => stringBound self.levelAuthor +
      (stringBound self.levelVersion + (stringBound self.levelName +
        (stringBound self.levelUUID + tableBound 6 6)))
  | .gravityWellData, _ => tableBound 4 4
  | .colorBoxData, _ => tableBound 6 6
  | .lineData, _ => tableBound 4 4
  | .rockData, _ => tableBound 2 2
  | .antiGravityData, _ => tableBound 2 2
  | .endData, _ => tableBound 2 2

/-- What a part is compared by after reading it back. -/
def compared (encoding : Encoding) (part : Part) (self : part.Record) : part.Record :=
  mapStrings encoding.compared part (written encoding.options.forceDefaults part self)

/-- A part as the reader returns it. -/
def partMeaning (encoding : Encoding) (part : Part) (self : part.Record) : Meaning LevelObject :=
  (partClass part).meaning (mapStrings encoding.compared part) (compared encoding part self)

/-- A part without strings. -/
theorem plainPart_writes (part : Part) (self : part.Record) (count : ℕ)
    (slots : List (ℕ × Slot)) (distinct : (slots.map Prod.fst).Nodup)
    (indices : ∀ slot ∈ slots, slot.1 < count)
    (plain : ∀ cursor, ∀ slot ∈ slots, SlotWritten cursor slot.2)
    (few : tableBound count slots.length < 2 ^ 15)
    (fills : ∀ {file} {doc : Document LevelObject} {properties} {n : ℕ} {object}, Stores file doc →
      doc n = some (.table object properties) →
      Slotted format.options.forceDefaults properties slots →
      part.fill ⟨file⟩ (file.length - n) = .ok (written format.options.forceDefaults part self)) :
    Writes format total (tableBound count slots.length) .nothing
      (partMeaning format.toEncoding part self).under (writeTable count slots) := by
  refine (writePart_created slots distinct indices (fun _ b _ _ => plain b.cursor) few
    fun _ => fills).imp le_rfl (fun _ said => said) ?_
  rintro o doc ⟨n, is, value, same, read⟩
  exact ⟨n, is, value, congrArg (mapStrings format.compared part) same, read⟩

/-- A text, once its string is there. -/
theorem textTable_writes (self : LevelText) (offset1 : Offset) :
    Writes format total (tableBound 10 10)
      ((Statement.nothing).and (.textLike format.compared self.text offset1))
      (partMeaning format.toEncoding .levelText self).under (writeTable 10 (self.slots offset1)) := by
  rintro doc b sound ⟨_, s, same, string⟩ room
  have writes : Writes format total (tableBound 10 10) (.text offset1 s)
      ((partClass .levelText).meaning id
        (written format.options.forceDefaults .levelText { self with text := s })).under
      (writeTable 10 (self.slots offset1)) := by
    refine writePart_created (self.slots offset1) (by decide : [9, 8, 7, 6, 5, 4, 3, 2, 1, 0].Nodup)
      (by simp [LevelText.slots]) (fun doc b sound text => ?_)
      (by decide : tableBound 10 10 < 2 ^ 15)
      fun text stores there slotted => fill_levelText stores there slotted text
    simp [LevelText.slots, slotWritten_text sound text]
  refine (writes doc b sound string room).mono fun o b' spec => ?_
  obtain ⟨doc', further, sound', grown, n, is, value, rfl, read⟩ := spec
  refine ⟨doc', further, sound', grown, n, is, _, ?_, read⟩
  simp only [compared, mapStrings, written, same]

/-- The metadata, once their strings are there. -/
theorem metadataTable_writes (self : LevelMetadata) (offset4 offset3 offset2 offset0 : Offset) :
    Writes format total (tableBound 6 6)
      (((((Statement.nothing).and (.textLike format.compared self.levelAuthor offset4)).and
        (.textLike format.compared self.levelVersion offset3)).and
        (.textLike format.compared self.levelName offset2)).and
        (.textLike format.compared self.levelUUID offset0))
      (partMeaning format.toEncoding .levelMetadata self).under
      (writeTable 6 (self.slots offset4 offset3 offset2 offset0)) := by
  rintro doc b sound ⟨⟨⟨⟨_, s4, same4, author⟩, s3, same3, version⟩, s2, same2, name⟩, s0, same0,
    uuid⟩ room
  have writes : Writes format total (tableBound 6 6)
      ((((Statement.text offset4 s4).and (.text offset3 s3)).and (.text offset2 s2)).and
        (.text offset0 s0))
      ((partClass .levelMetadata).meaning id (written format.options.forceDefaults .levelMetadata
        { self with levelUUID := s0, levelName := s2, levelVersion := s3, levelAuthor := s4 })).under
      (writeTable 6 (self.slots offset4 offset3 offset2 offset0)) := by
    refine writePart_created (self.slots offset4 offset3 offset2 offset0) (by decide : [5, 4, 3, 2, 1, 0].Nodup)
      (by simp [LevelMetadata.slots]) (fun doc b sound said => ?_)
      (by decide : tableBound 6 6 < 2 ^ 15) fun said stores there slotted => ?_
    · obtain ⟨⟨⟨author, version⟩, name⟩, uuid⟩ := said
      simp [LevelMetadata.slots, slotWritten_text sound author, slotWritten_text sound version,
        slotWritten_text sound name, slotWritten_text sound uuid]
    · obtain ⟨⟨⟨author, version⟩, name⟩, uuid⟩ := said
      exact fill_levelMetadata stores there slotted author version name uuid
  refine (writes doc b sound ⟨⟨⟨author, version⟩, name⟩, uuid⟩ room).mono fun o b' spec => ?_
  obtain ⟨doc', further, sound', grown, n, is, value, rfl, read⟩ := spec
  refine ⟨doc', further, sound', grown, n, is, _, ?_, read⟩
  simp only [compared, mapStrings, written, same4, same3, same2, same0]

theorem addPart_writes (part : Part) (self : part.Record)
    (known : ∀ s ∈ partStrings part self, s ∈ format.strings) :
    Writes format total (partBound part self) .nothing (partMeaning format.toEncoding part self).under
      (part.addBody format.canonical self) := by
  cases part with
  | levelConditions =>
    exact plainPart_writes .levelConditions self 2 (LevelConditions.slots self) (by decide : [1, 0].Nodup)
      (by simp [LevelConditions.slots]) (by simp [LevelConditions.slots]) (by decide : tableBound 2 2 < 2 ^ 15)
      fun stores there slotted => fill_levelConditions stores there slotted
  | levelText =>
    simp only [partStrings, Option.mem_toList] at known
    exact (insertString_writes known).bind (textTable_writes self)
  | levelMetadata =>
    simp only [partStrings, List.mem_append, Option.mem_toList, or_imp, forall_and] at known
    obtain ⟨⟨⟨author, version⟩, name⟩, uuid⟩ := known
    exact (insertString_writes author).bind fun offset4 =>
      (insertString_writes version).afterwards.bind fun offset3 =>
      (insertString_writes name).afterwards.bind fun offset2 =>
      (insertString_writes uuid).afterwards.bind (metadataTable_writes self offset4 offset3 offset2)
  | gravityWellData =>
    exact plainPart_writes .gravityWellData self 4 (GravityWellData.slots self) (by decide : [3, 2, 1, 0].Nodup)
      (by simp [GravityWellData.slots]) (by simp [GravityWellData.slots]) (by decide : tableBound 4 4 < 2 ^ 15)
      fun stores there slotted => fill_gravityWellData stores there slotted
  | colorBoxData =>
    exact plainPart_writes .colorBoxData self 6 (ColorBoxData.slots self) (by decide : [5, 4, 3, 2, 1, 0].Nodup)
      (by simp [ColorBoxData.slots]) (by simp [ColorBoxData.slots]) (by decide : tableBound 6 6 < 2 ^ 15)
      fun stores there slotted => fill_colorBoxData stores there slotted
  | lineData =>
    exact plainPart_writes .lineData self 4 (LineData.slots self) (by decide : [3, 2, 1, 0].Nodup)
      (by simp [LineData.slots]) (by simp [LineData.slots]) (by decide : tableBound 4 4 < 2 ^ 15)
      fun stores there slotted => fill_lineData stores there slotted
  | rockData =>
    exact plainPart_writes .rockData self 2 (RockData.slots self) (by decide : [1, 0].Nodup)
      (by simp [RockData.slots]) (by simp [RockData.slots]) (by decide : tableBound 2 2 < 2 ^ 15)
      fun stores there slotted => fill_rockData stores there slotted
  | antiGravityData =>
    exact plainPart_writes .antiGravityData self 2 (AntiGravityData.slots self) (by decide : [1, 0].Nodup)
      (by simp [AntiGravityData.slots]) (by simp [AntiGravityData.slots]) (by decide : tableBound 2 2 < 2 ^ 15)
      fun stores there slotted => fill_antiGravityData stores there slotted
  | endData =>
    exact plainPart_writes .endData self 2 (EndData.slots self) (by decide : [1, 0].Nodup)
      (by simp [EndData.slots]) (by simp [EndData.slots]) (by decide : tableBound 2 2 < 2 ^ 15)
      fun stores there slotted => fill_endData stores there slotted

end Writer
end Arthius.Guarantees
