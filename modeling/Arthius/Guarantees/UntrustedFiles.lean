import Mathlib.Data.List.Perm.Subperm
import Arthius.Guarantees.LevelEncoding
import Arthius.Guarantees.ProgressEncoding

/-!
# Files from elsewhere

Levels are downloaded, so the readers meet bytes that no builder wrote. Whatever they
are, no memory outside the file is read (such a read is a failure that nothing
catches), every string that is read is a run of bytes of the file, and every vector has
room in it.
-/
namespace Arthius.Guarantees.UntrustedFiles
open Arthius.Lib Arthius.Source.FlatBuffers Arthius.Guarantees

/-! ## Reads that can only trap -/

section Within
variable {α β : Type}

/-- The result meets the condition, or there is a trap. -/
def Within (holds : α → Prop) : Except ReadFailure α → Prop
  | .ok value => holds value
  | .error failure => failure = .trap

/-- The same for what is still to be caught: no memory outside the file is read. -/
def Checked (holds : α → Prop) : Except ReadFailure α → Prop
  | .ok value => holds value
  | .error failure => failure ≠ .outsideRead

variable {holds : α → Prop} {final : β → Prop}

theorem Within.bind {result : Except ReadFailure α} {next : α → Except ReadFailure β}
    (first : Within holds result) (rest : ∀ value, holds value → Within final (next value)) :
    Within final (result >>= next) := by
  cases result with
  | error failure => exact first
  | ok value => exact rest value first

theorem Checked.bind {result : Except ReadFailure α} {next : α → Except ReadFailure β}
    (first : Checked holds result) (rest : ∀ value, holds value → Checked final (next value)) :
    Checked final (result >>= next) := by
  cases result with
  | error failure => exact first
  | ok value => exact rest value first

theorem Checked.mono {result : Except ReadFailure α} {weaker : α → Prop}
    (checked : Checked holds result) (implies : ∀ value, holds value → weaker value) :
    Checked weaker result := by
  cases result with
  | error failure => exact checked
  | ok value => exact implies value checked

/-- What was caught is the default. -/
theorem Checked.caught {default : α} {result : Except ReadFailure α} (checked : Checked holds result)
    (spare : holds default) : Within holds (caught default result) := by
  rcases result with (_ | _ | _) | value
  · exact spare
  · rfl
  · exact absurd rfl checked
  · exact checked

end Within

section Reader
variable {file : List UInt8}

/-- The bytes at an address that the checks have let through are bytes of the file. -/
theorem memory_eq {offset : ℤ} {length : ℕ} (start : 0 ≤ offset)
    (room : offset + length ≤ file.length) :
    (FlatBuffersReader.mk file).memory offset length = .ok (slice file offset.toNat length) :=
  if_pos ⟨start, room⟩

/-- A scalar that is read lies within the file. -/
theorem scalar_checked (T : Type) [Scalar T] (offset : ℤ) :
    Checked (fun _ => 0 ≤ offset ∧ offset + Scalar.stride T ≤ file.length)
      ((FlatBuffersReader.mk file).scalar T offset) := by
  unfold FlatBuffersReader.scalar
  dsimp only
  split
  · exact fun same => nomatch same
  · next inside =>
    have start : 0 ≤ offset := by omega
    have room : offset + Scalar.stride T ≤ file.length := by omega
    rw [memory_eq start room]
    exact ⟨start, room⟩

theorem offsetSum_checked (z : ℤ) : Checked (fun _ => True) (offsetSum z) := by
  unfold offsetSum
  split
  · trivial
  · exact fun same => nomatch same

/-- The characters behind a length that was read are bytes of the file. -/
theorem bytes_checked {offset : ℤ} (start : 0 ≤ offset) (length : ℤ) :
    Checked (fun found => found <:+: file) ((FlatBuffersReader.mk file).bytes offset length) := by
  unfold FlatBuffersReader.bytes
  dsimp only
  split
  · exact fun same => nomatch same
  · split
    · exact fun same => nomatch same
    · rw [memory_eq start (by omega)]
      exact (List.take_prefix _ _).isInfix.trans (List.drop_suffix _ _).isInfix

variable (file) (objectOffset : Offset) (propertyIndex : ℕ)

theorem propertyOffset_within :
    Within (fun _ => True) ((FlatBuffersReader.mk file).propertyOffset objectOffset propertyIndex) := by
  refine Checked.caught ?_ trivial
  refine (scalar_checked Int32 objectOffset).bind fun localOffset _ => ?_
  refine (scalar_checked Int16 _).bind fun vTableLength _ => ?_
  refine (scalar_checked Int16 _).bind fun objectLength _ => ?_
  dsimp only
  split
  · exact fun same => nomatch same
  · split
    · trivial
    · refine (scalar_checked Int16 _).bind fun propOffset _ => ?_
      split <;> trivial

theorem offset_within :
    Within (fun _ => True) ((FlatBuffersReader.mk file).offset objectOffset propertyIndex) := by
  refine (propertyOffset_within file objectOffset propertyIndex).bind fun propOffset _ => ?_
  split
  · trivial
  · refine Checked.caught ?_ trivial
    refine (scalar_checked Int32 _).bind fun localObjectOffset _ => ?_
    refine (offsetSum_checked _).bind fun start _ => ?_
    refine (offsetSum_checked _).bind fun offset _ => ?_
    split <;> trivial

theorem get_within {T : Type} [Scalar T] (defaultValue : T) :
    Within (fun _ => True) ((FlatBuffersReader.mk file).get objectOffset propertyIndex defaultValue) := by
  refine (propertyOffset_within file objectOffset propertyIndex).bind fun propOffset _ => ?_
  split
  · trivial
  · exact Checked.caught ((scalar_checked T _).mono fun _ _ => trivial) trivial

theorem getOptional_within (T : Type) [Scalar T] :
    Within (fun _ => True) ((FlatBuffersReader.mk file).getOptional T objectOffset propertyIndex) := by
  refine (propertyOffset_within file objectOffset propertyIndex).bind fun propOffset _ => ?_
  split
  · trivial
  · exact Checked.caught ((scalar_checked T _).bind fun _ _ => trivial) trivial

variable (vectorOffset : Option Offset)

/-- A vector with elements starts within the file. -/
theorem vectorElementCount_within :
    Within (fun count => 0 < count → ∀ position ∈ vectorOffset, (0 : ℤ) ≤ position)
      ((FlatBuffersReader.mk file).vectorElementCount vectorOffset) := by
  cases vectorOffset with
  | none => exact fun _ _ member => nomatch member
  | some vectorPosition =>
    refine Checked.caught ?_ fun some_ => absurd some_ (lt_irrefl 0)
    refine (scalar_checked Int32 vectorPosition).bind fun length inside _ position member => ?_
    obtain rfl := Option.mem_some_iff.mp member
    exact inside.1

/-- An element that is found has an entry within the file. -/
theorem vectorElementOffset_within (index : ℕ) :
    Within (fun found => found.isSome → 4 * (index + 2) ≤ file.length)
      ((FlatBuffersReader.mk file).vectorElementOffset vectorOffset index) := by
  cases vectorOffset with
  | none => exact fun some_ => nomatch some_
  | some vectorPosition =>
    refine (vectorElementCount_within file (some vectorPosition)).bind fun count start => ?_
    split
    · next below =>
      refine Checked.caught ?_ fun some_ => nomatch some_
      refine (scalar_checked Int32 _).bind fun localOffset inside => ?_
      have position : (0 : ℤ) ≤ vectorPosition := start (by omega) vectorPosition rfl
      have stride : Scalar.stride Int32 = 4 := rfl
      have room : 4 * (index + 2) ≤ file.length := by omega
      split
      · exact fun some_ => nomatch some_
      · refine (offsetSum_checked _).bind fun start _ => ?_
        exact (offsetSum_checked _).bind fun offset _ _ => room
    · exact fun some_ => nomatch some_

/-- The string is a run of bytes of the file. -/
def Contained (s : String) : Prop := utf8 s <:+: file

theorem decoded_utf8 {characters : List UInt8} {s : String} (success : decoded characters = some s) :
    utf8 s = characters := by
  unfold decoded String.fromUTF8? at success
  split at success
  · cases success
    rfl
  · cases success

theorem stringBuffer_within (stringOffset : Option Offset) :
    Within (fun found => ∀ characters ∈ found, characters <:+: file)
      ((FlatBuffersReader.mk file).stringBuffer stringOffset) := by
  cases stringOffset with
  | none => exact fun _ member => nomatch member
  | some stringPosition =>
    refine Checked.caught ?_ fun _ member => nomatch member
    refine (scalar_checked Int32 stringPosition).bind fun stringLength inside => ?_
    -- the length has been read in front of them, so the characters start within the file
    have start : 0 ≤ stringPosition + 4 := inside.1.trans (by omega)
    refine (bytes_checked start _).bind fun characters found => ?_
    rintro _ ⟨⟩
    exact found

theorem readString_within : Within (fun found => ∀ s ∈ found, Contained file s)
    (readString ⟨file⟩ objectOffset propertyIndex) := by
  refine (offset_within file objectOffset propertyIndex).bind fun stringOffset _ => ?_
  refine (stringBuffer_within file stringOffset).bind fun characters inside => ?_
  rintro s member
  obtain ⟨bytes, found, is⟩ := Option.bind_eq_some_iff.mp member
  rw [Contained, decoded_utf8 is]
  exact inside bytes found

theorem rootObjectOffset_within :
    Within (fun _ => True) (FlatBuffersReader.mk file).rootObjectOffset :=
  Checked.caught ((scalar_checked Int32 0).bind fun _ _ => trivial) trivial

end Reader

/-! ## Parts -/

section Parts
variable {file : List UInt8} {objectOffset : Offset} {propertyIndex : ℕ} {α : Type}
  {final : α → Prop}

theorem get_then {T : Type} [Scalar T] {defaultValue : T} {next : T → Except ReadFailure α}
    (rest : ∀ value, Within final (next value)) :
    Within final ((FlatBuffersReader.mk file).get objectOffset propertyIndex defaultValue >>= next) :=
  (get_within file objectOffset propertyIndex defaultValue).bind fun value _ => rest value

theorem getOptional_then {T : Type} [Scalar T] {next : Option T → Except ReadFailure α}
    (rest : ∀ value, Within final (next value)) :
    Within final ((FlatBuffersReader.mk file).getOptional T objectOffset propertyIndex >>= next) :=
  (getOptional_within file objectOffset propertyIndex T).bind fun value _ => rest value

theorem readString_then {next : Option String → Except ReadFailure α}
    (rest : ∀ value : Option String, (∀ s ∈ value, Contained file s) → Within final (next value)) :
    Within final (readString ⟨file⟩ objectOffset propertyIndex >>= next) :=
  (readString_within file objectOffset propertyIndex).bind rest

variable (file)

/-- The strings of a part are runs of bytes of the file. -/
def FairPart (part : Part) (self : part.Record) : Prop := ∀ s ∈ partStrings part self, Contained file s

theorem fair_plain {part : Part} {self : part.Record} (none : partStrings part self = []) :
    FairPart file part self := by
  intro s member
  rw [none] at member
  cases member

variable (objectOffset)

theorem fill_fair (part : Part) : Within (FairPart file part) (part.fill ⟨file⟩ objectOffset) := by
  cases part with
  | levelText =>
    refine get_then fun _ => readString_then fun text fair => ?_
    refine get_then fun _ => get_then fun _ => get_then fun _ => get_then fun _ => get_then fun _ => ?_
    refine getOptional_then fun _ => getOptional_then fun _ => get_then fun _ => ?_
    intro s member
    exact fair s (Option.mem_toList.mp member)
  | levelMetadata =>
    refine readString_then fun levelUUID fair0 => get_then fun _ => ?_
    refine readString_then fun levelName fair2 => readString_then fun levelVersion fair3 => ?_
    refine readString_then fun levelAuthor fair4 => getOptional_then fun _ => ?_
    intro s member
    simp only [partStrings, List.mem_append, Option.mem_toList] at member
    rcases member with ((author | version) | name) | uuid
    · exact fair4 s author
    · exact fair3 s version
    · exact fair2 s name
    · exact fair0 s uuid
  | levelConditions => exact get_then fun _ => get_then fun _ => fair_plain file rfl
  | gravityWellData =>
    exact getOptional_then fun _ => get_then fun _ => get_then fun _ => get_then fun _ =>
      fair_plain file rfl
  | colorBoxData =>
    exact getOptional_then fun _ => get_then fun _ => getOptional_then fun _ =>
      getOptional_then fun _ => getOptional_then fun _ => get_then fun _ => fair_plain file rfl
  | lineData =>
    exact getOptional_then fun _ => getOptional_then fun _ => getOptional_then fun _ =>
      get_then fun _ => fair_plain file rfl
  | rockData => exact getOptional_then fun _ => get_then fun _ => fair_plain file rfl
  | antiGravityData => exact getOptional_then fun _ => getOptional_then fun _ => fair_plain file rfl
  | endData => exact getOptional_then fun _ => getOptional_then fun _ => fair_plain file rfl

end Parts

/-! ## Objects, through the pool -/

section Objects
variable {ω α β : Type} {fair : ω → Prop}

/-- Every pooled object is fair. -/
def FairPool (fair : ω → Prop) (cache : FlatBuffersReaderCache ω) : Prop :=
  ∀ objectPool, cache = some objectPool → ∀ entry ∈ objectPool, fair entry.2

/-- The program keeps the pool fair, and returns what meets the condition or traps. -/
def Safe (fair : ω → Prop) (program : Read ω α) (holds : α → Prop) : Prop :=
  ∀ cache, FairPool fair cache → Ensures program cache (· = .trap) fun value cache' =>
    holds value ∧ FairPool fair cache'

variable {holds : α → Prop} {final : β → Prop}

theorem Safe.pure {value : α} (met : holds value) : Safe fair (pure value) holds :=
  fun _ pool => Ensures.pure_iff.mpr ⟨met, pool⟩

theorem Safe.bind {program : Read ω α} {next : α → Read ω β} (first : Safe fair program holds)
    (rest : ∀ value, holds value → Safe fair (next value) final) :
    Safe fair (program >>= next) final := fun cache pool =>
  Ensures.seq (first cache pool) fun value cache' spec => rest value spec.1 cache' spec.2

theorem Safe.lift {result : Except ReadFailure α} (within : Within holds result) :
    Safe fair (liftRead result) holds := by
  intro cache pool
  cases result with
  | ok value => exact Ensures.pure_iff.mpr ⟨within, pool⟩
  | error failure => exact Ensures.throw_iff.mpr within

theorem Safe.mono {program : Read ω α} {weaker : α → Prop} (safe : Safe fair program holds)
    (implies : ∀ value, holds value → weaker value) : Safe fair program weaker := fun cache pool =>
  (safe cache pool).mono fun value _ spec => ⟨implies value spec.1, spec.2⟩

/-- Without a pool, or with an empty one, there is nothing unfair. -/
theorem FairPool.start {cache : FlatBuffersReaderCache ω} (fresh : cache ∈ [none, some []]) :
    FairPool fair cache := by
  rintro objectPool rfl entry member
  rcases List.mem_cons.mp fresh with none | empty
  · cases none
  · cases List.mem_singleton.mp empty
    cases member

theorem FairPool.push {cache : FlatBuffersReaderCache ω} (pool : FairPool fair cache)
    (objectOffset : Offset) {object : ω} (is : fair object) :
    FairPool fair (cache.map fun objectPool => (objectOffset, object) :: objectPool) := by
  rintro _ same entry member
  obtain ⟨objectPool, rfl, rfl⟩ := Option.map_eq_some_iff.mp same
  rcases List.mem_cons.mp member with rfl | old
  · exact is
  · exact pool objectPool rfl entry old

theorem mem_of_lookup {objectPool : List (Offset × ω)} {objectOffset : Offset} {object : ω}
    (found : objectPool.lookup objectOffset = some object) : (objectOffset, object) ∈ objectPool := by
  obtain ⟨front, back, rfl, _⟩ := List.lookup_eq_some_iff.mp found
  exact List.mem_append_right front List.mem_cons_self

/-- A class whose objects are told apart from those of the other classes. -/
structure FairClass (fair : ω → Prop) (tables : TableClass ω α) (file : List UInt8) : Prop where
  cast : ∀ object value, tables.cast object = some value → object = tables.inject value
  blank : fair (tables.inject tables.blank)
  fill : ∀ objectOffset, Safe fair (tables.fill ⟨file⟩ objectOffset) fun value => fair (tables.inject value)

variable {tables : TableClass ω α} {file : List UInt8}

/-- `create` returns a fair object, pooled or new. -/
theorem create_safe (ok : FairClass fair tables file) (objectOffset : Option Offset) :
    Safe fair (tables.create ⟨file⟩ objectOffset) fun found =>
      (found.isSome → objectOffset.isSome) ∧ ∀ value ∈ found, fair (tables.inject value) := by
  cases objectOffset with
  | none => exact Safe.pure ⟨id, fun _ member => nomatch member⟩
  | some objectOffset =>
    intro cache pool
    unfold TableClass.create create
    refine Ensures.seq (pooled_ensures cache _) fun found cache₀ spec => ?_
    obtain ⟨rfl, known⟩ := spec
    cases found with
    | some object =>
      obtain ⟨objectPool, rfl, is⟩ := known object rfl
      refine Ensures.pure_iff.mpr ⟨⟨fun _ => rfl, fun value member => ?_⟩, pool⟩
      rw [← ok.cast object value member]
      exact pool objectPool rfl _ (mem_of_lookup is)
    | none =>
      dsimp only
      unfold Source.FlatBuffers.pool
      rw [Ensures.bind_iff, Ensures.modify_iff]
      refine Ensures.seq (ok.fill objectOffset _ (pool.push objectOffset ok.blank)) fun result cache₂ spec => ?_
      rw [Ensures.bind_iff, Ensures.modify_iff, Ensures.pure_iff]
      refine ⟨⟨fun _ => rfl, fun value member => ?_⟩, spec.2.push objectOffset spec.1⟩
      obtain rfl := Option.mem_some_iff.mp member
      exact spec.1

variable (ok : FairClass fair tables file) (objectOffset : Offset) (propertyIndex : ℕ)
include ok

theorem readObject_safe :
    Safe fair (readObject ⟨file⟩ (tables.create ⟨file⟩) objectOffset propertyIndex) fun found =>
      ∀ value ∈ found, fair (tables.inject value) :=
  (Safe.lift (offset_within file objectOffset propertyIndex)).bind fun offset _ =>
    (create_safe ok offset).mono fun _ spec => spec.2

/-- Every element comes from an entry within the file. -/
theorem readElements_safe (vectorOffset : Option Offset) (indices : List ℕ) :
    Safe fair (readElements ⟨file⟩ (tables.create ⟨file⟩) vectorOffset indices) fun values =>
      values.length ≤ (indices.filter fun index => 4 * (index + 2) ≤ file.length).length ∧
      ∀ value ∈ values, fair (tables.inject value) := by
  induction indices with
  | nil => exact Safe.pure ⟨le_refl 0, fun _ member => nomatch member⟩
  | cons index rest ih =>
    refine (Safe.lift (vectorElementOffset_within file vectorOffset index)).bind fun offset inside => ?_
    refine (create_safe ok offset).bind fun element spec => ih.bind fun elements others => Safe.pure ?_
    obtain ⟨found, is⟩ := spec
    constructor
    · cases element with
      | none =>
        refine others.1.trans ?_
        rw [List.filter_cons]
        split <;> simp
      | some value =>
        have room := inside (found rfl)
        rw [List.filter_cons, if_pos (by simpa using room)]
        simpa using others.1
    · intro value member
      rcases List.mem_append.mp member with first | later
      · exact is value (Option.mem_toList.mp first)
      · exact others.2 value later

theorem readVector_safe :
    Safe fair (readVector ⟨file⟩ (tables.create ⟨file⟩) objectOffset propertyIndex) fun values =>
      4 * values.length ≤ file.length ∧ ∀ value ∈ values, fair (tables.inject value) := by
  refine (Safe.lift (offset_within file objectOffset propertyIndex)).bind fun vectorOffset _ => ?_
  refine (Safe.lift (vectorElementCount_within file vectorOffset)).bind fun length _ => ?_
  refine (readElements_safe ok vectorOffset (List.range length.toNat)).mono fun values spec => ?_
  obtain ⟨few, all⟩ := spec
  refine ⟨?_, all⟩
  have within : (List.range length.toNat).filter (fun index => 4 * (index + 2) ≤ file.length) ⊆
      List.range (file.length / 4) := by
    intro index member
    have room := (List.mem_filter.mp member).2
    rw [List.mem_range]
    simp only [decide_eq_true_eq] at room
    omega
  have count := (List.subperm_of_subset (List.nodup_range.filter _) within).length_le
  rw [List.length_range] at count
  omega

end Objects

/-! ## Levels and progress -/

section Files
variable (file : List UInt8)

/-- The strings are runs of bytes of the file, and the elements of each vector have entries
of four bytes in it. -/
def FairData (self : LevelData Part.Record) : Prop :=
  (∀ s ∈ levelDataStrings self, Contained file s) ∧
    ∀ length ∈ [self.texts.length, self.endPoints.length, self.lineData.length,
      self.gravityWells.length, self.colorBoxData.length, self.rockData.length,
      self.antiGravityZones.length], 4 * length ≤ file.length

def FairLevel (self : Level Part.Record) : Prop := ∀ levelData ∈ self.levelData, FairData file levelData

def FairProgress (self : Progress) : Prop :=
  (∀ entry ∈ self.progressData, ∀ s ∈ entry.uuid, Contained file s) ∧
    4 * self.progressData.length ≤ file.length

def fairLevelObject : LevelObject → Prop
  | .level value => FairLevel file value
  | .levelData value => FairData file value
  | .part part value => FairPart file part value

def fairProgressObject : ProgressObject → Prop
  | .progress value => FairProgress file value
  | .levelProgressData value => ∀ s ∈ value.uuid, Contained file s

theorem part_fair (part : Part) : FairClass (fairLevelObject file) (partClass part) file where
  cast := by
    intro object value is
    cases object with
    | part other found =>
      simp only [partClass, LevelObject.asPart] at is
      split at is
      · next same =>
        subst same
        cases is
        rfl
      · cases is
    | _ => cases is
  blank := by cases part <;> exact fun s member => by simp [partClass, Part.blank, partStrings] at member
  fill := fun objectOffset => Safe.lift (fill_fair file objectOffset part)

theorem levelData_fair : FairClass (fairLevelObject file) levelDataClass file where
  cast := by
    intro object value is
    cases object <;> cases is
    rfl
  blank := ⟨by simp [levelDataClass, levelDataStrings], by simp [levelDataClass]⟩
  fill := by
    intro objectOffset
    refine (readObject_safe (part_fair file .levelMetadata) objectOffset 0).bind fun metadata fair0 => ?_
    refine (readObject_safe (part_fair file .levelConditions) objectOffset 1).bind fun _ _ => ?_
    refine (readVector_safe (part_fair file .levelText) objectOffset 2).bind fun texts fair2 => ?_
    refine (Safe.lift (getOptional_within file objectOffset 3 Rect)).bind fun _ _ => ?_
    refine (readVector_safe (part_fair file .endData) objectOffset 4).bind fun _ fair4 => ?_
    refine (readVector_safe (part_fair file .lineData) objectOffset 5).bind fun _ fair5 => ?_
    refine (readVector_safe (part_fair file .gravityWellData) objectOffset 6).bind fun _ fair6 => ?_
    refine (readVector_safe (part_fair file .colorBoxData) objectOffset 7).bind fun _ fair7 => ?_
    refine (readVector_safe (part_fair file .rockData) objectOffset 8).bind fun _ fair8 => ?_
    refine (readVector_safe (part_fair file .antiGravityData) objectOffset 9).bind fun _ fair9 => ?_
    refine Safe.pure ⟨?_, ?_⟩
    · rintro s (⟨text, member, inside⟩ | ⟨data, member, inside⟩)
      · exact fair2.2 text member s inside
      · exact fair0 data member s inside
    · simp only [List.forall_mem_cons]
      exact ⟨fair2.1, fair4.1, fair5.1, fair6.1, fair7.1, fair8.1, fair9.1, fun _ member => nomatch member⟩

theorem level_fair : FairClass (fairLevelObject file) levelClass file where
  cast := by
    intro object value is
    cases object <;> cases is
    rfl
  blank := fun _ member => nomatch member
  fill := fun objectOffset => (readObject_safe (levelData_fair file) objectOffset 0).bind fun _ fair =>
    Safe.pure fair

theorem entry_fair : FairClass (fairProgressObject file) entryClass file where
  cast := by
    intro object value is
    cases object <;> cases is
    rfl
  blank := fun _ member => nomatch member
  fill := fun _ => Safe.lift (readString_then fun _ fair => get_then fun _ => get_then fun _ =>
    get_then fun _ => get_then fun _ => get_then fun _ => fair)

theorem progress_fair : FairClass (fairProgressObject file) progressClass file where
  cast := by
    intro object value is
    cases object <;> cases is
    rfl
  blank := ⟨fun _ member => (nomatch member), Nat.zero_le _⟩
  fill := fun objectOffset => (readVector_safe (entry_fair file) objectOffset 0).bind fun _ fair =>
    Safe.pure ⟨fair.2, fair.1⟩

/-- The two ways in which a run can end. -/
theorem run_cases {ω α : Type} {holds : α → Prop} {program : Read ω α}
    {cache : FlatBuffersReaderCache ω}
    (runs : Ensures program cache (· = .trap) fun value _ => holds value) :
    (∃ value cache', program cache = .ok value cache' ∧ holds value) ∨
      ∃ cache', program cache = .error .trap cache' := by
  unfold Ensures at runs
  split at runs
  · next value cache' returned => exact .inl ⟨value, cache', returned, runs⟩
  · next failure cache' failed => exact .inr ⟨cache', runs ▸ failed⟩

/-- Reading an object of a class from its root. -/
theorem root_fair {ω α : Type} {fair : ω → Prop} {tables : TableClass ω α}
    (ok : FairClass fair tables file) {cache : FlatBuffersReaderCache ω} (fresh : cache ∈ [none, some []]) :
    Ensures (do
      let objectOffset ← liftRead (FlatBuffersReader.mk file).rootObjectOffset
      tables.create ⟨file⟩ objectOffset) cache (· = .trap) fun found _ =>
        ∀ value ∈ found, fair (tables.inject value) := by
  have safe : Safe fair (do
      let objectOffset ← liftRead (FlatBuffersReader.mk file).rootObjectOffset
      tables.create ⟨file⟩ objectOffset) fun found => ∀ value ∈ found, fair (tables.inject value) :=
    (Safe.lift (rootObjectOffset_within file)).bind fun objectOffset _ =>
      (create_safe ok objectOffset).mono fun _ spec => spec.2
  exact (safe cache (FairPool.start fresh)).mono fun _ _ spec => spec.1

end Files

/-- Whatever the bytes of a file are, with an empty pool or without: the readers of levels and
of progress return or trap, so that no memory outside the file is read and no error gets out;
the strings of what they return are runs of bytes of the file, and four bytes of the file stand
for each element of a vector. -/
theorem untrusted_files_read (file : List UInt8) :
    (∀ cache ∈ [none, some []], Within (fun found => ∀ level ∈ found, FairLevel file level)
      (makeLevel file cache)) ∧
    ∀ cache ∈ [none, some []], Within (fun found => ∀ progress ∈ found, FairProgress file progress)
      (makeProgress file cache) := by
  constructor
  · intro cache fresh
    have runs := root_fair file (level_fair file) fresh
    have creates : levelClass.create ⟨file⟩ = Level.create ⟨file⟩ := rfl
    rw [creates] at runs
    dsimp only [makeLevel]
    rcases run_cases runs with ⟨found, _, is, fair⟩ | ⟨_, is⟩ <;> rw [is]
    · exact fair
    · rfl
  · intro cache fresh
    have runs := root_fair file (progress_fair file) fresh
    have creates : progressClass.create ⟨file⟩ = Progress.create ⟨file⟩ := rfl
    rw [creates] at runs
    dsimp only [makeProgress]
    rcases run_cases runs with ⟨found, _, is, fair⟩ | ⟨_, is⟩ <;> rw [is]
    · exact fair
    · rfl

end Arthius.Guarantees.UntrustedFiles
