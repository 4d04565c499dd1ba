import Arthius.Guarantees.BinaryReading
import Arthius.Guarantees.DocumentWriting

/-!
# Reading a document back

A table node carries the object that it reads as. On a file that stores the document,
the reader's pool holds such objects, apart from those that are still being read, and
`create` returns the object whether it is pooled, read anew or read without a pool. What
an object refers to was written before it, so that no object is read twice at once.
-/
namespace Arthius.Guarantees
open Arthius.Lib Arthius.Source.FlatBuffers

section Pool
variable {ω α β : Type} {file : List UInt8} {doc : Document ω} {reading : List ℕ}

/-- The pool holds what the document says, apart from the objects being read. -/
def Pooled (file : List UInt8) (doc : Document ω) (reading : List ℕ)
    (cache : FlatBuffersReaderCache ω) : Prop :=
  ∀ objectPool, cache = some objectPool → ∀ n ≤ file.length, n ∉ reading → ∀ object,
    objectPool.lookup ((file.length : ℤ) - n) = some object →
      ∃ properties, doc n = some (.table object properties)

/-- From every pool that holds what the document says, the program returns the value. -/
def Reads (file : List UInt8) (doc : Document ω) (reading : List ℕ) (program : Read ω α)
    (value : α) : Prop :=
  ∀ cache, Pooled file doc reading cache → Ensures program cache (fun _ => False)
    fun a cache' => a = value ∧ Pooled file doc reading cache'

theorem Reads.pure {value : α} : Reads file doc reading (pure value) value :=
  fun _ pooled => Ensures.pure_iff.mpr ⟨rfl, pooled⟩

theorem Reads.bind {program : Read ω α} {next : α → Read ω β} {a : α} {value : β}
    (first : Reads file doc reading program a) (rest : Reads file doc reading (next a) value) :
    Reads file doc reading (program >>= next) value := by
  refine fun cache pooled => Ensures.seq (first cache pooled) fun _ cache' spec => ?_
  obtain ⟨rfl, pooled'⟩ := spec
  exact rest cache' pooled'

theorem Reads.lift {result : Except ReadFailure α} {value : α} (is : result = .ok value) :
    Reads file doc reading (liftRead result) value :=
  is ▸ Reads.pure

/-- Without a pool, or with an empty one, there is nothing to check. -/
theorem Pooled.start {cache : FlatBuffersReaderCache ω} (fresh : cache ∈ [none, some []]) :
    Pooled file doc reading cache := by
  rintro _ rfl n _ _ object found
  rcases List.mem_cons.mp fresh with none | empty
  · cases none
  · cases List.mem_singleton.mp empty
    cases found

/-- An object enters the pool. -/
theorem Pooled.push {cache : FlatBuffersReaderCache ω} (pooled : Pooled file doc reading cache)
    (reading' : List ℕ) {n : ℕ} (object : ω) (inside : n ≤ file.length)
    (fewer : ∀ m, m ∉ reading' → m ≠ n → m ∉ reading)
    (is : n ∉ reading' → ∃ properties, doc n = some (.table object properties)) :
    Pooled file doc reading'
      (cache.map fun objectPool => ((file.length : ℤ) - n, object) :: objectPool) := by
  rintro _ same m below open_ other found
  obtain ⟨objectPool, rfl, rfl⟩ := Option.map_eq_some_iff.mp same
  rw [List.lookup_cons] at found
  by_cases self : m = n
  · subst self
    rw [beq_self_eq_true] at found
    cases found
    exact is open_
  · have differs : ((file.length : ℤ) - m == (file.length : ℤ) - n) = false := by
      rw [beq_eq_false_iff_ne]
      omega
    rw [differs] at found
    exact pooled objectPool rfl m below (fewer m open_ self) other found

theorem pooled_ensures {fail : ReadFailure → Prop} (cache : FlatBuffersReaderCache ω)
    (objectOffset : Offset) : Ensures (Source.FlatBuffers.pooled objectOffset) cache fail
      fun found cache' => cache' = cache ∧ ∀ object, found = some object →
        ∃ objectPool, cache = some objectPool ∧ objectPool.lookup objectOffset = some object := by
  unfold Source.FlatBuffers.pooled
  rw [Ensures.bind_iff, Ensures.get_iff]
  cases cache with
  | none => exact Ensures.pure_iff.mpr ⟨rfl, fun object none => nomatch none⟩
  | some objectPool => exact Ensures.pure_iff.mpr ⟨rfl, fun object found => ⟨objectPool, rfl, found⟩⟩

/-- `create` returns the object at a place where the document has it, given that its
properties are read while it is being read. -/
theorem create_reads {inject : α → ω} {cast : ω → Option α} {blank : α}
    {fill : Offset → Read ω α} {n : ℕ} {value : α} (casts : cast (inject value) = some value)
    {properties : List (Option Property)} (there : doc n = some (.table (inject value) properties))
    (inside : n ≤ file.length) (outer : n ∉ reading)
    (fills : Reads file doc (n :: reading) (fill (file.length - n)) value) :
    Reads file doc reading (create inject cast blank fill (some (file.length - n)))
      (some value) := by
  intro cache pooled
  unfold create
  refine Ensures.seq (pooled_ensures cache _) fun found cache₀ spec => ?_
  obtain ⟨rfl, known⟩ := spec
  cases found with
  | some object =>
    obtain ⟨objectPool, rfl, is⟩ := known object rfl
    obtain ⟨properties', there'⟩ := pooled objectPool rfl n inside outer object is
    rw [there] at there'
    cases there'
    exact Ensures.pure_iff.mpr ⟨casts, pooled⟩
  | none =>
    have blanked := pooled.push (n :: reading) (inject blank) inside
      (fun m open_ _ => fun member => open_ (List.mem_cons_of_mem n member))
      (fun open_ => absurd List.mem_cons_self open_)
    dsimp only
    unfold pool
    rw [Ensures.bind_iff, Ensures.modify_iff]
    refine Ensures.seq (fills _ blanked) fun result cache₂ spec => ?_
    obtain ⟨rfl, filled⟩ := spec
    rw [Ensures.bind_iff, Ensures.modify_iff, Ensures.pure_iff]
    exact ⟨rfl, filled.push reading _ inside (fun m open_ differs => List.not_mem_cons_of_ne_of_not_mem differs open_)
      fun _ => ⟨properties, there⟩⟩

end Pool

section Slots
variable {ω : Type} {file : List UInt8} {doc : Document ω} {n i : ℕ} {object : ω}
  {properties : List (Option Property)} {force : Bool}

/-- The value that is read where a value was written: equal to the default means the
default, unless defaults are forced. -/
def kept {T : Type} [Scalar T] (forceDefaults : Bool) (value defaultValue : T) : T :=
  if forceDefaults = false ∧ Scalar.equal value defaultValue = true then defaultValue else value

theorem kept_eq {T : Type} [Scalar T] {value defaultValue : T}
    (lawful : Scalar.equal value defaultValue = true → value = defaultValue) :
    kept force value defaultValue = value := by
  unfold kept
  split
  · next equal => exact (lawful equal.2).symm
  · rfl

theorem kept_int32 (value defaultValue : Int32) :
    kept force value defaultValue = value := kept_eq eq_of_beq

theorem kept_int8 (value defaultValue : Int8) :
    kept force value defaultValue = value := kept_eq eq_of_beq

theorem kept_bool (value defaultValue : Bool) :
    kept force value defaultValue = value := kept_eq eq_of_beq

variable (stores : Stores file doc) (there : doc n = some (.table object properties))
include stores there

theorem Stores.table : ∃ vtable length entry,
    TableAt (Image.ofFile file) n vtable length entry properties :=
  stores.holds n _ there

theorem get_value {T : Type} [Scalar T] {value defaultValue : T}
    (slot : properties[i]? = some (slotProperty force (.value value defaultValue))) :
    (FlatBuffersReader.mk file).get (file.length - n) i defaultValue =
      .ok (kept force value defaultValue) := by
  obtain ⟨_, _, _, table⟩ := stores.table there
  rw [slotProperty] at slot
  unfold kept
  split at slot
  · next default => rw [if_pos default, Reading.get_absent defaultValue table slot]
  · next default => rw [if_neg default, Reading.get_inline defaultValue table slot]

theorem getOptional_optional {T : Type} [Scalar T] {value : Option T}
    (slot : properties[i]? = some (slotProperty force (.optional value))) :
    (FlatBuffersReader.mk file).getOptional T (file.length - n) i = .ok value := by
  obtain ⟨_, _, _, table⟩ := stores.table there
  cases value with
  | none => exact Reading.getOptional_absent T table slot
  | some value => exact Reading.getOptional_inline table slot

theorem offset_skip (slot : properties[i]? = some (slotProperty force .skip)) :
    (FlatBuffersReader.mk file).offset (file.length - n) i = .ok none := by
  obtain ⟨_, _, _, table⟩ := stores.table there
  exact Reading.offset_absent table slot

theorem offset_zero (slot : properties[i]? = some (slotProperty force (.offset 0))) :
    (FlatBuffersReader.mk file).offset (file.length - n) i = .ok none := by
  obtain ⟨_, _, _, table⟩ := stores.table there
  exact Reading.offset_null stores.small table slot

/-- An object referred to lies in front of the table. -/
theorem offset_node {target : ℕ} {node : Node ω} (referred : doc target = some node)
    (slot : properties[i]? = some (slotProperty force (.offset target))) :
    (FlatBuffersReader.mk file).offset (file.length - n) i = .ok (some (file.length - target)) ∧
      target < n := by
  obtain ⟨_, _, _, table⟩ := stores.table there
  obtain ⟨_, word⟩ := (stores.holds target node referred).word
  have positive := word.four_le
  have nonzero : ¬ (target : ℤ) = 0 := by omega
  rw [slotProperty, if_neg nonzero, Int.toNat_natCast] at slot
  refine ⟨Reading.offset_reference stores.small table slot, ?_⟩
  obtain ⟨_, _, _, reference⟩ := table.present i _ slot
  have earlier := reference.earlier
  omega

theorem readString_text {o : Offset} {s : Option String} (said : (Statement.text o s).holds doc)
    (slot : properties[i]? = some (slotProperty force (.offset o))) :
    readString ⟨file⟩ (file.length - n) i = .ok s := by
  cases s with
  | none =>
    obtain rfl : o = 0 := said
    simp only [readString, offset_zero stores there slot, bind, Except.bind,
      FlatBuffersReader.stringBuffer, Option.bind_none]
  | some s =>
    obtain ⟨target, rfl, string⟩ := said
    simp only [readString, (offset_node stores there string slot).1, bind, Except.bind,
      Reading.stringBuffer (stores.holds target _ string), Option.bind_some, utf8_decoded]

end Slots

section Objects
variable {ω α γ : Type}

/-- A class as the reader knows it: what its objects are in the pool, and how the
properties are read. -/
structure TableClass (ω α : Type) where
  inject : α → ω
  cast : ω → Option α
  blank : α
  fill : FlatBuffersReader → Offset → Read ω α
  cast_inject : ∀ value, cast (inject value) = some value

namespace TableClass
variable (tables : TableClass ω α)

def create (reader : FlatBuffersReader) : Option Offset → Read ω (Option α) :=
  Source.FlatBuffers.create tables.inject tables.cast tables.blank (tables.fill reader)

/-- The object at a distance reads as the value. -/
def created (value : α) (n : ℕ) : Statement ω where
  holds doc := (∃ properties, doc n = some (.table (tables.inject value) properties)) ∧
    ∀ doc' file reading, doc'.Extends doc → Stores file doc' → (∀ m ∈ reading, n < m) →
      Reads file doc' reading (tables.create ⟨file⟩ (some (file.length - n))) (some value)
  stable := fun further ⟨⟨properties, there⟩, reads⟩ => ⟨⟨properties, further n _ there⟩,
    fun doc'' file reading beyond => reads doc'' file reading (beyond.trans further)⟩

/-- The object reads as the value. -/
def exactly (value : α) : Meaning ω where
  statement := tables.created value
  present := fun ⟨⟨_, there⟩, _⟩ => ⟨_, there⟩

/-- The object reads as a value with the given image. -/
def meaning (view : α → γ) (image : γ) : Meaning ω where
  statement n :=
    { holds := fun doc => ∃ value, view value = image ∧ (tables.created value n).holds doc
      stable := fun further ⟨value, is, said⟩ =>
        ⟨value, is, (tables.created value n).stable further said⟩ }
  present := fun ⟨_, _, ⟨_, there⟩, _⟩ => ⟨_, there⟩

variable {tables} {β : Type} {view : α → γ} {image : β → γ} {doc : Document ω} {o : Offset}

theorem value_of_optional {object : Option β}
    (said : (Meaning.optional (object.map fun x => tables.meaning view (image x)) o).holds doc) :
    ∃ value : Option α, value.map view = object.map image ∧
      (Meaning.optional (value.map tables.exactly) o).holds doc := by
  cases object with
  | none => exact ⟨none, rfl, said⟩
  | some x =>
    obtain ⟨n, is, value, same, reads⟩ := said
    exact ⟨some value, congrArg some same, n, is, reads⟩

theorem values_of_each (xs : List β) {targets : List ℕ}
    (said : (Meaning.each (xs.map fun x => tables.meaning view (image x)) targets).holds doc) :
    ∃ values : List α, values.map view = xs.map image ∧
      (Meaning.each (values.map tables.exactly) targets).holds doc := by
  induction xs generalizing targets with
  | nil =>
    cases said with
    | nil => exact ⟨[], rfl, .nil⟩
  | cons x xs ih =>
    cases said with
    | cons first others =>
      obtain ⟨value, is, reads⟩ := first
      obtain ⟨values, are, read⟩ := ih others
      exact ⟨value :: values, by rw [List.map_cons, List.map_cons, is, are], .cons reads read⟩

theorem created_of_each {values : List α} {targets : List ℕ}
    (said : (Meaning.each (values.map tables.exactly) targets).holds doc) :
    List.Forall₂ (fun value target => (tables.created value target).holds doc) values targets :=
  List.forall₂_map_left_iff.mp said

theorem values_of_vector {xs : List β}
    (said : (Meaning.vector (xs.map fun x => tables.meaning view (image x)) o).holds doc) :
    ∃ values : List α, values.map view = xs.map image ∧
      (Meaning.vector (values.map tables.exactly) o).holds doc := by
  cases xs with
  | nil => exact ⟨[], rfl, said⟩
  | cons x xs =>
    obtain ⟨n, targets, is, there, objects⟩ := said
    obtain ⟨values, are, read⟩ := values_of_each (x :: xs) objects
    cases values with
    | nil => cases are
    | cons value values => exact ⟨value :: values, are, n, targets, is, there, read⟩

section Reader
variable {file : List UInt8} {n i : ℕ} {object : ω} {properties : List (Option Property)}
  {force : Bool} {reading : List ℕ} (stores : Stores file doc) (outer : ∀ m ∈ reading, n ≤ m)
include stores outer

theorem readElements_reads {d : ℕ} {targets indices : List ℕ} {values : List α}
    (vector : doc d = some (.vector targets)) (inside : d ≤ n)
    (read : List.Forall₂ (fun index value => ∃ target, targets[index]? = some target ∧
      (tables.created value target).holds doc) indices values) :
    Reads file doc reading
      (readElements ⟨file⟩ (tables.create ⟨file⟩) (some (file.length - d)) indices) values := by
  induction read with
  | nil => exact .pure
  | cons first _ ih =>
    obtain ⟨target, at_, _, reads⟩ := first
    have node := stores.holds d _ vector
    have earlier := (node.2 _ target at_).earlier
    have element := reads doc file reading (.refl doc) stores fun m member => by
      have further := outer m member
      omega
    exact Reads.bind (Reads.lift (Reading.vectorElementOffset stores.small node at_))
      (element.bind (ih.bind .pure))

variable (there : doc n = some (.table object properties))
include there

theorem readObject_reads {source : Option β} {value : Option α}
    (same : value.map view = source.map image)
    (read : (Meaning.optional (value.map tables.exactly) o).holds doc)
    (slot : properties[i]? = some (slotProperty force (.object source o))) :
    Reads file doc reading
      (readObject ⟨file⟩ (tables.create ⟨file⟩) (file.length - n) i) value := by
  cases source with
  | none =>
    obtain rfl : value = none := Option.map_eq_none_iff.mp same
    exact Reads.bind (Reads.lift (offset_skip stores there slot)) .pure
  | some x =>
    obtain ⟨value, rfl, _⟩ := Option.map_eq_some_iff.mp same
    obtain ⟨target, rfl, ⟨_, referred⟩, reads⟩ := read
    obtain ⟨found, earlier⟩ := offset_node stores there referred slot
    refine Reads.bind (Reads.lift found) (reads doc file reading (.refl doc) stores ?_)
    exact fun m member => earlier.trans_le (outer m member)

theorem readVector_reads {elements : List β} {values : List α}
    (same : values.map view = elements.map image)
    (read : (Meaning.vector (values.map tables.exactly) o).holds doc)
    (slot : properties[i]? = some (slotProperty force (.vector elements o))) :
    Reads file doc reading
      (readVector ⟨file⟩ (tables.create ⟨file⟩) (file.length - n) i) values := by
  have count : values.length = elements.length := by
    have lengths := congrArg List.length same
    rwa [List.length_map, List.length_map] at lengths
  cases values with
  | nil =>
    obtain rfl : elements = [] := List.length_eq_zero_iff.mp count.symm
    exact Reads.bind (Reads.lift (offset_skip stores there slot)) (.bind (.lift rfl) .pure)
  | cons value values =>
    obtain ⟨d, targets, rfl, vector, objects⟩ := read
    have some : elements.length > 0 := by
      rw [← count]
      exact Nat.succ_pos _
    rw [Slot.vector, if_pos some] at slot
    obtain ⟨found, earlier⟩ := offset_node stores there vector slot
    refine Reads.bind (Reads.lift found)
      (.bind (.lift (Reading.vectorElementCount (stores.holds d _ vector))) ?_)
    rw [Int.toNat_natCast]
    refine readElements_reads stores outer vector earlier.le ?_
    have objects : List.Forall₂ (fun value target => (tables.created value target).holds doc)
        (value :: values) targets := created_of_each objects
    refine List.forall₂_iff_get.mpr ⟨by rw [List.length_range, objects.length_eq], ?_⟩
    intro j inside inside'
    have there : j < targets.length := by simpa using inside
    refine ⟨targets[j], by simp [there], (List.forall₂_iff_get.mp objects).2 j inside' there⟩

end Reader
/-- A finished file leads to its root object. -/
theorem read_root {file : List UInt8} {root : ℕ} (finished : Finished file doc root) {value : α}
    (read : (tables.created value root).holds doc) {cache : FlatBuffersReaderCache ω}
    (fresh : cache ∈ [none, some []]) :
    ∃ cache', (do
      let objectOffset ← liftRead (FlatBuffersReader.mk file).rootObjectOffset
      tables.create ⟨file⟩ objectOffset : Read ω (Option α)) cache = .ok (some value) cache' := by
  have reads : Reads file doc [] (do
      let objectOffset ← liftRead (FlatBuffersReader.mk file).rootObjectOffset
      tables.create ⟨file⟩ objectOffset) (some value) :=
    .bind (.lift (Reading.rootObjectOffset finished.first))
      (read.2 doc file [] (.refl doc) finished.toStores fun _ member => nomatch member)
  exact (reads cache (.start fresh)).returns

/-- A table whose slots read as the value, once it is written. -/
theorem writeTable_created {ι : Type} {format : Format ω ι} {total count : ℕ}
    {slots : List (ℕ × Slot)} {given : Statement ω} {value : α}
    (indices : ∀ slot ∈ slots, slot.1 < count)
    (written : ∀ (doc : Document ω) (b : FlatBuffersBuilder ι), Sound format doc b →
      given.holds doc → ∀ slot ∈ slots, SlotWritten b.cursor slot.2)
    (few : tableBound count slots.length < 2 ^ 15)
    (fills : ∀ {doc file reading} {n : ℕ}, given.holds doc → Stores file doc → doc n = some (.table
      (tables.inject value) (tableProperties format.options.forceDefaults count slots)) →
      (∀ m ∈ reading, n ≤ m) →
      Reads file doc reading (tables.fill ⟨file⟩ (file.length - n)) value) :
    Writes format total (tableBound count slots.length) given
      (tables.meaning id value).under (writeTable count slots) := by
  intro doc b sound before room
  refine (writeTable_writes indices written few (tables.inject value) doc b sound before
    room).mono fun o b' spec => ?_
  obtain ⟨doc', further, sound', grown, n, rfl, there⟩ := spec
  refine ⟨doc', further, sound', grown, n, rfl, value, rfl, ⟨_, there⟩, ?_⟩
  intro doc'' file reading beyond stores outer
  have there' := beyond n _ there
  have outer' : ∀ m ∈ n :: reading, n ≤ m := fun m member =>
    (List.mem_cons.mp member).elim (fun same => same.ge) fun other => (outer m other).le
  exact create_reads (tables.cast_inject value) there' (stores.holds.le_length there')
    (fun member => lt_irrefl n (outer n member))
    (fills (given.stable (beyond.trans further) before) stores there' outer')

end TableClass

/-- Every slot has become the property at its index. -/
def Slotted (forceDefaults : Bool) (properties : List (Option Property)) (slots : List (ℕ × Slot)) :
    Prop :=
  ∀ slot ∈ slots, properties[slot.1]? = some (slotProperty forceDefaults slot.2)

theorem slotted_tableProperties (forceDefaults : Bool) {count : ℕ} {slots : List (ℕ × Slot)}
    (distinct : (slots.map Prod.fst).Nodup) (indices : ∀ slot ∈ slots, slot.1 < count) :
    Slotted forceDefaults (tableProperties forceDefaults count slots) slots :=
  fun slot member => getElem?_tableProperties distinct member (indices slot member)

end Objects
end Arthius.Guarantees
