import Arthius.Guarantees.VTableSharing

/-!
# Writing a table

Between `startObject` and `endObject` the vtable under construction knows where each
property written so far lies. Closing the object turns it into a table, with a vtable
of its own or an earlier one of the same bytes; the search for one never leaves the
bytes written.
-/
namespace Arthius.Guarantees
open Arthius.Lib Arthius.Source.FlatBuffers

variable {ι : Type} {b : FlatBuffersBuilder ι} {fail : Failure → Prop} {total : ℕ}

/-- Where a property written so far lies, or zero. -/
def EntryAt (image : Image) (start cursor : ℕ) : Option Property → ℕ → Prop
  | none, e => e = 0
  | some property, e => start < e ∧ e ≤ cursor ∧ property.Holds image e

theorem EntryAt.grows {image image' : Image} {start cursor cursor' e : ℕ}
    {property : Option Property} (entry : EntryAt image start cursor property e)
    (grows : image.Grows image') (further : cursor ≤ cursor') :
    EntryAt image' start cursor' property e := by
  cases property with
  | none => exact entry
  | some property =>
    obtain ⟨above, below, holds⟩ := entry
    exact ⟨above, below.trans further, holds.grows grows⟩

/-- An object is open, with these properties so far. -/
structure Opened (start : ℕ) (properties : List (Option Property)) (b : FlatBuffersBuilder ι) :
    Prop where
  objectStart : b.objectStart = start
  vectorNumElems : b.vectorNumElems = -1
  started : start ≤ b.cursor
  count : b.currentVTable.length = properties.length
  entries : ∀ (i : ℕ) property, properties[i]? = some property →
    ∃ e : ℕ, b.currentVTable[i]? = some (e : ℤ) ∧ EntryAt (imageOf b) start b.cursor property e

structure Closed (b : FlatBuffersBuilder ι) : Prop where
  objectStart : b.objectStart = -1
  vectorNumElems : b.vectorNumElems = -1

/-- An operation after which everything is closed again. -/
structure Kept (most : ℕ) (b b' : FlatBuffersBuilder ι) : Prop where
  grown : Grown most b b'
  closed : Closed b'
  vtables : VTablesHold b'
  cache : b'.cache = b.cache
  stringCache : b'.stringCache = b.stringCache

theorem startObject_ensures (closed : Closed b) (aligned : WellAligned b)
    (room : b.cursor ≤ total) (count : ℕ) :
    Ensures (startObject count) b (Overflow total) fun _ b' => Grown 0 b b' ∧
      b'.vTableOffsets = b.vTableOffsets ∧ b'.cache = b.cache ∧ b'.stringCache = b.stringCache ∧
      Opened b.cursor (List.replicate count none) b' := by
  unfold startObject
  simp only [Ensures.bind_iff, Ensures.get_iff]
  rw [if_pos ⟨closed.objectStart, closed.vectorNumElems⟩]
  simp only [Ensures.bind_iff, Ensures.set_iff]
  refine int32_ensures room fun _ => ?_
  rw [Ensures.modify_iff]
  refine ⟨⟨rfl, .refl _, aligned, le_refl _⟩, rfl, rfl, rfl, ⟨rfl, closed.vectorNumElems, le_refl _,
    by simp, ?_⟩⟩
  intro i property there
  obtain ⟨inside, rfl⟩ := List.getElem?_eq_some_iff.mp there
  rw [List.length_replicate] at inside
  exact ⟨0, by simp [inside], by simp [EntryAt]⟩

section Slots
variable {start : ℕ} {properties : List (Option Property)}

/-- A property is written and entered in the vtable. -/
theorem Opened.set (opened : Opened start properties b) {b₁ : FlatBuffersBuilder ι} {most i : ℕ}
    {property : Property} (wrote : Wrote most b b₁) (further : b.cursor < b₁.cursor)
    (holds : property.Holds (imageOf b₁) b₁.cursor) :
    Opened start (properties.set i (some property))
      { b₁ with currentVTable := b₁.currentVTable.set i b₁.cursor } where
  objectStart := wrote.objectStart.trans opened.objectStart
  vectorNumElems := wrote.vectorNumElems.trans opened.vectorNumElems
  started := opened.started.trans wrote.toGrown.cursor_le
  count := by
    rw [List.length_set, List.length_set, wrote.currentVTable, opened.count]
  entries := by
    have started := opened.started
    intro j other there
    rw [List.getElem?_set] at there ⊢
    rw [wrote.currentVTable, opened.count]
    split at there
    · next same =>
      rw [if_pos same]
      split at there
      · next inside =>
        cases there
        exact ⟨b₁.cursor, if_pos inside, by omega, le_refl _, holds⟩
      · cases there
    · next differs =>
      rw [if_neg differs]
      obtain ⟨e, entered, entry⟩ := opened.entries j other there
      exact ⟨e, entered, entry.grows wrote.grows wrote.toGrown.cursor_le⟩

theorem Opened.toStartedObject {write : Build ι Unit} {post : Unit → FlatBuffersBuilder ι → Prop}
    (opened : Opened start properties b) {i : ℕ} (inside : i < properties.length)
    (runs : Ensures write b fail post) : Ensures (toStartedObject i write) b fail post := by
  unfold Source.FlatBuffers.toStartedObject
  simp only [Ensures.bind_iff, Ensures.get_iff]
  rw [if_pos (by rw [opened.objectStart]; omega), if_pos (by rw [opened.count]; exact inside)]
  exact runs

theorem setProperty_ensures {i : ℕ} (room : b.cursor ≤ total)
    {post : Unit → FlatBuffersBuilder ι → Prop}
    (holds : post () { b with currentVTable := b.currentVTable.set i b.cursor }) :
    Ensures (setProperty i) b (Overflow total) post := by
  unfold setProperty
  simp only [Ensures.bind_iff, Ensures.get_iff]
  refine int32_ensures room fun _ => ?_
  rw [Ensures.modify_iff]
  exact holds

/-- What becomes of a slot: a value equal to its default is left out, unless
defaults are forced. -/
def slotProperty (forceDefaults : Bool) : Slot → Option Property
  | @Slot.value _ _ v defaultValue =>
    if forceDefaults = false ∧ Scalar.equal v defaultValue = true then none
    else some (.inline (Scalar.store v))
  | @Slot.inline _ _ v => some (.inline (Scalar.store v))
  | .offset written => some (.reference (if written = 0 then none else some written.toNat))
  | .skip => none

/-- The object that a slot refers to is there already, or it refers to none. -/
def SlotWritten (cursor : ℕ) : Slot → Prop
  | .offset written => ∃ n : ℕ, written = n ∧ n ≤ cursor
  | _ => True

@[simp] theorem slotWritten_value {cursor : ℕ} {T : Type} [Scalar T] (value defaultValue : T) :
    SlotWritten cursor (.value value defaultValue) := trivial

@[simp] theorem slotWritten_optional {cursor : ℕ} {T : Type} [Scalar T] (value : Option T) :
    SlotWritten cursor (.optional value) := by
  cases value <;> trivial

theorem SlotWritten.object {cursor : ℕ} {o : Offset} (written : SlotWritten cursor (.offset o))
    {α : Type} (object : Option α) : SlotWritten cursor (.object object o) := by
  cases object with
  | none => trivial
  | some _ => exact written

theorem SlotWritten.vector {cursor : ℕ} {o : Offset} (written : SlotWritten cursor (.offset o))
    {α : Type} (elements : List α) : SlotWritten cursor (.vector elements o) := by
  cases elements with
  | nil => trivial
  | cons _ _ => exact written

theorem SlotWritten.mono {cursor cursor' : ℕ} {slot : Slot} (written : SlotWritten cursor slot)
    (further : cursor ≤ cursor') : SlotWritten cursor' slot := by
  cases slot with
  | offset o =>
    obtain ⟨n, is, below⟩ := written
    exact ⟨n, is, below.trans further⟩
  | _ => trivial

def setSlot (forceDefaults : Bool) (properties : List (Option Property)) (slot : ℕ × Slot) :
    List (Option Property) :=
  match slotProperty forceDefaults slot.2 with
  | none => properties
  | some property => properties.set slot.1 (some property)

@[simp] theorem length_setSlot (forceDefaults : Bool) (slot : ℕ × Slot) :
    (setSlot forceDefaults properties slot).length = properties.length := by
  unfold setSlot
  split
  · rfl
  · exact List.length_set

/-- What a slot does to an open object. -/
structure SlotDone (start : ℕ) (properties : List (Option Property)) (most : ℕ)
    (b b' : FlatBuffersBuilder ι) : Prop where
  grown : Grown most b b'
  vTableOffsets : b'.vTableOffsets = b.vTableOffsets
  cache : b'.cache = b.cache
  stringCache : b'.stringCache = b.stringCache
  opened : Opened start properties b'

/-- The last step of every slot that writes. -/
theorem enterProperty (opened : Opened start properties b) {b₁ : FlatBuffersBuilder ι}
    {most i : ℕ} {property : Property} (wrote : Wrote most b b₁) (further : b.cursor < b₁.cursor)
    (holds : property.Holds (imageOf b₁) b₁.cursor) (room : b₁.cursor ≤ total) :
    Ensures (setProperty i) b₁ (Overflow total) fun _ b' =>
      SlotDone start (properties.set i (some property)) most b b' :=
  setProperty_ensures room ⟨⟨wrote.options, wrote.grows, wrote.aligned, wrote.cursor⟩,
    wrote.vTableOffsets, wrote.cache, wrote.stringCache, opened.set wrote further holds⟩

theorem Opened.wrote (opened : Opened start properties b) {b₁ : FlatBuffersBuilder ι} {most : ℕ}
    (wrote : Wrote most b b₁) : Opened start properties b₁ where
  objectStart := wrote.objectStart.trans opened.objectStart
  vectorNumElems := wrote.vectorNumElems.trans opened.vectorNumElems
  started := opened.started.trans wrote.toGrown.cursor_le
  count := by rw [wrote.currentVTable, opened.count]
  entries := fun i property there => by
    obtain ⟨e, entered, entry⟩ := opened.entries i property there
    exact ⟨e, wrote.currentVTable ▸ entered, entry.grows wrote.grows wrote.toGrown.cursor_le⟩

/-- The bytes of a scalar or struct make an inline property. -/
theorem insert_inline {T : Type} [Scalar T] (aligned : WellAligned b) (v : T) :
    Ensures (insert v) b fail fun _ b' => Wrote 23 b b' ∧ b.cursor < b'.cursor ∧
      (Property.inline (Scalar.store v)).Holds (imageOf b') b'.cursor := by
  have stride : Scalar.stride T ≤ 16 := by
    have cases := Scalar.stride_mem (T := T)
    simp only [List.mem_cons, List.not_mem_nil, or_false] at cases
    omega
  refine (insert_ensures aligned v).mono fun _ b' spec => ?_
  obtain ⟨wrote, further, placed⟩ := spec
  refine ⟨wrote.le (by omega), further, ?_⟩
  rw [Property.Holds, Scalar.length_store]
  exact placed

/-- The reference that an offset makes, null for the offset zero. -/
theorem insertOffset_reference (aligned : WellAligned b) {o : Offset}
    (written : SlotWritten b.cursor (.offset o)) (room : b.cursor + 23 ≤ total) :
    Ensures (insertOffset (some o)) b (Overflow total) fun _ b' =>
      Wrote 23 b b' ∧ b.cursor < b'.cursor ∧
      (Property.reference (if o = 0 then none else some o.toNat)).Holds (imageOf b') b'.cursor := by
  obtain ⟨n, rfl, below⟩ := written
  by_cases null : n = 0
  · subst null
    refine (insertOffset_zero aligned (by omega)).mono fun _ b' spec => ?_
    obtain ⟨wrote, further, word⟩ := spec
    exact ⟨wrote.le (by decide), further, word⟩
  · refine (insertOffset_ensures aligned (by omega) below (by omega)).mono fun _ b' spec => ?_
    obtain ⟨wrote, further, reference⟩ := spec
    rw [if_neg (by omega : ¬ (n : ℤ) = 0)]
    exact ⟨wrote.le (by decide), further, reference⟩

theorem Slot.write_ensures (opened : Opened start properties b) (aligned : WellAligned b) {i : ℕ}
    (inside : i < properties.length) {slot : Slot} (written : SlotWritten b.cursor slot)
    (room : b.cursor + 23 ≤ total) :
    Ensures (slot.write i) b (Overflow total) fun _ b' =>
      SlotDone start (setSlot b.options.forceDefaults properties (i, slot)) 23 b b' := by
  have unchanged : SlotDone start properties 23 b b :=
    ⟨(Grown.refl aligned).le (by decide), rfl, rfl, rfl, opened⟩
  cases slot with
  | value v defaultValue =>
    refine opened.toStartedObject inside ?_
    simp only [Ensures.bind_iff, Ensures.get_iff]
    by_cases default : b.options.forceDefaults = false ∧ Scalar.equal v defaultValue = true
    · rw [if_pos default, Ensures.pure_iff]
      simp only [setSlot, slotProperty, if_pos default]
      exact unchanged
    · rw [if_neg default, Ensures.bind_iff]
      simp only [setSlot, slotProperty, if_neg default]
      refine (insert_inline aligned v).mono fun _ b₁ spec => ?_
      obtain ⟨wrote, further, holds⟩ := spec
      exact enterProperty opened wrote further holds (wrote.cursor.trans room)
  | inline v =>
    refine Ensures.seq (insert_inline aligned v) fun _ b₁ spec => ?_
    obtain ⟨wrote, further, holds⟩ := spec
    refine (opened.wrote wrote).toStartedObject inside ?_
    exact enterProperty opened wrote further holds (wrote.cursor.trans room)
  | offset o =>
    refine opened.toStartedObject inside ?_
    refine Ensures.seq (insertOffset_reference aligned written room) fun _ b₁ spec => ?_
    obtain ⟨wrote, further, holds⟩ := spec
    exact enterProperty opened wrote further holds (wrote.cursor.trans room)
  | skip => exact Ensures.pure_iff.mpr unchanged

end Slots

/-- The reserved word in front of the table is filled in. -/
theorem update_ensures {kept reserved table : List UInt8} (four : reserved.length = 4) (z : ℤ)
    (data : b.data = kept ++ (reserved ++ table)) {index : ℕ} (place : index = kept.length) :
    Ensures (update (Int32.ofInt z) index) b fail fun _ b' =>
      b' = { b with data := kept ++ (Scalar.store (Int32.ofInt z) ++ table) } := by
  subst place
  have stride : Scalar.stride Int32 = reserved.length := four.symm
  rw [update, Ensures.modify_iff, data, List.take_left, stride, ← List.drop_drop, List.drop_left,
    List.drop_left, List.append_assoc]

/-- What closing an object makes of it. -/
structure TableDone (properties : List (Option Property)) (most : ℕ) (b : FlatBuffersBuilder ι)
    (table : Offset) (b' : FlatBuffersBuilder ι) : Prop where
  kept : Kept most b b'
  placed : ∃ d : ℕ, table = d ∧ b.cursor < d ∧
    ∃ vtable length entry, TableAt (imageOf b') d vtable length entry properties

section EndObject
variable {start : ℕ} {properties : List (Option Property)}

/-- The entry stored for a property, as a distance from the start of the table. -/
def storedEntry (loc : ℕ) (entries : List ℤ) (i : ℕ) : ℕ := (relative loc (entries[i]?.getD 0)).toNat

theorem Opened.storedEntry_absent (opened : Opened start properties b) (loc : ℕ) {i : ℕ}
    (there : properties[i]? = some none) :
    b.currentVTable[i]? = some 0 ∧ relative loc 0 = storedEntry loc b.currentVTable i ∧
      storedEntry loc b.currentVTable i = 0 := by
  obtain ⟨e, entered, rfl⟩ := opened.entries i none there
  have stored : storedEntry loc b.currentVTable i = 0 := by
    rw [storedEntry, entered]
    rfl
  exact ⟨entered, by rw [stored]; rfl, stored⟩

theorem Opened.storedEntry_present (opened : Opened start properties b) {loc : ℕ}
    (below : b.cursor < loc) {i : ℕ} {property : Property}
    (there : properties[i]? = some (some property)) :
    ∃ e : ℕ, b.currentVTable[i]? = some (e : ℤ) ∧ start < e ∧ e < loc ∧
      property.Holds (imageOf b) e ∧ relative loc e = storedEntry loc b.currentVTable i ∧
      storedEntry loc b.currentVTable i = loc - e := by
  obtain ⟨e, entered, above, inside, holds⟩ := opened.entries i (some property) there
  have nonzero : (e : ℤ) ≠ 0 := by omega
  have value : relative loc e = loc - e := if_pos nonzero
  have stored : storedEntry loc b.currentVTable i = loc - e := by
    rw [storedEntry, entered, Option.getD_some, value]
    omega
  exact ⟨e, entered, above, by omega, holds, by omega, stored⟩

/-- The table that the closed object is, given its vtable and its first word. -/
theorem Opened.tableAt (opened : Opened start properties b) {image : Image} {loc vtable : ℕ}
    (grows : (imageOf b).Grows image) (location : image.Word loc (vtable - loc))
    (row : image.Placed vtable 2 (vtableRow loc start b.currentVTable)) (below : b.cursor < loc)
    (small : loc < start + 2 ^ 15) (few : 4 + 2 * properties.length < 2 ^ 15) :
    TableAt image loc vtable (loc - start) (storedEntry loc b.currentVTable) properties := by
  have started := opened.started
  have count := opened.count
  have unit := row.total
  have even := row.place
  have first := row.stored.left
  have second := row.stored.right.left
  have rest := row.stored.right.right
  rw [Scalar.length_store] at second rest
  rw [Scalar.length_store] at rest
  have evenSecond : 2 ∣ vtable - 2 := Nat.dvd_sub even (dvd_refl 2)
  have number : ((b.currentVTable.length : ℤ) + 2) * 2 = 4 + 2 * properties.length := by omega
  rw [number] at first
  have half : ∀ {i : ℕ} {e z : ℤ}, b.currentVTable[i]? = some e → relative loc e = z → 0 ≤ z →
      z < 2 ^ 15 → image.Half (vtable - 4 - 2 * i) z := by
    intro i e z entered value low high
    have piece := rest.piece (length_entryRow loc) entered
    have evenEntry : 2 ∣ vtable - 4 - 2 * i :=
      Nat.dvd_sub (Nat.dvd_sub even (by decide)) (Nat.dvd_mul_right _ _)
    rw [entryRow, value] at piece
    exact ⟨⟨piece, evenEntry, unit⟩, by omega, high⟩
  refine ⟨location, ⟨⟨first, even, unit⟩, by omega, by omega⟩,
    ⟨⟨second, evenSecond, unit⟩, by omega, by omega⟩, ?_, ?_, ?_⟩
  · intro i inside
    have there := List.getElem?_eq_getElem inside
    cases h : properties[i] with
    | none =>
      obtain ⟨entered, value, stored⟩ := opened.storedEntry_absent loc (h ▸ there)
      exact half entered value (by omega) (by omega)
    | some property =>
      obtain ⟨e, entered, above, under, _, value, stored⟩ :=
        opened.storedEntry_present below (h ▸ there)
      exact half entered value (by omega) (by omega)
  · intro i there
    exact (opened.storedEntry_absent loc there).2.2
  · intro i property there
    obtain ⟨e, _, above, under, holds, _, stored⟩ := opened.storedEntry_present below there
    have place : loc - storedEntry loc b.currentVTable i = e := by omega
    rw [place]
    exact ⟨by omega, by omega, by omega, holds.grows grows⟩

theorem Opened.entriesWithin (opened : Opened start properties b) {loc : ℕ}
    (below : b.cursor ≤ loc) : ∀ entry ∈ b.currentVTable, EntryWithin start loc entry := by
  intro entry member
  obtain ⟨i, inside, rfl⟩ := List.getElem_of_mem member
  have inside' : i < properties.length := opened.count ▸ inside
  obtain ⟨e, entered, at_⟩ := opened.entries i _ (List.getElem?_eq_getElem inside')
  have same := (List.getElem?_eq_some_iff.mp entered).2
  refine ⟨e, same, ?_⟩
  cases h : properties[i] with
  | none =>
    rw [h] at at_
    exact .inl at_
  | some property =>
    rw [h] at at_
    exact .inr ⟨at_.1, at_.2.1.trans below⟩

/-- The last steps of `endObject`, on the table `b₂` with its first word reserved and
the vtable at `vtable`, of which `kept` is what lies in front of the table. -/
theorem fillTable_ensures (opened : Opened start properties b) (hold : VTablesHold b)
    {b₂ : FlatBuffersBuilder ι} {kept reserved table : List UInt8} {vtable : ℕ} {offsets : List ℤ}
    (wrote : Wrote 7 b b₂) (data : b₂.data = reserved ++ table) (four : reserved.length = 4)
    (before : b.data <:+ table) (place : 4 ∣ b₂.cursor) (unit : 4 ∣ b₂.minalign)
    (row : ∀ word : List UInt8, word.length = 4 →
      Stored (kept ++ (word ++ table)) vtable (vtableRow b₂.cursor start b.currentVTable))
    (even : 2 ∣ vtable) (known : ∀ offset ∈ offsets, offset ∈ b.vTableOffsets ∨ offset = vtable)
    (short : kept.length ≤ 4 + 2 * properties.length) (few : 4 + 2 * properties.length < 2 ^ 15)
    (small : b.cursor + 7 < start + 2 ^ 15) (room : b.cursor + 11 + 2 * properties.length ≤ total) :
    Ensures (do
        let relative ← int32 (vtable - b₂.cursor)
        update (Int32.ofInt relative) kept.length
        modify fun b => { b with objectStart := -1 }
        int32 b₂.cursor) { b₂ with data := kept ++ b₂.data, vTableOffsets := offsets }
      (Overflow total) fun loc b' => TableDone properties (11 + 2 * properties.length) b loc b' := by
  have length₂ : b₂.cursor = 4 + table.length := by
    rw [FlatBuffersBuilder.cursor, data, List.length_append, four]
  have reached := wrote.cursor
  have grown : b.cursor ≤ table.length := before.length_le
  have stored := row _ (Scalar.length_store (Int32.ofInt (vtable - b₂.cursor)))
  have inside := stored.le_length
  rw [List.length_append, List.length_append, Scalar.length_store] at inside
  change vtable ≤ kept.length + (4 + table.length) at inside
  rw [Ensures.bind_iff]
  refine int32_between (n := total) (by omega) (by omega) (le_refl _) fun low high => ?_
  refine Ensures.seq (update_ensures four _ (congrArg (kept ++ ·) data) rfl) fun _ b₅ is => ?_
  subst is
  rw [Ensures.bind_iff, Ensures.modify_iff]
  refine int32_ensures (by omega) fun _ => ?_
  have grows : (imageOf b).Grows ⟨kept ++ (Scalar.store (Int32.ofInt (vtable - b₂.cursor)) ++ table),
      b₂.minalign⟩ :=
    ⟨before.trans ⟨kept ++ Scalar.store (Int32.ofInt (vtable - b₂.cursor)), by simp⟩,
      wrote.grows.minalign⟩
  have location : Image.Word ⟨kept ++ (Scalar.store (Int32.ofInt (vtable - b₂.cursor)) ++ table),
      b₂.minalign⟩ b₂.cursor (vtable - b₂.cursor) := by
    refine ⟨⟨⟨kept, table, by simp, ?_⟩, place, unit⟩, low, high⟩
    rw [Scalar.length_store, length₂]
    rfl
  have count := opened.count
  have rowPlaced : Image.Placed
      ⟨kept ++ (Scalar.store (Int32.ofInt (vtable - b₂.cursor)) ++ table), b₂.minalign⟩ vtable 2
      (vtableRow b₂.cursor start b.currentVTable) :=
    ⟨stored, even, (by decide : 2 ∣ 4).trans unit⟩
  have length := length_vtableRow b₂.cursor start b.currentVTable
  refine ⟨⟨⟨wrote.options, grows, wrote.aligned, ?_⟩, ⟨rfl, wrote.vectorNumElems.trans
    opened.vectorNumElems⟩, ?_, wrote.cache, wrote.stringCache⟩, b₂.cursor, rfl, by omega, vtable, _, _,
    opened.tableAt grows location rowPlaced (by omega) (by omega) few⟩
  · change (kept ++ (Scalar.store (Int32.ofInt (vtable - b₂.cursor)) ++ table)).length ≤ _
    rw [List.length_append, List.length_append, Scalar.length_store]
    change kept.length + (4 + table.length) ≤ _
    omega
  · intro offset member
    rcases known offset member with old | rfl
    · obtain ⟨n, bs, is, vtable, placed⟩ := hold offset old
      exact ⟨n, bs, is, vtable, placed.grows grows⟩
    · exact ⟨vtable, _, rfl, vtableRow_proper (by omega), rowPlaced⟩

theorem endObject_ensures (opened : Opened start properties b) (aligned : WellAligned b)
    (hold : VTablesHold b) (few : 4 + 2 * properties.length < 2 ^ 15)
    (small : b.cursor + 7 < start + 2 ^ 15) (room : b.cursor + 11 + 2 * properties.length ≤ total) :
    Ensures endObject b (Overflow total) fun table b' =>
      TableDone properties (11 + 2 * properties.length) b table b' := by
  unfold endObject
  rw [Ensures.bind_iff, Ensures.get_iff, if_pos (by rw [opened.objectStart]; omega)]
  refine Ensures.seq (align_ensures aligned (by decide : 2 ≤ 3) 0) fun _ b₁ spec => ?_
  obtain ⟨wrote, place, unit⟩ := spec
  have reached₁ := wrote.cursor
  have further₁ := wrote.toGrown.cursor_le
  rw [Ensures.bind_iff, Ensures.modify_iff, Ensures.bind_iff, Ensures.get_iff]
  have wrote₂ := wrote.trans (wrote_advance wrote.aligned 4)
  have cursor₂ := cursor_advance b₁ 4
  have data₂ : (b₁.advance 4).data = (List.range 4).map b₁.garbage ++ b₁.data := rfl
  have unit₂ : 4 ∣ (b₁.advance 4).minalign := unit
  generalize b₁.advance 4 = b₂ at wrote₂ cursor₂ data₂ unit₂ ⊢
  have place₂ : 4 ∣ b₂.cursor := by
    rw [cursor₂]
    exact Nat.dvd_add (dvd_refl 4) place
  have opened₂ := opened.wrote wrote₂
  have hold₂ := hold.grows wrote₂.grows wrote₂.vTableOffsets
  have count := opened₂.count
  have started := opened.started
  have length := length_vtableRow b₂.cursor start b₂.currentVTable
  refine Ensures.seq (insertVTable_ensures wrote₂.aligned place₂ unit₂ opened₂.objectStart
    (opened₂.entriesWithin (le_refl _)) (by omega) opened₂.started (by omega) (by omega))
    fun _ b₃ is => ?_
  subst is
  refine Ensures.seq (shareVTable_ensures hold₂ (vtableRow_proper (by omega))
    (by rw [cursor_push]; omega)) fun off b₄ spec => ?_
  obtain ⟨vtable, rfl, shared⟩ := spec
  rw [Ensures.bind_iff, Ensures.get_iff]
  have four : ((List.range 4).map b₁.garbage).length = 4 := by simp
  have same : b₂.currentVTable = b.currentVTable := wrote₂.currentVTable
  cases shared with
  | earlier _ known placed =>
    obtain ⟨m, bs, is, _, earlier⟩ := hold vtable (wrote₂.vTableOffsets ▸ known)
    obtain rfl : vtable = m := by omega
    have inside : vtable ≤ b.cursor := earlier.stored.le_length
    have stored : Stored b₂.data vtable (vtableRow b₂.cursor start b₂.currentVTable) :=
      placed.stored
    rw [data₂, same] at stored
    have row : ∀ word : List UInt8, word.length = 4 →
        Stored ([] ++ (word ++ b₁.data)) vtable (vtableRow b₂.cursor start b.currentVTable) :=
      fun word _ => (stored.shrink (by
        change vtable ≤ b₁.cursor
        omega)).extend (List.suffix_append word _)
    have sameOffsets : ∀ offset ∈ b₂.vTableOffsets, offset ∈ b.vTableOffsets ∨ offset = vtable :=
      fun offset member => .inl (wrote₂.vTableOffsets ▸ member)
    have filled := fillTable_ensures opened hold wrote₂ data₂ four wrote.grows.data place₂ unit₂ row
      placed.place sameOffsets (Nat.zero_le _) few small room
    rw [Nat.sub_self]
    exact filled
  | own offsets known =>
    have pushed := cursor_push b₂ (vtableRow b₂.cursor start b₂.currentVTable)
    have row : ∀ word : List UInt8, word.length = 4 →
        Stored (vtableRow b₂.cursor start b₂.currentVTable ++ (word ++ b₁.data))
          (b₂.push (vtableRow b₂.cursor start b₂.currentVTable)).cursor
          (vtableRow b₂.cursor start b.currentVTable) := by
      intro word four
      have front := Stored.front (vtableRow b₂.cursor start b.currentVTable) (word ++ b₁.data)
      rw [List.length_append, four] at front
      rw [same, cursor_push, cursor₂]
      rw [cursor₂] at front
      exact front
    have even : 2 ∣ (b₂.push (vtableRow b₂.cursor start b₂.currentVTable)).cursor := by omega
    have sameOffsets : ∀ offset ∈ offsets, offset ∈ b.vTableOffsets ∨
        offset = (b₂.push (vtableRow b₂.cursor start b₂.currentVTable)).cursor :=
      fun offset member => wrote₂.vTableOffsets ▸ known offset member
    have filled := fillTable_ensures opened hold wrote₂ data₂ four wrote.grows.data place₂ unit₂ row
      even sameOffsets (by omega) few small room
    have index : (b₂.push (vtableRow b₂.cursor start b₂.currentVTable)).cursor - b₂.cursor =
        (vtableRow b₂.cursor start b₂.currentVTable).length := by omega
    rw [← index] at filled
    exact filled

end EndObject

/-- The properties of a table written from these slots. -/
def tableProperties (forceDefaults : Bool) (count : ℕ) (slots : List (ℕ × Slot)) :
    List (Option Property) :=
  slots.foldl (setSlot forceDefaults) (List.replicate count none)

@[simp] theorem length_tableProperties (forceDefaults : Bool) (count : ℕ) (slots : List (ℕ × Slot)) :
    (tableProperties forceDefaults count slots).length = count := by
  unfold tableProperties
  suffices general : ∀ properties, (slots.foldl (setSlot forceDefaults) properties).length =
      properties.length by
    rw [general, List.length_replicate]
  induction slots with
  | nil => exact fun _ => rfl
  | cons slot slots ih =>
    intro properties
    rw [List.foldl_cons, ih, length_setSlot]

/-- The slots are written one after the other. -/
theorem writeSlots_ensures {start count : ℕ} {b₁ : FlatBuffersBuilder ι}
    {slots : List (ℕ × Slot)} (started : SlotDone start (List.replicate count none) 0 b b₁)
    (indices : ∀ slot ∈ slots, slot.1 < count)
    (written : ∀ slot ∈ slots, SlotWritten b.cursor slot.2)
    (room : b.cursor + 23 * slots.length ≤ total) :
    Ensures (slots.forM fun (propertyIndex, slot) => slot.write propertyIndex) b₁ (Overflow total)
      fun _ b' => SlotDone start (tableProperties b.options.forceDefaults count slots)
        (23 * slots.length) b b' := by
  refine Ensures.forM (fun done => SlotDone start (tableProperties b.options.forceDefaults
    count done) (23 * done.length) b) slots ?_ started
  rintro before ⟨i, slot⟩ after b₂ whole done
  have member : (i, slot) ∈ slots := whole ▸ List.mem_append_right _ List.mem_cons_self
  have length := congrArg List.length whole
  rw [List.length_append, List.length_cons] at length
  have reached := done.grown.cursor
  have inside : i < (tableProperties b.options.forceDefaults count before).length := by
    rw [length_tableProperties]
    exact indices _ member
  refine (Slot.write_ensures done.opened done.grown.aligned inside
    ((written _ member).mono done.grown.cursor_le) (by omega)).mono fun _ b₃ step => ?_
  have next : tableProperties b.options.forceDefaults count (before ++ [(i, slot)]) =
      setSlot b₂.options.forceDefaults (tableProperties b.options.forceDefaults count before)
        (i, slot) := by
    rw [done.grown.options, tableProperties, List.foldl_append]
    rfl
  rw [next]
  exact ⟨(done.grown.trans step.grown).le (by simp; omega), step.vTableOffsets.trans
    done.vTableOffsets, step.cache.trans done.cache, step.stringCache.trans done.stringCache,
    step.opened⟩

theorem writeTable_ensures (closed : Closed b) (aligned : WellAligned b) (hold : VTablesHold b)
    {count : ℕ} {slots : List (ℕ × Slot)} (indices : ∀ slot ∈ slots, slot.1 < count)
    (written : ∀ slot ∈ slots, SlotWritten b.cursor slot.2)
    (few : 23 * slots.length + 2 * count + 11 < 2 ^ 15)
    (room : b.cursor + (23 * slots.length + 2 * count + 11) ≤ total) :
    Ensures (writeTable count slots) b (Overflow total) fun table b' =>
      TableDone (tableProperties b.options.forceDefaults count slots)
        (23 * slots.length + 2 * count + 11) b table b' := by
  unfold writeTable
  refine Ensures.seq (startObject_ensures closed aligned (by omega) count) fun _ b₁ spec => ?_
  obtain ⟨grown, vTableOffsets, cache, stringCache, opened⟩ := spec
  have started : SlotDone b.cursor (List.replicate count none) 0 b b₁ :=
    ⟨grown, vTableOffsets, cache, stringCache, opened⟩
  refine Ensures.seq (writeSlots_ensures started indices written (by omega)) fun _ b₂ done => ?_
  have reached := done.grown.cursor
  have length := length_tableProperties b.options.forceDefaults count slots
  refine (endObject_ensures done.opened done.grown.aligned
    (hold.grows done.grown.grows done.vTableOffsets) (by omega) (by omega) (by omega)).mono
    fun table b₃ step => ?_
  obtain ⟨d, is, beyond, placed⟩ := step.placed
  have further := done.grown.cursor_le
  have kept := step.kept
  exact ⟨⟨(done.grown.trans kept.grown).le (by omega), kept.closed, kept.vtables,
    kept.cache.trans done.cache, kept.stringCache.trans done.stringCache⟩, d, is, by omega, placed⟩

section Properties
variable {forceDefaults : Bool} {properties : List (Option Property)} {i : ℕ}

theorem setSlot_other {slot : ℕ × Slot} (other : slot.1 ≠ i) :
    (setSlot forceDefaults properties slot)[i]? = properties[i]? := by
  unfold setSlot
  split
  · rfl
  · rw [List.getElem?_set_ne other]

theorem setSlot_self {slot : Slot} (blank : properties[i]? = some none) :
    (setSlot forceDefaults properties (i, slot))[i]? = some (slotProperty forceDefaults slot) := by
  obtain ⟨inside, _⟩ := List.getElem?_eq_some_iff.mp blank
  unfold setSlot
  split
  · next nothing => rw [blank, ← nothing]
  · next property there => rw [List.getElem?_set_self inside, ← there]

theorem setSlots_other {slots : List (ℕ × Slot)} (absent : i ∉ slots.map Prod.fst) :
    (slots.foldl (setSlot forceDefaults) properties)[i]? = properties[i]? := by
  induction slots generalizing properties with
  | nil => rfl
  | cons slot slots ih =>
    rw [List.map_cons, List.mem_cons, not_or] at absent
    rw [List.foldl_cons, ih absent.2, setSlot_other (Ne.symm absent.1)]

theorem setSlots_self {slots : List (ℕ × Slot)} (distinct : (slots.map Prod.fst).Nodup)
    {slot : Slot} (member : (i, slot) ∈ slots) (blank : properties[i]? = some none) :
    (slots.foldl (setSlot forceDefaults) properties)[i]? =
      some (slotProperty forceDefaults slot) := by
  induction slots generalizing properties with
  | nil => cases member
  | cons head slots ih =>
    obtain ⟨fresh, rest⟩ := List.nodup_cons.mp distinct
    rw [List.foldl_cons]
    rcases List.mem_cons.mp member with rfl | later
    · rw [setSlots_other fresh, setSlot_self blank]
    · have other : head.1 ≠ i := fun same => fresh (same ▸ List.mem_map_of_mem later)
      exact ih rest later ((setSlot_other other).trans blank)

/-- With each index once, a property is what its slot says. -/
theorem getElem?_tableProperties {count : ℕ} {slots : List (ℕ × Slot)}
    (distinct : (slots.map Prod.fst).Nodup) {slot : Slot} (member : (i, slot) ∈ slots)
    (inside : i < count) :
    (tableProperties forceDefaults count slots)[i]? = some (slotProperty forceDefaults slot) :=
  setSlots_self distinct member (by simp [inside])

end Properties
end Arthius.Guarantees
