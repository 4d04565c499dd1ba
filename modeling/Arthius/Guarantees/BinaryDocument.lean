import Arthius.Source.FlatBuffersTables

/-!
# What a binary file says

The format in the abstract: strings, vectors of objects and tables, each at its
distance from the end of the file, where everything that is written later leaves it.
`Document.Holds` says that an image (bytes, and a number that the length of the
finished file divides by) stores a document, and the reader reads off a finished file
what the document says.
-/
namespace Arthius.Guarantees
open Arthius.Lib Arthius.Source.FlatBuffers

/-- The bytes written so far, and the alignment that the finished length will have. -/
structure Image where
  data : List UInt8
  minalign : ℕ

namespace Image

/-- What is written later. -/
structure Grows (image image' : Image) : Prop where
  data : image.data <:+ image'.data
  minalign : image.minalign ∣ image'.minalign

theorem Grows.refl (image : Image) : image.Grows image := ⟨List.suffix_refl _, dvd_refl _⟩

theorem Grows.trans {i j k : Image} (first : i.Grows j) (second : j.Grows k) : i.Grows k :=
  ⟨first.data.trans second.data, first.minalign.trans second.minalign⟩

/-- A finished file is aligned to its own length. -/
def ofFile (file : List UInt8) : Image := ⟨file, file.length⟩

/-- A row of bytes at an aligned place. -/
structure Placed (image : Image) (d alignment : ℕ) (bs : List UInt8) : Prop where
  stored : Stored image.data d bs
  place : alignment ∣ d
  total : alignment ∣ image.minalign

variable {image image' : Image} {d target alignment : ℕ} {bs : List UInt8} {z : ℤ}

theorem Placed.grows (placed : image.Placed d alignment bs) (grows : image.Grows image') :
    image'.Placed d alignment bs :=
  ⟨placed.stored.extend grows.data, placed.place, placed.total.trans grows.minalign⟩

/-- An `Int32`. -/
structure Word (image : Image) (d : ℕ) (z : ℤ) : Prop where
  placed : image.Placed d 4 (Scalar.store (Int32.ofInt z))
  low : -2 ^ 31 ≤ z
  high : z < 2 ^ 31

/-- An `Int16`. -/
structure Half (image : Image) (d : ℕ) (z : ℤ) : Prop where
  placed : image.Placed d 2 (Scalar.store (Int16.ofInt z))
  low : -2 ^ 15 ≤ z
  high : z < 2 ^ 15

/-- The distance to an object written before. -/
structure Reference (image : Image) (d target : ℕ) : Prop where
  earlier : target < d
  word : image.Word d (d - target)

theorem Word.grows (word : image.Word d z) (grows : image.Grows image') : image'.Word d z :=
  ⟨word.placed.grows grows, word.low, word.high⟩

theorem Half.grows (half : image.Half d z) (grows : image.Grows image') : image'.Half d z :=
  ⟨half.placed.grows grows, half.low, half.high⟩

theorem Reference.grows (reference : image.Reference d target) (grows : image.Grows image') :
    image'.Reference d target := ⟨reference.earlier, reference.word.grows grows⟩

theorem Word.four_le (word : image.Word d z) : 4 ≤ d := word.placed.stored.length_le

end Image

/-- A property of a table: a scalar or struct, or an object, which may be missing. -/
inductive Property where
  | inline (bytes : List UInt8)
  | reference (target : Option ℕ)

inductive Node (κ : Type) where
  | string (bytes : List UInt8)
  | vector (targets : List ℕ)
  | table (kind : κ) (properties : List (Option Property))

/-- The nodes of a file by their distances from its end. -/
def Document (κ : Type) := ℕ → Option (Node κ)

section Holds
variable {κ : Type} {image image' : Image} {d : ℕ}

def Property.Holds (image : Image) (d : ℕ) : Property → Prop
  | inline bytes => image.Placed d (min bytes.length 8) bytes
  | reference none => image.Word d 0
  | reference (some target) => image.Reference d target

/-- A table at `d` with its vtable at `vtable`: the entry of a property is the
distance from the start of the table, or zero for a property left out. -/
structure TableAt (image : Image) (d vtable : ℕ) (length : ℤ) (entry : ℕ → ℕ)
    (properties : List (Option Property)) : Prop where
  location : image.Word d (vtable - d)
  vtableLength : image.Half vtable (4 + 2 * properties.length)
  objectLength : image.Half (vtable - 2) length
  entries : ∀ i < properties.length, image.Half (vtable - 4 - 2 * i) (entry i)
  absent : ∀ i, properties[i]? = some none → entry i = 0
  present : ∀ i property, properties[i]? = some (some property) →
    0 < entry i ∧ entry i < d ∧ entry i < length ∧ property.Holds image (d - entry i)

def Node.Holds (image : Image) (d : ℕ) : Node κ → Prop
  | string bytes => image.Word d bytes.length ∧ Stored image.data (d - 4) bytes
  | vector targets => image.Word d targets.length ∧
      ∀ i target, targets[i]? = some target → image.Reference (d - 4 - 4 * i) target
  | table _ properties => ∃ vtable length entry, TableAt image d vtable length entry properties

theorem Property.Holds.grows {property : Property} (holds : property.Holds image d)
    (grows : image.Grows image') : property.Holds image' d := by
  cases property with
  | inline bytes => exact Image.Placed.grows holds grows
  | reference target =>
    cases target with
    | none => exact Image.Word.grows holds grows
    | some target => exact Image.Reference.grows holds grows

theorem TableAt.grows {vtable : ℕ} {length : ℤ} {entry : ℕ → ℕ}
    {properties : List (Option Property)} (table : TableAt image d vtable length entry properties)
    (grows : image.Grows image') : TableAt image' d vtable length entry properties where
  location := table.location.grows grows
  vtableLength := table.vtableLength.grows grows
  objectLength := table.objectLength.grows grows
  entries := fun i inside => (table.entries i inside).grows grows
  absent := table.absent
  present := fun i property there => by
    obtain ⟨positive, inside, below, holds⟩ := table.present i property there
    exact ⟨positive, inside, below, holds.grows grows⟩

theorem Node.Holds.grows {node : Node κ} (holds : node.Holds image d)
    (grows : image.Grows image') : node.Holds image' d := by
  cases node with
  | string bytes => exact ⟨holds.1.grows grows, holds.2.extend grows.data⟩
  | vector targets => exact ⟨holds.1.grows grows, fun i t there => (holds.2 i t there).grows grows⟩
  | table kind properties =>
    obtain ⟨vtable, length, entry, table⟩ := holds
    exact ⟨vtable, length, entry, table.grows grows⟩

/-- Every node starts with an `Int32` of its own. -/
theorem Node.Holds.word {node : Node κ} (holds : node.Holds image d) : ∃ z, image.Word d z := by
  cases node with
  | string bytes => exact ⟨_, holds.1⟩
  | vector targets => exact ⟨_, holds.1⟩
  | table kind properties =>
    obtain ⟨_, _, _, table⟩ := holds
    exact ⟨_, table.location⟩

end Holds

namespace Document
variable {κ : Type}

def empty : Document κ := fun _ => none

/-- The image stores every node. -/
def Holds (doc : Document κ) (image : Image) : Prop :=
  ∀ d node, doc d = some node → node.Holds image d

def Extends (doc' doc : Document κ) : Prop := ∀ d node, doc d = some node → doc' d = some node

theorem Extends.refl (doc : Document κ) : doc.Extends doc := fun _ _ there => there

theorem Extends.trans {doc doc' doc'' : Document κ} (second : doc''.Extends doc')
    (first : doc'.Extends doc) : doc''.Extends doc :=
  fun d node there => second d node (first d node there)

theorem Holds.grows {doc : Document κ} {image image' : Image} (holds : doc.Holds image)
    (grows : image.Grows image') : doc.Holds image' :=
  fun d node there => (holds d node there).grows grows

theorem Holds.le_length {doc : Document κ} {image : Image} (holds : doc.Holds image) {d : ℕ}
    {node : Node κ} (there : doc d = some node) : d ≤ image.data.length := by
  obtain ⟨_, word⟩ := (holds d node there).word
  exact word.placed.stored.le_length

/-- One more node. -/
def add (doc : Document κ) (d : ℕ) (node : Node κ) : Document κ :=
  fun d' => if d' = d then some node else doc d'

theorem add_self (doc : Document κ) (d : ℕ) (node : Node κ) : doc.add d node d = some node :=
  if_pos rfl

theorem add_extends {doc : Document κ} {d : ℕ} (fresh : doc d = none) (node : Node κ) :
    (doc.add d node).Extends doc := by
  intro d' node' there
  have differs : d' ≠ d := by
    rintro rfl
    rw [fresh] at there
    cases there
  rw [add, if_neg differs]
  exact there

theorem Holds.add {doc : Document κ} {image : Image} (holds : doc.Holds image) {d : ℕ}
    {node : Node κ} (new : node.Holds image d) : (doc.add d node).Holds image := by
  intro d' node' there
  rw [Document.add] at there
  split at there
  · next same =>
    cases there
    exact same ▸ new
  · exact holds d' node' there

end Document

/-- The file stores the document, and every distance in it fits an `Int32`. -/
structure Stores {κ : Type} (file : List UInt8) (doc : Document κ) : Prop where
  holds : doc.Holds (Image.ofFile file)
  small : file.length < 2 ^ 31

end Arthius.Guarantees
