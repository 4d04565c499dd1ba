import Arthius.Guarantees.BinaryDocument

/-!
# Reading a stored document

On a finished file that stores a node at `d`, every function of the reader returns
what the node says: none of its bounds checks fails and no sum of offsets leaves
`Int32`.
-/
namespace Arthius.Guarantees
open Arthius.Lib Arthius.Source.FlatBuffers

theorem Image.Word.toInt {image : Image} {d : ℕ} {z : ℤ} (word : image.Word d z) :
    (Int32.ofInt z).toInt = z := Int32.toInt_ofInt_of_le word.low word.high

theorem Image.Half.toInt {image : Image} {d : ℕ} {z : ℤ} (half : image.Half d z) :
    (Int16.ofInt z).toInt = z := Int16.toInt_ofInt_of_le half.low half.high

theorem offsetSum_of_mem {z : ℤ} (low : 0 ≤ z) (high : z < 2 ^ 31) : offsetSum z = .ok z :=
  if_pos ⟨by omega, high⟩

theorem utf8_decoded (s : String) : decoded (utf8 s) = some s := by
  rw [decoded, utf8, Array.toArray_toList, String.fromUTF8?, dif_pos s.isValidUTF8]
  rfl

namespace Reading
variable {file : List UInt8} {d : ℕ}

/-- A row of bytes of the file is read as it is. -/
theorem memory {bs : List UInt8} (stored : Stored file d bs) :
    (FlatBuffersReader.mk file).memory (file.length - d) bs.length = .ok bs := by
  have held : d ≤ file.length := stored.le_length
  have room := stored.length_le
  have inside : 0 ≤ (file.length : ℤ) - d ∧ (file.length : ℤ) - d + bs.length ≤ file.length := by omega
  have start : ((file.length : ℤ) - d).toNat = file.length - d := by omega
  rw [FlatBuffersReader.memory, if_pos inside, start, stored.slice_eq]

theorem scalar {T : Type} [Scalar T] {value : T} {alignment : ℕ}
    (placed : (Image.ofFile file).Placed d alignment (Scalar.store value)) :
    (FlatBuffersReader.mk file).scalar T (file.length - d) = .ok value := by
  have held : d ≤ file.length := placed.stored.le_length
  have room := placed.stored.length_le
  rw [Scalar.length_store] at room
  have inside : ¬ ((file.length : ℤ) - d + Scalar.stride T > file.length ∨
      (file.length : ℤ) - d < 0) := by omega
  have stored : Stored file d (Scalar.store value) := placed.stored
  have read := memory stored
  rw [Scalar.length_store] at read
  rw [FlatBuffersReader.scalar, if_neg inside, read]
  exact congrArg Except.ok (Scalar.load_store value)

theorem word {z : ℤ} (word : (Image.ofFile file).Word d z) :
    (FlatBuffersReader.mk file).scalar Int32 (file.length - d) = .ok (Int32.ofInt z) :=
  scalar word.placed

theorem half {z : ℤ} (half : (Image.ofFile file).Half d z) :
    (FlatBuffersReader.mk file).scalar Int16 (file.length - d) = .ok (Int16.ofInt z) :=
  scalar half.placed

section Table
variable {vtable : ℕ} {length : ℤ} {entry : ℕ → ℕ} {properties : List (Option Property)}

theorem propertyOffset (table : TableAt (Image.ofFile file) d vtable length entry properties)
    {i : ℕ} (inside : i < properties.length) :
    (FlatBuffersReader.mk file).propertyOffset (file.length - d) i = .ok (entry i) := by
  have start : (file.length : ℤ) - d - (vtable - d) = file.length - vtable := by omega
  have second : (file.length : ℤ) - vtable + 2 = file.length - (vtable - 2 : ℕ) := by
    have room : 2 ≤ vtable := table.vtableLength.placed.stored.length_le
    omega
  have place : (file.length : ℤ) - vtable + ((4 + i * 2 : ℕ) : ℤ) =
      file.length - (vtable - 4 - 2 * i : ℕ) := by
    have room : 2 ≤ vtable - 4 - 2 * i := (table.entries i inside).placed.stored.length_le
    omega
  have few := table.vtableLength.high
  have small : ¬ 4 + i * 2 ≥ 2 ^ 15 := by omega
  have covered : ¬ (4 + 2 * properties.length : ℤ) ≤ ((4 + i * 2 : ℕ) : ℤ) := by omega
  unfold FlatBuffersReader.propertyOffset
  simp only [word table.location, table.location.toInt, start, half table.vtableLength, second,
    half table.objectLength, place, half (table.entries i inside), bind, Except.bind]
  rw [if_neg small, table.vtableLength.toInt, if_neg covered, table.objectLength.toInt,
    (table.entries i inside).toInt]
  have there := List.getElem?_eq_getElem inside
  cases h : properties[i] with
  | none =>
    rw [h] at there
    rw [table.absent i there]
    split <;> rfl
  | some property =>
    rw [h] at there
    obtain ⟨_, _, below, _⟩ := table.present i property there
    rw [if_neg (by omega)]
    rfl

theorem propertyOffset_absent
    (table : TableAt (Image.ofFile file) d vtable length entry properties) {i : ℕ}
    (there : properties[i]? = some none) :
    (FlatBuffersReader.mk file).propertyOffset (file.length - d) i = .ok 0 := by
  obtain ⟨inside, _⟩ := List.getElem?_eq_some_iff.mp there
  rw [propertyOffset table inside, table.absent i there]
  rfl

/-- A property that is there lies at its distance from the start of the table. -/
theorem propertyOffset_present
    (table : TableAt (Image.ofFile file) d vtable length entry properties) {i : ℕ}
    {property : Property} (there : properties[i]? = some (some property)) :
    ∃ propOffset : ℤ, (FlatBuffersReader.mk file).propertyOffset (file.length - d) i =
      .ok propOffset ∧ propOffset ≠ 0 ∧ ∃ d' : ℕ, property.Holds (Image.ofFile file) d' ∧
      (file.length : ℤ) - d + propOffset = file.length - d' := by
  obtain ⟨inside, _⟩ := List.getElem?_eq_some_iff.mp there
  obtain ⟨positive, within, _, holds⟩ := table.present i property there
  refine ⟨entry i, propertyOffset table inside, by omega, d - entry i, holds, by omega⟩

theorem get_absent {T : Type} [Scalar T] (defaultValue : T)
    (table : TableAt (Image.ofFile file) d vtable length entry properties) {i : ℕ}
    (there : properties[i]? = some none) :
    (FlatBuffersReader.mk file).get (file.length - d) i defaultValue = .ok defaultValue := by
  rw [FlatBuffersReader.get, propertyOffset_absent table there]
  rfl

theorem get_inline {T : Type} [Scalar T] (defaultValue : T) {value : T}
    (table : TableAt (Image.ofFile file) d vtable length entry properties) {i : ℕ}
    (there : properties[i]? = some (some (.inline (Scalar.store value)))) :
    (FlatBuffersReader.mk file).get (file.length - d) i defaultValue = .ok value := by
  obtain ⟨propOffset, found, nonzero, d', holds, place⟩ := propertyOffset_present table there
  simp only [FlatBuffersReader.get, found, bind, Except.bind, if_neg nonzero, place,
    scalar holds]
  rfl

theorem getOptional_absent (T : Type) [Scalar T]
    (table : TableAt (Image.ofFile file) d vtable length entry properties) {i : ℕ}
    (there : properties[i]? = some none) :
    (FlatBuffersReader.mk file).getOptional T (file.length - d) i = .ok none := by
  rw [FlatBuffersReader.getOptional, propertyOffset_absent table there]
  rfl

theorem getOptional_inline {T : Type} [Scalar T] {value : T}
    (table : TableAt (Image.ofFile file) d vtable length entry properties) {i : ℕ}
    (there : properties[i]? = some (some (.inline (Scalar.store value)))) :
    (FlatBuffersReader.mk file).getOptional T (file.length - d) i = .ok (some value) := by
  obtain ⟨propOffset, found, nonzero, d', holds, place⟩ := propertyOffset_present table there
  simp only [FlatBuffersReader.getOptional, found, bind, Except.bind, if_neg nonzero, place,
    scalar holds]
  rfl

theorem offset_absent
    (table : TableAt (Image.ofFile file) d vtable length entry properties) {i : ℕ}
    (there : properties[i]? = some none) :
    (FlatBuffersReader.mk file).offset (file.length - d) i = .ok none := by
  rw [FlatBuffersReader.offset, propertyOffset_absent table there]
  rfl

variable (small : file.length < 2 ^ 31)
include small

theorem offset_null
    (table : TableAt (Image.ofFile file) d vtable length entry properties) {i : ℕ}
    (there : properties[i]? = some (some (.reference none))) :
    (FlatBuffersReader.mk file).offset (file.length - d) i = .ok none := by
  obtain ⟨propOffset, found, nonzero, d', holds, place⟩ := propertyOffset_present table there
  have zero : (FlatBuffersReader.mk file).scalar Int32 (file.length - d') = .ok 0 := word holds
  have inside : d' ≤ file.length := holds.placed.stored.le_length
  simp only [FlatBuffersReader.offset, found, bind, Except.bind, if_neg nonzero, place, zero,
    Int32.toInt_zero, add_zero, offsetSum_of_mem (by omega : 0 ≤ (file.length : ℤ) - d')
    (by omega : (file.length : ℤ) - d' < 2 ^ 31), if_true]
  rfl

theorem offset_reference {target : ℕ}
    (table : TableAt (Image.ofFile file) d vtable length entry properties) {i : ℕ}
    (there : properties[i]? = some (some (.reference (some target)))) :
    (FlatBuffersReader.mk file).offset (file.length - d) i =
      .ok (some (file.length - target)) := by
  obtain ⟨propOffset, found, nonzero, d', holds, place⟩ := propertyOffset_present table there
  have inside : d' ≤ file.length := holds.word.placed.stored.le_length
  have earlier := holds.earlier
  have sum : (file.length : ℤ) - d' + (d' - target) = file.length - target := by omega
  have nonnull : Int32.ofInt (d' - target) ≠ 0 := by
    intro null
    have same := holds.word.toInt
    rw [null, Int32.toInt_zero] at same
    omega
  simp only [FlatBuffersReader.offset, found, bind, Except.bind, if_neg nonzero, place,
    word holds.word, holds.word.toInt, sum,
    offsetSum_of_mem (by omega : 0 ≤ (file.length : ℤ) - d')
    (by omega : (file.length : ℤ) - d' < 2 ^ 31),
    offsetSum_of_mem (by omega : 0 ≤ (file.length : ℤ) - target)
    (by omega : (file.length : ℤ) - target < 2 ^ 31), if_neg nonnull]
  rfl

end Table

section Nodes
variable {κ : Type}

theorem vectorElementCount {targets : List ℕ}
    (holds : (Node.vector targets : Node κ).Holds (Image.ofFile file) d) :
    (FlatBuffersReader.mk file).vectorElementCount (some (file.length - d)) =
      .ok targets.length := by
  simp only [FlatBuffersReader.vectorElementCount, word holds.1, bind, Except.bind, holds.1.toInt]
  rfl

theorem vectorElementOffset (small : file.length < 2 ^ 31) {targets : List ℕ}
    (holds : (Node.vector targets : Node κ).Holds (Image.ofFile file) d) {i target : ℕ}
    (there : targets[i]? = some target) :
    (FlatBuffersReader.mk file).vectorElementOffset (some (file.length - d)) i =
      .ok (some (file.length - target)) := by
  have reference := holds.2 i target there
  obtain ⟨below, _⟩ := List.getElem?_eq_some_iff.mp there
  have inside : d - 4 - 4 * i ≤ file.length := reference.word.placed.stored.le_length
  have room := reference.word.four_le
  have earlier := reference.earlier
  have place : (file.length : ℤ) - d + 4 + i * 4 = file.length - (d - 4 - 4 * i : ℕ) := by omega
  have sum : ((d - 4 - 4 * i : ℕ) - target : ℤ) + (file.length - (d - 4 - 4 * i : ℕ)) =
      file.length - target := by omega
  have nonnull : Int32.ofInt ((d - 4 - 4 * i : ℕ) - target) ≠ 0 := by
    intro null
    have same := reference.word.toInt
    rw [null, Int32.toInt_zero] at same
    omega
  simp only [FlatBuffersReader.vectorElementOffset, vectorElementCount holds, bind, Except.bind,
    if_pos (Int.ofNat_lt.mpr below), place, word reference.word, if_neg nonnull,
    reference.word.toInt, sum,
    offsetSum_of_mem (by omega : 0 ≤ (file.length : ℤ) - (d - 4 - 4 * i : ℕ))
    (by omega : (file.length : ℤ) - (d - 4 - 4 * i : ℕ) < 2 ^ 31),
    offsetSum_of_mem (by omega : 0 ≤ (file.length : ℤ) - target)
    (by omega : (file.length : ℤ) - target < 2 ^ 31)]
  rfl

theorem stringBuffer {characters : List UInt8}
    (holds : (Node.string characters : Node κ).Holds (Image.ofFile file) d) :
    (FlatBuffersReader.mk file).stringBuffer (some (file.length - d)) = .ok (some characters) := by
  have inside : d - 4 ≤ file.length := holds.2.le_length
  have room := holds.2.length_le
  have four := holds.1.four_le
  have held : d ≤ file.length := holds.1.placed.stored.le_length
  have place : (file.length : ℤ) - d + 4 = file.length - (d - 4 : ℕ) := by omega
  have bounds : ¬ (file.length : ℤ) - (d - 4 : ℕ) + characters.length > file.length := by omega
  have natural : ¬ (characters.length : ℤ) < 0 := by omega
  have read : (FlatBuffersReader.mk file).memory (file.length - (d - 4 : ℕ)) characters.length =
      .ok characters := memory holds.2
  simp only [FlatBuffersReader.stringBuffer, word holds.1, bind, Except.bind, holds.1.toInt, place,
    FlatBuffersReader.bytes, if_neg bounds, if_neg natural, Int.toNat_natCast, read]
  rfl

/-- The root is found through the first word of the file. -/
theorem rootObjectOffset {root : ℕ} (holds : (Image.ofFile file).Word file.length (file.length - root)) :
    (FlatBuffersReader.mk file).rootObjectOffset = .ok (some (file.length - root)) := by
  have first := word holds
  rw [Int.sub_self] at first
  simp only [FlatBuffersReader.rootObjectOffset, first, bind, Except.bind, holds.toInt]
  rfl

end Nodes
end Reading
end Arthius.Guarantees
