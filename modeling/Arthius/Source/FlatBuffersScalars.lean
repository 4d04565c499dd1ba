import Arthius.Lib.LittleEndian
import Mathlib.Data.List.Basic

/-!
# Scalars of the binary format

The `Scalar` protocol of `FlatBuffersBuilder.swift` with what the builder and the
reader use of a type that conforms to it: its stride, its bytes on a
little-endian machine and its `==`. A `Float32` is its bit pattern; `==` on it is
the IEEE comparison, under which the two zeros are equal and a NaN equals
nothing. The structs of `LevelFB2.swift` are rows of such patterns. The integers
are those of the fixed widths that the level and progress tables use.
-/
namespace Arthius.Source.FlatBuffers
open Arthius.Lib

class Scalar (T : Type) where
  stride : ℕ
  store : T → List UInt8
  load : List UInt8 → T
  equal : T → T → Bool
  stride_mem : stride ∈ [1, 2, 4, 8, 16]
  length_store : ∀ value, (store value).length = stride
  load_store : ∀ value, load (store value) = value

attribute [simp] Scalar.length_store Scalar.load_store

instance : Scalar UInt8 where
  stride := 1
  store value := [value]
  load bytes := bytes.headD 0
  equal a b := a == b
  stride_mem := by decide
  length_store _ := rfl
  load_store _ := rfl

/-- A byte that is neither 0 nor 1 is no `Bool`. -/
instance : Scalar Bool where
  stride := 1
  store value := [if value then 1 else 0]
  load bytes := bytes.headD 0 == 1
  equal a b := a == b
  stride_mem := by decide
  length_store _ := rfl
  load_store value := by cases value <;> rfl

instance : Scalar Int8 where
  stride := 1
  store value := LittleEndian.bytes 1 value.toInt
  load bytes := Int8.ofInt (LittleEndian.signed bytes)
  equal a b := a == b
  stride_mem := by decide
  length_store _ := LittleEndian.length_bytes _ _
  load_store value := by
    have low := value.le_toInt
    have high := value.toInt_lt
    rw [LittleEndian.signed_bytes (by omega) (by omega), Int8.ofInt_toInt]

instance : Scalar Int16 where
  stride := 2
  store value := LittleEndian.bytes 2 value.toInt
  load bytes := Int16.ofInt (LittleEndian.signed bytes)
  equal a b := a == b
  stride_mem := by decide
  length_store _ := LittleEndian.length_bytes _ _
  load_store value := by
    have low := value.le_toInt
    have high := value.toInt_lt
    rw [LittleEndian.signed_bytes (by omega) (by omega), Int16.ofInt_toInt]

instance : Scalar Int32 where
  stride := 4
  store value := LittleEndian.bytes 4 value.toInt
  load bytes := Int32.ofInt (LittleEndian.signed bytes)
  equal a b := a == b
  stride_mem := by decide
  length_store _ := LittleEndian.length_bytes _ _
  load_store value := by
    have low := value.le_toInt
    have high := value.toInt_lt
    rw [LittleEndian.signed_bytes (by omega) (by omega), Int32.ofInt_toInt]

/-- A `Float32`, by its bit pattern. -/
@[ext] structure Single where
  bits : UInt32
  deriving DecidableEq, Repr

namespace Single

instance : OfNat Single 0 := ⟨⟨0⟩⟩

def magnitude (x : Single) : UInt32 := x.bits &&& 0x7fffffff

def isNaN (x : Single) : Bool := x.magnitude > 0x7f800000

def isZero (x : Single) : Bool := x.magnitude == 0

def equal (x y : Single) : Bool :=
  !x.isNaN && !y.isNaN && (x == y || (x.isZero && y.isZero))

def store (x : Single) : List UInt8 := LittleEndian.bytes 4 x.bits.toNat

def load (bytes : List UInt8) : Single := ⟨UInt32.ofNat (LittleEndian.unsigned bytes)⟩

theorem length_store (x : Single) : x.store.length = 4 := LittleEndian.length_bytes _ _

theorem load_store (x : Single) : load x.store = x := by
  have small := x.bits.toNat_lt
  have read := LittleEndian.unsigned_bytes 4 x.bits.toNat
  have same : LittleEndian.unsigned (LittleEndian.bytes 4 x.bits.toNat) = x.bits.toNat := by omega
  rw [load, store, same, UInt32.ofNat_toNat]

/-- A struct of `Float32`s in memory, and one of its components. -/
def row (xs : List Single) : List UInt8 := xs.flatMap store
def component (bytes : List UInt8) (index : ℕ) : Single := load ((bytes.drop (4 * index)).take 4)

theorem length_row (xs : List Single) : (row xs).length = 4 * xs.length := by
  induction xs with
  | nil => rfl
  | cons x xs ih =>
    rw [row, List.flatMap_cons, List.length_append, ← row, ih, length_store, List.length_cons]
    omega

theorem component_zero (x : Single) (xs : List Single) : component (row (x :: xs)) 0 = x := by
  rw [component, row, List.flatMap_cons, Nat.mul_zero, List.drop_zero,
    List.take_left' x.length_store, load_store]

theorem component_succ (x : Single) (xs : List Single) (index : ℕ) :
    component (row (x :: xs)) (index + 1) = component (row xs) index := by
  rw [component, component, row, List.flatMap_cons, ← row, Nat.mul_succ, Nat.add_comm,
    ← List.drop_drop, List.drop_left' x.length_store]

end Single

instance : Scalar Single where
  stride := 4
  store := Single.store
  load := Single.load
  equal := Single.equal
  stride_mem := by decide
  length_store := Single.length_store
  load_store := Single.load_store

@[ext] structure Color where
  r : Single
  g : Single
  b : Single
  a : Single
  deriving DecidableEq, Repr

@[ext] structure Point where
  x : Single
  y : Single
  deriving DecidableEq, Repr

@[ext] structure Vector where
  dx : Single
  dy : Single
  deriving DecidableEq, Repr

@[ext] structure Rect where
  x : Single
  y : Single
  width : Single
  height : Single
  deriving DecidableEq, Repr

instance : Scalar Color where
  stride := 16
  store c := Single.row [c.r, c.g, c.b, c.a]
  load bytes := ⟨Single.component bytes 0, Single.component bytes 1, Single.component bytes 2,
    Single.component bytes 3⟩
  equal c d := c.r.equal d.r && c.g.equal d.g && c.b.equal d.b && c.a.equal d.a
  stride_mem := by decide
  length_store _ := Single.length_row _
  load_store c := by simp only [Single.component_zero, Single.component_succ]

instance : Scalar Point where
  stride := 8
  store p := Single.row [p.x, p.y]
  load bytes := ⟨Single.component bytes 0, Single.component bytes 1⟩
  equal p q := p.x.equal q.x && p.y.equal q.y
  stride_mem := by decide
  length_store _ := Single.length_row _
  load_store p := by simp only [Single.component_zero, Single.component_succ]

instance : Scalar Vector where
  stride := 8
  store v := Single.row [v.dx, v.dy]
  load bytes := ⟨Single.component bytes 0, Single.component bytes 1⟩
  equal v w := v.dx.equal w.dx && v.dy.equal w.dy
  stride_mem := by decide
  length_store _ := Single.length_row _
  load_store v := by simp only [Single.component_zero, Single.component_succ]

instance : Scalar Rect where
  stride := 16
  store r := Single.row [r.x, r.y, r.width, r.height]
  load bytes := ⟨Single.component bytes 0, Single.component bytes 1, Single.component bytes 2,
    Single.component bytes 3⟩
  equal r q := r.x.equal q.x && r.y.equal q.y && r.width.equal q.width && r.height.equal q.height
  stride_mem := by decide
  length_store _ := Single.length_row _
  load_store r := by simp only [Single.component_zero, Single.component_succ]

end Arthius.Source.FlatBuffers
