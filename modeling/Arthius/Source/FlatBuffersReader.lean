import Arthius.Lib.LeftBuffer
import Arthius.Source.FlatBuffersBuilder

/-!
# The reader of the binary format

The protocol extension of `FlatBuffersReader.swift`, over `FlatBuffersMemoryReader`:
the bytes of the file. An address that a check finds outside of them is an error,
which the functions that the tables call turn into a missing value. An `Int32` sum
or an `Int16` position out of range and a string of negative length trap. Reading
memory outside the buffer without an error is a failure of its own, which nothing
catches. A misaligned load returns what is there: only a debug build refuses it.
-/
namespace Arthius.Source.FlatBuffers
open Arthius.Lib

inductive ReadFailure where
  | outOfBufferBounds | trap | outsideRead
  deriving DecidableEq, Repr

structure FlatBuffersReader where
  data : List UInt8

/-- A `do` block whose `catch` returns a default. -/
def caught {α : Type} (default : α) : Except ReadFailure α → Except ReadFailure α
  | .error .outOfBufferBounds => .ok default
  | other => other

/-- A sum of type `Int32`. -/
def offsetSum (z : ℤ) : Except ReadFailure ℤ :=
  if -2 ^ 31 ≤ z ∧ z < 2 ^ 31 then .ok z else .error .trap

/-- The operator `§`, which refuses bytes that are not UTF-8. -/
def decoded (value : List UInt8) : Option String := String.fromUTF8? ⟨value.toArray⟩

namespace FlatBuffersReader
variable (reader : FlatBuffersReader)

/-- The bytes at an address, wherever it is. -/
def memory (offset : ℤ) (length : ℕ) : Except ReadFailure (List UInt8) :=
  if 0 ≤ offset ∧ offset + length ≤ reader.data.length then
    .ok (slice reader.data offset.toNat length)
  else .error .outsideRead

def scalar (T : Type) [Scalar T] (offset : ℤ) : Except ReadFailure T :=
  if offset + Scalar.stride T > reader.data.length ∨ offset < 0 then .error .outOfBufferBounds
  else do
    let bytes ← reader.memory offset (Scalar.stride T)
    .ok (Scalar.load bytes)

/-- Only the upper end is checked. -/
def bytes (offset length : ℤ) : Except ReadFailure (List UInt8) :=
  if offset + length > reader.data.length then .error .outOfBufferBounds
  else if length < 0 then .error .trap
  else reader.memory offset length.toNat

def propertyOffset (objectOffset : Offset) (propertyIndex : ℕ) : Except ReadFailure ℤ :=
  caught 0 do
    let localOffset ← reader.scalar Int32 objectOffset
    let vTableOffset := objectOffset - localOffset.toInt
    let vTableLength ← reader.scalar Int16 vTableOffset
    let objectLength ← reader.scalar Int16 (vTableOffset + 2)
    let positionInVTable := 4 + propertyIndex * 2
    if positionInVTable ≥ 2 ^ 15 then .error .trap
    else if vTableLength.toInt ≤ positionInVTable then .ok 0
    else
      let propOffset ← reader.scalar Int16 (vTableOffset + positionInVTable)
      if objectLength.toInt ≤ propOffset.toInt then .ok 0 else .ok propOffset.toInt

/-- `offset(objectOffset:propertyIndex:)` -/
def offset (objectOffset : Offset) (propertyIndex : ℕ) : Except ReadFailure (Option Offset) := do
  let propOffset ← reader.propertyOffset objectOffset propertyIndex
  if propOffset = 0 then .ok none
  else
    let position := objectOffset + propOffset
    caught none do
      let localObjectOffset ← reader.scalar Int32 position
      let start ← offsetSum position
      let offset ← offsetSum (start + localObjectOffset.toInt)
      if localObjectOffset = 0 then .ok none else .ok (some offset)

def vectorElementCount (vectorOffset : Option Offset) : Except ReadFailure ℤ :=
  match vectorOffset with
  | none => .ok 0
  | some vectorPosition => caught 0 do
    let length ← reader.scalar Int32 vectorPosition
    .ok length.toInt

def vectorElementOffset (vectorOffset : Option Offset) (index : ℕ) :
    Except ReadFailure (Option Offset) :=
  match vectorOffset with
  | none => .ok none
  | some vectorPosition => do
    let count ← reader.vectorElementCount vectorOffset
    if index < count then
      let valueStartPosition := vectorPosition + 4 + index * 4
      caught none do
        let localOffset ← reader.scalar Int32 valueStartPosition
        if localOffset = 0 then .ok none
        else
          let start ← offsetSum valueStartPosition
          let offset ← offsetSum (localOffset.toInt + start)
          .ok (some offset)
    else .ok none

/-- `get(objectOffset:propertyIndex:)` -/
def getOptional (T : Type) [Scalar T] (objectOffset : Offset) (propertyIndex : ℕ) :
    Except ReadFailure (Option T) := do
  let propOffset ← reader.propertyOffset objectOffset propertyIndex
  if propOffset = 0 then .ok none
  else caught none do
    let value ← reader.scalar T (objectOffset + propOffset)
    .ok (some value)

/-- `get(objectOffset:propertyIndex:defaultValue:)` -/
def get {T : Type} [Scalar T] (objectOffset : Offset) (propertyIndex : ℕ) (defaultValue : T) :
    Except ReadFailure T := do
  let propOffset ← reader.propertyOffset objectOffset propertyIndex
  if propOffset = 0 then .ok defaultValue
  else caught defaultValue (reader.scalar T (objectOffset + propOffset))

def stringBuffer (stringOffset : Option Offset) : Except ReadFailure (Option (List UInt8)) :=
  match stringOffset with
  | none => .ok none
  | some stringPosition => caught none do
    let stringLength ← reader.scalar Int32 stringPosition
    let characters ← reader.bytes (stringPosition + 4) stringLength.toInt
    .ok (some characters)

def rootObjectOffset : Except ReadFailure (Option Offset) :=
  caught none do
    let offset ← reader.scalar Int32 0
    .ok (some offset.toInt)

end FlatBuffersReader
end Arthius.Source.FlatBuffers
