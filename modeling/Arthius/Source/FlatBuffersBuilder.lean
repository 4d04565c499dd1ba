import Arthius.Lib.Alignment
import Arthius.Source.FlatBuffersScalars

/-!
# The builder of the binary format

`FlatBuffersBuilder.swift`. The builder writes towards the front: its bytes are
`_data[leftCursor ..< capacity]`, so `cursor` is their number, and an `Offset` is
a distance from the end. Moving the cursor without writing takes over whatever
the memory holds there; these bytes come from an arbitrary `garbage` stream.
Reallocation keeps the bytes and is not part of the state: the initial capacity is a
power of two, from which its loop ends (`reserve_returns`) and leaves every value that
is stored aligned. Left out are `update(offset:atCursor:)` and the deferred bindings,
which nothing calls. An `Offset` is an integer, and each conversion to `Int32` or
`Int16` checks its range. Counts, sizes and property
indices are natural numbers. `ι` are the object identifiers of the table cache;
`canonical` maps a string to the form under which `String.==` compares it.
-/
namespace Arthius.Source.FlatBuffers
open Arthius.Lib

abbrev Offset := ℤ

/-- The options. With an initial capacity of zero or less nothing could be written
(`reserve_zero`), and with one that is no power of two, misaligned. -/
structure FlatBuffersBuilderOptions where
  initialCapacity : ℕ := 1
  powerOfTwo : initialCapacity.isPowerOfTwo := by exact Nat.isPowerOfTwo_one
  uniqueStrings : Bool := true
  uniqueTables : Bool := true
  uniqueVTables : Bool := true
  forceDefaults : Bool := false
  nullTerminatedUTF8 : Bool := false
  deriving DecidableEq, Repr

/-- The loop of `reserveAdditionalCapacity`: the capacity is doubled until more than
the size is left. -/
def reserve (cursor size : ℕ) : (fuel capacity : ℕ) → Option ℕ
  | 0, _ => none
  | fuel + 1, capacity =>
    if capacity ≤ cursor + size then reserve cursor size fuel (2 * capacity) else some capacity

/-- From a power of two the loop ends at a power of two, with room enough and never with
more than twice of what it has to hold or of what there was. -/
theorem reserve_returns (cursor size : ℕ) {capacity : ℕ} (power : capacity.isPowerOfTwo) :
    ∃ fuel enough, reserve cursor size fuel capacity = some enough ∧ enough.isPowerOfTwo ∧
      cursor + size < enough ∧ enough ≤ max capacity (2 * (cursor + size)) := by
  by_cases full : capacity ≤ cursor + size
  · have positive := Nat.pos_of_isPowerOfTwo power
    have doubled : (2 * capacity).isPowerOfTwo := by
      rw [Nat.mul_comm]
      exact Nat.isPowerOfTwo_mul_two_of_isPowerOfTwo power
    obtain ⟨fuel, enough, ends, reached, room, bound⟩ := reserve_returns cursor size doubled
    exact ⟨fuel + 1, enough, by rw [reserve, if_pos full, ends], reached, room, by omega⟩
  · exact ⟨1, capacity, if_neg full, power, by omega, le_max_left _ _⟩
termination_by cursor + size + 1 - capacity

/-- From an empty one it never ends. -/
theorem reserve_zero (cursor size fuel : ℕ) : reserve cursor size fuel 0 = none := by
  induction fuel with
  | zero => rfl
  | succ fuel ih => rw [reserve, if_pos (Nat.zero_le _), ih]

inductive FlatBuffersBuildError where
  | objectIsNotClosed | noOpenObject | propertyIndexIsInvalid | offsetIsTooBig | cursorIsInvalid
  | badFileIdentifier | unsupportedType
  deriving DecidableEq, Repr

/-- An error thrown, or a trap: a number out of range, or a byte outside the buffer. -/
inductive Failure where
  | thrown (error : FlatBuffersBuildError)
  | trap
  deriving DecidableEq, Repr

structure FlatBuffersBuilder (ι : Type) where
  options : FlatBuffersBuilderOptions
  data : List UInt8 := []
  garbage : ℕ → UInt8
  minalign : ℕ := 1
  currentVTable : List ℤ := []
  objectStart : ℤ := -1
  vectorNumElems : ℤ := -1
  vTableOffsets : List ℤ := []
  cache : List (ι × Offset) := []
  stringCache : List (String × Offset) := []

namespace FlatBuffersBuilder
variable {ι : Type}

def cursor (b : FlatBuffersBuilder ι) : ℕ := b.data.length

/-- `cursor += n`, with the bytes found there. -/
def advance (b : FlatBuffersBuilder ι) (n : ℕ) : FlatBuffersBuilder ι :=
  { b with data := (List.range n).map b.garbage ++ b.data
           garbage := fun i => b.garbage (n + i) }

def push (b : FlatBuffersBuilder ι) (bytes : List UInt8) : FlatBuffersBuilder ι :=
  { b with data := bytes ++ b.data }

end FlatBuffersBuilder

abbrev Build (ι : Type) := EStateM Failure (FlatBuffersBuilder ι)

section Builder
variable {ι : Type}

/-- `Int32(_:)` -/
def int32 (z : ℤ) : Build ι ℤ := if -2 ^ 31 ≤ z ∧ z < 2 ^ 31 then pure z else throw .trap

/-- `Int16(_:)` -/
def int16 (z : ℤ) : Build ι ℤ := if -2 ^ 15 ≤ z ∧ z < 2 ^ 15 then pure z else throw .trap

def align (size additionalBytes : ℕ) : Build ι Unit :=
  modify fun b =>
    { b with minalign := if size > b.minalign then size else b.minalign }.advance
      (alignSize (b.cursor + additionalBytes) size)

/-- The alignment of a scalar of stride `c`, which comes next. -/
def alignStride (c : ℕ) : Build ι Unit := if c > 8 then align 8 c else align c 0

/-- `insert(value:)`, of a scalar. -/
def insert {T : Type} [Scalar T] (value : T) : Build ι Unit := do
  alignStride (Scalar.stride T)
  modify fun b => b.push (Scalar.store value)

/-- `insert(offset:)` -/
def insertOffset (offset : Option Offset) : Build ι Unit := do
  match offset with
  | none => insert (0 : Int32)
  | some offset =>
    let cursor ← int32 (← get).cursor
    if offset ≤ cursor then
      if offset = 0 then insert (0 : Int32)
      else
        align 4 0
        let cursor ← int32 (← get).cursor
        let value ← int32 (cursor - offset + 4)
        insert (Int32.ofInt value)
    else throw (.thrown .offsetIsTooBig)

/-- `update(value:at:)`, of a byte row counted from the left cursor. -/
def update {T : Type} [Scalar T] (value : T) (index : ℕ) : Build ι Unit :=
  modify fun b =>
    { b with data := b.data.take index ++ Scalar.store value ++ b.data.drop (index + Scalar.stride T) }

def startObject (withPropertyCount : ℕ) : Build ι Unit := do
  let b ← get
  if b.objectStart = -1 ∧ b.vectorNumElems = -1 then
    set { b with currentVTable := List.replicate withPropertyCount 0 }
    let start ← int32 b.cursor
    modify fun b => { b with objectStart := start }
  else throw (.thrown .objectIsNotClosed)

/-- `currentVTable[propertyIndex] = Int32(cursor)` -/
def setProperty (propertyIndex : ℕ) : Build ι Unit := do
  let cursor ← int32 (← get).cursor
  modify fun b => { b with currentVTable := b.currentVTable.set propertyIndex cursor }

/-- The guards of the three ways to write a property, and the writing. -/
def toStartedObject (propertyIndex : ℕ) (write : Build ι Unit) : Build ι Unit := do
  let b ← get
  if b.objectStart > -1 then
    if propertyIndex < b.currentVTable.length then write
    else throw (.thrown .propertyIndexIsInvalid)
  else throw (.thrown .noOpenObject)

/-- `insert(offset:toStartedObjectAt:)` -/
def insertOffsetAt (offset : Offset) (propertyIndex : ℕ) : Build ι Unit :=
  toStartedObject propertyIndex do
    insertOffset (some offset)
    setProperty propertyIndex

/-- `insert(value:defaultValue:toStartedObjectAt:)` -/
def insertAt {T : Type} [Scalar T] (value defaultValue : T) (propertyIndex : ℕ) : Build ι Unit :=
  toStartedObject propertyIndex do
    let b ← get
    if b.options.forceDefaults = false ∧ Scalar.equal value defaultValue = true then pure ()
    else
      insert value
      setProperty propertyIndex

def insertCurrentOffsetAsProperty (propertyIndex : ℕ) : Build ι Unit :=
  toStartedObject propertyIndex (setProperty propertyIndex)

/-- The byte at an index from the left cursor; outside the used bytes it is a trap. -/
def byteAt (index : ℤ) : Build ι UInt8 := do
  let b ← get
  if 0 ≤ index then
    match b.data[index.toNat]? with
    | some byte => pure byte
    | none => throw .trap
  else throw .trap

/-- The byte comparison of the search for a vtable, up to the first difference. -/
def sameBytes (start : ℤ) : List ℕ → Build ι Bool
  | [] => pure true
  | i :: rest => do
    let a ← byteAt i
    let b ← byteAt (i + start)
    if a ≠ b then pure false else sameBytes start rest

/-- The first of the earlier vtables that equals the one just written. -/
def findVTable (vtableDataLength : ℕ) : List ℤ → Build ι (Option ℤ)
  | [] => pure none
  | otherVTableOffset :: rest => do
    let start := ((← get).cursor : ℤ) - otherVTableOffset
    let found ← sameBytes start (List.range vtableDataLength)
    if found then pure (some otherVTableOffset) else findVTable vtableDataLength rest

/-- The entry of a property, relative to the start of the table. -/
def relativeEntry (vtableloc : ℕ) (entry : ℤ) : Build ι ℤ :=
  if entry ≠ 0 then do
    let location ← int32 vtableloc
    int16 (location - entry)
  else pure 0

def insertEntry (vtableloc : ℕ) (entry : ℤ) : Build ι Unit := do
  let off ← relativeEntry vtableloc entry
  insert (Int16.ofInt off)

/-- The vtable of the open object, in front of the bytes of the table. -/
def insertVTable (vtableloc : ℕ) : Build ι Unit := do
  let b ← get
  b.currentVTable.reverse.forM (insertEntry vtableloc)
  let location ← int32 vtableloc
  let objectLength ← int16 (location - b.objectStart)
  insert (Int16.ofInt objectLength)
  let vtableLength ← int16 ((b.currentVTable.length + 2) * 2)
  insert (Int16.ofInt vtableLength)

/-- Drops the vtable just written if it is there already. Returns what becomes
the offset from the table to its vtable. -/
def shareVTable (vtableloc : ℕ) : Build ι ℤ := do
  let b ← get
  let vtableDataLength := b.cursor - vtableloc
  if b.options.uniqueVTables then
    match ← findVTable vtableDataLength b.vTableOffsets with
    | some otherVTableOffset =>
      modify fun b => { b with data := b.data.drop vtableDataLength }
      pure (otherVTableOffset - vtableloc)
    | none =>
      let cursor ← int32 b.cursor
      modify fun b => { b with vTableOffsets := b.vTableOffsets ++ [cursor] }
      pure vtableDataLength
  else pure vtableDataLength

def endObject : Build ι Offset := do
  let b ← get
  if b.objectStart > -1 then
    align 4 0
    modify (FlatBuffersBuilder.advance · 4)
    let vtableloc := (← get).cursor
    insertVTable vtableloc
    let foundVTableOffset ← shareVTable vtableloc
    let indexLocation := (← get).cursor - vtableloc
    let relative ← int32 foundVTableOffset
    update (Int32.ofInt relative) indexLocation
    modify fun b => { b with objectStart := -1 }
    int32 vtableloc
  else throw (.thrown .noOpenObject)

/-- The padding comes before the guard. -/
def startVector (count elementSize : ℕ) : Build ι Unit := do
  align 4 (count * elementSize)
  let b ← get
  if b.objectStart = -1 ∧ b.vectorNumElems = -1 then
    let number ← int32 count
    modify fun b => { b with vectorNumElems := number }
  else throw (.thrown .objectIsNotClosed)

def endVector : Build ι Offset := do
  insert (Int32.ofInt (← get).vectorNumElems)
  modify fun b => { b with vectorNumElems := -1 }
  int32 (← get).cursor

def utf8 (value : String) : List UInt8 := value.toByteArray.data.toList

/-- The bytes of a string and its length, which does not count the terminator. -/
def insertUTF8 (value : String) : Build ι Unit := do
  let b ← get
  let characters := if b.options.nullTerminatedUTF8 then utf8 value ++ [0] else utf8 value
  align 4 characters.length
  characters.reverse.forM insert
  let length ← int32 (utf8 value).length
  insert (Int32.ofInt length)

/-- `stringCache[value] = o`, for unique strings. -/
def cacheString (key : String) (o : Offset) : Build ι Unit :=
  modify fun b =>
    if b.options.uniqueStrings then { b with stringCache := (key, o) :: b.stringCache } else b

/-- `insert(value: String?)` -/
def insertString (canonical : String → String) (value : Option String) : Build ι Offset := do
  let b ← get
  if b.objectStart = -1 ∧ b.vectorNumElems = -1 then
    match value with
    | none => pure 0
    | some value =>
      match if b.options.uniqueStrings then b.stringCache.lookup (canonical value) else none with
      | some o => pure o
      | none =>
        insertUTF8 value
        let o ← int32 (← get).cursor
        cacheString (canonical value) o
        pure o
  else throw (.thrown .objectIsNotClosed)

/-- The alignment of the whole, and the file identifier. -/
def insertFileIdentifier : Option String → Build ι Unit
  | some fileIdentifier => do
    align (← get).minalign 8
    if (utf8 fileIdentifier).length = 4 then (utf8 fileIdentifier).reverse.forM insert
    else throw (.thrown .badFileIdentifier)
  | none => do align (← get).minalign 4

def finish (offset : Offset) (fileIdentifier : Option String) : Build ι Unit := do
  let b ← get
  let cursor ← int32 b.cursor
  if offset ≤ cursor then
    if b.objectStart = -1 ∧ b.vectorNumElems = -1 then
      insertFileIdentifier fileIdentifier
      let cursor ← int32 ((← get).cursor + 4)
      let v ← int32 (cursor - offset)
      insert (Int32.ofInt v)
    else throw (.thrown .objectIsNotClosed)
  else throw (.thrown .offsetIsTooBig)

end Builder
end Arthius.Source.FlatBuffers
