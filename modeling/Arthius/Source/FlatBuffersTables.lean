import Arthius.Source.FlatBuffersReader

/-!
# What the generated table classes share

Every class of `LevelFB2.swift` and `ProgressFB.swift` has an `addToByteArray`, which
writes the objects it refers to and then its own properties from the last to the
first, and a `create`, which reads them back. Each is one of the functions
below at the properties of the class. An object is identified by its class and
a number. `ω` are the objects of the reader's pool.
-/
namespace Arthius.Source.FlatBuffers

structure ObjectIdentifier (κ : Type) where
  kind : κ
  number : ℕ
  deriving DecidableEq

section Writer
variable {ι : Type} [DecidableEq ι]

/-- `builder.cache[ObjectIdentifier(self)] = myOffset`, for unique tables. -/
def cacheTable (self : ι) (myOffset : Offset) : Build ι Unit :=
  modify fun b =>
    if b.options.uniqueTables then { b with cache := (self, myOffset) :: b.cache } else b

/-- The cache of `addToByteArray`, around its body. -/
def cached (self : ι) (body : Build ι Offset) : Build ι Offset := do
  let b ← get
  match if b.options.uniqueTables then b.cache.lookup self else none with
  | some myOffset => pure myOffset
  | none =>
    let myOffset ← body
    cacheTable self myOffset
    pure myOffset

/-- What `addToByteArray` does about one property. -/
inductive Slot where
  | value {T : Type} [Scalar T] (value defaultValue : T)
  | inline {T : Type} [Scalar T] (value : T)
  | offset (offset : Offset)
  | skip

namespace Slot

/-- A struct, if there is one. -/
def optional {T : Type} [Scalar T] : Option T → Slot
  | some v => inline v
  | none => skip

/-- An object written before, if there is one. -/
def object {α : Type} (object : Option α) (written : Offset) : Slot :=
  if object.isSome then offset written else skip

/-- A vector written before, if it has elements. -/
def vector {α : Type} (elements : List α) (written : Offset) : Slot :=
  if elements.length > 0 then offset written else skip

def write (propertyIndex : ℕ) : Slot → Build ι Unit
  | value v defaultValue => insertAt v defaultValue propertyIndex
  | inline v => do
    insert v
    insertCurrentOffsetAsProperty propertyIndex
  | offset written => insertOffsetAt written propertyIndex
  | skip => pure ()

end Slot

def writeTable (propertyCount : ℕ) (slots : List (ℕ × Slot)) : Build ι Offset := do
  startObject propertyCount
  slots.forM fun (propertyIndex, slot) => slot.write propertyIndex
  endObject

/-- `try object?.addToByteArray(builder) ?? 0` -/
def insertObject {α : Type} (addToByteArray : α → Build ι Offset) : Option α → Build ι Offset
  | some object => addToByteArray object
  | none => pure 0

/-- The elements of a vector, from the last to the first. -/
def insertElements {α : Type} (addToByteArray : α → Build ι Offset) : List α → Build ι (List Offset)
  | [] => pure []
  | element :: rest => do
    let offsets ← insertElements addToByteArray rest
    let offset ← addToByteArray element
    pure (offset :: offsets)

/-- Their offsets, from the last to the first. -/
def insertOffsets : List Offset → Build ι Unit
  | [] => pure ()
  | offset :: rest => do
    insertOffsets rest
    insertOffset (some offset)

def insertVector {α : Type} (addToByteArray : α → Build ι Offset) (elements : List α) :
    Build ι Offset :=
  if elements.length > 0 then do
    let offsets ← insertElements addToByteArray elements
    startVector elements.length 4
    insertOffsets offsets
    endVector
  else pure 0

/-- `makeData`, of a root object. -/
def makeData (options : FlatBuffersBuilderOptions) (garbage : ℕ → UInt8)
    (addToByteArray : Build ι Offset) : Except Failure (List UInt8) :=
  let encode : Build ι Unit := do
    let offset ← addToByteArray
    finish offset none
  match encode { options, garbage } with
  | .ok _ b => .ok b.data
  | .error failure _ => .error failure

end Writer

/-- The reader's cache, if it has one: its object pool. -/
abbrev FlatBuffersReaderCache (ω : Type) := Option (List (Offset × ω))

abbrev Read (ω : Type) := EStateM ReadFailure (FlatBuffersReaderCache ω)

section Reader
variable {ω α : Type} (reader : FlatBuffersReader)

def liftRead {β : Type} : Except ReadFailure β → Read ω β
  | .ok value => pure value
  | .error failure => throw failure

/-- `cache.objectPool[objectOffset]` -/
def pooled (objectOffset : Offset) : Read ω (Option ω) := do
  match ← get with
  | some objectPool => pure (objectPool.lookup objectOffset)
  | none => pure none

/-- `cache.objectPool[objectOffset] = object` -/
def pool (objectOffset : Offset) (object : ω) : Read ω Unit :=
  modify fun cache => cache.map fun objectPool => (objectOffset, object) :: objectPool

/-- `create`, of a class with an empty initialiser `blank`; `fill` reads the
properties. The object is pooled first and filled in place. -/
def create (inject : α → ω) (cast : ω → Option α) (blank : α) (fill : Offset → Read ω α)
    (objectOffset : Option Offset) : Read ω (Option α) := do
  match objectOffset with
  | none => pure none
  | some objectOffset =>
    match ← pooled objectOffset with
    | some o => pure (cast o)
    | none =>
      pool objectOffset (inject blank)
      let result ← fill objectOffset
      pool objectOffset (inject result)
      pure (some result)

def readElements (create : Option Offset → Read ω (Option α)) (vectorOffset : Option Offset) :
    List ℕ → Read ω (List α)
  | [] => pure []
  | index :: rest => do
    let element ← create (← liftRead (reader.vectorElementOffset vectorOffset index))
    let elements ← readElements create vectorOffset rest
    pure (element.toList ++ elements)

/-- A vector of objects; an element that cannot be read is left out. -/
def readVector (create : Option Offset → Read ω (Option α)) (objectOffset : Offset)
    (propertyIndex : ℕ) : Read ω (List α) := do
  let vectorOffset ← liftRead (reader.offset objectOffset propertyIndex)
  let length ← liftRead (reader.vectorElementCount vectorOffset)
  readElements reader create vectorOffset (List.range length.toNat)

def readObject (create : Option Offset → Read ω (Option α)) (objectOffset : Offset)
    (propertyIndex : ℕ) : Read ω (Option α) := do
  create (← liftRead (reader.offset objectOffset propertyIndex))

def readString (objectOffset : Offset) (propertyIndex : ℕ) :
    Except ReadFailure (Option String) := do
  let stringOffset ← reader.offset objectOffset propertyIndex
  let characters ← reader.stringBuffer stringOffset
  .ok (characters.bind decoded)

end Reader
end Arthius.Source.FlatBuffers
