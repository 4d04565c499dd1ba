import Arthius.Lib.LeftBuffer
import Arthius.Lib.LittleEndian

/-!
# Compression of data

`DataCompression.swift`: `perform`, which drives a stream of libcompression through one
buffer, the functions that call it, and the Adler-32 checksum around a zlib stream.
libcompression is a parameter; its algorithms bear the names of the enumeration. The
outer `none` of a result is a trap, or a loop that its fuel does not finish.
-/
namespace Arthius.Source.DataCompression
open Arthius.Lib

inductive CompressionAlgorithm where
  | zlib | lzfse | lzma | lz4
  deriving DecidableEq, Repr

inductive CompressionStreamOperation where
  | encode | decode
  deriving DecidableEq, Repr

inductive CompressionStatus where
  | ok | finished | error
  deriving DecidableEq, Repr

/-- `dst` are the bytes from the start of the buffer up to `dst_ptr`; `src` those that
`src_ptr` and `src_size` describe. -/
structure CompressionStream (State : Type) where
  state : State
  dst : List UInt8
  dstSize : ℕ
  src : List UInt8

/-- `compression_stream_init`, an error being `none`, and `compression_stream_process` with
the flag that all of the source is there. -/
structure CompressionLibrary where
  State : Type
  streamInit : CompressionStreamOperation → CompressionAlgorithm → Option State
  streamProcess : CompressionStream State → CompressionStatus × CompressionStream State

section Perform
variable (library : CompressionLibrary)

/-- The `while` loop of `perform`. -/
def performLoop (bufferSize : ℕ) :
    ℕ → CompressionStream library.State → List UInt8 → Option (Option (List UInt8))
  | 0, _, _ => none
  | fuel + 1, stream, res =>
    match library.streamProcess stream with
    | (.ok, stream) =>
      if stream.dstSize = 0 then
        performLoop bufferSize fuel { stream with dst := [], dstSize := bufferSize }
          (res ++ stream.dst)
      else some none
    | (.finished, stream) => some (some (res ++ stream.dst))
    | (.error, _) => some none

def perform (operation : CompressionStreamOperation) (algorithm : CompressionAlgorithm)
    (source : List UInt8) (fuel : ℕ) : Option (Option (List UInt8)) :=
  if operation = .encode ∨ source.length > 0 then
    match library.streamInit operation algorithm with
    | none => some none
    | some state =>
      let bufferSize := max (min source.length (64 * 1024)) 64
      performLoop library bufferSize fuel ⟨state, [], bufferSize, source⟩ []
  else some none

variable (data : List UInt8) (fuel : ℕ)

/-- `compress(withAlgorithm:)` -/
def compress (algo : CompressionAlgorithm) : Option (Option (List UInt8)) :=
  perform library .encode algo data fuel

/-- `decompress(withAlgorithm:)` -/
def decompress (algo : CompressionAlgorithm) : Option (Option (List UInt8)) :=
  perform library .decode algo data fuel

def deflate : Option (Option (List UInt8)) := perform library .encode .zlib data fuel

def inflate : Option (Option (List UInt8)) := perform library .decode .zlib data fuel

end Perform

/-- `+=` of a `UInt32`, which traps on overflow. -/
def plus (a b : UInt32) : Option UInt32 := if a.toNat + b.toNat < 2 ^ 32 then some (a + b) else none

def prime : UInt32 := 65521

/-- One byte of `adler32`. -/
def adlerStep (sums : UInt32 × UInt32) (byte : UInt8) : Option (UInt32 × UInt32) := do
  let s1 ← plus sums.1 byte.toUInt32
  let s1 := if s1 ≥ prime then s1 % prime else s1
  let s2 ← plus sums.2 s1
  let s2 := if s2 ≥ prime then s2 % prime else s2
  some (s1, s2)

def adler32 (data : List UInt8) : Option UInt32 := do
  let (s1, s2) ← data.foldlM adlerStep (1, 0)
  some (s2 <<< 16 ||| s1)

/-- The bytes of `value.bigEndian` in memory. -/
def bigEndianBytes (value : UInt32) : List UInt8 := (LittleEndian.bytes 4 value.toNat).reverse

/-- `pointee.bigEndian`, of an unsigned integer. -/
def bigEndian (bytes : List UInt8) : ℕ := LittleEndian.unsigned bytes.reverse

section Zip
variable (library : CompressionLibrary) (data : List UInt8) (fuel : ℕ)

def zip : Option (Option (List UInt8)) := do
  match ← deflate library data fuel with
  | none => some none
  | some deflated =>
    let adler ← adler32 data
    some (some ([0x78, 0x5e] ++ deflated ++ bigEndianBytes adler))

/-- The guards of `unzip` on the first two bytes. -/
def HasZlibHeader : Prop :=
  let header := bigEndian (slice data 0 2)
  header >>> 8 &&& 0b1111 = 0b1000 ∧ header % 31 = 0

instance : Decidable (HasZlibHeader data) := inferInstanceAs (Decidable (_ ∧ _))

def unzip (skipCheckSumValidation : Bool) : Option (Option (List UInt8)) :=
  let overhead := 6
  if data.length > overhead ∧ HasZlibHeader data then do
    match ← perform library .decode .zlib (slice data 2 (data.length - overhead)) fuel with
    | none => some none
    | some inflated =>
      if skipCheckSumValidation then some (some inflated)
      else do
        let cksum := bigEndian (slice data (data.length - 4) 4)
        let adler ← adler32 inflated
        some (if cksum = adler.toNat then some inflated else none)
  else some none

end Zip
end Arthius.Source.DataCompression
