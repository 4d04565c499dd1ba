import Arthius.Lib.Draining
import Arthius.Guarantees.Checksum

/-!
# Data comes back from its compression

`perform` puts together what the library writes, whatever the size of the buffer, and
has no result for a stream that breaks off. Where the library is lossless, so are
`compress` with `decompress` and `zip` with `unzip`; a zlib stream whose checksum is
not that of its data is refused, if it is asked for.
-/
namespace Arthius.Guarantees.Compression
open Arthius.Lib Arthius.Source.DataCompression Arthius.Guarantees.Checksum

/-- A stream of the library as a producer of bytes. -/
def stream (library : CompressionLibrary) : Producer (library.State × List UInt8) UInt8 :=
  fun (state, src) room =>
    match library.streamProcess ⟨state, [], room, src⟩ with
    | (.ok, next) => (.more, next.dst, (next.state, next.src))
    | (.finished, next) => (.done, next.dst, (next.state, next.src))
    | (.error, next) => (.failed, next.dst, (next.state, next.src))

/-- What a call writes and what is left of the buffer add up to the buffer. -/
def KeepsSize (library : CompressionLibrary) : Prop :=
  ∀ stream status next, library.streamProcess stream = (status, next) →
    next.dst.length + next.dstSize = stream.dst.length + stream.dstSize

/-- The library is lossless: in any pieces, compression yields some bytes, and
decompression of these yields the data. -/
structure Lossless (library : CompressionLibrary)
    (encoded : CompressionAlgorithm → List UInt8 → List UInt8) : Prop where
  keepsSize : KeepsSize library
  proper : ∀ algo data, encoded algo data ≠ []
  encodes : ∀ algo data, ∃ state, library.streamInit .encode algo = some state ∧
    Yields (stream library) true (state, data) (encoded algo data)
  decodes : ∀ algo data, ∃ state, library.streamInit .decode algo = some state ∧
    Yields (stream library) true (state, encoded algo data) data

section Perform
variable {library : CompressionLibrary}

/-- The loop drains the stream. -/
theorem performLoop_eq_drain (keeps : KeepsSize library) (bufferSize fuel : ℕ)
    (state : library.State) (src res : List UInt8) :
    performLoop library bufferSize fuel ⟨state, [], bufferSize, src⟩ res =
      drain (stream library) bufferSize fuel (state, src) res := by
  induction fuel generalizing state src res with
  | zero => rfl
  | succ fuel ih =>
    rw [performLoop, drain, stream]
    rcases result : library.streamProcess ⟨state, [], bufferSize, src⟩ with ⟨status, next⟩
    have size : next.dst.length + next.dstSize = 0 + bufferSize := keeps _ _ _ result
    cases status with
    | ok =>
      have full : next.dstSize = 0 ↔ next.dst.length = bufferSize := by omega
      simp only [full, ih]
    | finished => rfl
    | error => rfl

theorem bufferSize_pos (source : List UInt8) : 0 < max (min source.length (64 * 1024)) 64 := by
  omega

/-- What a stream yields is what `perform` returns, if the stream gets done. -/
theorem perform_eq (keeps : KeepsSize library) {operation : CompressionStreamOperation}
    {algorithm : CompressionAlgorithm} {source out : List UInt8}
    (allowed : operation = .encode ∨ source.length > 0) {state : library.State}
    (started : library.streamInit operation algorithm = some state) {whole : Bool}
    (yields : Yields (stream library) whole (state, source) out) {fuel : ℕ}
    (enough : out.length + 1 < fuel) :
    perform library operation algorithm source fuel = some (if whole then some out else none) := by
  rw [perform, if_pos allowed, started]
  have turns := Nat.div_le_self out.length (max (min source.length (64 * 1024)) 64)
  exact (performLoop_eq_drain keeps _ fuel state source []).trans
    (yields.drain (bufferSize_pos source) [] (by omega))

variable {encoded : CompressionAlgorithm → List UInt8 → List UInt8}

theorem perform_encode (lossless : Lossless library encoded) (algo : CompressionAlgorithm)
    {data : List UInt8} {fuel : ℕ} (enough : (encoded algo data).length + 1 < fuel) :
    perform library .encode algo data fuel = some (some (encoded algo data)) := by
  obtain ⟨state, started, yields⟩ := lossless.encodes algo data
  exact perform_eq lossless.keepsSize (.inl rfl) started yields enough

theorem perform_decode (lossless : Lossless library encoded) (algo : CompressionAlgorithm)
    {data : List UInt8} {fuel : ℕ} (enough : data.length + 1 < fuel) :
    perform library .decode algo (encoded algo data) fuel = some (some data) := by
  obtain ⟨state, started, yields⟩ := lossless.decodes algo data
  have proper := List.length_pos_of_ne_nil (lossless.proper algo data)
  exact perform_eq lossless.keepsSize (.inr proper) started yields enough

end Perform

section Zip
variable {library : CompressionLibrary} {encoded : CompressionAlgorithm → List UInt8 → List UInt8}

@[simp] theorem length_bigEndianBytes (value : UInt32) : (bigEndianBytes value).length = 4 := by
  simp [bigEndianBytes]

theorem bigEndian_bigEndianBytes (value : UInt32) : bigEndian (bigEndianBytes value) = value.toNat := by
  have small := value.toNat_lt
  have read := LittleEndian.unsigned_bytes 4 value.toNat
  rw [Int.emod_eq_of_lt (by omega) (by norm_num; omega)] at read
  rw [bigEndian, bigEndianBytes, List.reverse_reverse]
  exact_mod_cast read

theorem bigEndian_injective {as bs : List UInt8} (length : as.length = bs.length)
    (same : bigEndian as = bigEndian bs) : as = bs :=
  List.reverse_injective (LittleEndian.unsigned_injective (by simpa using length) same)

/-- A header, a deflated stream and a checksum of four bytes. -/
def zlibStream (deflated checksum : List UInt8) : List UInt8 := [0x78, 0x5e] ++ deflated ++ checksum

variable {checksum : List UInt8}

theorem zlibStream_parts (deflated : List UInt8) (four : checksum.length = 4) :
    slice (zlibStream deflated checksum) 0 2 = [0x78, 0x5e] ∧
    slice (zlibStream deflated checksum) 2 ((zlibStream deflated checksum).length - 6) = deflated ∧
    slice (zlibStream deflated checksum) ((zlibStream deflated checksum).length - 4) 4 = checksum := by
  have length : (zlibStream deflated checksum).length = deflated.length + 6 := by
    simp [zlibStream, four]
  refine ⟨rfl, ?_, ?_⟩
  · rw [length]
    simp [zlibStream, slice]
  · have front : ([0x78, 0x5e] ++ deflated : List UInt8).length = deflated.length + 6 - 4 := by simp
    rw [length, slice, zlibStream, List.drop_left' front, List.take_of_length_le four.le]

/-- A stream with the right header is inflated, and its checksum compared. -/
theorem unzip_zlibStream (lossless : Lossless library encoded) (data : List UInt8)
    (four : checksum.length = 4) {fuel : ℕ} (enough : data.length + 1 < fuel)
    (skipCheckSumValidation : Bool) {adler : UInt32} (sums : adler32 data = some adler) :
    unzip library (zlibStream (encoded .zlib data) checksum) fuel skipCheckSumValidation =
      some (if skipCheckSumValidation ∨ bigEndian checksum = adler.toNat then some data else none) := by
  obtain ⟨front, middle, back⟩ := zlibStream_parts (encoded .zlib data) four
  have proper := List.length_pos_of_ne_nil (lossless.proper .zlib data)
  have long : (zlibStream (encoded .zlib data) checksum).length > 6 := by
    simp only [zlibStream, List.length_append, List.length_cons, List.length_nil, four]
    omega
  have header : HasZlibHeader (zlibStream (encoded .zlib data) checksum) := by
    unfold HasZlibHeader
    rw [front]
    decide
  unfold unzip
  rw [if_pos ⟨long, header⟩, middle, perform_decode lossless .zlib enough]
  cases skipCheckSumValidation with
  | true => rfl
  | false => simp [back, sums, bind]

theorem zip_eq (lossless : Lossless library encoded) {data : List UInt8} {fuel : ℕ}
    (enough : (encoded .zlib data).length + 1 < fuel) {adler : UInt32} (sums : adler32 data = some adler) :
    zip library data fuel = some (some (zlibStream (encoded .zlib data) (bigEndianBytes adler))) := by
  simp [zip, deflate, perform_encode lossless .zlib enough, sums, bind, zlibStream]

end Zip

/-! A library that packs runs of one byte and puts a mark in front of other data. -/

/-- The length and the byte of a run. -/
def runOf : List UInt8 → Option (UInt8 × UInt8)
  | [] => none
  | byte :: rest =>
    if rest.length < 255 ∧ rest = List.replicate rest.length byte then
      some (UInt8.ofNat (rest.length + 1), byte)
    else none

def packed (data : List UInt8) : List UInt8 :=
  match runOf data with
  | some (count, byte) => [2, count, byte]
  | none => 1 :: data

/-- What packed data unpack to, and whether they are whole: under the mark 3 a run breaks off. -/
def unpacked : List UInt8 → List UInt8 × Bool
  | 1 :: src => (src, true)
  | [2, count, byte] => (List.replicate count.toNat byte, true)
  | [3, count, byte] => (List.replicate count.toNat byte, false)
  | _ => ([], false)

theorem runOf_some {data : List UInt8} {run : UInt8 × UInt8} (is : runOf data = some run) :
    List.replicate run.1.toNat run.2 = data := by
  cases data with
  | nil => cases is
  | cons byte rest =>
    rw [runOf] at is
    split_ifs at is with same
    cases is
    have count : (UInt8.ofNat (rest.length + 1)).toNat = rest.length + 1 := by
      rw [UInt8.toNat_ofNat']
      exact Nat.mod_eq_of_lt (by omega)
    rw [count, List.replicate_succ, ← same.2]

theorem unpacked_packed (data : List UInt8) : unpacked (packed data) = (data, true) := by
  unfold packed
  cases is : runOf data with
  | none => rfl
  | some run => exact congrArg (·, true) (runOf_some is)

theorem length_packed (data : List UInt8) : (packed data).length ≤ data.length + 3 := by
  unfold packed
  cases runOf data <;> simp

inductive PackingState where
  | start (operation : CompressionStreamOperation)
  | later (out : List UInt8) (whole : Bool)

/-- What is left to write, and whether the stream gets done then. -/
def leftOver : PackingState → List UInt8 → List UInt8 × Bool
  | .start .encode, src => (packed src, true)
  | .start .decode, src => unpacked src
  | .later out whole, _ => (out, whole)

def packingLibrary : CompressionLibrary where
  State := PackingState
  streamInit operation _ := some (.start operation)
  streamProcess s :=
    let left := leftOver s.state s.src
    if left.1.length ≤ s.dstSize then
      (if left.2 then .finished else .error,
        ⟨.later [] left.2, s.dst ++ left.1, s.dstSize - left.1.length, []⟩)
    else (.ok, ⟨.later (left.1.drop s.dstSize) left.2, s.dst ++ left.1.take s.dstSize, 0, []⟩)

theorem packing_keepsSize : KeepsSize packingLibrary := by
  intro s status next result
  simp only [packingLibrary] at result
  split at result <;> cases result
  · simp only [List.length_append]
    omega
  · simp only [List.length_append, List.length_take]
    omega

theorem packing_yields {state : PackingState} {src out : List UInt8} {whole : Bool}
    (left : leftOver state src = (out, whole)) : Yields (stream packingLibrary) whole (state, src) out := by
  refine ⟨fun s out => leftOver s.1 s.2 = (out, whole), left, fun s out room left _ => ?_⟩
  by_cases fits : out.length ≤ room
  · refine .inr ⟨fits, ?_⟩
    cases whole <;> simp [Ends, stream, packingLibrary, left, fits]
  · refine .inl ⟨(.later (out.drop room) whole, []), by omega, ?_, rfl⟩
    simp [stream, packingLibrary, left, fits]

theorem packing_lossless : Lossless packingLibrary fun _ => packed where
  keepsSize := packing_keepsSize
  proper _ data := by
    unfold packed
    split <;> exact List.cons_ne_nil _ _
  encodes _ _ := ⟨_, rfl, packing_yields rfl⟩
  decodes _ data := ⟨_, rfl, packing_yields (unpacked_packed data)⟩

/-- With a lossless library, whatever the size of its pieces, data of any length comes back
from its compression with the same algorithm, and there is always a result. -/
theorem decompress_compress (library : CompressionLibrary)
    (encoded : CompressionAlgorithm → List UInt8 → List UInt8) (lossless : Lossless library encoded)
    (data : List UInt8) (algo : CompressionAlgorithm) : ∃ calls, ∀ fuel ≥ calls, ∃ compressed,
      compress library data fuel algo = some (some compressed) ∧
      decompress library compressed fuel algo = some (some data) := by
  refine ⟨(encoded algo data).length + data.length + 2, fun fuel enough => ⟨encoded algo data, ?_, ?_⟩⟩
  · exact perform_encode lossless algo (by omega)
  · exact perform_decode lossless algo (by omega)

/-- A run of 200 bytes, which fills the first buffer of `decompress` and two more. -/
theorem run_decompress_compress : ∃ calls, ∀ fuel ≥ calls, ∃ compressed,
    compress packingLibrary (List.replicate 200 7) fuel .lzma = some (some compressed) ∧
    decompress packingLibrary compressed fuel .lzma = some (some (List.replicate 200 7)) :=
  decompress_compress packingLibrary _ packing_lossless (List.replicate 200 7) .lzma

/-- A stream that breaks off, with an error or with room left in the buffer, has no result:
whatever it has written before is not returned. -/
theorem perform_broken (library : CompressionLibrary) (keeps : KeepsSize library)
    (operation : CompressionStreamOperation) (algorithm : CompressionAlgorithm) (source out : List UInt8)
    (broken : ∀ state, library.streamInit operation algorithm = some state →
      Yields (stream library) false (state, source) out) :
    ∃ calls, ∀ fuel ≥ calls, perform library operation algorithm source fuel = some none := by
  refine ⟨out.length + 2, fun fuel enough => ?_⟩
  by_cases allowed : operation = .encode ∨ source.length > 0
  · cases started : library.streamInit operation algorithm with
    | none => rw [perform, if_pos allowed, started]
    | some state => exact perform_eq keeps allowed started (broken state started) (by omega)
  · rw [perform, if_neg allowed]

/-- A run that breaks off after 200 bytes, three full buffers and some of a fourth. -/
theorem run_perform_broken :
    ∃ calls, ∀ fuel ≥ calls, perform packingLibrary .decode .lzma [3, 200, 7] fuel = some none := by
  refine perform_broken packingLibrary packing_keepsSize .decode .lzma [3, 200, 7] (List.replicate 200 7) ?_
  rintro state ⟨⟩
  exact packing_yields rfl

/-- `unzip` undoes `zip`, with the checksum compared or not. With any other four bytes in
its place the data are refused if the checksum is compared, and returned otherwise. -/
theorem unzip_zip (library : CompressionLibrary)
    (encoded : CompressionAlgorithm → List UInt8 → List UInt8) (lossless : Lossless library encoded)
    (data : List UInt8) : ∃ calls, ∀ fuel ≥ calls, ∃ front checksum : List UInt8, checksum.length = 4 ∧
      zip library data fuel = some (some (front ++ checksum)) ∧
      ∀ other : List UInt8, other.length = 4 →
        unzip library (front ++ other) fuel true = some (some data) ∧
        unzip library (front ++ other) fuel false =
          some (if other = checksum then some data else none) := by
  obtain ⟨adler, sums, _⟩ := adler32_sums data
  refine ⟨(encoded .zlib data).length + data.length + 2, fun fuel enough => ?_⟩
  refine ⟨[0x78, 0x5e] ++ encoded .zlib data, bigEndianBytes adler, length_bigEndianBytes adler,
    zip_eq lossless (by omega) sums, fun other four => ?_⟩
  have lasts : data.length + 1 < fuel := by omega
  have inflates := unzip_zlibStream lossless data four lasts
  have same : bigEndian other = adler.toNat ↔ other = bigEndianBytes adler := by
    rw [← bigEndian_bigEndianBytes adler]
    exact ⟨bigEndian_injective (four.trans (length_bigEndianBytes adler).symm), fun same => same ▸ rfl⟩
  refine ⟨(inflates true sums).trans ?_, (inflates false sums).trans ?_⟩
  · simp
  · simp [same]

theorem run_unzip_zip : ∃ calls, ∀ fuel ≥ calls, ∃ front checksum : List UInt8,
    checksum.length = 4 ∧ zip packingLibrary (List.replicate 200 7) fuel = some (some (front ++ checksum)) ∧
    ∀ other : List UInt8, other.length = 4 →
      unzip packingLibrary (front ++ other) fuel true = some (some (List.replicate 200 7)) ∧
      unzip packingLibrary (front ++ other) fuel false =
        some (if other = checksum then some (List.replicate 200 7) else none) :=
  unzip_zip packingLibrary _ packing_lossless (List.replicate 200 7)

end Arthius.Guarantees.Compression
