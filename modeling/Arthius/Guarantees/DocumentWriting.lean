import Mathlib.Data.List.Forall2
import Mathlib.Data.Set.Function
import Arthius.Guarantees.TableWriting

/-!
# Building a document

The builder between two operations stores a document, and its two caches point into
it. Writing a string, a vector or a table extends the document by one node; a cached
one is there already. What an object identifier stands for is left to the format
(`meaning`), as long as it stays true when the document grows.
-/
namespace Arthius.Guarantees
open Arthius.Lib Arthius.Source.FlatBuffers

section Strings
variable {ι : Type} {b : FlatBuffersBuilder ι} {fail : Failure → Prop} {total : ℕ}

theorem insertBytes_ensures (aligned : WellAligned b) (characters : List UInt8) :
    Ensures (characters.reverse.forM insert) b fail fun _ b' => b' = b.push characters := by
  suffices loop : Ensures (characters.reverse.forM insert) b fail fun _ b' =>
      b' = b.push characters.reverse.reverse by
    rwa [List.reverse_reverse] at loop
  refine Ensures.forM (fun done b' => b' = b.push done.reverse) _ ?_ rfl
  intro before byte after b' _ is
  subst is
  refine (insert_aligned (wrote_push aligned _).aligned (by decide) (one_dvd _) (one_dvd _)
    byte).mono fun _ b' is => ?_
  rw [is, push_push, List.reverse_append]
  rfl

def stringBound : Option String → ℕ
  | none => 0
  | some s => (utf8 s).length + 8

theorem insertUTF8_ensures {κ : Type} (aligned : WellAligned b) (value : String)
    (room : b.cursor + stringBound (some value) ≤ total) :
    Ensures (insertUTF8 value) b (Overflow total) fun _ b' =>
      Wrote (stringBound (some value)) b b' ∧ b.cursor < b'.cursor ∧
      (Node.string (utf8 value) : Node κ).Holds (imageOf b') b'.cursor := by
  have ending : ∃ tail : List UInt8, (if b.options.nullTerminatedUTF8 then utf8 value ++ [0]
      else utf8 value) = utf8 value ++ tail ∧ tail.length ≤ 1 := by
    split
    · exact ⟨[0], rfl, le_refl 1⟩
    · exact ⟨[], (List.append_nil _).symm, Nat.zero_le 1⟩
  obtain ⟨tail, is, short⟩ := ending
  rw [stringBound] at room ⊢
  unfold insertUTF8
  rw [Ensures.bind_iff, Ensures.get_iff, is]
  refine Ensures.seq (align_ensures aligned (by decide : 2 ≤ 3) _) fun _ b₁ spec => ?_
  obtain ⟨wrote₁, place, unit⟩ := spec
  refine Ensures.seq (insertBytes_ensures wrote₁.aligned _) fun _ b₂ is => ?_
  subst is
  have wrote₂ := wrote_push wrote₁.aligned (utf8 value ++ tail)
  have length : (utf8 value ++ tail).length = (utf8 value).length + tail.length :=
    List.length_append
  have cursor₂ := cursor_push b₁ (utf8 value ++ tail)
  have reached₁ := wrote₁.cursor
  have further₁ := wrote₁.toGrown.cursor_le
  rw [Ensures.bind_iff]
  refine int32_ensures (by omega) fun small => ?_
  have place₂ : 4 ∣ (b₁.push (utf8 value ++ tail)).cursor := by
    rw [cursor₂, Nat.add_comm]
    exact place
  refine (insert_word_aligned wrote₂.aligned (by omega) (by omega) place₂ unit).mono
    fun _ b₃ spec => ?_
  obtain ⟨wrote₃, moved, word⟩ := spec
  have stored := (stored_push b₁ (utf8 value ++ tail)).left.extend wrote₃.grows.data
  refine ⟨((wrote₁.trans wrote₂).trans wrote₃).le (by omega), by omega, word, ?_⟩
  rw [moved, Nat.add_sub_cancel]
  exact stored

end Strings

section Vectors
variable {ι : Type} {b : FlatBuffersBuilder ι} {total : ℕ}

theorem startVector_ensures (closed : Closed b) (aligned : WellAligned b) {count : ℕ}
    (few : count ≤ total) :
    Ensures (startVector count 4) b (Overflow total) fun _ b' =>
      Grown 3 b b' ∧ 4 ∣ b'.cursor ∧ 4 ∣ b'.minalign ∧ b'.objectStart = -1 ∧
      b'.vectorNumElems = count ∧ count < 2 ^ 31 ∧ b'.vTableOffsets = b.vTableOffsets ∧
      b'.cache = b.cache ∧ b'.stringCache = b.stringCache := by
  unfold startVector
  refine Ensures.seq (align_ensures aligned (by decide : 2 ≤ 3) (count * 4)) fun _ b₁ spec => ?_
  obtain ⟨wrote, place, unit⟩ := spec
  have even : 4 ∣ b₁.cursor := (Nat.dvd_add_left (Nat.dvd_mul_left 4 count)).mp place
  rw [Ensures.bind_iff, Ensures.get_iff, if_pos ⟨wrote.objectStart.trans closed.objectStart,
    wrote.vectorNumElems.trans closed.vectorNumElems⟩, Ensures.bind_iff]
  refine int32_ensures few fun small => ?_
  rw [Ensures.modify_iff]
  exact ⟨⟨wrote.options, wrote.grows, wrote.aligned, wrote.cursor⟩, even, unit,
    wrote.objectStart.trans closed.objectStart, rfl, small, wrote.vTableOffsets, wrote.cache,
    wrote.stringCache⟩

/-- At an aligned cursor the offsets of a vector take four bytes each. -/
theorem insertOffsets_ensures (aligned : WellAligned b) (place : 4 ∣ b.cursor) {targets : List ℕ}
    (written : ∀ target ∈ targets, 0 < target ∧ target ≤ b.cursor)
    (room : b.cursor + 4 * targets.length + 7 ≤ total) :
    Ensures (insertOffsets (targets.map fun target : ℕ => (target : ℤ))) b (Overflow total)
      fun _ b' => Wrote (4 * targets.length) b b' ∧ b'.cursor = b.cursor + 4 * targets.length ∧
        ∀ (i : ℕ) target, targets[i]? = some target →
          (imageOf b').Reference (b'.cursor - 4 * i) target := by
  induction targets with
  | nil =>
    exact Ensures.pure_iff.mpr ⟨⟨Grown.refl aligned, rfl, rfl, rfl, rfl, rfl, rfl⟩, rfl,
      fun i target there => by cases there⟩
  | cons target targets ih =>
    rw [List.length_cons] at room ⊢
    refine Ensures.seq (ih (fun other member => written other (List.mem_cons_of_mem _ member))
      (by omega)) fun _ b₁ spec => ?_
    obtain ⟨wrote₁, reached₁, references⟩ := spec
    obtain ⟨positive, below⟩ := written target List.mem_cons_self
    refine (insertOffset_ensures wrote₁.aligned positive (by omega) (by omega)).mono
      fun _ b₂ spec => ?_
    obtain ⟨wrote₂, further, reference⟩ := spec
    have place₂ : 4 ∣ b₂.cursor := reference.word.placed.place
    have reached₂ := wrote₂.cursor
    have exactly : b₂.cursor = b₁.cursor + 4 := by omega
    refine ⟨{ wrote₁.trans wrote₂ with cursor := by omega }, by omega, fun i other there => ?_⟩
    cases i with
    | zero =>
      cases there
      exact reference
    | succ i =>
      have same : b₂.cursor - 4 * (i + 1) = b₁.cursor - 4 * i := by omega
      rw [same]
      exact (references i other there).grows wrote₂.grows

/-- The vector of objects written before. -/
theorem writeVector_ensures {κ : Type} (closed : Closed b) (aligned : WellAligned b)
    (hold : VTablesHold b) {targets : List ℕ}
    (written : ∀ target ∈ targets, 0 < target ∧ target ≤ b.cursor)
    (room : b.cursor + 4 * targets.length + 10 ≤ total) :
    Ensures (do
        startVector targets.length 4
        insertOffsets (targets.map fun target : ℕ => (target : ℤ))
        endVector) b (Overflow total) fun o b' =>
      Kept (4 * targets.length + 7) b b' ∧ ∃ d : ℕ, o = d ∧ b.cursor < d ∧
        (Node.vector targets : Node κ).Holds (imageOf b') d := by
  refine Ensures.seq (startVector_ensures closed aligned (by omega)) fun _ b₁ spec => ?_
  obtain ⟨grown, place, unit, objectStart, count, small, vTableOffsets, cache, stringCache⟩ := spec
  have reached₁ := grown.cursor
  have further₁ := grown.cursor_le
  refine Ensures.seq (insertOffsets_ensures grown.aligned place (fun target member =>
    ⟨(written target member).1, (written target member).2.trans further₁⟩) (by omega))
    fun _ b₂ spec => ?_
  obtain ⟨wrote₂, reached₂, references⟩ := spec
  unfold endVector
  rw [Ensures.bind_iff, Ensures.get_iff, Ensures.bind_iff, wrote₂.vectorNumElems, count]
  have place₂ : 4 ∣ b₂.cursor := by omega
  have unit₂ := unit.trans wrote₂.grows.minalign
  refine (insert_word_aligned wrote₂.aligned (by omega) (by omega) place₂ unit₂).mono
    fun _ b₃ spec => ?_
  obtain ⟨wrote₃, reached₃, word⟩ := spec
  rw [Ensures.bind_iff, Ensures.modify_iff, Ensures.bind_iff, Ensures.get_iff]
  refine int32_ensures (n := b₃.cursor) (by omega) fun _ => ?_
  have grown₃ := (grown.trans wrote₂.toGrown).trans wrote₃.toGrown
  have offsets : b₃.vTableOffsets = b.vTableOffsets :=
    wrote₃.vTableOffsets.trans (wrote₂.vTableOffsets.trans vTableOffsets)
  refine ⟨⟨⟨grown₃.options, grown₃.grows, grown₃.aligned, ?_⟩, ⟨?_, rfl⟩,
    hold.grows grown₃.grows offsets, ?_, ?_⟩, b₃.cursor, rfl, by omega, word,
    fun i target there => ?_⟩
  · change b₃.cursor ≤ _
    omega
  · exact wrote₃.objectStart.trans (wrote₂.objectStart.trans objectStart)
  · exact wrote₃.cache.trans (wrote₂.cache.trans cache)
  · exact wrote₃.stringCache.trans (wrote₂.stringCache.trans stringCache)
  · have same : b₃.cursor - 4 - 4 * i = b₂.cursor - 4 * i := by omega
    rw [same]
    exact (references i target there).grows wrote₃.grows

end Vectors

/-- What may be said of a document: it stays true as the document grows. -/
structure Statement (κ : Type) where
  holds : Document κ → Prop
  stable : ∀ {doc doc' : Document κ}, doc'.Extends doc → holds doc → holds doc'

namespace Statement
variable {κ : Type}

def nothing : Statement κ := ⟨fun _ => True, fun _ _ => trivial⟩

def and (P Q : Statement κ) : Statement κ where
  holds doc := P.holds doc ∧ Q.holds doc
  stable further both := ⟨P.stable further both.1, Q.stable further both.2⟩

def node (n : ℕ) (is : Node κ) : Statement κ where
  holds doc := doc n = some is
  stable further there := further n is there

/-- The node is there under its offset. -/
def under (is : Node κ) (o : Offset) : Statement κ where
  holds doc := ∃ n : ℕ, o = n ∧ doc n = some is
  stable further := fun ⟨n, same, there⟩ => ⟨n, same, further n is there⟩

/-- A string is there under its offset, or there is none. -/
def text (o : Offset) : Option String → Statement κ
  | none => ⟨fun _ => o = 0, fun _ null => null⟩
  | some s => under (.string (utf8 s)) o

/-- A string that compares equal to the one given. -/
def textLike (compared : String → String) (value : Option String) (o : Offset) : Statement κ where
  holds doc := ∃ s : Option String, s.map compared = value.map compared ∧ (text o s).holds doc
  stable further := fun ⟨s, same, there⟩ => ⟨s, same, (text o s).stable further there⟩

end Statement

/-- What is said of the object at a distance. There is an object. -/
structure Meaning (κ : Type) where
  statement : ℕ → Statement κ
  present : ∀ {doc : Document κ} {n : ℕ}, (statement n).holds doc → ∃ node, doc n = some node

namespace Meaning
variable {κ : Type}

/-- The object is there under its offset. -/
def under (meaning : Meaning κ) (o : Offset) : Statement κ where
  holds doc := ∃ n : ℕ, o = n ∧ (meaning.statement n).holds doc
  stable further := fun ⟨n, is, said⟩ => ⟨n, is, (meaning.statement n).stable further said⟩

/-- The object is there under its offset, if there is one. -/
def optional : Option (Meaning κ) → Offset → Statement κ
  | none, o => ⟨fun _ => o = 0, fun _ null => null⟩
  | some meaning, o => meaning.under o

/-- The objects are there at these distances. -/
def each (meanings : List (Meaning κ)) (targets : List ℕ) : Statement κ where
  holds doc := List.Forall₂ (fun meaning n => (meaning.statement n).holds doc) meanings targets
  stable further said := said.imp fun meaning n => (meaning.statement n).stable further

/-- The objects are there under these offsets. -/
def list (meanings : List (Meaning κ)) (offsets : List Offset) : Statement κ where
  holds doc := ∃ targets : List ℕ, offsets = targets.map (fun n : ℕ => (n : ℤ)) ∧
    (each meanings targets).holds doc
  stable further := fun ⟨targets, are, said⟩ =>
    ⟨targets, are, (each meanings targets).stable further said⟩

/-- A vector of the objects is there under its offset, if there are any. -/
def vector : List (Meaning κ) → Offset → Statement κ
  | [], o => ⟨fun _ => o = 0, fun _ null => null⟩
  | meaning :: meanings, o =>
    { holds := fun doc => ∃ (n : ℕ) (targets : List ℕ), o = n ∧ doc n = some (.vector targets) ∧
        (each (meaning :: meanings) targets).holds doc
      stable := fun further ⟨n, targets, is, there, said⟩ => ⟨n, targets, is, further n _ there,
        (each (meaning :: meanings) targets).stable further said⟩ }

theorem each_present {doc : Document κ} {meanings : List (Meaning κ)} {targets : List ℕ}
    (said : (each meanings targets).holds doc) : ∀ target ∈ targets, ∃ node, doc target = some node := by
  induction targets generalizing meanings with
  | nil => exact fun _ member => nomatch member
  | cons n targets ih =>
    cases said with
    | cons first others =>
      intro target member
      rcases List.mem_cons.mp member with rfl | later
      · exact present _ first
      · exact ih others target later

end Meaning

/-- What the writing of a file depends on, and a view of its strings under which those
that are shared look alike. -/
structure Encoding where
  canonical : String → String
  options : FlatBuffersBuilderOptions
  strings : Set String
  compared : String → String
  alike : options.uniqueStrings = true → ∀ s ∈ strings, ∀ t ∈ strings,
    canonical s = canonical t → compared s = compared t

/-- Strings under their canonical form. -/
def Encoding.canonically (canonical : String → String) (options : FlatBuffersBuilderOptions)
    (strings : Set String) : Encoding where
  canonical := canonical
  options := options
  strings := strings
  compared := canonical
  alike := fun _ _ _ _ _ same => same

/-- No two different strings are shared. -/
def Distinct (canonical : String → String) (options : FlatBuffersBuilderOptions)
    (strings : Set String) : Prop :=
  options.uniqueStrings = false ∨ Set.InjOn canonical strings

/-- Strings as they are. -/
def Encoding.exactly {canonical : String → String} {options : FlatBuffersBuilderOptions}
    {strings : Set String} (distinct : Distinct canonical options strings) : Encoding where
  canonical := canonical
  options := options
  strings := strings
  compared := id
  alike := fun unique s known t known' same => by
    rcases distinct with plain | injective
    · rw [plain] at unique
      cases unique
    · exact injective known known' same

/-- What the object identifiers stand for. -/
structure Format (κ ι : Type) extends Encoding where
  meaning : ι → Meaning κ

/-- The builder between two operations, with the document it has built so far. -/
structure Sound {κ ι : Type} (format : Format κ ι) (doc : Document κ) (b : FlatBuffersBuilder ι) :
    Prop where
  options : b.options = format.options
  closed : Closed b
  aligned : WellAligned b
  vtables : VTablesHold b
  holds : doc.Holds (imageOf b)
  texts : ∀ entry ∈ b.stringCache, ∃ s ∈ format.strings, format.canonical s = entry.1 ∧
    ∃ n : ℕ, entry.2 = n ∧ doc n = some (.string (utf8 s))
  tables : ∀ entry ∈ b.cache, ((format.meaning entry.1).under entry.2).holds doc

/-- The builder has gone on, and the document has grown so that the statement holds. -/
def Extended {κ ι : Type} (format : Format κ ι) (most : ℕ) (doc : Document κ)
    (b : FlatBuffersBuilder ι) (said : Statement κ) (b' : FlatBuffersBuilder ι) : Prop :=
  ∃ doc' : Document κ, doc'.Extends doc ∧ Sound format doc' b' ∧ Grown most b b' ∧ said.holds doc'

/-- On every document of which `given` holds, the program extends it, within `most`
bytes, so that `post` holds of its result. -/
def Writes {κ ι α : Type} (format : Format κ ι) (total most : ℕ) (given : Statement κ)
    (post : α → Statement κ) (program : Build ι α) : Prop :=
  ∀ doc b, Sound format doc b → given.holds doc → b.cursor + most ≤ total →
    Ensures program b (Overflow total) fun a b' => Extended format most doc b (post a) b'

section Documents
variable {κ ι : Type} {format : Format κ ι} {doc : Document κ} {b b' : FlatBuffersBuilder ι}
  {total : ℕ}

theorem Sound.inside (sound : Sound format doc b) {n : ℕ} {node : Node κ}
    (there : doc n = some node) : 0 < n ∧ n ≤ b.cursor := by
  obtain ⟨_, word⟩ := (sound.holds n node there).word
  have four := word.four_le
  exact ⟨by omega, sound.holds.le_length there⟩

/-- A finished operation adds the node that it wrote. -/
theorem Sound.add (sound : Sound format doc b) {most d : ℕ} (node : Node κ)
    (kept : Kept most b b') (beyond : b.cursor < d) (holds : node.Holds (imageOf b') d) :
    Extended format most doc b (.node d node) b' := by
  have fresh : doc d = none := by
    by_contra there
    obtain ⟨node', is⟩ := Option.ne_none_iff_exists'.mp there
    have inside := sound.inside is
    omega
  have extends_ := Document.add_extends fresh node
  refine ⟨doc.add d node, extends_, ⟨kept.grown.options.trans sound.options, kept.closed,
    kept.grown.aligned, kept.vtables, (sound.holds.grows kept.grown.grows).add holds, ?_, ?_⟩,
    kept.grown, doc.add_self d node⟩
  · intro entry member
    obtain ⟨s, known, key, n, is, there⟩ := sound.texts entry (kept.stringCache ▸ member)
    exact ⟨s, known, key, n, is, extends_ n _ there⟩
  · intro entry member
    exact Statement.stable _ extends_ (sound.tables entry (kept.cache ▸ member))

theorem Sound.extended (sound : Sound format doc b) {most : ℕ} {said : Statement κ}
    (holds : said.holds doc) : Extended format most doc b said b :=
  ⟨doc, .refl doc, sound, (Grown.refl sound.aligned).le (Nat.zero_le _), holds⟩

section Rules
variable {α β : Type} {m n most : ℕ} {given given' : Statement κ} {program : Build ι α}
  {next : α → Build ι β} {post post' : α → Statement κ} {final : β → Statement κ}

theorem Writes.pure {a : α} (holds : ∀ doc, given.holds doc → (post a).holds doc) :
    Writes format total most given post (pure a) :=
  fun doc _ sound before _ => Ensures.pure_iff.mpr (sound.extended (holds doc before))

/-- One program after the other: what was said before the second still holds. -/
theorem Writes.bind (first : Writes format total m given post program)
    (rest : ∀ a, Writes format total n (given.and (post a)) final (next a)) :
    Writes format total (m + n) given final (program >>= next) := by
  intro doc b sound before room
  refine Ensures.seq (first doc b sound before (by omega)) fun a b₁ spec => ?_
  obtain ⟨doc₁, extends₁, sound₁, grown₁, said₁⟩ := spec
  have reached := grown₁.cursor
  refine (rest a doc₁ b₁ sound₁ ⟨given.stable extends₁ before, said₁⟩ (by omega)).mono
    fun b b₂ spec => ?_
  obtain ⟨doc₂, extends₂, sound₂, grown₂, said₂⟩ := spec
  exact ⟨doc₂, extends₂.trans extends₁, sound₂, grown₁.trans grown₂, said₂⟩

theorem Writes.imp (writes : Writes format total m given post program) (enough : m ≤ most)
    (stronger : ∀ doc, given'.holds doc → given.holds doc)
    (weaker : ∀ a doc, (post a).holds doc → (post' a).holds doc) :
    Writes format total most given' post' program := by
  intro doc b sound before room
  refine (writes doc b sound (stronger doc before) (by omega)).mono fun a b' spec => ?_
  obtain ⟨doc', further, sound', grown, said⟩ := spec
  exact ⟨doc', further, sound', grown.le enough, weaker a doc' said⟩

/-- More may be said before. -/
theorem Writes.afterwards (writes : Writes format total m .nothing post program) :
    Writes format total m given post program :=
  writes.imp (le_refl m) (fun _ _ => trivial) fun _ _ said => said

end Rules

theorem slotWritten_of_node (sound : Sound format doc b) {n : ℕ} {node : Node κ}
    (there : doc n = some node) : SlotWritten b.cursor (.offset n) :=
  ⟨n, rfl, (sound.inside there).2⟩

theorem slotWritten_zero : SlotWritten b.cursor (.offset 0) := ⟨0, rfl, Nat.zero_le _⟩

theorem slotWritten_text (sound : Sound format doc b) {o : Offset} {s : Option String}
    (there : (Statement.text o s).holds doc) : SlotWritten b.cursor (.offset o) := by
  cases s with
  | none => exact there ▸ slotWritten_zero
  | some s =>
    obtain ⟨n, rfl, node⟩ := there
    exact slotWritten_of_node sound node

theorem slotWritten_object (sound : Sound format doc b) {o : Offset}
    {meaning : Option (Meaning κ)} (there : (Meaning.optional meaning o).holds doc) :
    SlotWritten b.cursor (.offset o) := by
  cases meaning with
  | none => exact there ▸ slotWritten_zero
  | some meaning =>
    obtain ⟨n, rfl, said⟩ := there
    obtain ⟨node, is⟩ := meaning.present said
    exact slotWritten_of_node sound is

theorem slotWritten_vector (sound : Sound format doc b) {o : Offset}
    {meanings : List (Meaning κ)} (there : (Meaning.vector meanings o).holds doc) :
    SlotWritten b.cursor (.offset o) := by
  cases meanings with
  | nil => exact there ▸ slotWritten_zero
  | cons meaning meanings =>
    obtain ⟨n, targets, rfl, node, _⟩ := there
    exact slotWritten_of_node sound node

private theorem mem_of_lookup {α β : Type} [BEq α] [LawfulBEq α] {key : α} {value : β}
    {entries : List (α × β)} (found : entries.lookup key = some value) : (key, value) ∈ entries := by
  obtain ⟨before, after, whole, _⟩ := List.lookup_eq_some_iff.mp found
  rw [whole]
  exact List.mem_append_right _ List.mem_cons_self

theorem cacheString_ensures {fail : Failure → Prop} (sound : Sound format doc b) {s : String}
    (known : s ∈ format.strings) {n : ℕ} (there : doc n = some (.string (utf8 s))) :
    Ensures (cacheString (format.canonical s) n) b fail fun _ b' =>
      Sound format doc b' ∧ Grown 0 b b' := by
  rw [cacheString, Ensures.modify_iff]
  split
  · refine ⟨⟨sound.options, ⟨sound.closed.objectStart, sound.closed.vectorNumElems⟩, sound.aligned,
      sound.vtables, sound.holds, ?_, sound.tables⟩, ⟨rfl, .refl _, sound.aligned, le_refl _⟩⟩
    intro entry member
    rcases List.mem_cons.mp member with rfl | old
    · exact ⟨s, known, rfl, n, rfl, there⟩
    · exact sound.texts entry old
  · exact ⟨sound, .refl sound.aligned⟩

/-- A string, or the one written before that compares equal to it. -/
theorem insertString_writes {value : Option String} (known : ∀ s ∈ value, s ∈ format.strings) :
    Writes format total (stringBound value) .nothing (.textLike format.compared value)
      (insertString format.canonical value) := by
  intro doc b sound _ room
  unfold insertString
  rw [Ensures.bind_iff, Ensures.get_iff,
    if_pos ⟨sound.closed.objectStart, sound.closed.vectorNumElems⟩]
  cases value with
  | none => exact Ensures.pure_iff.mpr (sound.extended ⟨none, rfl, rfl⟩)
  | some value =>
    dsimp only
    cases cached : (if b.options.uniqueStrings then b.stringCache.lookup (format.canonical value)
      else none) with
    | some o =>
      split at cached
      · next unique =>
        obtain ⟨s, member, key, n, is, there⟩ := sound.texts _ (mem_of_lookup cached)
        have alike := format.alike (sound.options ▸ unique) s member value (known value rfl) key
        exact Ensures.pure_iff.mpr (sound.extended ⟨some s, congrArg some alike, n, is, there⟩)
      · cases cached
    | none =>
      refine Ensures.seq (insertUTF8_ensures (κ := κ) sound.aligned value room) fun _ b₁ spec => ?_
      obtain ⟨wrote, further, holds⟩ := spec
      have kept : Kept (stringBound (some value)) b b₁ :=
        ⟨wrote.toGrown, ⟨wrote.objectStart.trans sound.closed.objectStart,
          wrote.vectorNumElems.trans sound.closed.vectorNumElems⟩,
          sound.vtables.grows wrote.grows wrote.vTableOffsets, wrote.cache, wrote.stringCache⟩
      obtain ⟨doc', extends_, sound', grown, there⟩ := sound.add _ kept further holds
      have reached := grown.cursor
      rw [Ensures.bind_iff, Ensures.get_iff, Ensures.bind_iff]
      refine int32_ensures (n := b₁.cursor) (by omega) fun _ => ?_
      refine Ensures.seq (cacheString_ensures sound' (known value rfl) there) fun _ b₂ spec => ?_
      obtain ⟨sound₂, grown₂⟩ := spec
      exact Ensures.pure_iff.mpr ⟨doc', extends_, sound₂, grown.trans grown₂, some value, rfl,
        b₁.cursor, rfl, there⟩

theorem cacheTable_ensures {fail : Failure → Prop} (sound : Sound format doc b) {self : ι}
    {o : Offset} (there : ((format.meaning self).under o).holds doc) :
    Ensures (cacheTable self o) b fail fun _ b' => Sound format doc b' ∧ Grown 0 b b' := by
  rw [cacheTable, Ensures.modify_iff]
  split
  · refine ⟨⟨sound.options, ⟨sound.closed.objectStart, sound.closed.vectorNumElems⟩, sound.aligned,
      sound.vtables, sound.holds, sound.texts, ?_⟩, ⟨rfl, .refl _, sound.aligned, le_refl _⟩⟩
    intro entry member
    rcases List.mem_cons.mp member with rfl | old
    · exact there
    · exact sound.tables entry old
  · exact ⟨sound, .refl sound.aligned⟩

/-- An object whose identifier is cached was written before. -/
theorem cached_writes [DecidableEq ι] {most : ℕ} {self : ι} {body : Build ι Offset}
    (writes : Writes format total most .nothing (format.meaning self).under body) :
    Writes format total most .nothing (format.meaning self).under (cached self body) := by
  intro doc b sound before room
  unfold cached
  rw [Ensures.bind_iff, Ensures.get_iff]
  cases found : (if b.options.uniqueTables then b.cache.lookup self else none) with
  | some o =>
    split at found
    · exact Ensures.pure_iff.mpr (sound.extended (sound.tables _ (mem_of_lookup found)))
    · cases found
  | none =>
    refine Ensures.seq (writes doc b sound before room) fun o b₁ spec => ?_
    obtain ⟨doc', further, sound', grown, there⟩ := spec
    refine Ensures.seq (cacheTable_ensures sound' there) fun _ b₂ spec => ?_
    obtain ⟨sound₂, grown₂⟩ := spec
    exact Ensures.pure_iff.mpr ⟨doc', further, sound₂, grown.trans grown₂, there⟩

/-- The bytes that a table of these slots takes at most. -/
def tableBound (count slots : ℕ) : ℕ := 23 * slots + 2 * count + 11

theorem writeTable_writes {count : ℕ} {slots : List (ℕ × Slot)} {given : Statement κ}
    (indices : ∀ slot ∈ slots, slot.1 < count)
    (written : ∀ (doc : Document κ) (b : FlatBuffersBuilder ι), Sound format doc b →
      given.holds doc → ∀ slot ∈ slots, SlotWritten b.cursor slot.2)
    (few : tableBound count slots.length < 2 ^ 15) (kind : κ) :
    Writes format total (tableBound count slots.length) given
      (.under (.table kind (tableProperties format.options.forceDefaults count slots)))
      (writeTable count slots) := by
  intro doc b sound before room
  refine (writeTable_ensures sound.closed sound.aligned sound.vtables indices
    (written doc b sound before) few room).mono fun o b' done => ?_
  obtain ⟨d, is, beyond, table⟩ := done.placed
  rw [sound.options] at table
  have kept := done.kept
  obtain ⟨doc', further, sound', grown, there⟩ := sound.add (.table kind
    (tableProperties format.options.forceDefaults count slots)) kept beyond table
  exact ⟨doc', further, sound', grown, d, is, there⟩

section Vectors
variable {α : Type} {addToByteArray : α → Build ι Offset} {bound : α → ℕ}
  {meaning : α → Meaning κ}

theorem insertObject_writes (object : Option α)
    (each : ∀ x, object = some x →
      Writes format total (bound x) .nothing (meaning x).under (addToByteArray x)) :
    Writes format total ((object.map bound).getD 0) .nothing (Meaning.optional (object.map meaning))
      (insertObject addToByteArray object) := by
  cases object with
  | none => exact .pure fun _ _ => rfl
  | some x => exact each x rfl

/-- The elements are written from the last to the first. -/
theorem insertElements_writes (xs : List α) (each : ∀ x ∈ xs,
      Writes format total (bound x) .nothing (meaning x).under (addToByteArray x)) :
    Writes format total (xs.map bound).sum .nothing (Meaning.list (xs.map meaning))
      (insertElements addToByteArray xs) := by
  induction xs with
  | nil => exact .pure fun _ _ => ⟨[], rfl, .nil⟩
  | cons x xs ih =>
    have last : ∀ offsets offset, Writes format total 0
        (((Statement.nothing).and (Meaning.list (xs.map meaning) offsets)).and
          ((meaning x).under offset)) (Meaning.list ((x :: xs).map meaning))
        (pure (offset :: offsets)) := by
      refine fun offsets offset => .pure fun doc said => ?_
      obtain ⟨⟨_, targets, rfl, others⟩, n, rfl, first⟩ := said
      exact ⟨n :: targets, rfl, .cons first others⟩
    have others := ih fun other member => each other (List.mem_cons_of_mem x member)
    have first := each x List.mem_cons_self
    refine (others.bind fun offsets => first.afterwards.bind (last offsets)).imp ?_
      (fun _ _ => trivial) fun _ _ said => said
    rw [List.map_cons, List.sum_cons]
    omega

/-- The bytes that a vector of these elements takes at most. -/
def vectorBound (bound : α → ℕ) (xs : List α) : ℕ := (xs.map bound).sum + 4 * xs.length + 10

/-- The vector of objects that have just been written. -/
theorem writeVector_writes (x : α) (xs : List α) (offsets : List Offset) :
    Writes format total (4 * (x :: xs).length + 10)
      ((Statement.nothing).and (Meaning.list ((x :: xs).map meaning) offsets))
      (Meaning.vector ((x :: xs).map meaning)) (do
        startVector (x :: xs).length 4
        insertOffsets offsets
        endVector) := by
  intro doc b sound said room
  obtain ⟨_, targets, rfl, objects⟩ := said
  have length : (x :: xs).length = targets.length := by
    rw [← objects.length_eq, List.length_map]
  have written : ∀ target ∈ targets, 0 < target ∧ target ≤ b.cursor := by
    intro target member
    obtain ⟨node, there⟩ := Meaning.each_present objects target member
    exact sound.inside there
  rw [length] at room ⊢
  refine (writeVector_ensures (κ := κ) sound.closed sound.aligned sound.vtables written
    (by omega)).mono fun o b' spec => ?_
  obtain ⟨kept, d, is, beyond, holds⟩ := spec
  obtain ⟨doc', further, sound', grown, there⟩ := sound.add _ kept beyond holds
  exact ⟨doc', further, sound', grown.le (by omega), d, targets, is, there,
    Statement.stable _ further objects⟩

theorem insertVector_writes (xs : List α) (each : ∀ x ∈ xs,
      Writes format total (bound x) .nothing (meaning x).under (addToByteArray x)) :
    Writes format total (vectorBound bound xs) .nothing (Meaning.vector (xs.map meaning))
      (insertVector addToByteArray xs) := by
  cases xs with
  | nil => exact .pure fun _ _ => rfl
  | cons x xs =>
    have some : (x :: xs).length > 0 := Nat.succ_pos _
    rw [insertVector, if_pos some]
    exact ((insertElements_writes (x :: xs) each).bind (writeVector_writes x xs)).imp
      (by rw [vectorBound]; omega) (fun _ _ => trivial) fun _ _ said => said

end Vectors

/-- A finished file: its first word leads to the root. -/
structure Finished (file : List UInt8) (doc : Document κ) (root : ℕ) : Prop extends
    Stores file doc where
  first : (Image.ofFile file).Word file.length (file.length - root)

theorem finish_ensures (sound : Sound format doc b) {root : ℕ} {node : Node κ}
    (there : doc root = some node) (room : b.cursor + 11 ≤ total) :
    Ensures (finish root none) b (Overflow total) fun _ b' =>
      Finished b'.data doc root ∧ b'.cursor ≤ b.cursor + 11 := by
  obtain ⟨_, word⟩ := (sound.holds root node there).word
  have inside := (sound.inside there).2
  obtain ⟨k, fits, power⟩ := sound.aligned
  have four : 4 ∣ 2 ^ k := power ▸ word.placed.total
  have large : 2 ^ k ≤ 2 ^ 3 := Nat.pow_le_pow_right (by decide) fits
  unfold finish
  rw [Ensures.bind_iff, Ensures.get_iff, Ensures.bind_iff]
  refine int32_ensures (n := b.cursor) (by omega) fun _ => ?_
  rw [if_pos (Int.ofNat_le.mpr inside),
    if_pos ⟨sound.closed.objectStart, sound.closed.vectorNumElems⟩]
  unfold insertFileIdentifier
  rw [Ensures.bind_iff, Ensures.bind_iff, Ensures.get_iff, power]
  refine (align_ensures sound.aligned fits 4).mono fun _ b₁ spec => ?_
  obtain ⟨wrote, place, unit⟩ := spec
  have reached := wrote.cursor
  have further := wrote.toGrown.cursor_le
  have end₁ : (b₁.cursor : ℤ) + 4 = ((b₁.cursor + 4 : ℕ) : ℤ) := by omega
  rw [Ensures.bind_iff, Ensures.get_iff, Ensures.bind_iff, end₁]
  refine int32_ensures (by omega) fun small => ?_
  have distance : ((b₁.cursor + 4 : ℕ) : ℤ) - root = ((b₁.cursor + 4 - root : ℕ) : ℤ) := by omega
  rw [Ensures.bind_iff, distance]
  refine int32_ensures (by omega) fun _ => ?_
  have even : 4 ∣ b₁.cursor := (Nat.dvd_add_left (dvd_refl 4)).mp (four.trans place)
  refine (insert_word_aligned wrote.aligned (by omega) (by omega) even (four.trans unit)).mono
    fun _ b₂ spec => ?_
  obtain ⟨wrote₂, moved, first⟩ := spec
  have whole : b₂.data.length = b₁.cursor + 4 := moved
  have grows : (imageOf b).Grows (Image.ofFile b₂.data) := by
    refine ⟨(wrote.grows.trans wrote₂.grows).data, ?_⟩
    change b.minalign ∣ b₂.data.length
    rwa [power, whole]
  have total_ : 4 ∣ b₂.data.length := by
    rw [whole]
    exact four.trans place
  have value : (b₂.data.length : ℤ) - root = ((b₁.cursor + 4 - root : ℕ) : ℤ) := by omega
  refine ⟨⟨⟨sound.holds.grows grows, by omega⟩, ?_⟩, by omega⟩
  rw [value]
  exact ⟨⟨first.placed.stored, first.placed.place, total_⟩, first.low, first.high⟩

/-- The builder at the start. -/
theorem Sound.start (garbage : ℕ → UInt8) :
    Sound format Document.empty { options := format.options, garbage } where
  options := rfl
  closed := ⟨rfl, rfl⟩
  aligned := ⟨0, by decide, rfl⟩
  vtables := fun _ member => nomatch member
  holds := fun _ _ there => nomatch there
  texts := fun _ member => nomatch member
  tables := fun _ member => nomatch member

/-- A whole file: of the object it was made of, or a trap over its size. -/
theorem makeData_spec {most : ℕ} {meaning : Meaning κ} {program : Build ι Offset}
    (writes : ∀ total, Writes format total most .nothing meaning.under program)
    (garbage : ℕ → UInt8) :
    match makeData format.options garbage program with
    | .ok file => file.length ≤ most + 11 ∧ ∃ (doc : Document κ) (root : ℕ),
        Finished file doc root ∧ (meaning.statement root).holds doc
    | .error failure => failure = .trap ∧ 2 ^ 31 ≤ most + 11 := by
  have runs : Ensures (do
      let offset ← program
      finish offset none) { options := format.options, garbage } (Overflow (most + 11))
      fun _ b' => b'.data.length ≤ most + 11 ∧ ∃ (doc : Document κ) (root : ℕ),
        Finished b'.data doc root ∧ (meaning.statement root).holds doc := by
    have room : 0 + most ≤ most + 11 := by omega
    refine Ensures.seq (writes (most + 11) Document.empty _ (Sound.start garbage) trivial room)
      fun o b₁ spec => ?_
    obtain ⟨doc, _, sound, grown, root, rfl, said⟩ := spec
    obtain ⟨node, there⟩ := meaning.present said
    have reached : b₁.cursor ≤ 0 + most := grown.cursor
    refine (finish_ensures sound there (by omega)).mono fun _ b₂ spec => ?_
    obtain ⟨finished, length⟩ := spec
    exact ⟨length.trans (by omega), doc, root, finished, said⟩
  unfold Ensures at runs
  unfold makeData
  dsimp only
  split at runs
  · next returned => rwa [returned]
  · next failed => rwa [failed]

end Documents
end Arthius.Guarantees
