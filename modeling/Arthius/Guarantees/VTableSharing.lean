import Arthius.Guarantees.BinaryWriting

/-!
# Sharing vtables

`endObject` writes the vtable of the open object and drops it again if an earlier
one has the same bytes. A vtable begins with its own length, so the byte comparison of
two of them stops before the end of the shorter one: it never leaves the bytes written,
and it tells whether the two are the same.
-/
namespace Arthius.Guarantees
open Arthius.Lib Arthius.Source.FlatBuffers

variable {ι : Type} {b : FlatBuffersBuilder ι} {fail : Failure → Prop} {total : ℕ}

/-- A vtable begins with its own length. -/
def IsVTable (bs : List UInt8) : Prop :=
  bs.length < 2 ^ 15 ∧ ∃ rest, bs = Scalar.store (Int16.ofInt bs.length) ++ rest

/-- The vtables that the builder would share are there. -/
def VTablesHold (b : FlatBuffersBuilder ι) : Prop :=
  ∀ offset ∈ b.vTableOffsets, ∃ (n : ℕ) (bs : List UInt8), offset = n ∧ IsVTable bs ∧
    (imageOf b).Placed n 2 bs

theorem VTablesHold.grows {b' : FlatBuffersBuilder ι} (hold : VTablesHold b)
    (grows : (imageOf b).Grows (imageOf b')) (same : b'.vTableOffsets = b.vTableOffsets) :
    VTablesHold b' := by
  intro offset member
  obtain ⟨n, bs, rfl, vtable, placed⟩ := hold offset (same ▸ member)
  exact ⟨n, bs, rfl, vtable, placed.grows grows⟩

/-- The comparison of two rows up to the first difference; it fails where it needs a
byte past the end of the second row. -/
def compareRows : List UInt8 → List UInt8 → Option Bool
  | [], _ => some true
  | _ :: _, [] => none
  | x :: xs, y :: ys => if x ≠ y then some false else compareRows xs ys

theorem compareRows_same_length {xs ys : List UInt8} (length : xs.length = ys.length) :
    compareRows xs ys = some (decide (xs = ys)) := by
  induction xs generalizing ys with
  | nil =>
    obtain rfl := List.length_eq_zero_iff.mp length.symm
    rfl
  | cons x xs ih =>
    cases ys with
    | nil => cases length
    | cons y ys =>
      rw [compareRows, ih (Nat.succ.inj length)]
      by_cases same : x = y <;> simp [same]

theorem compareRows_heads {xs ys : List UInt8} (length : xs.length = ys.length) (differ : xs ≠ ys)
    (us vs : List UInt8) : compareRows (xs ++ us) (ys ++ vs) = some false := by
  induction xs generalizing ys with
  | nil => exact absurd (List.length_eq_zero_iff.mp length.symm).symm differ
  | cons x xs ih =>
    cases ys with
    | nil => cases length
    | cons y ys =>
      rw [List.cons_append, List.cons_append, compareRows]
      by_cases same : x = y
      · subst same
        rw [if_neg (not_not.mpr rfl)]
        exact ih (Nat.succ.inj length) fun rest => differ (rest ▸ rfl)
      · rw [if_pos same]

/-- Two vtables are compared within their bytes. -/
theorem compareRows_vtables {xs ys : List UInt8} (first : IsVTable xs) (second : IsVTable ys) :
    compareRows xs ys = some (decide (xs = ys)) := by
  by_cases length : xs.length = ys.length
  · exact compareRows_same_length length
  · obtain ⟨small, us, whole⟩ := first
    obtain ⟨small', vs, whole'⟩ := second
    have differ : Scalar.store (Int16.ofInt xs.length) ≠ Scalar.store (Int16.ofInt ys.length) := by
      intro same
      have loaded := congrArg (Scalar.load (T := Int16)) same
      rw [Scalar.load_store, Scalar.load_store] at loaded
      have numbers := congrArg Int16.toInt loaded
      rw [Int16.toInt_ofInt_of_le (by omega) (by omega),
        Int16.toInt_ofInt_of_le (by omega) (by omega)] at numbers
      omega
    have unequal : xs ≠ ys := fun same => length (same ▸ rfl)
    rw [decide_eq_false unequal, whole, whole']
    exact compareRows_heads (by rw [Scalar.length_store, Scalar.length_store]) differ us vs

theorem byteAt_ensures {i : ℕ} {index : ℤ} {byte : UInt8} (is : index = i)
    (there : b.data[i]? = some byte) {post : UInt8 → FlatBuffersBuilder ι → Prop}
    (holds : post byte b) : Ensures (byteAt index) b fail post := by
  subst is
  unfold byteAt
  simp only [Ensures.bind_iff, Ensures.get_iff]
  rw [if_pos (Int.natCast_nonneg i), Int.toNat_natCast, there]
  exact Ensures.pure_iff.mpr holds

private theorem drop_cons {data : List UInt8} {j : ℕ} {x : UInt8} {xs : List UInt8}
    (there : x :: xs <+: data.drop j) : data[j]? = some x ∧ xs <+: data.drop (j + 1) := by
  obtain ⟨rest, whole⟩ := there
  have first : (data.drop j)[0]? = data[j]? := List.getElem?_drop
  rw [← whole] at first
  refine ⟨first.symm, rest, ?_⟩
  rw [← List.drop_drop, ← whole]
  rfl

/-- The search compares the rows at two places. -/
theorem sameBytes_ensures {start : ℕ} {xs ys : List UInt8} {j : ℕ} {answer : Bool}
    (new : xs <+: b.data.drop j) (old : ys <+: b.data.drop (start + j))
    (compared : compareRows xs ys = some answer) {post : Bool → FlatBuffersBuilder ι → Prop}
    (holds : post answer b) :
    Ensures (sameBytes start (List.range' j xs.length)) b fail post := by
  induction xs generalizing ys j with
  | nil =>
    cases compared
    exact Ensures.pure_iff.mpr holds
  | cons x xs ih =>
    cases ys with
    | nil => cases compared
    | cons y ys =>
      obtain ⟨here, new'⟩ := drop_cons new
      obtain ⟨there, old'⟩ := drop_cons old
      rw [compareRows] at compared
      rw [List.length_cons, List.range'_succ, sameBytes, Ensures.bind_iff]
      refine byteAt_ensures rfl here ?_
      rw [Ensures.bind_iff]
      refine byteAt_ensures (by omega) there ?_
      split at compared
      · next differ =>
        cases compared
        rw [if_pos differ]
        exact Ensures.pure_iff.mpr holds
      · next same =>
        rw [if_neg same]
        exact ih new' old' compared

/-- The search finds a vtable of the same bytes, and nothing else. -/
theorem findVTable_ensures {vtable rest : List UInt8} (new : b.data = vtable ++ rest)
    (proper : IsVTable vtable) {offsets : List ℤ}
    (hold : ∀ offset ∈ offsets, ∃ (n : ℕ) (bs : List UInt8), offset = n ∧ IsVTable bs ∧
      Stored b.data n bs) :
    Ensures (findVTable vtable.length offsets) b fail fun found b' => b' = b ∧
      ∀ offset, found = some offset → offset ∈ offsets ∧ ∃ n : ℕ, offset = n ∧
        Stored b.data n vtable := by
  induction offsets with
  | nil => exact Ensures.pure_iff.mpr ⟨rfl, fun _ none => nomatch none⟩
  | cons offset offsets ih =>
    obtain ⟨n, bs, rfl, other, stored⟩ := hold offset List.mem_cons_self
    have inside : n ≤ b.cursor := stored.le_length
    have start : (b.cursor : ℤ) - n = ((b.cursor - n : ℕ) : ℤ) := by omega
    have here : vtable <+: b.data.drop 0 := ⟨rest, new.symm⟩
    have there : bs <+: b.data.drop (b.cursor - n + 0) :=
      stored.isPrefix
    unfold findVTable
    simp only [Ensures.bind_iff, Ensures.get_iff, start, List.range_eq_range']
    refine sameBytes_ensures here there (compareRows_vtables proper other) ?_
    by_cases same : vtable = bs
    · subst same
      rw [if_pos (decide_eq_true rfl), Ensures.pure_iff]
      refine ⟨rfl, fun found is => ?_⟩
      cases is
      exact ⟨List.mem_cons_self, n, rfl, stored⟩
    · rw [if_neg (by simpa using same)]
      refine (ih fun other member => hold other (List.mem_cons_of_mem _ member)).mono
        fun found b' spec => ?_
      obtain ⟨unchanged, is⟩ := spec
      refine ⟨unchanged, fun offset some => ?_⟩
      obtain ⟨member, at_⟩ := is offset some
      exact ⟨List.mem_cons_of_mem _ member, at_⟩

/-- What is stored of an entry of the vtable of a table at `loc`. -/
def relative (loc : ℕ) (entry : ℤ) : ℤ := if entry ≠ 0 then loc - entry else 0

def entryRow (loc : ℕ) (entry : ℤ) : List UInt8 := Scalar.store (Int16.ofInt (relative loc entry))

/-- The bytes of a vtable: its length, the length of the object and the entries. -/
def vtableRow (loc start : ℕ) (entries : List ℤ) : List UInt8 :=
  Scalar.store (Int16.ofInt ((entries.length + 2) * 2)) ++
    (Scalar.store (Int16.ofInt (loc - start)) ++ entries.flatMap (entryRow loc))

@[simp] theorem length_entryRow (loc : ℕ) (entry : ℤ) : (entryRow loc entry).length = 2 :=
  Scalar.length_store _

theorem length_entryRows (loc : ℕ) (entries : List ℤ) :
    (entries.flatMap (entryRow loc)).length = 2 * entries.length := by
  induction entries with
  | nil => rfl
  | cons entry entries ih =>
    rw [List.flatMap_cons, List.length_append, ih, length_entryRow, List.length_cons]
    omega

theorem length_vtableRow (loc start : ℕ) (entries : List ℤ) :
    (vtableRow loc start entries).length = 4 + 2 * entries.length := by
  rw [vtableRow, List.length_append, List.length_append, Scalar.length_store, Scalar.length_store,
    length_entryRows, ← Nat.add_assoc]
  rfl

theorem vtableRow_proper {loc start : ℕ} {entries : List ℤ}
    (few : 4 + 2 * entries.length < 2 ^ 15) : IsVTable (vtableRow loc start entries) := by
  have length := length_vtableRow loc start entries
  refine ⟨by omega, Scalar.store (Int16.ofInt (loc - start)) ++ entries.flatMap (entryRow loc), ?_⟩
  have number : (((vtableRow loc start entries).length : ℕ) : ℤ) = (entries.length + 2) * 2 := by
    omega
  rw [number]
  rfl

theorem int16_ensures {z : ℤ} (low : -2 ^ 15 ≤ z) (high : z < 2 ^ 15)
    {post : ℤ → FlatBuffersBuilder ι → Prop} (holds : post z b) :
    Ensures (int16 z) b fail post := by
  rw [int16, if_pos ⟨low, high⟩, Ensures.pure_iff]
  exact holds

@[simp] theorem push_push (b : FlatBuffersBuilder ι) (bs cs : List UInt8) :
    (b.push bs).push cs = b.push (cs ++ bs) := by
  simp [FlatBuffersBuilder.push]

/-- A half word at an even cursor is exactly two bytes. -/
theorem insert_half (aligned : WellAligned b) (place : 2 ∣ b.cursor) (unit : 2 ∣ b.minalign)
    (z : ℤ) : Ensures (insert (Int16.ofInt z)) b fail fun _ b' =>
      b' = b.push (Scalar.store (Int16.ofInt z)) :=
  insert_aligned aligned (by decide) place unit (Int16.ofInt z)

section Insert
variable {start : ℕ} {entry : ℤ}

/-- An entry is zero or lies within the object. -/
def EntryWithin (start loc : ℕ) (entry : ℤ) : Prop :=
  ∃ n : ℕ, entry = n ∧ (n = 0 ∨ start < n ∧ n ≤ loc)

theorem relativeEntry_ensures {loc : ℕ} (within : EntryWithin start loc entry)
    (small : loc < start + 2 ^ 15) (room : loc ≤ total) :
    Ensures (relativeEntry loc entry) b (Overflow total) fun off b' =>
      b' = b ∧ off = relative loc entry := by
  obtain ⟨n, rfl, zero | ⟨above, below⟩⟩ := within
  · subst zero
    exact Ensures.pure_iff.mpr ⟨rfl, rfl⟩
  · have nonzero : (n : ℤ) ≠ 0 := by omega
    rw [relativeEntry, if_pos nonzero, relative, if_pos nonzero, Ensures.bind_iff]
    refine int32_ensures room fun _ => ?_
    exact int16_ensures (by omega) (by omega) ⟨rfl, rfl⟩

theorem insertEntries_ensures {loc : ℕ} (aligned : WellAligned b) (place : 2 ∣ b.cursor)
    (unit : 2 ∣ b.minalign) {entries : List ℤ}
    (within : ∀ entry ∈ entries, EntryWithin start loc entry) (small : loc < start + 2 ^ 15)
    (room : loc ≤ total) :
    Ensures (entries.reverse.forM (insertEntry loc)) b (Overflow total) fun _ b' =>
      b' = b.push (entries.flatMap (entryRow loc)) := by
  suffices loop : Ensures (entries.reverse.forM (insertEntry loc)) b (Overflow total) fun _ b' =>
      b' = b.push (entries.reverse.reverse.flatMap (entryRow loc)) by
    rwa [List.reverse_reverse] at loop
  refine Ensures.forM (fun done b' => b' = b.push (done.reverse.flatMap (entryRow loc))) _ ?_ rfl
  intro before entry after b' whole is
  subst is
  have member : entry ∈ entries := by
    rw [← List.mem_reverse, whole]
    exact List.mem_append_right _ List.mem_cons_self
  refine Ensures.seq (relativeEntry_ensures (within entry member) small room)
    fun off b' spec => ?_
  obtain ⟨rfl, rfl⟩ := spec
  have even : 2 ∣ (b.push (before.reverse.flatMap (entryRow loc))).cursor := by
    rw [cursor_push, length_entryRows]
    exact Nat.dvd_add (Nat.dvd_mul_right _ _) place
  refine (insert_half (wrote_push aligned _).aligned even unit _).mono fun _ b' is => ?_
  rw [is, push_push, List.reverse_append, List.reverse_singleton, List.flatMap_append,
    List.flatMap_singleton]
  rfl

theorem insertVTable_ensures (aligned : WellAligned b) (place : 4 ∣ b.cursor)
    (unit : 4 ∣ b.minalign) (objectStart : b.objectStart = start)
    (within : ∀ entry ∈ b.currentVTable, EntryWithin start b.cursor entry)
    (few : 4 + 2 * b.currentVTable.length < 2 ^ 15) (started : start ≤ b.cursor)
    (small : b.cursor < start + 2 ^ 15) (room : b.cursor ≤ total) :
    Ensures (insertVTable b.cursor) b (Overflow total) fun _ b' =>
      b' = b.push (vtableRow b.cursor start b.currentVTable) := by
  have even : 2 ∣ b.cursor := (by decide : 2 ∣ 4).trans place
  have evenUnit : 2 ∣ b.minalign := (by decide : 2 ∣ 4).trans unit
  unfold insertVTable
  rw [Ensures.bind_iff, Ensures.get_iff]
  refine Ensures.seq (insertEntries_ensures aligned even evenUnit within small room)
    fun _ b₁ is => ?_
  subst is
  rw [Ensures.bind_iff]
  refine int32_ensures room fun _ => ?_
  rw [Ensures.bind_iff, objectStart]
  refine int16_ensures (by omega) (by omega) ?_
  have even₁ : 2 ∣ (b.push (b.currentVTable.flatMap (entryRow b.cursor))).cursor := by
    rw [cursor_push, length_entryRows]
    exact Nat.dvd_add (Nat.dvd_mul_right _ _) even
  refine Ensures.seq (insert_half (wrote_push aligned _).aligned even₁ evenUnit _) fun _ b₂ is => ?_
  subst is
  rw [Ensures.bind_iff]
  refine int16_ensures (by omega) (by omega) ?_
  have even₂ : 2 ∣ ((b.push (b.currentVTable.flatMap (entryRow b.cursor))).push
      (Scalar.store (Int16.ofInt (b.cursor - start)))).cursor := by
    rw [cursor_push, Scalar.length_store]
    exact Nat.dvd_add (dvd_refl 2) even₁
  refine (insert_half (wrote_push (wrote_push aligned _).aligned _).aligned even₂ evenUnit _).mono fun _ b₃ is => ?_
  rw [is, push_push, push_push]
  rfl

end Insert

/-- The builder after the search for a vtable of the bytes `row`, which has just been
written in front of `b`, and where the vtable it keeps lies. -/
inductive Shared (b : FlatBuffersBuilder ι) (row : List UInt8) : ℕ → FlatBuffersBuilder ι → Prop
  | earlier (vtable : ℕ) (known : (vtable : ℤ) ∈ b.vTableOffsets)
      (placed : (imageOf b).Placed vtable 2 row) : Shared b row vtable b
  | own (offsets : List ℤ)
      (known : ∀ offset ∈ offsets, offset ∈ b.vTableOffsets ∨ offset = (b.push row).cursor) :
      Shared b row (b.push row).cursor { b.push row with vTableOffsets := offsets }

theorem shareVTable_ensures {row : List UInt8} (hold : VTablesHold b) (proper : IsVTable row)
    (room : (b.push row).cursor ≤ total) :
    Ensures (shareVTable b.cursor) (b.push row) (Overflow total) fun off b' =>
      ∃ vtable : ℕ, off = vtable - b.cursor ∧ Shared b row vtable b' := by
  have reached := cursor_push b row
  have length : (b.push row).cursor - b.cursor = row.length := by omega
  have difference : ((row.length : ℕ) : ℤ) = (b.push row).cursor - b.cursor := by omega
  unfold shareVTable
  rw [Ensures.bind_iff, Ensures.get_iff, length]
  by_cases unique : (b.push row).options.uniqueVTables = true
  · rw [if_pos unique]
    have offsets : ∀ offset ∈ (b.push row).vTableOffsets, ∃ (n : ℕ) (bs : List UInt8), offset = n ∧
        IsVTable bs ∧ Stored (b.push row).data n bs := by
      intro offset member
      obtain ⟨n, bs, is, vtable, placed⟩ := hold offset member
      exact ⟨n, bs, is, vtable, placed.stored.extend (List.suffix_append _ _)⟩
    refine Ensures.seq (findVTable_ensures rfl proper offsets) fun found b₁ spec => ?_
    obtain ⟨rfl, at_⟩ := spec
    cases found with
    | none =>
      simp only [Ensures.bind_iff]
      refine int32_ensures room fun _ => ?_
      rw [Ensures.modify_iff, Ensures.pure_iff]
      refine ⟨(b.push row).cursor, difference, .own _ fun offset member => ?_⟩
      rcases List.mem_append.mp member with old | new
      · exact .inl old
      · exact .inr (List.mem_singleton.mp new)
    | some other =>
      obtain ⟨member, n, rfl, stored⟩ := at_ other rfl
      obtain ⟨m, bs, is, _, placed⟩ := hold n member
      obtain rfl : n = m := by omega
      have inside : n ≤ b.cursor := placed.stored.le_length
      simp only [Ensures.bind_iff, Ensures.modify_iff, Ensures.pure_iff]
      have dropped : { b.push row with data := (b.push row).data.drop row.length } = b := by
        rw [FlatBuffersBuilder.push, List.drop_left]
      rw [dropped]
      exact ⟨n, rfl, .earlier n member ⟨stored.shrink inside, placed.place, placed.total⟩⟩
  · rw [if_neg unique, Ensures.pure_iff]
    exact ⟨(b.push row).cursor, difference, .own _ fun offset known => .inl known⟩

end Arthius.Guarantees
