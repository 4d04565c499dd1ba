import Mathlib.Data.List.Nodup
import Mathlib.Data.List.Basic
import Mathlib.Algebra.GroupWithZero.Nat

/-!
# Lists read and written by key

`put` is the find-or-append update: the first entry with the key is replaced in
place, and an entry with a new key goes to the end. Read back through `get`, a
list written this way is a partial map (`get_put`), and sums over the entries
move by the difference of the two entries exchanged (`sum_put`).
-/
namespace Arthius.Lib.KeyedList

variable {α κ : Type*} [DecidableEq κ] (key : α → κ)

def get (k : κ) (l : List α) : Option α := l.find? fun y => key y = k

def put (x : α) (l : List α) : List α :=
  match l.findIdx? fun y => key y = key x with
  | some i => l.set i x
  | none => l ++ [x]

@[simp] theorem get_nil (k : κ) : get key k [] = none := rfl

theorem get_cons (k : κ) (y : α) (l : List α) :
    get key k (y :: l) = if key y = k then some y else get key k l := by
  by_cases h : key y = k <;> simp [get, h]

@[simp] theorem put_nil (x : α) : put key x [] = [x] := rfl

theorem put_cons (x y : α) (l : List α) :
    put key x (y :: l) = if key y = key x then x :: l else y :: put key x l := by
  by_cases h : key y = key x
  · simp [put, List.findIdx?_cons, h]
  · simp only [put, List.findIdx?_cons, h, decide_false, Bool.false_eq_true, if_false]
    cases l.findIdx? fun z => key z = key x <;> simp

/-- The list refines a partial map: `put` is the update of that map at one key. -/
theorem get_put (x : α) (k : κ) (l : List α) :
    get key k (put key x l) = if k = key x then some x else get key k l := by
  induction l with
  | nil => simp only [put_nil, get_cons, get_nil, eq_comm]
  | cons y l ih =>
    rw [put_cons]
    by_cases hy : key y = key x
    · rw [if_pos hy, get_cons, get_cons]
      by_cases hk : k = key x
      · simp [hk]
      · rw [if_neg (Ne.symm hk), if_neg hk, if_neg (fun same => hk (same.symm.trans hy))]
    · rw [if_neg hy, get_cons, ih, get_cons]
      by_cases hk : k = key x
      · subst hk; simp [hy]
      · simp [hk]

@[simp] theorem get_put_self (x : α) (l : List α) : get key (key x) (put key x l) = some x := by
  rw [get_put, if_pos rfl]

theorem get_put_other {x : α} {k : κ} {l : List α} (other : k ≠ key x) :
    get key k (put key x l) = get key k l := by rw [get_put, if_neg other]

/-- Writing the entry that is there changes nothing, and nothing else does. -/
theorem put_eq_self_iff (x : α) (l : List α) : put key x l = l ↔ get key (key x) l = some x := by
  induction l with
  | nil => simp
  | cons y l ih =>
    rw [put_cons, get_cons]
    by_cases same : key y = key x
    · simp [same, eq_comm]
    · simp [same, ih]

theorem mem_put_self (x : α) (l : List α) : x ∈ put key x l :=
  List.mem_of_find?_eq_some (get_put_self key x l)

theorem mem_of_mem_put {x y : α} {l : List α} (member : y ∈ put key x l) : y = x ∨ y ∈ l := by
  unfold put at member
  split at member
  · exact (List.mem_or_eq_of_mem_set member).symm
  · simpa [or_comm] using member

/-- `put` takes out at most an entry with the key of the new one. -/
theorem mem_put_or {y : α} {l : List α} (x : α) (member : y ∈ l) : y ∈ put key x l ∨ key y = key x := by
  induction l with
  | nil => cases member
  | cons z l ih =>
    rw [put_cons]
    split
    · next same =>
      rcases List.mem_cons.mp member with rfl | later
      · exact .inr same
      · exact .inl (List.mem_cons_of_mem _ later)
    · rcases List.mem_cons.mp member with rfl | later
      · exact .inl List.mem_cons_self
      · exact (ih later).imp_left (List.mem_cons_of_mem _)

/-- With distinct keys, `put` keeps the entries with other keys. -/
theorem mem_put {x y : α} {l : List α} (distinct : (l.map key).Nodup) :
    y ∈ put key x l ↔ y = x ∨ y ∈ l ∧ key y ≠ key x := by
  induction l with
  | nil => simp
  | cons z l ih =>
    obtain ⟨fresh, rest⟩ := List.nodup_cons.mp distinct
    rw [put_cons]
    split
    · next same =>
      have others : ∀ w ∈ l, key w ≠ key x := by
        intro w member equal
        exact fresh (List.mem_map.mpr ⟨w, member, equal.trans same.symm⟩)
      simp only [List.mem_cons]
      constructor
      · intro member
        rcases member with new | old
        · exact .inl new
        · exact .inr ⟨.inr old, others y old⟩
      · intro member
        rcases member with new | ⟨rfl | old, differs⟩
        · exact .inl new
        · exact absurd same differs
        · exact .inr old
    · next differs =>
      simp only [List.mem_cons, ih rest]
      constructor
      · intro member
        rcases member with rfl | new | ⟨old, other⟩
        · exact .inr ⟨.inl rfl, differs⟩
        · exact .inl new
        · exact .inr ⟨.inr old, other⟩
      · intro member
        rcases member with new | ⟨first | old, other⟩
        · exact .inr (.inl new)
        · exact .inl first
        · exact .inr (.inr ⟨old, other⟩)

theorem keys_put (x : α) (l : List α) :
    (put key x l).map key =
      if key x ∈ l.map key then l.map key else l.map key ++ [key x] := by
  induction l with
  | nil => simp
  | cons y l ih =>
    rw [put_cons]
    by_cases hy : key y = key x
    · simp [hy]
    · have hx : key x ≠ key y := Ne.symm hy
      simp only [hy, if_false, List.map_cons, ih, List.mem_cons, hx, false_or]
      split <;> simp

theorem mem_keys_put {x : α} {k : κ} {l : List α} :
    k ∈ (put key x l).map key ↔ k = key x ∨ k ∈ l.map key := by
  rw [keys_put]
  split
  · next present =>
    constructor
    · exact .inr
    · rintro (rfl | member)
      · exact present
      · exact member
  · rw [List.mem_append, List.mem_singleton, or_comm]

theorem nodup_put (x : α) {l : List α} (distinct : (l.map key).Nodup) :
    ((put key x l).map key).Nodup := by
  rw [keys_put]
  split
  · exact distinct
  · next fresh => exact List.nodup_append.mpr ⟨distinct, by simp, by
      rintro k hk _ hx rfl
      exact fresh (List.mem_singleton.mp hx ▸ hk)⟩

theorem get_isSome {k : κ} {l : List α} : (get key k l).isSome ↔ ∃ y ∈ l, key y = k := by
  simp [get]

theorem get_of_mem {x : α} {l : List α} (distinct : (l.map key).Nodup) (member : x ∈ l) :
    get key (key x) l = some x := by
  induction l with
  | nil => cases member
  | cons y l ih =>
    obtain ⟨fresh, rest⟩ := List.nodup_cons.mp distinct
    rw [get_cons]
    rcases List.mem_cons.mp member with rfl | later
    · rw [if_pos rfl]
    · have differs : key y ≠ key x := fun same => fresh (same ▸ List.mem_map_of_mem later)
      rw [if_neg differs, ih rest later]

theorem get_eq_none {k : κ} {l : List α} (absent : k ∉ l.map key) : get key k l = none := by
  rw [← Option.not_isSome_iff_eq_none, get_isSome]
  rintro ⟨y, member, rfl⟩
  exact absent (List.mem_map_of_mem member)

/-- A sum over the entries changes by the new entry less the replaced one. -/
theorem sum_put (f : α → Nat) (x : α) (l : List α) :
    ((put key x l).map f).sum + (get key (key x) l).elim 0 f = (l.map f).sum + f x := by
  induction l with
  | nil => simp
  | cons y l ih =>
    rw [put_cons, get_cons]
    by_cases hy : key y = key x
    · simp only [hy, if_true, List.map_cons, List.sum_cons, Option.elim_some]
      omega
    · simp only [hy, if_false, List.map_cons, List.sum_cons]
      omega

end Arthius.Lib.KeyedList
