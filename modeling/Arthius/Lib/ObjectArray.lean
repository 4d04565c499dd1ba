import Mathlib.Data.List.Nodup
import Mathlib.Logic.Function.Basic
import Mathlib.Tactic.Common

/-!
# Arrays of objects and displays of them

An array lists references to objects; a change to an object is seen by everybody
who holds a reference. A display has elements that each show one object. `refile`
changes an object, and looks it up in the array by its value.
-/
namespace Arthius.Lib

structure Objects (α : Type*) where
  value : ℕ → α
  /-- The objects numbered below exist. -/
  created : ℕ
  array : List ℕ

namespace Objects

variable {α ε : Type*} (o : Objects α)

/-- A new object, not in the array yet; its number is `o.created`. -/
def create (a : α) : Objects α :=
  { o with value := Function.update o.value o.created a, created := o.created + 1 }

def append (own : ℕ) : Objects α := { o with array := o.array ++ [own] }

section Refile
variable [DecidableEq α] (own : ℕ) (change : α → α)

/-- The first entry with the value of the object is removed; the object is
changed and goes to the end. Nothing happens if there is no such entry. -/
def refile : Objects α :=
  match o.array.findIdx? fun entry => o.value entry = o.value own with
  | some arrIndex =>
    { o with
      value := Function.update o.value own (change (o.value own))
      array := o.array.eraseIdx arrIndex ++ [own] }
  | none => o

/-- The first entry with the value of the object is the object. -/
def FoundFirst : Prop := (o.array.find? fun entry => o.value entry = o.value own) = some own

variable {o own}

theorem refile_created : (o.refile own change).created = o.created := by
  unfold refile
  split <;> rfl

/-- What `refile` does with an object of the array. -/
theorem refile_cases (held : own ∈ o.array) : ∃ (arrIndex : ℕ) (below : arrIndex < o.array.length),
    (o.FoundFirst own ↔ o.array[arrIndex] = own) ∧
    o.refile own change =
      { o with
        value := Function.update o.value own (change (o.value own))
        array := o.array.eraseIdx arrIndex ++ [own] } := by
  have present : (o.array.findIdx? fun entry => o.value entry = o.value own).isSome := by
    rw [List.findIdx?_isSome, List.any_eq_true]
    exact ⟨own, held, by simp⟩
  obtain ⟨arrIndex, found⟩ := Option.isSome_iff_exists.mp present
  obtain ⟨below, same, earlier⟩ := List.findIdx?_eq_some_iff_getElem.mp found
  have first : (o.array.find? fun entry => o.value entry = o.value own) = some o.array[arrIndex] := by
    refine List.find?_eq_some_iff_getElem.mpr ⟨same, arrIndex, below, rfl, fun j before => ?_⟩
    simpa using earlier j before
  refine ⟨arrIndex, below, ?_, ?_⟩
  · rw [FoundFirst, first, Option.some.injEq]
  · rw [refile, found]

theorem refile_array_perm (held : own ∈ o.array) (first : o.FoundFirst own) :
    (o.refile own change).array.Perm o.array := by
  obtain ⟨arrIndex, below, isOwn, is⟩ := refile_cases change held
  rw [is]
  have entry := isOwn.mp first
  have split : o.array = o.array.take arrIndex ++ own :: o.array.drop (arrIndex + 1) := by
    rw [← entry, List.getElem_cons_drop, List.take_append_drop]
  have erased : o.array.eraseIdx arrIndex = o.array.take arrIndex ++ o.array.drop (arrIndex + 1) :=
    List.eraseIdx_eq_take_drop_succ ..
  dsimp only
  rw [erased]
  nth_rewrite 3 [split]
  exact (List.perm_append_singleton _ _).trans List.perm_middle.symm

theorem refile_value (held : own ∈ o.array) :
    (o.refile own change).value = Function.update o.value own (change (o.value own)) := by
  obtain ⟨_, _, _, is⟩ := refile_cases change held
  rw [is]

/-- If another entry is found, it is dropped, and the object is listed twice. -/
theorem refile_not_nodup (held : own ∈ o.array) (other : ¬ o.FoundFirst own) :
    ¬ (o.refile own change).array.Nodup := by
  obtain ⟨arrIndex, below, isOwn, is⟩ := refile_cases change held
  have stays : own ∈ o.array.eraseIdx arrIndex := by
    obtain ⟨i, inside, there⟩ := List.mem_iff_getElem.mp held
    refine List.mem_eraseIdx_iff_getElem.mpr ⟨i, inside, fun same => ?_, there⟩
    subst same
    exact other (isOwn.mpr there)
  rw [is]
  intro distinct
  exact (List.nodup_append.mp distinct).2.2 own stays own (List.mem_singleton_self own) rfl

end Refile

/-- The display shows the objects of the array: each of them in one element,
which shows its value. -/
structure Mirrors (ref : ε → ℕ) (shown : α → ε → Prop) (o : Objects α) (elements : List ε) : Prop where
  known : ∀ own ∈ o.array, own < o.created
  distinct : o.array.Nodup
  once : o.array.Perm (elements.map ref)
  faithful : ∀ e ∈ elements, shown (o.value (ref e)) e

namespace Mirrors
variable {o} {ref : ε → ℕ} {shown : α → ε → Prop} {elements : List ε} {i : ℕ} {e e' : ε}

theorem held (mirrors : Mirrors ref shown o elements) (member : e ∈ elements) : ref e ∈ o.array :=
  mirrors.once.mem_iff.mpr (List.mem_map_of_mem member)

/-- A new object, with a new element that shows it. -/
theorem add (mirrors : Mirrors ref shown o elements) {a : α} (own : ref e = o.created) (shows_ : shown a e) :
    Mirrors ref shown ((o.create a).append o.created) (elements ++ [e]) := by
  have fresh : ∀ own ∈ o.array, own ≠ o.created := fun own member => Nat.ne_of_lt (mirrors.known own member)
  refine ⟨fun own member => ?_, ?_, ?_, fun e' member => ?_⟩
  · rcases List.mem_append.mp member with old | new
    · exact Nat.lt_succ_of_lt (mirrors.known own old)
    · rw [List.mem_singleton.mp new]
      exact Nat.lt_succ_self o.created
  · refine List.nodup_append.mpr ⟨mirrors.distinct, List.nodup_singleton _, fun own member new is => ?_⟩
    rw [List.mem_singleton.mp is]
    exact fresh own member
  · rw [List.map_append, List.map_singleton, own]
    exact mirrors.once.append_right _
  · rcases List.mem_append.mp member with old | new
    · have value : ((o.create a).append o.created).value (ref e') = o.value (ref e') :=
        Function.update_of_ne (fresh _ (mirrors.held old)) _ _
      rw [value]
      exact mirrors.faithful e' old
    · obtain rfl := List.mem_singleton.mp new
      have value : ((o.create a).append o.created).value (ref e') = a := by
        rw [own]
        exact Function.update_self ..
      rw [value]
      exact shows_

theorem map_ref_set (at_ : elements[i]? = some e) (own : ref e' = ref e) :
    (elements.set i e').map ref = elements.map ref := by
  obtain ⟨inside, is⟩ := List.getElem?_eq_some_iff.mp at_
  have below : i < (elements.map ref).length := by
    rw [List.length_map]
    exact inside
  have entry : (elements.map ref)[i] = ref e' := by
    rw [List.getElem_map, is, own]
  rw [List.map_set, ← entry, List.set_getElem_self]

/-- Elements at different places show different objects. -/
theorem ref_ne (mirrors : Mirrors ref shown o elements) {j : ℕ} (at_ : elements[i]? = some e)
    (atOther : elements[j]? = some e') (different : i ≠ j) : ref e' ≠ ref e := by
  intro same
  have distinct : (elements.map ref).Nodup := mirrors.once.nodup_iff.mp mirrors.distinct
  have below : i < (elements.map ref).length := by
    rw [List.length_map]
    exact (List.getElem?_eq_some_iff.mp at_).1
  refine different ((List.getElem?_inj below distinct).mp ?_)
  rw [List.getElem?_map, List.getElem?_map, at_, atOther, Option.map_some, Option.map_some, same]

/-- One element changes without a change of what it shows. -/
theorem touch (mirrors : Mirrors ref shown o elements) (at_ : elements[i]? = some e) (own : ref e' = ref e)
    (same : shown (o.value (ref e)) e → shown (o.value (ref e)) e') :
    Mirrors ref shown o (elements.set i e') := by
  refine ⟨mirrors.known, mirrors.distinct, ?_, fun e₂ member => ?_⟩
  · rw [map_ref_set at_ own]
    exact mirrors.once
  · rcases List.mem_or_eq_of_mem_set member with old | rfl
    · exact mirrors.faithful e₂ old
    · rw [own]
      exact same (mirrors.faithful e (List.mem_of_getElem? at_))

/-- One element changes and its object, found first, is refiled. -/
theorem refile [DecidableEq α] (mirrors : Mirrors ref shown o elements) (at_ : elements[i]? = some e)
    (own : ref e' = ref e) {change : α → α} (shows_ : shown (change (o.value (ref e))) e')
    (first : o.FoundFirst (ref e)) :
    Mirrors ref shown (o.refile (ref e) change) (elements.set i e') := by
  have there := mirrors.held (List.mem_of_getElem? at_)
  have perm := refile_array_perm change there first
  refine ⟨fun entry member => ?_, ?_, ?_, fun e₂ member => ?_⟩
  · rw [refile_created]
    exact mirrors.known entry (perm.mem_iff.mp member)
  · exact perm.nodup_iff.mpr mirrors.distinct
  · rw [map_ref_set at_ own]
    exact perm.trans mirrors.once
  · rw [refile_value change there]
    obtain ⟨j, atSet⟩ := List.mem_iff_getElem?.mp member
    rw [List.getElem?_set] at atSet
    split at atSet
    · next here =>
      split at atSet
      · obtain rfl := Option.some.inj atSet
        rw [own, Function.update_self]
        exact shows_
      · cases atSet
    · next different =>
      rw [Function.update_of_ne (mirrors.ref_ne at_ atSet different)]
      exact mirrors.faithful e₂ (List.mem_of_getElem? atSet)

/-- One element changes and its object is refiled: the display still shows the
array exactly if the object is found first. -/
theorem refile_iff [DecidableEq α] (mirrors : Mirrors ref shown o elements) (at_ : elements[i]? = some e)
    (own : ref e' = ref e) {change : α → α} (shows_ : shown (change (o.value (ref e))) e') :
    Mirrors ref shown (o.refile (ref e) change) (elements.set i e') ↔ o.FoundFirst (ref e) := by
  constructor
  · intro mirrors'
    by_contra other
    have held := mirrors.held (List.mem_of_getElem? at_)
    exact refile_not_nodup change held other mirrors'.distinct
  · exact mirrors.refile at_ own shows_

end Mirrors
end Objects
end Arthius.Lib
