import Mathlib.Data.List.Basic

/-!
# File paths

A path is the list of its names from the root. A text is read as a path by
cutting it at the slashes: an empty name and a single dot mean nothing, two dots
lead to the parent, and any other name leads one level down. Only the part of a
text up to its last slash can lead anywhere but straight down (`resolve_eq`).
-/
namespace Arthius.Lib.FilePath

variable {χ : Type*} [DecidableEq χ] (slash dot : χ)

/-- One name further; the root is its own parent. -/
def descend (dir : List (List χ)) (name : List χ) : List (List χ) :=
  if name = [] ∨ name = [dot] then dir
  else if name = [dot, dot] then dir.dropLast
  else dir ++ [name]

/-- Where a text leads from a directory. -/
def resolve (dir : List (List χ)) (text : List χ) : List (List χ) :=
  (text.splitOn slash).foldl (descend dot) dir

/-- A text up to and with its last slash. -/
def directory (text : List χ) : List χ := (text.reverse.dropWhile (· ≠ slash)).reverse

/-- A text from its last slash on. -/
def leaf (text : List χ) : List χ := (text.reverse.takeWhile (· ≠ slash)).reverse

/-- What follows the last dot of a name, unless that dot begins the name. -/
def pathExtension (name : List χ) : List χ :=
  if (name.reverse.dropWhile (· ≠ dot)).length ≤ 1 then []
  else (name.reverse.takeWhile (· ≠ dot)).reverse

theorem directory_append_leaf (text : List χ) : directory slash text ++ leaf slash text = text := by
  unfold directory leaf
  rw [← List.reverse_append, List.takeWhile_append_dropWhile, List.reverse_reverse]

theorem slash_notMem_leaf (text : List χ) : slash ∉ leaf slash text := by
  intro member
  have kept := List.all_eq_true.mp List.all_takeWhile slash (List.mem_reverse.mp member)
  simp at kept

/-- The directory part is empty or ends in a slash. -/
theorem directory_cases (text : List χ) :
    directory slash text = [] ∨ ∃ front, directory slash text = front ++ [slash] := by
  unfold directory
  cases rest : text.reverse.dropWhile (· ≠ slash) with
  | nil => exact .inl rfl
  | cons c back =>
    have stops : c = slash := by
      have := List.head?_dropWhile_not (· ≠ slash) text.reverse
      rw [rest] at this
      simpa using this
    exact .inr ⟨back.reverse, by simp [stops]⟩

theorem directory_of_notMem {text : List χ} (absent : slash ∉ text) : directory slash text = [] := by
  rcases directory_cases slash text with empty | ⟨front, ends⟩
  · exact empty
  · refine absurd ?_ absent
    rw [← directory_append_leaf slash text, ends]
    simp

theorem leaf_of_notMem {text : List χ} (absent : slash ∉ text) : leaf slash text = text := by
  have whole := directory_append_leaf slash text
  rwa [directory_of_notMem slash absent, List.nil_append] at whole

/-- A suffix without a slash belongs to the leaf. -/
theorem directory_append {text tail : List χ} (absent : slash ∉ tail) :
    directory slash (text ++ tail) = directory slash text := by
  unfold directory
  rw [List.reverse_append, List.dropWhile_append_of_pos]
  intro c member
  simp only [ne_eq, decide_not, Bool.not_eq_eq_eq_not, Bool.not_true, decide_eq_false_iff_not]
  rintro rfl
  exact absent (List.mem_reverse.mp member)

theorem leaf_append {text tail : List χ} (absent : slash ∉ tail) :
    leaf slash (text ++ tail) = leaf slash text ++ tail := by
  have whole := directory_append_leaf slash (text ++ tail)
  rw [directory_append slash absent] at whole
  have parts := directory_append_leaf slash text
  conv at whole => rhs; rw [← parts]
  rw [List.append_assoc] at whole
  exact List.append_cancel_left whole

theorem resolve_append (dir : List (List χ)) (front back : List χ) :
    resolve slash dot dir (front ++ slash :: back) =
      resolve slash dot (resolve slash dot dir front) back := by
  simp [resolve, List.splitOn_append_cons_self]

theorem resolve_name (dir : List (List χ)) {name : List χ} (absent : slash ∉ name) :
    resolve slash dot dir name = descend dot dir name := by
  simp [resolve, List.splitOn_eq_singleton absent]

@[simp] theorem resolve_nil (dir : List (List χ)) : resolve slash dot dir [] = dir := by
  simp [resolve, descend]

/-- A text leads where its directory part does, and from there to its leaf. -/
theorem resolve_eq (dir : List (List χ)) (text : List χ) :
    resolve slash dot dir text =
      descend dot (resolve slash dot dir (directory slash text)) (leaf slash text) := by
  have absent := slash_notMem_leaf slash text
  conv_lhs => rw [← directory_append_leaf slash text]
  rcases directory_cases slash text with empty | ⟨front, ends⟩
  · rw [empty, List.nil_append, resolve_nil, resolve_name slash dot dir absent]
  · have same : resolve slash dot dir (front ++ [slash]) = resolve slash dot dir front := by
      rw [resolve_append, resolve_nil]
    rw [ends, same, List.append_assoc, List.singleton_append, resolve_append,
      resolve_name slash dot _ absent]

theorem slash_notMem_of_mem_splitOn {text name : List χ} (member : name ∈ text.splitOn slash) :
    slash ∉ name := by
  induction text generalizing name with
  | nil => simp_all
  | cons c rest ih =>
    rw [List.splitOn_cons_eq_if_modifyHead] at member
    split at member
    · rcases List.mem_cons.mp member with rfl | later
      · simp
      · exact ih later
    · next other =>
      cases first : rest.splitOn slash with
      | nil => exact absurd first (List.splitOn_ne_nil slash rest)
      | cons head tail =>
        rw [first] at ih member
        rcases List.mem_cons.mp member with rfl | later
        · have inHead := ih List.mem_cons_self
          simp only [beq_iff_eq] at other
          simp [inHead, Ne.symm other]
        · exact ih (List.mem_cons_of_mem head later)

/-- Every name that a text adds is free of slashes. -/
theorem slash_notMem_of_mem_resolve {dir : List (List χ)} (proper : ∀ name ∈ dir, slash ∉ name)
    (text : List χ) : ∀ name ∈ resolve slash dot dir text, slash ∉ name := by
  have down : ∀ names : List (List χ), (∀ name ∈ names, slash ∉ name) →
      ∀ dir : List (List χ), (∀ name ∈ dir, slash ∉ name) →
        ∀ name ∈ names.foldl (descend dot) dir, slash ∉ name := by
    intro names
    induction names with
    | nil => exact fun _ dir proper => proper
    | cons first rest ih =>
      intro free dir proper
      apply ih fun name member => free name (List.mem_cons_of_mem first member)
      intro name member
      unfold descend at member
      split at member
      · exact proper name member
      · split at member
        · exact proper name (List.dropLast_subset dir member)
        · rcases List.mem_append.mp member with old | new
          · exact proper name old
          · exact List.mem_singleton.mp new ▸ free first List.mem_cons_self
  exact down (text.splitOn slash) (fun name => slash_notMem_of_mem_splitOn slash) dir proper

/-- A name that ends in more than dots leads straight down. -/
theorem descend_of_mem (dir : List (List χ)) {name : List χ} {c : χ} (member : c ∈ name)
    (other : c ≠ dot) : descend dot dir name = dir ++ [name] := by
  have notEmpty : name ≠ [] := List.ne_nil_of_mem member
  have notDot : name ≠ [dot] := by
    rintro rfl
    exact other (List.mem_singleton.mp member)
  have notDots : name ≠ [dot, dot] := by
    rintro rfl
    simp only [List.mem_cons, List.not_mem_nil, or_false, or_self] at member
    exact other member
  simp [descend, notEmpty, notDot, notDots]

theorem mem_of_mem_pathExtension {name : List χ} {c : χ} (member : c ∈ pathExtension dot name) :
    c ∈ name := by
  unfold pathExtension at member
  split at member
  · cases member
  · exact List.mem_reverse.mp (List.takeWhile_subset _ (List.mem_reverse.mp member))

theorem pathExtension_append {stem ext : List χ} (proper : stem ≠ []) (absent : dot ∉ ext) :
    pathExtension dot (stem ++ dot :: ext) = ext := by
  have inside : ∀ c ∈ ext.reverse, decide (c ≠ dot) = true := by
    intro c member
    simp only [ne_eq, decide_not, Bool.not_eq_eq_eq_not, Bool.not_true, decide_eq_false_iff_not]
    rintro rfl
    exact absent (List.mem_reverse.mp member)
  have turned : (stem ++ dot :: ext).reverse = ext.reverse ++ dot :: stem.reverse := by simp
  have back : ((stem ++ dot :: ext).reverse.dropWhile (· ≠ dot)).length = stem.length + 1 := by
    rw [turned, List.dropWhile_append_of_pos inside]
    simp
  have front : (stem ++ dot :: ext).reverse.takeWhile (· ≠ dot) = ext.reverse := by
    rw [turned, List.takeWhile_append_of_pos inside]
    simp
  have long := List.length_pos_of_ne_nil proper
  rw [pathExtension, back, front, if_neg (by omega), List.reverse_reverse]

end Arthius.Lib.FilePath
