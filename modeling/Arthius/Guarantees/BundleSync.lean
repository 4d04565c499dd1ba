import Arthius.Source.BundleCopy

/-!
# Bundled levels and what an interrupted run leaves behind

A changed level goes through a temporary file of its name. If one is there
already the copy onto it fails without notice, and the old content of the
temporary file replaces the level.
-/
namespace Arthius.Guarantees.BundleSync
open Arthius.Lib Arthius.Source.BundleCopy

section Loop
variable {Data : Type} [DecidableEq Data] {fileManagerIs : FileManager} {tempPath pathDestDocs : String}
variable {docs temporaryDirectory : Directory Data}

/-- What the folder holds under the name of a bundle file afterwards. -/
def replaced (docs temporaryDirectory : Directory Data) (filename : String) (bundleFile : Data) : Data :=
  match docs filename with
  | none => bundleFile
  | some docFile => if docFile = bundleFile then bundleFile else (temporaryDirectory filename).getD bundleFile

/-- One round changes what is under the name of its file, and nothing else. -/
theorem copyFile_ok {filename : String} {bundleFile : Data} {copied : Directory Data × Directory Data}
    (done : copyFile fileManagerIs tempPath pathDestDocs filename bundleFile docs temporaryDirectory = .ok copied) :
    copied.1 = Function.update docs filename (some (replaced docs temporaryDirectory filename bundleFile)) ∧
      ∀ other, other ≠ filename → copied.2 other = temporaryDirectory other := by
  unfold copyFile at done
  unfold replaced
  cases stored : docs filename with
  | none =>
    simp only [stored, copyItem, Option.isSome_none, Bool.false_eq_true, if_false, Except.ok.injEq] at done
    subst done
    exact ⟨rfl, fun _ _ => rfl⟩
  | some docFile =>
    simp only [stored] at done ⊢
    by_cases same : docFile = bundleFile
    · rw [if_pos same, Except.ok.injEq] at done
      subst done same
      rw [if_pos rfl, ← stored, Function.update_eq_self]
      exact ⟨rfl, fun _ _ => rfl⟩
    · rw [if_neg same] at done
      unfold replaceItemAt at done
      split_ifs at done
      cases done
      rw [if_neg same]
      constructor
      · cases left : temporaryDirectory filename <;> simp [copyItem, left]
      · intro other differs
        dsimp only
        rw [Function.update_of_ne differs, copyItem]
        split
        · rfl
        · exact Function.update_of_ne differs _ _

/-- The loop comes to each name once. -/
theorem copyLoop_ok {files : List (String × Data)} {copied : Directory Data × Directory Data}
    (distinct : (files.map Prod.fst).Nodup)
    (done : copyLoop fileManagerIs tempPath pathDestDocs files docs temporaryDirectory = .ok copied) :
    (∀ file ∈ files, copied.1 file.1 = some (replaced docs temporaryDirectory file.1 file.2)) ∧
      ∀ filename ∉ files.map Prod.fst, copied.1 filename = docs filename := by
  induction files generalizing docs temporaryDirectory with
  | nil =>
    cases done
    exact ⟨fun _ member => (List.not_mem_nil member).elim, fun _ _ => rfl⟩
  | cons file rest ih =>
    obtain ⟨fresh, distinctRest⟩ := List.nodup_cons.mp distinct
    unfold copyLoop at done
    cases first : copyFile fileManagerIs tempPath pathDestDocs file.1 file.2 docs temporaryDirectory with
    | error failure =>
      rw [first] at done
      cases done
    | ok once =>
      rw [first] at done
      obtain ⟨docsIs, tempKept⟩ := copyFile_ok first
      obtain ⟨own, others⟩ := ih distinctRest done
      constructor
      · intro other member
        rcases List.mem_cons.mp member with rfl | later
        · rw [others _ fresh, docsIs, Function.update_self]
        · have differs : other.1 ≠ file.1 := by
            intro same
            exact fresh (same ▸ List.mem_map_of_mem later)
          rw [own other later, docsIs]
          unfold replaced
          rw [Function.update_of_ne differs, tempKept other.1 differs]
      · intro filename absent
        rw [List.map_cons, List.mem_cons, not_or] at absent
        rw [others filename absent.2, docsIs, Function.update_of_ne absent.1]

end Loop

section Sync
variable {Data : Type} [DecidableEq Data]

/-- What the campaign folder holds under a name, if it is there. -/
def fileAt (storage : Storage Data) (filename : String) : Option Data := storage.docs.bind (· filename)

/-- The folder has every bundle file as it is in the bundle, and the others as they were. -/
structure Synchronised (bundle : Bundle Data) (before after : Storage Data) : Prop where
  copied : ∀ file ∈ bundle.files, fileAt after file.1 = some file.2
  others : ∀ filename ∉ bundle.files.map Prod.fst, fileAt after filename = fileAt before filename

/-- A level that is to be replaced has no other content in the temporary directory. -/
def NothingStale (bundle : Bundle Data) (before : Storage Data) : Prop :=
  ∀ file ∈ bundle.files, ∀ docFile, fileAt before file.1 = some docFile → docFile ≠ file.2 →
    ∀ left, before.temporaryDirectory file.1 = some left → left = file.2

omit [DecidableEq Data] in
theorem directory_of_mem (bundle : Bundle Data) {file : String × Data} (member : file ∈ bundle.files) :
    bundle.directory file.1 = some file.2 := by
  rw [Bundle.directory, KeyedList.get_of_mem Prod.fst bundle.distinct member, Option.map_some]

theorem replaced_eq_iff {docs temporaryDirectory : Directory Data} {filename : String} {bundleFile : Data} :
    replaced docs temporaryDirectory filename bundleFile = bundleFile ↔
      ∀ docFile, docs filename = some docFile → docFile ≠ bundleFile →
        ∀ left, temporaryDirectory filename = some left → left = bundleFile := by
  unfold replaced
  cases docs filename with
  | none => simp
  | some docFile =>
    by_cases same : docFile = bundleFile
    · simp [same]
    · cases temporaryDirectory filename <;> simp [same]

/-- After a run without a failure the folder is in step with the bundle exactly
if nothing stale was in the way. -/
theorem copyFiles_synchronised_iff (fileManagerIs : FileManager) (tempPath pathDestDocs : String)
    (bundle : Bundle Data) (before after : Storage Data)
    (returned : copyFiles fileManagerIs tempPath pathDestDocs (some bundle) before = .ok after) :
    Synchronised bundle before after ↔ NothingStale bundle before := by
  unfold copyFiles at returned
  cases loop : copyLoop fileManagerIs tempPath pathDestDocs bundle.files
      (before.docs.getD bundle.directory) before.temporaryDirectory with
  | error failure =>
    simp only [loop] at returned
    cases returned
  | ok copied =>
    simp only [loop] at returned
    cases returned
    obtain ⟨own, others⟩ := copyLoop_ok bundle.distinct loop
    have copied_iff : (∀ file ∈ bundle.files, copied.1 file.1 = some file.2) ↔ NothingStale bundle before := by
      refine forall_congr' fun file => forall_congr' fun member => ?_
      rw [own file member, Option.some.injEq, replaced_eq_iff]
      cases folder : before.docs with
      | some docs => simp [fileAt, folder]
      | none => simp [fileAt, folder, directory_of_mem bundle member]
    constructor
    · exact fun sync => copied_iff.mp sync.copied
    · intro fresh
      refine ⟨copied_iff.mpr fresh, fun filename absent => (others filename absent).trans ?_⟩
      cases folder : before.docs with
      | some docs => simp [fileAt, folder]
      | none => simp [fileAt, folder, Bundle.directory, KeyedList.get_eq_none Prod.fst absent]

/-- Everything works. -/
def reliable : FileManager := ⟨fun _ => true, fun _ => true⟩

/-- A bundle with one level, whose content is 1. -/
def oneLevel : Bundle ℕ := ⟨[("1.cgws", 1)], List.nodup_singleton _⟩

def emptyDirectory : Directory ℕ := fun _ => none

/-- The folder has the level as it was before an update, and a file of the user's. -/
def outdated : Storage ℕ := ⟨some (Function.update (Function.update emptyDirectory "1.cgws" (some 3))
  "notes.txt" (some 5)), emptyDirectory⟩

/-- The level is replaced, through a temporary directory with nothing in it. -/
theorem outdated_synchronised : ∃ after,
    copyFiles reliable "/tmp" "/docs" (some oneLevel) outdated = .ok after ∧
      fileAt outdated "1.cgws" = some 3 ∧ fileAt after "1.cgws" = some 1 ∧
      Synchronised oneLevel outdated after := by
  refine ⟨_, rfl, rfl, rfl, (copyFiles_synchronised_iff reliable "/tmp" "/docs" oneLevel outdated _ rfl).mpr ?_⟩
  intro file _ docFile _ _ left inTheWay
  cases inTheWay

/-- The level was changed before, and the run that was to replace it left its
copy in the temporary directory; now the level comes with content 1. -/
def interrupted : Storage ℕ := ⟨some (Function.update emptyDirectory "1.cgws" (some 3)),
  Function.update emptyDirectory "1.cgws" (some 2)⟩

/-- The stale copy is moved over the level. -/
theorem interrupted_stale : ∃ after,
    copyFiles reliable "/tmp" "/docs" (some oneLevel) interrupted = .ok after ∧
      fileAt after "1.cgws" = some 2 ∧ ¬ Synchronised oneLevel interrupted after := by
  refine ⟨_, rfl, rfl, fun sync => ?_⟩
  have copied := sync.copied ("1.cgws", 1) (List.mem_singleton_self _)
  cases copied

end Sync
end Arthius.Guarantees.BundleSync
