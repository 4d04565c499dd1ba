import Arthius.Lib.KeyedList

/-!
# Bundled levels

`File.copyLevelsFromBundleToDocuments` of `File.swift`: `copyFiles`, over the
campaign folder and the temporary directory as maps from file names. `copyItem`
fails exactly where its destination exists, `replaceItemAt` moves the item over
the target or throws, and `contentsEqual` is exact. The errors that `try?`
drops leave no trace.
-/
namespace Arthius.Source.BundleCopy
open Arthius.Lib

/-- The files of a directory. -/
abbrev Directory (Data : Type) := String → Option Data

structure Storage (Data : Type) where
  /-- The folder at `pathDestDocs`, which may not be there. -/
  docs : Option (Directory Data)
  temporaryDirectory : Directory Data

/-- The files of the bundle, in the order of `filelist`. -/
structure Bundle (Data : Type) where
  files : List (String × Data)
  distinct : (files.map Prod.fst).Nodup

/-- What the calls that may fail do: `URL(string:)` accepts a path or not, and
`replaceItemAt` works or throws for a file name. -/
structure FileManager where
  isURL : String → Bool
  replaces : String → Bool

/-- A call that does not come to its end: a forced unwrapping of `nil`, or an
error that the outer `catch` prints, with what is on the disk then. -/
inductive Failure (Data : Type) where
  | trap
  | error (storage : Storage Data)

section Copy
variable {Data : Type} [DecidableEq Data] (fileManagerIs : FileManager) (tempPath pathDestDocs : String)

def Bundle.directory (bundle : Bundle Data) : Directory Data :=
  fun filename => (KeyedList.get Prod.fst filename bundle.files).map Prod.snd

/-- `copyItem` onto a file. -/
def copyItem (content : Data) (filename : String) (directory : Directory Data) : Directory Data :=
  if (directory filename).isSome then directory else Function.update directory filename (some content)

/-- `replaceItemAt`, from the temporary directory over a file of the folder. -/
def replaceItemAt (filename : String) (docs temporaryDirectory : Directory Data) :
    Except (Failure Data) (Directory Data × Directory Data) :=
  if fileManagerIs.isURL (pathDestDocs ++ "/" ++ filename) ∧ fileManagerIs.isURL (tempPath ++ "/" ++ filename) then
    if fileManagerIs.replaces filename ∧ (temporaryDirectory filename).isSome then
      .ok (Function.update docs filename (temporaryDirectory filename),
        Function.update temporaryDirectory filename none)
    else .error (.error ⟨some docs, temporaryDirectory⟩)
  else .error .trap

/-- One round of the loop. -/
def copyFile (filename : String) (bundleFile : Data) (docs temporaryDirectory : Directory Data) :
    Except (Failure Data) (Directory Data × Directory Data) :=
  match docs filename with
  | some docFile =>
    if docFile = bundleFile then .ok (docs, temporaryDirectory)
    else replaceItemAt fileManagerIs tempPath pathDestDocs filename docs
      (copyItem bundleFile filename temporaryDirectory)
  | none => .ok (copyItem bundleFile filename docs, temporaryDirectory)

def copyLoop : List (String × Data) → Directory Data → Directory Data →
    Except (Failure Data) (Directory Data × Directory Data)
  | [], docs, temporaryDirectory => .ok (docs, temporaryDirectory)
  | file :: rest, docs, temporaryDirectory => do
    let copied ← copyFile fileManagerIs tempPath pathDestDocs file.1 file.2 docs temporaryDirectory
    copyLoop rest copied.1 copied.2

/-- `copyFiles`; a bundle without the folder is an error of `contentsOfDirectory`. -/
def copyFiles (bundle : Option (Bundle Data)) (storage : Storage Data) :
    Except (Failure Data) (Storage Data) := do
  match bundle with
  | none => .error (.error storage)
  | some bundle =>
    let docs := storage.docs.getD bundle.directory
    let copied ← copyLoop fileManagerIs tempPath pathDestDocs bundle.files docs storage.temporaryDirectory
    .ok ⟨some copied.1, copied.2⟩

end Copy
end Arthius.Source.BundleCopy
