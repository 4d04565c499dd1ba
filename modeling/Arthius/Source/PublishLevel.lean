import Arthius.Lib.Machine
import Arthius.Lib.KeyedList
import Arthius.Source.LevelData

/-!
# Publishing a level

`createLevelView_publishLv`, `uploadCustomMadeFile` and the readers' side of
`getLevelFile` in `ViewController.swift`. A level lives in two remote stores:
its document in the `levels` collection and its file in storage. Whatever a
client has asked of them is a `Message` in flight, delivered whenever the
schedule says so; a write, an upload or a read takes effect, or fails, at the
moment it is delivered, and the completion of the document write is in flight
only from then on. The bytes of a file are left out: no step here reads them.
-/
namespace Arthius.Source.PublishLevel
open Arthius.Lib

/-- A document of the `levels` collection: the fields `publishLv` writes and
`globalLevelSelect_getLevels` reads. -/
structure LevelDocument where
  levelID : String
  userID : String
  title : String
  description : String
  deriving DecidableEq, Repr

/-- `storageRef.child("levels/\(uuid).gws")` -/
def levelRef (uuid : String) : String := "levels/" ++ uuid ++ ".gws"

inductive Message where
  | setData (document : LevelDocument)
  | acknowledged (document : LevelDocument)
  | putFile (levelUUID : String)
  | getDocuments
  | snapshot (documents : List LevelDocument)
  | getData (uuid : String)
  deriving DecidableEq, Repr

/-- The two stores, the messages in flight, and every download answered so far,
with whether the file was there. -/
structure State where
  documents : List LevelDocument := []
  files : List String := []
  inFlight : List Message := []
  downloads : List (String × Bool) := []
  deriving DecidableEq, Repr

inductive Event where
  | publishLv (currentUser : Option String) (level : LevelData) (title description : String)
  | getLevels
  | deliver (j : Nat) (ok : Bool)

def State.send (s : State) (messages : List Message) : State :=
  { s with inFlight := s.inFlight ++ messages }

def State.remove (s : State) (j : Nat) : State := { s with inFlight := s.inFlight.eraseIdx j }

/-- The tap on publish. Nothing happens without a logged-in user or with an
empty user id; without a UUID the process traps before anything is sent. -/
def publishLv (s : State) (currentUser : Option String) (level : LevelData)
    (title description : String) : State :=
  match currentUser, level.levelMetadata.bind LevelMetadata.levelUUID with
  | some userId, some levelId =>
    if userId ≠ "" then s.send [.setData ⟨levelId, userId, title, description⟩] else s
  | _, _ => s

/-- Effect of one delivered message. The completion of the document write looks
at no error: it uploads the file in any case. Only a download that the storage
answers is recorded. -/
def deliver (s : State) (ok : Bool) : Message → State
  | .setData document =>
    (if ok then { s with documents := KeyedList.put LevelDocument.levelID document s.documents }
      else s).send [.acknowledged document]
  | .acknowledged document => s.send [.putFile document.levelID]
  | .putFile levelUUID => if ok then { s with files := s.files ++ [levelRef levelUUID] } else s
  | .getDocuments => if ok then s.send [.snapshot s.documents] else s
  | .snapshot documents => s.send (documents.map fun document => .getData document.levelID)
  | .getData uuid =>
    if ok then { s with downloads := s.downloads ++ [(uuid, decide (levelRef uuid ∈ s.files))] }
    else s

def step (s : State) : Event → Option State
  | .publishLv currentUser level title description =>
    some (publishLv s currentUser level title description)
  | .getLevels => some (s.send [.getDocuments])
  | .deliver j ok => (s.inFlight[j]?).map (deliver (s.remove j) ok)

def system : Machine State Event := ⟨step⟩

end Arthius.Source.PublishLevel
