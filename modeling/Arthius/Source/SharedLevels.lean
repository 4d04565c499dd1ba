import Arthius.Source.PublishLevel
import Arthius.Source.StoredFiles

/-!
# Sharing of levels

How a level gets from the device that publishes it to those that download it, down to the
bytes: `createLevelView_publishLv`, `uploadCustomMadeFile` and `getLevelFile` of
`ViewController.swift`, over the saves of `File.swift`. Each device has a platform and a disk
of its own. What is asked of Firestore and of storage is a message in flight; a delivery
succeeds or fails. `saved` and `uploads` are ghost records.
-/
namespace Arthius.Source.SharedLevels
open Arthius.Lib LevelFiles FlatBuffers StoredFiles

inductive Message where
  | setData (device : ℕ) (levelUUID : String)
  | acknowledged (device : ℕ) (levelUUID : String)
  | putFile (device : ℕ) (levelUUID : String)
  deriving DecidableEq, Repr

/-- `saved` are the saves of each device in their order; `uploads` has, for each file of
storage, the device it came from and what that device had saved by then. -/
structure Network (sets : CharacterSets) where
  disk : ℕ → Files sets
  storage : List (String × List UInt8)
  inFlight : List Message
  saved : ℕ → List Save
  uploads : List (String × ℕ × List Save)

/-- `File.getLevelPath`, the names of its components. -/
def getLevelPath {sets : CharacterSets} (fs : FileSystem sets) (uuid : String) (type : LevelType) :
    List (List Char) :=
  FilePath.resolve '/' '.' (fs.documents.map fun name => name.map Subtype.val)
    (levelPath uuid type).toList

/-- The file that a path leads to. -/
def fileAt {sets : CharacterSets} (disk : Files sets) (path : List (List Char)) :
    Option (List UInt8) :=
  (disk.files.find? fun file => file.1.map (fun name => name.map Subtype.val) = path).map Prod.snd

/-- `levelMetadata?.levelThumbnail = thumbnail.rect`, of the object that `l` refers to. -/
def withThumbnail (heap : Heap) (l : FlatBuffers.LevelData fun _ => ℕ)
    (thumbnail : FlatBuffers.Rect) : Heap
  | .levelMetadata => fun number =>
    let lm : FlatBuffers.LevelMetadata := heap .levelMetadata number
    if l.levelMetadata = some number then { lm with levelThumbnail := some thumbnail } else lm
  | part => heap part

section Network
variable {sets : CharacterSets} (app : ℕ → Platform sets) (fuel : ℕ) (net : Network sets)

def Network.save (device : ℕ) (save : Save) : Option (Network sets) := do
  let disk ← save.run (app device) fuel (net.disk device)
  some { net with disk := Function.update net.disk device disk
                  saved := Function.update net.saved device (net.saved device ++ [save]) }

def Network.send (message : Message) : Network sets :=
  { net with inFlight := net.inFlight ++ [message] }

/-- `createLevelView_publishLv`; without a user nobody is logged in. -/
def publishLv (device : ℕ) (currentUser : Option String) (garbage : ℕ → UInt8) (heap : Heap)
    (l : FlatBuffers.LevelData fun _ => ℕ) (thumbnail : FlatBuffers.Rect) : Option (Network sets) :=
  match currentUser with
  | none => some net
  | some userId => do
    let heap := withThumbnail heap l thumbnail
    let net ← net.save app fuel device (.level garbage heap l .userMade)
    let number ← l.levelMetadata
    let lm : FlatBuffers.LevelMetadata := heap .levelMetadata number
    let levelId ← lm.levelUUID
    some (if userId ≠ "" then net.send (.setData device levelId) else net)

/-- A file replaces the one of the same name. -/
def Network.put (device : ℕ) (levelUUID : String) (data : List UInt8) : Network sets :=
  { net with storage := KeyedList.put Prod.fst (PublishLevel.levelRef levelUUID, data) net.storage
             uploads := KeyedList.put Prod.fst (levelUUID, device, net.saved device) net.uploads }

/-- The completion of `setData` uploads the file in any case; `putFile` reads it when it is
delivered, and fails without one. -/
def deliver (ok : Bool) : Message → Network sets
  | .setData device levelUUID => net.send (.acknowledged device levelUUID)
  | .acknowledged device levelUUID => net.send (.putFile device levelUUID)
  | .putFile device levelUUID =>
    match fileAt (net.disk device) (getLevelPath (app device).fs levelUUID .userMade) with
    | some data => if ok then net.put device levelUUID data else net
    | none => net

/-- `getLevelFile`; nothing is handed over where storage has no such file or one over the
maximum size. -/
def getLevelFile (app : Platform sets) (uuid : String) :
    Option (Option (FlatBuffers.LevelData Part.Record)) :=
  match (KeyedList.get Prod.fst (PublishLevel.levelRef uuid) net.storage).map Prod.snd with
  | none => some none
  | some datao =>
    if datao.length ≤ 1 * 1024 * 1024 then do
      let data ← decompressed app fuel datao
      match makeLevel data (some []) with
      | .ok level => (level.bind FlatBuffers.Level.levelData).map some
      | .error _ => none
    else some none

/-- `save` is any other save of a device, in the editor, after a download or of the
progress. -/
inductive Event where
  | save (device : ℕ) (save : Save)
  | publishLv (device : ℕ) (currentUser : Option String) (garbage : ℕ → UInt8) (heap : Heap)
    (l : FlatBuffers.LevelData fun _ => ℕ) (thumbnail : FlatBuffers.Rect)
  | deliver (j : ℕ) (ok : Bool)

def step (net : Network sets) : Event → Option (Network sets)
  | .save device save => net.save app fuel device save
  | .publishLv device currentUser garbage heap l thumbnail =>
    publishLv app fuel net device currentUser garbage heap l thumbnail
  | .deliver j ok =>
    match net.inFlight[j]? with
    | some message => some (deliver app { net with inFlight := net.inFlight.eraseIdx j } ok message)
    | none => some net

def network : Machine (Network sets) Event := ⟨step app fuel⟩

end Network
end Arthius.Source.SharedLevels
