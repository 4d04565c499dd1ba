import Arthius.Lib.Machine
import Arthius.Lib.KeyedList
import Arthius.Source.LevelData

/-!
# Campaign levels and stored progress

`CampaignHandler.swift`, `File.loadProgress` and `File.saveProgress` of
`File.swift`. A Swift trap (a failed force unwrap) is `none`. A completion
returns the store it leaves in memory, or `none` where it traps, together with
every store it hands to `File.saveProgress` on the way, in order; which of these
reach the disk is decided by the caller. FlatBuffers and LZMA are exact
inverses of their readers here, so the progress file holds a `Progress`.
-/
namespace Arthius.Source
open Arthius.Lib

structure LevelProgressData where
  uuid : Option String
  completed : Bool
  locked : Bool
  stars : Int
  time : Float32
  distance : Float32

structure Progress where
  progressData : List LevelProgressData

namespace CampaignLevelHandler

/-- `none` is the trap of `(level.levelMetadata?.levelNumber)!`. -/
def getLevelFromLevelNumber (levelNumber : Int) : List LevelData → Option (Option LevelData)
  | [] => some none
  | level :: rest => match level.levelMetadata with
    | none => none
    | some metadata =>
      if metadata.levelNumber = levelNumber then some (some level)
      else getLevelFromLevelNumber levelNumber rest

def getLevelFromLevelUUID (uuid : String) (allLevels : List LevelData) : Option LevelData :=
  allLevels.find? fun level => level.levelMetadata.bind LevelMetadata.levelUUID = some uuid

end CampaignLevelHandler

namespace ProgressHandler

def getCurrentProgressForUUID (uuid : Option String) (progress : Progress) :
    Option LevelProgressData :=
  KeyedList.get LevelProgressData.uuid uuid progress.progressData

/-- The first entry with the UUID is replaced, or the new one appended. -/
def setProgressForUUID (newProgressData : LevelProgressData) (progress : Progress) : Progress :=
  ⟨KeyedList.put LevelProgressData.uuid newProgressData progress.progressData⟩

/-- A completion under way: the store in memory and the saves made so far. -/
structure Outcome where
  progress : Option Progress
  saves : List Progress

/-- What `completedCampaignLevel` looks up after its first `setProgress`: the
level completed, and then the level numbered one higher, if there is one. -/
def nextLevel (allLevels : List LevelData) (data : LevelProgressData) :
    Option (Option LevelData) := do
  let uuid ← data.uuid
  let currentLevelData ← CampaignLevelHandler.getLevelFromLevelUUID uuid allLevels
  let metadata ← currentLevelData.levelMetadata
  CampaignLevelHandler.getLevelFromLevelNumber (metadata.levelNumber + 1) allLevels

def blankUnlockData (nextLevelUUID : Option String) : LevelProgressData :=
  { uuid := nextLevelUUID, completed := false, locked := false, stars := 0, time := 0, distance := 0 }

/-- `completedLevel` on a loaded store: `setProgress`, which stores the entry
and saves, and one more save. -/
def recordLevel (data : LevelProgressData) (progress : Progress) : Outcome :=
  let stored := setProgressForUUID data progress
  ⟨some stored, [stored, stored]⟩

/-- `completedCampaignLevel` on a loaded store. -/
def recordCampaignLevel (allLevels : List LevelData) (data : LevelProgressData)
    (progress : Progress) : Outcome :=
  let stored := setProgressForUUID data progress
  match nextLevel allLevels data with
  | none => ⟨none, [stored]⟩
  | some none => ⟨some stored, [stored, stored]⟩
  | some (some next) =>
    let nextLevelUUID := next.levelMetadata.bind LevelMetadata.levelUUID
    let unlocked := setProgressForUUID (blankUnlockData nextLevelUUID) stored
    ⟨some unlocked, [stored, unlocked, unlocked]⟩

end ProgressHandler

/-- The running process and the progress file under `documents`. -/
structure App where
  file : Option Progress
  allLevels : Option (List LevelData)
  progress : Option Progress

/-- The store `loadProgress` starts with: an unlocked entry for the level
enumerated first, if there is one. -/
def File.startingData : List LevelData → Progress
  | [] => ⟨[]⟩
  | level :: _ =>
    ⟨[ProgressHandler.blankUnlockData (level.levelMetadata.bind LevelMetadata.levelUUID)]⟩

/-- `File.loadProgress`, when the read of the file succeeds if `readable`. The
error path starts a new store, and traps when the campaign levels were never
loaded. -/
def File.loadProgress (readable : Bool) (app : App) : Option Progress :=
  match readable, app.file with
  | true, some progress => some progress
  | _, _ => app.allLevels.map File.startingData

/-- The file after a sequence of `File.saveProgress` calls; call number `i`
replaces it if `written i`, and otherwise only prints its error. -/
def File.saveAll (file : Option Progress) (written : Nat → Bool) : List Progress → Option Progress
  | [] => file
  | progress :: rest =>
    File.saveAll (if written 0 then some progress else file) (fun i => written (i + 1)) rest

namespace App

def loadProgress (readable : Bool) (app : App) : Option App := do
  let progress ← File.loadProgress readable app
  some { app with progress := some progress }

/-- A finished completion, or one that trapped: the process is gone, the file stays. -/
def settle (app : App) (written : Nat → Bool) (outcome : ProgressHandler.Outcome) : App :=
  let file := File.saveAll app.file written outcome.saves
  match outcome.progress with
  | some progress => { app with file := file, progress := some progress }
  | none => ⟨file, none, none⟩

/-- The frame `completedLevel` and `completedCampaignLevel` share: with no store
in memory they load it and start over, as long as `repeatCount <= 3`. -/
def completed (record : Progress → ProgressHandler.Outcome) (readable : Bool)
    (written : Nat → Bool) : (attempts : Nat) → App → Option App
  | attempts, app => match app.progress, attempts with
    | some progress, _ => some (app.settle written (record progress))
    | none, 0 => some app
    | none, attempts + 1 => do
      let loaded ← app.loadProgress readable
      completed record readable written attempts loaded

def completedLevel (data : LevelProgressData) (readable : Bool) (written : Nat → Bool)
    (app : App) : Option App :=
  completed (ProgressHandler.recordLevel data) readable written 4 app

/-- Reading `allLevels` traps when the campaign levels were never loaded. -/
def completedCampaignLevel (data : LevelProgressData) (readable : Bool) (written : Nat → Bool)
    (app : App) : Option App :=
  completed (fun progress => match app.allLevels with
    | some allLevels => ProgressHandler.recordCampaignLevel allLevels data progress
    | none => ⟨none, [ProgressHandler.setProgressForUUID data progress]⟩) readable written 4 app

/-- The start of `viewDidLoad`: `CampaignLevelHandler.load` with the levels in
the order the directory lists them, then `ProgressHandler.load`. -/
def launch (enumerated : List LevelData) (readable : Bool) (app : App) : Option App :=
  loadProgress readable { app with allLevels := some enumerated, progress := none }

end App

/-- What `LevelView.didBeatLevel` reports: a completed, unlocked entry. -/
structure Completion where
  uuid : Option String
  stars : Int
  time : Float32
  distance : Float32

def Completion.data (c : Completion) : LevelProgressData :=
  { uuid := c.uuid, completed := true, locked := false, stars := c.stars, time := c.time,
    distance := c.distance }

/-- What `getAllLevels(.Campaign)` returns at a launch: the levels of the
campaign in the order the directory lists their files, or nothing while the
files are not there. -/
structure Enumeration (campaign : List LevelData) where
  levels : List LevelData
  complete : levels = [] ∨ levels.Perm campaign

/-- What happens to the installed app. A launch may find the process still
running (a restart); the file may also disappear between launches. -/
inductive AppEvent (campaign : List LevelData) where
  | launch (enumerated : Enumeration campaign) (readable : Bool)
  | completedLevel (completion : Completion) (readable : Bool) (written : Nat → Bool)
  | completedCampaignLevel (completion : Completion) (readable : Bool) (written : Nat → Bool)
  | removeFile

def App.step {campaign : List LevelData} (app : App) : AppEvent campaign → Option App
  | .launch enumerated readable => app.launch enumerated.levels readable
  | .completedLevel completion readable written =>
    app.completedLevel completion.data readable written
  | .completedCampaignLevel completion readable written =>
    app.completedCampaignLevel completion.data readable written
  | .removeFile => some { app with file := none }

def App.system (campaign : List LevelData) : Machine App (AppEvent campaign) := ⟨App.step⟩

/-- A fresh installation, before the first launch. -/
def App.installed : App := ⟨none, none, none⟩

end Arthius.Source
