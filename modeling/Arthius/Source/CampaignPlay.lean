import Mathlib.Data.List.Perm.Subperm
import Arthius.Source.ProgressHandler
import Arthius.Source.ViewController

/-!
# Playing the campaign

The tiles of `CampaignLevelSelector.swift`, the level delegates of
`ViewController.swift` and `didBeatLevel` of `LevelView.swift`, around the
installed app. A press is taken on whatever screen is current, and any level view
of the process may be beaten: what the screens show only narrows this down. The
removal blocks stay pending, since nothing here reads the subviews. Saves, and
reads of a file that exists, succeed. A trap ends the process and leaves the file.
`history` records the launches that found no file and the campaign completions.
-/
namespace Arthius.Source.CampaignPlay
open Arthius.Lib Arthius.Source.ViewController

/-- `CampaignLevelSelectTile`, with the progress its `pressed` closure captured. -/
structure Tile where
  level : LevelData
  progress : LevelProgressData

structure LevelView where
  level : LevelData
  campaignLevel : Bool
  beatLevel : Bool

structure Process where
  screens : ViewController.State
  tiles : List Tile
  levelViews : List LevelView

inductive Happening where
  | startedNew (allLevels : List LevelData)
  | completedCampaignLevel (allLevels : List LevelData) (uuid : Option String)

structure Session where
  app : App
  process : Option Process
  history : List Happening

def Session.installed : Session := ⟨App.installed, none, []⟩

/-- `CampaignLevelSelector.updateLevels`: a level without progress gets a locked tile. -/
def updateLevels (progress : Progress) : List LevelData → Option (List Tile)
  | [] => some []
  | level :: rest => do
    let metadata ← level.levelMetadata
    let levelUUID ← metadata.levelUUID
    let captured := (ProgressHandler.getCurrentProgressForUUID (some levelUUID) progress).getD
      { uuid := some levelUUID, completed := false, locked := true, stars := 0, time := 0, distance := 0 }
    let tiles ← updateLevels progress rest
    some (⟨level, captured⟩ :: tiles)

/-- `switchToView` with what the new screen builds: a level view of the current
level, or the tiles from the progress in memory. -/
def switchToView (app : App) (p : Process) (newView : View) (transitionTime : ℚ)
    (forceParentView : Bool) (forcedParentView : View) : Option Process := do
  let screens ← ViewController.switchToView p.screens newView transitionTime forceParentView
    forcedParentView
  match newView with
  | .levelPlay => do
    let level ← p.screens.currentLevel
    let levelView ← screens.levelView
    some { p with
      screens := screens
      levelViews := p.levelViews ++ [⟨level, levelView.campaignLevel, false⟩] }
  | .campaignLevelSelect => do
    let allLevels ← app.allLevels
    let progress ← app.progress
    let tiles ← updateLevels progress allLevels
    some { p with screens := screens, tiles := tiles }
  | _ => some { p with screens := screens }

def Process.chooseLevel (p : Process) (level : LevelData) (campaign : Bool) : Process :=
  { p with screens :=
      { p.screens with
        currentLevel := some level
        didPressCampaignLevel := campaign || p.screens.didPressCampaignLevel } }

/-- A campaign tile. A locked one does nothing. -/
def campaignLevelSelect_pressLevel (app : App) (p : Process) (tile : Tile) : Option Process :=
  if tile.progress.locked then some p
  else switchToView app (p.chooseLevel tile.level true) .levelPlay transitionTime false .menu

/-- The home buttons of a level view and of its `LevelBeatView`. -/
def level_pressMenu (app : App) (p : Process) : Option Process := do
  let levelView ← p.screens.levelView
  let t := if levelView.parentView = .levelCreate then 0 else transitionTime
  switchToView app p levelView.parentView t false .menu

/-- The next button. Without a next level nothing happens. -/
def level_nextLevel (app : App) (p : Process) (level : LevelData) : Option Process := do
  let metadata ← level.levelMetadata
  let allLevels ← app.allLevels
  match ← CampaignLevelHandler.getLevelFromLevelNumber (metadata.levelNumber + 1) allLevels with
  | some next =>
    switchToView app (p.chooseLevel next true) .levelPlay transitionTime true .campaignLevelSelect
  | none => some p

/-- A global level, and an edited level that is played. -/
def playLevel (app : App) (p : Process) (level : LevelData) : Option Process :=
  switchToView app (p.chooseLevel level false) .levelPlay transitionTime false .menu

/-- A level of one's own is opened in the editor. -/
def editLevel (app : App) (p : Process) (level : LevelData) : Option Process :=
  switchToView app (p.chooseLevel level false) .levelCreate transitionTime false .menu

noncomputable section

/-- The entry that `didBeatLevel` puts together; levels without conditions trap. -/
def levelProgressData (level : LevelData) (dist time : CGFloat) : Option LevelProgressData := do
  let conditions ← level.levelConditions
  let stars := 1 + (if dist ≤ conditions.maxDistance then 1 else 0) +
    (if time ≤ conditions.maxTime then 1 else 0)
  some ⟨level.levelMetadata.bind LevelMetadata.levelUUID, true, false, stars, time, dist⟩

/-- The process is gone; the file stays. -/
def Session.crash (s : Session) : Session :=
  { s with app := ⟨s.app.file, none, none⟩, process := none }

/-- `didBeatLevel` of level view `i`. -/
def didBeatLevel (s : Session) (p : Process) (i : Nat) (view : LevelView) (dist time : CGFloat) :
    Session :=
  match levelProgressData view.level dist time with
  | none => s.crash
  | some data =>
    let called := if view.campaignLevel then
        { s with history := s.history ++
          [Happening.completedCampaignLevel (s.app.allLevels.getD []) data.uuid] }
      else s
    match if view.campaignLevel then s.app.completedCampaignLevel data true fun _ => true
      else s.app.completedLevel data true fun _ => true with
    | none => called.crash
    | some app => if app.progress.isNone then { called with app := app, process := none }
      else
        { called with
          app := app
          process := some { p with levelViews := p.levelViews.set i { view with beatLevel := true } } }

/-- What a launch can list: levels of the campaign, in any order. -/
structure Loaded (campaign : List LevelData) where
  levels : List LevelData
  listed : levels.Subperm campaign

/-- A level of the user or of the public: its UUID is not one of the campaign. -/
structure OtherLevel (campaign : List LevelData) where
  level : LevelData
  other : ∀ level' ∈ campaign, level'.levelMetadata.bind LevelMetadata.levelUUID ≠
    level.levelMetadata.bind LevelMetadata.levelUUID

/-- `viewDidLoad`: the levels, the progress, the tiles and the menu. -/
def launch (s : Session) (enumerated : List LevelData) : Session :=
  let started := { s with
    history := if s.app.file.isNone then s.history ++ [Happening.startedNew enumerated] else s.history }
  match s.app.launch enumerated true with
  | none => started.crash
  | some app =>
    match (do
      let progress ← app.progress
      let tiles ← updateLevels progress enumerated
      let screens ← ViewController.switchToView .initial .menu transitionTime false .menu
      some { screens := screens, tiles := tiles, levelViews := [] : Process }) with
    | none => { started with app := app }.crash
    | some p => { started with app := app, process := some p }

inductive Event (campaign : List LevelData) where
  | launch (enumerated : Loaded campaign)
  | pressTile (i : Nat)
  | beatLevel (i : Nat) (dist time : CGFloat)
  | pressNext (i : Nat)
  | pressHome
  | navigate (screen : View) (menu : (longLived screen).isSome)
  | playLevel (level : OtherLevel campaign)
  | editLevel (level : OtherLevel campaign)
  /-- The previews of `PublishLevelView` and of the global list. -/
  | previewLevel (level : OtherLevel campaign)

def Session.proceed (s : Session) (p : Option Process) : Session :=
  match p with
  | some p => { s with process := some p }
  | none => s.crash

def step {campaign : List LevelData} (s : Session) : Event campaign → Option Session
  | .launch enumerated => some (launch s enumerated.levels)
  | .pressTile i => do
    let p ← s.process
    let tile ← p.tiles[i]?
    some (s.proceed (campaignLevelSelect_pressLevel s.app p tile))
  | .beatLevel i dist time => do
    let p ← s.process
    let view ← p.levelViews[i]?
    if view.beatLevel then none else some (didBeatLevel s p i view dist time)
  | .pressNext i => do
    let p ← s.process
    let view ← p.levelViews[i]?
    if view.beatLevel && view.campaignLevel then some (s.proceed (level_nextLevel s.app p view.level))
    else none
  | .pressHome => do
    let p ← s.process
    some (s.proceed (level_pressMenu s.app p))
  | .navigate screen _ => do
    let p ← s.process
    some (s.proceed (switchToView s.app p screen transitionTime false .menu))
  | .playLevel level => do
    let p ← s.process
    some (s.proceed (playLevel s.app p level.level))
  | .editLevel level => do
    let p ← s.process
    some (s.proceed (editLevel s.app p level.level))
  | .previewLevel level => do
    let p ← s.process
    some { s with process := some { p with levelViews := p.levelViews ++ [⟨level.level, false, false⟩] } }

def system (campaign : List LevelData) : Machine Session (Event campaign) := ⟨step⟩

end
end Arthius.Source.CampaignPlay
