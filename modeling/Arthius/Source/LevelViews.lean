import Arthius.Source.CampaignPlay
import Arthius.Source.LevelRun

/-!
# The level views of a process

Every `LevelView` starts its own display link in `init` and keeps it: the one
that `ViewController` shows for `.LevelPlay`, and those that `GLSSelectTile` and
`PublishLevelView` build as thumbnails. All of them share the progress store.
`calls` records who called `ProgressHandler`. No loop counts a line's time, so
`maxLineTime` is zero. A trap in `init` or in `didBeatLevel` is a refused event.
-/
namespace Arthius.Source
open Arthius.Lib

inductive LevelViewOwner where
  | viewController (campaignLevel : Bool)
  | glsSelectTile
  | publishLevelView
  deriving DecidableEq

structure OwnedLevelView where
  owner : LevelViewOwner
  run : LevelRun

structure LevelViews where
  app : App
  views : List OwnedLevelView
  calls : List LevelViewOwner

inductive LevelViewsEvent where
  | build (owner : LevelViewOwner) (uuidString : ℕ → String) (level : LevelData)
  | gesture (i : ℕ) (gesture : LevelView.Gesture)
  | pressPlayReset (i : ℕ)
  /-- An update, with how reading and saving the progress go if it comes to that. -/
  | update (i : ℕ) (readable : Bool) (written : ℕ → Bool)

/-- The thumbnails are built for `.LevelCreate`, with the default `_campaignLevel`. -/
def LevelViewOwner.campaignLevel : LevelViewOwner → Bool
  | .viewController campaignLevel => campaignLevel
  | .glsSelectTile => false
  | .publishLevelView => false

/-- What the owner unwraps once the view is there. -/
def LevelViewOwner.accepts (level : LevelData) : LevelViewOwner → Bool
  | .glsSelectTile => (level.levelMetadata.bind LevelMetadata.levelThumbnail).isSome
  | _ => true

noncomputable section

/-- `totalDistanceTravelled`; every line has a distance where `didBeatLevel` is reached. -/
def LevelRun.totalDistanceTravelled (run : LevelRun) : CGFloat :=
  (run.view.lines.map fun line => line.levelCountDistance.getD 0).sum

namespace LevelViews
variable (s : LevelViews)

/-- `didBeatLevel`: the entry goes to the store. A store that traps takes the process with it. -/
def didBeatLevel (view : OwnedLevelView) (readable : Bool) (written : ℕ → Bool) : Option LevelViews := do
  let levelProgressData ←
    CampaignPlay.levelProgressData view.run.level view.run.totalDistanceTravelled 0
  let called := { s with calls := s.calls ++ [view.owner] }
  let completed := if view.owner.campaignLevel then
      s.app.completedCampaignLevel levelProgressData readable written
    else s.app.completedLevel levelProgressData readable written
  match completed with
  | some app => some { called with app := app, views := if app.progress.isSome then s.views else [] }
  | none => some { called with app := ⟨s.app.file, none, none⟩, views := [] }

def step (fuel : ℕ) (screen : Screen) (s : LevelViews) : LevelViewsEvent → Option LevelViews
  | .build owner uuidString level => do
    let run ← LevelRun.init fuel screen uuidString level
    if owner.accepts level then some { s with views := s.views ++ [⟨owner, run⟩] } else none
  | .gesture i gesture => do
    let view ← s.views[i]?
    let run ← view.run.gesture fuel gesture
    some { s with views := s.views.set i { view with run := run } }
  | .pressPlayReset i => do
    let view ← s.views[i]?
    some { s with views := s.views.set i { view with run := view.run.pressPlayReset } }
  | .update i readable written => do
    let view ← s.views[i]?
    let updated := { s with views := s.views.set i { view with run := view.run.update } }
    if view.run.finishes then updated.didBeatLevel view readable written else some updated

def events (fuel : ℕ) (screen : Screen) : Machine LevelViews LevelViewsEvent := ⟨step fuel screen⟩

end LevelViews
end
end Arthius.Source
