import Mathlib.Algebra.Order.Field.Rat
import Arthius.Lib.Machine
import Arthius.Source.LevelData

/-!
# Screens

`ViewController.switchToView`. The menu, account, play-select, campaign,
create-select and global-level screens are one long-lived view each; every
level played and every level edited gets a new view. A view left behind is
removed by a block dispatched to run `transitionTime` later, and the block keeps
the view it was given, whatever has happened to the screens since. Seconds are
rational; a Swift trap is `none`.
-/
namespace Arthius.Source.ViewController
open Arthius.Lib

inductive View where
  | splash | menu | account | playSelect | campaignLevelSelect | levelPlay | createSelect
  | levelCreate | savedLevelSelect | gls | levelBeat
  deriving DecidableEq, Repr

/-- The view objects `switchToView` adds and removes; `LevelView`s and
`CreateLevelView`s are told apart by a serial number. -/
inductive ScreenView where
  | menuView | accountView | playSelectView | campaignLevelSelectView | createLevelSelectView
  | globalLevelSelectView
  | levelView (serial : Nat)
  | createLevelView (serial : Nat)
  deriving DecidableEq, Repr

/-- `transitionTime` of `ViewController.swift`. -/
def transitionTime : ℚ := 1 / 5

/-- A pending `removeFromSuperview` block. -/
structure Removal where
  view : ScreenView
  deadline : ℚ
  deriving DecidableEq

/-- The fields of a `LevelView` that the controller sets and reads back. -/
structure LevelScreen where
  serial : Nat
  parentView : View
  campaignLevel : Bool

structure State where
  currentView : View
  subviews : List ScreenView
  pending : List Removal
  now : ℚ
  created : Nat
  levelView : Option LevelScreen
  createLevelView : Option Nat
  currentLevel : Option LevelData
  didPressCampaignLevel : Bool

/-- Before `viewDidLoad` switches to the menu. -/
def State.initial : State where
  currentView := .splash
  subviews := []
  pending := []
  now := 0
  created := 0
  levelView := none
  createLevelView := none
  currentLevel := none
  didPressCampaignLevel := false

/-- The long-lived view of a screen. -/
def longLived : View → Option ScreenView
  | .menu => some .menuView
  | .account => some .accountView
  | .playSelect => some .playSelectView
  | .campaignLevelSelect => some .campaignLevelSelectView
  | .createSelect => some .createLevelSelectView
  | .gls => some .globalLevelSelectView
  | .levelPlay | .levelCreate | .splash | .savedLevelSelect | .levelBeat => none

/-- The view that shows a screen: for levels, the one created last. -/
def State.viewOf (s : State) : View → Option ScreenView
  | .levelPlay => s.levelView.map fun level => .levelView level.serial
  | .levelCreate => s.createLevelView.map .createLevelView
  | view => longLived view

/-- `addSubview` brings a view that is already there to the front. -/
def State.addSubview (s : State) (view : ScreenView) : State :=
  { s with subviews := s.subviews.filter (· ≠ view) ++ [view] }

def State.removeFromSuperview (s : State) (view : ScreenView) : State :=
  { s with subviews := s.subviews.filter (· ≠ view) }

/-- The local `removeView(view:after:)`. -/
def State.removeView (s : State) (view : ScreenView) (after : ℚ) : State :=
  { s with pending := s.pending ++ [⟨view, s.now + after⟩] }

/-- First `switch`: the view of the current screen is scheduled for removal. A
level screen without a view would trap. -/
def State.leave (s : State) (transitionTime : ℚ) : Option State :=
  match s.currentView with
  | .levelPlay => s.levelView.map fun level => s.removeView (.levelView level.serial) transitionTime
  | .levelCreate => s.createLevelView.map fun serial =>
      s.removeView (.createLevelView serial) transitionTime
  | view => some ((longLived view).elim s fun old => s.removeView old transitionTime)

/-- Second `switch`: the view of the new screen is added. The level screens
build theirs from `currentLevel`, and trap without one. -/
def State.enter (s : State) (newView : View) (forceParentView : Bool) (forcedParentView : View) :
    Option State :=
  match newView with
  | .levelPlay => s.currentLevel.map fun _ =>
      { s with
        levelView := some ⟨s.created, if forceParentView then forcedParentView else s.currentView,
          s.didPressCampaignLevel⟩
        created := s.created + 1
        didPressCampaignLevel := false }.addSubview (.levelView s.created)
  | .levelCreate => s.currentLevel.map fun _ =>
      { s with
        createLevelView := some s.created
        created := s.created + 1 }.addSubview (.createLevelView s.created)
  | view => some ((longLived view).elim s s.addSubview)

def switchToView (s : State) (newView : View) (transitionTime : ℚ) (forceParentView : Bool)
    (forcedParentView : View) : Option State := do
  let left ← s.leave transitionTime
  let entered ← left.enter newView forceParentView forcedParentView
  some { entered with currentView := newView }

inductive Event where
  | switchToView (newView : View) (transitionTime : ℚ) (forceParentView : Bool)
      (forcedParentView : View)
  /-- What a level tile sets before it switches. -/
  | chooseLevel (level : LevelData) (campaign : Bool)
  | wait (seconds : ℚ)
  | fire (j : Nat)

/-- A pending block runs at any moment from its deadline on. -/
def fire (s : State) (j : Nat) : Option State := do
  let removal ← s.pending[j]?
  if removal.deadline ≤ s.now then
    some ({ s with pending := s.pending.eraseIdx j }.removeFromSuperview removal.view)
  else none

def step (s : State) : Event → Option State
  | .switchToView newView transitionTime forceParentView forcedParentView =>
    switchToView s newView transitionTime forceParentView forcedParentView
  | .chooseLevel level campaign =>
    some { s with currentLevel := some level, didPressCampaignLevel := campaign }
  | .wait seconds => if 0 ≤ seconds then some { s with now := s.now + seconds } else none
  | .fire j => fire s j

def controller : Machine State Event := ⟨step⟩

end Arthius.Source.ViewController
