import Arthius.Lib.Machine
import Arthius.Source.LevelSelectors

/-!
# The selector of the global levels and its detail views

`GLSLevelSelector` and `GLSLevelDetailView` of `GLSLevelSelector.swift`. The
subviews are the tiles, and the detail views on top of them. A press may reach a
tile that has just been removed under the finger. What a detail view draws and
how it moves is left out; a download without a count is a refused refresh.
-/
namespace Arthius.Source.GlobalSelector
open Arthius.Lib

/-- `GLSSelectTile`, with its frame. -/
abbrev GLSSelectTile := (LevelData × ℕ) × CGRect

structure GLSLevelDetailView where
  tileView : GLSSelectTile

structure GLSLevelSelector where
  bounds : CGRect
  tiles : List GLSSelectTile
  detailViews : List GLSLevelDetailView
  showingDetailView : Bool
  startedLoadingLevel : Bool

namespace GLSLevelSelector

/-- All subviews go, and the new tiles come. -/
noncomputable def updateLevels (xTiles yTiles : CGFloat) (newLevels : List LevelData)
    (downloads : List (String × ℕ)) (selector : GLSLevelSelector) : Option GLSLevelSelector := do
  let view ← LevelSelectors.GLSLevelSelector.updateLevels selector.bounds xTiles yTiles newLevels downloads
  some { selector with tiles := view.subviews, detailViews := [] }

/-- `GLSLevelSelector.init` -/
noncomputable def new (bounds : CGRect) (xTiles yTiles : CGFloat) (levels : List LevelData)
    (downloads : List (String × ℕ)) : Option GLSLevelSelector :=
  updateLevels xTiles yTiles levels downloads ⟨bounds, [], [], false, false⟩

def showLevelDetailView (levelTile : GLSSelectTile) (selector : GLSLevelSelector) : GLSLevelSelector :=
  if selector.showingDetailView then selector
  else { selector with
    showingDetailView := true
    detailViews := selector.detailViews ++ [⟨levelTile⟩] }

def animateIn (selector : GLSLevelSelector) : GLSLevelSelector :=
  { selector with showingDetailView := false, startedLoadingLevel := false }

def animateOut (selector : GLSLevelSelector) : GLSLevelSelector :=
  { selector with showingDetailView := false, startedLoadingLevel := false }

def exit (selector : GLSLevelSelector) : GLSLevelSelector := { selector with showingDetailView := false }

/-- The level that is passed on to the delegate, the first time. -/
def pressedPlay (tile : GLSSelectTile) (selector : GLSLevelSelector) : GLSLevelSelector × Option LevelData :=
  if selector.startedLoadingLevel then (selector, none)
  else ({ selector with startedLoadingLevel := true }, some tile.1.1)

/-- `GLSLevelDetailView.touchesBegan`, of the detail view number `i`. -/
def touchesBegan (i : ℕ) (selector : GLSLevelSelector) : Option GLSLevelSelector :=
  if i < selector.detailViews.length then
    some (exit { selector with detailViews := selector.detailViews.eraseIdx i })
  else none

inductive Event where
  | tilePressed (tile : GLSSelectTile)
  | detailViewTouched (i : ℕ)
  | playPressed (i : ℕ)
  | animateIn
  | animateOut
  | updateLevels (xTiles yTiles : CGFloat) (newLevels : List LevelData) (downloads : List (String × ℕ))

noncomputable def step (selector : GLSLevelSelector) : Event → Option GLSLevelSelector
  | .tilePressed tile => some (selector.showLevelDetailView tile)
  | .detailViewTouched i => selector.touchesBegan i
  | .playPressed i => (selector.detailViews[i]?).map fun view => (selector.pressedPlay view.tileView).1
  | .animateIn => some selector.animateIn
  | .animateOut => some selector.animateOut
  | .updateLevels xTiles yTiles newLevels downloads =>
    selector.updateLevels xTiles yTiles newLevels downloads

noncomputable def machine : Machine GLSLevelSelector Event := ⟨step⟩

end GLSLevelSelector
end Arthius.Source.GlobalSelector
