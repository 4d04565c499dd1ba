import Arthius.Source.CampaignPlay
import Arthius.Source.GlobalLevels

/-!
# The tiles of the level selectors

`updateLevels` of `LevelSelector.swift`, `CampaignLevelSelector.swift` and
`GLSLevelSelector.swift` lays its tiles out by one formula; what the tiles show
and the height of the content differ. `xTiles` and `yTiles` are whole numbers
held in a `CGFloat`. The colours and borders of a tile are left out.
-/
namespace Arthius.Source.LevelSelectors

/-- A scroll view with its tiles, each with its frame. -/
structure UIScrollView (Tile : Type) where
  bounds : CGRect
  subviews : List (Tile × CGRect)
  contentSize : CGSize

noncomputable section

/-- `Int(_:)` of a number that is not negative. -/
def truncated (x : CGFloat) : ℕ := ⌊x⌋₊

def sidePadding : CGFloat := 1 / 20
def topPadding : CGFloat := 1 / 20
def xMiddlePadding : CGFloat := 1 / 50
def yMiddlePadding : CGFloat := 1 / 50
def startX : CGFloat := 0

def tilePropWidth (xTiles : CGFloat) : CGFloat :=
  let preDivX := xMiddlePadding * (xTiles - 1) + sidePadding * 2
  (1 - preDivX) / xTiles

def tilePropHeight (yTiles : CGFloat) : CGFloat :=
  let preDivY := yMiddlePadding * (yTiles - 1) + topPadding * 2
  (1 - preDivY) / yTiles

def propToRectSelf (bounds prop : CGRect) : CGRect :=
  .mk4 (prop.origin.x * bounds.width) (prop.origin.y * bounds.height) (bounds.width * prop.width)
    (bounds.height * prop.height)

/-- The frame of tile number `i`. -/
def tileFrame (bounds : CGRect) (xTiles yTiles : CGFloat) (i : ℕ) : CGRect :=
  let x : CGFloat := (i % truncated xTiles : ℕ)
  let y : CGFloat := truncated (i / yTiles)
  propToRectSelf bounds
    (.mk4 (startX + sidePadding + tilePropWidth xTiles * x + xMiddlePadding * x)
      (topPadding + tilePropHeight yTiles * y + yMiddlePadding * y) (tilePropWidth xTiles)
      (tilePropHeight yTiles))

/-- The loop of `updateLevels`, and the content size at its end. -/
def layTiles {Tile : Type} (bounds : CGRect) (xTiles yTiles contentPropHeight : CGFloat)
    (tiles : List Tile) : UIScrollView Tile where
  bounds := bounds
  subviews := tiles.mapIdx fun i tile => (tile, tileFrame bounds xTiles yTiles i)
  contentSize := (propToRectSelf bounds (.mk4 0 0 1 contentPropHeight)).size

/-- `LevelSelector.updateLevels` -/
def LevelSelector.updateLevels (bounds : CGRect) (xTiles yTiles : CGFloat) (newLevels : List LevelData) :
    UIScrollView LevelData :=
  layTiles bounds xTiles yTiles (tilePropHeight yTiles * yTiles + yMiddlePadding * yTiles) newLevels

/-- `CampaignLevelSelector.updateLevels` -/
def CampaignLevelSelector.updateLevels (bounds : CGRect) (xTiles yTiles : CGFloat)
    (allLevels : List LevelData) (progress : Progress) : Option (UIScrollView CampaignPlay.Tile) :=
  (CampaignPlay.updateLevels progress allLevels).map (layTiles bounds xTiles yTiles 1)

/-- `GLSLevelSelector.updateLevels` -/
def GLSLevelSelector.updateLevels (bounds : CGRect) (xTiles yTiles : CGFloat) (newLevels : List LevelData)
    (downloads : List (String × ℕ)) : Option (UIScrollView (LevelData × ℕ)) :=
  (GlobalLevels.updateLevels downloads newLevels).map (layTiles bounds xTiles yTiles 1)

end
end Arthius.Source.LevelSelectors
