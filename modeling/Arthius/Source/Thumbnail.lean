import Arthius.Source.LevelData

/-!
# Thumbnails of published levels

`PublishLevelView.thumbnailFromView`, the place of the thumbnail in the level of
`createLevelView_publishLv`, and the rectangle `GLSSelectTile` scrolls to. What
UIKit makes of that request is left out.
-/
namespace Arthius.Source.Thumbnail

/-- `UIScrollView`, with the size of its bounds. -/
structure ScrollView where
  contentOffset : CGPoint
  boundsSize : CGSize
  zoomScale : CGFloat

noncomputable section

def thumbnailFromView (screen : Screen) (scrollView : ScrollView) : CGRect :=
  let visibleRect : CGRect := ⟨scrollView.contentOffset, scrollView.boundsSize⟩
  let theScale : CGFloat := 1 / scrollView.zoomScale
  screen.rectToProp (visibleRect * theScale)

/-- A level without metadata keeps no thumbnail. -/
def publishLv (levelData : LevelData) (thumbnail : CGRect) : LevelData :=
  { levelData with
    levelMetadata := levelData.levelMetadata.map fun levelMetadata =>
      { levelMetadata with levelThumbnail := some thumbnail.rect } }

/-- What `GLSSelectTile.init` makes visible. Without a thumbnail it traps. -/
def scrollRectToVisible (screen : Screen) (level : LevelData) : Option CGRect := do
  let levelMetadata ← level.levelMetadata
  let levelThumbnail ← levelMetadata.levelThumbnail
  some (screen.propToRect levelThumbnail.cgRect)

end
end Arthius.Source.Thumbnail
