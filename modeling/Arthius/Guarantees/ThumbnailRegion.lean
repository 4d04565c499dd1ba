import Arthius.Source.Thumbnail
import Arthius.Guarantees.EditorSync

/-!
# The region of a thumbnail

A thumbnail is stored as a part of the screen and scaled back by the tile, which
undoes the storing. The scaling by the zoom takes the height from the width, so
only a square view is shown as it was framed.
-/
namespace Arthius.Guarantees.ThumbnailRegion
open Arthius.Source Arthius.Source.Thumbnail

noncomputable section

/-- The part of the stage in the scroll view, in the coordinates of the stage. -/
def visibleStage (scrollView : ScrollView) : CGRect :=
  .mk4 (scrollView.contentOffset.x / scrollView.zoomScale) (scrollView.contentOffset.y / scrollView.zoomScale)
    (scrollView.boundsSize.width / scrollView.zoomScale) (scrollView.boundsSize.height / scrollView.zoomScale)

section Region
variable (screen : Screen) {scrollView : ScrollView}

/-- The sizes of a part of the screen are stored as they are. -/
theorem cgRect_rectToProp (rect : CGRect) :
    (screen.rectToProp rect).rect.cgRect = screen.rectToProp rect := by
  have wide : 0 ≤ rect.width / screen.width := div_nonneg (abs_nonneg _) screen.width_pos.le
  have high : 0 ≤ rect.height / screen.height := div_nonneg (abs_nonneg _) screen.height_pos.le
  ext
  · rfl
  · rfl
  · exact abs_of_nonneg wide
  · exact abs_of_nonneg high

/-- The region that a tile shows is as high as it is wide. -/
theorem propToRect_thumbnailFromView (zoomed : 0 < scrollView.zoomScale) :
    screen.propToRect (thumbnailFromView screen scrollView) =
      .mk4 (scrollView.contentOffset.x / scrollView.zoomScale) (scrollView.contentOffset.y / scrollView.zoomScale)
        (|scrollView.boundsSize.width| / scrollView.zoomScale)
        (|scrollView.boundsSize.width| / scrollView.zoomScale) := by
  have scale : 0 ≤ |scrollView.boundsSize.width| * (1 / scrollView.zoomScale) :=
    mul_nonneg (abs_nonneg _) (one_div_nonneg.mpr zoomed.le)
  unfold thumbnailFromView
  rw [← cgRect_rectToProp, EditorSync.propToRect_rectToProp screen scale scale]
  ext <;> exact mul_one_div _ _

/-- A published level is shown with the thumbnail of the view it was framed in. -/
theorem scrollRectToVisible_publishLv {levelData : LevelData} (described : levelData.levelMetadata.isSome) :
    scrollRectToVisible screen (publishLv levelData (thumbnailFromView screen scrollView)) =
      some (screen.propToRect (thumbnailFromView screen scrollView)) := by
  obtain ⟨levelMetadata, is⟩ := Option.isSome_iff_exists.mp described
  simp only [scrollRectToVisible, publishLv, is, Option.map_some, Option.bind_some, Option.bind_eq_bind]
  rw [thumbnailFromView, cgRect_rectToProp]

/-- The framed region is shown exactly if the view is square. -/
theorem thumbnail_region_iff (screen : Screen) (scrollView : ScrollView) (zoomed : 0 < scrollView.zoomScale) :
    screen.propToRect (thumbnailFromView screen scrollView) = visibleStage scrollView ↔
      0 ≤ scrollView.boundsSize.width ∧ scrollView.boundsSize.height = scrollView.boundsSize.width := by
  rw [propToRect_thumbnailFromView screen zoomed]
  simp only [visibleStage, CGRect.mk4, CGRect.mk.injEq, CGSize.mk.injEq, true_and,
    div_left_inj' zoomed.ne', abs_eq_self]
  refine and_congr_right fun wide => ?_
  rw [abs_of_nonneg wide, eq_comm]

/-- A small screen, and views on it at twice the size. -/
def phone : Screen := ⟨320, 568, by norm_num, by norm_num⟩

def zoomedView (width height : CGFloat) : ScrollView := ⟨⟨20, 40⟩, ⟨width, height⟩, 2⟩

/-- A square view comes back. -/
theorem squareView_shown :
    phone.propToRect (thumbnailFromView phone (zoomedView 100 100)) = .mk4 10 20 50 50 := by
  have square : 0 ≤ (zoomedView 100 100).boundsSize.width ∧
      (zoomedView 100 100).boundsSize.height = (zoomedView 100 100).boundsSize.width :=
    ⟨by norm_num [zoomedView], rfl⟩
  rw [(thumbnail_region_iff phone (zoomedView 100 100) two_pos).mpr square]
  ext <;> norm_num [visibleStage, zoomedView, CGRect.mk4]

/-- A view of 128 by 156 is shown 64 high, not 78. -/
theorem previewView_squared :
    phone.propToRect (thumbnailFromView phone (zoomedView 128 156)) ≠ visibleStage (zoomedView 128 156) := by
  intro shown
  rw [propToRect_thumbnailFromView phone two_pos] at shown
  have high := congrArg (fun rect => rect.size.height) shown
  norm_num [visibleStage, zoomedView, CGRect.mk4] at high

end Region
end
end Arthius.Guarantees.ThumbnailRegion
