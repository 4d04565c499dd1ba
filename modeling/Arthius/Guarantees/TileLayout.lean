import Mathlib.Algebra.Order.Floor.Semifield
import Arthius.Source.LevelSelectors

/-!
# Where the tiles of the selectors are

The column of a tile is counted by `xTiles` and its row by `yTiles`, and the
content is as high as the first page. So the tiles are in order, and all of them
can be reached, only on square grids and within so many rows.
-/
namespace Arthius.Guarantees.TileLayout
open Arthius.Source LevelSelectors

noncomputable section

section Pitch
variable {tiles : ℕ}

/-- From the start of one tile to the start of the next, in proportions of the view. -/
def pitch (tiles : ℕ) : ℝ := 23 / 25 / tiles

/-- How far a tile reaches, in proportions of the view. -/
def extent (tiles : ℕ) : ℝ := |pitch tiles - 1 / 50|

theorem pitch_pos (positive : 0 < tiles) : 0 < pitch tiles :=
  div_pos (by norm_num) (Nat.cast_pos.mpr positive)

theorem pitch_mul (positive : 0 < tiles) : pitch tiles * tiles = 23 / 25 :=
  div_mul_cancel₀ _ (Nat.cast_ne_zero.mpr positive.ne')

theorem tilePropWidth_eq (positive : 0 < tiles) : tilePropWidth tiles = pitch tiles - 1 / 50 := by
  have nonzero : (tiles : ℝ) ≠ 0 := Nat.cast_ne_zero.mpr positive.ne'
  rw [tilePropWidth, pitch, xMiddlePadding, sidePadding]
  field_simp
  ring

theorem tilePropHeight_eq (positive : 0 < tiles) : tilePropHeight tiles = pitch tiles - 1 / 50 :=
  tilePropWidth_eq positive

/-- A grid of 46 leaves nothing for the tiles. -/
theorem extent_pos_iff (positive : 0 < tiles) : 0 < extent tiles ↔ tiles ≠ 46 := by
  have product := pitch_mul positive
  rw [extent, abs_pos, not_iff_not, sub_eq_zero]
  constructor
  · intro same
    rw [same] at product
    have cast : (tiles : ℝ) = 46 := by linarith
    exact_mod_cast cast
  · rintro rfl
    norm_num at product
    linarith

/-- Beyond 92 tiles each one covers the start of the next. -/
theorem extent_le_pitch_iff (positive : 0 < tiles) : extent tiles ≤ pitch tiles ↔ tiles ≤ 92 := by
  have product := pitch_mul positive
  have above := pitch_pos positive
  have small : 1 / 100 ≤ pitch tiles ↔ tiles ≤ 92 := by
    rw [pitch, le_div_iff₀ (Nat.cast_pos.mpr positive), ← Nat.cast_le (α := ℝ)]
    constructor <;> intro le <;> push_cast at * <;> linarith
  rw [extent, abs_le, ← small]
  constructor
  · rintro ⟨lower, _⟩
    linarith
  · intro le
    constructor <;> linarith

theorem extent_le (positive : 0 < tiles) : extent tiles ≤ pitch tiles + 1 / 50 := by
  have above := pitch_pos positive
  rw [extent, abs_le]
  constructor <;> linarith

end Pitch

section Frame
variable {bounds : CGRect} {xTiles yTiles i : ℕ}

theorem tileFrame_eq (wide : 0 < xTiles) (high : 0 < yTiles) :
    tileFrame bounds xTiles yTiles i =
      .mk4 ((1 / 20 + pitch xTiles * (i % xTiles : ℕ)) * bounds.width)
        ((1 / 20 + pitch yTiles * (i / yTiles : ℕ)) * bounds.height) (bounds.width * extent xTiles)
        (bounds.height * extent yTiles) := by
  have column : truncated xTiles = xTiles := Nat.floor_natCast xTiles
  have row : truncated ((i : ℝ) / yTiles) = i / yTiles :=
    Nat.floor_div_eq_div i yTiles
  unfold tileFrame propToRectSelf
  rw [column, row, tilePropWidth_eq wide, tilePropHeight_eq high]
  simp only [CGRect.mk4, CGRect.width, CGRect.height, extent, startX, sidePadding, topPadding,
    xMiddlePadding, yMiddlePadding]
  ext <;> dsimp only <;> ring

/-- One tile ends where the other begins, or before. -/
theorem ends_before_iff {side p e : ℝ} (positive : 0 < side) (c d : ℕ) :
    (1 / 20 + p * c) * side + side * e ≤ (1 / 20 + p * d) * side ↔ p * c + e ≤ p * d := by
  have scaled : (1 / 20 + p * d) * side - ((1 / 20 + p * c) * side + side * e) =
      side * (p * d - (p * c + e)) := by ring
  rw [← sub_nonneg, scaled, mul_nonneg_iff_of_pos_left positive, sub_nonneg]

theorem ends_before {p e : ℝ} (above : 0 ≤ p) (le : e ≤ p) {c d : ℕ} (before : c < d) : p * c + e ≤ p * d := by
  have next : ((c + 1 : ℕ) : ℝ) ≤ d := Nat.cast_le.mpr before
  calc p * c + e ≤ p * c + p := by linarith
    _ = p * (c + 1 : ℕ) := by push_cast; ring
    _ ≤ p * d := mul_le_mul_of_nonneg_left next above

end Frame

section Property
variable {Tile : Type}

/-- In the same row at the same height and further right, in a later row below. -/
def InOrder (columns i j : ℕ) (a b : CGRect) : Prop :=
  if i / columns = j / columns then
    a.origin.y = b.origin.y ∧ a.origin.x + a.size.width ≤ b.origin.x
  else a.origin.y + a.size.height ≤ b.origin.y

def Visible (frame : CGRect) : Prop := 0 < frame.size.width ∧ 0 < frame.size.height

def Inside (contentSize : CGSize) (frame : CGRect) : Prop :=
  0 ≤ frame.origin.x ∧ 0 ≤ frame.origin.y ∧ frame.origin.x + frame.size.width ≤ contentSize.width ∧
    frame.origin.y + frame.size.height ≤ contentSize.height

/-- The tiles are visible, separate and in row-major order, and can be scrolled to. -/
structure Presentable (columns : ℕ) (view : UIScrollView Tile) : Prop where
  visible : ∀ tile ∈ view.subviews, Visible tile.2
  rowMajor : ∀ i j a b, i < j → view.subviews[i]? = some a → view.subviews[j]? = some b →
    InOrder columns i j a.2 b.2
  inside : ∀ tile ∈ view.subviews, Inside view.contentSize tile.2

/-- On a grid with these columns and rows, so many tiles fit into a content of so
many hundredths of the height of the view. This is exact in exact arithmetic: with 92 columns
neighbours touch, and the rounding of a `Double` can make them overlap by its last place. -/
structure Fits (bounds : CGRect) (xTiles yTiles hundredths count : ℕ) : Prop where
  wide : 0 < bounds.width
  high : 0 < bounds.height
  columns : xTiles ≠ 46
  rows : yTiles ≠ 46
  square : xTiles = yTiles ∨ count ≤ min xTiles yTiles
  apart : count ≤ 1 ∨ xTiles ≤ 92
  lastRow : 92 * ((count - 1) / yTiles + 1) + 3 * yTiles ≤ hundredths * yTiles ∧
    92 * ((count - 1) / yTiles) + 7 * yTiles ≤ 92 + hundredths * yTiles

variable {bounds : CGRect} {xTiles yTiles count : ℕ}

theorem mul_pos_iff_of_nonneg {a b : ℝ} (left : 0 ≤ a) (right : 0 ≤ b) : 0 < a * b ↔ 0 < a ∧ 0 < b := by
  constructor
  · intro positive
    exact ⟨left.lt_of_ne' (left_ne_zero_of_mul positive.ne'), right.lt_of_ne' (right_ne_zero_of_mul positive.ne')⟩
  · exact fun both => mul_pos both.1 both.2

theorem visible_iff (wide : 0 < xTiles) (high : 0 < yTiles) (i : ℕ) :
    Visible (tileFrame bounds xTiles yTiles i) ↔
      (0 < bounds.width ∧ xTiles ≠ 46) ∧ 0 < bounds.height ∧ yTiles ≠ 46 := by
  have widthNonneg : 0 ≤ bounds.width := abs_nonneg _
  have heightNonneg : 0 ≤ bounds.height := abs_nonneg _
  have xNonneg : 0 ≤ extent xTiles := abs_nonneg _
  have yNonneg : 0 ≤ extent yTiles := abs_nonneg _
  rw [tileFrame_eq wide high, ← extent_pos_iff wide, ← extent_pos_iff high,
    ← mul_pos_iff_of_nonneg widthNonneg xNonneg, ← mul_pos_iff_of_nonneg heightNonneg yNonneg]
  exact Iff.rfl

/-- On a square grid, or within the first row of any grid, the tiles are in order. -/
theorem inOrder_of_fits (wide : 0 < xTiles) (high : 0 < yTiles) (across : 0 < bounds.width)
    (down : 0 < bounds.height) (square : xTiles = yTiles ∨ count ≤ min xTiles yTiles) (apart : xTiles ≤ 92)
    {i j : ℕ} (before : i < j) (below : j < count) :
    InOrder xTiles i j (tileFrame bounds xTiles yTiles i) (tileFrame bounds xTiles yTiles j) := by
  have rowsSame : i / xTiles = i / yTiles ∧ j / xTiles = j / yTiles := by
    rcases square with rfl | small
    · exact ⟨rfl, rfl⟩
    · rw [Nat.div_eq_of_lt (by omega), Nat.div_eq_of_lt (by omega), Nat.div_eq_of_lt (by omega),
        Nat.div_eq_of_lt (by omega)]
      exact ⟨rfl, rfl⟩
  unfold InOrder
  rw [tileFrame_eq wide high, tileFrame_eq wide high]
  dsimp only [CGRect.mk4]
  split_ifs with same
  · have column : i % xTiles < j % xTiles := by
      have splitI := Nat.div_add_mod i xTiles
      have splitJ := Nat.div_add_mod j xTiles
      rw [same] at splitI
      omega
    rw [← rowsSame.1, ← rowsSame.2, same]
    refine ⟨rfl, (ends_before_iff across _ _).mpr ?_⟩
    exact ends_before (pitch_pos wide).le ((extent_le_pitch_iff wide).mpr apart) column
  · have row : i / yTiles < j / yTiles := by
      rw [← rowsSame.1, ← rowsSame.2]
      exact lt_of_le_of_ne (Nat.div_le_div_right before.le) same
    have rowsApart : yTiles ≤ 92 := by
      rcases square with rfl | small
      · exact apart
      · exact absurd (by rw [Nat.div_eq_of_lt (by omega), Nat.div_eq_of_lt (by omega)]) same
    refine (ends_before_iff down _ _).mpr ?_
    exact ends_before (pitch_pos high).le ((extent_le_pitch_iff high).mpr rowsApart) row

/-- Where the second tile is right of the first one there are at most 92 columns. -/
theorem columns_of_inOrder (wide : 0 < xTiles) (high : 0 < yTiles) (across : 0 < bounds.width)
    (ordered : InOrder xTiles 0 1 (tileFrame bounds xTiles yTiles 0) (tileFrame bounds xTiles yTiles 1)) :
    xTiles ≤ 92 := by
  by_cases single : xTiles = 1
  · omega
  · have more : 1 < xTiles := by omega
    unfold InOrder at ordered
    rw [tileFrame_eq wide high, tileFrame_eq wide high, Nat.div_eq_of_lt wide, Nat.div_eq_of_lt more,
      if_pos rfl] at ordered
    have right := (ends_before_iff across _ _).mp ordered.2
    rw [Nat.mod_eq_of_lt more, Nat.zero_mod, Nat.cast_zero, mul_zero, zero_add, Nat.cast_one, mul_one] at right
    exact (extent_le_pitch_iff wide).mp right

/-- Where the first tile of the second row, or of the second count of columns, is in order, the grid is square. -/
theorem square_of_inOrder (wide : 0 < xTiles) (high : 0 < yTiles) (visible : Visible (tileFrame bounds xTiles yTiles 0))
    (ordered : ∀ j, 0 < j → j < count →
      InOrder xTiles 0 j (tileFrame bounds xTiles yTiles 0) (tileFrame bounds xTiles yTiles j)) :
    xTiles = yTiles ∨ count ≤ min xTiles yTiles := by
  by_contra none_
  obtain ⟨differ, many⟩ := not_or.mp none_
  obtain ⟨⟨across, _⟩, down, _⟩ := (visible_iff wide high 0).mp visible
  rcases Nat.lt_or_gt_of_ne differ with less | more
  · -- the tile below the first one is still in the first row
    have ordered := ordered xTiles wide (by omega)
    unfold InOrder at ordered
    rw [Nat.zero_div, Nat.div_self wide, if_neg Nat.zero_ne_one, tileFrame_eq wide high, tileFrame_eq wide high,
      Nat.zero_div, Nat.div_eq_of_lt less] at ordered
    have bottom := (ends_before_iff down _ _).mp ordered
    have positive := (extent_pos_iff high).mpr ((visible_iff wide high 0).mp visible).2.2
    linarith
  · -- the tile that starts the second row comes within the columns of the first
    have ordered := ordered yTiles high (by omega)
    unfold InOrder at ordered
    rw [Nat.zero_div, Nat.div_eq_of_lt more, if_pos rfl, tileFrame_eq wide high, tileFrame_eq wide high,
      Nat.zero_div, Nat.div_self high] at ordered
    have top : (1 / 20 + pitch yTiles * (0 : ℕ)) * bounds.height = (1 / 20 + pitch yTiles * (1 : ℕ)) * bounds.height :=
      ordered.1
    have same := mul_right_cancel₀ down.ne' top
    have positive := pitch_pos high
    push_cast at same
    linarith

/-- In proportions of the view, a row is above the end of the content. -/
theorem bottom_le_iff {hundredths : ℕ} (high : 0 < yTiles) (row : ℕ) :
    1 / 20 + pitch yTiles * row + extent yTiles ≤ hundredths / 100 ↔
      92 * (row + 1) + 3 * yTiles ≤ hundredths * yTiles ∧ 92 * row + 7 * yTiles ≤ 92 + hundredths * yTiles := by
  have positive : (0 : ℝ) < yTiles := Nat.cast_pos.mpr high
  have product := pitch_mul high
  have rows : pitch yTiles * row * yTiles = 23 / 25 * row := by
    rw [mul_right_comm, product]
  have split : 1 / 20 + pitch yTiles * row + extent yTiles ≤ hundredths / 100 ↔
      1 / 20 + pitch yTiles * row + (pitch yTiles - 1 / 50) ≤ hundredths / 100 ∧
        1 / 20 + pitch yTiles * row + (1 / 50 - pitch yTiles) ≤ hundredths / 100 := by
    rw [extent, ← le_sub_iff_add_le', abs_le, ← le_sub_iff_add_le', ← le_sub_iff_add_le', and_comm]
    refine and_congr_right fun _ => ?_
    constructor <;> intro le <;> linarith
  rw [split]
  refine and_congr ?_ ?_ <;> rw [← mul_le_mul_iff_left₀ positive, ← Nat.cast_le (α := ℝ)] <;> push_cast <;>
    constructor <;> intro le <;> linarith

/-- The tiles of a row never reach the right edge, so only the bottom decides. -/
theorem inside_iff {hundredths : ℕ} (wide : 0 < xTiles) (high : 0 < yTiles) (down : 0 < bounds.height) (i : ℕ) :
    Inside ⟨bounds.width, bounds.height * (hundredths / 100)⟩ (tileFrame bounds xTiles yTiles i) ↔
      92 * (i / yTiles + 1) + 3 * yTiles ≤ hundredths * yTiles ∧
        92 * (i / yTiles) + 7 * yTiles ≤ 92 + hundredths * yTiles := by
  have widthNonneg : 0 ≤ bounds.width := abs_nonneg _
  have aboveX := (pitch_pos wide).le
  have aboveY := (pitch_pos high).le
  have left : 0 ≤ 1 / 20 + pitch xTiles * (i % xTiles : ℕ) := by positivity
  have top : 0 ≤ 1 / 20 + pitch yTiles * (i / yTiles : ℕ) := by positivity
  have right : 1 / 20 + pitch xTiles * (i % xTiles : ℕ) + extent xTiles ≤ 1 := by
    have next : ((i % xTiles + 1 : ℕ) : ℝ) ≤ xTiles := Nat.cast_le.mpr (Nat.mod_lt i wide)
    have whole := mul_le_mul_of_nonneg_left next aboveX
    rw [pitch_mul wide] at whole
    push_cast at whole
    linarith [extent_le wide]
  have bottom : (1 / 20 + pitch yTiles * (i / yTiles : ℕ)) * bounds.height + bounds.height * extent yTiles ≤
      bounds.height * (hundredths / 100) ↔
      1 / 20 + pitch yTiles * (i / yTiles : ℕ) + extent yTiles ≤ hundredths / 100 := by
    rw [mul_comm _ bounds.height, ← mul_add, mul_le_mul_iff_right₀ down]
  rw [← bottom_le_iff high, ← bottom, tileFrame_eq wide high]
  constructor
  · exact fun inside => inside.2.2.2
  · intro above
    refine ⟨mul_nonneg left widthNonneg, mul_nonneg top down.le, ?_, above⟩
    calc (1 / 20 + pitch xTiles * (i % xTiles : ℕ)) * bounds.width + bounds.width * extent xTiles
        = bounds.width * (1 / 20 + pitch xTiles * (i % xTiles : ℕ) + extent xTiles) := by ring
      _ ≤ bounds.width * 1 := mul_le_mul_of_nonneg_left right widthNonneg
      _ = bounds.width := mul_one _

theorem forall_tile_iff {contentPropHeight : CGFloat} {tiles : List Tile} {P : CGRect → Prop} :
    (∀ tile ∈ (layTiles bounds xTiles yTiles contentPropHeight tiles).subviews, P tile.2) ↔
      ∀ i < tiles.length, P (tileFrame bounds xTiles yTiles i) := by
  simp only [layTiles, List.mem_mapIdx]
  constructor
  · exact fun all i below => all _ ⟨i, below, rfl⟩
  · rintro all _ ⟨i, below, rfl⟩
    exact all i below

theorem subviews_getElem? {contentPropHeight : CGFloat} {tiles : List Tile} {i : ℕ} (below : i < tiles.length) :
    (layTiles bounds xTiles yTiles contentPropHeight tiles).subviews[i]? =
      some (tiles[i], tileFrame bounds xTiles yTiles i) := by
  simp [layTiles, below]

/-- A layout is presentable exactly if the tiles fit. -/
theorem layTiles_presentable_iff {contentPropHeight : CGFloat} {hundredths : ℕ} (wide : 0 < xTiles)
    (high : 0 < yTiles) (content : contentPropHeight = hundredths / 100) (tiles : List Tile) :
    Presentable xTiles (layTiles bounds xTiles yTiles contentPropHeight tiles) ↔
      tiles = [] ∨ Fits bounds xTiles yTiles hundredths tiles.length := by
  have size : (layTiles bounds xTiles yTiles contentPropHeight tiles).contentSize =
      ⟨bounds.width, bounds.height * (hundredths / 100)⟩ := by
    have nonneg : (0 : ℝ) ≤ hundredths / 100 := by positivity
    ext <;> simp [layTiles, propToRectSelf, CGRect.mk4, CGRect.width, CGRect.height, content, abs_of_nonneg nonneg]
  by_cases none_ : tiles = []
  · subst none_
    refine iff_of_true ⟨?_, ?_, ?_⟩ (.inl rfl) <;> simp [layTiles]
  · rw [or_iff_right none_]
    have some_ : 0 < tiles.length := List.length_pos_iff.mpr none_
    constructor
    · intro presentable
      have visible := forall_tile_iff.mp presentable.visible
      have inside := forall_tile_iff.mp presentable.inside
      have ordered : ∀ i j, i < j → j < tiles.length →
          InOrder xTiles i j (tileFrame bounds xTiles yTiles i) (tileFrame bounds xTiles yTiles j) := by
        intro i j before below
        exact presentable.rowMajor i j _ _ before (subviews_getElem? (before.trans below)) (subviews_getElem? below)
      obtain ⟨⟨across, columns⟩, down, rows⟩ := (visible_iff wide high 0).mp (visible 0 some_)
      rw [size] at inside
      refine ⟨across, down, columns, rows, ?_, ?_, ?_⟩
      · exact square_of_inOrder wide high (visible 0 some_) (ordered 0)
      · refine (Nat.lt_or_ge 1 tiles.length).symm.imp_right fun two => ?_
        exact columns_of_inOrder wide high across (ordered 0 1 Nat.one_pos two)
      · exact (inside_iff wide high down _).mp (inside _ (Nat.sub_lt some_ Nat.one_pos))
    · intro fits
      refine ⟨forall_tile_iff.mpr fun i _ => ?_, ?_, forall_tile_iff.mpr fun i below => ?_⟩
      · exact (visible_iff wide high i).mpr ⟨⟨fits.wide, fits.columns⟩, fits.high, fits.rows⟩
      · intro i j a b before atI atJ
        have below : j < tiles.length := by
          have inside := (List.getElem?_eq_some_iff.mp atJ).1
          simpa [layTiles] using inside
        rw [subviews_getElem? (before.trans below), Option.some.injEq] at atI
        rw [subviews_getElem? below, Option.some.injEq] at atJ
        subst atI atJ
        have apart : xTiles ≤ 92 := fits.apart.resolve_left (by omega)
        exact inOrder_of_fits wide high fits.wide fits.high fits.square apart before below
      · have last : i / yTiles ≤ (tiles.length - 1) / yTiles := Nat.div_le_div_right (by omega)
        have lastRow := fits.lastRow
        rw [size]
        exact (inside_iff wide high fits.high i).mpr (by omega)

end Property

section Selectors
variable {bounds : CGRect} {xTiles yTiles : ℕ}

theorem levelSelector_content (high : 0 < yTiles) :
    tilePropHeight yTiles * yTiles + yMiddlePadding * yTiles = (92 : ℕ) / 100 := by
  have product := pitch_mul high
  rw [tilePropHeight_eq high, yMiddlePadding]
  push_cast
  linarith

/-- What gets one more tile for each level has as many tiles as levels. -/
theorem length_of_cons {Tile : Type} (update : List LevelData → Option (List Tile)) (none_ : update [] = some [])
    (cons : ∀ level rest tiles, update (level :: rest) = some tiles →
      ∃ tile later, update rest = some later ∧ tile :: later = tiles)
    {levels : List LevelData} {tiles : List Tile} (updated : update levels = some tiles) :
    tiles.length = levels.length := by
  induction levels generalizing tiles with
  | nil =>
    rw [none_] at updated
    cases updated
    rfl
  | cons level rest ih =>
    obtain ⟨tile, later, others, rfl⟩ := cons level rest tiles updated
    rw [List.length_cons, ih others, List.length_cons]

theorem campaignTiles_length {progress : Progress} {allLevels : List LevelData} {tiles : List CampaignPlay.Tile}
    (updated : CampaignPlay.updateLevels progress allLevels = some tiles) : tiles.length = allLevels.length := by
  refine length_of_cons (CampaignPlay.updateLevels progress) rfl (fun level rest tiles updated => ?_) updated
  obtain ⟨_, _, updated⟩ := Option.bind_eq_some_iff.mp updated
  obtain ⟨_, _, updated⟩ := Option.bind_eq_some_iff.mp updated
  obtain ⟨later, others, updated⟩ := Option.bind_eq_some_iff.mp updated
  exact ⟨_, later, others, Option.some.inj updated⟩

theorem globalTiles_length {downloads : List (String × ℕ)} {levels : List LevelData}
    {tiles : List (LevelData × ℕ)} (updated : GlobalLevels.updateLevels downloads levels = some tiles) :
    tiles.length = levels.length := by
  refine length_of_cons (GlobalLevels.updateLevels downloads) rfl (fun level rest tiles updated => ?_) updated
  obtain ⟨_, _, updated⟩ := Option.bind_eq_some_iff.mp updated
  obtain ⟨_, _, updated⟩ := Option.bind_eq_some_iff.mp updated
  obtain ⟨later, others, updated⟩ := Option.bind_eq_some_iff.mp updated
  exact ⟨_, later, others, Option.some.inj updated⟩

/-- Every tile of a selector can be seen and reached exactly if the tiles fit:
into 92 hundredths of the height for the levels of the player, into all of it
for the campaign and for the levels of others. -/
theorem tiles_presentable_iff (bounds : CGRect) (xTiles yTiles : ℕ) (wide : 0 < xTiles) (high : 0 < yTiles) :
    (∀ newLevels, Presentable xTiles (LevelSelector.updateLevels bounds xTiles yTiles newLevels) ↔
      newLevels = [] ∨ Fits bounds xTiles yTiles 92 newLevels.length) ∧
    (∀ allLevels progress view,
      CampaignLevelSelector.updateLevels bounds xTiles yTiles allLevels progress = some view →
        (Presentable xTiles view ↔ allLevels = [] ∨ Fits bounds xTiles yTiles 100 allLevels.length)) ∧
    ∀ newLevels downloads view,
      GLSLevelSelector.updateLevels bounds xTiles yTiles newLevels downloads = some view →
        (Presentable xTiles view ↔ newLevels = [] ∨ Fits bounds xTiles yTiles 100 newLevels.length) := by
  have whole : (1 : ℝ) = (100 : ℕ) / 100 := by norm_num
  refine ⟨fun newLevels => ?_, fun allLevels progress view updated => ?_, fun newLevels downloads view updated => ?_⟩
  · exact layTiles_presentable_iff wide high (levelSelector_content high) newLevels
  · obtain ⟨tiles, filled, rfl⟩ := Option.map_eq_some_iff.mp updated
    have length := campaignTiles_length filled
    rw [layTiles_presentable_iff wide high whole, length, ← List.length_eq_zero_iff, length, List.length_eq_zero_iff]
  · obtain ⟨tiles, filled, rfl⟩ := Option.map_eq_some_iff.mp updated
    have length := globalTiles_length filled
    rw [layTiles_presentable_iff wide high whole, length, ← List.length_eq_zero_iff, length, List.length_eq_zero_iff]

/-- The view in which the levels of the player are shown on a tablet. -/
def selectorBounds : CGRect := .mk4 0 0 768 563

theorem selectorBounds_size : 0 < selectorBounds.width ∧ 0 < selectorBounds.height := by
  norm_num [selectorBounds, CGRect.mk4, CGRect.width, CGRect.height]

/-- Six levels on a grid of three by three. -/
theorem sixLevels_presentable :
    Presentable 3 (LevelSelector.updateLevels selectorBounds (3 : ℕ) (3 : ℕ) (List.replicate 6 {})) := by
  refine ((tiles_presentable_iff selectorBounds 3 3 (by decide) (by decide)).1 _).mpr (.inr ?_)
  exact ⟨selectorBounds_size.1, selectorBounds_size.2, by decide, by decide, .inl rfl, .inr (by decide),
    by decide⟩

/-- The seventh one starts the last row, which ends below the content. -/
theorem sevenLevels_cut :
    ¬ Presentable 3 (LevelSelector.updateLevels selectorBounds (3 : ℕ) (3 : ℕ) (List.replicate 7 {})) := by
  intro presentable
  have high : 0 < 3 := by decide
  rcases (layTiles_presentable_iff high high (levelSelector_content high) _).mp presentable with none_ | fits
  · cases none_
  · have lastRow := fits.lastRow
    rw [List.length_replicate] at lastRow
    omega

end Selectors
end
end Arthius.Guarantees.TileLayout
