import Arthius.Guarantees.PredictionFreshness

/-!
# The stage on a scaled screen

Levels are stored in proportional units. On a screen scaled by `k`, everything
`LevelView.init` puts on the stage is scaled by `k`, except the masses of the
wells; the pull of a scaled well, at the scaled point, is the original one
divided by the square of `k`.
-/
namespace Arthius.Guarantees.ScaledStage
open Arthius.Lib Arthius.Source PredictionFrame

noncomputable section

section Scale
variable (k : ℝ)

def scaledScreen (screen : Screen) (positive : 0 < k) : Screen :=
  ⟨k * screen.width, k * screen.height, mul_pos positive screen.width_pos,
    mul_pos positive screen.height_pos⟩

def scalePoint (p : CGPoint) : CGPoint := ⟨k * p.x, k * p.y⟩
def scaleVector (v : CGVector) : CGVector := ⟨k * v.dx, k * v.dy⟩
def scaleRect (r : CGRect) : CGRect := ⟨scalePoint k r.origin, ⟨k * r.size.width, k * r.size.height⟩⟩

def scaleWell (well : GravityWell) : GravityWell where
  corePoint := scalePoint k well.corePoint
  center := scalePoint k well.center
  coreDiameter := k * well.coreDiameter
  areaOfEffectDiameter := k * well.areaOfEffectDiameter
  mass := well.mass

def scaleZone (zone : AntiGravityZone) : AntiGravityZone := ⟨scaleRect k zone.frame, zone.color⟩

def scaleBox (box : ColorBox) : ColorBox := { box with frame := scaleRect k box.frame }

/-- What becomes of a force. -/
def scaleForce (v : CGVector) : CGVector := v * (1 / (k * k))

theorem scaleForce_zero : scaleForce k CGVector.zero = CGVector.zero := by
  ext <;> simp [scaleForce]

/-- A drawn piece with its points and its thickness scaled. -/
def scalePiece (piece : DummyLine) : DummyLine :=
  { piece with
    linePath := piece.linePath.map (scalePoint k)
    currentPoint := scalePoint k piece.currentPoint
    lineThickness := k * piece.lineThickness }

end Scale

section Laws
variable {k : ℝ} (positive : 0 < k)
include positive

theorem propToFloat_scaled (screen : Screen) (prop : CGFloat) (scaleWithX : Bool) :
    (scaledScreen k screen positive).propToFloat prop scaleWithX =
      k * screen.propToFloat prop scaleWithX := by
  cases scaleWithX <;> simp only [Screen.propToFloat, scaledScreen, if_true, Bool.false_eq_true, if_false] <;>
    ring

theorem propToPoint_scaled (screen : Screen) (prop : CGPoint) :
    (scaledScreen k screen positive).propToPoint prop = scalePoint k (screen.propToPoint prop) := by
  simp only [Screen.propToPoint, propToFloat_scaled, scalePoint]

theorem propToVector_scaled (screen : Screen) (prop : CGVector) :
    (scaledScreen k screen positive).propToVector prop = scaleVector k (screen.propToVector prop) := by
  simp only [Screen.propToVector, propToFloat_scaled, scaleVector]

theorem propToRect_scaled (screen : Screen) (prop : CGRect) :
    (scaledScreen k screen positive).propToRect prop = scaleRect k (screen.propToRect prop) := by
  simp only [Screen.propToRect, CGRect.mk4, scaledScreen, scaleRect, scalePoint, CGRect.mk.injEq,
    CGPoint.mk.injEq, CGSize.mk.injEq]
  refine ⟨⟨?_, ?_⟩, ?_, ?_⟩ <;> ring

theorem width_scaled (r : CGRect) : (scaleRect k r).width = k * r.width := by
  rw [CGRect.width, scaleRect, abs_mul, abs_of_pos positive, CGRect.width]

theorem height_scaled (r : CGRect) : (scaleRect k r).height = k * r.height := by
  rw [CGRect.height, scaleRect, abs_mul, abs_of_pos positive, CGRect.height]

theorem minX_scaled (r : CGRect) : (scaleRect k r).minX = k * r.minX := by
  rw [CGRect.minX, CGRect.minX, mul_min_of_nonneg _ _ positive.le, mul_add]
  rfl

theorem minY_scaled (r : CGRect) : (scaleRect k r).minY = k * r.minY := by
  rw [CGRect.minY, CGRect.minY, mul_min_of_nonneg _ _ positive.le, mul_add]
  rfl

theorem contains_scaled (r : CGRect) (p : CGPoint) :
    (scaleRect k r).contains (scalePoint k p) ↔ r.contains p := by
  simp only [CGRect.contains, minX_scaled positive, minY_scaled positive, width_scaled positive,
    height_scaled positive, scalePoint, ← mul_add, mul_le_mul_iff_right₀ positive,
    mul_lt_mul_iff_right₀ positive]

theorem convertToBody_scaled (box : ColorBox) (p : CGPoint) :
    (scaleBox k box).convertToBody (scalePoint k p) = scalePoint k (box.convertToBody p) := by
  simp only [ColorBox.convertToBody, scaleBox, width_scaled positive, height_scaled positive,
    minX_scaled positive, minY_scaled positive, scalePoint, CGPoint.mk.injEq]
  constructor <;> ring

omit positive in
theorem mk4_scaled (x y width height : CGFloat) : scaleRect k (.mk4 x y width height) =
    .mk4 (k * x) (k * y) (k * width) (k * height) := rfl

/-- The views of a scaled box are scaled. -/
theorem views_scaled (box : ColorBox) :
    (scaleBox k box).bodyBounds = scaleRect k box.bodyBounds ∧
      (scaleBox k box).leftFrame = scaleRect k box.leftFrame ∧
      (scaleBox k box).rightFrame = scaleRect k box.rightFrame := by
  have width : (scaleBox k box).frame.width = k * box.frame.width := width_scaled positive box.frame
  have height : (scaleBox k box).frame.height = k * box.frame.height := height_scaled positive box.frame
  have middle : (scaleBox k box).middlePropWidth = box.middlePropWidth := rfl
  have side : k * box.frame.width / 2 - box.middlePropWidth / 2 * (k * box.frame.width) =
      k * (box.frame.width / 2 - box.middlePropWidth / 2 * box.frame.width) := by ring
  have far : k * box.frame.width / 2 + box.middlePropWidth / 2 * (k * box.frame.width) =
      k * (box.frame.width / 2 + box.middlePropWidth / 2 * box.frame.width) := by ring
  refine ⟨?_, ?_, ?_⟩
  · rw [ColorBox.bodyBounds, ColorBox.bodyBounds, mk4_scaled, width, height, mul_zero]
  · rw [ColorBox.leftFrame, ColorBox.leftFrame, mk4_scaled, width, height, middle, side, mul_zero]
  · rw [ColorBox.rightFrame, ColorBox.rightFrame, mk4_scaled, width, height, middle, side, far, mul_zero]

/-- A scaled box is to a scaled point what the box is to the point. -/
theorem alike_scaled (box : ColorBox) (p : CGPoint) : Alike box (scaleBox k box) p (scalePoint k p) := by
  obtain ⟨body, left, right⟩ := views_scaled positive box
  refine ⟨rfl, rfl, ?_, ?_, ?_⟩
  · rw [ColorBox.pointInBody, body, convertToBody_scaled positive, contains_scaled positive,
      ColorBox.pointInBody]
  · rw [ColorBox.pointInLeftRect, left, convertToBody_scaled positive, contains_scaled positive,
      ColorBox.pointInLeftRect]
  · rw [ColorBox.pointInRightRect, right, convertToBody_scaled positive, contains_scaled positive,
      ColorBox.pointInRightRect]

theorem length_scaled (v : CGVector) : (scaleVector k v).length = k * v.length := by
  have square : k * v.dx * (k * v.dx) + k * v.dy * (k * v.dy) = k * k * (v.dx * v.dx + v.dy * v.dy) := by
    ring
  rw [CGVector.length, scaleVector, square, Real.sqrt_mul (mul_self_nonneg k),
    Real.sqrt_mul_self positive.le, CGVector.length]

theorem distance_scaled (a b : CGPoint) :
    distance (scalePoint k a) (scalePoint k b) = k * distance a b := by
  have square : (k * a.x - k * b.x) * (k * a.x - k * b.x) + (k * a.y - k * b.y) * (k * a.y - k * b.y) =
      k * k * ((a.x - b.x) * (a.x - b.x) + (a.y - b.y) * (a.y - b.y)) := by
    ring
  simp only [distance, scalePoint]
  rw [square, Real.sqrt_mul (mul_self_nonneg k), Real.sqrt_mul_self positive.le]

/-- The pull of a scaled well. -/
theorem force_scaled (well : GravityWell) (p : CGPoint) :
    (scaleWell k well).force (scalePoint k p) = scaleForce k (well.force p) := by
  have angle : atan2 (k * well.center.y - k * p.y) (k * well.center.x - k * p.x) =
      atan2 (well.center.y - p.y) (well.center.x - p.x) := by
    have scaled : (⟨k * well.center.x - k * p.x, k * well.center.y - k * p.y⟩ : ℂ) =
        (k : ℂ) * ⟨well.center.x - p.x, well.center.y - p.y⟩ := by
      apply Complex.ext <;> simp [mul_sub]
    rw [atan2, atan2, scaled, Complex.arg_real_mul _ positive]
  have strength : ∀ a d : ℝ, a / (k * d * (k * d)) = a / (d * d) * (1 / (k * k)) := by
    intro a d
    rw [mul_mul_mul_comm, div_mul_div_comm, mul_one, mul_comm (k * k)]
  have apart : distance (scalePoint k p) (scaleWell k well).center = k * distance p well.center :=
    distance_scaled positive p well.center
  unfold GravityWell.force scaleForce
  rw [apart]
  simp only [scaleWell, scalePoint, angle, strength]
  ext <;> simp only [CGVector.smul_dx, CGVector.smul_dy] <;> ring

theorem sumGravityForces_scaled (p : CGPoint) (forces : CGVector) (wells : List GravityWell) :
    sumGravityForces (scalePoint k p) (scaleForce k forces) (wells.map (scaleWell k)) =
      (sumGravityForces p forces wells).map (scaleForce k) := by
  induction wells generalizing forces with
  | nil => rfl
  | cons well rest ih =>
    have apart : distance (scalePoint k p) (scaleWell k well).center = k * distance p well.center :=
      distance_scaled positive p well.center
    have near : k * distance p well.center < (scaleWell k well).areaOfEffectDiameter / 2 ↔
        distance p well.center < well.areaOfEffectDiameter / 2 := by
      rw [show (scaleWell k well).areaOfEffectDiameter / 2 = k * (well.areaOfEffectDiameter / 2) from
        mul_div_assoc _ _ _, mul_lt_mul_iff_right₀ positive]
    have added : scaleForce k forces + scaleForce k (well.force p) =
        scaleForce k (forces + well.force p) := by
      ext <;> simp only [scaleForce, CGVector.add_dx, CGVector.add_dy, CGVector.smul_dx, CGVector.smul_dy] <;> ring
    simp only [List.map_cons, sumGravityForces, apart, near, mul_eq_zero, positive.ne', false_or,
      force_scaled positive, added, ih]
    split_ifs <;> rfl

/-- The force of the scaled stage at the scaled point. -/
theorem forcesAt_scaled (wells : List GravityWell) (zones : List AntiGravityZone) (p : CGPoint) :
    forcesAt (wells.map (scaleWell k)) (zones.map (scaleZone k)) (scalePoint k p) =
      (forcesAt wells zones p).map (scaleForce k) := by
  have outside : calculateGravityForces (wells.map (scaleWell k)) (scalePoint k p) =
      (calculateGravityForces wells p).map (scaleForce k) := by
    have law := sumGravityForces_scaled positive p CGVector.zero wells
    rw [scaleForce_zero] at law
    exact law
  unfold forcesAt
  rw [outside]
  generalize calculateGravityForces wells p = forces
  induction zones generalizing forces with
  | nil => rfl
  | cons zone rest ih =>
    have inZone : (scaleZone k zone).frame.contains (scalePoint k p) ↔ zone.frame.contains p :=
      contains_scaled positive zone.frame p
    simp only [List.map_cons, List.foldl_cons, inZone]
    rw [← ih]
    congr 1
    split_ifs
    · rw [Option.map_some, scaleForce_zero]
    · rfl

end Laws

section Stage
open LevelView PredictionFreshness

/-- What a line restarts from. -/
structure Start where
  position : CGPoint
  velocity : CGVector
  color : Color
  thickness : CGFloat

def startOf (line : Line) : Start :=
  ⟨line.startPosition, line.startVelocity, line.startColor, line.startThickness⟩

def scaleStart (k : ℝ) (start : Start) : Start :=
  ⟨scalePoint k start.position, scaleVector k start.velocity, start.color, k * start.thickness⟩

variable (screen : Screen)

def lineOf (data : LineData) : Option Start := do
  let position ← data.startPosition
  let velocity ← data.startVelocity
  let color ← data.startColor
  some ⟨screen.propToPoint position.cgPoint, screen.propToVector velocity.cgVector, color,
    screen.propToFloat data.startThickness true⟩

def zoneOf (data : AntiGravityData) : Option AntiGravityZone := do
  let frame ← data.frame
  let color ← data.color
  some ⟨screen.propToRect frame.cgRect, color⟩

def wellOf (data : GravityWellData) : Option GravityWell := do
  let position ← data.position
  some (WellView.new (screen.propToPoint position.cgPoint) (screen.propToFloat data.coreDiameter true)
    (screen.propToFloat data.areaOfEffectDiameter true) data.mass).toGravityWell

def boxOf (data : ColorBoxData) : Option ColorBox := do
  let frame ← data.frame
  let leftColor ← data.leftColor
  let rightColor ← data.rightColor
  let backgroundColor ← data.backgroundColor
  some { frame := screen.propToRect frame.cgRect, rotation := data.rotation, leftColor := leftColor
         rightColor := rightColor, backgroundColor := backgroundColor
         middlePropWidth := data.middlePropWidth }

/-- Each element of the level is on the stage, in order. -/
abbrev Placed {α β : Type} (place : α → Option β) (data : List α) (placed : List β) : Prop :=
  List.Forall₂ (fun d b => place d = some b) data placed

/-- The stage of a level on a screen, with all flags of the boxes down. -/
structure StageOf (level : LevelData) (view : LevelView) : Prop where
  lines : Placed (lineOf screen) level.lineData (view.lines.map startOf)
  zones : Placed (zoneOf screen) level.antiGravityZones view.antiGravityZones
  wells : Placed (wellOf screen) level.gravityWells view.gravityWells
  boxes : Placed (boxOf screen) level.colorBoxData view.scaledColorBoxes

variable {screen} {fuel : ℕ} {view view' : LevelView}

theorem setupLines_placed {uuidString : ℕ → String} {i : ℕ} {data : List LineData} {lines : List Line}
    (success : setupLines screen uuidString i data = some lines) :
    Placed (lineOf screen) data (lines.map startOf) := by
  induction data generalizing i lines with
  | nil =>
    cases success
    exact List.Forall₂.nil
  | cons line rest ih =>
    obtain ⟨_, others, ⟨_, _, _, position, velocity, color, rfl⟩, later, rfl⟩ := setupLines_cons success
    refine List.Forall₂.cons ?_ (ih later)
    simp [lineOf, position, velocity, color, startOf, Line.new, Line.reset]

theorem setupZones_placed {data : List AntiGravityData} {zones : List AntiGravityZone}
    (success : setupAntiGrvityZones screen data = some zones) : Placed (zoneOf screen) data zones := by
  induction data generalizing zones with
  | nil =>
    cases success
    exact List.Forall₂.nil
  | cons zone rest ih =>
    obtain ⟨frame, hframe, success⟩ := Option.bind_eq_some_iff.mp success
    obtain ⟨color, hcolor, success⟩ := Option.bind_eq_some_iff.mp success
    obtain ⟨others, later, success⟩ := Option.bind_eq_some_iff.mp success
    cases success
    refine List.Forall₂.cons ?_ (ih later)
    simp [zoneOf, hframe, hcolor]

/-- The new well is put behind those on the stage. -/
theorem createGravityWell_placed {point : CGPoint} {core areaOfEffectDiameter mass : CGFloat}
    (listed : Listed view)
    (success : view.createGravityWell fuel point core areaOfEffectDiameter mass = some view') :
    view'.gravityWells = view.gravityWells ++
        [(WellView.new point core areaOfEffectDiameter mass).toGravityWell] ∧
      Listed view' ∧ view'.screen = view.screen ∧ view'.antiGravityZones = view.antiGravityZones := by
  obtain ⟨wells, scaledWells, _, count, zones, screen, _⟩ := updatePredictPath_wells success
  refine ⟨wells.trans (listed.withWell_gravityWells _ _ _ _), ?_, screen, zones⟩
  unfold Listed
  rw [scaledWells, count]
  exact listed.withWell _ _ _ _

theorem createGravityWellsFromLevel_placed {data : List GravityWellData} (listed : Listed view)
    (here : view.screen = screen) (success : createGravityWellsFromLevel fuel data view = some view') :
    (∃ wells, Placed (wellOf screen) data wells ∧ view'.gravityWells = view.gravityWells ++ wells) ∧
      view'.screen = screen ∧ view'.antiGravityZones = view.antiGravityZones := by
  induction data generalizing view with
  | nil =>
    cases success
    exact ⟨⟨[], List.Forall₂.nil, (List.append_nil _).symm⟩, here, rfl⟩
  | cons gWell rest ih =>
    obtain ⟨position, hposition, success⟩ := Option.bind_eq_some_iff.mp success
    obtain ⟨created, first, success⟩ := Option.bind_eq_some_iff.mp success
    obtain ⟨added, listedNow, sameScreen, sameZones⟩ := createGravityWell_placed listed first
    obtain ⟨⟨wells, placed, all⟩, screenRest, zonesRest⟩ :=
      ih listedNow (sameScreen.trans here) success
    rw [added, here, List.append_assoc] at all
    refine ⟨⟨_, List.Forall₂.cons ?_ placed, all⟩, screenRest, zonesRest.trans sameZones⟩
    simp [wellOf, hposition]

theorem createColorBoxesFromLevel_placed {data : List ColorBoxData} (here : view.screen = screen)
    (success : createColorBoxesFromLevel data view = some view') :
    (∃ boxes, Placed (boxOf screen) data boxes ∧
      view'.scaledColorBoxes = view.scaledColorBoxes ++ boxes) ∧
      view'.gravityWells = view.gravityWells ∧ view'.antiGravityZones = view.antiGravityZones := by
  induction data generalizing view with
  | nil =>
    cases success
    exact ⟨⟨[], List.Forall₂.nil, (List.append_nil _).symm⟩, rfl, rfl⟩
  | cons cBox rest ih =>
    obtain ⟨frame, hframe, success⟩ := Option.bind_eq_some_iff.mp success
    obtain ⟨leftColor, hleft, success⟩ := Option.bind_eq_some_iff.mp success
    obtain ⟨rightColor, hright, success⟩ := Option.bind_eq_some_iff.mp success
    obtain ⟨backgroundColor, hbackground, success⟩ := Option.bind_eq_some_iff.mp success
    obtain ⟨⟨boxes, placed, all⟩, wells, zones⟩ := ih (by exact here) success
    rw [createColorBox, List.append_assoc] at all
    refine ⟨⟨_, List.Forall₂.cons ?_ placed, all⟩, wells, zones⟩
    simp [boxOf, hframe, hleft, hright, hbackground, here]

/-- What `LevelView.init` builds. -/
theorem init_stage {uuidString : ℕ → String} {level : LevelData}
    (success : init fuel screen uuidString level = some view) : StageOf screen level view := by
  obtain ⟨_, _, lines, setup, same⟩ := init_effects success
  obtain ⟨_, _, zones, withWells, _, _, setupZones, wells, boxes⟩ := init_some success
  obtain ⟨_, _, _, _, noBoxes⟩ := createGravityWellsFromLevel_effects wells (fun _ => rfl) rfl
  obtain ⟨⟨placedWells, wellsPlaced, wellsAre⟩, here, zonesAre⟩ :=
    createGravityWellsFromLevel_placed (fun _ none_ => by cases none_) rfl wells
  obtain ⟨⟨placedBoxes, boxesPlaced, boxesAre⟩, sameWells, sameZones⟩ :=
    createColorBoxesFromLevel_placed here boxes
  have starts : view.lines.map startOf = lines.map startOf := map_of_restart (fun _ => rfl) same
  refine ⟨starts ▸ setupLines_placed setup, ?_, ?_, ?_⟩
  · rw [sameZones, zonesAre]
    exact setupZones_placed setupZones
  · rw [sameWells, wellsAre]
    exact wellsPlaced
  · rw [boxesAre, noBoxes]
    exact boxesPlaced

/-- Two ways to place the same data, one the image of the other. -/
theorem placed_map {α β γ : Type} {place : α → Option β} {place' : α → Option γ} {image : β → γ}
    (scaled : ∀ a, place' a = (place a).map image) {data : List α} {placed : List β} {placed' : List γ}
    (first : Placed place data placed) (second : Placed place' data placed') :
    placed' = placed.map image := by
  induction first generalizing placed' with
  | nil =>
    cases second
    rfl
  | cons head _ ih =>
    cases second with
    | cons head' rest' =>
      rw [scaled, head] at head'
      rw [List.map_cons, ih rest', ← Option.some.inj head']

variable {k : ℝ} (positive : 0 < k)
include positive

/-- The stages of one level on a screen and on the scaled one. -/
theorem StageOf.scaled {level : LevelData} (stage : StageOf screen level view)
    (stage' : StageOf (scaledScreen k screen positive) level view') :
    view'.lines.map startOf = (view.lines.map startOf).map (scaleStart k) ∧
      view'.antiGravityZones = view.antiGravityZones.map (scaleZone k) ∧
      view'.gravityWells = view.gravityWells.map (scaleWell k) ∧
      view'.scaledColorBoxes = view.scaledColorBoxes.map (scaleBox k) := by
  refine ⟨placed_map (fun data => ?_) stage.lines stage'.lines,
    placed_map (fun data => ?_) stage.zones stage'.zones,
    placed_map (fun data => ?_) stage.wells stage'.wells,
    placed_map (fun data => ?_) stage.boxes stage'.boxes⟩
  · unfold lineOf
    cases data.startPosition <;> cases data.startVelocity <;> cases data.startColor <;>
      simp [propToPoint_scaled positive, propToVector_scaled positive, propToFloat_scaled positive,
        scaleStart]
  · unfold zoneOf
    cases data.frame <;> cases data.color <;> simp [propToRect_scaled positive, scaleZone]
  · unfold wellOf
    cases data.position <;>
      simp [propToPoint_scaled positive, propToFloat_scaled positive, scaleWell, WellView.new]
  · unfold boxOf
    cases data.frame <;> cases data.leftColor <;> cases data.rightColor <;>
      cases data.backgroundColor <;> simp [propToRect_scaled positive, scaleBox]

end Stage
end
end Arthius.Guarantees.ScaledStage
