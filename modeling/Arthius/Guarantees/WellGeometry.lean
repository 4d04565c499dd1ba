import Arthius.Guarantees.PredictionFrame
import Arthius.Source.DoubleRounding
import Arthius.Source.WellStage

/-!
# One circle centre for forces and collisions

A well keeps its geometry four times: the frame of the view, the frame of the
core view, the core point and the diameters. In exact arithmetic every gesture
keeps them in step. In `Double` the centre is computed from the frame, which may
lose the last digits of the core point.
-/
namespace Arthius.Guarantees.WellGeometry
open Arthius.Lib Arthius.Source PredictionFrame

noncomputable section

section Frames

/-- The square of a side around a point. -/
def squareAround (center : CGPoint) (side : CGFloat) : CGRect :=
  .mk4 (center.x - side / 2) (center.y - side / 2) side side

theorem midpoint (x width : CGFloat) : min x (x + width) + |width| / 2 = x + width / 2 := by
  rcases le_total 0 width with wide | flipped
  · rw [min_eq_left (by linarith), abs_of_nonneg wide]
  · rw [min_eq_right (by linarith), abs_of_nonpos flipped]
    ring

theorem withFrame_frameAt (corePoint : CGPoint) (areaOfEffectDiameter : CGFloat) :
    UIView.withFrame (StageWell.frameAt corePoint areaOfEffectDiameter) =
      ⟨corePoint, ⟨|areaOfEffectDiameter|, |areaOfEffectDiameter|⟩⟩ := by
  simp only [UIView.withFrame, StageWell.frameAt, CGRect.mk4, CGRect.midX, CGRect.midY, CGRect.minX,
    CGRect.minY, CGRect.width, CGRect.height, midpoint, sub_add_cancel]

theorem withFrame_coreFrameIn (corePoint : CGPoint) (areaOfEffectDiameter coreDiameter : CGFloat) :
    UIView.withFrame (StageWell.coreFrameIn (StageWell.frameAt corePoint areaOfEffectDiameter) coreDiameter) =
      ⟨⟨|areaOfEffectDiameter| / 2, |areaOfEffectDiameter| / 2⟩, ⟨|coreDiameter|, |coreDiameter|⟩⟩ := by
  simp only [UIView.withFrame, StageWell.coreFrameIn, StageWell.frameAt, CGRect.mk4, CGRect.midX,
    CGRect.midY, CGRect.minX, CGRect.minY, CGRect.width, CGRect.height, midpoint, sub_add_cancel]

end Frames

/-- The four copies of the geometry agree. -/
structure Geometry (well : StageWell) : Prop where
  center : well.view.center = well.corePoint
  size : well.view.size = ⟨|well.areaOfEffectDiameter|, |well.areaOfEffectDiameter|⟩
  coreCenter : well.coreView.center = ⟨well.view.size.width / 2, well.view.size.height / 2⟩
  coreSize : well.coreView.size = ⟨|well.coreDiameter|, |well.coreDiameter|⟩

section Well
variable {well : StageWell}

theorem Geometry.frame (geometry : Geometry well) :
    well.view.frame = squareAround well.corePoint |well.areaOfEffectDiameter| := by
  rw [UIView.frame, geometry.center, geometry.size]
  rfl

theorem Geometry.coreFrame (geometry : Geometry well) : well.coreView.frame =
    squareAround ⟨well.view.size.width / 2, well.view.size.height / 2⟩ |well.coreDiameter| := by
  rw [UIView.frame, geometry.coreCenter, geometry.coreSize]
  rfl

theorem geometry_new (corePoint : CGPoint) (coreDiameter areaOfEffectDiameter mass : CGFloat) :
    Geometry (.new corePoint coreDiameter areaOfEffectDiameter mass) := by
  constructor <;> simp only [StageWell.new, withFrame_frameAt, withFrame_coreFrameIn]

theorem geometry_updateSize (well : StageWell) : Geometry well.updateSize := by
  constructor <;> simp only [StageWell.updateSize, withFrame_frameAt, withFrame_coreFrameIn]

/-- What a gesture on a well does to it. -/
inductive Gestured : StageWell → StageWell → Prop where
  | same (well : StageWell) : Gestured well well
  | held (well : StageWell) (heldDown : Bool) : Gestured well { well with heldDown := heldDown }
  | panBegan (well : StageWell) : Gestured well well.handlePanBegan
  | panChanged (well : StageWell) (location : CGPoint) : Gestured well (well.handlePanChanged location)
  | pinch (well : StageWell) (scale : CGFloat) (nonneg : 0 ≤ scale) : Gestured well (well.handlePinch scale)

theorem Gestured.geometry {well' : StageWell} (gestured : Gestured well well') (geometry : Geometry well) :
    Geometry well' := by
  cases gestured with
  | same => exact geometry
  | held => exact ⟨geometry.center, geometry.size, geometry.coreCenter, geometry.coreSize⟩
  | panBegan => exact ⟨geometry.center, geometry.size, geometry.coreCenter, geometry.coreSize⟩
  | panChanged => exact ⟨rfl, geometry.size, geometry.coreCenter, geometry.coreSize⟩
  | pinch => exact geometry_updateSize _

/-- A gesture on a well scales both diameters alike. -/
theorem Gestured.scales {well' : StageWell} (gestured : Gestured well well') : ∃ k, 0 ≤ k ∧
    well'.coreDiameter = well.coreDiameter * k ∧
    well'.areaOfEffectDiameter = well.areaOfEffectDiameter * k := by
  cases gestured with
  | same => exact ⟨1, zero_le_one, (mul_one _).symm, (mul_one _).symm⟩
  | held => exact ⟨1, zero_le_one, (mul_one _).symm, (mul_one _).symm⟩
  | panBegan => exact ⟨1, zero_le_one, (mul_one _).symm, (mul_one _).symm⟩
  | panChanged => exact ⟨1, zero_le_one, (mul_one _).symm, (mul_one _).symm⟩
  | pinch scale nonneg => exact ⟨scale, nonneg, rfl, rfl⟩

end Well

section Handlers
variable {stage : WellStage}

theorem tapDistance_nonneg (p : CGPoint) : 0 ≤ stage.tapDistance p := by
  unfold WellStage.tapDistance
  dsimp only
  split_ifs
  · exact le_refl 0
  · exact Real.sqrt_nonneg _

theorem modifyWell_wells (well other : ℕ) (change : StageWell → StageWell) :
    (stage.modifyWell well change).wells other =
      if other = well then change (stage.wells well) else stage.wells other :=
  Function.update_apply _ _ _ _

/-- A removal, with the trap as one of the fields. -/
theorem removeGravityWell_eq (well : ℕ) : stage.removeGravityWell well = { stage with
    subviews := stage.subviews.erase well
    scaledGravityWells := stage.scaledGravityWells.erase well
    trapped := stage.trapped || !decide (well ∈ stage.scaledGravityWells) } := by
  unfold WellStage.removeGravityWell
  dsimp only
  by_cases listed : well ∈ stage.scaledGravityWells
  · rw [if_pos listed, decide_eq_true listed, Bool.not_true, Bool.or_false]
  · rw [if_neg listed, decide_eq_false listed, Bool.not_false, Bool.or_true,
      List.erase_of_not_mem listed]

/-- What the ends of touches and presses leave alone. -/
theorem touched_frame (stage : WellStage) (well : ℕ) : (stage.touched well).wells = stage.wells ∧
    (stage.touched well).created = stage.created ∧ (stage.touched well).levelWells = stage.levelWells ∧
    (stage.touched well).currentGravityWellCreated = stage.currentGravityWellCreated := by
  unfold WellStage.touched
  rw [removeGravityWell_eq]
  split_ifs <;> exact ⟨rfl, rfl, rfl, rfl⟩

theorem handleTapEnded_frame (stage : WellStage) : stage.handleTapEnded.wells = stage.wells ∧
    stage.handleTapEnded.created = stage.created ∧ stage.handleTapEnded.levelWells = stage.levelWells ∧
    stage.handleTapEnded.currentGravityWellCreated = stage.currentGravityWellCreated := by
  unfold WellStage.handleTapEnded
  cases stage.currentGravityWellCreated with
  | none => exact ⟨rfl, rfl, rfl, rfl⟩
  | some well =>
    dsimp only
    rw [removeGravityWell_eq]
    split_ifs <;> exact ⟨rfl, rfl, rfl, rfl⟩

theorem modifyWell_gestured (well : ℕ) (change : StageWell → StageWell)
    (gestured : Gestured (stage.wells well) (change (stage.wells well))) (other : ℕ) :
    Gestured (stage.wells other) ((stage.modifyWell well change).wells other) := by
  rw [modifyWell_wells]
  split_ifs with same
  · rw [same]
    exact gestured
  · exact .same _

/-- What an event makes of a well that exists: a gesture on it, or a resizing of
the well that is being pressed. -/
theorem handle_wells {event : StageEvent} (possible : stage.Possible event) {well : ℕ}
    (exists_ : well < stage.created) :
    Gestured (stage.wells well) ((stage.handle event).wells well) ∨
      stage.currentGravityWellCreated = some well ∧
        ∃ d, 0 ≤ d ∧ (stage.handle event).wells well = (stage.wells well).resize d := by
  cases event with
  | longPressFailed => exact .inl (.same _)
  | gesture gesture =>
    cases gesture with
    | longPressBegan location =>
      have other : well ≠ stage.created := by omega
      have kept : (stage.handleTapBegan location).wells well = stage.wells well :=
        Function.update_of_ne other _ _
      exact .inl (kept.symm ▸ .same _)
    | longPressChanged location =>
      simp only [WellStage.handle, WellStage.handleTapChanged]
      cases current : stage.currentGravityWellCreated with
      | none => exact .inl (.same _)
      | some pressed =>
        dsimp only
        rw [modifyWell_wells]
        split_ifs with same
        · rw [same]
          exact .inr ⟨rfl, _, tapDistance_nonneg location, rfl⟩
        · exact .inl (.same _)
    | longPressEnded =>
      simp only [WellStage.handle, (handleTapEnded_frame stage).1]
      exact .inl (.same _)
    | longPressCancelled => exact .inl (.same _)
    | panBegan on => exact .inl (modifyWell_gestured on _ (.panBegan _) well)
    | panChanged on translation => exact .inl (modifyWell_gestured on _ (.panChanged _ translation) well)
    | panEnded on => exact .inl (.same _)
    | pinch on scale => exact .inl (modifyWell_gestured on _ (.pinch _ scale possible.2) well)
    | touchesBegan on =>
      exact .inl (modifyWell_gestured on (fun current => { current with heldDown := true }) (.held _ true) well)
    | touchesEnded on location =>
      simp only [WellStage.handle, WellStage.touchesEnded]
      split_ifs
      · rw [(touched_frame _ on).1]
        exact .inl (modifyWell_gestured on (fun current => { current with heldDown := false })
          (.held _ false) well)
      · exact .inl (.same _)

/-- Only a press that begins makes a well. -/
theorem handle_created (stage : WellStage) (event : StageEvent) :
    (stage.handle event).levelWells = stage.levelWells ∧
    (((stage.handle event).created = stage.created ∧
        (stage.handle event).currentGravityWellCreated = stage.currentGravityWellCreated) ∨
      ∃ location, event = .gesture (.longPressBegan location)) := by
  cases event with
  | longPressFailed => exact ⟨rfl, .inl ⟨rfl, rfl⟩⟩
  | gesture gesture =>
    cases gesture with
    | longPressBegan location => exact ⟨rfl, .inr ⟨location, rfl⟩⟩
    | longPressChanged location =>
      simp only [WellStage.handle, WellStage.handleTapChanged]
      cases current : stage.currentGravityWellCreated with
      | none => exact ⟨rfl, .inl ⟨rfl, rfl⟩⟩
      | some pressed => exact ⟨rfl, .inl ⟨rfl, current⟩⟩
    | longPressEnded =>
      obtain ⟨_, created, levelWells, current⟩ := handleTapEnded_frame stage
      exact ⟨levelWells, .inl ⟨created, current⟩⟩
    | longPressCancelled => exact ⟨rfl, .inl ⟨rfl, rfl⟩⟩
    | panBegan on => exact ⟨rfl, .inl ⟨rfl, rfl⟩⟩
    | panChanged on translation => exact ⟨rfl, .inl ⟨rfl, rfl⟩⟩
    | panEnded on => exact ⟨rfl, .inl ⟨rfl, rfl⟩⟩
    | pinch on scale => exact ⟨rfl, .inl ⟨rfl, rfl⟩⟩
    | touchesBegan on => exact ⟨rfl, .inl ⟨rfl, rfl⟩⟩
    | touchesEnded on location =>
      simp only [WellStage.handle, WellStage.touchesEnded]
      split_ifs
      · obtain ⟨_, created, levelWells, current⟩ := touched_frame (stage.modifyWell on _) on
        exact ⟨levelWells, .inl ⟨created, current⟩⟩
      · exact ⟨rfl, .inl ⟨rfl, rfl⟩⟩

theorem step_some {stage' : WellStage} {event : StageEvent} : stage.step event = some stage' ↔
    (stage.trapped = false ∧ stage.Possible event) ∧ stage' = stage.handle event := by
  unfold WellStage.step
  split_ifs with comes
  · rw [Option.some.injEq, eq_comm]
    exact (and_iff_right comes).symm
  · simp only [comes, false_and]

end Handlers

section Run
variable {stage stage' : WellStage}

/-- The core is a quarter as wide as the area of effect. -/
def Quarter (well : StageWell) : Prop :=
  4 * well.coreDiameter = well.areaOfEffectDiameter ∧ 0 ≤ well.areaOfEffectDiameter

theorem quarter_resize {d : CGFloat} (nonneg : 0 ≤ d) (well : StageWell) : Quarter (well.resize d) := by
  simp only [Quarter, StageWell.resize, StageWell.updateSize]
  constructor <;> linarith

theorem Gestured.quarter {well well' : StageWell} (gestured : Gestured well well')
    (quarter : Quarter well) : Quarter well' := by
  obtain ⟨k, nonneg, core, area⟩ := gestured.scales
  obtain ⟨ratio, wide⟩ := quarter
  constructor
  · rw [core, area, ← ratio]
    ring
  · rw [area]
    exact mul_nonneg wide nonneg

/-- A circle of a quarter of the diameter lies inside. -/
theorem Quarter.inside {well : StageWell} (quarter : Quarter well) (geometry : Geometry well) {p : CGPoint}
    (inCore : distance p well.corePoint ≤ well.coreDiameter / 2) :
    distance p well.view.center ≤ well.areaOfEffectDiameter / 2 := by
  obtain ⟨ratio, wide⟩ := quarter
  rw [geometry.center]
  linarith

/-- The wells of a stage that began with the wells of `level`. -/
structure Shaped (level stage : WellStage) : Prop where
  fromLevel : stage.levelWells = level.created
  numbers : stage.levelWells ≤ stage.created
  pressed : ∀ well ∈ stage.currentGravityWellCreated, stage.levelWells ≤ well ∧ well < stage.created
  geometry : ∀ well < stage.created, Geometry (stage.wells well)
  quarter : ∀ well < stage.created, stage.levelWells ≤ well → Quarter (stage.wells well)
  scaled : ∀ well < stage.levelWells, ∃ k, 0 ≤ k ∧
    (stage.wells well).coreDiameter = (level.wells well).coreDiameter * k ∧
    (stage.wells well).areaOfEffectDiameter = (level.wells well).areaOfEffectDiameter * k

/-- The well that a press makes. -/
theorem handleTapBegan_new (stage : WellStage) (location : CGPoint) :
    (stage.handleTapBegan location).wells stage.created = .new location 0 0 100 :=
  Function.update_self _ _ _

/-- A well that exists keeps its shape, whatever the event. -/
theorem Shaped.handle_old {level : WellStage} {event : StageEvent} (shaped : Shaped level stage)
    (possible : stage.Possible event) {well : ℕ} (exists_ : well < stage.created) :
    Geometry ((stage.handle event).wells well) ∧
      (stage.levelWells ≤ well → Quarter ((stage.handle event).wells well)) := by
  have geometry := shaped.geometry well exists_
  rcases handle_wells possible exists_ with gestured | ⟨_, d, nonneg, resized⟩
  · exact ⟨gestured.geometry geometry, fun player => gestured.quarter (shaped.quarter well exists_ player)⟩
  · rw [resized]
    exact ⟨geometry_updateSize _, fun _ => quarter_resize nonneg _⟩

/-- A well of the level is never the one that is pressed, so it is only pinched. -/
theorem Shaped.handle_scaled {level : WellStage} {event : StageEvent} (shaped : Shaped level stage)
    (possible : stage.Possible event) {well : ℕ} (ofLevel : well < stage.levelWells) : ∃ k, 0 ≤ k ∧
      ((stage.handle event).wells well).coreDiameter = (level.wells well).coreDiameter * k ∧
      ((stage.handle event).wells well).areaOfEffectDiameter =
        (level.wells well).areaOfEffectDiameter * k := by
  obtain ⟨k, nonneg, core, area⟩ := shaped.scaled well ofLevel
  rcases handle_wells possible (lt_of_lt_of_le ofLevel shaped.numbers) with gestured | ⟨pressed, _⟩
  · obtain ⟨j, nonneg', core', area'⟩ := gestured.scales
    exact ⟨k * j, mul_nonneg nonneg nonneg', by rw [core', core, mul_assoc], by rw [area', area, mul_assoc]⟩
  · have player := (shaped.pressed well pressed).1
    omega

theorem Shaped.step {level : WellStage} {event : StageEvent} (shaped : Shaped level stage)
    (taken : stage.step event = some stage') : Shaped level stage' := by
  obtain ⟨⟨_, possible⟩, rfl⟩ := step_some.mp taken
  obtain ⟨levelWells, made⟩ := handle_created stage event
  have ratios : ∀ well < stage.levelWells, _ := fun _ ofLevel => shaped.handle_scaled possible ofLevel
  rcases made with ⟨created, current⟩ | ⟨location, rfl⟩
  · refine ⟨levelWells.trans shaped.fromLevel, ?_, ?_, ?_, ?_, ?_⟩
    · rw [levelWells, created]
      exact shaped.numbers
    · rw [levelWells, created, current]
      exact shaped.pressed
    · rw [created]
      exact fun well exists_ => (shaped.handle_old possible exists_).1
    · rw [created, levelWells]
      exact fun well exists_ => (shaped.handle_old possible exists_).2
    · rw [levelWells]
      exact ratios
  · have grown : (stage.handle (.gesture (.longPressBegan location))).created = stage.created + 1 := rfl
    have fresh := handleTapBegan_new stage location
    refine ⟨shaped.fromLevel, ?_, ?_, ?_, ?_, ratios⟩
    · rw [levelWells, grown]
      exact Nat.le_succ_of_le shaped.numbers
    · rintro well ⟨⟩
      exact ⟨shaped.numbers, Nat.lt_succ_self _⟩
    · intro well exists_
      rcases Nat.lt_succ_iff_lt_or_eq.mp (grown ▸ exists_) with before | rfl
      · exact (shaped.handle_old possible before).1
      · exact fresh ▸ geometry_new _ _ _ _
    · intro well exists_ player
      rcases Nat.lt_succ_iff_lt_or_eq.mp (grown ▸ exists_) with before | rfl
      · exact (shaped.handle_old possible before).2 player
      · have quarter : Quarter (StageWell.new location 0 0 100) := ⟨mul_zero 4, le_refl 0⟩
        exact fresh ▸ quarter

end Run

section Init
variable {stage stage' : WellStage}

/-- What the wells of a level add to a stage. -/
structure Added (stage stage' : WellStage) (count : ℕ) : Prop where
  created : stage'.created = stage.created + count
  levelWells : stage'.levelWells = stage.levelWells
  current : stage'.currentGravityWellCreated = stage.currentGravityWellCreated
  pressing : stage'.pressing = stage.pressing
  trapped : stage'.trapped = stage.trapped
  subviews : stage'.subviews = stage.subviews ++ List.range' stage.created count
  scaledGravityWells : stage'.scaledGravityWells = stage.scaledGravityWells ++ List.range' stage.created count
  geometry : (∀ well < stage.created, Geometry (stage.wells well)) →
    ∀ well < stage'.created, Geometry (stage'.wells well)

theorem createGravityWell_added (point : CGPoint) (core areaOfEffectDiameter mass : CGFloat) :
    Added stage (stage.createGravityWell point core areaOfEffectDiameter mass) 1 where
  created := rfl
  levelWells := rfl
  current := rfl
  pressing := rfl
  trapped := rfl
  subviews := rfl
  scaledGravityWells := rfl
  geometry := by
    intro before well exists_
    have update : (stage.createGravityWell point core areaOfEffectDiameter mass).wells well =
        if well = stage.created then .new point core areaOfEffectDiameter mass else stage.wells well :=
      Function.update_apply _ _ _ _
    rw [update]
    split_ifs with new
    · exact geometry_new _ _ _ _
    · have bound : well < stage.created + 1 := exists_
      exact before well (by omega)

theorem Added.trans {stage'' : WellStage} {count count' : ℕ} (first : Added stage stage' count)
    (second : Added stage' stage'' count') : Added stage stage'' (count + count') where
  created := by rw [second.created, first.created, Nat.add_assoc]
  levelWells := second.levelWells.trans first.levelWells
  current := second.current.trans first.current
  pressing := second.pressing.trans first.pressing
  trapped := second.trapped.trans first.trapped
  subviews := by
    rw [second.subviews, first.subviews, first.created, List.append_assoc, List.range'_append_1]
  scaledGravityWells := by
    rw [second.scaledGravityWells, first.scaledGravityWells, first.created, List.append_assoc,
      List.range'_append_1]
  geometry := fun before => second.geometry (first.geometry before)

theorem createGravityWellsFromLevel_added {data : List GravityWellData}
    (success : WellStage.createGravityWellsFromLevel data stage = some stage') :
    Added stage stage' data.length := by
  induction data generalizing stage with
  | nil =>
    cases success
    exact ⟨rfl, rfl, rfl, rfl, rfl, (List.append_nil _).symm, (List.append_nil _).symm, id⟩
  | cons gWell rest ih =>
    obtain ⟨position, _, success⟩ := Option.bind_eq_some_iff.mp success
    have all := (createGravityWell_added _ _ _ _).trans (ih success)
    rwa [Nat.add_comm] at all

/-- The stage that a level begins with. -/
theorem init_added {screen : Screen} {level : LevelData} (built : WellStage.init screen level = some stage) :
    Added (WellStage.empty screen level.gravityWells.length) stage level.gravityWells.length :=
  createGravityWellsFromLevel_added (WellStage.init_some built)

theorem init_shaped {screen : Screen} {level : LevelData} (built : WellStage.init screen level = some stage) :
    Shaped stage stage := by
  have added := init_added built
  have count : stage.created = level.gravityWells.length := added.created.trans (Nat.zero_add _)
  have ofLevel : stage.levelWells = stage.created := added.levelWells.trans count.symm
  refine ⟨ofLevel, ofLevel.le, ?_, ?_, ?_, ?_⟩
  · rw [added.current]
    rintro well ⟨⟩
  · exact added.geometry fun well none_ => absurd none_ (Nat.not_lt_zero well)
  · intro well exists_ player
    omega
  · exact fun well _ => ⟨1, zero_le_one, (mul_one _).symm, (mul_one _).symm⟩

end Init

/-- After every run of gestures: for every well, the centre of its view is its
core point, its frame is the square of its area of effect around it, and the core
view is the square of the core in its middle; the diameters of a level's well are
those of the level times one factor; a well of the player's has a core a quarter
as wide as its area of effect, inside of it; and a pinch keeps the ratio. -/
theorem well_geometry (screen : Screen) (level : LevelData) (stage : WellStage)
    (built : WellStage.init screen level = some stage) (events : List StageEvent) (reached : WellStage)
    (run : WellStage.events.run stage events = some reached) :
    (∀ well < reached.created,
      (reached.wells well).view.center = (reached.wells well).corePoint ∧
      (reached.wells well).view.frame =
        squareAround (reached.wells well).corePoint |(reached.wells well).areaOfEffectDiameter| ∧
      (reached.wells well).coreView.frame =
        squareAround ⟨(reached.wells well).view.size.width / 2, (reached.wells well).view.size.height / 2⟩
          |(reached.wells well).coreDiameter|) ∧
    (∀ well < stage.created, ∃ k, 0 ≤ k ∧
      (reached.wells well).coreDiameter = (stage.wells well).coreDiameter * k ∧
      (reached.wells well).areaOfEffectDiameter = (stage.wells well).areaOfEffectDiameter * k) ∧
    (∀ well < reached.created, stage.created ≤ well →
      4 * (reached.wells well).coreDiameter = (reached.wells well).areaOfEffectDiameter ∧
      0 ≤ (reached.wells well).areaOfEffectDiameter ∧
      ∀ p, distance p (reached.wells well).corePoint ≤ (reached.wells well).coreDiameter / 2 →
        distance p (reached.wells well).view.center ≤ (reached.wells well).areaOfEffectDiameter / 2) ∧
    ∀ well scale after, reached.step (.gesture (.pinch well scale)) = some after →
      (after.wells well).coreDiameter * (reached.wells well).areaOfEffectDiameter =
        (reached.wells well).coreDiameter * (after.wells well).areaOfEffectDiameter := by
  have shaped : Shaped stage reached := WellStage.events.run_invariant
    (fun _ _ _ before taken => before.step taken) (init_shaped built) run
  refine ⟨fun well exists_ => ?_, fun well ofLevel => ?_, fun well exists_ player => ?_, ?_⟩
  · have geometry := shaped.geometry well exists_
    exact ⟨geometry.center, geometry.frame, geometry.coreFrame⟩
  · exact shaped.scaled well (shaped.fromLevel ▸ ofLevel)
  · have quarter := shaped.quarter well exists_ (shaped.fromLevel ▸ player)
    exact ⟨quarter.1, quarter.2, fun p inCore => quarter.inside (shaped.geometry well exists_) inCore⟩
  · intro well scale after taken
    obtain ⟨_, rfl⟩ := step_some.mp taken
    have pinched : (reached.handle (.gesture (.pinch well scale))).wells well =
        (reached.wells well).handlePinch scale := Function.update_self _ _ _
    rw [pinched]
    simp only [StageWell.handlePinch, StageWell.updateSize]
    ring

section Pressed

/-- A level with one well. -/
def oneWell : LevelData where
  propFrame := some ⟨0, 0, 1, 1⟩
  gravityWells := [{ position := some ⟨1 / 2, 1 / 2⟩, mass := 100, coreDiameter := 1 / 40
                     areaOfEffectDiameter := 1 / 10 }]

def oneWellStage : WellStage :=
  (WellStage.empty phone 1).createGravityWell (phone.propToPoint ⟨1 / 2, 1 / 2⟩)
    (phone.propToFloat (1 / 40) true) (phone.propToFloat (1 / 10) true) 100

/-- A press that is drawn out while another finger pinches the level's well. -/
def pressedStage : WellStage :=
  ((oneWellStage.handleTapBegan ⟨100, 100⟩).handleTapChanged ⟨200, 100⟩).handlePinch 0 2

theorem oneWell_pressed : WellStage.events.run oneWellStage
    [.gesture (.longPressBegan ⟨100, 100⟩), .gesture (.longPressChanged ⟨200, 100⟩), .gesture (.pinch 0 2)] =
      some pressedStage := by
  refine WellStage.events.run_cons_some.mpr ⟨_, step_some.mpr ⟨⟨rfl, rfl⟩, rfl⟩, ?_⟩
  refine WellStage.events.run_cons_some.mpr ⟨_, step_some.mpr ⟨⟨rfl, rfl⟩, rfl⟩, ?_⟩
  have onStage : 0 ∈ ((oneWellStage.handleTapBegan ⟨100, 100⟩).handleTapChanged ⟨200, 100⟩).subviews :=
    List.mem_cons_self
  exact WellStage.events.run_cons_some.mpr ⟨_, step_some.mpr ⟨⟨rfl, onStage, zero_le_two⟩, rfl⟩, rfl⟩

theorem oneWell_geometry : (pressedStage.wells 1).view.center = (pressedStage.wells 1).corePoint ∧
    4 * (pressedStage.wells 1).coreDiameter = (pressedStage.wells 1).areaOfEffectDiameter := by
  obtain ⟨all, _, player, _⟩ := well_geometry phone oneWell oneWellStage rfl _ _ oneWell_pressed
  exact ⟨(all 1 (Nat.lt_succ_self 1)).1, (player 1 (Nat.lt_succ_self 1) (le_refl 1)).1⟩

end Pressed

section Rounded

/-- In exact arithmetic, a press that is drawn out makes the well of the stage. -/
theorem drawn_exact (stage : WellStage) (p q : CGPoint)
    (far : stage.screen.propToFloat (1 / 10) true ≤ distance q p) :
    let well := ((stage.handleTapBegan p).handleTapChanged q).wells stage.created
    PressedWell.drawn id id p q =
      ⟨well.corePoint, well.view.center, well.coreDiameter, well.areaOfEffectDiameter⟩ := by
  have resized : ((stage.handleTapBegan p).handleTapChanged q).wells stage.created =
      (StageWell.new p 0 0 100).resize (distance q p) := by
    have tapDistance : (stage.handleTapBegan p).tapDistance q = distance q p := if_neg (not_lt.mpr far)
    have changed : ((stage.handleTapBegan p).handleTapChanged q).wells stage.created =
        ((stage.handleTapBegan p).wells stage.created).resize ((stage.handleTapBegan p).tapDistance q) :=
      Function.update_self _ _ _
    rw [changed, handleTapBegan_new, tapDistance]
  intro well
  have geometry := (geometry_updateSize { StageWell.new p 0 0 100 with
    areaOfEffectDiameter := distance q p * 2, coreDiameter := distance q p / 2 }).center
  have center : well.view.center = p := by
    rw [show well = _ from resized]
    exact geometry
  rw [center, show well = _ from resized]
  simp only [PressedWell.drawn, roundedCenter, StageWell.resize, StageWell.updateSize, StageWell.new, id, distance,
    sub_add_cancel]

/-- A press at a third of a point, on a screen with three pixels a point. -/
def thirdPoint : CGPoint := ⟨double (100 / 3), 100⟩

theorem thirdPoint_x : thirdPoint.x = 4691249611844267 / 2 ^ 47 := by
  have rounded : binary64.round (100 / 3 : ℝ) = ((4691249611844267 : ℤ) : ℝ) * 2 ^ (-47 : ℤ) := by
    refine BinaryFormat.round_eq_of_leading (k := 5) rfl (by decide) ?_ ?_ ?_ <;> norm_num [abs_lt]
  rw [thirdPoint, double, rounded]
  norm_num

/-- The left edge of the frame is rounded to a multiple of `2 ^ -45`. -/
theorem thirdPoint_edge : double (thirdPoint.x - 200) = -5864062014805333 / 2 ^ 45 := by
  have rounded : binary64.round (4691249611844267 / 2 ^ 47 - 200 : ℝ) =
      ((-5864062014805333 : ℤ) : ℝ) * 2 ^ (-45 : ℤ) := by
    refine BinaryFormat.round_eq_of_leading (k := 7) rfl (by decide) ?_ ?_ ?_ <;> norm_num [abs_lt, abs_le]
  rw [thirdPoint_x, double, rounded]
  norm_num

/-- The centre of the frame is not the core point of a well that is drawn out
to a radius of 200 points. -/
theorem thirdPoint_off_centre :
    (PressedWell.drawn double float32 thirdPoint ⟨thirdPoint.x, 300⟩).areaOfEffectDiameter = 400 ∧
    (PressedWell.drawn double float32 thirdPoint ⟨thirdPoint.x, 300⟩).corePoint = thirdPoint ∧
    (PressedWell.drawn double float32 thirdPoint ⟨thirdPoint.x, 300⟩).center ≠ thirdPoint := by
  have square : double 40000 = 40000 := by exact_mod_cast double_natCast (n := 40000) (by norm_num)
  have radius : double 200 = 200 := by exact_mod_cast double_natCast (n := 200) (by norm_num)
  have area : double 400 = 400 := by exact_mod_cast double_natCast (n := 400) (by norm_num)
  have square32 : float32 40000 = 40000 := by exact_mod_cast float32_natCast (n := 40000) (by norm_num)
  have radius32 : float32 200 = 200 := by exact_mod_cast float32_natCast (n := 200) (by norm_num)
  have root : Real.sqrt 40000 = 200 := by
    rw [Real.sqrt_eq_iff_mul_self_eq] <;> norm_num
  have down : double (300 - thirdPoint.y) = 200 := by
    rw [← radius]
    norm_num [thirdPoint]
  have diameter : (PressedWell.drawn double float32 thirdPoint ⟨thirdPoint.x, 300⟩).areaOfEffectDiameter =
      400 := by
    simp only [PressedWell.drawn, sub_self, double_zero, down]
    norm_num [double_zero, square, square32, root, radius32, area]
  refine ⟨diameter, rfl, fun same => ?_⟩
  have center : (PressedWell.drawn double float32 thirdPoint ⟨thirdPoint.x, 300⟩).center =
      roundedCenter double thirdPoint 400 := by
    rw [← diameter]
    rfl
  have half : double (400 / 2) = 200 := by
    rw [← radius]
    norm_num
  have x := congrArg CGPoint.x (center.symm.trans same)
  simp only [roundedCenter, half, thirdPoint_edge] at x
  have rounded : binary64.round (-5864062014805333 / 2 ^ 45 + 200 : ℝ) =
      ((4691249611844268 : ℤ) : ℝ) * 2 ^ (-47 : ℤ) := by
    refine BinaryFormat.round_eq_of_leading (k := 5) rfl (by decide) ?_ ?_ ?_ <;> norm_num [abs_lt]
  rw [double, rounded, thirdPoint_x] at x
  norm_num at x

end Rounded

end
end Arthius.Guarantees.WellGeometry
