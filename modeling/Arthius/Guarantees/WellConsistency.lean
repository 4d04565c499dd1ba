import Arthius.Guarantees.WellGeometry

/-!
# The wells on the stage

`scaledGravityWells` and the subviews list the same wells whatever the gestures
do. What can go wrong is the well of the press: another finger may take it away
before the press ends, and a press that is cancelled leaves it as it is.
-/
namespace Arthius.Guarantees.WellConsistency
open Arthius.Lib Arthius.Source PredictionFrame WellGeometry

noncomputable section

/-- The list of wells is consistent. -/
structure Consistent (stage : WellStage) : Prop where
  indexed : stage.trapped = false
  shown : ∀ well, well ∈ stage.scaledGravityWells ↔ well ∈ stage.subviews
  visible : stage.pressing = false → ∀ well ∈ stage.scaledGravityWells, stage.levelWells ≤ well →
    0 < (stage.wells well).areaOfEffectDiameter

/-- During a press, too, the other wells of the player's are visible. -/
def OthersVisible (stage : WellStage) : Prop :=
  ∀ well ∈ stage.scaledGravityWells, stage.levelWells ≤ well → stage.currentGravityWellCreated ≠ some well →
    0 < (stage.wells well).areaOfEffectDiameter

/-- What an event must find: a press that ends at no size, its well still there;
a cancelled press, its well gone or drawn out; a pinch of a player's well that is
not being pressed, a scale other than zero. -/
def Careful (stage : WellStage) : StageEvent → Prop
  | .gesture .longPressEnded => ∀ well ∈ stage.currentGravityWellCreated,
      (stage.wells well).areaOfEffectDiameter = 0 → well ∈ stage.scaledGravityWells
  | .gesture .longPressCancelled => ∀ well ∈ stage.currentGravityWellCreated,
      well ∈ stage.scaledGravityWells → (stage.wells well).areaOfEffectDiameter ≠ 0
  | .gesture (.pinch well scale) => stage.levelWells ≤ well →
      (stage.pressing = true ∧ stage.currentGravityWellCreated = some well) ∨ scale ≠ 0
  | _ => True

section Aligned
variable {stage stage' : WellStage}

/-- Two lists that show the same wells, each once. -/
structure Aligned (stage : WellStage) : Prop where
  listed : stage.scaledGravityWells.Nodup
  layered : stage.subviews.Nodup
  shown : ∀ well, well ∈ stage.scaledGravityWells ↔ well ∈ stage.subviews
  known : ∀ well ∈ stage.scaledGravityWells, well < stage.created

theorem Aligned.same (aligned : Aligned stage) (listed : stage'.scaledGravityWells = stage.scaledGravityWells)
    (layered : stage'.subviews = stage.subviews) (created : stage'.created = stage.created) :
    Aligned stage' := by
  refine ⟨?_, ?_, ?_, ?_⟩
  · rw [listed]
    exact aligned.listed
  · rw [layered]
    exact aligned.layered
  · rw [listed, layered]
    exact aligned.shown
  · rw [listed, created]
    exact aligned.known

theorem nodup_append_new {list : List ℕ} (nodup : list.Nodup) {well : ℕ} (fresh : well ∉ list) :
    (list ++ [well]).Nodup := by
  rw [← List.concat_eq_append]
  exact nodup.concat fresh

theorem Aligned.create (aligned : Aligned stage) (point : CGPoint)
    (core areaOfEffectDiameter mass : CGFloat) :
    Aligned (stage.createGravityWell point core areaOfEffectDiameter mass) := by
  have fresh : stage.created ∉ stage.scaledGravityWells :=
    fun member => lt_irrefl _ (aligned.known _ member)
  have unseen : stage.created ∉ stage.subviews := mt (aligned.shown _).mpr fresh
  refine ⟨nodup_append_new aligned.listed fresh, nodup_append_new aligned.layered unseen, ?_, ?_⟩
  · intro well
    change well ∈ stage.scaledGravityWells ++ [stage.created] ↔ well ∈ stage.subviews ++ [stage.created]
    rw [List.mem_append, List.mem_append, aligned.shown]
  · intro well member
    rcases List.mem_append.mp member with old | new
    · exact Nat.lt_succ_of_lt (aligned.known well old)
    · exact Nat.lt_succ_of_le (List.mem_singleton.mp new).le

theorem Aligned.remove (aligned : Aligned stage) (removed : ℕ) : Aligned (stage.removeGravityWell removed) := by
  rw [removeGravityWell_eq]
  refine ⟨aligned.listed.erase removed, aligned.layered.erase removed, ?_, ?_⟩
  · intro well
    rw [aligned.listed.mem_erase_iff, aligned.layered.mem_erase_iff, aligned.shown]
  · exact fun well member => aligned.known well (List.mem_of_mem_erase member)

theorem Aligned.touched (aligned : Aligned stage) (well : ℕ) : Aligned (stage.touched well) := by
  unfold WellStage.touched
  split_ifs
  · exact (aligned.remove well).same rfl rfl rfl
  · exact aligned.same rfl rfl rfl

theorem handleTapEnded_eq {well : ℕ} (current : stage.currentGravityWellCreated = some well) :
    stage.handleTapEnded =
      if (stage.wells well).areaOfEffectDiameter / 2 = 0 then
        { stage with pressing := false, justCreatedWell := some true }.removeGravityWell well
      else { stage with pressing := false, justCreatedWell := some true } := by
  unfold WellStage.handleTapEnded
  simp only [current]

theorem handleTapEnded_idle : stage.handleTapEnded.pressing = false := by
  cases current : stage.currentGravityWellCreated with
  | none =>
    unfold WellStage.handleTapEnded
    simp only [current]
  | some well =>
    rw [handleTapEnded_eq current, removeGravityWell_eq]
    split_ifs <;> rfl

theorem touched_pressing (well : ℕ) : (stage.touched well).pressing = stage.pressing := by
  unfold WellStage.touched
  rw [removeGravityWell_eq]
  split_ifs <;> rfl

theorem Aligned.ended (aligned : Aligned stage) : Aligned stage.handleTapEnded := by
  cases current : stage.currentGravityWellCreated with
  | none =>
    unfold WellStage.handleTapEnded
    simp only [current]
    exact aligned.same rfl rfl rfl
  | some well =>
    rw [handleTapEnded_eq current]
    have after : Aligned { stage with pressing := false, justCreatedWell := some true } :=
      aligned.same rfl rfl rfl
    split_ifs
    · exact after.remove well
    · exact after

theorem Aligned.pinch (aligned : Aligned stage) {well : ℕ} (onStage : well ∈ stage.subviews) (scale : CGFloat) :
    Aligned (stage.handlePinch well scale) := by
  have gone : well ∉ stage.subviews.erase well := by
    rw [aligned.layered.mem_erase_iff]
    exact fun member => member.1 rfl
  refine ⟨aligned.listed, nodup_append_new (aligned.layered.erase well) gone, ?_, aligned.known⟩
  intro other
  change other ∈ stage.scaledGravityWells ↔ other ∈ stage.subviews.erase well ++ [well]
  rw [aligned.shown, List.mem_append, aligned.layered.mem_erase_iff, List.mem_singleton]
  by_cases same : other = well
  · simp only [same, onStage, or_true]
  · simp only [same, ne_eq, not_false_eq_true, true_and, or_false]

theorem Aligned.handle (aligned : Aligned stage) {event : StageEvent} (possible : stage.Possible event) :
    Aligned (stage.handle event) := by
  cases event with
  | longPressFailed => exact aligned
  | gesture gesture =>
    cases gesture with
    | longPressBegan location =>
      have before : Aligned { stage with longTapInital := location } := aligned.same rfl rfl rfl
      exact (before.create location 0 0 100).same rfl rfl rfl
    | longPressChanged location =>
      simp only [WellStage.handle, WellStage.handleTapChanged]
      cases stage.currentGravityWellCreated with
      | none => exact aligned.same rfl rfl rfl
      | some well => exact aligned.same rfl rfl rfl
    | longPressEnded => exact aligned.ended
    | longPressCancelled => exact aligned.same rfl rfl rfl
    | panBegan well => exact aligned.same rfl rfl rfl
    | panChanged well translation => exact aligned.same rfl rfl rfl
    | panEnded well => exact aligned
    | pinch well scale => exact aligned.pinch possible.1 scale
    | touchesBegan well => exact aligned.same rfl rfl rfl
    | touchesEnded well location =>
      simp only [WellStage.handle, WellStage.touchesEnded]
      split_ifs
      · have lifted : Aligned (stage.modifyWell well fun current => { current with heldDown := false }) :=
          aligned.same rfl rfl rfl
        exact lifted.touched well
      · exact aligned

end Aligned

section Placed
variable {level stage stage' : WellStage} {event : StageEvent}

/-- What every gesture keeps. -/
structure Placed (level stage : WellStage) : Prop where
  shaped : Shaped level stage
  aligned : Aligned stage
  pressed : stage.pressing = true → ∃ well, stage.currentGravityWellCreated = some well

/-- The player's wells that are listed can be seen, but for the one of a press. -/
def Steady (stage : WellStage) : Prop :=
  stage.trapped = false ∧ ∀ well ∈ stage.scaledGravityWells, stage.levelWells ≤ well →
    stage.pressing = true ∧ stage.currentGravityWellCreated = some well ∨
      0 < (stage.wells well).areaOfEffectDiameter

theorem steady_iff (aligned : Aligned stage) : Steady stage ↔ Consistent stage ∧ OthersVisible stage := by
  constructor
  · rintro ⟨indexed, visible⟩
    refine ⟨⟨indexed, aligned.shown, fun idle well member player => ?_⟩, fun well member player other => ?_⟩
    · rcases visible well member player with ⟨pressing, _⟩ | positive
      · exact absurd (idle.symm.trans pressing) Bool.false_ne_true
      · exact positive
    · rcases visible well member player with ⟨_, current⟩ | positive
      · exact absurd current other
      · exact positive
  · rintro ⟨consistent, others⟩
    refine ⟨consistent.indexed, fun well member player => ?_⟩
    by_cases current : stage.currentGravityWellCreated = some well
    · cases pressing : stage.pressing with
      | false => exact .inr (consistent.visible pressing well member player)
      | true => exact .inl ⟨rfl, current⟩
    · exact .inr (others well member player current)

/-- A press is begun by `.began` only. -/
theorem handle_pressing (pressing : (stage.handle event).pressing = true) :
    stage.pressing = true ∨ ∃ location, event = .gesture (.longPressBegan location) := by
  cases event with
  | longPressFailed => exact .inl pressing
  | gesture gesture =>
    cases gesture with
    | longPressBegan location => exact .inr ⟨location, rfl⟩
    | longPressChanged location =>
      simp only [WellStage.handle, WellStage.handleTapChanged] at pressing
      split at pressing <;> exact .inl pressing
    | longPressEnded =>
      simp only [WellStage.handle, handleTapEnded_idle] at pressing
      cases pressing
    | longPressCancelled => cases pressing
    | panBegan well => exact .inl pressing
    | panChanged well translation => exact .inl pressing
    | panEnded well => exact .inl pressing
    | pinch well scale => exact .inl pressing
    | touchesBegan well => exact .inl pressing
    | touchesEnded well location =>
      simp only [WellStage.handle, WellStage.touchesEnded] at pressing
      split_ifs at pressing
      · rw [touched_pressing] at pressing
        exact .inl pressing
      · exact .inl pressing

theorem Placed.step (placed : Placed level stage) (taken : stage.step event = some stage') :
    Placed level stage' := by
  obtain ⟨⟨_, possible⟩, rfl⟩ := step_some.mp taken
  refine ⟨placed.shaped.step taken, placed.aligned.handle possible, fun pressing => ?_⟩
  obtain ⟨_, ⟨_, current⟩ | ⟨location, rfl⟩⟩ := handle_created stage event
  · rw [current]
    rcases handle_pressing pressing with before | ⟨location, rfl⟩
    · exact placed.pressed before
    · exact ⟨stage.created, current.symm⟩
  · exact ⟨stage.created, rfl⟩

end Placed

section Steady
variable {level stage stage' : WellStage} {event : StageEvent}

/-- A handler that removes wells or moves them leaves a stage steady. -/
theorem Steady.mono (steady : Steady stage) (trapped : stage'.trapped = stage.trapped)
    (listed : ∀ well ∈ stage'.scaledGravityWells, well ∈ stage.scaledGravityWells)
    (levelWells : stage'.levelWells = stage.levelWells) (pressing : stage'.pressing = stage.pressing)
    (current : stage'.currentGravityWellCreated = stage.currentGravityWellCreated)
    (area : ∀ well, (stage'.wells well).areaOfEffectDiameter = (stage.wells well).areaOfEffectDiameter) :
    Steady stage' := by
  refine ⟨trapped.trans steady.1, fun well member player => ?_⟩
  rw [pressing, current, area]
  exact steady.2 well (listed well member) (levelWells ▸ player)

theorem modifyWell_area (well : ℕ) (change : StageWell → StageWell)
    (same : (change (stage.wells well)).areaOfEffectDiameter = (stage.wells well).areaOfEffectDiameter)
    (other : ℕ) : ((stage.modifyWell well change).wells other).areaOfEffectDiameter =
      (stage.wells other).areaOfEffectDiameter := by
  rw [modifyWell_wells]
  split_ifs with equal
  · rw [equal]
    exact same
  · rfl

theorem Steady.modifyWell (steady : Steady stage) (well : ℕ) (change : StageWell → StageWell)
    (same : (change (stage.wells well)).areaOfEffectDiameter = (stage.wells well).areaOfEffectDiameter) :
    Steady (stage.modifyWell well change) :=
  steady.mono rfl (fun _ => id) rfl rfl rfl (modifyWell_area well change same)

theorem Steady.touched (steady : Steady stage) {well : ℕ} (listed : well ∈ stage.scaledGravityWells) :
    Steady (stage.touched well) := by
  unfold WellStage.touched
  rw [removeGravityWell_eq, decide_eq_true listed, Bool.not_true, Bool.or_false]
  split_ifs
  · exact steady.mono rfl (fun _ => List.mem_of_mem_erase) rfl rfl rfl fun _ => rfl
  · exact steady.mono rfl (fun _ => id) rfl rfl rfl fun _ => rfl

theorem Steady.began (steady : Steady stage) (aligned : Aligned stage) (idle : stage.pressing = false)
    (location : CGPoint) : Steady (stage.handleTapBegan location) := by
  refine ⟨steady.1, fun well member player => ?_⟩
  rcases List.mem_append.mp member with old | new
  · have kept : (stage.handleTapBegan location).wells well = stage.wells well :=
      Function.update_of_ne (aligned.known well old).ne _ _
    rw [kept]
    rcases steady.2 well old player with ⟨pressing, _⟩ | positive
    · exact absurd (idle.symm.trans pressing) Bool.false_ne_true
    · exact .inr positive
  · exact .inl ⟨rfl, congrArg some (List.mem_singleton.mp new).symm⟩

theorem Steady.changed (steady : Steady stage) {pressed : ℕ} (pressing : stage.pressing = true)
    (current : stage.currentGravityWellCreated = some pressed) (location : CGPoint) :
    Steady (stage.handleTapChanged location) := by
  have resized : stage.handleTapChanged location =
      stage.modifyWell pressed (.resize (stage.tapDistance location)) := by
    unfold WellStage.handleTapChanged
    rw [current]
  rw [resized]
  refine ⟨steady.1, fun well member player => ?_⟩
  by_cases same : well = pressed
  · exact .inl ⟨pressing, current.trans (congrArg some same.symm)⟩
  · rw [modifyWell_wells, if_neg same]
    exact steady.2 well member player

/-- At the end of a press only its well can be in the way. -/
theorem steady_ended_iff (placed : Placed level stage) (steady : Steady stage) {pressed : ℕ}
    (current : stage.currentGravityWellCreated = some pressed) :
    Steady stage.handleTapEnded ↔
      ((stage.wells pressed).areaOfEffectDiameter = 0 → pressed ∈ stage.scaledGravityWells) := by
  have others : ∀ well ∈ stage.scaledGravityWells, stage.levelWells ≤ well → well ≠ pressed →
      0 < (stage.wells well).areaOfEffectDiameter := by
    intro well member player other
    rcases steady.2 well member player with ⟨_, is⟩ | positive
    · exact absurd (Option.some.inj (is.symm.trans current)) other
    · exact positive
  obtain ⟨player, known⟩ := placed.shaped.pressed pressed current
  have nonneg := (placed.shaped.quarter pressed known player).2
  rw [handleTapEnded_eq current]
  by_cases zero : (stage.wells pressed).areaOfEffectDiameter = 0
  · rw [if_pos (by rw [zero, zero_div]), removeGravityWell_eq]
    simp only [zero, forall_const]
    constructor
    · intro after
      have indexed := after.1
      by_contra gone
      simp only [gone, decide_false, Bool.not_false, Bool.or_true, Bool.true_eq_false] at indexed
    · intro listed
      refine ⟨?_, fun well member player => .inr ?_⟩
      · simp only [listed, decide_true, Bool.not_true, Bool.or_false, steady.1]
      · obtain ⟨other, member⟩ := placed.aligned.listed.mem_erase_iff.mp member
        exact others well member player other
  · rw [if_neg (mt (fun half => by linarith) zero)]
    refine iff_of_true ⟨steady.1, fun well member player => .inr ?_⟩ fun none_ => absurd none_ zero
    by_cases same : well = pressed
    · rw [same]
      exact lt_of_le_of_ne nonneg (Ne.symm zero)
    · exact others well member player same

theorem steady_cancelled_iff (placed : Placed level stage) (steady : Steady stage) {pressed : ℕ}
    (current : stage.currentGravityWellCreated = some pressed) :
    Steady stage.handleTapCancelled ↔
      (pressed ∈ stage.scaledGravityWells → (stage.wells pressed).areaOfEffectDiameter ≠ 0) := by
  obtain ⟨player, known⟩ := placed.shaped.pressed pressed current
  have nonneg := (placed.shaped.quarter pressed known player).2
  constructor
  · intro after listed
    rcases after.2 pressed listed player with ⟨pressing, _⟩ | positive
    · cases pressing
    · exact positive.ne'
  · refine fun visible => ⟨steady.1, fun well member player => .inr ?_⟩
    rcases steady.2 well member player with ⟨_, is⟩ | positive
    · obtain rfl := Option.some.inj (is.symm.trans current)
      exact lt_of_le_of_ne nonneg (visible member).symm
    · exact positive

theorem steady_pinch_iff (placed : Placed level stage) (steady : Steady stage) {pinched : ℕ}
    (onStage : pinched ∈ stage.subviews) {scale : CGFloat} (nonneg : 0 ≤ scale) :
    Steady (stage.handlePinch pinched scale) ↔ (stage.levelWells ≤ pinched →
      stage.pressing = true ∧ stage.currentGravityWellCreated = some pinched ∨ scale ≠ 0) := by
  have listed := (placed.aligned.shown pinched).mpr onStage
  have area : ∀ well, ((stage.handlePinch pinched scale).wells well).areaOfEffectDiameter =
      if well = pinched then (stage.wells pinched).areaOfEffectDiameter * scale
      else (stage.wells well).areaOfEffectDiameter := by
    intro well
    simp only [WellStage.handlePinch, modifyWell_wells]
    split_ifs <;> rfl
  constructor
  · intro after player
    rcases after.2 pinched listed player with pressed | positive
    · exact .inl pressed
    · rw [area, if_pos rfl] at positive
      refine .inr fun zero => ?_
      rw [zero, mul_zero] at positive
      exact lt_irrefl 0 positive
  · refine fun careful => ⟨steady.1, fun well member player => ?_⟩
    rw [area]
    split_ifs with same
    · subst same
      rcases careful player with pressed | positive
      · exact .inl pressed
      · exact (steady.2 well member player).imp_right fun wide =>
          mul_pos wide (lt_of_le_of_ne nonneg positive.symm)
    · exact steady.2 well member player

/-- A step keeps a stage steady exactly when it is careful. -/
theorem step_steady_iff (placed : Placed level stage) (steady : Steady stage)
    (taken : stage.step event = some stage') : Steady stage' ↔ Careful stage event := by
  obtain ⟨⟨_, possible⟩, rfl⟩ := step_some.mp taken
  cases event with
  | longPressFailed => exact iff_of_true steady trivial
  | gesture gesture =>
    cases gesture with
    | longPressBegan location => exact iff_of_true (steady.began placed.aligned possible location) trivial
    | longPressChanged location =>
      obtain ⟨pressed, current⟩ := placed.pressed possible
      exact iff_of_true (steady.changed possible current location) trivial
    | longPressEnded =>
      obtain ⟨pressed, current⟩ := placed.pressed possible
      simp only [Careful, current, Option.mem_some_iff, forall_eq']
      exact steady_ended_iff placed steady current
    | longPressCancelled =>
      obtain ⟨pressed, current⟩ := placed.pressed possible
      simp only [Careful, current, Option.mem_some_iff, forall_eq']
      exact steady_cancelled_iff placed steady current
    | panBegan well => exact iff_of_true (steady.modifyWell well _ rfl) trivial
    | panChanged well translation => exact iff_of_true (steady.modifyWell well _ rfl) trivial
    | panEnded well => exact iff_of_true steady trivial
    | pinch well scale => exact steady_pinch_iff placed steady possible.1 possible.2
    | touchesBegan well => exact iff_of_true (steady.modifyWell well _ rfl) trivial
    | touchesEnded well location =>
      refine iff_of_true ?_ trivial
      simp only [WellStage.handle, WellStage.touchesEnded]
      split_ifs
      · have lifted := steady.modifyWell well (fun current => { current with heldDown := false }) rfl
        exact lifted.touched ((placed.aligned.shown well).mpr possible)
      · exact steady

end Steady

section Init
variable {screen : Screen} {level : LevelData} {stage : WellStage}

theorem init_placed (built : WellStage.init screen level = some stage) : Placed stage stage := by
  have added := init_added built
  have listed : stage.scaledGravityWells = List.range' 0 level.gravityWells.length := added.scaledGravityWells
  have layered : stage.subviews = List.range' 0 level.gravityWells.length := added.subviews
  have created : stage.created = 0 + level.gravityWells.length := added.created
  refine ⟨init_shaped built, ⟨?_, ?_, ?_, ?_⟩, ?_⟩
  · rw [listed]
    exact List.nodup_range'
  · rw [layered]
    exact List.nodup_range'
  · rw [listed, layered]
    exact fun _ => Iff.rfl
  · rw [listed, created]
    exact fun well member => (List.mem_range'_1.mp member).2
  · rw [added.pressing]
    exact fun pressing => absurd pressing Bool.false_ne_true

theorem init_steady (built : WellStage.init screen level = some stage) : Steady stage := by
  have placed := init_placed built
  refine ⟨(init_added built).trapped, fun well member player => ?_⟩
  have known := placed.aligned.known well member
  have ofLevel := placed.shaped.fromLevel
  omega

end Init

/-- In every run whose events find what they must, the list of wells is consistent
in every state reached: no removal fails, the list and the subviews have the same
wells, and outside a press every well of the player's can be seen. What the events
must find is exact, when the wells beside the one of a press are counted too. -/
theorem wells_consistent (screen : Screen) (level : LevelData) (stage : WellStage)
    (built : WellStage.init screen level = some stage) (events : List StageEvent) (reached : WellStage)
    (run : WellStage.events.run stage events = some reached) :
    (WellStage.events.Meets Careful stage events → WellStage.events.Always Consistent stage events) ∧
    (WellStage.events.Always (fun stage => Consistent stage ∧ OthersVisible stage) stage events ↔
      WellStage.events.Meets Careful stage events) := by
  have placed := init_placed built
  have keep : ∀ before event after, Placed stage before → before.step event = some after →
      Placed stage after := fun _ _ _ held taken => held.step taken
  have exact_ : WellStage.events.Always Steady stage events ↔ WellStage.events.Meets Careful stage events :=
    WellStage.events.always_iff_meets_of_invariant keep
      (fun _ _ _ held steady taken => step_steady_iff held steady taken) placed (init_steady built) run
  have same : WellStage.events.Always (fun stage => Consistent stage ∧ OthersVisible stage) stage events ↔
      WellStage.events.Always Steady stage events := by
    refine forall_congr' fun before => forall_congr' fun after => forall_congr' fun middle =>
      forall_congr' fun _ => forall_congr' fun passed => ?_
    have held : Placed stage middle := WellStage.events.run_invariant keep placed passed
    exact (steady_iff held.aligned).symm
  refine ⟨fun careful => ?_, same.trans exact_⟩
  intro before after middle split passed
  exact (same.mpr (exact_.mpr careful) before after middle split passed).1

section Presses

/-- The stage of a level without wells. -/
def noWells : WellStage := .empty phone 0

def began : StageEvent := .gesture (.longPressBegan ⟨100, 100⟩)

/-- A finger on the well of the press. -/
def down : StageEvent := .gesture (.touchesBegan 0)
def up : StageEvent := .gesture (.touchesEnded 0 ⟨100, 100⟩)

def begun : WellStage := noWells.handleTapBegan ⟨100, 100⟩

theorem begun_area : (begun.wells 0).areaOfEffectDiameter = 0 := by
  rw [show begun.wells 0 = _ from handleTapBegan_new noWells ⟨100, 100⟩]
  rfl

theorem tapDistance_far : begun.tapDistance ⟨200, 100⟩ = 100 := by
  have far : distance ⟨200, 100⟩ begun.longTapInital = 100 := by
    change Real.sqrt ((200 - 100) * (200 - 100) + (100 - 100) * (100 - 100)) = 100
    rw [show ((200 : ℝ) - 100) * (200 - 100) + (100 - 100) * (100 - 100) = 100 * 100 by norm_num]
    exact Real.sqrt_mul_self (by norm_num)
  have long : ¬ (100 : ℝ) < begun.screen.propToFloat (1 / 10) true := by
    change ¬ (100 : ℝ) < 1 / 10 * 400
    norm_num
  unfold WellStage.tapDistance
  simp only [far]
  rw [if_neg long]

theorem tapDistance_near : begun.tapDistance ⟨100, 100⟩ = 0 := by
  have near : distance ⟨100, 100⟩ begun.longTapInital = 0 := by
    change Real.sqrt ((100 - 100) * (100 - 100) + (100 - 100) * (100 - 100)) = 0
    rw [sub_self, mul_zero, add_zero, Real.sqrt_zero]
  unfold WellStage.tapDistance
  simp only [near, ite_self]

theorem noWells_begun : WellStage.events.step noWells began = some begun :=
  step_some.mpr ⟨⟨rfl, rfl⟩, rfl⟩

theorem begun_run (events : List StageEvent) :
    WellStage.events.run noWells (began :: events) = WellStage.events.run begun events := by
  rw [Machine.run, noWells_begun]
  rfl

/-- The well drawn out by 100 points. -/
def drawn : WellStage := begun.modifyWell 0 (.resize 100)

theorem drawn_well : drawn.wells 0 = (begun.wells 0).resize 100 := by
  rw [drawn, modifyWell_wells, if_pos rfl]

theorem begun_changed : begun.handleTapChanged ⟨200, 100⟩ = drawn := by
  change begun.modifyWell 0 (.resize (begun.tapDistance ⟨200, 100⟩)) = drawn
  rw [tapDistance_far]
  rfl

theorem drawn_inside : (drawn.wells 0).touchInBtn ⟨100, 100⟩ := by
  have frame : (drawn.wells 0).view.frame = squareAround ⟨100, 100⟩ |100 * 2| := by
    rw [drawn_well, StageWell.resize, (geometry_updateSize _).frame,
      show begun.wells 0 = _ from handleTapBegan_new noWells ⟨100, 100⟩]
    rfl
  unfold StageWell.touchInBtn
  rw [frame, abs_of_nonneg (by norm_num)]
  norm_num [squareAround, CGRect.mk4]

theorem begun_drawn : begun.step (.gesture (.longPressChanged ⟨200, 100⟩)) = some drawn :=
  step_some.mpr ⟨⟨rfl, rfl⟩, begun_changed.symm⟩

/-- A press that is drawn out and ends. -/
theorem drawnPress_consistent : WellStage.events.Always Consistent noWells
    [began, .gesture (.longPressChanged ⟨200, 100⟩), .gesture .longPressEnded] := by
  have ended : drawn.step (.gesture .longPressEnded) = some drawn.handleTapEnded :=
    step_some.mpr ⟨⟨rfl, rfl⟩, rfl⟩
  have run : WellStage.events.run noWells
      [began, .gesture (.longPressChanged ⟨200, 100⟩), .gesture .longPressEnded] =
        some drawn.handleTapEnded := by
    rw [begun_run]
    refine WellStage.events.run_cons_some.mpr ⟨drawn, begun_drawn, ?_⟩
    exact WellStage.events.run_cons_some.mpr ⟨_, ended, rfl⟩
  refine (wells_consistent phone { propFrame := some ⟨0, 0, 1, 1⟩ } noWells rfl _ _ run).1 ?_
  rw [WellStage.events.meets_cons noWells_begun, WellStage.events.meets_cons begun_drawn, WellStage.events.meets_cons ended]
  refine ⟨trivial, trivial, ?_, trivial⟩
  rintro well ⟨⟩ _
  exact List.mem_singleton.mpr rfl

/-- A tap on the well of the press. -/
def tap (stage : WellStage) : WellStage :=
  ((stage.modifyWell 0 fun current => { current with heldDown := true }).modifyWell 0
    fun current => { current with heldDown := false }).touched 0

theorem tap_run {stage : WellStage} (going : stage.trapped = false) (onStage : 0 ∈ stage.subviews)
    (inside : (stage.wells 0).touchInBtn ⟨100, 100⟩) (events : List StageEvent) :
    WellStage.events.run stage (down :: up :: events) = WellStage.events.run (tap stage) events := by
  have held : (stage.modifyWell 0 fun current => { current with heldDown := true }).wells 0 =
      { stage.wells 0 with heldDown := true } := by
    rw [modifyWell_wells, if_pos rfl]
  have lifted : (stage.handle down).handle up = tap stage := by
    change (stage.modifyWell 0 fun current => { current with heldDown := true }).touchesEnded 0 ⟨100, 100⟩ = _
    unfold WellStage.touchesEnded
    rw [held, if_pos ⟨rfl, inside⟩]
    rfl
  have first : stage.step down = some (stage.handle down) := step_some.mpr ⟨⟨going, onStage⟩, rfl⟩
  have second : (stage.handle down).step up = some (tap stage) :=
    step_some.mpr ⟨⟨going, onStage⟩, lifted.symm⟩
  change (stage.step down).bind (fun next => (next.step up).bind fun last => _) = _
  rw [first, Option.bind_some, second]
  rfl

theorem tap_view (stage : WellStage) : ((tap stage).wells 0).view = (stage.wells 0).view := by
  rw [tap, (touched_frame _ 0).1, modifyWell_wells, if_pos rfl, modifyWell_wells, if_pos rfl]

theorem touched_keeps {stage : WellStage} (flag : stage.justCreatedWell ≠ some false) (well : ℕ) :
    stage.touched well = { stage with justCreatedWell := some false } := by
  unfold WellStage.touched
  rw [if_neg flag]

theorem touched_removes {stage : WellStage} (flag : stage.justCreatedWell = some false) (well : ℕ) :
    stage.touched well = { stage.removeGravityWell well with justCreatedWell := some false } := by
  unfold WellStage.touched
  rw [if_pos flag]

/-- The first tap clears the flag, the second one takes the well away. -/
def tappedOnce : WellStage :=
  { (drawn.modifyWell 0 fun current => { current with heldDown := true }).modifyWell 0
      (fun current => { current with heldDown := false }) with justCreatedWell := some false }

theorem tap_drawn : tap drawn = tappedOnce :=
  touched_keeps (by rintro ⟨⟩) 0

def removed : WellStage := tap tappedOnce

theorem removed_fields : removed.scaledGravityWells = [] ∧ removed.trapped = false ∧
    removed.pressing = true ∧ removed.currentGravityWellCreated = some 0 ∧
    removed.tapDistance = begun.tapDistance := by
  unfold removed tap
  rw [touched_removes rfl, removeGravityWell_eq]
  exact ⟨rfl, rfl, rfl, rfl, rfl⟩

/-- Drawn back in, the well that is gone has no size. -/
def drawnBack : WellStage := removed.modifyWell 0 (.resize 0)

theorem removed_changed : removed.handleTapChanged ⟨100, 100⟩ = drawnBack := by
  obtain ⟨_, _, _, current, tapDistance⟩ := removed_fields
  unfold WellStage.handleTapChanged
  rw [current, tapDistance, tapDistance_near]
  rfl

theorem drawnBack_traps : drawnBack.handleTapEnded.trapped = true := by
  obtain ⟨listed, _, _, current, _⟩ := removed_fields
  have pressed : drawnBack.currentGravityWellCreated = some 0 := current
  have size : (drawnBack.wells 0).areaOfEffectDiameter / 2 = 0 := by
    rw [drawnBack, modifyWell_wells, if_pos rfl]
    change (0 * 2 : ℝ) / 2 = 0
    norm_num
  have unlisted : 0 ∉ drawnBack.scaledGravityWells := by
    change 0 ∉ removed.scaledGravityWells
    rw [listed]
    exact List.not_mem_nil
  rw [handleTapEnded_eq pressed, if_pos size, removeGravityWell_eq]
  change (drawnBack.trapped || !decide (0 ∈ drawnBack.scaledGravityWells)) = true
  rw [decide_eq_false unlisted, Bool.not_false, Bool.or_true]

theorem presses_inconsistent :
    (∃ reached, WellStage.events.run noWells [began, .gesture .longPressCancelled] = some reached ∧
      ¬ Consistent reached) ∧
    ∃ reached, WellStage.events.run noWells [began, .gesture (.longPressChanged ⟨200, 100⟩), down, up, down,
      up, .gesture (.longPressChanged ⟨100, 100⟩), .gesture .longPressEnded] = some reached ∧
      ¬ Consistent reached := by
  constructor
  · refine ⟨begun.handleTapCancelled, ?_, fun consistent => ?_⟩
    · rw [begun_run]
      exact WellStage.events.run_cons_some.mpr ⟨_, step_some.mpr ⟨⟨rfl, rfl⟩, rfl⟩, rfl⟩
    · have visible := consistent.visible rfl 0 (List.mem_singleton.mpr rfl) (Nat.zero_le 0)
      exact visible.ne' begun_area
  · obtain ⟨_, going, pressing, _, _⟩ := removed_fields
    have onceInside : (tappedOnce.wells 0).touchInBtn ⟨100, 100⟩ := by
      have view := tap_view drawn
      rw [tap_drawn] at view
      unfold StageWell.touchInBtn
      rw [view]
      exact drawn_inside
    refine ⟨drawnBack.handleTapEnded, ?_, fun consistent => ?_⟩
    · rw [begun_run]
      refine WellStage.events.run_cons_some.mpr ⟨drawn, begun_drawn, ?_⟩
      rw [tap_run rfl (List.mem_singleton.mpr rfl) drawn_inside, tap_drawn,
        tap_run rfl (List.mem_singleton.mpr rfl) onceInside]
      refine WellStage.events.run_cons_some.mpr
        ⟨drawnBack, step_some.mpr ⟨⟨going, pressing⟩, removed_changed.symm⟩, ?_⟩
      exact WellStage.events.run_cons_some.mpr ⟨_, step_some.mpr ⟨⟨going, pressing⟩, rfl⟩, rfl⟩
    · exact Bool.false_ne_true (consistent.indexed.symm.trans drawnBack_traps)

end Presses

end
end Arthius.Guarantees.WellConsistency
