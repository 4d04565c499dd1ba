import Arthius.Guarantees.ForceLaw
import Arthius.Guarantees.PredictionFreshness
import Arthius.Guarantees.PredictionTermination

/-!
# Wells of the player's

What gestures can bring about in a level: the views they lead to, and wells without
an area of effect, which pull nothing. A press begins with one of them. It can only
wear the lines, so it holds no line that was not held before.
-/
namespace Arthius.Guarantees.PlayerWells
open Arthius.Lib Arthius.Source PredictionFrame PredictionTermination PredictionFreshness ForceLaw

noncomputable section

section Level
variable (screen : Screen) (level : LevelData)

/-- A view that a level is opened with. -/
def OpensAs (view : LevelView) : Prop :=
  ∃ fuel uuidString, LevelView.init fuel screen uuidString level = some view

/-- A view that gestures lead to. -/
def Played (view : LevelView) : Prop := ∃ opened fuel gestureList, OpensAs screen level opened ∧
  (LevelView.gestures fuel).run opened gestureList = some view

/-- No line of the level is as thick as that on the screen. -/
def ThinnerThan (thickness : CGFloat) : Prop :=
  ∀ data ∈ level.lineData, screen.propToFloat data.startThickness true < thickness

variable {screen level}

theorem OpensAs.played {view : LevelView} (opened : OpensAs screen level view) : Played screen level view :=
  ⟨view, 0, [], opened, rfl⟩

theorem Played.run {view reached : LevelView} {fuel : ℕ} {gestureList : List LevelView.Gesture}
    (opened : OpensAs screen level view)
    (run : (LevelView.gestures fuel).run view gestureList = some reached) : Played screen level reached :=
  ⟨view, fuel, gestureList, opened, run⟩

/-- How thick a line starts, and with which velocity. -/
def startOf (line : Line) : CGFloat × Option CGVector := (line.startThickness, some line.startVelocity)

variable (screen) in
/-- The same, as the data of the line say. -/
def startOfData (data : LineData) : CGFloat × Option CGVector :=
  (screen.propToFloat data.startThickness true,
    data.startVelocity.map fun velocity => screen.propToVector velocity.cgVector)

theorem setupLines_starts {uuidString : ℕ → String} {i : ℕ} {lineData : List LineData} {lines : List Line}
    (success : setupLines screen uuidString i lineData = some lines) :
    lines.map startOf = lineData.map (startOfData screen) := by
  induction lineData generalizing i lines with
  | nil =>
    cases success
    rfl
  | cons data rest ih =>
    obtain ⟨line, others, ⟨_, startVelocity, _, _, velocity, _, rfl⟩, later, rfl⟩ := setupLines_cons success
    rw [List.map_cons, List.map_cons, ih later, startOfData, velocity]
    rfl

/-- Whatever the player does, the lines start as the level says. -/
theorem Played.starts {view : LevelView} (played : Played screen level view) :
    view.lines.map startOf = level.lineData.map (startOfData screen) := by
  obtain ⟨opened, fuel, gestureList, ⟨fuel', uuidString, built⟩, run⟩ := played
  obtain ⟨_, centred, lines, setup, same⟩ := init_effects built
  obtain ⟨_, sameRun⟩ := run_lines centred run
  rw [map_of_restart (f := startOf) (fun _ => rfl) (sameRun.trans same), setupLines_starts setup]

theorem Played.data {view : LevelView} (played : Played screen level view) {line : Line}
    (member : line ∈ view.lines) : ∃ data ∈ level.lineData, startOfData screen data = startOf line := by
  have there := List.mem_map_of_mem (f := startOf) member
  rw [played.starts] at there
  exact List.mem_map.mp there

theorem Played.line {view : LevelView} (played : Played screen level view) {data : LineData}
    (member : data ∈ level.lineData) : ∃ line ∈ view.lines, startOf line = startOfData screen data := by
  have there := List.mem_map_of_mem (f := startOfData screen) member
  rw [← played.starts] at there
  exact List.mem_map.mp there

theorem Played.thinner {view : LevelView} (played : Played screen level view) {thickness : CGFloat}
    (thin : ThinnerThan screen level thickness) {line : Line} (member : line ∈ view.lines) :
    line.startThickness < thickness := by
  obtain ⟨data, isData, same⟩ := played.data member
  have start : screen.propToFloat data.startThickness true = line.startThickness := congrArg Prod.fst same
  exact start ▸ thin data isData

end Level

section Idle
variable {gravityWells : List GravityWell} {antiGravityZones : List AntiGravityZone} {line : Line}

/-- A well without an area of effect. -/
def Idle (gravWell : GravityWell) : Prop := gravWell.areaOfEffectDiameter ≤ 0

theorem Idle.not_inReach {gravWell : GravityWell} (idle : Idle gravWell) (p : CGPoint) :
    ¬ InReach p gravWell := by
  have nonneg : 0 ≤ distance gravWell.center p := Real.sqrt_nonneg _
  unfold Idle at idle
  unfold InReach
  linarith

/-- Idle wells pull nothing. -/
theorem forcesAt_of_idle (idle : ∀ gravWell ∈ gravityWells, Idle gravWell) (p : CGPoint) :
    forcesAt gravityWells antiGravityZones p = some CGVector.zero := by
  have none_ := calculateGravityForces_far fun gravWell member => (idle gravWell member).not_inReach p
  rw [forcesAt, none_]
  induction antiGravityZones with
  | nil => rfl
  | cons zone rest ih =>
    rw [List.foldl_cons, ite_self]
    exact ih

theorem pull_of_idle (idle : ∀ gravWell ∈ gravityWells, Idle gravWell) (z : ℂ) :
    pull gravityWells antiGravityZones z = 0 := by
  rw [pull, forcesAt_of_idle idle]
  rfl

/-- One more of them changes no pull. -/
theorem forcesAt_append_idle {gravWell : GravityWell} (idle : Idle gravWell) (p : CGPoint) :
    forcesAt (gravityWells ++ [gravWell]) antiGravityZones p = forcesAt gravityWells antiGravityZones p := by
  have out : [gravWell].filter (InReach p) = [] := by
    simpa using idle.not_inReach p
  have same : calculateGravityForces (gravityWells ++ [gravWell]) p = calculateGravityForces gravityWells p := by
    rw [← calculateGravityForces_inReach, List.filter_append, out, List.append_nil,
      calculateGravityForces_inReach]
  rw [forcesAt, same, forcesAt]

theorem pull_append_idle {gravWell : GravityWell} (idle : Idle gravWell) :
    pull (gravityWells ++ [gravWell]) antiGravityZones = pull gravityWells antiGravityZones := by
  funext z
  rw [pull, pull, forcesAt_append_idle idle]

theorem handleCollisions_append (p : CGPoint) (thickness : CGFloat) (wells wells' : List GravityWell) :
    handleCollisions p thickness (wells ++ wells') =
      handleCollisions p (handleCollisions p thickness wells) wells' := by
  induction wells generalizing thickness with
  | nil => rfl
  | cons first rest ih =>
    rw [List.cons_append, handleCollisions, ih]
    rfl

theorem handleCollisions_cons (p : CGPoint) (thickness : CGFloat) (first : GravityWell)
    (rest : List GravityWell) : handleCollisions p thickness (first :: rest) =
      handleCollisions p (handleCollisions p thickness [first]) rest := rfl

/-- A core takes one unit off the line or nothing. -/
theorem handleCollisions_single (p : CGPoint) (thickness : CGFloat) (gravWell : GravityWell) :
    handleCollisions p thickness [gravWell] = thickness - 1 ∨
      handleCollisions p thickness [gravWell] = thickness := by
  simp only [handleCollisions]
  split_ifs
  · exact .inl rfl
  · exact .inr rfl

/-- A line that is some units thinner stays some units thinner. -/
theorem handleCollisions_thinner (p : CGPoint) (wells : List GravityWell) {thickness thinner : CGFloat}
    (units : ∃ k : ℕ, thinner + k = thickness) :
    ∃ k : ℕ, handleCollisions p thinner wells + k = handleCollisions p thickness wells := by
  induction wells generalizing thickness thinner with
  | nil => exact units
  | cons first rest ih =>
    rw [handleCollisions_cons, handleCollisions_cons p thickness]
    apply ih
    obtain ⟨k, rfl⟩ := units
    rcases Nat.eq_zero_or_pos k with rfl | positive
    · exact ⟨0, by simp⟩
    · obtain ⟨j, rfl⟩ := Nat.exists_eq_add_of_le' positive
      -- the thicker line loses one at most
      rcases handleCollisions_single p thinner first with less | same <;>
        rcases handleCollisions_single p (thinner + ((j + 1 : ℕ) : ℝ)) first with less' | same'
      · exact ⟨j + 1, by rw [less, less']; push_cast; ring⟩
      · exact ⟨j + 2, by rw [less, same']; push_cast; ring⟩
      · exact ⟨j, by rw [same, less']; push_cast; ring⟩
      · exact ⟨j + 1, by rw [same, same']⟩

theorem thicknessAt_append_idle {gravWell : GravityWell} (idle : Idle gravWell) (n : ℕ) :
    ∃ k : ℕ, thicknessAt (gravityWells ++ [gravWell]) antiGravityZones line n + k =
      thicknessAt gravityWells antiGravityZones line n := by
  induction n with
  | zero => exact ⟨0, by simp [thicknessAt]⟩
  | succ n ih =>
    have point : pointAt (gravityWells ++ [gravWell]) antiGravityZones line (n + 1) =
        pointAt gravityWells antiGravityZones line (n + 1) := by
      rw [pointAt, pointAt, wayOf, wayOf, pull_append_idle idle]
    rw [thicknessAt, thicknessAt, point, handleCollisions_append]
    obtain ⟨k, is⟩ := handleCollisions_thinner (pointAt gravityWells antiGravityZones line (n + 1)) gravityWells ih
    rcases handleCollisions_single (pointAt gravityWells antiGravityZones line (n + 1))
      (handleCollisions (pointAt gravityWells antiGravityZones line (n + 1))
        (thicknessAt (gravityWells ++ [gravWell]) antiGravityZones line n) gravityWells) gravWell with less | same
    · refine ⟨k + 1, ?_⟩
      rw [less, ← is]
      push_cast
      ring
    · exact ⟨k, by rw [same, is]⟩

/-- A line that is held beside one more idle well was held without it. -/
theorem held_of_append_idle {gravWell : GravityWell} (idle : Idle gravWell)
    (held : Held (gravityWells ++ [gravWell]) antiGravityZones line) : Held gravityWells antiGravityZones line := by
  obtain ⟨short, endures⟩ := held_iff.mp held
  have pulls : pull (gravityWells ++ [gravWell]) antiGravityZones = pull gravityWells antiGravityZones :=
    pull_append_idle idle
  refine held_iff.mpr ⟨fun n => ?_, fun n => ⟨?_, ?_⟩⟩
  · rw [wayLength, ← pulls]
    exact short n
  · obtain ⟨k, is⟩ : ∃ k : ℕ, thicknessAt (gravityWells ++ [gravWell]) antiGravityZones line n + k =
        thicknessAt gravityWells antiGravityZones line n := thicknessAt_append_idle idle n
    have nonneg : (0 : ℝ) ≤ k := Nat.cast_nonneg k
    linarith [(endures n).1]
  · have pulled := (endures n).2
    rwa [forcesAt_append_idle idle, pointAt, wayOf, pulls] at pulled

section Unpulled
variable (idle : ∀ gravWell ∈ gravityWells, Idle gravWell)
include idle

theorem wayLength_of_idle (n : ℕ) :
    wayLength gravityWells antiGravityZones line n = n * line.startVelocity.length := by
  rw [wayLength, Motion.length_of_unpulled (pull_of_idle idle), length_eq_norm]
  rfl

theorem pointAt_one_of_idle : pointAt gravityWells antiGravityZones line 1 =
    line.startPosition + ⟨line.startVelocity.dx, line.startVelocity.dy⟩ := by
  have velocity : (Motion.after (pull gravityWells antiGravityZones) 1 (freePoint line)).velocity =
      (freePoint line).velocity := Motion.velocity_of_unpulled (pull_of_idle idle) 1
  rw [pointAt, wayOf, Motion.position_succ, velocity]
  rfl

/-- Beside idle wells, lines that move are through after a number of turns that
depends on their velocities only. -/
theorem getPredictedPaths_of_idle {turns : ℕ} {lines : List Line}
    (moving : ∀ line ∈ lines, 700 ≤ turns * line.startVelocity.length) (boxes : List ColorBox) :
    (getPredictedPaths (turns + 1) gravityWells antiGravityZones boxes lines).isSome := by
  induction lines generalizing boxes with
  | nil => rfl
  | cons line rest ih =>
    obtain ⟨fast, others⟩ := List.forall_mem_cons.mp moving
    have stops : ¬ Reaches gravityWells antiGravityZones line turns := by
      intro reaches
      have short := (reaches turns (le_refl _)).1
      rw [wayLength_of_idle idle] at short
      exact absurd short (not_lt.mpr fast)
    obtain ⟨walk, first⟩ := Option.isSome_iff_exists.mp (predictLine_isSome stops boxes)
    obtain ⟨prediction, later⟩ := Option.isSome_iff_exists.mp (ih others walk.scaledColorBoxes)
    exact Option.isSome_iff_exists.mpr ⟨_, getPredictedPaths_cons.mpr ⟨walk, prediction, first, later, rfl⟩⟩

end Unpulled

theorem length_pos {v : CGVector} (moves : v ≠ CGVector.zero) : 0 < v.length := by
  rw [length_eq_norm, norm_pos_iff]
  intro still
  exact moves (CGVector.ext (congrArg Complex.re still) (congrArg Complex.im still))

/-- Such a number of turns. -/
theorem exists_turns {lines : List Line} (moves : ∀ line ∈ lines, line.startVelocity ≠ CGVector.zero) :
    ∃ turns : ℕ, ∀ line ∈ lines, 700 ≤ turns * line.startVelocity.length := by
  induction lines with
  | nil => exact ⟨0, fun line member => absurd member List.not_mem_nil⟩
  | cons line rest ih =>
    obtain ⟨first, others⟩ := List.forall_mem_cons.mp moves
    obtain ⟨turns, enough⟩ := ih others
    have speed := length_pos first
    obtain ⟨more, large⟩ := exists_nat_ge (700 / line.startVelocity.length)
    refine ⟨max turns more, List.forall_mem_cons.mpr ⟨?_, fun other member => ?_⟩⟩
    · rw [div_le_iff₀ speed] at large
      refine large.trans (mul_le_mul_of_nonneg_right ?_ speed.le)
      exact_mod_cast le_max_right turns more
    · refine (enough other member).trans (mul_le_mul_of_nonneg_right ?_ (length_pos (others other member)).le)
      exact_mod_cast le_max_left turns more

end Idle

section Press
variable {screen : Screen} {level : LevelData} {view : LevelView}

theorem createGravityWellsFromLevel_listed {fuel : ℕ} {data : List GravityWellData} {view' : LevelView}
    (success : LevelView.createGravityWellsFromLevel fuel data view = some view') (listed : Listed view) :
    Listed view' := by
  induction data generalizing view with
  | nil =>
    cases success
    exact listed
  | cons gWell rest ih =>
    obtain ⟨position, _, success⟩ := Option.bind_eq_some_iff.mp success
    obtain ⟨next, first, success⟩ := Option.bind_eq_some_iff.mp success
    obtain ⟨_, wells, _, count, _⟩ := updatePredictPath_wells first
    refine ih success ?_
    unfold Listed
    rw [wells, count]
    exact listed.withWell _ _ _ _

theorem OpensAs.listed (opened : OpensAs screen level view) : Listed view := by
  obtain ⟨fuel, uuidString, built⟩ := opened
  obtain ⟨_, lines, zones, withWells, _, _, _, wells, boxes⟩ := LevelView.init_some built
  obtain ⟨added, _, rfl⟩ := createColorBoxesFromLevel_frame boxes
  have listed := createGravityWellsFromLevel_listed wells fun well member => absurd member List.not_mem_nil
  exact listed

/-- A press begins with an idle well; if no line is held, its prediction returns. -/
theorem press_begins (listed : Listed view)
    (free : ∀ line ∈ view.lines, ¬ Held view.gravityWells view.antiGravityZones line) (p : CGPoint) :
    ∃ fuel began, (LevelView.gestures fuel).step view (.longPressBegan p) = some began ∧
      began.wellViews = Function.update view.wellViews view.created (.new p 0 0 100) ∧
      began.scaledGravityWells = view.scaledGravityWells ++ [view.created] ∧
      began.currentGravityWellCreated = some view.created ∧ began.longTapInital = p ∧
      began.screen = view.screen ∧ began.lines.map Line.restart = view.lines.map Line.restart := by
  let pressed : LevelView := { view with longTapInital := p }
  have listedPressed : Listed pressed := listed
  let next := withWell pressed p 0 0 100
  have wells : next.gravityWells = view.gravityWells ++ [(WellView.new p 0 0 100).toGravityWell] :=
    listedPressed.withWell_gravityWells p 0 0 100
  have freeNext : ∀ line ∈ next.lines, ¬ Held next.gravityWells next.antiGravityZones line := by
    intro line member held
    rw [wells] at held
    exact free line member (held_of_append_idle (le_refl 0) held)
  obtain ⟨fuel, returns⟩ := (returns_iff_not_held next).mpr freeNext
  obtain ⟨after, success⟩ := Option.isSome_iff_exists.mp returns
  obtain ⟨_, onStage, wellViews, _, _, screen, initial⟩ := updatePredictPath_wells success
  obtain ⟨_, _, lines, _⟩ := updatePredictPath_effects success
  refine ⟨fuel, { after with currentGravityWellCreated := some view.created }, ?_, wellViews, onStage, rfl,
    initial, screen, lines⟩
  exact Option.bind_eq_some_iff.mpr ⟨after, success, rfl⟩

theorem distance_right (p : CGPoint) {width : CGFloat} (wide : 0 ≤ width) :
    distance ⟨p.x + width, p.y⟩ p = width := by
  rw [distance, add_sub_cancel_left, sub_self, mul_zero, add_zero, Real.sqrt_mul_self wide]

/-- A press that is drawn out puts a well with an area of effect where it began. -/
theorem press_drawn_out (listed : Listed view)
    (free : ∀ line ∈ view.lines, ¬ Held view.gravityWells view.antiGravityZones line) (p : CGPoint) :
    ∃ fuel reached, (LevelView.gestures fuel).run view
        [.longPressBegan p, .longPressChanged ⟨p.x + view.screen.width, p.y⟩] = some reached ∧
      reached.lines.map Line.restart = view.lines.map Line.restart ∧ AtCentre p reached.gravityWells := by
  obtain ⟨fuel, began, step, wells, onStage, current, initial, screen, lines⟩ := press_begins listed free p
  have wide := view.screen.width_pos
  have far : began.tapDistance ⟨p.x + view.screen.width, p.y⟩ = view.screen.width := by
    unfold LevelView.tapDistance
    rw [initial, distance_right p wide.le, screen]
    refine if_neg (not_lt.mpr ?_)
    simp only [Screen.propToFloat, if_true]
    linarith
  let change := fun current : WellView => { current with
    areaOfEffectDiameter := view.screen.width * 2, coreDiameter := view.screen.width / 2 }.updateSize
  have changed : (LevelView.gestures fuel).step began (.longPressChanged ⟨p.x + view.screen.width, p.y⟩) =
      some (began.modifyWell view.created change) := by
    change began.handleTapChanged _ = _
    rw [LevelView.handleTapChanged, current, far]
    rfl
  refine ⟨fuel, began.modifyWell view.created change, ?_, lines, ?_⟩
  · refine (LevelView.gestures fuel).run_cons_some.mpr ⟨began, step, ?_⟩
    exact (LevelView.gestures fuel).run_cons_some.mpr ⟨_, changed, rfl⟩
  · have there : view.created ∈ began.scaledGravityWells := by
      rw [onStage]
      exact List.mem_append_right _ (List.mem_singleton.mpr rfl)
    have drawn : (began.modifyWell view.created change).wellViews view.created = change (.new p 0 0 100) := by
      simp only [LevelView.modifyWell, wells, Function.update_self]
    refine ⟨_, List.mem_map_of_mem there, ?_, ?_⟩
    · rw [drawn]
      rfl
    · rw [drawn]
      change 0 < view.screen.width * 2
      linarith

end Press

section Arrange
variable {start view : LevelView} {turns : ℕ}

/-- A well of no size. -/
def Sizeless (well : WellView) : Prop := well.coreDiameter = 0 ∧ well.areaOfEffectDiameter = 0

/-- The lines start as at first, and no well on the stage has a size. -/
structure Calm (start view : LevelView) : Prop where
  lines : view.lines.map Line.restart = start.lines.map Line.restart
  listed : Listed view
  sizeless : ∀ well ∈ view.scaledGravityWells, Sizeless (view.wellViews well)

theorem Calm.idle (calm : Calm start view) : ∀ gravWell ∈ view.gravityWells, Idle gravWell := by
  intro gravWell member
  obtain ⟨well, there, rfl⟩ := List.mem_map.mp member
  exact (calm.sizeless well there).2.le

/-- Lines that move are through after `turns` turns beside wells that pull nothing. -/
def Moving (turns : ℕ) (view : LevelView) : Prop :=
  ∀ line ∈ view.lines, 700 ≤ turns * line.startVelocity.length

theorem Moving.of_lines (moving : Moving turns start)
    (lines : view.lines.map Line.restart = start.lines.map Line.restart) : Moving turns view := by
  have velocities : view.lines.map Line.startVelocity = start.lines.map Line.startVelocity :=
    map_of_restart (fun _ => rfl) lines
  intro line member
  have there := List.mem_map_of_mem (f := Line.startVelocity) member
  rw [velocities] at there
  obtain ⟨other, isLine, same⟩ := List.mem_map.mp there
  exact same ▸ moving other isLine

theorem Calm.predicts (calm : Calm start view) (moving : Moving turns start) :
    ∃ view', view.updatePredictPath (turns + 1) = some view' ∧ Calm start view' ∧
      view'.scaledGravityWells = view.scaledGravityWells ∧ view'.wellViews = view.wellViews ∧
      view'.created = view.created := by
  have returns : (getPredictedPaths (turns + 1) view.gravityWells view.antiGravityZones
      view.scaledColorBoxes view.lines).isSome :=
    getPredictedPaths_of_idle calm.idle (moving.of_lines calm.lines) view.scaledColorBoxes
  obtain ⟨view', success⟩ := Option.isSome_iff_exists.mp ((updatePredictPath_isSome view _).trans returns)
  obtain ⟨_, onStage, wells, count, _⟩ := updatePredictPath_wells success
  obtain ⟨_, _, lines, _⟩ := updatePredictPath_effects success
  refine ⟨view', success, ⟨lines.trans calm.lines, ?_, ?_⟩, onStage, wells, count⟩
  · unfold Listed
    rw [onStage, count]
    exact calm.listed
  · rw [onStage, wells]
    exact calm.sizeless

/-- Gestures that lead from one view to another. -/
def Leads (fuel : ℕ) (view view' : LevelView) : Prop :=
  ∃ gestureList, (LevelView.gestures fuel).run view gestureList = some view'

theorem Leads.trans {fuel : ℕ} {view' view'' : LevelView} (first : Leads fuel view view')
    (second : Leads fuel view' view'') : Leads fuel view view'' := by
  obtain ⟨before, reached⟩ := first
  obtain ⟨after, reached'⟩ := second
  exact ⟨before ++ after, (LevelView.gestures fuel).run_append_some.mpr ⟨view', reached, reached'⟩⟩

theorem Leads.of_step {fuel : ℕ} {view' : LevelView} {gesture : LevelView.Gesture}
    (step : (LevelView.gestures fuel).step view gesture = some view') : Leads fuel view view' :=
  ⟨[gesture], (LevelView.gestures fuel).run_cons_some.mpr ⟨view', step, rfl⟩⟩

theorem Leads.played {screen : Screen} {level : LevelData} {fuel : ℕ} {view' : LevelView}
    (leads : Leads fuel view view') (opened : OpensAs screen level view) : Played screen level view' := by
  obtain ⟨gestureList, run⟩ := leads
  exact Played.run opened run

/-- Wells are pinched to nothing. -/
theorem leads_pinched (fuel : ℕ) (view : LevelView) (pinched : List ℕ)
    (there : ∀ well ∈ pinched, well ∈ view.scaledGravityWells) :
    ∃ wellViews, Leads fuel view { view with wellViews := wellViews } ∧
      ∀ well, (well ∈ pinched ∨ Sizeless (view.wellViews well)) → Sizeless (wellViews well) := by
  induction pinched generalizing view with
  | nil => exact ⟨view.wellViews, ⟨[], rfl⟩, fun well sizeless => sizeless.resolve_left List.not_mem_nil⟩
  | cons first rest ih =>
    obtain ⟨thereFirst, thereRest⟩ := List.forall_mem_cons.mp there
    have step : (LevelView.gestures fuel).step view (.pinch first 0) = some (view.handlePinch first 0) :=
      if_pos thereFirst
    obtain ⟨wellViews, leads, sizeless⟩ := ih (view.handlePinch first 0) thereRest
    refine ⟨wellViews, (Leads.of_step step).trans leads, fun well before => sizeless well ?_⟩
    by_cases same : well = first
    · refine .inr ?_
      subst same
      simp [LevelView.handlePinch, LevelView.modifyWell, WellView.updateSize, Sizeless]
    · refine before.imp (fun member => (List.mem_cons.mp member).resolve_left same) fun sizelessBefore => ?_
      simp only [LevelView.handlePinch, LevelView.modifyWell, Function.update_of_ne same]
      exact sizelessBefore

/-- One well is panned to a point. -/
theorem Calm.leads_panned (calm : Calm start view) (moving : Moving turns start) (p : CGPoint) {well : ℕ}
    (there : well ∈ view.scaledGravityWells) :
    ∃ view', Leads (turns + 1) view view' ∧ Calm start view' ∧
      view'.scaledGravityWells = view.scaledGravityWells ∧ (view'.wellViews well).corePoint = p ∧
      ∀ other, other ≠ well → view'.wellViews other = view.wellViews other := by
  let began := view.modifyWell well fun current => { current with boxCenter := current.center }
  let translation : CGPoint := p - (view.wellViews well).center
  let moved := began.modifyWell well fun current =>
    { current with center := current.boxCenter + translation, corePoint := current.boxCenter + translation }
  have same : ∀ other, other ≠ well → moved.wellViews other = view.wellViews other := by
    intro other different
    simp only [moved, began, LevelView.modifyWell, Function.update_of_ne different]
  have here : moved.wellViews well = { view.wellViews well with
      center := (view.wellViews well).center + translation
      corePoint := (view.wellViews well).center + translation
      boxCenter := (view.wellViews well).center } := by
    simp only [moved, began, LevelView.modifyWell, Function.update_self]
  have calmMoved : Calm start moved := by
    refine ⟨calm.lines, calm.listed, fun other member => ?_⟩
    by_cases is : other = well
    · rw [is, here]
      exact calm.sizeless well there
    · rw [same other is]
      exact calm.sizeless other member
  obtain ⟨view', predicted, calm', onStage, wells, _⟩ := calmMoved.predicts moving
  refine ⟨view', ?_, calm', onStage, ?_, fun other different => ?_⟩
  · have first : (LevelView.gestures (turns + 1)).step view (.panBegan well) = some began := if_pos there
    have second : (LevelView.gestures (turns + 1)).step began (.panChanged well translation) = some view' :=
      (if_pos there).trans predicted
    exact (Leads.of_step first).trans (Leads.of_step second)
  · rw [wells, here]
    ext <;> simp [translation]
  · rw [wells, same other different]

/-- All wells are panned to one point. -/
theorem Calm.leads_gathered (calm : Calm start view) (moving : Moving turns start) (p : CGPoint)
    (panned : List ℕ) (there : ∀ well ∈ panned, well ∈ view.scaledGravityWells) :
    ∃ view', Leads (turns + 1) view view' ∧ Calm start view' ∧
      view'.scaledGravityWells = view.scaledGravityWells ∧
      ∀ well, (well ∈ panned ∨ (view.wellViews well).corePoint = p) → (view'.wellViews well).corePoint = p := by
  induction panned generalizing view with
  | nil => exact ⟨view, ⟨[], rfl⟩, calm, rfl, fun well at_ => at_.resolve_left List.not_mem_nil⟩
  | cons first rest ih =>
    obtain ⟨thereFirst, thereRest⟩ := List.forall_mem_cons.mp there
    obtain ⟨next, leads, calmNext, onStage, here, others⟩ := calm.leads_panned moving p thereFirst
    obtain ⟨view', leads', calm', onStage', gathered⟩ := ih calmNext (onStage ▸ thereRest)
    refine ⟨view', leads.trans leads', calm', onStage'.trans onStage, fun well before => gathered well ?_⟩
    by_cases same : well = first
    · exact .inr (same ▸ here)
    · rw [others well same]
      exact before.imp (fun member => (List.mem_cons.mp member).resolve_left same) id

/-- A press that is cancelled leaves a well of no size where it began. -/
theorem Calm.leads_pressed (calm : Calm start view) (moving : Moving turns start) (p : CGPoint) :
    ∃ view', Leads (turns + 1) view view' ∧ Calm start view' ∧ view'.created = view.created + 1 ∧
      view'.scaledGravityWells = view.scaledGravityWells ++ [view.created] ∧
      view'.wellViews = Function.update view.wellViews view.created (.new p 0 0 100) := by
  let pressed : LevelView := { view with longTapInital := p }
  have listedPressed : Listed pressed := calm.listed
  let next := withWell pressed p 0 0 100
  have listed : Listed next := listedPressed.withWell p 0 0 100
  have calmNext : Calm start next := by
    refine ⟨calm.lines, listed, fun well member => ?_⟩
    rcases List.mem_append.mp member with before | new
    · have old : next.wellViews well = view.wellViews well := Function.update_of_ne (calm.listed well before).ne _ _
      rw [old]
      exact calm.sizeless well before
    · obtain rfl := List.mem_singleton.mp new
      have made : next.wellViews view.created = .new p 0 0 100 := Function.update_self _ _ _
      rw [made]
      exact ⟨rfl, rfl⟩
  obtain ⟨after, success, calmAfter, onStage, wells, count⟩ := calmNext.predicts moving
  have began : (LevelView.gestures (turns + 1)).step view (.longPressBegan p) =
      some { after with currentGravityWellCreated := some view.created } :=
    Option.bind_eq_some_iff.mpr ⟨after, success, rfl⟩
  have cancelled : (LevelView.gestures (turns + 1)).step
      { after with currentGravityWellCreated := some view.created } .longPressCancelled =
        some { after with currentGravityWellCreated := some view.created } := rfl
  exact ⟨_, (Leads.of_step began).trans (Leads.of_step cancelled),
    ⟨calmAfter.lines, calmAfter.listed, calmAfter.sizeless⟩, count, onStage, wells⟩

/-- The player can bring all wells of a level to one point, without any size, and
put two more wherever they like. -/
theorem leads_arranged (listed : Listed start) (moving : Moving turns start) (p first second : CGPoint) :
    ∃ view, Leads (turns + 1) start view ∧ Calm start view ∧ ∃ onStage well,
      view.scaledGravityWells = onStage ++ [well, well + 1] ∧
      (∀ other ∈ onStage, (view.wellViews other).corePoint = p) ∧
      (view.wellViews well).corePoint = first ∧ (view.wellViews (well + 1)).corePoint = second := by
  obtain ⟨wellViews, pinched, sizeless⟩ := leads_pinched (turns + 1) start start.scaledGravityWells
    fun well member => member
  have calm : Calm start { start with wellViews := wellViews } :=
    ⟨rfl, listed, fun well member => sizeless well (.inl member)⟩
  obtain ⟨gathered, leads, calmGathered, onStage, there⟩ := calm.leads_gathered moving p start.scaledGravityWells
    fun well member => member
  obtain ⟨pressed, leads', calmPressed, count, onStage', wells⟩ := calmGathered.leads_pressed moving first
  obtain ⟨view, leads'', calmView, _, onStage'', wells'⟩ := calmPressed.leads_pressed moving second
  refine ⟨view, ((pinched.trans leads).trans leads').trans leads'', calmView, start.scaledGravityWells,
    gathered.created, ?_, fun other member => ?_, ?_, ?_⟩
  · rw [onStage'', onStage', onStage, count, List.append_assoc]
    rfl
  · have old : other < gathered.created := calmGathered.listed other (onStage ▸ member)
    rw [wells', wells, count, Function.update_of_ne (by omega), Function.update_of_ne old.ne]
    exact there other (.inl member)
  · rw [wells', wells, count, Function.update_of_ne (by omega), Function.update_self]
    rfl
  · rw [wells', count, Function.update_self]
    rfl

end Arrange

end
end Arthius.Guarantees.PlayerWells
