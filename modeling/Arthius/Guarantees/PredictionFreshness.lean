import Arthius.Guarantees.PredictionFrame

/-!
# The drawn prediction is fresh

`updatePredictPath` reads the wells, the colour boxes and the anti-gravity zones.
What it read last is what is there, over every run of gestures, as long as no
long press and no pinch resizes a well: these two handlers do not predict again.
`LevelView.init` predicts when it creates a well, and creates the boxes last.
-/
namespace Arthius.Guarantees.PredictionFreshness
open Arthius.Lib Arthius.Source LevelView PredictionFrame

/-- What the last prediction read is what is there. -/
def Fresh (view : LevelView) : Prop := view.lastRead = some view.predictionInput

/-- The step condition: the gesture leaves the diameters of the wells alone. -/
def KeepsSizes (view : LevelView) : Gesture → Prop
  | .longPressChanged p => ∀ well, view.currentGravityWellCreated = some well →
      well ∈ view.scaledGravityWells →
      view.tapDistance p * 2 = (view.wellViews well).areaOfEffectDiameter ∧
        view.tapDistance p / 2 = (view.wellViews well).coreDiameter
  | .pinch well scale =>
      (view.wellViews well).areaOfEffectDiameter * scale = (view.wellViews well).areaOfEffectDiameter ∧
        (view.wellViews well).coreDiameter * scale = (view.wellViews well).coreDiameter
  | _ => True

/-- A well lies around its core point. -/
def Centred (view : LevelView) : Prop :=
  ∀ well, (view.wellViews well).center = (view.wellViews well).corePoint

/-- The lines are the same to a prediction, which restarts them. -/
def SameLines (view view' : LevelView) : Prop :=
  view'.lines.map Line.restart = view.lines.map Line.restart

section Wells
variable {view : LevelView}

/-- The wells on the stage exist. -/
def Listed (view : LevelView) : Prop := ∀ well ∈ view.scaledGravityWells, well < view.created

/-- The view in which the prediction for a well that was just created is made. -/
def withWell (view : LevelView) (point : CGPoint) (core areaOfEffectDiameter mass : CGFloat) : LevelView :=
  { view with
    wellViews := Function.update view.wellViews view.created (.new point core areaOfEffectDiameter mass)
    created := view.created + 1
    scaledGravityWells := view.scaledGravityWells ++ [view.created] }

theorem Listed.withWell (listed : Listed view) (point : CGPoint) (core areaOfEffectDiameter mass : CGFloat) :
    Listed (PredictionFreshness.withWell view point core areaOfEffectDiameter mass) := by
  intro well member
  rcases List.mem_append.mp member with before | new
  · exact Nat.lt_succ_of_lt (listed well before)
  · obtain rfl := List.mem_singleton.mp new
    exact Nat.lt_succ_self _

theorem Listed.withWell_gravityWells (listed : Listed view) (point : CGPoint)
    (core areaOfEffectDiameter mass : CGFloat) :
    (PredictionFreshness.withWell view point core areaOfEffectDiameter mass).gravityWells =
      view.gravityWells ++ [(WellView.new point core areaOfEffectDiameter mass).toGravityWell] := by
  have old : ∀ well ∈ view.scaledGravityWells,
      (Function.update view.wellViews view.created (WellView.new point core areaOfEffectDiameter mass) well).toGravityWell =
        (view.wellViews well).toGravityWell := by
    intro well member
    rw [Function.update_of_ne (listed well member).ne]
  rw [gravityWells, gravityWells, PredictionFreshness.withWell, List.map_append,
    List.map_congr_left old, List.map_singleton]
  dsimp only
  rw [Function.update_self]

end Wells

section Update
variable {fuel : ℕ} {view view' : LevelView}

/-- What `updatePredictPath` leaves of the view, and that it is fresh then. -/
theorem updatePredictPath_effects (success : view.updatePredictPath fuel = some view') :
    Fresh view' ∧ view'.wellViews = view.wellViews ∧ SameLines view view' ∧
      (view.scaledColorBoxes = [] → view'.scaledColorBoxes = []) := by
  obtain ⟨prediction, predicted, success⟩ := Option.bind_eq_some_iff.mp success
  cases success
  obtain ⟨lines, shapes⟩ := getPredictedPaths_frame predicted
  refine ⟨?_, rfl, lines, fun noBoxes => ?_⟩
  · unfold Fresh predictionInput
    simp only [shapes]
    rfl
  · rw [noBoxes] at shapes
    exact List.map_eq_nil_iff.mp shapes

/-- A prediction changes no well. -/
theorem updatePredictPath_wells (success : view.updatePredictPath fuel = some view') :
    view'.gravityWells = view.gravityWells ∧ view'.scaledGravityWells = view.scaledGravityWells ∧
      view'.wellViews = view.wellViews ∧ view'.created = view.created ∧
      view'.antiGravityZones = view.antiGravityZones ∧ view'.screen = view.screen ∧
      view'.longTapInital = view.longTapInital := by
  obtain ⟨prediction, _, rest⟩ := Option.bind_eq_some_iff.mp success
  cases rest
  exact ⟨rfl, rfl, rfl, rfl, rfl, rfl, rfl⟩

theorem createGravityWell_effects {point : CGPoint} {core areaOfEffectDiameter mass : CGFloat}
    (success : view.createGravityWell fuel point core areaOfEffectDiameter mass = some view') :
    Fresh view' ∧ (Centred view → Centred view') ∧ SameLines view view' ∧
      (view.scaledColorBoxes = [] → view'.scaledColorBoxes = []) := by
  obtain ⟨fresh, wells, lines, boxes⟩ := updatePredictPath_effects success
  refine ⟨fresh, fun centred well => ?_, lines, boxes⟩
  rw [wells]
  by_cases new : well = view.created
  · subst new
    simp only [Function.update_self]
    rfl
  · simp only [Function.update_of_ne new]
    exact centred well

theorem removeGravityWell_effects {well : ℕ} (success : view.removeGravityWell fuel well = some view') :
    Fresh view' ∧ view'.wellViews = view.wellViews ∧ SameLines view view' := by
  unfold removeGravityWell at success
  split at success
  · obtain ⟨fresh, wells, lines, _⟩ := updatePredictPath_effects success
    exact ⟨fresh, wells, lines⟩
  · cases success

/-- A prediction sees a change of a well exactly when the well is on the stage
and one of the values it reads changes. -/
theorem predictionInput_modifyWell_iff (well : ℕ) (change : WellView → WellView) :
    (view.modifyWell well change).predictionInput = view.predictionInput ↔
      (well ∈ view.scaledGravityWells →
        (change (view.wellViews well)).toGravityWell = (view.wellViews well).toGravityWell) := by
  have same : (view.modifyWell well change).predictionInput = view.predictionInput ↔
      (view.modifyWell well change).gravityWells = view.gravityWells := by
    unfold predictionInput
    rw [PredictionInput.mk.injEq]
    exact ⟨fun eq => eq.1, fun eq => ⟨eq, rfl, rfl⟩⟩
  rw [same]
  refine List.map_eq_map_iff.trans ⟨fun each member => ?_, fun unseen other member => ?_⟩
  · have here := each well member
    simp only [modifyWell, Function.update_self] at here
    exact here
  · by_cases is : other = well
    · subst is
      simp only [modifyWell, Function.update_self]
      exact unseen member
    · simp only [modifyWell, Function.update_of_ne is]

theorem centred_modifyWell {well : ℕ} {change : WellView → WellView} (centred : Centred view)
    (keeps : (change (view.wellViews well)).center = (change (view.wellViews well)).corePoint) :
    Centred (view.modifyWell well change) := by
  intro other
  by_cases is : other = well
  · subst is
    simp only [modifyWell, Function.update_self]
    exact keeps
  · simp only [modifyWell, Function.update_of_ne is]
    exact centred other

/-- Resizing a well around its core point goes unseen exactly when the diameters stay. -/
theorem resize_unseen_iff {current : WellView} (centred : current.center = current.corePoint)
    (outer core : CGFloat) :
    ({ current with areaOfEffectDiameter := outer, coreDiameter := core } : WellView).updateSize.toGravityWell
        = current.toGravityWell ↔ outer = current.areaOfEffectDiameter ∧ core = current.coreDiameter := by
  unfold WellView.updateSize
  rw [← centred]
  cases current with
  | mk well boxCenter heldDown =>
    cases well with
    | mk corePoint center coreDiameter areaOfEffectDiameter mass =>
      simp only [GravityWell.mk.injEq, true_and, and_true]
      constructor
      · intro ⟨_, sameCore, sameOuter⟩
        exact ⟨sameOuter, sameCore⟩
      · intro ⟨sameOuter, sameCore⟩
        exact ⟨centred, sameCore, sameOuter⟩

end Update

section Gestures
variable {fuel : ℕ} {view view' : LevelView}

/-- The two kinds of gesture handlers: one predicts again, the other does not,
and then what a prediction would read is the same exactly under the condition. -/
structure Effect (view view' : LevelView) (keeps : Prop) : Prop where
  centred : Centred view'
  lines : SameLines view view'
  kind : Fresh view' ∧ keeps ∨
    view'.lastRead = view.lastRead ∧ (view'.predictionInput = view.predictionInput ↔ keeps)

theorem effect_unread (centred : Centred view') (lines : SameLines view view')
    (read : view'.lastRead = view.lastRead) (same : view'.predictionInput = view.predictionInput) :
    Effect view view' True :=
  ⟨centred, lines, .inr ⟨read, iff_of_true same trivial⟩⟩

theorem effect_modifyWell {well : ℕ} {change : WellView → WellView} (centred : Centred view)
    (keeps : (change (view.wellViews well)).center = (change (view.wellViews well)).corePoint)
    (unseen : (change (view.wellViews well)).toGravityWell = (view.wellViews well).toGravityWell) :
    Effect view (view.modifyWell well change) True :=
  effect_unread (centred_modifyWell centred keeps) rfl rfl
    ((predictionInput_modifyWell_iff well change).mpr fun _ => unseen)

theorem effect_removeGravityWell {before : LevelView} {well : ℕ} (centred : Centred view)
    (lines : SameLines before view) (success : view.removeGravityWell fuel well = some view') :
    Effect before view' True := by
  obtain ⟨fresh, wells, linesNow⟩ := removeGravityWell_effects success
  refine ⟨fun other => ?_, linesNow.trans lines, .inl ⟨fresh, trivial⟩⟩
  simpa only [wells] using centred other

theorem onStage_some {well : ℕ} {next : Option LevelView} (success : view.onStage well next = some view') :
    well ∈ view.scaledGravityWells ∧ next = some view' := by
  unfold onStage at success
  split at success
  · next there => exact ⟨there, success⟩
  · cases success

theorem touchesEnded_effect {well : ℕ} {location : CGPoint} (centred : Centred view)
    (success : view.touchesEnded fuel well location = some view') : Effect view view' True := by
  unfold touchesEnded at success
  split at success
  · have released : Effect view
        (view.modifyWell well fun current => { current with heldDown := false }) True :=
      effect_modifyWell centred (centred well) rfl
    obtain ⟨removed, removal, rfl⟩ := Option.map_eq_some_iff.mp success
    split at removal
    · obtain ⟨centredNow, lines, kind⟩ :=
        effect_removeGravityWell released.centred released.lines removal
      exact ⟨centredNow, lines, kind⟩
    · cases removal
      exact ⟨released.centred, released.lines, released.kind⟩
  · cases success
    exact effect_unread centred rfl rfl rfl

theorem step_effect (gesture : Gesture) (centred : Centred view)
    (success : (gestures fuel).step view gesture = some view') :
    Effect view view' (KeepsSizes view gesture) := by
  cases gesture with
  | longPressBegan location =>
    obtain ⟨created, creation, rest⟩ := Option.bind_eq_some_iff.mp success
    cases rest
    obtain ⟨fresh, centredNow, lines, _⟩ := createGravityWell_effects creation
    exact ⟨centredNow centred, lines, .inl ⟨fresh, trivial⟩⟩
  | longPressChanged p =>
    obtain ⟨well, current, rfl⟩ := Option.map_eq_some_iff.mp success
    refine ⟨centred_modifyWell centred rfl, rfl, .inr ⟨rfl, ?_⟩⟩
    rw [predictionInput_modifyWell_iff, resize_unseen_iff (centred well)]
    constructor
    · intro unseen other currentOther there
      obtain rfl : well = other := Option.some.inj (current.symm.trans currentOther)
      exact unseen there
    · intro keeps there
      exact keeps well current there
  | longPressEnded =>
    obtain ⟨well, current, success⟩ := Option.bind_eq_some_iff.mp success
    dsimp only at success
    split at success
    · have centredStill : Centred { view with justCreatedWell := some true } := centred
      exact effect_removeGravityWell centredStill rfl success
    · cases success
      exact effect_unread centred rfl rfl rfl
  | longPressCancelled =>
    cases success
    exact effect_unread centred rfl rfl rfl
  | panBegan well =>
    obtain ⟨_, success⟩ := onStage_some success
    cases success
    exact effect_modifyWell centred (centred well) rfl
  | panChanged well translation =>
    obtain ⟨_, success⟩ := onStage_some success
    obtain ⟨fresh, wells, lines, _⟩ := updatePredictPath_effects success
    refine ⟨fun other => ?_, lines, .inl ⟨fresh, trivial⟩⟩
    rw [wells]
    exact centred_modifyWell centred rfl other
  | panEnded well =>
    obtain ⟨_, success⟩ := onStage_some success
    cases success
    exact effect_unread centred rfl rfl rfl
  | pinch well scale =>
    obtain ⟨there, success⟩ := onStage_some success
    cases success
    refine ⟨centred_modifyWell centred rfl, rfl, .inr ⟨rfl, ?_⟩⟩
    unfold handlePinch
    rw [predictionInput_modifyWell_iff, resize_unseen_iff (centred well)]
    exact ⟨fun unseen => unseen there, fun keeps _ => keeps⟩
  | touchesBegan well =>
    obtain ⟨_, success⟩ := onStage_some success
    cases success
    exact effect_modifyWell centred (centred well) rfl
  | touchesEnded well location =>
    obtain ⟨_, success⟩ := onStage_some success
    exact touchesEnded_effect centred success

/-- Over a run of gestures. -/
theorem run_lines {gestureList : List Gesture} (centred : Centred view)
    (success : (gestures fuel).run view gestureList = some view') :
    Centred view' ∧ SameLines view view' := by
  refine (gestures fuel).run_invariant (I := fun after => Centred after ∧ SameLines view after) ?_
    ⟨centred, rfl⟩ success
  intro before gesture after ⟨centredBefore, lines⟩ step
  have effect := step_effect gesture centredBefore step
  exact ⟨effect.centred, effect.lines.trans lines⟩

/-- A gesture on a fresh view leaves it fresh exactly when it meets the condition. -/
theorem step_fresh_iff {gesture : Gesture} (centred : Centred view) (fresh : Fresh view)
    (success : (gestures fuel).step view gesture = some view') :
    Fresh view' ↔ KeepsSizes view gesture := by
  obtain ⟨_, _, ⟨freshNow, keeps⟩ | ⟨read, same⟩⟩ := step_effect gesture centred success
  · exact iff_of_true freshNow keeps
  · rw [← same, Fresh, read, fresh, Option.some.injEq]
    exact eq_comm

end Gestures

section Init
variable {fuel : ℕ} {view view' : LevelView}

theorem createGravityWellsFromLevel_effects {wells : List GravityWellData}
    (success : createGravityWellsFromLevel fuel wells view = some view') (centred : Centred view)
    (noBoxes : view.scaledColorBoxes = []) :
    (wells = [] → view' = view) ∧ (wells ≠ [] → Fresh view') ∧ Centred view' ∧
      SameLines view view' ∧ view'.scaledColorBoxes = [] := by
  induction wells generalizing view with
  | nil =>
    cases success
    exact ⟨fun _ => rfl, fun some_ => absurd rfl some_, centred, rfl, noBoxes⟩
  | cons gWell rest ih =>
    obtain ⟨position, _, success⟩ := Option.bind_eq_some_iff.mp success
    obtain ⟨created, first, success⟩ := Option.bind_eq_some_iff.mp success
    obtain ⟨fresh, centredNow, lines, boxesNow⟩ := createGravityWell_effects first
    obtain ⟨same, freshRest, centredRest, linesRest, boxesRest⟩ :=
      ih success (centredNow centred) (boxesNow noBoxes)
    refine ⟨fun none_ => absurd none_ (List.cons_ne_nil _ _), fun _ => ?_, centredRest,
      linesRest.trans lines, boxesRest⟩
    by_cases last : rest = []
    · rw [same last]
      exact fresh
    · exact freshRest last

/-- Creating the boxes of a level adds one for each and moves nothing else. -/
theorem createColorBoxesFromLevel_frame {data : List ColorBoxData}
    (success : createColorBoxesFromLevel data view = some view') :
    ∃ boxes : List ColorBox, boxes.length = data.length ∧
      view' = { view with scaledColorBoxes := view.scaledColorBoxes ++ boxes } := by
  induction data generalizing view with
  | nil =>
    cases success
    exact ⟨[], rfl, by rw [List.append_nil]⟩
  | cons cBox rest ih =>
    obtain ⟨frame, _, success⟩ := Option.bind_eq_some_iff.mp success
    obtain ⟨leftColor, _, success⟩ := Option.bind_eq_some_iff.mp success
    obtain ⟨rightColor, _, success⟩ := Option.bind_eq_some_iff.mp success
    obtain ⟨backgroundColor, _, success⟩ := Option.bind_eq_some_iff.mp success
    obtain ⟨boxes, length, is⟩ := ih success
    simp only [createColorBox, List.append_assoc, List.singleton_append] at is
    exact ⟨_, congrArg (· + 1) length, is⟩

/-- A line as `setupLines` makes it of its data, with this UUID. -/
def SetUp (screen : Screen) (uuid : String) (data : LineData) (line : Line) : Prop :=
  ∃ startPosition startVelocity startColor, data.startPosition = some startPosition ∧
    data.startVelocity = some startVelocity ∧ data.startColor = some startColor ∧
    line = Line.new (screen.propToPoint startPosition.cgPoint)
      (screen.propToVector startVelocity.cgVector) startColor
      (screen.propToFloat data.startThickness true) uuid

theorem setupLines_cons {screen : Screen} {uuidString : ℕ → String} {i : ℕ} {data : LineData}
    {rest : List LineData} {lines : List Line}
    (success : setupLines screen uuidString i (data :: rest) = some lines) :
    ∃ line others, SetUp screen (uuidString i) data line ∧
      setupLines screen uuidString (i + 1) rest = some others ∧ lines = line :: others := by
  obtain ⟨startPosition, position, success⟩ := Option.bind_eq_some_iff.mp success
  obtain ⟨startVelocity, velocity, success⟩ := Option.bind_eq_some_iff.mp success
  obtain ⟨startColor, color, success⟩ := Option.bind_eq_some_iff.mp success
  obtain ⟨others, later, success⟩ := Option.bind_eq_some_iff.mp success
  cases success
  exact ⟨_, others, ⟨startPosition, startVelocity, startColor, position, velocity, color, rfl⟩, later, rfl⟩

theorem setupLines_uuid {screen : Screen} {uuidString : ℕ → String} {i : ℕ} {lineData : List LineData}
    {lines : List Line} (success : setupLines screen uuidString i lineData = some lines) :
    lines.map Line.uuid = (List.range' i lineData.length).map uuidString := by
  induction lineData generalizing i lines with
  | nil =>
    cases success
    rfl
  | cons line rest ih =>
    obtain ⟨_, others, ⟨_, _, _, _, _, _, rfl⟩, later, rfl⟩ := setupLines_cons success
    rw [List.map_cons, ih later]
    rfl

/-- What `LevelView.init` leaves behind. -/
theorem init_effects {screen : Screen} {uuidString : ℕ → String} {level : LevelData}
    (success : init fuel screen uuidString level = some view) :
    (Fresh view ↔ level.gravityWells ≠ [] ∧ level.colorBoxData = []) ∧ Centred view ∧
      ∃ lines, setupLines screen uuidString 0 level.lineData = some lines ∧
        view.lines.map Line.restart = lines.map Line.restart := by
  obtain ⟨_, lines, zones, withWells, _, setup, _, wells, boxes⟩ := init_some success
  obtain ⟨same, fresh, centred, sameLines, noBoxes⟩ :=
    createGravityWellsFromLevel_effects wells (fun _ => rfl) rfl
  obtain ⟨added, count, rfl⟩ := createColorBoxesFromLevel_frame boxes
  refine ⟨⟨fun freshNow => ?_, fun ⟨someWells, noBoxData⟩ => ?_⟩, centred, lines, setup, sameLines⟩
  · have someWells : level.gravityWells ≠ [] := by
      intro noWells
      rw [Fresh, same noWells] at freshNow
      cases freshNow
    refine ⟨someWells, ?_⟩
    have wellsFresh := fresh someWells
    rw [Fresh] at freshNow wellsFresh
    rw [wellsFresh, Option.some.injEq] at freshNow
    have sameBoxes := congrArg (fun input => input.colorBoxes.length) freshNow
    simp only [predictionInput, List.length_map, List.length_append, count, noBoxes,
      List.length_nil] at sameBoxes
    exact List.length_eq_zero_iff.mp (by omega)
  · rw [noBoxData, List.length_nil, List.length_eq_zero_iff] at count
    rw [count, List.append_nil]
    exact fresh someWells

/-- UUIDs are never drawn twice, so the lines of a view have different ones. -/
theorem uuids_distinct {screen : Screen} {uuidString : ℕ → String} {level : LevelData}
    (distinct : Function.Injective uuidString) (success : init fuel screen uuidString level = some view)
    (same : SameLines view view') : (view'.lines.map Line.uuid).Nodup := by
  obtain ⟨_, _, lines, setup, restart⟩ := init_effects success
  rw [map_of_restart (fun _ => rfl) (same.trans restart), setupLines_uuid setup]
  exact (List.nodup_range').map distinct

end Init

/-- After `LevelView.init`, what the last prediction read is what is there
exactly for a level with wells and without colour boxes. In every run from there
whose gestures meet the condition it is so in every state reached; and wherever
it is so, the next gesture keeps it so exactly when it meets the condition. -/
theorem prediction_fresh (fuel : ℕ) (screen : Screen) (uuidString : ℕ → String) (level : LevelData)
    (view : LevelView) (success : init fuel screen uuidString level = some view) :
    (Fresh view ↔ level.gravityWells ≠ [] ∧ level.colorBoxData = []) ∧
    (level.gravityWells ≠ [] → level.colorBoxData = [] → ∀ gestureList reached,
      (gestures fuel).Meets KeepsSizes view gestureList →
      (gestures fuel).run view gestureList = some reached → Fresh reached) ∧
    ∀ gestureList before gesture after, (gestures fuel).run view gestureList = some before →
      Fresh before → (gestures fuel).step before gesture = some after →
      (Fresh after ↔ KeepsSizes before gesture) := by
  obtain ⟨freshIff, centred, _⟩ := init_effects success
  refine ⟨freshIff, fun someWells noBoxes gestureList reached keeps run => ?_,
    fun gestureList before gesture after run fresh step => ?_⟩
  · have kept : Centred reached ∧ Fresh reached := by
      refine (gestures fuel).run_invariant_of_meets (C := KeepsSizes)
        (I := fun view => Centred view ∧ Fresh view) ?_ ⟨centred, freshIff.mpr ⟨someWells, noBoxes⟩⟩
        keeps run
      intro view gesture after ⟨centred, fresh⟩ keeps step
      exact ⟨(step_effect gesture centred step).centred, (step_fresh_iff centred fresh step).mpr keeps⟩
    exact kept.2
  · exact step_fresh_iff (run_lines centred run).1 fresh step

/-- A level of one well. -/
noncomputable def oneWell : LevelData where
  propFrame := some ⟨0, 0, 1, 1⟩
  gravityWells := [{ position := some ⟨1 / 2, 1 / 2⟩, mass := 100, coreDiameter := 1 / 20
                     areaOfEffectDiameter := 1 / 5 }]

/-- The well is panned. -/
noncomputable def panOnly : List Gesture := [.panBegan 0, .panChanged 0 ⟨10, 20⟩, .panEnded 0]

theorem panOnly_fresh : ∃ view reached, init 1 phone toString oneWell = some view ∧
    (gestures 1).run view panOnly = some reached ∧ Fresh reached := by
  refine ⟨_, _, rfl, rfl, (prediction_fresh 1 phone toString oneWell _ rfl).2.1 ?_ rfl panOnly _ ?_ rfl⟩
  · exact List.cons_ne_nil _ _
  · simp [panOnly, Machine.Meets, KeepsSizes]

/-- The well is pinched to twice its size, and the prediction is still that of
the smaller well. -/
theorem pinch_stale : ∃ view reached, init 1 phone toString oneWell = some view ∧ Fresh view ∧
    (gestures 1).run view [.pinch 0 2] = some reached ∧ ¬ Fresh reached := by
  obtain ⟨view, success⟩ : ∃ view, init 1 phone toString oneWell = some view := ⟨_, rfl⟩
  obtain ⟨fresh, centred, _⟩ := init_effects success
  have freshNow : Fresh view := fresh.mpr ⟨List.cons_ne_nil _ _, rfl⟩
  have there : 0 ∈ view.scaledGravityWells := by
    cases success
    exact List.mem_singleton.mpr rfl
  have pinched : (gestures 1).step view (.pinch 0 2) = some (view.handlePinch 0 2) := if_pos there
  refine ⟨view, _, success, freshNow, (gestures 1).run_cons_some.mpr ⟨_, pinched, rfl⟩, ?_⟩
  rw [step_fresh_iff centred freshNow pinched]
  intro ⟨sameSize, _⟩
  have size : (view.wellViews 0).areaOfEffectDiameter = 80 := by
    have built : (view.wellViews 0).areaOfEffectDiameter = phone.propToFloat (1 / 5) true := by
      cases success
      rfl
    rw [built]
    norm_num [Screen.propToFloat, phone]
  rw [size] at sameSize
  norm_num at sameSize

end Arthius.Guarantees.PredictionFreshness
