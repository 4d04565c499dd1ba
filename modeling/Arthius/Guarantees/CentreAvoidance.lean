import Arthius.Guarantees.PlayerWells

/-!
# Division by zero

`calculateGravityForcesForLine` bounds the distance from a well only from above. A
turn of a prediction divides by zero exactly when its line is at the centre of a
well with an area of effect. The player can press where a line starts, so a level
is safe exactly when no line of it is thick enough to be predicted.
-/
namespace Arthius.Guarantees.CentreAvoidance
open Arthius.Lib Arthius.Source PredictionFrame PredictionTermination PredictionFreshness ForceLaw
open PlayerWells

noncomputable section

section Turns
variable (view : LevelView)

/-- A turn that a prediction makes: the loops for the lines before have
returned, and the loop for this line enters turn `n`. -/
def Turn (line : Line) (n : ℕ) (w : Walk) : Prop :=
  ∃ earlier later fuel before, view.lines = earlier ++ line :: later ∧
    Source.getPredictedPaths fuel view.gravityWells view.antiGravityZones view.scaledColorBoxes earlier =
      some before ∧
    (∀ i ≤ n, (Walk.loop view.gravityWells view.antiGravityZones).guard
      ((Walk.loop view.gravityWells view.antiGravityZones).after i
        (Walk.start line before.scaledColorBoxes))) ∧
    w = (Walk.loop view.gravityWells view.antiGravityZones).after n
      (Walk.start line before.scaledColorBoxes)

/-- No turn of a prediction divides by zero, and none leaves the line at a point
that is no number. -/
def Defined : Prop := ∀ line n w, Turn view line n w →
  (∀ tempLineForces, calculateGravityForcesForLine view.gravityWells
    ⟨w.line.currentPoint, tempLineForces⟩ ≠ none) ∧
  (w.body view.gravityWells view.antiGravityZones).line.levelCountDistance ≠ none

/-- No line that gets its turn starts at the centre of a well with an area of
effect, nor does its motion bring it to one while its loop goes on. -/
def MissesCentres : Prop := ∀ earlier line later, view.lines = earlier ++ line :: later →
  (∀ before ∈ earlier, ¬ Held view.gravityWells view.antiGravityZones before) →
  ∀ n, Reaches view.gravityWells view.antiGravityZones line n →
    ∀ gravWell ∈ view.gravityWells, 0 < gravWell.areaOfEffectDiameter →
      gravWell.center ≠ pointAt view.gravityWells view.antiGravityZones line n

end Turns

section Step
variable {gravityWells : List GravityWell} {antiGravityZones : List AntiGravityZone}

theorem calculateGravityForcesForLine_eq_none_iff {line : PulledLine} :
    calculateGravityForcesForLine gravityWells line = none ↔ AtCentre line.currentPoint gravityWells :=
  sumGravityForces_eq_none_iff _

/-- Zones only take forces away. -/
theorem forcesAt_ne_none {p : CGPoint} (pulled : calculateGravityForces gravityWells p ≠ none) :
    forcesAt gravityWells antiGravityZones p ≠ none := by
  unfold forcesAt
  generalize calculateGravityForces gravityWells p = forces at pulled
  induction antiGravityZones generalizing forces with
  | nil => exact pulled
  | cons zone rest ih =>
    rw [List.foldl_cons]
    split_ifs
    · exact ih _ (Option.some_ne_none _)
    · exact ih _ pulled

theorem body_counts {w : Walk} (enters : w.guard)
    (pulled : forcesAt gravityWells antiGravityZones w.line.currentPoint ≠ none) :
    (w.body gravityWells antiGravityZones).line.levelCountDistance ≠ none := by
  rcases body_cases gravityWells antiGravityZones enters with ⟨forces, _, is⟩ | ⟨lost, _⟩
  · obtain ⟨distance, counted, _⟩ := enters.1
    rw [is]
    simp [Option.mem_def.mp counted]
  · exact absurd lost pulled

end Step

/-- A prediction is free of divisions by zero exactly when its lines miss the
centres. -/
theorem defined_iff_misses (view : LevelView) : Defined view ↔ MissesCentres view := by
  constructor
  · intro defined earlier line later split free n reaches gravWell member wide hit
    obtain ⟨fuel, returns⟩ := (getPredictedPaths_returns_iff view.scaledColorBoxes earlier).mpr free
    obtain ⟨before, success⟩ := Option.isSome_iff_exists.mp returns
    have enters := (reaches_iff before.scaledColorBoxes n).mp reaches
    obtain ⟨divides, _⟩ := defined line n _ ⟨earlier, later, fuel, before, split, success, enters, rfl⟩
    apply divides CGVector.zero
    refine calculateGravityForcesForLine_eq_none_iff.mpr ⟨gravWell, member, ?_, wide⟩
    rw [hit]
    exact (reaches.follows before.scaledColorBoxes).point.symm
  · rintro misses line n w ⟨earlier, later, fuel, before, split, success, enters, rfl⟩
    have free := (getPredictedPaths_returns_iff view.scaledColorBoxes earlier).mp
      ⟨fuel, Option.isSome_iff_exists.mpr ⟨before, success⟩⟩
    have reaches := (reaches_iff before.scaledColorBoxes n).mpr enters
    have point := (reaches.follows before.scaledColorBoxes).point
    have away : ¬ AtCentre ((Walk.loop view.gravityWells view.antiGravityZones).after n
        (Walk.start line before.scaledColorBoxes)).line.currentPoint view.gravityWells := by
      intro ⟨gravWell, member, hit, wide⟩
      rw [point] at hit
      exact misses earlier line later split free n reaches gravWell member wide hit
    refine ⟨fun tempLineForces undefined =>
      away (calculateGravityForcesForLine_eq_none_iff.mp undefined), ?_⟩
    exact body_counts (enters n (le_refl n))
      (forcesAt_ne_none fun undefined => away ((sumGravityForces_eq_none_iff _).mp undefined))

section Level
variable (screen : Screen) (level : LevelData)

/-- A view with some of the level's wells, while the level is being opened. -/
def Opening (view : LevelView) : Prop := ∃ fuel uuidString lines zones earlier later,
  setupLines screen uuidString 0 level.lineData = some lines ∧ level.gravityWells = earlier ++ later ∧
    LevelView.createGravityWellsFromLevel fuel earlier (.empty screen lines zones) = some view

/-- No prediction divides by zero, with the wells of the level and with those that
any gestures of the player make of them. -/
def NeverDivides : Prop := ∀ view, Opening screen level view ∨ Played screen level view → Defined view

variable {screen level}

theorem Opening.thinner {view : LevelView} (opening : Opening screen level view) {thickness : CGFloat}
    (thin : ThinnerThan screen level thickness) {line : Line} (member : line ∈ view.lines) :
    line.startThickness < thickness := by
  obtain ⟨_, _, lines, zones, _, _, setup, _, wells⟩ := opening
  obtain ⟨_, _, _, same, _⟩ := createGravityWellsFromLevel_effects wells (fun _ => rfl) rfl
  have starts : view.lines.map startOf = level.lineData.map (startOfData screen) := by
    rw [map_of_restart (f := startOf) (fun _ => rfl) same, ← setupLines_starts setup]
    rfl
  have there := List.mem_map_of_mem (f := startOf) member
  rw [starts] at there
  obtain ⟨data, isData, is⟩ := List.mem_map.mp there
  have start : screen.propToFloat data.startThickness true = line.startThickness := congrArg Prod.fst is
  exact start ▸ thin data isData

/-- The loop for a line that is thinner than one is not entered. -/
theorem not_reaches_of_thin {gravityWells : List GravityWell} {antiGravityZones : List AntiGravityZone}
    {line : Line} (thin : line.startThickness < 1) (n : ℕ) :
    ¬ Reaches gravityWells antiGravityZones line n := by
  intro reaches
  exact absurd (reaches 0 (Nat.zero_le n)).2.1 (not_le.mpr thin)

theorem not_held_of_thin {gravityWells : List GravityWell} {antiGravityZones : List AntiGravityZone}
    {line : Line} (thin : line.startThickness < 1) : ¬ Held gravityWells antiGravityZones line := by
  intro ⟨endures, _⟩
  exact absurd (endures 0).1 (not_le.mpr thin)

theorem defined_of_thin {view : LevelView} (thin : ∀ line ∈ view.lines, line.startThickness < 1) :
    Defined view := by
  apply (defined_iff_misses view).mpr
  intro earlier line later split _ n reaches
  have member : line ∈ view.lines := by
    rw [split]
    exact List.mem_append_right _ List.mem_cons_self
  exact absurd reaches (not_reaches_of_thin (thin line member) n)

/-- A line that is thick enough, the first of them, and a well where it starts. -/
theorem divides_at_start {view : LevelView} {earlier later : List Line} {line : Line}
    (split : view.lines = earlier ++ line :: later) (thin : ∀ before ∈ earlier, before.startThickness < 1)
    (thick : 1 ≤ line.startThickness) (hit : AtCentre line.startPosition view.gravityWells) :
    ¬ Defined view := by
  intro defined
  obtain ⟨gravWell, member, here, wide⟩ := hit
  have first : Reaches view.gravityWells view.antiGravityZones line 0 := by
    intro i most
    obtain rfl := Nat.le_zero.mp most
    exact ⟨by norm_num [wayLength, Motion.length], thick, fun below => absurd below (Nat.lt_irrefl 0)⟩
  have free : ∀ before ∈ earlier, ¬ Held view.gravityWells view.antiGravityZones before :=
    fun before isBefore => not_held_of_thin (thin before isBefore)
  exact (defined_iff_misses view).mp defined earlier line later split free 0 first gravWell member wide here

/-- A line of some thickness has a first one before it or is it. -/
theorem exists_first_thick {lines : List Line} (thick : ∃ line ∈ lines, 1 ≤ line.startThickness) :
    ∃ earlier line later, lines = earlier ++ line :: later ∧ 1 ≤ line.startThickness ∧
      ∀ before ∈ earlier, before.startThickness < 1 := by
  induction lines with
  | nil =>
    obtain ⟨_, member, _⟩ := thick
    cases member
  | cons first rest ih =>
    rcases le_or_gt 1 first.startThickness with here | thin
    · exact ⟨[], first, rest, rfl, here, fun before member => absurd member List.not_mem_nil⟩
    · obtain ⟨line, member, is⟩ := thick
      rcases List.mem_cons.mp member with rfl | among
      · exact absurd is (not_le.mpr thin)
      · obtain ⟨earlier, found, later, rfl, thickFound, thinBefore⟩ := ih ⟨line, among, is⟩
        exact ⟨first :: earlier, found, later, rfl, thickFound, List.forall_mem_cons.mpr ⟨thin, thinBefore⟩⟩

/-- A press where the line starts, drawn out, divides by zero. -/
theorem press_divides {view : LevelView} (opened : OpensAs screen level view) {fuel : ℕ}
    (returns : (view.updatePredictPath fuel).isSome) (thick : ∃ line ∈ view.lines, 1 ≤ line.startThickness) :
    ∃ reached, Played screen level reached ∧ ¬ Defined reached := by
  obtain ⟨earlier, line, later, split, thickLine, thin⟩ := exists_first_thick thick
  have free := (returns_iff_not_held view).mp ⟨fuel, returns⟩
  obtain ⟨fuel', reached, run, lines, hit⟩ := press_drawn_out opened.listed free line.startPosition
  rw [split, List.map_append, List.map_cons] at lines
  obtain ⟨earlier', rest, split', before, after⟩ := List.map_eq_append_iff.mp lines
  obtain ⟨line', later', rfl, same, _⟩ := List.map_eq_cons_iff.mp after
  have start : line'.startPosition = line.startPosition := by
    have restart : line'.restart.startPosition = line.restart.startPosition := by rw [same]
    exact restart
  have thickness : line'.startThickness = line.startThickness := by
    have restart : line'.restart.startThickness = line.restart.startThickness := by rw [same]
    exact restart
  refine ⟨reached, Played.run opened run, divides_at_start split' ?_ (thickness ▸ thickLine) (start ▸ hit)⟩
  have starts : earlier'.map Line.startThickness = earlier.map Line.startThickness :=
    map_of_restart (fun _ => rfl) before
  intro other member
  have there := List.mem_map_of_mem (f := Line.startThickness) member
  rw [starts] at there
  obtain ⟨original, isEarlier, is⟩ := List.mem_map.mp there
  exact is ▸ thin original isEarlier

end Level

/-- A level whose line starts at the centre of a well. -/
def startsAtCentre : LevelData where
  propFrame := some ⟨0, 0, 1, 1⟩
  lineData := [{ startPosition := some ⟨1 / 2, 1 / 2⟩, startVelocity := some ⟨1 / 100, 0⟩
                 startColor := some ⟨1, 0, 0, 1⟩, startThickness := 1 / 40 }]
  gravityWells := [{ position := some ⟨1 / 2, 1 / 2⟩, mass := 100, coreDiameter := 1 / 40
                     areaOfEffectDiameter := 1 / 10 }]

def centredLine : Line :=
  .new (phone.propToPoint ⟨1 / 2, 1 / 2⟩) (phone.propToVector ⟨1 / 100, 0⟩) ⟨1, 0, 0, 1⟩
    (phone.propToFloat (1 / 40) true) "0"

/-- The stage of that level before its first prediction. -/
def centredStage : LevelView :=
  { LevelView.empty phone [centredLine] [] with
    wellViews := Function.update (LevelView.empty phone [centredLine] []).wellViews 0
      (.new (phone.propToPoint ⟨1 / 2, 1 / 2⟩) (phone.propToFloat (1 / 40) true)
        (phone.propToFloat (1 / 10) true) 100)
    created := 1
    scaledGravityWells := [0] }

theorem centredStage_atCentre : AtCentre centredLine.startPosition centredStage.gravityWells := by
  refine ⟨_, List.mem_singleton.mpr rfl, rfl, ?_⟩
  change 0 < phone.propToFloat (1 / 10) true
  norm_num [Screen.propToFloat, phone]

end
end Arthius.Guarantees.CentreAvoidance
