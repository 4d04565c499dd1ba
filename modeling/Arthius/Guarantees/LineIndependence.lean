import Arthius.Guarantees.PredictionTermination

/-!
# Lines are simulated independently

All lines share the colour boxes, but the loop for a line reads and writes only
what a box keeps under the line's UUID. With distinct UUIDs each block of
segments, and what it leaves in the boxes, is that of the line alone.
-/
namespace Arthius.Guarantees.LineIndependence
open Arthius.Lib Arthius.Source PredictionFrame PredictionTermination

noncomputable section

section Only
variable (uuid : String)

/-- A box with nothing but what it keeps for one line. -/
def only (box : ColorBox) : ColorBox :=
  { box with lineStates := fun other => if other = uuid then box.lineStates other else none }

@[simp] theorem only_lineStates (box : ColorBox) : (only uuid box).lineStates uuid = box.lineStates uuid :=
  if_pos rfl

@[simp] theorem only_getStep1 (box : ColorBox) : (only uuid box).getStep1 uuid = box.getStep1 uuid := by
  simp only [ColorBox.getStep1, only_lineStates]

@[simp] theorem only_getStep2 (box : ColorBox) : (only uuid box).getStep2 uuid = box.getStep2 uuid := by
  simp only [ColorBox.getStep2, only_lineStates]

theorem only_update (box : ColorBox) (states : Option LineState) :
    Function.update (only uuid box).lineStates uuid states =
      fun other => if other = uuid then Function.update box.lineStates uuid states other else none := by
  funext other
  by_cases same : other = uuid
  · rw [same]
    simp
  · simp [only, same]

@[simp] theorem only_setStep1 (box : ColorBox) (value : Bool) :
    (only uuid box).setStep1 uuid value = only uuid (box.setStep1 uuid value) := by
  unfold ColorBox.setStep1
  rw [only_lineStates, only_update]
  rfl

@[simp] theorem only_setStep2 (box : ColorBox) (value : Bool) :
    (only uuid box).setStep2 uuid value = only uuid (box.setStep2 uuid value) := by
  unfold ColorBox.setStep2
  rw [only_lineStates, only_update]
  rfl

variable (own other color : Color) (p : CGPoint)

theorem handleSide_only (box : ColorBox) : handleSide uuid own other color (only uuid box) =
    ((handleSide uuid own other color box).1, only uuid (handleSide uuid own other color box).2) := by
  unfold handleSide
  dsimp only
  rw [only_getStep1]
  split_ifs <;> simp_all

theorem handleColorBox_only (box : ColorBox) : handleColorBox uuid p color (only uuid box) =
    ((handleColorBox uuid p color box).1, only uuid (handleColorBox uuid p color box).2) := by
  have left : (if (only uuid box).pointInLeftRect p then
        handleSide uuid (only uuid box).leftColor (only uuid box).rightColor color (only uuid box)
      else (color, only uuid box)) =
      ((if box.pointInLeftRect p then handleSide uuid box.leftColor box.rightColor color box
        else (color, box)).1,
        only uuid (if box.pointInLeftRect p then handleSide uuid box.leftColor box.rightColor color box
        else (color, box)).2) := by
    by_cases onLeft : box.pointInLeftRect p
    · rw [if_pos onLeft, if_pos (show (only uuid box).pointInLeftRect p from onLeft)]
      exact handleSide_only uuid _ _ _ box
    · rw [if_neg onLeft, if_neg (show ¬ (only uuid box).pointInLeftRect p from onLeft)]
  unfold handleColorBox
  by_cases inBody : box.pointInBody p
  · rw [if_pos inBody, if_pos (show (only uuid box).pointInBody p from inBody), left]
    generalize (if box.pointInLeftRect p then _ else _ : Color × ColorBox) = handled
    dsimp only
    by_cases onRight : handled.2.pointInRightRect p
    · rw [if_pos onRight, if_pos (show (only uuid handled.2).pointInRightRect p from onRight)]
      exact handleSide_only uuid _ _ _ handled.2
    · rw [if_neg onRight, if_neg (show ¬ (only uuid handled.2).pointInRightRect p from onRight)]
  · rw [if_neg inBody, if_neg (show ¬ (only uuid box).pointInBody p from inBody)]
    simp only [only_setStep1, only_setStep2]

theorem handleColorBoxes_only (boxes : List ColorBox) :
    handleColorBoxes uuid p color (boxes.map (only uuid)) =
      ((handleColorBoxes uuid p color boxes).1, (handleColorBoxes uuid p color boxes).2.map (only uuid)) := by
  induction boxes generalizing color with
  | nil => rfl
  | cons box rest ih =>
    simp only [List.map_cons, handleColorBoxes]
    rw [handleColorBox_only, ih]

theorem only_eq (box : ColorBox) : only uuid box = { box.shape with
    lineStates := fun other => if other = uuid then box.lineStates uuid else none } := by
  have states : (fun other => if other = uuid then box.lineStates other else none) =
      fun other => if other = uuid then box.lineStates uuid else none := by
    funext other
    split_ifs with same
    · rw [same]
    · rfl
  rw [only, states]
  rfl

/-- What one line does to the boxes leaves alone what they keep for another. -/
theorem only_of_frame {boxes boxes' : List ColorBox} {other : String}
    (same : BoxesSameFor other boxes boxes') (different : uuid ≠ other) :
    boxes'.map (only uuid) = boxes.map (only uuid) := by
  induction same with
  | nil => rfl
  | @cons box box' _ _ head _ ih =>
    have kept : only uuid box' = only uuid box := by
      rw [only_eq, only_eq, head.1, head.2 uuid different]
    rw [List.map_cons, List.map_cons, kept, ih]

end Only

section Walk
variable {gravityWells : List GravityWell} {antiGravityZones : List AntiGravityZone}

/-- A walk whose boxes keep nothing for other lines. -/
def onlyWalk (uuid : String) (w : Walk) : Walk :=
  { w with scaledColorBoxes := w.scaledColorBoxes.map (only uuid) }

theorem split_only (uuid : String) (w : Walk) : (onlyWalk uuid w).split = onlyWalk uuid w.split := by
  unfold Walk.split onlyWalk
  dsimp only
  split_ifs <;> rfl

theorem move_only (forces : CGVector) (w : Walk) :
    (onlyWalk w.line.uuid w).move gravityWells forces = onlyWalk w.line.uuid (w.move gravityWells forces) := by
  simp only [Walk.move, handleColorBoxesForLine, onlyWalk, Line.newLocation, handleColorBoxes_only]

theorem lose_only (w : Walk) : (onlyWalk w.line.uuid w).lose = onlyWalk w.line.uuid w.lose := by
  simp only [Walk.lose, onlyWalk, List.map_map, Function.comp_def, only_setStep1, only_setStep2]

variable (gravityWells antiGravityZones) in
theorem body_only (w : Walk) : (onlyWalk w.line.uuid w).body gravityWells antiGravityZones =
    onlyWalk w.line.uuid (w.body gravityWells antiGravityZones) := by
  unfold Walk.body
  dsimp only
  rw [split_only]
  rw [← split_line w]
  generalize w.split = w
  have same : (onlyWalk w.line.uuid w).line = w.line := rfl
  rw [same]
  by_cases enters : w.line.madeItToEnd = false ∧ w.line.lineThickness ≥ 1
  · rw [if_pos enters, if_pos enters]
    cases forcesAt gravityWells antiGravityZones w.line.currentPoint with
    | some forces => exact move_only forces w
    | none => exact lose_only w
  · rw [if_neg enters, if_neg enters]

theorem body_uuid (w : Walk) : (w.body gravityWells antiGravityZones).line.uuid = w.line.uuid := by
  unfold Walk.body
  dsimp only
  rw [← split_line w]
  generalize w.split = w
  split_ifs
  · cases forcesAt gravityWells antiGravityZones w.line.currentPoint <;> rfl
  · rfl

/-- The loop for a line reads nothing the boxes keep for other lines. -/
theorem predictLine_only (fuel : ℕ) (boxes : List ColorBox) (line : Line) :
    predictLine fuel gravityWells antiGravityZones (boxes.map (only line.uuid)) line =
      (predictLine fuel gravityWells antiGravityZones boxes line).map (onlyWalk line.uuid) := by
  have inStep : Option.Rel (fun w w' => w' = onlyWalk line.uuid w ∧ w.line.uuid = line.uuid)
      (predictLine fuel gravityWells antiGravityZones boxes line)
      (predictLine fuel gravityWells antiGravityZones (boxes.map (only line.uuid)) line) := by
    refine Loop.run_related _ _ ?_ ?_ ⟨rfl, rfl⟩ fuel
    · intro w w' ⟨is, _⟩
      rw [is]
      rfl
    · intro w w' ⟨is, uuid⟩ _
      refine ⟨?_, (body_uuid w).trans uuid⟩
      rw [is, ← uuid]
      exact body_only gravityWells antiGravityZones w
  generalize predictLine fuel gravityWells antiGravityZones boxes line = result at inStep ⊢
  generalize predictLine fuel gravityWells antiGravityZones (boxes.map (only line.uuid)) line = result' at inStep ⊢
  cases inStep with
  | none => rfl
  | some related => exact congrArg some related.1

end Walk

section Lines
variable (gravityWells : List GravityWell) (antiGravityZones : List AntiGravityZone) (fuel : ℕ)

/-- The block of segments of a line that is alone. -/
def blockOf (boxes : List ColorBox) (line : Line) : List DummyLine :=
  ((predictLine fuel gravityWells antiGravityZones boxes line).map Walk.pieces).getD []

/-- What a line that is alone leaves in the boxes under its UUID. -/
def leftOf (boxes : List ColorBox) (line : Line) : Option (List ColorBox) :=
  (predictLine fuel gravityWells antiGravityZones boxes line).map fun w =>
    w.scaledColorBoxes.map (only line.uuid)

theorem alone_of_onlyWalk {boxes boxes' : List ColorBox} {line : Line}
    (same : boxes'.map (only line.uuid) = boxes.map (only line.uuid)) :
    blockOf gravityWells antiGravityZones fuel boxes' line =
        blockOf gravityWells antiGravityZones fuel boxes line ∧
      leftOf gravityWells antiGravityZones fuel boxes' line =
        leftOf gravityWells antiGravityZones fuel boxes line := by
  have walks : (predictLine fuel gravityWells antiGravityZones boxes' line).map (onlyWalk line.uuid) =
      (predictLine fuel gravityWells antiGravityZones boxes line).map (onlyWalk line.uuid) := by
    rw [← predictLine_only, same, predictLine_only]
  have pieces := congrArg (Option.map Walk.pieces) walks
  have boxesLeft := congrArg (Option.map Walk.scaledColorBoxes) walks
  rw [Option.map_map, Option.map_map] at pieces boxesLeft
  exact ⟨congrArg (Option.getD · []) pieces, boxesLeft⟩

variable {gravityWells antiGravityZones fuel}

/-- A prediction keeps what the boxes keep for a line that is not in it. -/
theorem getPredictedPaths_only {boxes : List ColorBox} {lines : List Line} {prediction : Prediction}
    (success : getPredictedPaths fuel gravityWells antiGravityZones boxes lines = some prediction)
    {uuid : String} (absent : uuid ∉ lines.map Line.uuid) :
    prediction.scaledColorBoxes.map (only uuid) = boxes.map (only uuid) := by
  induction lines generalizing boxes prediction with
  | nil =>
    cases success
    rfl
  | cons line rest ih =>
    obtain ⟨walk, others, first, later, rfl⟩ := getPredictedPaths_cons.mp success
    rw [List.map_cons, List.mem_cons, not_or] at absent
    exact (ih later absent.2).trans (only_of_frame uuid (predictLine_frame first).2 absent.1)

/-- Each line fares as if it were alone. -/
theorem getPredictedPaths_alone {boxes : List ColorBox} {lines : List Line} {prediction : Prediction}
    (distinct : (lines.map Line.uuid).Nodup)
    (success : getPredictedPaths fuel gravityWells antiGravityZones boxes lines = some prediction) :
    prediction.paths = lines.map (blockOf gravityWells antiGravityZones fuel boxes) ∧
      ∀ line ∈ lines, leftOf gravityWells antiGravityZones fuel boxes line =
        some (prediction.scaledColorBoxes.map (only line.uuid)) := by
  induction lines generalizing boxes prediction with
  | nil =>
    cases success
    exact ⟨rfl, by simp⟩
  | cons line rest ih =>
    obtain ⟨walk, others, first, later, rfl⟩ := getPredictedPaths_cons.mp success
    obtain ⟨fresh, distinctRest⟩ := List.nodup_cons.mp distinct
    obtain ⟨blocks, left⟩ := ih distinctRest later
    have unseen : ∀ other ∈ rest, walk.scaledColorBoxes.map (only other.uuid) =
        boxes.map (only other.uuid) := by
      intro other member
      refine only_of_frame other.uuid (predictLine_frame first).2 fun same => fresh ?_
      rw [← same]
      exact List.mem_map_of_mem member
    constructor
    · have own : blockOf gravityWells antiGravityZones fuel boxes line = walk.pieces := by
        rw [blockOf, first]
        rfl
      rw [List.map_cons, own, blocks]
      exact congrArg (walk.pieces :: ·) (List.map_congr_left fun other member =>
        (alone_of_onlyWalk gravityWells antiGravityZones fuel (unseen other member)).1)
    · intro other member
      rcases List.mem_cons.mp member with rfl | member
      · rw [leftOf, first, getPredictedPaths_only later fresh]
        rfl
      · rw [← (alone_of_onlyWalk gravityWells antiGravityZones fuel (unseen other member)).2]
        exact left other member

end Lines

/-- What the boxes keep for each line, and its block of segments, do not depend
on the other lines nor on the order; with the lines the blocks are permuted. -/
theorem lines_independent (gravityWells : List GravityWell) (antiGravityZones : List AntiGravityZone)
    (boxes : List ColorBox) (lines lines' : List Line)
    (distinct : (lines.map Line.uuid).Nodup) (distinct' : (lines'.map Line.uuid).Nodup)
    (terminate : ∀ line ∈ lines ++ lines', ∃ fuel,
      (predictLine fuel gravityWells antiGravityZones boxes line).isSome) :
    (∃ fuel, (getPredictedPaths fuel gravityWells antiGravityZones boxes lines).isSome) ∧
    (∃ fuel, (getPredictedPaths fuel gravityWells antiGravityZones boxes lines').isSome) ∧
    ∀ fuel fuel' prediction prediction',
      getPredictedPaths fuel gravityWells antiGravityZones boxes lines = some prediction →
      getPredictedPaths fuel' gravityWells antiGravityZones boxes lines' = some prediction' →
      (∀ line block block', (line, block) ∈ lines.zip prediction.paths →
        (line, block') ∈ lines'.zip prediction'.paths →
        block' = block ∧
        prediction'.scaledColorBoxes.map (fun box => box.lineStates line.uuid) =
          prediction.scaledColorBoxes.map (fun box => box.lineStates line.uuid)) ∧
      (lines'.Perm lines → (lines'.zip prediction'.paths).Perm (lines.zip prediction.paths)) := by
  have free : ∀ line ∈ lines ++ lines', ¬ Held gravityWells antiGravityZones line :=
    fun line member => (predictLine_returns_iff boxes).mp (terminate line member)
  refine ⟨(getPredictedPaths_returns_iff boxes lines).mpr fun line member =>
      free line (List.mem_append_left _ member),
    (getPredictedPaths_returns_iff boxes lines').mpr fun line member =>
      free line (List.mem_append_right _ member), ?_⟩
  intro fuel fuel' prediction prediction' success success'
  obtain ⟨blocks, left⟩ := getPredictedPaths_alone distinct
    (getPredictedPaths_mono (le_max_left fuel fuel') success)
  obtain ⟨blocks', left'⟩ := getPredictedPaths_alone distinct'
    (getPredictedPaths_mono (le_max_right fuel fuel') success')
  have zipped : ∀ (xs : List Line) (f : Line → List DummyLine),
      xs.zip (xs.map f) = xs.map fun line => (line, f line) := by
    intro xs f
    simpa using List.zip_map' (f := id) (g := f) (l := xs)
  rw [blocks, blocks', zipped, zipped]
  constructor
  · intro line block block' member member'
    obtain ⟨_, inLines, is⟩ := List.mem_map.mp member
    obtain ⟨_, inLines', is'⟩ := List.mem_map.mp member'
    cases is
    cases is'
    refine ⟨rfl, ?_⟩
    have same := Option.some.inj ((left' line inLines').symm.trans (left line inLines))
    have states := congrArg (List.map fun box : ColorBox => box.lineStates line.uuid) same
    rw [List.map_map, List.map_map] at states
    simpa only [Function.comp_def, only_lineStates] using states
  · exact fun perm => perm.map _

/-- A box that two lines start into: a red one to the right, a green one up. -/
def sharedBox : ColorBox where
  frame := .mk4 (-50) (-50) 100 100
  rotation := 0
  leftColor := ⟨1, 0, 0, 1⟩
  rightColor := ⟨0, 1, 0, 1⟩
  backgroundColor := ⟨0, 0, 0, 1⟩
  middlePropWidth := 1 / 2

def rightLine : Line := .new ⟨0, 0⟩ ⟨1, 0⟩ ⟨1, 0, 0, 1⟩ 10 "right"
def upLine : Line := .new ⟨0, 0⟩ ⟨0, 1⟩ ⟨0, 1, 0, 1⟩ 5 "up"

theorem lines_independent_two : ∃ fuel fuel' prediction prediction',
    getPredictedPaths fuel [] [] [sharedBox] [rightLine, upLine] = some prediction ∧
    getPredictedPaths fuel' [] [] [sharedBox] [upLine, rightLine] = some prediction' ∧
    ([upLine, rightLine].zip prediction'.paths).Perm ([rightLine, upLine].zip prediction.paths) ∧
    prediction'.scaledColorBoxes.map (fun box => box.lineStates "right") =
      prediction.scaledColorBoxes.map (fun box => box.lineStates "right") := by
  have distinct : ([rightLine, upLine].map Line.uuid).Nodup := by
    simp [rightLine, upLine, Line.new, Line.reset]
  have distinct' : ([upLine, rightLine].map Line.uuid).Nodup := by
    simp [rightLine, upLine, Line.new, Line.reset]
  have terminate : ∀ line ∈ [rightLine, upLine] ++ [upLine, rightLine],
      ∃ fuel, (predictLine fuel [] [] [sharedBox] line).isSome := by
    intro line member
    refine (predictLine_returns_iff [sharedBox]).mpr (not_held_without_wells fun still => ?_)
    have components := CGVector.ext_iff.mp still
    simp only [List.cons_append, List.nil_append, List.mem_cons, List.not_mem_nil, or_false] at member
    rcases member with rfl | rfl | rfl | rfl <;>
      simp [rightLine, upLine, Line.new, Line.reset] at components
  obtain ⟨⟨fuel, returns⟩, ⟨fuel', returns'⟩, same⟩ := lines_independent [] [] [sharedBox]
    [rightLine, upLine] [upLine, rightLine] distinct distinct' terminate
  obtain ⟨prediction, success⟩ := Option.isSome_iff_exists.mp returns
  obtain ⟨prediction', success'⟩ := Option.isSome_iff_exists.mp returns'
  obtain ⟨keeps, perm⟩ := same fuel fuel' prediction prediction' success success'
  refine ⟨fuel, fuel', prediction, prediction', success, success', perm (List.Perm.swap _ _ _), ?_⟩
  have first := (getPredictedPaths_alone distinct success).1
  have second := (getPredictedPaths_alone distinct' success').1
  exact (keeps rightLine _ _ (by rw [first]; exact List.mem_cons_self ..)
    (by rw [second]; exact List.mem_cons_of_mem _ (List.mem_cons_self ..))).2

end
end Arthius.Guarantees.LineIndependence
