import Arthius.Source.LevelView

/-!
# What a prediction leaves alone

A prediction moves the lines and the flags of the colour boxes. It keeps the
shapes of the boxes, what a line restarts from, and the flags a box keeps for
the other lines.
-/
namespace Arthius.Guarantees.PredictionFrame
open Arthius.Lib Arthius.Source

/-- The screen of the examples. -/
noncomputable def phone : Screen := ⟨400, 800, by norm_num, by norm_num⟩

/-- The UUIDs of the examples. -/
def uuidOf (i : ℕ) : String := String.ofList (List.replicate i 'a')

theorem uuidOf_injective : Function.Injective uuidOf := by
  intro i j same
  have lengths := congrArg List.length (String.ofList_injective same)
  simpa [uuidOf] using lengths

section Boxes
variable (lineUUID : String) (p : CGPoint) (c : Color)

/-- A box before and after: same shape, same flags for the other lines. -/
def SameFor (box box' : ColorBox) : Prop :=
  box'.shape = box.shape ∧ ∀ uuid, uuid ≠ lineUUID → box'.lineStates uuid = box.lineStates uuid

variable {lineUUID}

theorem SameFor.refl (box : ColorBox) : SameFor lineUUID box box := ⟨rfl, fun _ _ => rfl⟩

theorem SameFor.trans {box box' box'' : ColorBox} (first : SameFor lineUUID box box')
    (second : SameFor lineUUID box' box'') : SameFor lineUUID box box'' :=
  ⟨second.1.trans first.1, fun uuid different =>
    (second.2 uuid different).trans (first.2 uuid different)⟩

theorem SameFor.setStep1 {box box' : ColorBox} (same : SameFor lineUUID box box') (value : Bool) :
    SameFor lineUUID box (box'.setStep1 lineUUID value) :=
  ⟨same.1, fun uuid different =>
    (box'.lineStates_setStep1_other lineUUID uuid value different).trans (same.2 uuid different)⟩

theorem SameFor.setStep2 {box box' : ColorBox} (same : SameFor lineUUID box box') (value : Bool) :
    SameFor lineUUID box (box'.setStep2 lineUUID value) :=
  ⟨same.1, fun uuid different =>
    (box'.lineStates_setStep2_other lineUUID uuid value different).trans (same.2 uuid different)⟩

variable (lineUUID)

theorem handleSide_frame (own other : Color) (box : ColorBox) :
    SameFor lineUUID box (handleSide lineUUID own other c box).2 := by
  have raised : SameFor lineUUID box
      (if box.getStep1 lineUUID = false then
        if own = c then box.setStep1 lineUUID true else box
      else if c = other then box.setStep2 lineUUID true else box) := by
    split_ifs
    · exact (SameFor.refl box).setStep1 true
    · exact SameFor.refl box
    · exact (SameFor.refl box).setStep2 true
    · exact SameFor.refl box
  unfold handleSide
  generalize (if box.getStep1 lineUUID = false then _ else _ : ColorBox) = flagged at raised ⊢
  dsimp only
  split
  · exact (raised.setStep1 false).setStep2 false
  · exact raised

theorem handleColorBox_frame (box : ColorBox) :
    SameFor lineUUID box (handleColorBox lineUUID p c box).2 := by
  have left : SameFor lineUUID box
      (if box.pointInLeftRect p then handleSide lineUUID box.leftColor box.rightColor c box
        else (c, box)).2 := by
    split
    · exact handleSide_frame lineUUID c box.leftColor box.rightColor box
    · exact SameFor.refl box
  unfold handleColorBox
  generalize (if box.pointInLeftRect p then _ else _ : Color × ColorBox) = onLeft at left ⊢
  split
  · dsimp only
    split
    · exact left.trans (handleSide_frame lineUUID _ _ _ _)
    · exact left
  · exact ((SameFor.refl box).setStep1 false).setStep2 false

abbrev BoxesSameFor (lineUUID : String) : List ColorBox → List ColorBox → Prop :=
  List.Forall₂ (SameFor lineUUID)

theorem BoxesSameFor.refl (boxes : List ColorBox) : BoxesSameFor lineUUID boxes boxes :=
  List.forall₂_same.mpr fun box _ => SameFor.refl box

theorem BoxesSameFor.trans {lineUUID : String} {boxes boxes' boxes'' : List ColorBox}
    (first : BoxesSameFor lineUUID boxes boxes') (second : BoxesSameFor lineUUID boxes' boxes'') :
    BoxesSameFor lineUUID boxes boxes'' := by
  induction first generalizing boxes'' with
  | nil => exact second
  | cons head _ ih =>
    cases second with
    | cons head' rest' => exact List.Forall₂.cons (head.trans head') (ih rest')

theorem handleColorBoxes_frame (boxes : List ColorBox) :
    BoxesSameFor lineUUID boxes (handleColorBoxes lineUUID p c boxes).2 := by
  induction boxes generalizing c with
  | nil => exact List.Forall₂.nil
  | cons box rest ih => exact List.Forall₂.cons (handleColorBox_frame lineUUID p c box) (ih _)

theorem BoxesSameFor.shapes {lineUUID : String} {boxes boxes' : List ColorBox}
    (same : BoxesSameFor lineUUID boxes boxes') :
    boxes'.map ColorBox.shape = boxes.map ColorBox.shape := by
  induction same with
  | nil => rfl
  | cons head _ ih => rw [List.map_cons, List.map_cons, head.1, ih]

/-- Boxes that are related to begin with, after two lines have met them. -/
theorem forall₂_of_frames {uuid uuid' : String} {R S : ColorBox → ColorBox → Prop}
    (keep : ∀ box box' after after', R box box' → SameFor uuid box after → SameFor uuid' box' after' →
      S after after')
    {boxes boxes' after after' : List ColorBox} (related : List.Forall₂ R boxes boxes')
    (frame : BoxesSameFor uuid boxes after) (frame' : BoxesSameFor uuid' boxes' after') :
    List.Forall₂ S after after' := by
  induction related generalizing after after' with
  | nil =>
    cases frame
    cases frame'
    exact List.Forall₂.nil
  | cons head _ ih =>
    cases frame with
    | cons first rest =>
      cases frame' with
      | cons first' rest' => exact List.Forall₂.cons (keep _ _ _ _ head first first') (ih rest rest')

end Boxes

section Alike
variable (lineUUID : String)

/-- What a box keeps for a line. -/
def flags (box : ColorBox) : Bool × Bool := (box.getStep1 lineUUID, box.getStep2 lineUUID)

@[simp] theorem flags_cleared (box : ColorBox) :
    flags lineUUID ((box.setStep1 lineUUID false).setStep2 lineUUID false) = (false, false) := by
  simp [flags]

theorem SameFor.flags_eq {lineUUID uuid : String} {box box' : ColorBox}
    (same : SameFor lineUUID box box') (different : uuid ≠ lineUUID) :
    flags uuid box' = flags uuid box := by
  simp only [flags, ColorBox.getStep1, ColorBox.getStep2, same.2 uuid different]

/-- To a line at `p`, one box is what the other is to a line at `p'`. -/
structure Alike (box box' : ColorBox) (p p' : CGPoint) : Prop where
  leftColor : box'.leftColor = box.leftColor
  rightColor : box'.rightColor = box.rightColor
  inBody : box'.pointInBody p' ↔ box.pointInBody p
  inLeft : box'.pointInLeftRect p' ↔ box.pointInLeftRect p
  inRight : box'.pointInRightRect p' ↔ box.pointInRightRect p

theorem Alike.of_shape {box box' : ColorBox} (shape : box'.shape = box.shape) (p : CGPoint) :
    Alike box box' p p where
  leftColor := congrArg (·.leftColor) shape
  rightColor := congrArg (·.rightColor) shape
  inBody := by rw [← ColorBox.pointInBody_shape, shape, ColorBox.pointInBody_shape]
  inLeft := by rw [← ColorBox.pointInLeftRect_shape, shape, ColorBox.pointInLeftRect_shape]
  inRight := by rw [← ColorBox.pointInRightRect_shape, shape, ColorBox.pointInRightRect_shape]

theorem Alike.of_frames {box box' after after' : ColorBox} {p p' : CGPoint} {uuid uuid' : String}
    (alike : Alike box box' p p') (same : SameFor uuid box after) (same' : SameFor uuid' box' after') :
    Alike after after' p p' := by
  have first := Alike.of_shape same.1 p
  have second := Alike.of_shape same'.1 p'
  exact ⟨second.leftColor.trans (alike.leftColor.trans first.leftColor.symm),
    second.rightColor.trans (alike.rightColor.trans first.rightColor.symm),
    second.inBody.trans (alike.inBody.trans first.inBody.symm),
    second.inLeft.trans (alike.inLeft.trans first.inLeft.symm),
    second.inRight.trans (alike.inRight.trans first.inRight.symm)⟩

variable (lineUUID' : String)

/-- One half of the loop body looks at nothing of a box but its flags. -/
theorem handleSide_alike (own other c : Color) {box box' : ColorBox}
    (same : flags lineUUID' box' = flags lineUUID box) :
    (handleSide lineUUID' own other c box').1 = (handleSide lineUUID own other c box).1 ∧
      flags lineUUID' (handleSide lineUUID' own other c box').2 =
        flags lineUUID (handleSide lineUUID own other c box).2 := by
  obtain ⟨same1, same2⟩ := Prod.mk.inj same
  unfold handleSide flags
  rw [same1]
  split_ifs <;> simp [same2] <;> split_ifs <;> simp [same1, same2]

/-- For one box: the flags matter only inside the body. -/
theorem handleColorBox_alike (c : Color) {box box' : ColorBox} {p p' : CGPoint}
    (alike : Alike box box' p p')
    (same : box.pointInBody p → flags lineUUID' box' = flags lineUUID box) :
    (handleColorBox lineUUID' p' c box').1 = (handleColorBox lineUUID p c box).1 ∧
      flags lineUUID' (handleColorBox lineUUID' p' c box').2 =
        flags lineUUID (handleColorBox lineUUID p c box).2 := by
  by_cases inBody : box.pointInBody p
  · have sameFlags := same inBody
    have left : ∃ c₁ first first',
        (if box.pointInLeftRect p then handleSide lineUUID box.leftColor box.rightColor c box
          else (c, box)) = (c₁, first) ∧
        (if box'.pointInLeftRect p' then handleSide lineUUID' box'.leftColor box'.rightColor c box'
          else (c, box')) = (c₁, first') ∧
        Alike first first' p p' ∧ flags lineUUID' first' = flags lineUUID first := by
      rw [alike.leftColor, alike.rightColor]
      by_cases onLeft : box.pointInLeftRect p
      · rw [if_pos onLeft, if_pos (alike.inLeft.mpr onLeft)]
        obtain ⟨color, flagsAfter⟩ := handleSide_alike lineUUID lineUUID' box.leftColor box.rightColor c sameFlags
        refine ⟨(handleSide lineUUID box.leftColor box.rightColor c box).1,
          (handleSide lineUUID box.leftColor box.rightColor c box).2,
          (handleSide lineUUID' box.leftColor box.rightColor c box').2, rfl, Prod.ext color rfl, ?_,
          flagsAfter⟩
        exact alike.of_frames (handleSide_frame lineUUID c _ _ box) (handleSide_frame lineUUID' c _ _ box')
      · rw [if_neg onLeft, if_neg fun onLeft' => onLeft (alike.inLeft.mp onLeft')]
        exact ⟨_, _, _, rfl, rfl, alike, sameFlags⟩
    obtain ⟨c₁, first, first', is, is', alikeFirst, flagsFirst⟩ := left
    unfold handleColorBox
    rw [if_pos inBody, if_pos (alike.inBody.mpr inBody), is, is']
    dsimp only
    rw [alikeFirst.leftColor, alikeFirst.rightColor]
    by_cases onRight : first.pointInRightRect p
    · rw [if_pos onRight, if_pos (alikeFirst.inRight.mpr onRight)]
      exact handleSide_alike lineUUID lineUUID' first.rightColor first.leftColor c₁ flagsFirst
    · rw [if_neg onRight, if_neg fun onRight' => onRight (alikeFirst.inRight.mp onRight')]
      exact ⟨rfl, flagsFirst⟩
  · unfold handleColorBox
    rw [if_neg inBody, if_neg fun inBody' => inBody (alike.inBody.mp inBody')]
    simp

/-- For all boxes. -/
theorem handleColorBoxes_alike {c : Color} {boxes boxes' : List ColorBox} {p p' : CGPoint}
    (alike : List.Forall₂ (fun box box' => Alike box box' p p' ∧
      (box.pointInBody p → flags lineUUID' box' = flags lineUUID box)) boxes boxes') :
    (handleColorBoxes lineUUID' p' c boxes').1 = (handleColorBoxes lineUUID p c boxes).1 ∧
      List.Forall₂ (fun box box' => flags lineUUID' box' = flags lineUUID box)
        (handleColorBoxes lineUUID p c boxes).2 (handleColorBoxes lineUUID' p' c boxes').2 := by
  induction alike generalizing c with
  | nil => exact ⟨rfl, List.Forall₂.nil⟩
  | cons head _ ih =>
    obtain ⟨color, flagsAfter⟩ := handleColorBox_alike lineUUID lineUUID' c head.1 head.2
    simp only [handleColorBoxes]
    rw [color]
    obtain ⟨colorRest, flagsRest⟩ := ih (c := (handleColorBox lineUUID p c _).1)
    exact ⟨colorRest, List.Forall₂.cons flagsAfter flagsRest⟩

end Alike

section Walk
variable {gravityWells : List GravityWell} {antiGravityZones : List AntiGravityZone}

@[simp] theorem split_line (w : Walk) : w.split.line = w.line := by
  unfold Walk.split
  split_ifs <;> rfl

@[simp] theorem split_boxes (w : Walk) : w.split.scaledColorBoxes = w.scaledColorBoxes := by
  unfold Walk.split
  split_ifs <;> rfl

section Move
variable (forces : CGVector) (w : Walk)

@[simp] theorem move_lineVelocity : (w.move gravityWells forces).line.lineVelocity =
    w.line.lineVelocity + forces / Line.lineMass := rfl

@[simp] theorem move_currentPoint : (w.move gravityWells forces).line.currentPoint =
    w.line.currentPoint + ⟨(w.line.lineVelocity + forces / Line.lineMass).dx,
      (w.line.lineVelocity + forces / Line.lineMass).dy⟩ := rfl

@[simp] theorem move_linePath : (w.move gravityWells forces).line.linePath =
    w.line.linePath ++ [(w.move gravityWells forces).line.currentPoint] := rfl

@[simp] theorem move_levelCountDistance : (w.move gravityWells forces).line.levelCountDistance =
    w.line.levelCountDistance.map (· + (w.line.lineVelocity + forces / Line.lineMass).length) := rfl

@[simp] theorem move_lineThickness : (w.move gravityWells forces).line.lineThickness =
    handleCollisions (w.move gravityWells forces).line.currentPoint w.line.lineThickness gravityWells := rfl

@[simp] theorem move_madeItToEnd : (w.move gravityWells forces).line.madeItToEnd = w.line.madeItToEnd := rfl

@[simp] theorem lose_levelCountDistance : w.lose.line.levelCountDistance = none := rfl

@[simp] theorem lose_lineThickness : w.lose.line.lineThickness = w.line.lineThickness := rfl

end Move

variable (gravityWells antiGravityZones)

/-- What one turn of the loop does, while its guard holds. -/
theorem body_cases {w : Walk} (enters : w.guard) :
    (∃ forces, forcesAt gravityWells antiGravityZones w.line.currentPoint = some forces ∧
      w.body gravityWells antiGravityZones = w.split.move gravityWells forces) ∨
    (forcesAt gravityWells antiGravityZones w.line.currentPoint = none ∧
      w.body gravityWells antiGravityZones = w.split.lose) := by
  unfold Walk.body
  simp only [split_line]
  rw [if_pos ⟨enters.2.2, enters.2.1⟩]
  cases forcesAt gravityWells antiGravityZones w.line.currentPoint with
  | some forces => exact .inl ⟨forces, rfl, rfl⟩
  | none => exact .inr ⟨rfl, rfl⟩

variable {gravityWells antiGravityZones} in
theorem body_of_lost {w : Walk} (enters : w.guard)
    (lost : forcesAt gravityWells antiGravityZones w.line.currentPoint = none) :
    w.body gravityWells antiGravityZones = w.split.lose := by
  rcases body_cases gravityWells antiGravityZones enters with ⟨forces, found, _⟩ | ⟨_, is⟩
  · rw [lost] at found
    cases found
  · exact is

theorem body_frame {w : Walk} (enters : w.guard) :
    (w.body gravityWells antiGravityZones).line.restart = w.line.restart ∧
      BoxesSameFor w.line.uuid w.scaledColorBoxes
        (w.body gravityWells antiGravityZones).scaledColorBoxes := by
  rcases body_cases gravityWells antiGravityZones enters with
    ⟨forces, _, is⟩ | ⟨_, is⟩
  · rw [is]
    constructor
    · rw [← split_line w]
      rfl
    · simp only [Walk.move, handleColorBoxesForLine, split_boxes]
      rw [show w.line.uuid = w.split.line.uuid by rw [split_line]]
      exact handleColorBoxes_frame _ _ _ _
  · rw [is]
    constructor
    · rw [← split_line w]
      rfl
    · simp only [Walk.lose, split_boxes, split_line]
      refine List.forall₂_map_right_iff.mpr (List.forall₂_same.mpr fun box _ => ?_)
      exact ((SameFor.refl box).setStep1 false).setStep2 false

variable {gravityWells antiGravityZones}

theorem restart_uuid {line line' : Line} (same : line'.restart = line.restart) :
    line'.uuid = line.uuid := by
  have uuids : line'.restart.uuid = line.restart.uuid := by rw [same]
  exact uuids

/-- What a restart keeps is the same in lines that restart the same. -/
theorem map_of_restart {β : Type} {f : Line → β} (keeps : ∀ line, f line.restart = f line)
    {lines lines' : List Line} (same : lines'.map Line.restart = lines.map Line.restart) :
    lines'.map f = lines.map f := by
  have through : ∀ lines : List Line, lines.map f = (lines.map Line.restart).map f := by
    intro lines
    rw [List.map_map]
    exact List.map_congr_left fun line _ => (keeps line).symm
  rw [through lines', same, ← through lines]

/-- So many turns of the loop for one line. -/
theorem after_frame {boxes : List ColorBox} {line : Line} {n : ℕ}
    (enters : ∀ i < n, (Walk.loop gravityWells antiGravityZones).guard
      ((Walk.loop gravityWells antiGravityZones).after i (Walk.start line boxes))) :
    ((Walk.loop gravityWells antiGravityZones).after n (Walk.start line boxes)).line.restart = line.restart ∧
      BoxesSameFor line.uuid boxes
        ((Walk.loop gravityWells antiGravityZones).after n (Walk.start line boxes)).scaledColorBoxes := by
  refine (Walk.loop gravityWells antiGravityZones).after_invariant
    (I := fun w => w.line.restart = line.restart ∧ BoxesSameFor line.uuid boxes w.scaledColorBoxes)
    ?_ ⟨rfl, BoxesSameFor.refl _ _⟩ enters
  intro w ⟨same, boxesSame⟩ enters
  obtain ⟨sameNow, boxesNow⟩ := body_frame gravityWells antiGravityZones enters
  rw [restart_uuid same] at boxesNow
  refine ⟨sameNow.trans same, ?_⟩
  exact boxesSame.trans boxesNow

/-- The loop for one line. -/
theorem predictLine_frame {fuel : ℕ} {boxes : List ColorBox} {line : Line} {w : Walk}
    (success : predictLine fuel gravityWells antiGravityZones boxes line = some w) :
    w.line.restart = line.restart ∧ BoxesSameFor line.uuid boxes w.scaledColorBoxes := by
  obtain ⟨n, _, ⟨enters, _⟩, rfl⟩ := (Walk.loop gravityWells antiGravityZones).run_eq_some_iff.mp success
  exact after_frame enters

/-- The prediction for a list of lines, by its first line. -/
theorem getPredictedPaths_cons {fuel : ℕ} {boxes : List ColorBox} {line : Line} {rest : List Line}
    {prediction : Prediction} :
    getPredictedPaths fuel gravityWells antiGravityZones boxes (line :: rest) = some prediction ↔
      ∃ walk others, predictLine fuel gravityWells antiGravityZones boxes line = some walk ∧
        getPredictedPaths fuel gravityWells antiGravityZones walk.scaledColorBoxes rest = some others ∧
        prediction = ⟨walk.pieces :: others.paths, walk.line :: others.lines, others.scaledColorBoxes⟩ := by
  constructor
  · intro success
    obtain ⟨walk, first, success⟩ := Option.bind_eq_some_iff.mp success
    obtain ⟨others, later, success⟩ := Option.bind_eq_some_iff.mp success
    exact ⟨walk, others, first, later, (Option.some.inj success).symm⟩
  · rintro ⟨walk, others, first, later, rfl⟩
    simp [getPredictedPaths, first, later]

/-- A whole prediction. -/
theorem getPredictedPaths_frame {fuel : ℕ} {boxes : List ColorBox} {lines : List Line}
    {prediction : Prediction}
    (success : getPredictedPaths fuel gravityWells antiGravityZones boxes lines = some prediction) :
    prediction.lines.map Line.restart = lines.map Line.restart ∧
      prediction.scaledColorBoxes.map ColorBox.shape = boxes.map ColorBox.shape := by
  induction lines generalizing boxes prediction with
  | nil =>
    cases success
    exact ⟨rfl, rfl⟩
  | cons line rest ih =>
    obtain ⟨walk, others, first, later, rfl⟩ := getPredictedPaths_cons.mp success
    obtain ⟨same, boxesSame⟩ := predictLine_frame first
    obtain ⟨sameRest, shapes⟩ := ih later
    exact ⟨by rw [List.map_cons, List.map_cons, same, sameRest], shapes.trans boxesSame.shapes⟩

/-- The prediction for a single line. -/
theorem getPredictedPaths_single {fuel : ℕ} {boxes : List ColorBox} {line : Line} {w : Walk}
    (success : predictLine fuel gravityWells antiGravityZones boxes line = some w) :
    getPredictedPaths fuel gravityWells antiGravityZones boxes [line] =
      some ⟨[w.pieces], [w.line], w.scaledColorBoxes⟩ := by
  simp [getPredictedPaths, success]

/-- More fuel changes no prediction. -/
theorem getPredictedPaths_mono {fuel fuel' : ℕ} (more : fuel ≤ fuel') {boxes : List ColorBox}
    {lines : List Line} {prediction : Prediction}
    (success : getPredictedPaths fuel gravityWells antiGravityZones boxes lines = some prediction) :
    getPredictedPaths fuel' gravityWells antiGravityZones boxes lines = some prediction := by
  induction lines generalizing boxes prediction with
  | nil => exact success
  | cons line rest ih =>
    obtain ⟨walk, others, first, later, is⟩ := getPredictedPaths_cons.mp success
    have firstAgain : predictLine fuel' gravityWells antiGravityZones boxes line = some walk :=
      Loop.run_mono _ more first
    exact getPredictedPaths_cons.mpr ⟨walk, others, firstAgain, ih later, is⟩

end Walk
end Arthius.Guarantees.PredictionFrame
