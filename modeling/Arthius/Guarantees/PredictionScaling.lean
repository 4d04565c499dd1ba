import Arthius.Guarantees.PredictionTermination
import Arthius.Guarantees.ScaledStage

/-!
# Predictions on a scaled screen

The stage scales with the screen, but the pull of a well, the unit a core takes
off a line, the least thickness and the 700 points of a path do not. On the
scaled screen a line draws the scaled path exactly if it coasts: nothing pulls
it, the budget and the thickness end its loop at the same turn on both screens,
and the cores it meets wear it in proportion.
-/
namespace Arthius.Guarantees.PredictionScaling
open Arthius.Lib Arthius.Source PredictionFrame ScaledStage

noncomputable section

section Turn
variable {gravityWells : List GravityWell} {antiGravityZones : List AntiGravityZone}

/-- A turn of the loop that moves the line. -/
structure Moves (gravityWells : List GravityWell) (forces : CGVector) (w w' : Walk) : Prop where
  velocity : w'.line.lineVelocity = w.line.lineVelocity + forces
  point : w'.line.currentPoint =
    w.line.currentPoint + ⟨w'.line.lineVelocity.dx, w'.line.lineVelocity.dy⟩
  thickness : w'.line.lineThickness =
    handleCollisions w'.line.currentPoint w.line.lineThickness gravityWells
  distance : w'.line.levelCountDistance =
    w.line.levelCountDistance.map (· + w'.line.lineVelocity.length)
  going : w'.line.madeItToEnd = w.line.madeItToEnd
  uuid : w'.line.uuid = w.line.uuid
  handled : (w'.line.lineColor, w'.scaledColorBoxes) =
    handleColorBoxes w.line.uuid w'.line.currentPoint w.line.lineColor w.scaledColorBoxes
  linesForLine : w'.linesForLine = w.split.linesForLine
  currentLine : w'.currentLine = w.split.currentLine.newLocation w'.line.currentPoint

theorem body_moves {w : Walk} (enters : w.guard) {forces : CGVector}
    (found : forcesAt gravityWells antiGravityZones w.line.currentPoint = some forces) :
    Moves gravityWells forces w (w.body gravityWells antiGravityZones) := by
  rcases body_cases gravityWells antiGravityZones enters with
    ⟨forces', found', is⟩ | ⟨lost, _⟩
  · obtain rfl : forces = forces' := Option.some.inj (found.symm.trans found')
    have light : forces / Line.lineMass = forces := by
      ext <;> simp [Line.lineMass]
    rw [is]
    constructor <;> simp only [Walk.move, handleColorBoxesForLine, Line.changeLineColor, Line.newLocation,
      split_line, split_boxes, light]
  · rw [found] at lost
    cases lost

/-- The points a path is drawn through, each with the thickness it is drawn with. -/
def strokes (pieces : List DummyLine) : List (CGPoint × CGFloat) :=
  pieces.flatMap fun piece => piece.linePath.tail.map fun p => (p, piece.lineThickness)

theorem split_currentLine (w : Walk) :
    w.split.currentLine.lineThickness = w.line.lineThickness ∧
      (w.currentLine.linePath ≠ [] → w.split.currentLine.linePath ≠ []) := by
  unfold Walk.split
  split_ifs with changed
  · exact ⟨rfl, fun _ => List.cons_ne_nil _ _⟩
  · rw [not_or, not_not] at changed
    exact ⟨changed.1.symm, id⟩

theorem split_strokes (w : Walk) : strokes w.split.pieces = strokes w.pieces := by
  unfold Walk.split
  split_ifs
  · simp [strokes, Walk.pieces, DummyLine.new]
  · rfl

/-- A turn draws one stroke, with the thickness the line had before it. -/
theorem Moves.strokes {forces : CGVector} {w w' : Walk} (moves : Moves gravityWells forces w w')
    (begun : w.currentLine.linePath ≠ []) :
    strokes w'.pieces = strokes w.pieces ++ [(w'.line.currentPoint, w.line.lineThickness)] ∧
      w'.currentLine.linePath ≠ [] := by
  obtain ⟨thickness, drawn⟩ := split_currentLine w
  have grown : (w.split.currentLine.linePath ++ [w'.line.currentPoint]).tail =
      w.split.currentLine.linePath.tail ++ [w'.line.currentPoint] :=
    List.tail_append_of_ne_nil (drawn begun)
  rw [← split_strokes w]
  unfold Walk.pieces PredictionScaling.strokes
  rw [moves.linesForLine, moves.currentLine, ← thickness]
  simp only [DummyLine.newLocation, List.flatMap_append, List.flatMap_cons, List.flatMap_nil, grown,
    List.map_append, List.map_cons, List.map_nil, List.append_nil, List.append_assoc, true_and]
  exact List.append_ne_nil_of_right_ne_nil _ (List.cons_ne_nil _ _)

variable (gravityWells antiGravityZones)

/-- The walk after so many turns of the loop. -/
abbrev walkAt (w : Walk) (n : ℕ) : Walk := (Walk.loop gravityWells antiGravityZones).after n w

theorem walkAt_succ (w : Walk) (n : ℕ) : walkAt gravityWells antiGravityZones w (n + 1) =
    (walkAt gravityWells antiGravityZones w n).body gravityWells antiGravityZones :=
  Loop.after_succ _ n w

/-- The loop enters so many turns, and no centre is hit. -/
def Turns (w : Walk) (n : ℕ) : Prop := ∀ i < n, (walkAt gravityWells antiGravityZones w i).guard ∧
  ∃ forces, forcesAt gravityWells antiGravityZones
    (walkAt gravityWells antiGravityZones w i).line.currentPoint = some forces

variable {gravityWells antiGravityZones} {w : Walk}

theorem Turns.moves {n : ℕ} (turns : Turns gravityWells antiGravityZones w n) {i : ℕ} (below : i < n) :
    ∃ forces, forcesAt gravityWells antiGravityZones
        (walkAt gravityWells antiGravityZones w i).line.currentPoint = some forces ∧
      Moves gravityWells forces (walkAt gravityWells antiGravityZones w i)
        (walkAt gravityWells antiGravityZones w (i + 1)) := by
  obtain ⟨enters, forces, found⟩ := turns i below
  refine ⟨forces, found, ?_⟩
  rw [walkAt_succ]
  exact body_moves enters found

/-- The strokes of so many turns. -/
theorem Turns.strokes {n : ℕ} (turns : Turns gravityWells antiGravityZones w n)
    (begun : w.currentLine.linePath ≠ []) :
    strokes (walkAt gravityWells antiGravityZones w n).pieces = strokes w.pieces ++
      (List.range n).map fun i => ((walkAt gravityWells antiGravityZones w (i + 1)).line.currentPoint,
        (walkAt gravityWells antiGravityZones w i).line.lineThickness) := by
  have both : PredictionScaling.strokes (walkAt gravityWells antiGravityZones w n).pieces =
      PredictionScaling.strokes w.pieces ++
        (List.range n).map (fun i => ((walkAt gravityWells antiGravityZones w (i + 1)).line.currentPoint,
          (walkAt gravityWells antiGravityZones w i).line.lineThickness)) ∧
      (walkAt gravityWells antiGravityZones w n).currentLine.linePath ≠ [] := by
    induction n with
    | zero => exact ⟨(List.append_nil _).symm, begun⟩
    | succ n ih =>
      obtain ⟨before, begunNow⟩ := ih fun i below => turns i (Nat.lt_succ_of_lt below)
      obtain ⟨forces, _, moves⟩ := turns.moves (Nat.lt_succ_self n)
      obtain ⟨drawn, begunNext⟩ := moves.strokes begunNow
      refine ⟨?_, begunNext⟩
      rw [drawn, before, List.range_succ, List.map_append, List.append_assoc]
      rfl
  exact both.1

/-- A loop that ends with a distance has not hit a centre. -/
theorem predictLine_turns {fuel : ℕ} {boxes : List ColorBox} {line : Line}
    (success : predictLine fuel gravityWells antiGravityZones boxes line = some w)
    (exact_ : w.line.levelCountDistance ≠ none) :
    ∃ n, Turns gravityWells antiGravityZones (Walk.start line boxes) n ∧
      w = walkAt gravityWells antiGravityZones (Walk.start line boxes) n ∧ ¬ w.guard := by
  obtain ⟨n, _, ⟨enters, leaves⟩, rfl⟩ := (Walk.loop gravityWells antiGravityZones).run_eq_some_iff.mp success
  refine ⟨n, fun i below => ⟨enters i below, ?_⟩, rfl, leaves⟩
  rcases body_cases gravityWells antiGravityZones (enters i below)
    with ⟨forces, found, _⟩ | ⟨_, is⟩
  · exact ⟨forces, found⟩
  · have lost : (walkAt gravityWells antiGravityZones (Walk.start line boxes) (i + 1)).line.levelCountDistance =
        none := by
      rw [walkAt_succ]
      exact congrArg (·.line.levelCountDistance) is
    rcases Nat.lt_or_eq_of_le (Nat.succ_le_of_lt below) with before | last
    · obtain ⟨⟨d, still, _⟩, _⟩ := enters (i + 1) before
      rw [lost] at still
      cases still
    · rw [← last] at exact_
      exact absurd lost exact_

end Turn

section Coast
variable (gravityWells : List GravityWell) (start : Start)

/-- Where a line that nothing pulls is after so many turns. -/
def coastPoint (i : ℕ) : CGPoint :=
  ⟨start.position.x + i * start.velocity.dx, start.position.y + i * start.velocity.dy⟩

/-- What the cores on that way have left of its thickness. -/
def wear : ℕ → CGFloat
  | 0 => start.thickness
  | i + 1 => handleCollisions (coastPoint start (i + 1)) (wear i) gravityWells

/-- Neither the budget nor the thickness ends its loop at this turn. -/
def Lasts (i : ℕ) : Prop := i * start.velocity.length < 700 ∧ 1 ≤ wear gravityWells start i

/-- The walk of such a line after so many turns. -/
structure CoastsAt (i : ℕ) (w : Walk) : Prop where
  velocity : w.line.lineVelocity = start.velocity
  point : w.line.currentPoint = coastPoint start i
  thickness : w.line.lineThickness = wear gravityWells start i
  distance : w.line.levelCountDistance = some (i * start.velocity.length)
  going : w.line.madeItToEnd = false

variable {gravityWells} {start} {w : Walk} {i : ℕ}

theorem start_coasts (line : Line) (boxes : List ColorBox) :
    CoastsAt gravityWells (startOf line) 0 (Walk.start line boxes) := by
  constructor
  · rfl
  · ext <;> simp [coastPoint, startOf, Walk.start, Line.restart, Line.reset]
  · rfl
  · simp [Walk.start, Line.restart]
  · rfl

theorem CoastsAt.guard_iff (coasts : CoastsAt gravityWells start i w) :
    w.guard ↔ Lasts gravityWells start i := by
  simp [Walk.guard, Lasts, coasts.distance, coasts.thickness, coasts.going]

theorem CoastsAt.next {w' : Walk} (coasts : CoastsAt gravityWells start i w)
    (moves : Moves gravityWells CGVector.zero w w') : CoastsAt gravityWells start (i + 1) w' := by
  have velocity : w'.line.lineVelocity = start.velocity := by
    rw [moves.velocity, coasts.velocity]
    ext <;> simp
  have point : w'.line.currentPoint = coastPoint start (i + 1) := by
    rw [moves.point, coasts.point, velocity]
    ext <;> simp only [coastPoint, CGPoint.add_x, CGPoint.add_y] <;> push_cast <;> ring
  refine ⟨velocity, point, ?_, ?_, moves.going.trans coasts.going⟩
  · rw [moves.thickness, point, coasts.thickness]
    rfl
  · rw [moves.distance, coasts.distance, velocity, Option.map_some]
    congr 1
    push_cast
    ring

/-- As long as nothing pulls and the line lasts, it coasts. -/
theorem coasts_along (antiGravityZones : List AntiGravityZone) {n : ℕ} (first : CoastsAt gravityWells start 0 w)
    (free : ∀ i < n, forcesAt gravityWells antiGravityZones (coastPoint start i) = some CGVector.zero ∧
      Lasts gravityWells start i) :
    CoastsAt gravityWells start n (walkAt gravityWells antiGravityZones w n) := by
  induction n with
  | zero => exact first
  | succ n ih =>
    have coasts := ih fun i below => free i (Nat.lt_succ_of_lt below)
    obtain ⟨unpulled, lasts⟩ := free n (Nat.lt_succ_self n)
    rw [← coasts.point] at unpulled
    rw [walkAt_succ]
    exact coasts.next (body_moves (coasts.guard_iff.mpr lasts) unpulled)

/-- The loop for a line that coasts to its end. -/
theorem predictLine_coasts (antiGravityZones : List AntiGravityZone) (boxes : List ColorBox) {line : Line}
    {n : ℕ} (free : ∀ i < n, forcesAt gravityWells antiGravityZones (coastPoint (startOf line) i) =
      some CGVector.zero ∧ Lasts gravityWells (startOf line) i)
    (ends : ¬ Lasts gravityWells (startOf line) n) {fuel : ℕ} (enough : n < fuel) :
    ∃ w, predictLine fuel gravityWells antiGravityZones boxes line = some w ∧
      w.line.levelCountDistance ≠ none := by
  have coasts := fun i (most : i ≤ n) => coasts_along antiGravityZones (start_coasts line boxes)
    fun j below => free j (lt_of_lt_of_le below most)
  refine ⟨walkAt gravityWells antiGravityZones (Walk.start line boxes) n, ?_, ?_⟩
  · refine (Walk.loop gravityWells antiGravityZones).run_eq_some_iff.mpr ⟨n, enough, ⟨fun i below => ?_, ?_⟩, rfl⟩
    · exact (coasts i below.le).guard_iff.mpr (free i below).2
    · exact fun enters => ends ((coasts n (le_refl n)).guard_iff.mp enters)
  · rw [(coasts n (le_refl n)).distance]
    exact Option.some_ne_none _

end Coast

section Scaled
variable (k : ℝ)

/-- A walk and the scaled one, but for the thickness of the line. -/
structure Scaled (w w' : Walk) : Prop where
  point : w'.line.currentPoint = scalePoint k w.line.currentPoint
  velocity : w'.line.lineVelocity = scaleVector k w.line.lineVelocity
  color : w'.line.lineColor = w.line.lineColor
  distance : w'.line.levelCountDistance = w.line.levelCountDistance.map (k * ·)
  going : w'.line.madeItToEnd = w.line.madeItToEnd
  places : List.Forall₂ (fun box box' => ∀ p, Alike box box' p (scalePoint k p)) w.scaledColorBoxes
    w'.scaledColorBoxes
  flagged : List.Forall₂ (fun box box' => flags w'.line.uuid box' = flags w.line.uuid box)
    w.scaledColorBoxes w'.scaledColorBoxes
  linesForLine : w'.linesForLine = w.linesForLine.map (scalePiece k)
  currentLine : w'.currentLine = scalePiece k w.currentLine

variable {k} {gravityWells : List GravityWell} {antiGravityZones : List AntiGravityZone} {w w' : Walk}

theorem Scaled.pieces (scaled : Scaled k w w') : w'.pieces = w.pieces.map (scalePiece k) := by
  simp only [Walk.pieces, scaled.linesForLine, scaled.currentLine, List.map_append, List.map_cons,
    List.map_nil]

theorem Scaled.split (positive : 0 < k) (scaled : Scaled k w w')
    (thickness : w'.line.lineThickness = k * w.line.lineThickness) :
    w'.split.linesForLine = w.split.linesForLine.map (scalePiece k) ∧
      w'.split.currentLine = scalePiece k w.split.currentLine := by
  have changed : w'.line.lineThickness ≠ w'.currentLine.lineThickness ∨
        w'.line.lineColor ≠ w'.currentLine.lineColor ↔
      w.line.lineThickness ≠ w.currentLine.lineThickness ∨ w.line.lineColor ≠ w.currentLine.lineColor := by
    rw [thickness, scaled.color, scaled.currentLine]
    exact or_congr (mul_right_injective₀ positive.ne').ne_iff Iff.rfl
  unfold Walk.split
  by_cases here : w.line.lineThickness ≠ w.currentLine.lineThickness ∨
      w.line.lineColor ≠ w.currentLine.lineColor
  · rw [if_pos here, if_pos (changed.mpr here)]
    simp [scaled.linesForLine, scaled.currentLine, scalePiece, DummyLine.new, thickness, scaled.color]
  · rw [if_neg here, if_neg fun there => here (changed.mp there)]
    exact ⟨scaled.linesForLine, scaled.currentLine⟩

/-- A turn on both screens, where nothing pulls or the scale is one. -/
theorem Scaled.next (positive : 0 < k) {v v' : Walk} {forces : CGVector} (scaled : Scaled k w w')
    (thickness : w'.line.lineThickness = k * w.line.lineThickness)
    (unbent : k = 1 ∨ forces = CGVector.zero) (moves : Moves gravityWells forces w v)
    (moves' : Moves (gravityWells.map (scaleWell k)) (scaleForce k forces) w' v')
    (frame : BoxesSameFor w.line.uuid w.scaledColorBoxes v.scaledColorBoxes)
    (frame' : BoxesSameFor w'.line.uuid w'.scaledColorBoxes v'.scaledColorBoxes) : Scaled k v v' := by
  have velocity : v'.line.lineVelocity = scaleVector k v.line.lineVelocity := by
    rw [moves'.velocity, moves.velocity, scaled.velocity]
    rcases unbent with rfl | rfl <;> ext <;> simp [scaleVector, scaleForce]
  have point : v'.line.currentPoint = scalePoint k v.line.currentPoint := by
    rw [moves'.point, moves.point, scaled.point, velocity]
    ext <;> simp only [scalePoint, scaleVector, CGPoint.add_x, CGPoint.add_y] <;> ring
  have places : List.Forall₂ (fun box box' => ∀ p, Alike box box' p (scalePoint k p)) v.scaledColorBoxes
      v'.scaledColorBoxes :=
    forall₂_of_frames (fun _ _ _ _ alike same same' p => (alike p).of_frames same same') scaled.places
      frame frame'
  obtain ⟨color, flagsAfter⟩ := handleColorBoxes_alike w.line.uuid w'.line.uuid (c := w.line.lineColor)
    (scaled.places.mp (fun _ _ alike same => ⟨alike v.line.currentPoint, fun _ => same⟩) scaled.flagged)
  obtain ⟨colorAfter, boxesAfter⟩ := Prod.mk.inj moves.handled
  obtain ⟨colorAfter', boxesAfter'⟩ := Prod.mk.inj moves'.handled
  rw [point, scaled.color] at colorAfter' boxesAfter'
  obtain ⟨lines, current⟩ := scaled.split positive thickness
  refine ⟨point, velocity, ?_, ?_, ?_, places, ?_, ?_, ?_⟩
  · rw [colorAfter, colorAfter', color]
  · rw [moves'.distance, moves.distance, scaled.distance, velocity, length_scaled positive, Option.map_map,
      Option.map_map]
    congr 1
    funext d
    exact (mul_add k d _).symm
  · rw [moves'.going, moves.going, scaled.going]
  · rw [boxesAfter, boxesAfter', moves.uuid, moves'.uuid]
    exact flagsAfter
  · rw [moves.linesForLine, moves'.linesForLine, lines]
  · rw [moves.currentLine, moves'.currentLine, current, point]
    simp [scalePiece, DummyLine.newLocation]

variable (k gravityWells antiGravityZones) in
/-- The walk on the scaled screen after so many turns. -/
abbrev scaledWalkAt (w' : Walk) (n : ℕ) : Walk :=
  walkAt (gravityWells.map (scaleWell k)) (antiGravityZones.map (scaleZone k)) w' n

variable (k gravityWells antiGravityZones) in
abbrev ScaledTurns (w' : Walk) (n : ℕ) : Prop :=
  Turns (gravityWells.map (scaleWell k)) (antiGravityZones.map (scaleZone k)) w' n

/-- The turn after so many turns. -/
theorem Scaled.after (positive : 0 < k) {n : ℕ}
    (here : Scaled k (walkAt gravityWells antiGravityZones w n)
      (scaledWalkAt k gravityWells antiGravityZones w' n))
    (turns : Turns gravityWells antiGravityZones w (n + 1))
    (turns' : ScaledTurns k gravityWells antiGravityZones w' (n + 1))
    (unbent : k = 1 ∨ forcesAt gravityWells antiGravityZones
      (walkAt gravityWells antiGravityZones w n).line.currentPoint = some CGVector.zero)
    (thickness : (scaledWalkAt k gravityWells antiGravityZones w' n).line.lineThickness =
      k * (walkAt gravityWells antiGravityZones w n).line.lineThickness) :
    Scaled k (walkAt gravityWells antiGravityZones w (n + 1))
      (scaledWalkAt k gravityWells antiGravityZones w' (n + 1)) := by
  obtain ⟨forces, found, moves⟩ := turns.moves (Nat.lt_succ_self n)
  obtain ⟨forces', found', moves'⟩ := turns'.moves (Nat.lt_succ_self n)
  have pulled : scaleForce k forces = forces' := by
    rw [here.point, forcesAt_scaled positive, found] at found'
    exact Option.some.inj found'
  rw [← pulled] at moves'
  have frame := (body_frame gravityWells antiGravityZones
    (turns n (Nat.lt_succ_self n)).1).2
  have frame' := (body_frame (gravityWells.map (scaleWell k)) (antiGravityZones.map (scaleZone k)) (turns' n (Nat.lt_succ_self n)).1).2
  rw [← walkAt_succ] at frame frame'
  refine here.next positive thickness (unbent.imp_right fun free => ?_) moves moves' frame frame'
  exact Option.some.inj (found.symm.trans free)

theorem Turns.of_succ {n : ℕ} (turns : Turns gravityWells antiGravityZones w (n + 1)) :
    Turns gravityWells antiGravityZones w n :=
  fun i below => turns i (Nat.lt_succ_of_lt below)

/-- So many turns on both screens. -/
theorem Scaled.along (positive : 0 < k) {n : ℕ} (scaled : Scaled k w w')
    (turns : Turns gravityWells antiGravityZones w n)
    (turns' : ScaledTurns k gravityWells antiGravityZones w' n)
    (unbent : ∀ i < n, forcesAt gravityWells antiGravityZones
      (walkAt gravityWells antiGravityZones w i).line.currentPoint = some CGVector.zero)
    (thickness : ∀ i < n, (scaledWalkAt k gravityWells antiGravityZones w' i).line.lineThickness =
      k * (walkAt gravityWells antiGravityZones w i).line.lineThickness) :
    Scaled k (walkAt gravityWells antiGravityZones w n)
      (scaledWalkAt k gravityWells antiGravityZones w' n) := by
  induction n with
  | zero => exact scaled
  | succ n ih =>
    have here := ih turns.of_succ turns'.of_succ (fun i below => unbent i (Nat.lt_succ_of_lt below))
      (fun i below => thickness i (Nat.lt_succ_of_lt below))
    exact here.after positive turns turns' (.inr (unbent n (Nat.lt_succ_self n)))
      (thickness n (Nat.lt_succ_self n))

theorem handleCollisions_one (p : CGPoint) (thickness : CGFloat) (wells : List GravityWell) :
    handleCollisions (scalePoint 1 p) (1 * thickness) (wells.map (scaleWell 1)) =
      1 * handleCollisions p thickness wells := by
  have same : wells.map (scaleWell 1) = wells := by
    refine List.map_id'' (fun well => ?_) wells
    simp [scaleWell, scalePoint]
  have here : scalePoint 1 p = p := by
    simp [scalePoint]
  rw [same, here, one_mul, one_mul]

theorem Scaled.guard_one (scaled : Scaled 1 w w')
    (thickness : w'.line.lineThickness = 1 * w.line.lineThickness) : w'.guard ↔ w.guard := by
  have distance : w'.line.levelCountDistance = w.line.levelCountDistance := by
    rw [scaled.distance]
    cases w.line.levelCountDistance <;> simp
  rw [one_mul] at thickness
  unfold Walk.guard
  rw [distance, thickness, scaled.going]

/-- On a screen of the same size, everything is the same. -/
theorem Scaled.along_one {n : ℕ} (scaled : Scaled 1 w w')
    (thickness : w'.line.lineThickness = 1 * w.line.lineThickness)
    (turns : Turns gravityWells antiGravityZones w n) :
    ScaledTurns 1 gravityWells antiGravityZones w' n ∧
      (scaledWalkAt 1 gravityWells antiGravityZones w' n).line.lineThickness =
        1 * (walkAt gravityWells antiGravityZones w n).line.lineThickness ∧
      Scaled 1 (walkAt gravityWells antiGravityZones w n)
        (scaledWalkAt 1 gravityWells antiGravityZones w' n) := by
  induction n with
  | zero => exact ⟨fun i below => absurd below (Nat.not_lt_zero i), thickness, scaled⟩
  | succ n ih =>
    obtain ⟨before, thicknessHere, here⟩ := ih turns.of_succ
    obtain ⟨forces, found, moves⟩ := turns.moves (Nat.lt_succ_self n)
    have turns' : ScaledTurns 1 gravityWells antiGravityZones w' (n + 1) := by
      intro i below
      rcases Nat.lt_succ_iff_lt_or_eq.mp below with earlier | rfl
      · exact before i earlier
      · refine ⟨(here.guard_one thicknessHere).mpr (turns i below).1, scaleForce 1 forces, ?_⟩
        rw [here.point, forcesAt_scaled one_pos, found]
        rfl
    have next := here.after one_pos turns turns' (.inl rfl) thicknessHere
    obtain ⟨forces', _, moves'⟩ := turns'.moves (Nat.lt_succ_self n)
    refine ⟨turns', ?_, next⟩
    rw [moves'.thickness, next.point, thicknessHere, handleCollisions_one, moves.thickness]

end Scaled

section Line
variable {k : ℝ} {gravityWells : List GravityWell} {antiGravityZones : List AntiGravityZone}
  {line line' : Line} {boxes boxes' : List ColorBox}

/-- The line coasts, ends at the same turn on both screens and wears in proportion. -/
def Coasts (gravityWells : List GravityWell) (antiGravityZones : List AntiGravityZone) (k : ℝ)
    (start : Start) : Prop :=
  ∃ n, (∀ i < n, forcesAt gravityWells antiGravityZones (coastPoint start i) = some CGVector.zero ∧
      Lasts gravityWells start i ∧ Lasts (gravityWells.map (scaleWell k)) (scaleStart k start) i ∧
      wear (gravityWells.map (scaleWell k)) (scaleStart k start) i = k * wear gravityWells start i) ∧
    ¬ Lasts gravityWells start n ∧ ¬ Lasts (gravityWells.map (scaleWell k)) (scaleStart k start) n

theorem coastPoint_scaled (start : Start) (i : ℕ) :
    coastPoint (scaleStart k start) i = scalePoint k (coastPoint start i) := by
  ext <;> simp only [coastPoint, scaleStart, scalePoint, scaleVector] <;> ring

theorem Turns.exits {w : Walk} {n : ℕ} (turns : Turns gravityWells antiGravityZones w n)
    (leaves : ¬ (walkAt gravityWells antiGravityZones w n).guard) :
    (Walk.loop gravityWells antiGravityZones).ExitsAt w n :=
  ⟨fun i below => (turns i below).1, leaves⟩

/-- The stage and the line on both screens, before the loop for the line. -/
structure Paired (k : ℝ) (line line' : Line) (boxes boxes' : List ColorBox) : Prop where
  start : startOf line' = scaleStart k (startOf line)
  places : List.Forall₂ (fun box box' => ∀ p, Alike box box' p (scalePoint k p)) boxes boxes'
  flagged : List.Forall₂ (fun box box' => flags line'.uuid box' = flags line.uuid box) boxes boxes'

theorem Paired.scaled (paired : Paired k line line' boxes boxes') :
    Scaled k (Walk.start line boxes) (Walk.start line' boxes') ∧
      (Walk.start line' boxes').line.lineThickness = k * (Walk.start line boxes).line.lineThickness := by
  obtain ⟨position, velocity, color, thickness⟩ := Start.mk.inj paired.start
  refine ⟨⟨position, velocity, color, ?_, rfl, paired.places, paired.flagged, rfl, ?_⟩, thickness⟩
  · simp [Walk.start, Line.restart]
  · simp only [Walk.start, scalePiece, DummyLine.new, Line.restart, Line.reset, position, color, thickness,
      List.map_cons, List.map_nil]
    rfl

theorem Paired.coasts (paired : Paired k line line' boxes boxes') :
    CoastsAt (gravityWells.map (scaleWell k)) (scaleStart k (startOf line)) 0 (Walk.start line' boxes') := by
  rw [← paired.start]
  exact start_coasts line' boxes'

theorem strokes_scaled (pieces : List DummyLine) : strokes (pieces.map (scalePiece k)) =
    (strokes pieces).map fun stroke => (scalePoint k stroke.1, k * stroke.2) := by
  unfold strokes
  rw [List.flatMap_map, List.map_flatMap]
  apply List.flatMap_congr
  intro piece _
  simp [scalePiece, ← List.map_tail]

/-- Scaled pieces have as many strokes, each of them scaled. -/
theorem strokes_agree {n n' : ℕ}
    (turns : Turns gravityWells antiGravityZones (Walk.start line boxes) n)
    (turns' : ScaledTurns k gravityWells antiGravityZones (Walk.start line' boxes') n')
    (same : (scaledWalkAt k gravityWells antiGravityZones (Walk.start line' boxes') n').pieces =
      (walkAt gravityWells antiGravityZones (Walk.start line boxes) n).pieces.map (scalePiece k)) :
    n' = n ∧ ∀ i < n,
      (scaledWalkAt k gravityWells antiGravityZones (Walk.start line' boxes') (i + 1)).line.currentPoint =
        scalePoint k (walkAt gravityWells antiGravityZones (Walk.start line boxes) (i + 1)).line.currentPoint ∧
      (scaledWalkAt k gravityWells antiGravityZones (Walk.start line' boxes') i).line.lineThickness =
        k * (walkAt gravityWells antiGravityZones (Walk.start line boxes) i).line.lineThickness := by
  have all := congrArg strokes same
  rw [strokes_scaled, turns.strokes (List.cons_ne_nil _ _), turns'.strokes (List.cons_ne_nil _ _)] at all
  have none_ : ∀ (line : Line) (boxes : List ColorBox), strokes (Walk.start line boxes).pieces = [] :=
    fun _ _ => rfl
  rw [none_, none_, List.nil_append, List.nil_append, List.map_map] at all
  have count : n' = n := by
    have lengths := congrArg List.length all
    simpa using lengths
  subst count
  refine ⟨rfl, fun i below => ?_⟩
  exact Prod.mk.inj (List.map_inj_left.mp all i (List.mem_range.mpr below))

theorem force_zero (positive : 0 < k) (other : k ≠ 1) {forces : CGVector}
    (same : scaleForce k forces = scaleVector k forces) : forces = CGVector.zero := by
  have cube : k * k * k ≠ 1 := by
    intro is
    rw [← pow_three'] at is
    exact other ((pow_eq_one_iff_of_nonneg positive.le (by norm_num)).mp is)
  have vanishes : ∀ x : ℝ, x * (1 / (k * k)) = k * x → x = 0 := by
    intro x is
    have square : k * k ≠ 0 := mul_ne_zero positive.ne' positive.ne'
    rw [mul_one_div, div_eq_iff square] at is
    have factored : (k * k * k - 1) * x = 0 := by linarith
    exact (mul_eq_zero.mp factored).resolve_left (sub_ne_zero.mpr cube)
  ext
  · exact vanishes _ (congrArg CGVector.dx same)
  · exact vanishes _ (congrArg CGVector.dy same)

/-- Where all points agree on screens of different sizes, nothing has pulled. -/
theorem coasts_of_points (positive : 0 < k) (other : k ≠ 1) {n : ℕ}
    (paired : Paired k line line' boxes boxes')
    (turns : Turns gravityWells antiGravityZones (Walk.start line boxes) n)
    (turns' : ScaledTurns k gravityWells antiGravityZones (Walk.start line' boxes') n)
    (points : ∀ i < n,
      (scaledWalkAt k gravityWells antiGravityZones (Walk.start line' boxes') (i + 1)).line.currentPoint =
        scalePoint k (walkAt gravityWells antiGravityZones (Walk.start line boxes) (i + 1)).line.currentPoint) :
    CoastsAt gravityWells (startOf line) n (walkAt gravityWells antiGravityZones (Walk.start line boxes) n) ∧
      CoastsAt (gravityWells.map (scaleWell k)) (scaleStart k (startOf line)) n
        (scaledWalkAt k gravityWells antiGravityZones (Walk.start line' boxes') n) ∧
      ∀ i < n, forcesAt gravityWells antiGravityZones (coastPoint (startOf line) i) = some CGVector.zero := by
  induction n with
  | zero =>
    exact ⟨start_coasts line boxes, paired.coasts, fun i below => absurd below (Nat.not_lt_zero i)⟩
  | succ n ih =>
    obtain ⟨coasts, coasts', free⟩ := ih turns.of_succ turns'.of_succ
      (fun i below => points i (Nat.lt_succ_of_lt below))
    obtain ⟨forces, found, moves⟩ := turns.moves (Nat.lt_succ_self n)
    obtain ⟨forces', found', moves'⟩ := turns'.moves (Nat.lt_succ_self n)
    rw [coasts.point] at found
    rw [coasts'.point, coastPoint_scaled, forcesAt_scaled positive, found] at found'
    obtain rfl : scaleForce k forces = forces' := Option.some.inj found'
    -- the next points agree only if the force is the scaled one
    have next := points n (Nat.lt_succ_self n)
    rw [moves.point, moves'.point, moves.velocity, moves'.velocity, coasts.velocity, coasts'.velocity,
      coasts.point, coasts'.point, coastPoint_scaled] at next
    have same : scaleForce k forces = scaleVector k forces := by
      have x := congrArg CGPoint.x next
      have y := congrArg CGPoint.y next
      simp only [scalePoint, scaleStart, scaleVector, CGPoint.add_x, CGPoint.add_y, CGVector.add_dx,
        CGVector.add_dy] at x y
      ext <;> simp only [scaleVector] <;> linarith
    obtain rfl := force_zero positive other same
    rw [scaleForce_zero] at moves'
    refine ⟨coasts.next moves, coasts'.next moves', fun i below => ?_⟩
    rcases Nat.lt_succ_iff_lt_or_eq.mp below with earlier | rfl
    · exact free i earlier
    · exact found

/-- One line: its path is scaled exactly if it coasts. -/
theorem pieces_scaled_iff (positive : 0 < k) (paired : Paired k line line' boxes boxes') {fuel fuel' : ℕ}
    {w w' : Walk} (success : predictLine fuel gravityWells antiGravityZones boxes line = some w)
    (success' : predictLine fuel' (gravityWells.map (scaleWell k)) (antiGravityZones.map (scaleZone k))
      boxes' line' = some w')
    (exact_ : w.line.levelCountDistance ≠ none) (exact_' : w'.line.levelCountDistance ≠ none) :
    w'.pieces = w.pieces.map (scalePiece k) ↔
      k = 1 ∨ Coasts gravityWells antiGravityZones k (startOf line) := by
  obtain ⟨n, turns, rfl, leaves⟩ := predictLine_turns success exact_
  obtain ⟨n', turns', rfl, leaves'⟩ := predictLine_turns success' exact_'
  obtain ⟨scaled, thickness⟩ := paired.scaled
  constructor
  · intro same
    by_cases one : k = 1
    · exact .inl one
    obtain ⟨rfl, agree⟩ := strokes_agree turns turns' same
    have along : ∀ i ≤ n', Turns gravityWells antiGravityZones (Walk.start line boxes) i ∧
        ScaledTurns k gravityWells antiGravityZones (Walk.start line' boxes') i :=
      fun i most => ⟨fun j below => turns j (lt_of_lt_of_le below most),
        fun j below => turns' j (lt_of_lt_of_le below most)⟩
    have coasting := fun i (most : i ≤ n') => coasts_of_points positive one paired (along i most).1
      (along i most).2 fun j below => (agree j (lt_of_lt_of_le below most)).1
    obtain ⟨coasts, coasts', free⟩ := coasting n' (le_refl n')
    refine .inr ⟨n', fun i below => ⟨free i below, ?_, ?_, ?_⟩, ?_, ?_⟩
    · exact (coasting i below.le).1.guard_iff.mp (turns i below).1
    · exact (coasting i below.le).2.1.guard_iff.mp (turns' i below).1
    · rw [← (coasting i below.le).1.thickness, ← (coasting i below.le).2.1.thickness]
      exact (agree i below).2
    · exact fun lasts => leaves (coasts.guard_iff.mpr lasts)
    · exact fun lasts => leaves' (coasts'.guard_iff.mpr lasts)
  · rintro (rfl | ⟨m, free, ends, ends'⟩)
    · obtain ⟨turnsAgain, thicknessAfter, after⟩ := scaled.along_one thickness turns
      have exits := turnsAgain.exits fun enters => leaves ((after.guard_one thicknessAfter).mp enters)
      obtain rfl : n' = n := Loop.ExitsAt.unique _ (turns'.exits leaves') exits
      exact after.pieces
    · have unpulled : ∀ i < m, forcesAt (gravityWells.map (scaleWell k)) (antiGravityZones.map (scaleZone k))
          (coastPoint (scaleStart k (startOf line)) i) = some CGVector.zero := by
        intro i below
        rw [coastPoint_scaled, forcesAt_scaled positive, (free i below).1, Option.map_some,
          scaleForce_zero]
      have coasts := fun i (most : i ≤ m) => coasts_along antiGravityZones
        (start_coasts line boxes) fun j below =>
          ⟨(free j (lt_of_lt_of_le below most)).1, (free j (lt_of_lt_of_le below most)).2.1⟩
      have coasts' := fun i (most : i ≤ m) => coasts_along (antiGravityZones.map (scaleZone k))
        paired.coasts fun j below =>
          ⟨unpulled j (lt_of_lt_of_le below most), (free j (lt_of_lt_of_le below most)).2.2.1⟩
      -- both loops end at the turn the condition names
      have exits : (Walk.loop gravityWells antiGravityZones).ExitsAt (Walk.start line boxes) m :=
        ⟨fun i below => (coasts i below.le).guard_iff.mpr (free i below).2.1,
          fun enters => ends ((coasts m (le_refl m)).guard_iff.mp enters)⟩
      have exits' : (Walk.loop (gravityWells.map (scaleWell k)) (antiGravityZones.map (scaleZone k))).ExitsAt
          (Walk.start line' boxes') m :=
        ⟨fun i below => (coasts' i below.le).guard_iff.mpr (free i below).2.2.1,
          fun enters => ends' ((coasts' m (le_refl m)).guard_iff.mp enters)⟩
      obtain rfl : n = m := Loop.ExitsAt.unique _ (turns.exits leaves) exits
      obtain rfl : n' = n := Loop.ExitsAt.unique _ (turns'.exits leaves') exits'
      refine (scaled.along positive turns turns' (fun i below => ?_) fun i below => ?_).pieces
      · rw [(coasts i below.le).point]
        exact (free i below).1
      · rw [(coasts i below.le).thickness, (coasts' i below.le).thickness]
        exact (free i below).2.2.2

end Line

section Prediction
variable {k : ℝ} {gravityWells : List GravityWell} {antiGravityZones : List AntiGravityZone}

/-- No flag of a box is up for the line. -/
def Clear (uuid : String) (boxes : List ColorBox) : Prop := ∀ box ∈ boxes, flags uuid box = (false, false)

theorem Clear.after {uuid other : String} {boxes boxes' : List ColorBox} (clear : Clear other boxes)
    (different : other ≠ uuid) (frame : BoxesSameFor uuid boxes boxes') : Clear other boxes' := by
  induction frame with
  | nil => exact clear
  | cons same _ ih =>
    obtain ⟨first, rest⟩ := List.forall_mem_cons.mp clear
    refine List.forall_mem_cons.mpr ⟨?_, ih rest⟩
    rw [same.flags_eq different, first]

theorem Clear.flagged {uuid uuid' : String} {R : ColorBox → ColorBox → Prop} {boxes boxes' : List ColorBox}
    (clear : Clear uuid boxes) (clear' : Clear uuid' boxes') (places : List.Forall₂ R boxes boxes') :
    List.Forall₂ (fun box box' => flags uuid' box' = flags uuid box) boxes boxes' := by
  induction places with
  | nil => exact List.Forall₂.nil
  | cons _ _ ih =>
    obtain ⟨first, rest⟩ := List.forall_mem_cons.mp clear
    obtain ⟨first', rest'⟩ := List.forall_mem_cons.mp clear'
    exact List.Forall₂.cons (first'.trans first.symm) (ih rest rest')

/-- All lines of a level on both screens, before the loop over them. -/
theorem paths_scaled_of_clear (positive : 0 < k) {lines lines' : List Line} {boxes boxes' : List ColorBox}
    (starts : lines'.map startOf = (lines.map startOf).map (scaleStart k))
    (places : List.Forall₂ (fun box box' => ∀ p, Alike box box' p (scalePoint k p)) boxes boxes')
    (clear : ∀ line ∈ lines, Clear line.uuid boxes) (clear' : ∀ line ∈ lines', Clear line.uuid boxes')
    (distinct : (lines.map Line.uuid).Nodup) (distinct' : (lines'.map Line.uuid).Nodup)
    {fuel fuel' : ℕ} {prediction prediction' : Prediction}
    (success : getPredictedPaths fuel gravityWells antiGravityZones boxes lines = some prediction)
    (success' : getPredictedPaths fuel' (gravityWells.map (scaleWell k)) (antiGravityZones.map (scaleZone k))
      boxes' lines' = some prediction')
    (exact_ : ∀ line ∈ prediction.lines, line.levelCountDistance ≠ none)
    (exact_' : ∀ line ∈ prediction'.lines, line.levelCountDistance ≠ none) :
    prediction'.paths = prediction.paths.map (List.map (scalePiece k)) ↔
      k = 1 ∨ ∀ line ∈ lines, Coasts gravityWells antiGravityZones k (startOf line) := by
  induction lines generalizing lines' boxes boxes' prediction prediction' with
  | nil =>
    obtain rfl := List.map_eq_nil_iff.mp starts
    cases success
    cases success'
    simp
  | cons line rest ih =>
    rw [List.map_cons, List.map_cons] at starts
    obtain ⟨line', rest', rfl, start, startsRest⟩ := List.map_eq_cons_iff.mp starts
    obtain ⟨fresh, distinctRest⟩ := List.nodup_cons.mp distinct
    obtain ⟨fresh', distinctRest'⟩ := List.nodup_cons.mp distinct'
    obtain ⟨clearLine, clearRest⟩ := List.forall_mem_cons.mp clear
    obtain ⟨clearLine', clearRest'⟩ := List.forall_mem_cons.mp clear'
    obtain ⟨walk, others, first, later, rfl⟩ := getPredictedPaths_cons.mp success
    obtain ⟨walk', others', first', later', rfl⟩ := getPredictedPaths_cons.mp success'
    obtain ⟨exactLine, exactRest⟩ := List.forall_mem_cons.mp exact_
    obtain ⟨exactLine', exactRest'⟩ := List.forall_mem_cons.mp exact_'
    have frame := (predictLine_frame first).2
    have frame' := (predictLine_frame first').2
    have different : ∀ other ∈ rest, other.uuid ≠ line.uuid := fun other member same =>
      fresh (same ▸ List.mem_map_of_mem member)
    have different' : ∀ other ∈ rest', other.uuid ≠ line'.uuid := fun other member same =>
      fresh' (same ▸ List.mem_map_of_mem member)
    have one := pieces_scaled_iff positive ⟨start, places, clearLine.flagged clearLine' places⟩ first first'
      exactLine exactLine'
    have all := ih startsRest
      (forall₂_of_frames (fun _ _ _ _ alike same same' p => (alike p).of_frames same same') places frame frame')
      (fun other member => (clearRest other member).after (different other member) frame)
      (fun other member => (clearRest' other member).after (different' other member) frame')
      distinctRest distinctRest' later later' exactRest exactRest'
    rw [List.map_cons, List.cons.injEq, one, all, List.forall_mem_cons]
    exact or_and_left.symm

end Prediction

section Level
variable {k : ℝ}

theorem boxes_clear {screen : Screen} {data : List ColorBoxData} {boxes : List ColorBox}
    (placed : Placed (boxOf screen) data boxes) (uuid : String) : Clear uuid boxes := by
  induction placed with
  | nil =>
    intro box member
    cases member
  | cons head _ ih =>
    refine List.forall_mem_cons.mpr ⟨?_, ih⟩
    obtain ⟨_, _, head⟩ := Option.bind_eq_some_iff.mp head
    obtain ⟨_, _, head⟩ := Option.bind_eq_some_iff.mp head
    obtain ⟨_, _, head⟩ := Option.bind_eq_some_iff.mp head
    obtain ⟨_, _, head⟩ := Option.bind_eq_some_iff.mp head
    cases head
    rfl

/-- For every level, screen and scale: where both predictions return and hit no
centre of a well, the paths on the scaled screen are the scaled paths exactly
if the screen is the same or every line coasts. -/
theorem paths_scaled_iff (k : ℝ) (positive : 0 < k) (fuel fuel' : ℕ) (screen : Screen)
    (uuidString uuidString' : ℕ → String) (distinct : Function.Injective uuidString)
    (distinct' : Function.Injective uuidString') (level : LevelData) (view view' : LevelView)
    (built : LevelView.init fuel screen uuidString level = some view)
    (built' : LevelView.init fuel' (scaledScreen k screen positive) uuidString' level = some view')
    (prediction prediction' : Prediction) (predicted : view.getPredictedPaths fuel = some prediction)
    (predicted' : view'.getPredictedPaths fuel' = some prediction')
    (exact_ : ∀ line ∈ prediction.lines, line.levelCountDistance ≠ none)
    (exact_' : ∀ line ∈ prediction'.lines, line.levelCountDistance ≠ none) :
    prediction'.paths = prediction.paths.map (List.map (scalePiece k)) ↔
      k = 1 ∨ ∀ line ∈ view.lines, Coasts view.gravityWells view.antiGravityZones k (startOf line) := by
  have stage := init_stage built
  have stage' := init_stage built'
  obtain ⟨starts, zones, wells, boxes⟩ := stage.scaled positive stage'
  have places : List.Forall₂ (fun box box' => ∀ p, Alike box box' p (scalePoint k p))
      view.scaledColorBoxes view'.scaledColorBoxes := by
    rw [boxes]
    exact List.forall₂_map_right_iff.mpr (List.forall₂_same.mpr fun box _ p => alike_scaled positive box p)
  unfold LevelView.getPredictedPaths at predicted predicted'
  rw [wells, zones] at predicted'
  exact paths_scaled_of_clear positive starts places (fun line _ => boxes_clear stage.boxes line.uuid)
    (fun line _ => boxes_clear stage'.boxes line.uuid)
    (PredictionFreshness.uuids_distinct distinct built rfl)
    (PredictionFreshness.uuids_distinct distinct' built' rfl)
    predicted predicted' exact_ exact_'

/-- The line of a level with one line on a screen. -/
def lineOn (screen : Screen) (velocity : CGFloat) : Line :=
  .new (screen.propToPoint ⟨1 / 2, 1 / 2⟩) (screen.propToVector ⟨velocity, 0⟩) ⟨1, 0, 0, 1⟩
    (screen.propToFloat (1 / 40) true) (uuidOf 0)

theorem oneLine_init (fuel : ℕ) (screen : Screen) (velocity : CGFloat) :
    ∃ view, LevelView.init fuel screen uuidOf (PredictionTermination.oneLine ⟨velocity, 0⟩) =
        some view ∧ view.lines = [lineOn screen velocity] ∧ view.scaledColorBoxes = [] ∧
      view.gravityWells = [] ∧ view.antiGravityZones = [] :=
  ⟨_, rfl, rfl, rfl, rfl, rfl⟩

theorem lineOn_lasts_iff (screen : Screen) (velocity : CGFloat) (i : ℕ) :
    Lasts [] (startOf (lineOn screen velocity)) i ↔
      i * |velocity * screen.width| < 700 ∧ 1 ≤ 1 / 40 * screen.width := by
  have unworn : ∀ i, wear [] (startOf (lineOn screen velocity)) i = 1 / 40 * screen.width := by
    intro i
    induction i with
    | zero => rfl
    | succ i ih => exact ih
  have speed : (startOf (lineOn screen velocity)).velocity.length = |velocity * screen.width| := by
    have flat : (startOf (lineOn screen velocity)).velocity = ⟨velocity * screen.width, 0⟩ := by
      ext <;> simp [startOf, lineOn, Line.new, Line.reset, Screen.propToVector, Screen.propToFloat]
    rw [flat]
    simp [CGVector.length, Real.sqrt_mul_self_eq_abs]
  rw [Lasts, unworn, speed]

/-- The prediction for one line on a screen, and how it goes on the doubled one. -/
theorem oneLine_predicted (screen : Screen) (velocity : CGFloat) {n fuel : ℕ} (enough : n < fuel)
    (lasts : ∀ i < n, Lasts [] (startOf (lineOn screen velocity)) i)
    (ends : ¬ Lasts [] (startOf (lineOn screen velocity)) n) :
    ∃ view prediction,
      LevelView.init fuel screen uuidOf (PredictionTermination.oneLine ⟨velocity, 0⟩) =
        some view ∧
      view.lines = [lineOn screen velocity] ∧ view.gravityWells = [] ∧ view.antiGravityZones = [] ∧
      view.getPredictedPaths fuel = some prediction ∧
      (∀ line ∈ prediction.lines, line.levelCountDistance ≠ none) ∧
      ∃ w, predictLine fuel [] [] [] (lineOn screen velocity) = some w ∧ prediction.paths = [w.pieces] ∧
        w.line.levelCountDistance ≠ none := by
  obtain ⟨view, built, lines, boxes, wells, zones⟩ := oneLine_init fuel screen velocity
  obtain ⟨w, success, exact_⟩ := predictLine_coasts [] [] (fun i below => ⟨rfl, lasts i below⟩) ends enough
  refine ⟨view, ⟨[w.pieces], [w.line], w.scaledColorBoxes⟩, built, lines, wells, zones, ?_, ?_, w, success,
    rfl, exact_⟩
  · unfold LevelView.getPredictedPaths
    rw [lines, boxes, wells, zones, getPredictedPaths_single success]
  · intro line member
    obtain rfl := List.mem_singleton.mp member
    exact exact_

theorem doubled_pos : (0 : ℝ) < 2 := two_pos

/-- Twice the phone. -/
abbrev doubled : Screen := scaledScreen 2 phone doubled_pos

theorem doubled_width : doubled.width = 800 := by
  norm_num [doubled, scaledScreen, phone]

theorem lineOn_doubled (velocity : CGFloat) :
    startOf (lineOn doubled velocity) = scaleStart 2 (startOf (lineOn phone velocity)) := by
  have position := propToPoint_scaled two_pos phone ⟨1 / 2, 1 / 2⟩
  have scaledVelocity := propToVector_scaled two_pos phone ⟨velocity, 0⟩
  have thickness := propToFloat_scaled two_pos phone (1 / 40) true
  simp only [startOf, scaleStart, lineOn, Line.new, Line.reset, position, scaledVelocity, thickness]

/-- A line of 400 points in a turn takes two turns for its budget on the phone,
and one on twice the phone. -/
theorem oneTurn_less : ∃ view view' prediction prediction',
    LevelView.init 3 phone uuidOf (PredictionTermination.oneLine ⟨1, 0⟩) = some view ∧
    LevelView.init 3 doubled uuidOf (PredictionTermination.oneLine ⟨1, 0⟩) = some view' ∧
    view.getPredictedPaths 3 = some prediction ∧ view'.getPredictedPaths 3 = some prediction' ∧
    (∀ line ∈ prediction.lines, line.levelCountDistance ≠ none) ∧
    (∀ line ∈ prediction'.lines, line.levelCountDistance ≠ none) ∧
    prediction'.paths ≠ prediction.paths.map (List.map (scalePiece 2)) := by
  have lasts := lineOn_lasts_iff phone 1
  have lasts' := lineOn_lasts_iff doubled 1
  rw [doubled_width] at lasts'
  have first : ∀ i < 2, Lasts [] (startOf (lineOn phone 1)) i := by
    intro i below
    rw [lasts]
    rcases (show i = 0 ∨ i = 1 by omega) with rfl | rfl <;> norm_num [phone]
  have first' : ∀ i < 1, Lasts [] (startOf (lineOn doubled 1)) i := by
    intro i below
    obtain rfl : i = 0 := by omega
    rw [lasts']
    norm_num
  have ends : ¬ Lasts [] (startOf (lineOn phone 1)) 2 := by
    rw [lasts]
    norm_num [phone]
  have ends' : ¬ Lasts [] (startOf (lineOn doubled 1)) 1 := by
    rw [lasts']
    norm_num
  obtain ⟨view, prediction, built, _, _, _, predicted, exact_, w, success, paths, exactLine⟩ :=
    oneLine_predicted phone 1 (by omega : 2 < 3) first ends
  obtain ⟨view', prediction', built', _, _, _, predicted', exact_', w', success', paths', exactLine'⟩ :=
    oneLine_predicted doubled 1 (by omega : 1 < 3) first' ends'
  refine ⟨view, view', prediction, prediction', built, built', predicted, predicted', exact_, exact_', ?_⟩
  have start := lineOn_doubled 1
  have paired : Paired 2 (lineOn phone 1) (lineOn doubled 1) [] [] :=
    ⟨start, List.Forall₂.nil, List.Forall₂.nil⟩
  rw [paths, paths', List.map_singleton, ne_eq, List.singleton_inj]
  rw [pieces_scaled_iff two_pos paired success success' exactLine exactLine']
  rintro (one | ⟨m, free, ends₀, _⟩)
  · norm_num at one
  · rw [List.map_nil, ← start] at free
    rcases Nat.lt_or_ge m 2 with few | many
    · exact ends₀ (first m few)
    · exact ends' (free 1 many).2.2.1

/-- A line of 800 points in a turn ends after one turn on both. -/
theorem sameTurn_scaled : ∃ view view' prediction prediction',
    LevelView.init 3 phone uuidOf (PredictionTermination.oneLine ⟨2, 0⟩) = some view ∧
    LevelView.init 3 doubled uuidOf (PredictionTermination.oneLine ⟨2, 0⟩) = some view' ∧
    view.getPredictedPaths 3 = some prediction ∧ view'.getPredictedPaths 3 = some prediction' ∧
    prediction'.paths = prediction.paths.map (List.map (scalePiece 2)) := by
  have lasts := lineOn_lasts_iff phone 2
  have lasts' := lineOn_lasts_iff doubled 2
  rw [doubled_width] at lasts'
  have first : ∀ i < 1, Lasts [] (startOf (lineOn phone 2)) i := by
    intro i below
    obtain rfl : i = 0 := by omega
    rw [lasts]
    norm_num [phone]
  have first' : ∀ i < 1, Lasts [] (startOf (lineOn doubled 2)) i := by
    intro i below
    obtain rfl : i = 0 := by omega
    rw [lasts']
    norm_num
  have ends : ¬ Lasts [] (startOf (lineOn phone 2)) 1 := by
    rw [lasts]
    norm_num [phone]
  have ends' : ¬ Lasts [] (startOf (lineOn doubled 2)) 1 := by
    rw [lasts']
    norm_num
  obtain ⟨view, prediction, built, lines, wells, zones, predicted, exact_, _⟩ :=
    oneLine_predicted phone 2 (by omega : 1 < 3) first ends
  obtain ⟨view', prediction', built', _, _, _, predicted', exact_', _⟩ :=
    oneLine_predicted doubled 2 (by omega : 1 < 3) first' ends'
  refine ⟨view, view', prediction, prediction', built, built', predicted, predicted', ?_⟩
  refine (paths_scaled_iff 2 two_pos 3 3 phone uuidOf uuidOf
    uuidOf_injective uuidOf_injective _ view view' built built' prediction
    prediction' predicted predicted' exact_ exact_').mpr (.inr fun line member => ?_)
  rw [lines] at member
  obtain rfl := List.mem_singleton.mp member
  rw [wells, zones]
  refine ⟨1, fun i below => ⟨rfl, first i below, ?_, ?_⟩, ends, ?_⟩
  · rw [← lineOn_doubled 2]
    exact first' i below
  · obtain rfl : i = 0 := by omega
    rfl
  · rw [← lineOn_doubled 2]
    exact ends'

end Level

end
end Arthius.Guarantees.PredictionScaling
