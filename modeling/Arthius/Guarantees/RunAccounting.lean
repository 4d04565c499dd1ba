import Mathlib.Algebra.Order.Floor.Semiring
import Arthius.Guarantees.DrawnSegments
import Arthius.Source.DoubleRounding

/-!
# The accounts of a prediction

After any number of completed turns the loop for a line has counted, in exact
arithmetic, the length of the edges it has drawn, and it has taken off the line
one unit for each erosion, never more than there are. A loop that is over has then
gone 700 or left the line thinner than one. In `Double` the edges join rounded
points, and the counter adds the rounded lengths of the velocities.
-/
namespace Arthius.Guarantees.RunAccounting
open Arthius.Lib Arthius.Source PredictionFrame PredictionTermination DrawnSegments

noncomputable section

section Erosion
variable (p : CGPoint)

/-- How often the collision loop takes a unit off the line. -/
def erosions : CGFloat → List GravityWell → ℕ
  | _, [] => 0
  | lineThickness, gravWell :: rest =>
    let collide := Circle.collidesWith ⟨p, lineThickness / 2⟩ ⟨gravWell.corePoint, gravWell.coreDiameter / 2⟩
    if collide ∧ lineThickness ≥ 1 then erosions (lineThickness - 1) rest + 1
    else erosions lineThickness rest

theorem handleCollisions_eq (lineThickness : CGFloat) (gravityWells : List GravityWell) :
    handleCollisions p lineThickness gravityWells = lineThickness - erosions p lineThickness gravityWells := by
  induction gravityWells generalizing lineThickness with
  | nil => simp [handleCollisions, erosions]
  | cons gravWell rest ih =>
    unfold handleCollisions erosions
    dsimp only
    split_ifs
    · rw [ih]
      push_cast
      ring
    · exact ih lineThickness

theorem erosions_le_length (lineThickness : CGFloat) (gravityWells : List GravityWell) :
    erosions p lineThickness gravityWells ≤ gravityWells.length := by
  induction gravityWells generalizing lineThickness with
  | nil => exact Nat.zero_le _
  | cons gravWell rest ih =>
    unfold erosions
    dsimp only
    rw [List.length_cons]
    split_ifs
    · exact Nat.succ_le_succ (ih _)
    · exact (ih _).trans (Nat.le_succ _)

theorem erosions_le_thickness {lineThickness : CGFloat} (thick : 0 ≤ lineThickness)
    (gravityWells : List GravityWell) : (erosions p lineThickness gravityWells : ℝ) ≤ lineThickness := by
  induction gravityWells generalizing lineThickness with
  | nil => simpa [erosions] using thick
  | cons gravWell rest ih =>
    unfold erosions
    dsimp only
    split_ifs with touched
    · have left := ih (sub_nonneg.mpr touched.2)
      push_cast
      linarith
    · exact ih thick

end Erosion

section Lengths

/-- An edge to or from a point that is no number has no length. -/
def edgeLength (p q : Option CGPoint) : Option CGFloat := p.bind fun p => q.map (distance p)

/-- The edges that have been appended to the pieces of a line. -/
def edges (w : Walk) : List (Option CGPoint × Option CGPoint) :=
  ((w.pieces.map piece).flatMap Piece.strokes).map Prod.fst

def drawnLength (w : Walk) : Option CGFloat := edgesLength edgeLength (edges w)

/-- The edges that have been appended to the line itself. -/
def pathEdges (line : Line) : List (CGPoint × CGPoint) :=
  match line.linePath with
  | [] => []
  | first :: rest => Piece.edgesFrom first rest

def pathLength (line : Line) : Option CGFloat :=
  edgesLength (fun p q => some (distance p q)) (pathEdges line)

theorem distance_add (p : CGPoint) (v : CGVector) : distance p (p + ⟨v.dx, v.dy⟩) = v.length := by
  unfold distance CGVector.length
  simp only [CGPoint.add_x, CGPoint.add_y, sub_add_cancel_left, neg_mul_neg]

end Lengths

section Turn
variable {gravityWells : List GravityWell} {antiGravityZones : List AntiGravityZone} {w : Walk}

/-- A turn counts the edge it draws. -/
theorem body_distance (enters : w.guard) :
    (w.body gravityWells antiGravityZones).line.levelCountDistance =
      w.line.levelCountDistance.bind fun way =>
        (edgeLength (position w) (position (w.body gravityWells antiGravityZones))).map (way + ·) := by
  obtain ⟨way, counted, _⟩ := enters.1
  have counts := Option.mem_def.mp counted
  rw [position_of_guard enters, counts, Option.bind_some]
  rcases body_cases gravityWells antiGravityZones enters with ⟨forces, _, is⟩ | ⟨_, is⟩
  · rw [is, position]
    simp [counts, edgeLength, ← distance_add w.line.currentPoint]
  · rw [is]
    rfl

/-- What the loop has appended to the path of the line. -/
structure Counted (w : Walk) : Prop where
  path : ∃ first rest, w.line.linePath = first :: rest ∧ rest.getLastD first = w.line.currentPoint
  length : ∀ way ∈ w.line.levelCountDistance, pathLength w.line = some way

variable (gravityWells antiGravityZones) in
theorem Counted.body (before : Counted w) (enters : w.guard) :
    Counted (w.body gravityWells antiGravityZones) := by
  obtain ⟨first, rest, path, last⟩ := before.path
  obtain ⟨way, counted, _⟩ := enters.1
  have length := before.length way counted
  rcases body_cases gravityWells antiGravityZones enters with ⟨forces, _, is⟩ | ⟨_, is⟩
  · let moved := w.split.move gravityWells forces
    have longer : moved.line.linePath = first :: (rest ++ [moved.line.currentPoint]) := by
      rw [move_linePath, split_line, path, List.cons_append]
    have step : distance w.line.currentPoint moved.line.currentPoint =
        (w.line.lineVelocity + forces / Line.lineMass).length := by
      rw [move_currentPoint, split_line, distance_add]
    have further : moved.line.levelCountDistance =
        some (way + distance w.line.currentPoint moved.line.currentPoint) := by
      rw [step, move_levelCountDistance, split_line, Option.mem_def.mp counted, Option.map_some]
    rw [is]
    refine ⟨⟨first, rest ++ [moved.line.currentPoint], longer, List.getLastD_concat⟩, fun next here => ?_⟩
    obtain rfl := Option.some.inj (further.symm.trans here)
    rw [pathLength, pathEdges, path] at length
    rw [pathLength, pathEdges, longer]
    dsimp only
    rw [Piece.edgesFrom_append, edgesLength_concat, length, last, Option.bind_some, Option.map_some]
  · rw [is]
    refine ⟨⟨first, rest, ?_, ?_⟩, fun next is => nomatch is⟩
    · rw [← path, ← split_line w]
      rfl
    · rw [last, ← split_line w]
      rfl

variable (gravityWells antiGravityZones) in
/-- The erosions of a turn. A line that is nowhere touches no core. -/
def erosionsIn (w : Walk) : ℕ :=
  (forcesAt gravityWells antiGravityZones w.line.currentPoint).elim 0 fun _ =>
    erosions (w.body gravityWells antiGravityZones).line.currentPoint w.line.lineThickness gravityWells

theorem body_thickness (enters : w.guard) :
    (w.body gravityWells antiGravityZones).line.lineThickness =
      w.line.lineThickness - erosionsIn gravityWells antiGravityZones w := by
  rcases body_cases gravityWells antiGravityZones enters with ⟨forces, found, is⟩ | ⟨lost, is⟩
  · rw [erosionsIn, found, Option.elim_some, is, move_lineThickness, handleCollisions_eq, split_line]
  · rw [erosionsIn, lost, Option.elim_none, is, lose_lineThickness, split_line, Nat.cast_zero, sub_zero]

theorem erosionsIn_le_length : erosionsIn gravityWells antiGravityZones w ≤ gravityWells.length := by
  unfold erosionsIn
  cases forcesAt gravityWells antiGravityZones w.line.currentPoint with
  | none => exact Nat.zero_le _
  | some forces => exact erosions_le_length _ _ _

theorem erosionsIn_le_thickness (thick : 0 ≤ w.line.lineThickness) :
    (erosionsIn gravityWells antiGravityZones w : ℝ) ≤ w.line.lineThickness := by
  unfold erosionsIn
  cases forcesAt gravityWells antiGravityZones w.line.currentPoint with
  | none => simpa using thick
  | some forces => exact erosions_le_thickness _ thick _

end Turn

section Run
variable (gravityWells : List GravityWell) (antiGravityZones : List AntiGravityZone)
variable (scaledColorBoxes : List ColorBox) (line : Line) (n : ℕ)

/-- The erosions of the first `n` turns. -/
def eroded : ℕ :=
  ∑ i ∈ Finset.range n, erosionsIn gravityWells antiGravityZones
    (turn gravityWells antiGravityZones scaledColorBoxes line i)

/-- The accounts after `n` turns. -/
structure Accounts : Prop where
  drawn : drawnLength (turn gravityWells antiGravityZones scaledColorBoxes line n) =
    (turn gravityWells antiGravityZones scaledColorBoxes line n).line.levelCountDistance
  path : ∀ way ∈ (turn gravityWells antiGravityZones scaledColorBoxes line n).line.levelCountDistance,
    pathLength (turn gravityWells antiGravityZones scaledColorBoxes line n).line = some way
  below : ∀ i, i + 1 = n → ∃ way ∈
    (turn gravityWells antiGravityZones scaledColorBoxes line i).line.levelCountDistance, way < 700
  thickness : (turn gravityWells antiGravityZones scaledColorBoxes line n).line.lineThickness =
    line.startThickness - eroded gravityWells antiGravityZones scaledColorBoxes line n
  nonneg : 0 ≤ (turn gravityWells antiGravityZones scaledColorBoxes line n).line.lineThickness
  drop : ∀ i, i + 1 = n →
    (turn gravityWells antiGravityZones scaledColorBoxes line i).line.lineThickness -
      (turn gravityWells antiGravityZones scaledColorBoxes line n).line.lineThickness ≤ gravityWells.length
  erosions : eroded gravityWells antiGravityZones scaledColorBoxes line n ≤ ⌊line.startThickness⌋₊
  exit : ¬ (turn gravityWells antiGravityZones scaledColorBoxes line n).guard →
    (∃ way ∈ (turn gravityWells antiGravityZones scaledColorBoxes line n).line.levelCountDistance,
      700 ≤ way) ∨
    (turn gravityWells antiGravityZones scaledColorBoxes line n).line.lineThickness < 1

/-- The first `n` turns are entered and completed: at a point that is no number,
`newLocation` would set the frame of a layer to it, which raises. -/
def Completes : Prop := ∀ i < n, (turn gravityWells antiGravityZones scaledColorBoxes line i).guard ∧
  forcesAt gravityWells antiGravityZones
    (turn gravityWells antiGravityZones scaledColorBoxes line i).line.currentPoint ≠ none

variable {gravityWells antiGravityZones scaledColorBoxes line n}

theorem edges_turn (completed : ∀ i < n,
      (turn gravityWells antiGravityZones scaledColorBoxes line i).guard) :
    edges (turn gravityWells antiGravityZones scaledColorBoxes line n) = (List.range n).map fun i =>
      (position (turn gravityWells antiGravityZones scaledColorBoxes line i),
        position (turn gravityWells antiGravityZones scaledColorBoxes line (i + 1))) := by
  change (strokesOf _).map Prod.fst = _
  rw [strokesOf_turn completed, List.map_map]
  rfl

/-- The loop has counted the edges of the pieces. -/
theorem drawnLength_turn (completed : ∀ i < n,
      (turn gravityWells antiGravityZones scaledColorBoxes line i).guard) :
    drawnLength (turn gravityWells antiGravityZones scaledColorBoxes line n) =
      (turn gravityWells antiGravityZones scaledColorBoxes line n).line.levelCountDistance := by
  induction n with
  | zero => rfl
  | succ n ih =>
    have earlier := fun i below => completed i (Nat.lt_succ_of_lt below)
    have before := ih earlier
    rw [drawnLength, edges_turn earlier] at before
    rw [drawnLength, edges_turn completed, List.range_succ, List.map_append, List.map_singleton,
      edgesLength_concat, before, turn_succ, body_distance (completed n (Nat.lt_succ_self n))]

theorem counted_turn (completed : ∀ i < n,
      (turn gravityWells antiGravityZones scaledColorBoxes line i).guard) :
    Counted (turn gravityWells antiGravityZones scaledColorBoxes line n) := by
  refine (Walk.loop gravityWells antiGravityZones).after_invariant
    (fun w before enters => before.body gravityWells antiGravityZones enters) ?_ completed
  refine ⟨⟨line.startPosition, [], rfl, rfl⟩, fun way is => ?_⟩
  obtain rfl := Option.some.inj is
  rfl

theorem thickness_turn (completed : ∀ i < n,
      (turn gravityWells antiGravityZones scaledColorBoxes line i).guard) :
    (turn gravityWells antiGravityZones scaledColorBoxes line n).line.lineThickness =
      line.startThickness - eroded gravityWells antiGravityZones scaledColorBoxes line n := by
  induction n with
  | zero =>
    rw [eroded, Finset.range_zero, Finset.sum_empty, Nat.cast_zero, sub_zero]
    rfl
  | succ n ih =>
    have before := ih fun i below => completed i (Nat.lt_succ_of_lt below)
    rw [turn_succ, body_thickness (completed n (Nat.lt_succ_self n)), before, eroded, eroded,
      Finset.sum_range_succ]
    push_cast
    ring

theorem thickness_nonneg (thick : 0 ≤ line.startThickness) (completed : ∀ i < n,
      (turn gravityWells antiGravityZones scaledColorBoxes line i).guard) :
    0 ≤ (turn gravityWells antiGravityZones scaledColorBoxes line n).line.lineThickness := by
  cases n with
  | zero => exact thick
  | succ n =>
    have enters := completed n (Nat.lt_succ_self n)
    rw [turn_succ, body_thickness enters, sub_nonneg]
    exact erosionsIn_le_thickness (zero_le_one.trans enters.2.1)

theorem turn_follows (completes : Completes gravityWells antiGravityZones scaledColorBoxes line n) :
    Follows gravityWells antiGravityZones line n
      (turn gravityWells antiGravityZones scaledColorBoxes line n) := by
  induction n with
  | zero => exact start_follows scaledColorBoxes
  | succ n ih =>
    have before := ih fun i below => completes i (Nat.lt_succ_of_lt below)
    obtain ⟨enters, pulled⟩ := completes n (Nat.lt_succ_self n)
    rw [turn_succ]
    exact before.body enters (before.point ▸ pulled)

/-- What a loop that is over has come to. -/
theorem exit_turn (completes : Completes gravityWells antiGravityZones scaledColorBoxes line n)
    (ended : ¬ (turn gravityWells antiGravityZones scaledColorBoxes line n).guard) :
    (∃ way ∈ (turn gravityWells antiGravityZones scaledColorBoxes line n).line.levelCountDistance,
      700 ≤ way) ∨
    (turn gravityWells antiGravityZones scaledColorBoxes line n).line.lineThickness < 1 := by
  have follows := turn_follows completes
  rw [follows.guard_iff, not_and_or, not_lt, not_le] at ended
  rcases ended with far | thin
  · exact .inl ⟨_, follows.distance, far⟩
  · exact .inr (follows.thickness ▸ thin)

/-- The accounts hold after every number of completed turns. -/
theorem accounts_of_completes (gravityWells : List GravityWell) (antiGravityZones : List AntiGravityZone)
    (scaledColorBoxes : List ColorBox) (line : Line) (thick : 0 ≤ line.startThickness) (n : ℕ)
    (completes : Completes gravityWells antiGravityZones scaledColorBoxes line n) :
    Accounts gravityWells antiGravityZones scaledColorBoxes line n := by
  have completed := fun i below => (completes i below).1
  have worn := thickness_turn completed
  have left := thickness_nonneg thick completed
  refine ⟨drawnLength_turn completed, (counted_turn completed).length, ?_, worn, left, ?_, ?_,
    exit_turn completes⟩
  · rintro i rfl
    exact (completed i (Nat.lt_succ_self i)).1
  · rintro i rfl
    rw [turn_succ, body_thickness (completed i (Nat.lt_succ_self i)), sub_sub_cancel]
    exact_mod_cast erosionsIn_le_length
  · rw [worn, sub_nonneg] at left
    exact Nat.le_floor left

/-- Two turns of a line that a core takes one unit off. -/
theorem wornLine_accounts : Accounts [stone] [] [] wornLine 2 := by
  refine accounts_of_completes [stone] [] [] wornLine (by norm_num [wornLine, Line.new, Line.reset]) 2 ?_
  intro i below
  refine ⟨(reaches_iff [] 1).mp wornLine_reaches i (Nat.le_of_lt_succ below), ?_⟩
  rw [PlayerWells.forcesAt_of_idle stone_idle]
  exact Option.some_ne_none _

end Run

section Rounded

/-- In exact arithmetic, a turn of a line that nothing pulls is one of the loop. -/
theorem freeLine_exact (boxes : List ColorBox) (line : Line) (thick : 1 ≤ line.startThickness) :
    let free := (FreeLine.start line).turn id
    let moved := (turn [] [] boxes line 1).line
    moved.currentPoint = free.currentPoint ∧ moved.lineVelocity = free.lineVelocity ∧
      moved.levelCountDistance = some free.levelCountDistance := by
  have enters : (turn [] [] boxes line 0).guard := ⟨⟨0, rfl, by norm_num⟩, thick, rfl⟩
  intro free moved
  rcases body_cases [] [] enters with ⟨forces, found, is⟩ | ⟨lost, _⟩
  · obtain rfl : CGVector.zero = forces := Option.some.inj found
    have moves : moved = ((turn [] [] boxes line 0).split.move [] CGVector.zero).line := by
      rw [← is, ← turn_succ]
    rw [moves, move_currentPoint, move_lineVelocity, move_levelCountDistance, split_line]
    exact ⟨rfl, rfl, rfl⟩
  · cases lost

/-- A line that hardly moves. -/
def tinyLine : Line := .new ⟨200, 400⟩ ⟨25 / 2 ^ 56, 0⟩ ⟨1, 0, 0, 1⟩ 10 "tiny"

theorem tinyLine_velocity : double (25 / 2 ^ 56) = 25 / 2 ^ 56 := by
  have rounded : binary64.round (25 / 2 ^ 56 : ℝ) = ((7036874417766400 : ℤ) : ℝ) * 2 ^ (-104 : ℤ) := by
    refine BinaryFormat.round_eq_of_leading (k := -52) rfl (by decide) ?_ ?_ ?_ <;> norm_num [abs_lt]
  rw [double, rounded]
  norm_num

theorem tinyLine_square : double (625 / 2 ^ 112) = 625 / 2 ^ 112 := by
  have rounded : binary64.round (625 / 2 ^ 112 : ℝ) = ((5497558138880000 : ℤ) : ℝ) * 2 ^ (-155 : ℤ) := by
    refine BinaryFormat.round_eq_of_leading (k := -103) rfl (by decide) ?_ ?_ ?_ <;> norm_num [abs_lt]
  rw [double, rounded]
  norm_num

/-- The velocity is lost beside the point. -/
theorem tinyLine_stays : double (200 + 25 / 2 ^ 56) = 200 := by
  have rounded : binary64.round (200 + 25 / 2 ^ 56 : ℝ) = ((7036874417766400 : ℤ) : ℝ) * 2 ^ (-45 : ℤ) := by
    refine BinaryFormat.round_eq_of_leading (k := 7) rfl (by decide) ?_ ?_ ?_ <;> norm_num [abs_lt]
  rw [double, rounded]
  norm_num

/-- Its first turn draws an edge of length zero and counts a way. -/
theorem tinyLine_miscounted :
    ((FreeLine.start tinyLine).turn double).currentPoint = tinyLine.startPosition ∧
    ((FreeLine.start tinyLine).turn double).levelCountDistance = 25 / 2 ^ 56 ∧
    ((FreeLine.start tinyLine).turn double).levelCountDistance ≠
      distance tinyLine.startPosition ((FreeLine.start tinyLine).turn double).currentPoint := by
  have start : FreeLine.start tinyLine = ⟨⟨200, 400⟩, ⟨25 / 2 ^ 56, 0⟩, 0⟩ := rfl
  have below : double 400 = 400 := by exact_mod_cast double_natCast (n := 400) (by norm_num)
  have square : (25 / 2 ^ 56 * (25 / 2 ^ 56) : ℝ) = 625 / 2 ^ 112 := by norm_num
  have root : Real.sqrt (625 / 2 ^ 112) = 25 / 2 ^ 56 := by
    rw [← square, Real.sqrt_mul_self (by norm_num)]
  have point : ((FreeLine.start tinyLine).turn double).currentPoint = tinyLine.startPosition := by
    simp only [start, FreeLine.turn, zero_div, double_zero, add_zero, tinyLine_velocity, tinyLine_stays, below]
    rfl
  have way : ((FreeLine.start tinyLine).turn double).levelCountDistance = 25 / 2 ^ 56 := by
    simp only [start, FreeLine.turn, zero_div, double_zero, add_zero, zero_add, roundedLength, mul_zero,
      tinyLine_velocity, square, tinyLine_square, root]
  refine ⟨point, way, ?_⟩
  rw [way, point]
  simp [distance]

end Rounded
end
end Arthius.Guarantees.RunAccounting
