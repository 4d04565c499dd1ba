import Arthius.Lib.Polyline
import Arthius.Guarantees.PlayerWells
import Arthius.Guarantees.PredictionTermination

/-!
# The drawn segments are the trajectory

The pieces that the loop for a line leaves are those of a polyline through the
points the loop moved the line through. Each edge has the colour and the
thickness that the line had before it; the last point is `none` when the line
ended at a point that is no number.
-/
namespace Arthius.Guarantees.DrawnSegments
open Arthius.Lib Arthius.Source PredictionFrame PredictionTermination

noncomputable section

/-- Where the loop has the line. -/
def position (w : Walk) : Option CGPoint := w.line.levelCountDistance.map fun _ => w.line.currentPoint

/-- How the line looks. -/
def look (w : Walk) : Color × CGFloat := (w.line.lineColor, w.line.lineThickness)

/-- A `DummyLine` as a piece of a polyline. -/
def piece (line : DummyLine) : Piece (Option CGPoint) (Color × CGFloat) where
  first := line.linePath.head?
  rest := line.linePath.tail.map some ++ if line.lost then [none] else []
  label := (line.lineColor, line.lineThickness)

section Piece
variable {line : DummyLine} (p : CGPoint)

theorem piece_newLocation (begun : line.linePath ≠ []) (found : line.lost = false) :
    piece (line.newLocation p) = (piece line).extend (some p) := by
  cases path : line.linePath with
  | nil => exact absurd path begun
  | cons first rest => simp [piece, DummyLine.newLocation, Piece.extend, path, found]

theorem piece_newLocationNowhere (found : line.lost = false) :
    piece line.newLocationNowhere = (piece line).extend none := by
  simp [piece, DummyLine.newLocationNowhere, Piece.extend, found]

theorem piece_new (color : Color) (thickness : CGFloat) :
    piece (.new p color thickness) = ⟨some p, [], (color, thickness)⟩ := rfl

end Piece

/-- The polyline is what the loop has drawn so far. -/
structure DrawnBy (polyline : Polyline (Option CGPoint) (Color × CGFloat)) (w : Walk) : Prop where
  earlier : polyline.earlier = w.linesForLine.map piece
  current : polyline.current = piece w.currentLine
  ends : polyline.current.last = position w
  begun : w.currentLine.linePath ≠ []
  here : ∀ p ∈ position w, w.currentLine.currentPoint = p ∧ w.currentLine.lost = false

theorem DrawnBy.pieces {polyline : Polyline (Option CGPoint) (Color × CGFloat)} {w : Walk}
    (drawn : DrawnBy polyline w) : polyline.pieces = w.pieces.map piece := by
  simp [Polyline.pieces, Walk.pieces, drawn.earlier, drawn.current]

section Turn
variable {gravityWells : List GravityWell} {antiGravityZones : List AntiGravityZone} {w : Walk}

theorem position_of_guard (enters : w.guard) : position w = some w.line.currentPoint := by
  obtain ⟨⟨distance, found, _⟩, _⟩ := enters
  rw [position, Option.mem_def.mp found]
  rfl

variable (gravityWells antiGravityZones) in
/-- A turn adds one edge to the piece that is current after the split. -/
theorem body_edge (enters : w.guard) (begun : w.split.currentLine.linePath ≠ [])
    (found : w.split.currentLine.lost = false) :
    (w.body gravityWells antiGravityZones).linesForLine = w.split.linesForLine ∧
    piece (w.body gravityWells antiGravityZones).currentLine =
      (piece w.split.currentLine).extend (position (w.body gravityWells antiGravityZones)) ∧
    (w.body gravityWells antiGravityZones).currentLine.linePath ≠ [] ∧
    ∀ p ∈ position (w.body gravityWells antiGravityZones),
      (w.body gravityWells antiGravityZones).currentLine.currentPoint = p ∧
        (w.body gravityWells antiGravityZones).currentLine.lost = false := by
  obtain ⟨distance, counted, _⟩ := enters.1
  rcases body_cases gravityWells antiGravityZones enters with ⟨forces, _, is⟩ | ⟨_, is⟩
  · have goes : position (w.body gravityWells antiGravityZones) =
        some (w.body gravityWells antiGravityZones).currentLine.currentPoint := by
      rw [is, position, move_levelCountDistance, split_line, Option.mem_def.mp counted]
      rfl
    rw [goes]
    refine ⟨by rw [is]; rfl, ?_, ?_, ?_⟩
    · rw [is]
      exact piece_newLocation _ begun found
    · rw [is]
      exact List.append_ne_nil_of_right_ne_nil _ (List.cons_ne_nil _ _)
    · intro p here
      exact ⟨Option.some.inj here, by rw [is]; exact found⟩
  · have nowhere : position (w.body gravityWells antiGravityZones) = none := by
      rw [is]
      rfl
    rw [nowhere]
    refine ⟨by rw [is]; rfl, ?_, ?_, by simp⟩
    · rw [is]
      exact piece_newLocationNowhere found
    · rw [is]
      exact begun

theorem look_eq_iff : look w = (piece w.currentLine).label ↔
    ¬ (w.line.lineThickness ≠ w.currentLine.lineThickness ∨
      w.line.lineColor ≠ w.currentLine.lineColor) := by
  rw [look, piece, Prod.mk.injEq, not_or, not_not, not_not, and_comm]

variable (gravityWells antiGravityZones) in
/-- A turn of the loop draws one edge, in the look the line had before it. -/
theorem DrawnBy.body {polyline : Polyline (Option CGPoint) (Color × CGFloat)}
    (drawn : DrawnBy polyline w) (enters : w.guard) :
    DrawnBy (polyline.draw (look w) (position (w.body gravityWells antiGravityZones)))
      (w.body gravityWells antiGravityZones) := by
  have at_ := position_of_guard enters
  obtain ⟨point, found⟩ := drawn.here _ at_
  by_cases same : look w = polyline.current.label
  · have kept : w.split = w := if_neg (look_eq_iff.mp (drawn.current ▸ same))
    obtain ⟨lines, current, begun, here⟩ := body_edge gravityWells antiGravityZones enters
      (kept.symm ▸ drawn.begun) (kept.symm ▸ found)
    rw [kept] at lines current
    rw [Polyline.draw_same _ _ _ same]
    refine ⟨?_, ?_, Piece.last_extend _ _, begun, here⟩
    · rw [lines]
      exact drawn.earlier
    · rw [current, ← drawn.current]
      rfl
  · have changed := not_not.mp (mt look_eq_iff.mpr (drawn.current ▸ same))
    have cut : w.split = { w with
        linesForLine := w.linesForLine ++ [w.currentLine]
        currentLine := .new w.currentLine.currentPoint w.line.lineColor w.line.lineThickness } :=
      if_pos changed
    obtain ⟨lines, current, begun, here⟩ := body_edge gravityWells antiGravityZones enters
      (by rw [cut]; exact List.cons_ne_nil _ _) (by rw [cut]; rfl)
    rw [cut] at lines current
    rw [Polyline.draw_other _ _ _ same]
    refine ⟨?_, ?_, rfl, begun, here⟩
    · rw [lines, List.map_append, ← drawn.earlier, List.map_singleton, ← drawn.current]
      rfl
    · rw [current, piece_new, point, ← at_, ← drawn.ends]
      rfl

end Turn

section Path
variable (gravityWells : List GravityWell) (antiGravityZones : List AntiGravityZone)

/-- The walk of a line after so many turns of its loop. -/
abbrev turn (scaledColorBoxes : List ColorBox) (line : Line) (n : ℕ) : Walk :=
  (Walk.loop gravityWells antiGravityZones).after n (Walk.start line scaledColorBoxes)

theorem turn_succ (scaledColorBoxes : List ColorBox) (line : Line) (n : ℕ) :
    turn gravityWells antiGravityZones scaledColorBoxes line (n + 1) =
      (turn gravityWells antiGravityZones scaledColorBoxes line n).body gravityWells antiGravityZones :=
  Loop.after_succ _ n _

/-- A block of pieces draws the `n` turns that the loop for a line makes: its
pieces are those of a polyline from `startPosition` through every point the line
was moved to, and each edge looks as the line did before the turn. -/
structure Draws (scaledColorBoxes : List ColorBox) (line : Line) (block : List DummyLine) (n : ℕ) :
    Prop where
  exits : (Walk.loop gravityWells antiGravityZones).ExitsAt (Walk.start line scaledColorBoxes) n
  path : ∃ polyline : Polyline (Option CGPoint) (Color × CGFloat),
    polyline.pieces = block.map piece ∧
    polyline.points.head? = some (some line.startPosition) ∧
    polyline.points = (List.range (n + 1)).map (fun i =>
      position (turn gravityWells antiGravityZones scaledColorBoxes line i)) ∧
    polyline.strokes = (List.range n).map (fun i =>
      ((position (turn gravityWells antiGravityZones scaledColorBoxes line i),
        position (turn gravityWells antiGravityZones scaledColorBoxes line (i + 1))),
        look (turn gravityWells antiGravityZones scaledColorBoxes line i)))

variable {gravityWells antiGravityZones} {scaledColorBoxes : List ColorBox} {line : Line}

theorem start_drawn : DrawnBy (.begin (some line.startPosition) (line.startColor, line.startThickness))
    (Walk.start line scaledColorBoxes) where
  earlier := rfl
  current := rfl
  ends := rfl
  begun := List.cons_ne_nil _ _
  here := fun _ at_ => ⟨Option.some.inj at_, rfl⟩

/-- What has been drawn after so many turns. -/
theorem turns_drawn {n : ℕ} (enters : ∀ i < n,
      (turn gravityWells antiGravityZones scaledColorBoxes line i).guard) :
    ∃ polyline, DrawnBy polyline (turn gravityWells antiGravityZones scaledColorBoxes line n) ∧
      polyline.points = (List.range (n + 1)).map (fun i =>
        position (turn gravityWells antiGravityZones scaledColorBoxes line i)) ∧
      polyline.strokes = (List.range n).map (fun i =>
        ((position (turn gravityWells antiGravityZones scaledColorBoxes line i),
          position (turn gravityWells antiGravityZones scaledColorBoxes line (i + 1))),
          look (turn gravityWells antiGravityZones scaledColorBoxes line i))) := by
  induction n with
  | zero => exact ⟨_, start_drawn, rfl, rfl⟩
  | succ n ih =>
    obtain ⟨polyline, drawn, points, strokes⟩ := ih fun i below => enters i (Nat.lt_succ_of_lt below)
    have further := drawn.body gravityWells antiGravityZones (enters n (Nat.lt_succ_self n))
    rw [← turn_succ] at further
    refine ⟨_, further, ?_, ?_⟩
    · rw [Polyline.points_draw, points, List.range_succ (n := n + 1), List.map_append, List.map_singleton]
    · rw [Polyline.strokes_draw, strokes, drawn.ends, List.range_succ, List.map_append,
        List.map_singleton]

/-- What pieces draw, edge by edge. -/
def strokesOf (block : List DummyLine) : List ((Option CGPoint × Option CGPoint) × (Color × CGFloat)) :=
  (block.map piece).flatMap Piece.strokes

theorem strokesOf_append (block later : List DummyLine) :
    strokesOf (block ++ later) = strokesOf block ++ strokesOf later := by
  simp [strokesOf]

theorem strokesOf_turn {n : ℕ} (enters : ∀ i < n,
      (turn gravityWells antiGravityZones scaledColorBoxes line i).guard) :
    strokesOf (turn gravityWells antiGravityZones scaledColorBoxes line n).pieces = (List.range n).map fun i =>
      ((position (turn gravityWells antiGravityZones scaledColorBoxes line i),
        position (turn gravityWells antiGravityZones scaledColorBoxes line (i + 1))),
        look (turn gravityWells antiGravityZones scaledColorBoxes line i)) := by
  obtain ⟨polyline, drawn, _, strokes⟩ := turns_drawn enters
  rw [strokesOf, ← drawn.pieces]
  exact strokes

/-- The pieces of a loop that returns. -/
theorem predictLine_draws {fuel : ℕ} {w : Walk}
    (success : predictLine fuel gravityWells antiGravityZones scaledColorBoxes line = some w) :
    ∃ n, Draws gravityWells antiGravityZones scaledColorBoxes line w.pieces n := by
  obtain ⟨n, _, exits, rfl⟩ := (Walk.loop gravityWells antiGravityZones).run_eq_some_iff.mp success
  obtain ⟨polyline, drawn, points, strokes⟩ := turns_drawn exits.1
  refine ⟨n, exits, polyline, drawn.pieces, ?_, points, strokes⟩
  rw [points, List.range_succ_eq_map]
  rfl

/-- The prediction for a line somewhere in the list. -/
theorem getPredictedPaths_split {fuel : ℕ} {earlier later : List Line} {prediction : Prediction}
    (success : getPredictedPaths fuel gravityWells antiGravityZones scaledColorBoxes
      (earlier ++ line :: later) = some prediction) :
    ∃ before w, getPredictedPaths fuel gravityWells antiGravityZones scaledColorBoxes earlier =
        some before ∧
      predictLine fuel gravityWells antiGravityZones before.scaledColorBoxes line = some w ∧
      prediction.paths[earlier.length]? = some w.pieces := by
  induction earlier generalizing scaledColorBoxes prediction with
  | nil =>
    obtain ⟨w, others, found, _, rfl⟩ := getPredictedPaths_cons.mp success
    exact ⟨_, w, rfl, found, rfl⟩
  | cons first earlier ih =>
    obtain ⟨walk, others, found, rest, rfl⟩ := getPredictedPaths_cons.mp success
    obtain ⟨before, w, reached, foundLine, block⟩ := ih rest
    refine ⟨_, w, getPredictedPaths_cons.mpr ⟨walk, before, found, reached, rfl⟩, foundLine, ?_⟩
    rw [List.length_cons, List.getElem?_cons_succ]
    exact block

theorem getPredictedPaths_length {fuel : ℕ} {lines : List Line} {prediction : Prediction}
    (success : getPredictedPaths fuel gravityWells antiGravityZones scaledColorBoxes lines =
      some prediction) : prediction.paths.length = lines.length := by
  induction lines generalizing scaledColorBoxes prediction with
  | nil =>
    cases success
    rfl
  | cons first rest ih =>
    obtain ⟨walk, others, _, later, rfl⟩ := getPredictedPaths_cons.mp success
    rw [List.length_cons, List.length_cons, ih later]

/-- A line that does not look the same at two turns takes two pieces. -/
theorem Draws.two_le_length {block : List DummyLine} {n : ℕ}
    (draws : Draws gravityWells antiGravityZones scaledColorBoxes line block n) {i j : ℕ} (early : i < n)
    (late : j < n) (differ : look (turn gravityWells antiGravityZones scaledColorBoxes line i) ≠
      look (turn gravityWells antiGravityZones scaledColorBoxes line j)) : 2 ≤ block.length := by
  obtain ⟨polyline, pieces, _, _, strokes⟩ := draws.path
  by_contra short
  have single : polyline.earlier = [] := by
    have count := congrArg List.length pieces
    rw [Polyline.pieces, List.length_append, List.length_map, List.length_singleton] at count
    exact List.length_eq_zero_iff.mp (by omega)
  have labels : ∀ stroke ∈ polyline.strokes, stroke.2 = polyline.current.label := by
    intro stroke member
    simp only [Polyline.strokes, Polyline.pieces, single, List.nil_append, List.flatMap_singleton] at member
    obtain ⟨edge, _, rfl⟩ := List.mem_map.mp member
    rfl
  have looks : ∀ k < n, look (turn gravityWells antiGravityZones scaledColorBoxes line k) =
      polyline.current.label := by
    intro k below
    rw [strokes] at labels
    exact labels _ (List.mem_map_of_mem (List.mem_range.mpr below))
  exact differ ((looks i early).trans (looks j late).symm)

end Path

/-- The block of segments of every line whose loop returns draws the trajectory
of the line. A prediction has one block for each line, of the line's own loop. -/
theorem segments_are_trajectory (fuel : ℕ) (gravityWells : List GravityWell)
    (antiGravityZones : List AntiGravityZone) (scaledColorBoxes : List ColorBox) :
    (∀ line w, predictLine fuel gravityWells antiGravityZones scaledColorBoxes line = some w →
      ∃ n, Draws gravityWells antiGravityZones scaledColorBoxes line w.pieces n) ∧
    ∀ lines prediction,
      getPredictedPaths fuel gravityWells antiGravityZones scaledColorBoxes lines = some prediction →
      prediction.paths.length = lines.length ∧
      ∀ earlier line later, lines = earlier ++ line :: later → ∃ before block n,
        getPredictedPaths fuel gravityWells antiGravityZones scaledColorBoxes earlier = some before ∧
        prediction.paths[earlier.length]? = some block ∧
        Draws gravityWells antiGravityZones before.scaledColorBoxes line block n := by
  refine ⟨fun line w success => predictLine_draws success, fun lines prediction success => ?_⟩
  refine ⟨getPredictedPaths_length success, ?_⟩
  rintro earlier line later rfl
  obtain ⟨before, w, reached, found, block⟩ := getPredictedPaths_split success
  obtain ⟨n, draws⟩ := predictLine_draws found
  exact ⟨before, w.pieces, n, reached, block, draws⟩

/-- A line that moves 400 points a turn, onto a core that pulls nothing. -/
def wornLine : Line := .new ⟨0, 0⟩ ⟨400, 0⟩ ⟨1, 0, 0, 1⟩ 10 "worn"

def stone : GravityWell where
  corePoint := ⟨400, 0⟩
  center := ⟨400, 0⟩
  coreDiameter := 10
  areaOfEffectDiameter := 0
  mass := 100

theorem stone_idle : ∀ gravWell ∈ [stone], PlayerWells.Idle gravWell :=
  List.forall_mem_singleton.mpr (le_refl (0 : ℝ))

theorem wornLine_speed : wornLine.startVelocity.length = 400 := by
  have flat : wornLine.startVelocity = ⟨400, 0⟩ := rfl
  rw [flat]
  simp [CGVector.length]

/-- The core takes one unit off it in the first turn. -/
theorem wornLine_worn : thicknessAt [stone] [] wornLine 1 = 9 := by
  have start : thicknessAt [stone] [] wornLine 0 = 10 := rfl
  have point : pointAt [stone] [] wornLine 1 = ⟨400, 0⟩ := by
    rw [PlayerWells.pointAt_one_of_idle stone_idle]
    ext <;> norm_num [wornLine, Line.new, Line.reset]
  have hit : Circle.collidesWith ⟨⟨400, 0⟩, (10 : CGFloat) / 2⟩ ⟨stone.corePoint, stone.coreDiameter / 2⟩ := by
    norm_num [Circle.collidesWith, stone]
  rw [thicknessAt, start, point, handleCollisions, if_pos ⟨hit, by norm_num⟩, handleCollisions]
  norm_num

theorem wornLine_reaches : Reaches [stone] [] wornLine 1 := by
  intro i most
  refine ⟨?_, ?_, fun _ => ?_⟩
  · rw [PlayerWells.wayLength_of_idle stone_idle, wornLine_speed]
    rcases Nat.le_one_iff_eq_zero_or_eq_one.mp most with rfl | rfl <;> norm_num
  · rcases Nat.le_one_iff_eq_zero_or_eq_one.mp most with rfl | rfl
    · change (1 : ℝ) ≤ 10
      norm_num
    · rw [wornLine_worn]
      norm_num
  · rw [PlayerWells.forcesAt_of_idle stone_idle]
    exact Option.some_ne_none _

/-- Its path has a segment for each of the two thicknesses. -/
theorem segments_of_wornLine : ∃ prediction block n,
    getPredictedPaths 3 [stone] [] [] [wornLine] = some prediction ∧
    prediction.paths[0]? = some block ∧ Draws [stone] [] [] wornLine block n ∧ 2 ≤ block.length := by
  have moving : ∀ line ∈ [wornLine], 700 ≤ ((2 : ℕ) : ℝ) * line.startVelocity.length :=
    List.forall_mem_singleton.mpr (by norm_num [wornLine_speed])
  obtain ⟨prediction, success⟩ : ∃ prediction, getPredictedPaths 3 [stone] [] [] [wornLine] = some prediction :=
    Option.isSome_iff_exists.mp (PlayerWells.getPredictedPaths_of_idle stone_idle moving [])
  obtain ⟨_, blocks⟩ := (segments_are_trajectory 3 [stone] [] []).2 [wornLine] prediction success
  obtain ⟨before, block, n, reached, found, draws⟩ := blocks [] wornLine [] rfl
  cases reached
  refine ⟨prediction, block, n, success, found, draws, ?_⟩
  obtain ⟨reaches, stops⟩ := (exitsAt_iff [] n).mp draws.exits
  have late : 1 < n := by
    by_contra early
    exact stops (wornLine_reaches.of_le (not_lt.mp early))
  refine draws.two_le_length (Nat.zero_lt_of_lt late) late fun same => ?_
  have thickness := congrArg Prod.snd same
  change (turn [stone] [] [] wornLine 0).line.lineThickness =
    (turn [stone] [] [] wornLine 1).line.lineThickness at thickness
  rw [((reaches 0 (Nat.zero_lt_of_lt late)).follows []).thickness, (wornLine_reaches.follows []).thickness,
    wornLine_worn] at thickness
  change (10 : ℝ) = 9 at thickness
  norm_num at thickness

end
end Arthius.Guarantees.DrawnSegments
