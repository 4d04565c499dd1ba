import Mathlib.Analysis.CStarAlgebra.Classes
import Arthius.Lib.EulerMotion
import Arthius.Guarantees.PredictionFrame

/-!
# Path prediction terminates, unless a line is held

The loop for a line moves a free point under the pull of the level. It goes on
forever only when the way of that point stays shorter than 700, and then the
point is at rest from the start or is drawn into a balance point of the pull;
all the while no core may wear the line away and no well be hit at its centre.
-/
namespace Arthius.Guarantees.PredictionTermination
open Arthius.Lib Arthius.Source PredictionFrame Filter Topology

noncomputable section

section Field
variable (gravityWells : List GravityWell) (antiGravityZones : List AntiGravityZone)

def CGPoint.complex (p : CGPoint) : ℂ := ⟨p.x, p.y⟩
def CGVector.complex (v : CGVector) : ℂ := ⟨v.dx, v.dy⟩
def pointOf (z : ℂ) : CGPoint := ⟨z.re, z.im⟩

/-- The pull of the level at a point of the plane. -/
def pull (z : ℂ) : ℂ := (forcesAt gravityWells antiGravityZones (pointOf z)).elim 0 CGVector.complex

theorem length_eq_norm (v : CGVector) : v.length = ‖CGVector.complex v‖ := by
  rw [Complex.norm_eq_sqrt_sq_add_sq]
  simp only [CGVector.length, CGVector.complex, pow_two]

variable (line : Line)

/-- The line as a free point, and where it is after so many steps. -/
def freePoint : Motion ℂ := ⟨CGPoint.complex line.startPosition, CGVector.complex line.startVelocity⟩

def wayOf (n : ℕ) : Motion ℂ := Motion.after (pull gravityWells antiGravityZones) n (freePoint line)

def pointAt (n : ℕ) : CGPoint := pointOf (wayOf gravityWells antiGravityZones line n).position

/-- The length of the way so far. -/
def wayLength (n : ℕ) : ℝ := Motion.length (pull gravityWells antiGravityZones) n (freePoint line)

/-- What the cores met on the way have left of the thickness. -/
def thicknessAt : ℕ → CGFloat
  | 0 => line.startThickness
  | n + 1 =>
    handleCollisions (pointAt gravityWells antiGravityZones line (n + 1)) (thicknessAt n) gravityWells

/-- The line starts without velocity where nothing pulls. -/
def StartsAtRest : Prop :=
  line.startVelocity = CGVector.zero ∧
    forcesAt gravityWells antiGravityZones line.startPosition = some CGVector.zero

/-- The cores at the start take unit after unit off the line until it is
thinner than one. -/
def WornAway : Prop := ∀ n : ℕ, 1 ≤ line.startThickness - n → ∃ gravWell ∈ gravityWells,
  Circle.collidesWith ⟨line.startPosition, (line.startThickness - n) / 2⟩
    ⟨gravWell.corePoint, gravWell.coreDiameter / 2⟩

/-- The free point tends to a balance point, by a way shorter than 700. -/
def DrawnIn : Prop := ∃ p, Motion.IsBalance (pull gravityWells antiGravityZones) p ∧
  Tendsto (fun n => (wayOf gravityWells antiGravityZones line n).position) atTop (𝓝 p) ∧
  ∀ n, wayLength gravityWells antiGravityZones line n < 700

/-- Nothing on the way ends the line: no core wears it away, no centre is hit. -/
def Endures : Prop := ∀ n, 1 ≤ thicknessAt gravityWells antiGravityZones line n ∧
  forcesAt gravityWells antiGravityZones (pointAt gravityWells antiGravityZones line n) ≠ none

/-- The loop for the line gets to turn `n` and enters it. -/
def Reaches (n : ℕ) : Prop := ∀ i ≤ n, wayLength gravityWells antiGravityZones line i < 700 ∧
  1 ≤ thicknessAt gravityWells antiGravityZones line i ∧
  (i < n → forcesAt gravityWells antiGravityZones (pointAt gravityWells antiGravityZones line i) ≠ none)

/-- The line is held in place. -/
def Held : Prop := Endures gravityWells antiGravityZones line ∧
  (StartsAtRest gravityWells antiGravityZones line ∨ DrawnIn gravityWells antiGravityZones line)

end Field

section Follow
variable {gravityWells : List GravityWell} {antiGravityZones : List AntiGravityZone} {line : Line}

/-- The loop is where the free point is after `n` steps. -/
structure Follows (gravityWells : List GravityWell) (antiGravityZones : List AntiGravityZone)
    (line : Line) (n : ℕ) (w : Walk) : Prop where
  point : w.line.currentPoint = pointAt gravityWells antiGravityZones line n
  velocity : CGVector.complex w.line.lineVelocity = (wayOf gravityWells antiGravityZones line n).velocity
  thickness : w.line.lineThickness = thicknessAt gravityWells antiGravityZones line n
  distance : w.line.levelCountDistance = some (wayLength gravityWells antiGravityZones line n)
  going : w.line.madeItToEnd = false

theorem start_follows (boxes : List ColorBox) :
    Follows gravityWells antiGravityZones line 0 (Walk.start line boxes) where
  point := rfl
  velocity := rfl
  thickness := rfl
  distance := rfl
  going := rfl

theorem Follows.guard_iff {n : ℕ} {w : Walk} (follows : Follows gravityWells antiGravityZones line n w) :
    w.guard ↔ wayLength gravityWells antiGravityZones line n < 700 ∧
      1 ≤ thicknessAt gravityWells antiGravityZones line n := by
  simp [Walk.guard, follows.distance, follows.thickness, follows.going]

/-- The forces on the line are the pull on the free point. -/
theorem Follows.velocity_succ {n : ℕ} {w : Walk} (follows : Follows gravityWells antiGravityZones line n w)
    {forces : CGVector} (found : forcesAt gravityWells antiGravityZones w.line.currentPoint = some forces) :
    CGVector.complex (w.line.lineVelocity + forces / Line.lineMass) =
      (wayOf gravityWells antiGravityZones line (n + 1)).velocity := by
  have at_ : pointOf (wayOf gravityWells antiGravityZones line n).position = w.line.currentPoint :=
    follows.point.symm
  have here : pull gravityWells antiGravityZones (wayOf gravityWells antiGravityZones line n).position =
      CGVector.complex forces := by
    rw [pull, at_, found]
    rfl
  have before := follows.velocity
  unfold wayOf at here before ⊢
  rw [Motion.velocity_succ, here, ← before]
  apply Complex.ext <;> simp [CGVector.complex, Line.lineMass]

theorem pointAt_succ {n : ℕ} {v : CGVector}
    (velocity : CGVector.complex v = (wayOf gravityWells antiGravityZones line (n + 1)).velocity) :
    pointAt gravityWells antiGravityZones line n + ⟨v.dx, v.dy⟩ =
      pointAt gravityWells antiGravityZones line (n + 1) := by
  unfold wayOf at velocity
  unfold pointAt wayOf
  rw [Motion.position_succ, ← velocity]
  rfl

/-- A turn of the loop is a step of the free point. -/
theorem Follows.body {n : ℕ} {w : Walk} (follows : Follows gravityWells antiGravityZones line n w)
    (enters : w.guard)
    (pulled : forcesAt gravityWells antiGravityZones (pointAt gravityWells antiGravityZones line n) ≠ none) :
    Follows gravityWells antiGravityZones line (n + 1) (w.body gravityWells antiGravityZones) := by
  rw [← follows.point] at pulled
  rcases body_cases gravityWells antiGravityZones enters with
    ⟨forces, found, is⟩ | ⟨lost, _⟩
  · have velocity := follows.velocity_succ found
    have point : (w.split.move gravityWells forces).line.currentPoint =
        pointAt gravityWells antiGravityZones line (n + 1) := by
      rw [move_currentPoint, split_line, follows.point]
      exact pointAt_succ velocity
    rw [is]
    refine ⟨point, ?_, ?_, ?_, ?_⟩
    · rw [move_lineVelocity, split_line]
      exact velocity
    · rw [move_lineThickness, point, split_line, follows.thickness]
      rfl
    · rw [move_levelCountDistance, split_line, follows.distance, length_eq_norm, velocity, wayLength,
        wayLength, Motion.length_succ]
      rfl
    · rw [move_madeItToEnd, split_line]
      exact follows.going
  · exact absurd lost pulled

/-- A turn that hits the centre of a well is the last one. -/
theorem guard_body_of_lost {w : Walk} (enters : w.guard)
    (lost : forcesAt gravityWells antiGravityZones w.line.currentPoint = none) :
    ¬ (w.body gravityWells antiGravityZones).guard := by
  rw [body_of_lost enters lost]
  simp [Walk.guard]

theorem Reaches.of_le {m n : ℕ} (reaches : Reaches gravityWells antiGravityZones line n) (less : m ≤ n) :
    Reaches gravityWells antiGravityZones line m := by
  intro i most
  obtain ⟨short, thick, pulled⟩ := reaches i (most.trans less)
  exact ⟨short, thick, fun below => pulled (lt_of_lt_of_le below less)⟩

theorem Reaches.pulled {n : ℕ} (reaches : Reaches gravityWells antiGravityZones line (n + 1)) :
    forcesAt gravityWells antiGravityZones (pointAt gravityWells antiGravityZones line n) ≠ none :=
  (reaches n (Nat.le_succ n)).2.2 (Nat.lt_succ_self n)

theorem Reaches.next {n : ℕ} (reaches : Reaches gravityWells antiGravityZones line n)
    (pulled : forcesAt gravityWells antiGravityZones (pointAt gravityWells antiGravityZones line n) ≠ none)
    (short : wayLength gravityWells antiGravityZones line (n + 1) < 700)
    (thick : 1 ≤ thicknessAt gravityWells antiGravityZones line (n + 1)) :
    Reaches gravityWells antiGravityZones line (n + 1) := by
  intro i most
  rcases Nat.le_succ_iff.mp most with earlier | rfl
  · obtain ⟨shortThen, thickThen, pulledThen⟩ := reaches i earlier
    refine ⟨shortThen, thickThen, fun _ => ?_⟩
    rcases Nat.lt_or_eq_of_le earlier with before | rfl
    · exact pulledThen before
    · exact pulled
  · exact ⟨short, thick, fun below => absurd below (Nat.lt_irrefl _)⟩

theorem freePoint_restart {line' : Line} (same : line'.restart = line.restart) :
    freePoint line' = freePoint line := by
  have free : freePoint line'.restart = freePoint line.restart := by rw [same]
  exact free

theorem thicknessAt_restart {line' : Line} (same : line'.restart = line.restart) (n : ℕ) :
    thicknessAt gravityWells antiGravityZones line' n = thicknessAt gravityWells antiGravityZones line n := by
  have free := freePoint_restart same
  have thickness : line'.restart.startThickness = line.restart.startThickness := by rw [same]
  induction n with
  | zero => exact thickness
  | succ n ih => rw [thicknessAt, thicknessAt, ih, pointAt, pointAt, wayOf, wayOf, free]

/-- How far the loop gets depends on how the line starts only. -/
theorem reaches_restart {line' : Line} (same : line'.restart = line.restart) (n : ℕ) :
    Reaches gravityWells antiGravityZones line' n ↔ Reaches gravityWells antiGravityZones line n := by
  have free := freePoint_restart same
  unfold Reaches wayLength pointAt wayOf
  simp only [thicknessAt_restart same, free]

theorem Reaches.follows {n : ℕ} (reaches : Reaches gravityWells antiGravityZones line n)
    (boxes : List ColorBox) : Follows gravityWells antiGravityZones line n
      ((Walk.loop gravityWells antiGravityZones).after n (Walk.start line boxes)) := by
  induction n with
  | zero => exact start_follows boxes
  | succ n ih =>
    have before := ih (reaches.of_le (Nat.le_succ n))
    obtain ⟨short, thick, pulled⟩ := reaches n (Nat.le_succ n)
    rw [Loop.after_succ]
    exact before.body (before.guard_iff.mpr ⟨short, thick⟩) (pulled (Nat.lt_succ_self n))

/-- The guards of the loop, in terms of the free point. -/
theorem reaches_iff (boxes : List ColorBox) (n : ℕ) : Reaches gravityWells antiGravityZones line n ↔
    ∀ i ≤ n, (Walk.loop gravityWells antiGravityZones).guard
      ((Walk.loop gravityWells antiGravityZones).after i (Walk.start line boxes)) := by
  constructor
  · intro reaches i most
    obtain ⟨short, thick, _⟩ := reaches i most
    exact ((reaches.of_le most).follows boxes).guard_iff.mpr ⟨short, thick⟩
  · intro enters
    induction n with
    | zero =>
      intro i most
      obtain rfl := Nat.le_zero.mp most
      obtain ⟨short, thick⟩ := (start_follows boxes).guard_iff.mp (enters 0 (le_refl 0))
      exact ⟨short, thick, fun below => absurd below (Nat.lt_irrefl 0)⟩
    | succ n ih =>
      have reaches := ih fun i most => enters i (Nat.le_succ_of_le most)
      have before := reaches.follows boxes
      -- a turn that hits a centre would have been the last
      have pulled : forcesAt gravityWells antiGravityZones
          (pointAt gravityWells antiGravityZones line n) ≠ none := by
        intro lost
        rw [← before.point] at lost
        have next := enters (n + 1) (le_refl _)
        rw [Loop.after_succ] at next
        exact guard_body_of_lost (enters n (Nat.le_succ n)) lost next
      have now := before.body (enters n (Nat.le_succ n)) pulled
      have next := enters (n + 1) (le_refl _)
      rw [Loop.after_succ] at next
      obtain ⟨short, thick⟩ := now.guard_iff.mp next
      intro i most
      rcases Nat.lt_or_ge n i with above | within
      · obtain rfl : i = n + 1 := by omega
        exact ⟨short, thick, fun below => absurd below (Nat.lt_irrefl _)⟩
      · obtain ⟨shortBefore, thickBefore, pulledBefore⟩ := reaches i within
        refine ⟨shortBefore, thickBefore, fun _ => ?_⟩
        rcases Nat.lt_or_ge i n with earlier | last
        · exact pulledBefore earlier
        · obtain rfl : i = n := by omega
          exact pulled

/-- Where the loop exits, in terms of the free point. -/
theorem exitsAt_iff (boxes : List ColorBox) (n : ℕ) :
    (Walk.loop gravityWells antiGravityZones).ExitsAt (Walk.start line boxes) n ↔
      (∀ i < n, Reaches gravityWells antiGravityZones line i) ∧
        ¬ Reaches gravityWells antiGravityZones line n := by
  constructor
  · intro ⟨enters, leaves⟩
    refine ⟨fun i below => ?_, fun reaches => leaves ((reaches_iff boxes n).mp reaches n (le_refl n))⟩
    exact (reaches_iff boxes i).mpr fun j most => enters j (lt_of_le_of_lt most below)
  · intro ⟨reaches, stops⟩
    have enters : ∀ i < n, (Walk.loop gravityWells antiGravityZones).guard
        ((Walk.loop gravityWells antiGravityZones).after i (Walk.start line boxes)) :=
      fun i below => (reaches_iff boxes i).mp (reaches i below) i (le_refl i)
    refine ⟨enters, fun last => stops ((reaches_iff boxes n).mpr fun i most => ?_)⟩
    rcases Nat.lt_or_eq_of_le most with below | rfl
    · exact enters i below
    · exact last

/-- A loop that does not get so far returns. -/
theorem predictLine_isSome {n : ℕ} (stops : ¬ Reaches gravityWells antiGravityZones line n)
    (boxes : List ColorBox) :
    (predictLine (n + 1) gravityWells antiGravityZones boxes line).isSome := by
  rw [reaches_iff boxes] at stops
  push Not at stops
  obtain ⟨i, most, fails⟩ := stops
  obtain ⟨m, before, exits⟩ := (Walk.loop gravityWells antiGravityZones).exists_exitsAt fails
  have below : m < n + 1 := by omega
  have success := (Walk.loop gravityWells antiGravityZones).run_eq_some_iff.mpr ⟨m, below, exits, rfl⟩
  exact Option.isSome_iff_exists.mpr ⟨_, success⟩

/-- The loop for a line goes on forever exactly when the free point stays within
700 of way and endures. -/
theorem guard_forever_iff (boxes : List ColorBox) :
    (∀ n, (Walk.loop gravityWells antiGravityZones).guard
      ((Walk.loop gravityWells antiGravityZones).after n (Walk.start line boxes))) ↔
    (∀ n, wayLength gravityWells antiGravityZones line n < 700) ∧
      Endures gravityWells antiGravityZones line := by
  constructor
  · intro forever
    have reaches := fun n => (reaches_iff boxes n).mpr fun i _ => forever i
    refine ⟨fun n => (reaches n n (le_refl n)).1, fun n => ?_⟩
    obtain ⟨_, thick, pulled⟩ := reaches (n + 1) n (Nat.le_succ n)
    exact ⟨thick, pulled (Nat.lt_succ_self n)⟩
  · intro ⟨short, endures⟩ n
    refine (reaches_iff boxes n).mp (fun i _ => ?_) n (le_refl n)
    exact ⟨short i, (endures i).1, fun _ => (endures i).2⟩

end Follow

section Held
variable {gravityWells : List GravityWell} {antiGravityZones : List AntiGravityZone} {line : Line}

/-- At a start that no centre is at, the code's rest is the rest of the free point. -/
theorem startsAtRest_iff (pulled : forcesAt gravityWells antiGravityZones line.startPosition ≠ none) :
    StartsAtRest gravityWells antiGravityZones line ↔
      Motion.AtRest (pull gravityWells antiGravityZones) (freePoint line) := by
  obtain ⟨forces, found⟩ := Option.ne_none_iff_exists'.mp pulled
  have vanishes : ∀ v : CGVector, CGVector.complex v = 0 ↔ v = CGVector.zero := by
    intro v
    rw [Complex.ext_iff, CGVector.ext_iff]
    rfl
  have here : pull gravityWells antiGravityZones (freePoint line).position = CGVector.complex forces := by
    have at_ : pointOf (freePoint line).position = line.startPosition := rfl
    rw [pull, at_, found]
    rfl
  unfold StartsAtRest Motion.AtRest
  rw [here, vanishes, found, Option.some.injEq, ← vanishes line.startVelocity]
  rfl

theorem StartsAtRest.rest (rest : StartsAtRest gravityWells antiGravityZones line) :
    Motion.AtRest (pull gravityWells antiGravityZones) (freePoint line) :=
  (startsAtRest_iff (by rw [rest.2]; simp)).mp rest

/-- A line goes on forever exactly when it is held. -/
theorem held_iff : Held gravityWells antiGravityZones line ↔
    (∀ n, wayLength gravityWells antiGravityZones line n < 700) ∧
      Endures gravityWells antiGravityZones line := by
  constructor
  · rintro ⟨endures, rest | ⟨_, _, _, short⟩⟩
    · refine ⟨fun n => ?_, endures⟩
      rw [wayLength, rest.rest.length_eq_zero]
      norm_num
    · exact ⟨short, endures⟩
  · intro ⟨short, endures⟩
    refine ⟨endures, ?_⟩
    have bounded : ∀ n, Motion.length (pull gravityWells antiGravityZones) n (freePoint line) ≤ 700 :=
      fun n => le_of_lt (short n)
    rcases Motion.atRest_or_tendsto_balance bounded with rest | ⟨p, balance, _, limit⟩
    · exact .inl ((startsAtRest_iff (endures 0).2).mpr rest)
    · exact .inr ⟨p, balance, limit, short⟩

/-- The loop for a line returns exactly when the line is not held. -/
theorem predictLine_returns_iff (boxes : List ColorBox) :
    (∃ fuel, (predictLine fuel gravityWells antiGravityZones boxes line).isSome) ↔
      ¬ Held gravityWells antiGravityZones line := by
  unfold predictLine
  rw [Loop.run_isSome_iff, held_iff, ← guard_forever_iff boxes, not_forall]

/-- A whole prediction returns exactly when no line is held. -/
theorem getPredictedPaths_returns_iff (boxes : List ColorBox) (lines : List Line) :
    (∃ fuel, (getPredictedPaths fuel gravityWells antiGravityZones boxes lines).isSome) ↔
      ∀ line ∈ lines, ¬ Held gravityWells antiGravityZones line := by
  induction lines generalizing boxes with
  | nil => simp [getPredictedPaths]
  | cons line rest ih =>
    rw [List.forall_mem_cons]
    constructor
    · rintro ⟨fuel, returns⟩
      obtain ⟨prediction, success⟩ := Option.isSome_iff_exists.mp returns
      obtain ⟨walk, others, first, later, _⟩ := getPredictedPaths_cons.mp success
      exact ⟨(predictLine_returns_iff boxes).mp ⟨fuel, Option.isSome_iff_exists.mpr ⟨walk, first⟩⟩,
        (ih walk.scaledColorBoxes).mp ⟨fuel, Option.isSome_iff_exists.mpr ⟨others, later⟩⟩⟩
    · rintro ⟨free, freeRest⟩
      obtain ⟨fuel, returns⟩ := (predictLine_returns_iff boxes).mpr free
      obtain ⟨walk, first⟩ := Option.isSome_iff_exists.mp returns
      obtain ⟨fuel', returns'⟩ := (ih walk.scaledColorBoxes).mpr freeRest
      obtain ⟨others, later⟩ := Option.isSome_iff_exists.mp returns'
      -- enough fuel for the first line and for the rest
      have firstAgain : predictLine (max fuel fuel') gravityWells antiGravityZones boxes line = some walk :=
        Loop.run_mono _ (le_max_left fuel fuel') first
      have laterAgain := getPredictedPaths_mono (le_max_right fuel fuel') later
      exact ⟨max fuel fuel', Option.isSome_iff_exists.mpr
        ⟨_, getPredictedPaths_cons.mpr ⟨walk, others, firstAgain, laterAgain, rfl⟩⟩⟩

end Held

section Rest
variable {gravityWells : List GravityWell} {antiGravityZones : List AntiGravityZone} {line : Line}

/-- The collision loop takes a whole number of units off the line. -/
theorem handleCollisions_eq_sub (p : CGPoint) (wells : List GravityWell) (thickness : CGFloat) :
    ∃ n : ℕ, handleCollisions p thickness wells = thickness - n := by
  induction wells generalizing thickness with
  | nil => exact ⟨0, by simp [handleCollisions]⟩
  | cons gravWell rest ih =>
    unfold handleCollisions
    dsimp only
    split
    · obtain ⟨n, is⟩ := ih (thickness - 1)
      refine ⟨n + 1, ?_⟩
      rw [is]
      push_cast
      ring
    · exact ih thickness

/-- A core that touches the line takes at least one unit. -/
theorem handleCollisions_touched (p : CGPoint) {wells : List GravityWell} {thickness : CGFloat}
    (thick : 1 ≤ thickness) {gravWell : GravityWell} (member : gravWell ∈ wells)
    (touches : Circle.collidesWith ⟨p, thickness / 2⟩ ⟨gravWell.corePoint, gravWell.coreDiameter / 2⟩) :
    handleCollisions p thickness wells ≤ thickness - 1 := by
  induction wells with
  | nil => cases member
  | cons first rest ih =>
    unfold handleCollisions
    dsimp only
    by_cases firstTouches :
        Circle.collidesWith ⟨p, thickness / 2⟩ ⟨first.corePoint, first.coreDiameter / 2⟩
    · rw [if_pos ⟨firstTouches, thick⟩]
      obtain ⟨n, is⟩ := handleCollisions_eq_sub p rest (thickness - 1)
      have nonneg : (0 : ℝ) ≤ n := Nat.cast_nonneg n
      rw [is]
      linarith
    · rw [if_neg fun both => firstTouches both.1]
      rcases List.mem_cons.mp member with rfl | later
      · exact absurd touches firstTouches
      · exact ih later

/-- Down to a thickness at which no core touches, the loop never goes further. -/
theorem handleCollisions_stops (p : CGPoint) (wells : List GravityWell) {thickness stop : CGFloat}
    (above : ∃ n : ℕ, thickness = stop + n)
    (clear : ∀ gravWell ∈ wells,
      ¬ Circle.collidesWith ⟨p, stop / 2⟩ ⟨gravWell.corePoint, gravWell.coreDiameter / 2⟩) :
    ∃ n : ℕ, handleCollisions p thickness wells = stop + n := by
  induction wells generalizing thickness with
  | nil => exact above
  | cons first rest ih =>
    have clearRest := fun gravWell member => clear gravWell (List.mem_cons_of_mem first member)
    unfold handleCollisions
    dsimp only
    split
    · next touched =>
      obtain ⟨n, is⟩ := above
      cases n with
      | zero =>
        rw [Nat.cast_zero, add_zero] at is
        exact absurd (is ▸ touched.1) (clear first (List.mem_cons_self ..))
      | succ n =>
        refine ih ⟨n, ?_⟩ clearRest
        rw [is]
        push_cast
        ring
    · exact ih above clearRest

theorem pointAt_rest (rest : StartsAtRest gravityWells antiGravityZones line) (n : ℕ) :
    pointAt gravityWells antiGravityZones line n = line.startPosition := by
  unfold pointAt wayOf
  rw [rest.rest.after]
  rfl

/-- A line at rest is held unless the cores at its start wear it away. -/
theorem StartsAtRest.held_iff (rest : StartsAtRest gravityWells antiGravityZones line) :
    Held gravityWells antiGravityZones line ↔ ¬ WornAway gravityWells line := by
  have wear : ∀ n, thicknessAt gravityWells antiGravityZones line (n + 1) =
      handleCollisions line.startPosition (thicknessAt gravityWells antiGravityZones line n)
        gravityWells := by
    intro n
    rw [thicknessAt, pointAt_rest rest]
  have endures : Endures gravityWells antiGravityZones line ↔
      ∀ n, 1 ≤ thicknessAt gravityWells antiGravityZones line n := by
    refine ⟨fun endures n => (endures n).1, fun thick n => ⟨thick n, ?_⟩⟩
    rw [pointAt_rest rest, rest.2]
    simp
  rw [Held, endures]
  constructor
  · intro ⟨thick, _⟩ worn
    -- each turn takes at least one unit off
    have thinner : ∀ n, ∃ m : ℕ, n ≤ m ∧
        thicknessAt gravityWells antiGravityZones line n = line.startThickness - m := by
      intro n
      induction n with
      | zero => exact ⟨0, le_refl 0, by simp [thicknessAt]⟩
      | succ n ih =>
        obtain ⟨m, enough, is⟩ := ih
        obtain ⟨gravWell, member, touches⟩ := worn m (is ▸ thick n)
        rw [← is] at touches
        have less := handleCollisions_touched line.startPosition (thick n) member touches
        obtain ⟨k, units⟩ := handleCollisions_eq_sub line.startPosition gravityWells
          (thicknessAt gravityWells antiGravityZones line n)
        rw [units] at less
        have some_ : (1 : ℝ) ≤ k := by linarith
        have positive : 1 ≤ k := by exact_mod_cast some_
        refine ⟨m + k, by omega, ?_⟩
        rw [wear, units, is]
        push_cast
        ring
    obtain ⟨n, large⟩ := exists_nat_gt line.startThickness
    obtain ⟨m, enough, is⟩ := thinner n
    have there := thick n
    have more : (n : ℝ) ≤ m := by exact_mod_cast enough
    rw [is] at there
    linarith
  · intro unworn
    refine ⟨?_, .inl rest⟩
    unfold WornAway at unworn
    push Not at unworn
    obtain ⟨n, thick, clear⟩ := unworn
    have above : ∀ k, ∃ m : ℕ,
        thicknessAt gravityWells antiGravityZones line k = line.startThickness - n + m := by
      intro k
      induction k with
      | zero => exact ⟨n, by simp [thicknessAt]⟩
      | succ k ih =>
        rw [wear]
        exact handleCollisions_stops line.startPosition gravityWells ih clear
    intro k
    obtain ⟨m, is⟩ := above k
    have nonneg : (0 : ℝ) ≤ m := Nat.cast_nonneg m
    rw [is]
    linarith

end Rest

/-- A line that is drawn in ends within 700 of where it starts. -/
theorem DrawnIn.dist_le {gravityWells : List GravityWell} {antiGravityZones : List AntiGravityZone}
    {line : Line} (drawn : DrawnIn gravityWells antiGravityZones line) :
    ∃ p, Motion.IsBalance (pull gravityWells antiGravityZones) p ∧
      dist (CGPoint.complex line.startPosition) p ≤ 700 := by
  obtain ⟨p, balance, limit, short⟩ := drawn
  refine ⟨p, balance, ?_⟩
  refine le_of_tendsto (tendsto_const_nhds.dist limit) (Eventually.of_forall fun n => ?_)
  exact (Motion.dist_start_le_length n).trans (le_of_lt (short n))

theorem updatePredictPath_isSome (view : LevelView) (fuel : ℕ) :
    (view.updatePredictPath fuel).isSome = (view.getPredictedPaths fuel).isSome := by
  unfold LevelView.updatePredictPath
  cases view.getPredictedPaths fuel <;> rfl

theorem returns_iff_not_held (view : LevelView) :
    (∃ fuel, (view.updatePredictPath fuel).isSome) ↔
      ∀ line ∈ view.lines, ¬ Held view.gravityWells view.antiGravityZones line := by
  rw [← getPredictedPaths_returns_iff view.scaledColorBoxes view.lines]
  exact exists_congr fun fuel => by rw [updatePredictPath_isSome, LevelView.getPredictedPaths]

/-- `updatePredictPath` returns exactly when no line is held. A line at rest is
held unless the cores at its start wear it away. A line that moves or is pulled
at its start is not held if there is no balance point within 700 of it. -/
theorem updatePredictPath_returns_iff (view : LevelView) :
    ((∃ fuel, (view.updatePredictPath fuel).isSome) ↔
      ∀ line ∈ view.lines, ¬ Held view.gravityWells view.antiGravityZones line) ∧
    ∀ line ∈ view.lines,
      (StartsAtRest view.gravityWells view.antiGravityZones line →
        (Held view.gravityWells view.antiGravityZones line ↔ ¬ WornAway view.gravityWells line)) ∧
      (¬ StartsAtRest view.gravityWells view.antiGravityZones line →
        (∀ p, Motion.IsBalance (pull view.gravityWells view.antiGravityZones) p →
          700 < dist (CGPoint.complex line.startPosition) p) →
        ¬ Held view.gravityWells view.antiGravityZones line) := by
  refine ⟨returns_iff_not_held view, fun line _ => ⟨fun rest => rest.held_iff, ?_⟩⟩
  intro moves far held
  obtain ⟨_, rest | drawn⟩ := held
  · exact moves rest
  · obtain ⟨p, balance, near⟩ := drawn.dist_le
    exact absurd near (not_le.mpr (far p balance))

/-- A line of thickness 10 on the phone, and nothing else. -/
def oneLine (velocity : Vector) : LevelData where
  propFrame := some ⟨0, 0, 1, 1⟩
  lineData := [{ startPosition := some ⟨1 / 2, 1 / 2⟩, startVelocity := some velocity
                 startColor := some ⟨1, 0, 0, 1⟩, startThickness := 1 / 40 }]

theorem no_balance_without_wells (p : ℂ) : ¬ Motion.IsBalance (pull [] []) p := by
  intro balance
  obtain ⟨y, _, pulls, _⟩ := balance 1 one_pos
  exact pulls (Complex.ext rfl rfl)

/-- Where there are no wells, only a line without velocity is held. -/
theorem not_held_without_wells {line : Line} (moves : line.startVelocity ≠ CGVector.zero) :
    ¬ Held [] [] line := by
  intro ⟨_, held⟩
  rcases held with rest | drawn
  · exact moves rest.1
  · obtain ⟨p, balance, _⟩ := drawn
    exact no_balance_without_wells p balance

/-- A line with a velocity gets through. -/
theorem movingLine_returns : ∃ view, LevelView.init 0 phone toString (oneLine ⟨1 / 100, 0⟩) = some view ∧
    ∃ fuel, (view.updatePredictPath fuel).isSome := by
  refine ⟨_, rfl, ?_⟩
  obtain ⟨returns, lines⟩ := updatePredictPath_returns_iff _
  apply returns.mpr
  intro line member
  refine (lines line member).2 (fun ⟨still, _⟩ => ?_) fun p balance => ?_
  · obtain rfl := List.mem_singleton.mp member
    have speed : phone.propToFloat (1 / 100) true = 0 := congrArg CGVector.dx still
    norm_num [Screen.propToFloat, phone] at speed
  · exact absurd balance (no_balance_without_wells p)

/-- A line without a velocity stays where it is, and the loop with it. -/
theorem stillLine_hangs : ∃ view, LevelView.init 0 phone toString (oneLine ⟨0, 0⟩) = some view ∧
    ∀ fuel, view.updatePredictPath fuel = none := by
  refine ⟨_, rfl, fun fuel => ?_⟩
  by_contra returns
  have free := (returns_iff_not_held _).mp ⟨fuel, Option.isSome_iff_ne_none.mpr returns⟩
  apply free _ (List.mem_singleton.mpr rfl)
  have rest : StartsAtRest [] []
      (.new (phone.propToPoint ⟨1 / 2, 1 / 2⟩) (phone.propToVector ⟨0, 0⟩) ⟨1, 0, 0, 1⟩
        (phone.propToFloat (1 / 40) true) "0") := by
    refine ⟨?_, rfl⟩
    simp [Line.new, Line.reset, Screen.propToVector, Screen.propToFloat, CGVector.zero]
  apply rest.held_iff.mpr
  intro worn
  obtain ⟨gravWell, member, _⟩ := worn 0 (by norm_num [Line.new, Line.reset, Screen.propToFloat, phone])
  cases member

end
end Arthius.Guarantees.PredictionTermination
