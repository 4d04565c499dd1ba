import Arthius.Guarantees.CoreWear
import Arthius.Guarantees.DrawnSegments
import Arthius.Guarantees.RunAccounting

/-!
# The order of the wells

The forces do not depend on the order of the wells, the collision loop does: a
core that was hit makes the line thinner for the cores that come after it. So the
order does not show exactly where the cores on the way leave no choice of what they
take off. A line that is thinner than two has one unit to lose, whichever core it is
that hits it; for a thicker one the player can place two cores whose order shows.
-/
namespace Arthius.Guarantees.WellOrder
open Arthius.Lib Arthius.Source PredictionFrame PredictionTermination ForceLaw DrawnSegments PlayerWells CoreWear

noncomputable section

def withThickness (w : Walk) (lineThickness : CGFloat) : Walk :=
  { w with line := { w.line with lineThickness := lineThickness } }

section Forces
variable {gravityWells gravityWells' : List GravityWell} (perm : gravityWells'.Perm gravityWells)
  (antiGravityZones : List AntiGravityZone)
include perm

theorem forcesAt_perm (p : CGPoint) :
    forcesAt gravityWells' antiGravityZones p = forcesAt gravityWells antiGravityZones p := by
  unfold forcesAt
  rw [calculateGravityForces_perm perm]

theorem pull_perm : pull gravityWells' antiGravityZones = pull gravityWells antiGravityZones := by
  funext z
  rw [pull, pull, forcesAt_perm perm]

theorem pointAt_perm (line : Line) (n : ℕ) : pointAt gravityWells' antiGravityZones line n =
    pointAt gravityWells antiGravityZones line n := by
  rw [pointAt, pointAt, wayOf, wayOf, pull_perm perm]

/-- In another order a turn of the loop differs at most in the thickness. -/
theorem body_perm (w : Walk) : w.body gravityWells' antiGravityZones =
    withThickness (w.body gravityWells antiGravityZones)
      (w.body gravityWells' antiGravityZones).line.lineThickness := by
  unfold Walk.body
  dsimp only
  rw [forcesAt_perm perm]
  split_ifs
  · cases forcesAt gravityWells antiGravityZones w.split.line.currentPoint <;> rfl
  · rfl

end Forces

section Turns
variable {gravityWells gravityWells' : List GravityWell} {antiGravityZones : List AntiGravityZone}
  {line : Line}

/-- At each turn that the loop goes on from in either order, the cores take the
same off the line in both. -/
def SameWear (gravityWells gravityWells' : List GravityWell) (antiGravityZones : List AntiGravityZone)
    (line : Line) : Prop := ∀ n,
  Reaches gravityWells antiGravityZones line (n + 1) ∨ Reaches gravityWells' antiGravityZones line (n + 1) →
    handleCollisions (pointAt gravityWells antiGravityZones line (n + 1))
        (thicknessAt gravityWells antiGravityZones line n) gravityWells' =
      handleCollisions (pointAt gravityWells antiGravityZones line (n + 1))
        (thicknessAt gravityWells antiGravityZones line n) gravityWells

/-- Both loops get to turn `n`, in the same state. -/
structure Together (gravityWells gravityWells' : List GravityWell)
    (antiGravityZones : List AntiGravityZone) (boxes : List ColorBox) (line : Line) (n : ℕ) : Prop where
  state : turn gravityWells' antiGravityZones boxes line n = turn gravityWells antiGravityZones boxes line n
  reaches : Reaches gravityWells antiGravityZones line n
  reaches' : Reaches gravityWells' antiGravityZones line n

variable {boxes : List ColorBox}

theorem Together.thickness {n : ℕ}
    (together : Together gravityWells gravityWells' antiGravityZones boxes line n) :
    thicknessAt gravityWells' antiGravityZones line n = thicknessAt gravityWells antiGravityZones line n := by
  rw [← (together.reaches.follows boxes).thickness, ← (together.reaches'.follows boxes).thickness]
  exact congrArg (fun w : Walk => w.line.lineThickness) together.state

theorem together_start (reached : Reaches gravityWells antiGravityZones line 0 ∨
      Reaches gravityWells' antiGravityZones line 0) :
    Together gravityWells gravityWells' antiGravityZones boxes line 0 := by
  have same : Reaches gravityWells antiGravityZones line 0 ↔ Reaches gravityWells' antiGravityZones line 0 := by
    rw [reaches_iff boxes, reaches_iff boxes]
    refine forall_congr' fun i => forall_congr' fun most => ?_
    obtain rfl := Nat.le_zero.mp most
    rfl
  rcases reached with reaches | reaches'
  · exact ⟨rfl, reaches, same.mp reaches⟩
  · exact ⟨rfl, same.mpr reaches', reaches'⟩

/-- The thickness after a turn at which no centre is hit. -/
theorem thickness_succ {n : ℕ} (reaches : Reaches gravityWells antiGravityZones line n)
    (pulled : forcesAt gravityWells antiGravityZones (pointAt gravityWells antiGravityZones line n) ≠ none) :
    (turn gravityWells antiGravityZones boxes line (n + 1)).line.lineThickness =
      handleCollisions (pointAt gravityWells antiGravityZones line (n + 1))
        (thicknessAt gravityWells antiGravityZones line n) gravityWells := by
  obtain ⟨short, thick, _⟩ := reaches n (le_refl n)
  have follows := reaches.follows boxes
  have next := follows.body (follows.guard_iff.mpr ⟨short, thick⟩) pulled
  rw [← turn_succ] at next
  exact next.thickness

theorem reaches_succ_iff (boxes : List ColorBox) (n : ℕ) :
    Reaches gravityWells antiGravityZones line (n + 1) ↔ Reaches gravityWells antiGravityZones line n ∧
      (turn gravityWells antiGravityZones boxes line (n + 1)).guard := by
  rw [reaches_iff boxes, reaches_iff boxes]
  constructor
  · intro enters
    exact ⟨fun i most => enters i (Nat.le_succ_of_le most), enters (n + 1) (le_refl _)⟩
  · intro ⟨enters, last⟩ i most
    rcases Nat.le_succ_iff.mp most with before | rfl
    · exact enters i before
    · exact last

variable (perm : gravityWells'.Perm gravityWells)
include perm

/-- After one more turn the loops differ at most in the thickness. -/
theorem Together.differ {n : ℕ}
    (together : Together gravityWells gravityWells' antiGravityZones boxes line n) :
    turn gravityWells' antiGravityZones boxes line (n + 1) =
      withThickness (turn gravityWells antiGravityZones boxes line (n + 1))
        (turn gravityWells' antiGravityZones boxes line (n + 1)).line.lineThickness := by
  rw [turn_succ gravityWells', turn_succ gravityWells, together.state]
  exact body_perm perm antiGravityZones _

theorem Together.next {n : ℕ}
    (together : Together gravityWells gravityWells' antiGravityZones boxes line n)
    (same : SameWear gravityWells gravityWells' antiGravityZones line)
    (reached : Reaches gravityWells antiGravityZones line (n + 1) ∨
      Reaches gravityWells' antiGravityZones line (n + 1)) :
    Together gravityWells gravityWells' antiGravityZones boxes line (n + 1) := by
  have point := pointAt_perm perm antiGravityZones line
  have pulled : forcesAt gravityWells antiGravityZones
      (pointAt gravityWells antiGravityZones line n) ≠ none := by
    rcases reached with reaches | reaches'
    · exact reaches.pulled
    · have pulled' := reaches'.pulled
      rwa [forcesAt_perm perm, point] at pulled'
  have pulled' : forcesAt gravityWells' antiGravityZones
      (pointAt gravityWells' antiGravityZones line n) ≠ none := by
    rwa [forcesAt_perm perm, point]
  have thickness : (turn gravityWells' antiGravityZones boxes line (n + 1)).line.lineThickness =
      (turn gravityWells antiGravityZones boxes line (n + 1)).line.lineThickness := by
    rw [thickness_succ together.reaches pulled, thickness_succ together.reaches' pulled', point,
      together.thickness]
    exact same n reached
  have state : turn gravityWells' antiGravityZones boxes line (n + 1) =
      turn gravityWells antiGravityZones boxes line (n + 1) := by
    rw [together.differ perm, thickness]
    rfl
  rw [reaches_succ_iff boxes, reaches_succ_iff boxes, state] at reached
  have enters : (turn gravityWells antiGravityZones boxes line (n + 1)).guard :=
    reached.elim And.right And.right
  exact ⟨state, (reaches_succ_iff boxes n).mpr ⟨together.reaches, enters⟩,
    (reaches_succ_iff boxes n).mpr ⟨together.reaches', state ▸ enters⟩⟩

/-- The loops stay together as far as either goes. -/
theorem together_of_sameWear (boxes : List ColorBox)
    (same : SameWear gravityWells gravityWells' antiGravityZones line) {n : ℕ}
    (reached : Reaches gravityWells antiGravityZones line n ∨
      Reaches gravityWells' antiGravityZones line n) :
    Together gravityWells gravityWells' antiGravityZones boxes line n := by
  induction n with
  | zero => exact together_start reached
  | succ n ih =>
    have before := ih (reached.imp (fun reaches => reaches.of_le (Nat.le_succ n))
      fun reaches => reaches.of_le (Nat.le_succ n))
    exact before.next perm same reached

/-- The loops end at the same turn, and what they leave differs at most in the
thickness of the line. -/
theorem exit_of_sameWear (same : SameWear gravityWells gravityWells' antiGravityZones line) {n n' : ℕ}
    (exits : (Walk.loop gravityWells antiGravityZones).ExitsAt (Walk.start line boxes) n)
    (exits' : (Walk.loop gravityWells' antiGravityZones).ExitsAt (Walk.start line boxes) n') :
    (turn gravityWells' antiGravityZones boxes line n').pieces =
        (turn gravityWells antiGravityZones boxes line n).pieces ∧
      (turn gravityWells' antiGravityZones boxes line n').scaledColorBoxes =
        (turn gravityWells antiGravityZones boxes line n).scaledColorBoxes := by
  cases n with
  | zero =>
    have first : n' = 0 := Loop.ExitsAt.unique _ exits'
      ⟨fun i below => absurd below (Nat.not_lt_zero i), exits.2⟩
    rw [first]
    exact ⟨rfl, rfl⟩
  | succ n =>
    have reaches : Reaches gravityWells antiGravityZones line n :=
      (reaches_iff boxes n).mpr fun i most => exits.1 i (Nat.lt_succ_of_le most)
    have together := together_of_sameWear perm boxes same (.inl reaches)
    have ends' : ¬ (turn gravityWells' antiGravityZones boxes line (n + 1)).guard := by
      intro enters'
      have reaches' := (reaches_succ_iff boxes n).mpr ⟨together.reaches', enters'⟩
      have further := together_of_sameWear perm boxes same (.inr reaches')
      exact exits.2 ((reaches_succ_iff boxes n).mp further.reaches).2
    have last : n' = n + 1 := Loop.ExitsAt.unique _ exits'
      ⟨fun i below => (reaches_iff boxes n).mp together.reaches' i (Nat.le_of_lt_succ below), ends'⟩
    rw [last, together.differ perm]
    exact ⟨rfl, rfl⟩

/-- Loops that leave the same pieces have made the same turns, each with the
same thickness. -/
theorem sameWear_of_pieces {n n' : ℕ}
    (exits : (Walk.loop gravityWells antiGravityZones).ExitsAt (Walk.start line boxes) n)
    (exits' : (Walk.loop gravityWells' antiGravityZones).ExitsAt (Walk.start line boxes) n')
    (same : (turn gravityWells' antiGravityZones boxes line n').pieces =
      (turn gravityWells antiGravityZones boxes line n).pieces) :
    SameWear gravityWells gravityWells' antiGravityZones line := by
  have all := congrArg strokesOf same
  rw [strokesOf_turn exits.1, strokesOf_turn exits'.1] at all
  have count : n' = n := by
    have lengths := congrArg List.length all
    simpa using lengths
  subst count
  have thickness : ∀ i < n', (turn gravityWells' antiGravityZones boxes line i).line.lineThickness =
      (turn gravityWells antiGravityZones boxes line i).line.lineThickness := by
    intro i below
    have edge := List.map_inj_left.mp all i (List.mem_range.mpr below)
    exact congrArg Prod.snd (congrArg Prod.snd edge)
  have reaches : ∀ i < n', Reaches gravityWells antiGravityZones line i := fun i below =>
    (reaches_iff boxes i).mpr fun j most => exits.1 j (lt_of_le_of_lt most below)
  have reaches' : ∀ i < n', Reaches gravityWells' antiGravityZones line i := fun i below =>
    (reaches_iff boxes i).mpr fun j most => exits'.1 j (lt_of_le_of_lt most below)
  have worn : ∀ i < n', thicknessAt gravityWells' antiGravityZones line i =
      thicknessAt gravityWells antiGravityZones line i := by
    intro i below
    rw [← ((reaches i below).follows boxes).thickness, ← ((reaches' i below).follows boxes).thickness]
    exact thickness i below
  intro m reached
  have below : m + 1 < n' := by
    by_contra late
    have within : n' ≤ m + 1 := by omega
    rcases reached with further | further'
    · exact exits.2 ((reaches_iff boxes (m + 1)).mp further n' within)
    · exact exits'.2 ((reaches_iff boxes (m + 1)).mp further' n' within)
  have last := worn (m + 1) below
  rw [thicknessAt, thicknessAt, worn m (by omega), pointAt_perm perm] at last
  exact last

/-- One line: the pieces are the same exactly when the wear is, and then so are
the boxes. -/
theorem predictLine_order {fuel fuel' : ℕ} {w w' : Walk}
    (success : predictLine fuel gravityWells antiGravityZones boxes line = some w)
    (success' : predictLine fuel' gravityWells' antiGravityZones boxes line = some w') :
    (w'.pieces = w.pieces ↔ SameWear gravityWells gravityWells' antiGravityZones line) ∧
      (w'.pieces = w.pieces → w'.scaledColorBoxes = w.scaledColorBoxes) := by
  obtain ⟨n, _, exits, rfl⟩ := (Walk.loop gravityWells antiGravityZones).run_eq_some_iff.mp success
  obtain ⟨n', _, exits', rfl⟩ := (Walk.loop gravityWells' antiGravityZones).run_eq_some_iff.mp success'
  have worn := sameWear_of_pieces perm exits exits'
  refine ⟨⟨worn, fun same => ?_⟩, fun same => ?_⟩
  · exact (exit_of_sameWear perm same exits exits').1
  · exact (exit_of_sameWear perm (worn same) exits exits').2

/-- All lines. -/
theorem getPredictedPaths_order {fuel fuel' : ℕ} {lines : List Line} {prediction prediction' : Prediction}
    (success : getPredictedPaths fuel gravityWells antiGravityZones boxes lines = some prediction)
    (success' : getPredictedPaths fuel' gravityWells' antiGravityZones boxes lines = some prediction') :
    prediction'.paths = prediction.paths ↔
      ∀ line ∈ lines, SameWear gravityWells gravityWells' antiGravityZones line := by
  induction lines generalizing boxes prediction prediction' with
  | nil =>
    cases success
    cases success'
    simp
  | cons line rest ih =>
    obtain ⟨walk, others, first, later, rfl⟩ := getPredictedPaths_cons.mp success
    obtain ⟨walk', others', first', later', rfl⟩ := getPredictedPaths_cons.mp success'
    obtain ⟨pieces, boxesSame⟩ := predictLine_order perm first first'
    rw [List.forall_mem_cons, List.cons.injEq, ← pieces]
    refine and_congr_right fun same => ?_
    rw [boxesSame same] at later'
    exact ih later later'

end Turns

section Steadiness
variable {gravityWells gravityWells' : List GravityWell} {antiGravityZones : List AntiGravityZone}
  {line : Line}

section Taken
variable {taken : ℕ → ℕ} (sized : ∀ gravWell ∈ gravityWells, 0 ≤ gravWell.coreDiameter)
  (loses : ∀ n, GoesOn gravityWells antiGravityZones line taken n →
    ThresholdWear.Loses (reach (pointAt gravityWells antiGravityZones line (n + 1))) (leftOf line taken n)
      gravityWells (taken n))
  (perm : gravityWells'.Perm gravityWells)
include sized loses perm

/-- Where no choice is left, the cores take the same off the line in every order. -/
theorem handleCollisions_of_loses {n : ℕ} (goesOn : GoesOn gravityWells antiGravityZones line taken n) :
    handleCollisions (pointAt gravityWells antiGravityZones line (n + 1)) (leftOf line taken n) gravityWells' =
      leftOf line taken (n + 1) := by
  have sized' : ∀ gravWell ∈ gravityWells', 0 ≤ gravWell.coreDiameter :=
    fun gravWell member => sized gravWell (perm.mem_iff.mp member)
  rw [handleCollisions_eq_hits _ sized', ((loses n goesOn).perm perm).hits_eq, leftOf_succ]

theorem thicknessAt_of_goesOn {n : ℕ} (goesOn : GoesOn gravityWells antiGravityZones line taken n) :
    ∀ i ≤ n + 1, thicknessAt gravityWells' antiGravityZones line i = leftOf line taken i := by
  intro i most
  induction i with
  | zero => simp [thicknessAt, leftOf]
  | succ i ih =>
    have before : GoesOn gravityWells antiGravityZones line taken i :=
      fun j below => goesOn j (below.trans (Nat.le_of_succ_le_succ most))
    rw [thicknessAt, ih (Nat.le_of_succ_le most), pointAt_perm perm]
    exact handleCollisions_of_loses sized loses perm before

theorem goesOn_of_reaches {n : ℕ} (reaches : Reaches gravityWells' antiGravityZones line (n + 1)) :
    GoesOn gravityWells antiGravityZones line taken n := by
  have way : ∀ i, wayLength gravityWells' antiGravityZones line i = wayLength gravityWells antiGravityZones line i := by
    intro i
    rw [wayLength, wayLength, pull_perm perm]
  have last : ∀ n, Reaches gravityWells' antiGravityZones line (n + 1) →
      thicknessAt gravityWells' antiGravityZones line n = leftOf line taken n →
      1 ≤ leftOf line taken n ∧
        forcesAt gravityWells antiGravityZones (pointAt gravityWells antiGravityZones line n) ≠ none ∧
        wayLength gravityWells antiGravityZones line (n + 1) < 700 := by
    intro n reaches same
    have pulled := reaches.pulled
    rw [forcesAt_perm perm, pointAt_perm perm] at pulled
    refine ⟨same ▸ (reaches n (Nat.le_succ n)).2.1, pulled, ?_⟩
    rw [← way]
    exact (reaches (n + 1) (le_refl _)).1
  induction n with
  | zero =>
    intro i most
    obtain rfl := Nat.le_zero.mp most
    exact last 0 reaches (by simp [thicknessAt, leftOf])
  | succ n ih =>
    have before := ih (reaches.of_le (Nat.le_succ _))
    intro i most
    rcases Nat.le_succ_iff.mp most with earlier | rfl
    · exact before i earlier
    · exact last (n + 1) reaches (thicknessAt_of_goesOn sized loses perm before (n + 1) (le_refl _))

end Taken

theorem sameWear_of_steady (steady : Steady gravityWells antiGravityZones line)
    (sized : ∀ gravWell ∈ gravityWells, 0 ≤ gravWell.coreDiameter) (perm : gravityWells'.Perm gravityWells) :
    SameWear gravityWells gravityWells' antiGravityZones line := by
  obtain ⟨taken, loses⟩ := steady
  intro n reached
  have goesOn : GoesOn gravityWells antiGravityZones line taken n :=
    reached.elim (goesOn_of_reaches sized loses (List.Perm.refl _)) (goesOn_of_reaches sized loses perm)
  rw [thicknessAt_of_goesOn sized loses (List.Perm.refl _) goesOn n (Nat.le_succ n),
    handleCollisions_of_loses sized loses perm goesOn,
    handleCollisions_of_loses sized loses (List.Perm.refl _) goesOn]

/-- Lines that end up thinner than one are equally thick, as they have lost whole units. -/
theorem handleCollisions_eq_of_worn (p : CGPoint) {thickness : CGFloat} (thick : 0 ≤ thickness)
    {wells wells' : List GravityWell} (worn : handleCollisions p thickness wells < 1)
    (worn' : handleCollisions p thickness wells' < 1) :
    handleCollisions p thickness wells' = handleCollisions p thickness wells := by
  have left := RunAccounting.erosions_le_thickness p thick wells
  have left' := RunAccounting.erosions_le_thickness p thick wells'
  rw [RunAccounting.handleCollisions_eq] at worn worn' ⊢
  rw [RunAccounting.handleCollisions_eq]
  generalize RunAccounting.erosions p thickness wells = a at *
  generalize RunAccounting.erosions p thickness wells' = b at *
  have less : (a : ℝ) < (b + 1 : ℕ) := by
    push_cast
    linarith
  have less' : (b : ℝ) < (a + 1 : ℕ) := by
    push_cast
    linarith
  obtain rfl : a = b := by
    have := Nat.cast_lt.mp less
    have := Nat.cast_lt.mp less'
    omega
  rfl

/-- If the wear is the same in every order, no choice is left. -/
theorem steady_of_sameWear (sized : ∀ gravWell ∈ gravityWells, 0 ≤ gravWell.coreDiameter)
    (same : ∀ gravityWells' : List GravityWell, gravityWells'.Perm gravityWells →
      SameWear gravityWells gravityWells' antiGravityZones line) : Steady gravityWells antiGravityZones line := by
  let point (n : ℕ) : CGPoint := pointAt gravityWells antiGravityZones line (n + 1)
  let thickness (n : ℕ) : CGFloat := thicknessAt gravityWells antiGravityZones line n
  let taken (n : ℕ) : ℕ := RunAccounting.erosions (point n) (thickness n) gravityWells
  have left : ∀ n, thicknessAt gravityWells antiGravityZones line n = leftOf line taken n := by
    intro n
    induction n with
    | zero => simp [thicknessAt, leftOf]
    | succ n ih =>
      rw [leftOf_succ, ← ih, thicknessAt, RunAccounting.handleCollisions_eq]
  refine ⟨taken, fun n goesOn => ?_⟩
  obtain ⟨thick, pulled, short⟩ := goesOn n (le_refl n)
  rw [← left] at thick ⊢
  have reaches : Reaches gravityWells antiGravityZones line n := by
    intro i most
    refine ⟨?_, left i ▸ (goesOn i most).1, fun _ => (goesOn i most).2.1⟩
    cases i with
    | zero => simp [wayLength, Motion.length]
    | succ i => exact (goesOn i (Nat.le_of_succ_le most)).2.2
  refine (handleCollisions_perm_iff _ sized _ _ (RunAccounting.handleCollisions_eq _ _ _)).mp fun wells' perm => ?_
  have together := together_of_sameWear perm [] (same wells' perm) (.inl reaches)
  by_cases further : 1 ≤ thicknessAt gravityWells antiGravityZones line (n + 1)
  · exact same wells' perm n (.inl (reaches.next pulled short further))
  · by_cases further' : 1 ≤ thicknessAt wells' antiGravityZones line (n + 1)
    · refine same wells' perm n (.inr (together.reaches'.next ?_ ?_ further'))
      · rwa [forcesAt_perm perm, pointAt_perm perm]
      · rwa [wayLength, pull_perm perm]
    · rw [thicknessAt, together.thickness, pointAt_perm perm, not_le] at further'
      exact handleCollisions_eq_of_worn _ (by linarith) (not_le.mp further) further'

end Steadiness

section Views
variable {view : LevelView} {order : List ℕ}

/-- The segments of a prediction do not change with the order of the wells
exactly when, for every line, the cores take the same off it in both orders at
each turn that its loop goes on from. -/
theorem segments_same_iff (perm : order.Perm view.scaledGravityWells) {fuel fuel' : ℕ}
    {prediction prediction' : Prediction} (success : view.getPredictedPaths fuel = some prediction)
    (success' : { view with scaledGravityWells := order }.getPredictedPaths fuel' = some prediction') :
    prediction'.paths = prediction.paths ↔
      ∀ line ∈ view.lines, SameWear view.gravityWells
        (LevelView.gravityWells { view with scaledGravityWells := order }) view.antiGravityZones line :=
  getPredictedPaths_order (perm.map _) success success'

/-- The order of the wells does not matter in this view, if the predictions return. -/
def SameInAnyOrder (view : LevelView) : Prop := ∀ order : List ℕ, order.Perm view.scaledGravityWells →
  ∀ fuel fuel' prediction prediction', view.getPredictedPaths fuel = some prediction →
    { view with scaledGravityWells := order }.getPredictedPaths fuel' = some prediction' →
      prediction'.paths = prediction.paths

/-- Nor in any view that the player can bring about. -/
def OrderFree (screen : Screen) (level : LevelData) : Prop :=
  ∀ view, Played screen level view → SameInAnyOrder view

/-- Every order of the wells is one of their numbers. -/
theorem exists_order {gravityWells' : List GravityWell} (perm : gravityWells'.Perm view.gravityWells) :
    ∃ order : List ℕ, order.Perm view.scaledGravityWells ∧
      LevelView.gravityWells { view with scaledGravityWells := order } = gravityWells' := by
  have pairs : List.Forall₂ (fun gravWell well => (view.wellViews well).toGravityWell = gravWell)
      view.gravityWells view.scaledGravityWells :=
    List.forall₂_map_left_iff.mpr (List.forall₂_same.mpr fun _ _ => rfl)
  obtain ⟨order, same, permutes⟩ := List.perm_comp_forall₂ perm pairs
  have each : List.Forall₂ (· = ·) (LevelView.gravityWells { view with scaledGravityWells := order })
      gravityWells' := List.forall₂_map_left_iff.mpr same.flip
  exact ⟨order, permutes, by rwa [List.forall₂_eq_eq_eq] at each⟩

/-- With cores of some size, the order does not matter if they leave no choice of what
they take off a line, and where the predictions return in every order, only then. -/
theorem sameInAnyOrder_iff (sized : ∀ gravWell ∈ view.gravityWells, 0 ≤ gravWell.coreDiameter) :
    ((∀ line ∈ view.lines, Steady view.gravityWells view.antiGravityZones line) → SameInAnyOrder view) ∧
    ((∀ order : List ℕ, order.Perm view.scaledGravityWells →
        ∃ fuel, ({ view with scaledGravityWells := order }.getPredictedPaths fuel).isSome) →
      SameInAnyOrder view → ∀ line ∈ view.lines, Steady view.gravityWells view.antiGravityZones line) := by
  constructor
  · intro steady order perm fuel fuel' prediction prediction' success success'
    exact (segments_same_iff perm success success').mpr fun line member =>
      sameWear_of_steady (steady line member) sized (perm.map _)
  · intro returns same line member
    refine steady_of_sameWear sized fun gravityWells' perm => ?_
    obtain ⟨order, permutes, rfl⟩ := exists_order perm
    obtain ⟨fuel, there⟩ := returns _ (List.Perm.refl _)
    obtain ⟨fuel', there'⟩ := returns order permutes
    obtain ⟨prediction, success⟩ := Option.isSome_iff_exists.mp there
    obtain ⟨prediction', success'⟩ := Option.isSome_iff_exists.mp there'
    exact (segments_same_iff permutes success success').mp
      (same order permutes fuel fuel' prediction prediction' success success') line member

end Views

section Thin
variable {gravityWells gravityWells' : List GravityWell} {antiGravityZones : List AntiGravityZone} {line : Line}

theorem thicknessAt_le (n : ℕ) : thicknessAt gravityWells antiGravityZones line n ≤ line.startThickness := by
  induction n with
  | zero => exact le_refl _
  | succ n ih =>
    obtain ⟨k, is⟩ := handleCollisions_eq_sub (pointAt gravityWells antiGravityZones line (n + 1)) gravityWells
      (thicknessAt gravityWells antiGravityZones line n)
    have nonneg : (0 : ℝ) ≤ k := Nat.cast_nonneg k
    rw [thicknessAt, is]
    linarith

theorem sameWear_of_thin (perm : gravityWells'.Perm gravityWells) (thin : line.startThickness < 2) :
    SameWear gravityWells gravityWells' antiGravityZones line := by
  classical
  intro n _
  have thinNow : thicknessAt gravityWells antiGravityZones line n < 2 := (thicknessAt_le n).trans_lt thin
  rw [handleCollisions_thin _ thinNow, handleCollisions_thin _ thinNow]
  exact if_congr (and_congr_right fun _ => exists_congr fun _ => and_congr_left fun _ => perm.mem_iff) rfl rfl

end Thin

section Thick
variable {p : CGPoint} {thickness : CGFloat}

/-- A core without a size touches a line within half its thickness. -/
theorem touches_sizeless {gravWell : GravityWell} (sizeless : gravWell.coreDiameter = 0) {offset : CGFloat}
    (place : gravWell.corePoint = p + ⟨offset, 0⟩) :
    Touches p thickness gravWell ↔ offset * offset ≤ thickness / 2 * (thickness / 2) := by
  rw [Touches, Circle.collidesWith, place, sizeless]
  simp

/-- Cores that are as far away as the line is thick take nothing off it. -/
theorem handleCollisions_far {wells : List GravityWell} (thick : 2 ≤ thickness)
    (sizeless : ∀ gravWell ∈ wells, gravWell.coreDiameter = 0)
    (far : ∀ gravWell ∈ wells, gravWell.corePoint = p + ⟨thickness, 0⟩) (rest : List GravityWell) :
    handleCollisions p thickness (wells ++ rest) = handleCollisions p thickness rest := by
  induction wells with
  | nil => rfl
  | cons first others ih =>
    obtain ⟨sizelessFirst, sizelessOthers⟩ := List.forall_mem_cons.mp sizeless
    obtain ⟨farFirst, farOthers⟩ := List.forall_mem_cons.mp far
    have untouched : ¬ Touches p thickness first := by
      rw [touches_sizeless sizelessFirst farFirst]
      nlinarith
    rw [List.cons_append, handleCollisions_missed _ fun both => untouched both.2]
    exact ih sizelessOthers farOthers

variable {rim middle : GravityWell} (thick : 2 ≤ thickness) (rimSizeless : rim.coreDiameter = 0)
  (middleSizeless : middle.coreDiameter = 0) (rimPlace : rim.corePoint = p + ⟨thickness / 2, 0⟩)
  (middlePlace : middle.corePoint = p + ⟨0, 0⟩)
include thick rimSizeless middleSizeless rimPlace middlePlace

/-- A core at the rim of the line is met before one in its middle, and missed after it. -/
theorem handleCollisions_rim : handleCollisions p thickness [rim, middle] = thickness - 2 ∧
    handleCollisions p thickness [middle, rim] = thickness - 1 := by
  have middleTouches : ∀ t, Touches p t middle := by
    intro t
    rw [touches_sizeless middleSizeless middlePlace]
    nlinarith [sq_nonneg t]
  have rimTouches : Touches p thickness rim := by
    rw [touches_sizeless rimSizeless rimPlace]
  have rimMissed : ¬ Touches p (thickness - 1) rim := by
    rw [touches_sizeless rimSizeless rimPlace]
    nlinarith
  constructor
  · rw [handleCollisions_hit _ (by linarith) rimTouches, handleCollisions_hit _ (by linarith) (middleTouches _),
      handleCollisions]
    ring
  · rw [handleCollisions_hit _ (by linarith) (middleTouches _), handleCollisions_missed _ fun both => rimMissed both.2,
      handleCollisions]

end Thick

section Arranged
variable {screen : Screen} {level : LevelData}

/-- After one turn beside wells of no size, the thickness is what the cores have left of it. -/
theorem reaches_one {gravityWells : List GravityWell} {antiGravityZones : List AntiGravityZone} {line : Line}
    (idle : ∀ gravWell ∈ gravityWells, Idle gravWell) (slow : line.startVelocity.length < 700)
    (thick : 1 ≤ line.startThickness)
    (left : 1 ≤ handleCollisions (pointAt gravityWells antiGravityZones line 1) line.startThickness gravityWells) :
    Reaches gravityWells antiGravityZones line 1 := by
  intro i most
  rw [wayLength_of_idle idle]
  rcases (show i = 0 ∨ i = 1 by omega) with rfl | rfl
  · refine ⟨by norm_num, thick, fun _ => ?_⟩
    rw [forcesAt_of_idle idle]
    exact Option.some_ne_none _
  · refine ⟨by simpa using slow, left, fun below => absurd below (Nat.lt_irrefl 1)⟩

/-- What one core at the rim of a line and one in its middle take off it, in the one
order and in the other. -/
theorem handleCollisions_arranged {view : LevelView} {onStage : List ℕ} {well : ℕ} {p : CGPoint}
    {thickness : CGFloat} (thick : 2 ≤ thickness)
    (sizeless : ∀ other ∈ onStage ++ [well, well + 1], (view.wellViews other).coreDiameter = 0)
    (far : ∀ other ∈ onStage, (view.wellViews other).corePoint = p + ⟨thickness, 0⟩)
    (rim : (view.wellViews well).corePoint = p + ⟨thickness / 2, 0⟩)
    (middle : (view.wellViews (well + 1)).corePoint = p + ⟨0, 0⟩) :
    handleCollisions p thickness
        ((onStage ++ [well, well + 1]).map fun other => (view.wellViews other).toGravityWell) = thickness - 2 ∧
      handleCollisions p thickness
        ((onStage ++ [well + 1, well]).map fun other => (view.wellViews other).toGravityWell) = thickness - 1 := by
  have farWells : ∀ rest, handleCollisions p thickness
      (onStage.map (fun other => (view.wellViews other).toGravityWell) ++ rest) =
        handleCollisions p thickness rest := by
    refine handleCollisions_far thick ?_ ?_ <;> intro gravWell among <;>
      obtain ⟨other, there, rfl⟩ := List.mem_map.mp among
    · exact sizeless other (List.mem_append_left _ there)
    · exact far other there
  rw [List.map_append, List.map_append, farWells, farWells]
  exact handleCollisions_rim thick (sizeless well (by simp)) (sizeless (well + 1) (by simp)) rim middle

/-- For a thick line the player can put one core at its rim and one in its middle,
where it is after one turn. -/
theorem arranged_differ {start : LevelView} (opened : OpensAs screen level start)
    (moves : ∀ line ∈ start.lines, line.startVelocity ≠ CGVector.zero) {line : Line} (member : line ∈ start.lines)
    (slow : line.startVelocity.length < 700) (thick : 2 ≤ line.startThickness) :
    ¬ OrderFree screen level := by
  obtain ⟨turns, moving⟩ : ∃ turns, Moving turns start := exists_turns moves
  let p := line.startPosition + ⟨line.startVelocity.dx, line.startVelocity.dy⟩
  obtain ⟨view, leads, calm, onStage, well, numbers, far, rim, middle⟩ := leads_arranged opened.listed moving
    (p + ⟨line.startThickness, 0⟩) (p + ⟨line.startThickness / 2, 0⟩) (p + ⟨0, 0⟩)
  let swapped : LevelView := { view with scaledGravityWells := onStage ++ [well + 1, well] }
  have perm : swapped.scaledGravityWells.Perm view.scaledGravityWells := by
    rw [numbers]
    exact (List.Perm.swap _ _ []).append_left onStage
  have calmSwapped : Calm start swapped :=
    ⟨calm.lines, fun other there => calm.listed other (perm.mem_iff.mp there),
      fun other there => calm.sizeless other (perm.mem_iff.mp there)⟩
  have movingView := moving.of_lines calm.lines
  have returns : ∀ other : LevelView, Calm start other → (getPredictedPaths (turns + 1) other.gravityWells
      view.antiGravityZones view.scaledColorBoxes view.lines).isSome :=
    fun other calmOther => getPredictedPaths_of_idle calmOther.idle movingView view.scaledColorBoxes
  obtain ⟨prediction, success⟩ := Option.isSome_iff_exists.mp (returns view calm)
  obtain ⟨prediction', success'⟩ := Option.isSome_iff_exists.mp (returns swapped calmSwapped)
  intro free
  have same := free view (leads.played opened) _ perm _ _ _ _ success success'
  -- the line as the predictions have left it
  have restarts : line.restart ∈ view.lines.map Line.restart := by
    rw [calm.lines]
    exact List.mem_map_of_mem member
  obtain ⟨now, isNow, restart⟩ := List.mem_map.mp restarts
  have wear := (segments_same_iff perm success success').mp same now isNow 0
  have position : now.startPosition = line.startPosition := (congrArg Line.startPosition restart :)
  have velocity : now.startVelocity = line.startVelocity := (congrArg Line.startVelocity restart :)
  have thickness : now.startThickness = line.startThickness := (congrArg Line.startThickness restart :)
  have point : pointAt view.gravityWells view.antiGravityZones now 1 = p := by
    rw [pointAt_one_of_idle calm.idle, position, velocity]
  have pointSwapped : pointAt swapped.gravityWells view.antiGravityZones now 1 = p := by
    rw [pointAt_one_of_idle calmSwapped.idle, position, velocity]
  -- what the cores take off it there
  have wells : ∀ other ∈ onStage ++ [well, well + 1], (view.wellViews other).coreDiameter = 0 := by
    rw [← numbers]
    exact fun other there => (calm.sizeless other there).1
  obtain ⟨two, one⟩ := handleCollisions_arranged thick wells far rim middle
  rw [← numbers] at two
  have goesOn : Reaches swapped.gravityWells view.antiGravityZones now 1 := by
    refine reaches_one calmSwapped.idle (velocity ▸ slow) (by rw [thickness]; linarith) ?_
    have left : handleCollisions p line.startThickness swapped.gravityWells = line.startThickness - 1 := one
    rw [pointSwapped, thickness, left]
    linarith
  have equal := wear (.inr goesOn)
  rw [point, thicknessAt, thickness] at equal
  have apart : line.startThickness - 1 = line.startThickness - 2 := one.symm.trans (equal.trans two)
  linarith

end Arranged

section Example

/-- Where the line would be if nothing pulled it. -/
def coast (line : Line) (n : ℕ) : CGPoint :=
  ⟨line.startPosition.x + n * line.startVelocity.dx, line.startPosition.y + n * line.startVelocity.dy⟩

theorem wayOf_coast {gravityWells : List GravityWell} {line : Line} {n : ℕ}
    (far : ∀ i < n, ∀ gravWell ∈ gravityWells, ¬ InReach (coast line i) gravWell) :
    wayOf gravityWells [] line n =
      ⟨CGPoint.complex (coast line n), CGVector.complex line.startVelocity⟩ := by
  induction n with
  | zero => ext <;> simp [wayOf, Motion.after, freePoint, coast]
  | succ n ih =>
    have before := ih fun i below => far i (Nat.lt_succ_of_lt below)
    have free : pull gravityWells [] (CGPoint.complex (coast line n)) = 0 := by
      have none_ : forcesAt gravityWells [] (coast line n) = some CGVector.zero :=
        calculateGravityForces_far (far n (Nat.lt_succ_self n))
      have here : pointOf (CGPoint.complex (coast line n)) = coast line n := rfl
      rw [pull, here, none_]
      rfl
    unfold wayOf at before ⊢
    rw [Motion.after_succ, before, Motion.next, free, add_zero]
    congr 1
    apply Complex.ext <;> simp only [CGPoint.complex, CGVector.complex, coast, Complex.add_re, Complex.add_im,
      Nat.cast_succ] <;> ring

/-- A core just above the way of the line, and one just below. -/
def upperCore (core : CGFloat) : GravityWell :=
  (WellView.new (phone.propToPoint ⟨1, 1 / 2 - 1 / 200⟩) (phone.propToFloat core true)
    (phone.propToFloat (8 / 400) true) 100).toGravityWell

def lowerCore (core : CGFloat) : GravityWell :=
  (WellView.new (phone.propToPoint ⟨1, 1 / 2 + 1 / 200⟩) (phone.propToFloat core true)
    (phone.propToFloat (8 / 400) true) 100).toGravityWell

/-- A line of thickness 5 that moves 350 points a turn. -/
def fastLine : Line :=
  .new (phone.propToPoint ⟨1 / 8, 1 / 2⟩) (phone.propToVector ⟨7 / 8, 0⟩) ⟨1, 0, 0, 1⟩
    (phone.propToFloat (1 / 80) true) (uuidOf 0)

def twoCores (upper lower : CGFloat) : LevelData where
  propFrame := some ⟨0, 0, 1, 1⟩
  lineData := [{ startPosition := some ⟨1 / 8, 1 / 2⟩, startVelocity := some ⟨7 / 8, 0⟩
                 startColor := some ⟨1, 0, 0, 1⟩, startThickness := 1 / 80 }]
  gravityWells := [
    { position := some ⟨1, 1 / 2 - 1 / 200⟩, mass := 100, coreDiameter := upper
      areaOfEffectDiameter := 8 / 400 },
    { position := some ⟨1, 1 / 2 + 1 / 200⟩, mass := 100, coreDiameter := lower
      areaOfEffectDiameter := 8 / 400 }]

theorem fastLine_coast (n : ℕ) : coast fastLine n = ⟨50 + n * 350, 400⟩ := by
  have way : (7 / 8 : ℝ) * 400 = 350 := by norm_num
  ext <;> norm_num [coast, fastLine, Line.new, Line.reset, Screen.propToPoint, Screen.propToVector,
    Screen.propToFloat, phone, way]

/-- Neither well reaches the line where it starts and after one turn. -/
theorem cores_far {gravWell : GravityWell}
    (member : ∃ core, gravWell = upperCore core ∨ gravWell = lowerCore core) {i : ℕ} (early : i < 2) :
    ¬ InReach (coast fastLine i) gravWell := by
  rw [fastLine_coast, inReach_iff, not_lt]
  have apart : gravWell.areaOfEffectDiameter / 2 = 4 ∧ gravWell.center.x = 400 ∧
      (gravWell.center.y = 396 ∨ gravWell.center.y = 404) := by
    obtain ⟨core, rfl | rfl⟩ := member <;>
      norm_num [upperCore, lowerCore, WellView.new, Screen.propToPoint, Screen.propToFloat, phone]
  obtain ⟨reach, x, y⟩ := apart
  rw [reach, distance, x]
  apply Real.le_sqrt_of_sq_le
  rcases y with y | y <;> rw [y] <;> rcases (show i = 0 ∨ i = 1 by omega) with rfl | rfl <;> norm_num

theorem fastLine_speed : ‖CGVector.complex fastLine.startVelocity‖ = 350 := by
  have flat : fastLine.startVelocity = ⟨350, 0⟩ := by
    ext <;> norm_num [fastLine, Line.new, Line.reset, Screen.propToVector, Screen.propToFloat, phone]
  rw [← length_eq_norm, flat, CGVector.length, mul_zero, add_zero]
  exact Real.sqrt_mul_self (by norm_num)

section Cores
variable {gravityWells : List GravityWell}
  (cores : ∀ gravWell ∈ gravityWells, ∃ core, gravWell = upperCore core ∨ gravWell = lowerCore core)
include cores

theorem cores_way {n : ℕ} (early : n ≤ 2) : wayOf gravityWells [] fastLine n =
    ⟨CGPoint.complex (coast fastLine n), CGVector.complex fastLine.startVelocity⟩ :=
  wayOf_coast fun _ below gravWell member => cores_far (cores gravWell member) (lt_of_lt_of_le below early)

theorem cores_wayLength {n : ℕ} (early : n ≤ 2) : wayLength gravityWells [] fastLine n = n * 350 := by
  unfold wayLength
  induction n with
  | zero => simp [Motion.length]
  | succ n ih =>
    have way := cores_way cores early
    unfold wayOf at way
    rw [Motion.length_succ, ih (by omega), way, fastLine_speed]
    push_cast
    ring

theorem cores_stop : ¬ Reaches gravityWells [] fastLine 2 := by
  intro reaches
  have short := (reaches 2 (le_refl 2)).1
  rw [cores_wayLength cores (le_refl 2)] at short
  norm_num at short

theorem cores_predicted {line : Line} (same : line.restart = fastLine.restart) (boxes : List ColorBox) :
    ∃ w : Walk, getPredictedPaths 3 gravityWells [] boxes [line] = some ⟨[w.pieces], [w.line], w.scaledColorBoxes⟩ ∧
      w.line.restart = fastLine.restart := by
  have returns := predictLine_isSome (mt (reaches_restart same 2).mp (cores_stop cores)) boxes
  obtain ⟨w, success⟩ := Option.isSome_iff_exists.mp returns
  exact ⟨w, getPredictedPaths_single success, (predictLine_frame success).1.trans same⟩

end Cores

/-- The level before and after the prediction for its first well. -/
def firstStage (upper : CGFloat) : LevelView :=
  { LevelView.empty phone [fastLine] [] with
    wellViews := Function.update (LevelView.empty phone [fastLine] []).wellViews 0
      (.new (phone.propToPoint ⟨1, 1 / 2 - 1 / 200⟩) (phone.propToFloat upper true)
        (phone.propToFloat (8 / 400) true) 100)
    created := 1
    scaledGravityWells := [0] }

/-- A view after the prediction for its only line. -/
def predicted (view : LevelView) (w : Walk) : LevelView :=
  { view with
    lines := [w.line]
    scaledColorBoxes := w.scaledColorBoxes
    drawLines := w.pieces
    lastRead := some view.predictionInput }

theorem updatePredictPath_single {fuel : ℕ} (view : LevelView) {line : Line} {w : Walk}
    (lines : view.lines = [line])
    (success : getPredictedPaths fuel view.gravityWells view.antiGravityZones view.scaledColorBoxes [line] =
      some ⟨[w.pieces], [w.line], w.scaledColorBoxes⟩) :
    view.updatePredictPath fuel = some (predicted view w) := by
  rw [LevelView.updatePredictPath, LevelView.getPredictedPaths, lines, success]
  simp [predicted, Prediction.layers]

/-- The level before the prediction for its second well. -/
def secondStage (upper lower : CGFloat) (first : Walk) : LevelView :=
  { predicted (firstStage upper) first with
    wellViews := Function.update (predicted (firstStage upper) first).wellViews 1
      (.new (phone.propToPoint ⟨1, 1 / 2 + 1 / 200⟩) (phone.propToFloat lower true)
        (phone.propToFloat (8 / 400) true) 100)
    created := 2
    scaledGravityWells := [0, 1] }

theorem twoCores_init (upper lower : CGFloat) : ∃ view line prediction prediction',
    LevelView.init 3 phone uuidOf (twoCores upper lower) = some view ∧
    view.scaledGravityWells = [0, 1] ∧
    view.gravityWells = [upperCore upper, lowerCore lower] ∧
    LevelView.gravityWells { view with scaledGravityWells := [1, 0] } = [lowerCore lower, upperCore upper] ∧
    view.antiGravityZones = [] ∧ view.lines = [line] ∧ line.restart = fastLine.restart ∧
    view.getPredictedPaths 3 = some prediction ∧
    { view with scaledGravityWells := [1, 0] }.getPredictedPaths 3 = some prediction' := by
  have upperOnly : ∀ gravWell ∈ [upperCore upper],
      ∃ core, gravWell = upperCore core ∨ gravWell = lowerCore core :=
    List.forall_mem_singleton.mpr ⟨upper, .inl rfl⟩
  have both : ∀ gravWell ∈ [upperCore upper, lowerCore lower],
      ∃ core, gravWell = upperCore core ∨ gravWell = lowerCore core :=
    List.forall_mem_cons.mpr ⟨⟨upper, .inl rfl⟩, List.forall_mem_singleton.mpr ⟨lower, .inr rfl⟩⟩
  have swapped : ∀ gravWell ∈ [lowerCore lower, upperCore upper],
      ∃ core, gravWell = upperCore core ∨ gravWell = lowerCore core :=
    List.forall_mem_cons.mpr ⟨⟨lower, .inr rfl⟩, upperOnly⟩
  obtain ⟨first, firstPaths, firstRestart⟩ := cores_predicted upperOnly (rfl : fastLine.restart = _) []
  obtain ⟨second, secondPaths, secondRestart⟩ := cores_predicted both firstRestart first.scaledColorBoxes
  obtain ⟨w, paths, _⟩ := cores_predicted both secondRestart second.scaledColorBoxes
  obtain ⟨w', paths', _⟩ := cores_predicted swapped secondRestart second.scaledColorBoxes
  have built : LevelView.init 3 phone uuidOf (twoCores upper lower) =
      some (predicted (secondStage upper lower first) second) := by
    have afterFirst := updatePredictPath_single (firstStage upper) rfl firstPaths
    have afterSecond := updatePredictPath_single (secondStage upper lower first) rfl secondPaths
    change (((firstStage upper).updatePredictPath 3).bind fun view =>
      (view.createGravityWell 3 (view.screen.propToPoint ⟨1, 1 / 2 + 1 / 200⟩)
        (view.screen.propToFloat lower true) (view.screen.propToFloat (8 / 400) true) 100).bind some).bind
        some = _
    rw [afterFirst]
    change (((secondStage upper lower first).updatePredictPath 3).bind some).bind some = _
    rw [afterSecond]
    rfl
  exact ⟨_, second.line, _, _, built, rfl, rfl, rfl, rfl, rfl, secondRestart, paths, paths'⟩

theorem upperCore_collides (core thickness : CGFloat) :
    Circle.collidesWith ⟨⟨400, 400⟩, thickness / 2⟩ ⟨(upperCore core).corePoint, (upperCore core).coreDiameter / 2⟩ ↔
      16 ≤ (core * 400 / 2 + thickness / 2) * (core * 400 / 2 + thickness / 2) := by
  norm_num [Circle.collidesWith, upperCore, WellView.new, Screen.propToPoint, Screen.propToFloat, phone]

theorem lowerCore_collides (core thickness : CGFloat) :
    Circle.collidesWith ⟨⟨400, 400⟩, thickness / 2⟩ ⟨(lowerCore core).corePoint, (lowerCore core).coreDiameter / 2⟩ ↔
      16 ≤ (core * 400 / 2 + thickness / 2) * (core * 400 / 2 + thickness / 2) := by
  norm_num [Circle.collidesWith, lowerCore, WellView.new, Screen.propToPoint, Screen.propToFloat, phone]

theorem fastLine_thickness : fastLine.startThickness = 5 := by
  norm_num [fastLine, Line.new, Line.reset, Screen.propToFloat, phone]

/-- Where the line meets the cores. -/
theorem cores_meet {gravityWells : List GravityWell}
    (cores : ∀ gravWell ∈ gravityWells, ∃ core, gravWell = upperCore core ∨ gravWell = lowerCore core)
    {line : Line} (restart : line.restart = fastLine.restart) :
    pointAt gravityWells [] line 1 = ⟨400, 400⟩ ∧ thicknessAt gravityWells [] line 0 = 5 := by
  constructor
  · rw [pointAt, wayOf, freePoint_restart restart, ← wayOf, cores_way cores (by omega), fastLine_coast]
    ext <;> norm_num [pointOf, CGPoint.complex]
  · rw [thicknessAt_restart restart]
    exact fastLine_thickness

/-- A core of diameter 4 touches a line of thickness 4, a core of diameter 3 does not. -/
theorem wear_of_two_cores :
    handleCollisions ⟨400, 400⟩ 5 [upperCore (3 / 400), lowerCore (4 / 400)] = 3 ∧
    handleCollisions ⟨400, 400⟩ 5 [lowerCore (4 / 400), upperCore (3 / 400)] = 4 := by
  constructor <;> simp only [handleCollisions, upperCore_collides, lowerCore_collides] <;> norm_num

theorem pair_cores (upper lower : CGFloat) :
    (∀ gravWell ∈ [upperCore upper, lowerCore lower],
      ∃ core, gravWell = upperCore core ∨ gravWell = lowerCore core) ∧
    ∀ gravWell ∈ [lowerCore lower, upperCore upper],
      ∃ core, gravWell = upperCore core ∨ gravWell = lowerCore core := by
  simp only [List.forall_mem_cons, List.not_mem_nil, false_implies, implies_true, and_true]
  exact ⟨⟨⟨upper, .inl rfl⟩, ⟨lower, .inr rfl⟩⟩, ⟨⟨lower, .inr rfl⟩, ⟨upper, .inl rfl⟩⟩⟩

/-- The loop goes on after the turn at which the line meets the cores. -/
theorem twoCores_reaches : Reaches [upperCore (3 / 400), lowerCore (4 / 400)] [] fastLine 1 := by
  obtain ⟨cores, _⟩ := pair_cores (3 / 400) (4 / 400)
  obtain ⟨point, thickness⟩ := cores_meet cores (rfl : fastLine.restart = _)
  intro i most
  rw [cores_wayLength cores (by omega)]
  rcases (show i = 0 ∨ i = 1 by omega) with rfl | rfl
  · refine ⟨by norm_num, by rw [thickness]; norm_num, fun _ => ?_⟩
    have none_ : calculateGravityForces [upperCore (3 / 400), lowerCore (4 / 400)]
        (pointAt [upperCore (3 / 400), lowerCore (4 / 400)] [] fastLine 0) = some CGVector.zero := by
      refine calculateGravityForces_far fun gravWell member => ?_
      rw [pointAt, cores_way cores (by omega)]
      exact cores_far (cores gravWell member) (by omega)
    rw [forcesAt, none_]
    exact Option.some_ne_none _
  · refine ⟨by norm_num, ?_, fun below => absurd below (Nat.lt_irrefl 1)⟩
    rw [thicknessAt, point, thickness, wear_of_two_cores.1]
    norm_num

/-- Two cores of diameter 4 both touch a line of thickness 4. -/
theorem twins_leave_no_choice : ThresholdWear.Loses (reach ⟨400, 400⟩) 5
    [upperCore (4 / 400), lowerCore (4 / 400)] 2 := by
  have reaches : ∀ gravWell ∈ [upperCore (4 / 400), lowerCore (4 / 400)], reach ⟨400, 400⟩ gravWell ≤ 4 := by
    simp only [List.forall_mem_cons, List.not_mem_nil, false_implies, implies_true, and_true]
    constructor
    · refine (reach_le_iff _ ?_).mpr ⟨by norm_num, (upperCore_collides _ _).mpr (by norm_num)⟩
      norm_num [upperCore, WellView.new, Screen.propToFloat, phone]
    · refine (reach_le_iff _ ?_).mpr ⟨by norm_num, (lowerCore_collides _ _).mpr (by norm_num)⟩
      norm_num [lowerCore, WellView.new, Screen.propToFloat, phone]
  have both : ∀ thickness : ℝ, 4 ≤ thickness →
      ThresholdWear.within (reach ⟨400, 400⟩) thickness [upperCore (4 / 400), lowerCore (4 / 400)] = 2 :=
    fun thickness above => List.countP_eq_length.mpr fun gravWell member =>
      decide_eq_true ((reaches gravWell member).trans above)
  refine ⟨?_, .inl ?_⟩
  · rw [both _ (by norm_num)]
  · exact both _ (by norm_num)

end Example

end
end Arthius.Guarantees.WellOrder
