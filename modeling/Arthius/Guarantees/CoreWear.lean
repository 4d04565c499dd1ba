import Arthius.Lib.ThresholdWear
import Arthius.Guarantees.PlayerWells

/-!
# Wear by the cores

The collision loop takes one unit off a line for each core that touches it as thick
as it is by then. So what is lost at a point depends on the order of the cores, unless
the numbers of cores that touch a line there, from which thickness on, leave no choice.
-/
namespace Arthius.Guarantees.CoreWear
open Arthius.Lib Arthius.Source PredictionFrame PredictionTermination ThresholdWear

noncomputable section

section Collisions
variable (p : CGPoint)

def Touches (thickness : CGFloat) (gravWell : GravityWell) : Prop :=
  Circle.collidesWith ⟨p, thickness / 2⟩ ⟨gravWell.corePoint, gravWell.coreDiameter / 2⟩

section Turns
variable {p : CGPoint} {thickness : CGFloat} {first : GravityWell} (rest : List GravityWell)

theorem handleCollisions_hit (thick : 1 ≤ thickness) (touches : Touches p thickness first) :
    handleCollisions p thickness (first :: rest) = handleCollisions p (thickness - 1) rest := by
  have both : Circle.collidesWith ⟨p, thickness / 2⟩ ⟨first.corePoint, first.coreDiameter / 2⟩ ∧ thickness ≥ 1 :=
    ⟨touches, thick⟩
  rw [handleCollisions, if_pos both]

theorem handleCollisions_missed (missed : ¬ (1 ≤ thickness ∧ Touches p thickness first)) :
    handleCollisions p thickness (first :: rest) = handleCollisions p thickness rest := by
  have neither : ¬ (Circle.collidesWith ⟨p, thickness / 2⟩ ⟨first.corePoint, first.coreDiameter / 2⟩ ∧
      thickness ≥ 1) := fun both => missed ⟨both.2, both.1⟩
  rw [handleCollisions, if_neg neither]

end Turns

theorem handleCollisions_worn {thickness : CGFloat} (worn : thickness < 1) (wells : List GravityWell) :
    handleCollisions p thickness wells = thickness := by
  induction wells with
  | nil => rfl
  | cons first rest ih =>
    rw [handleCollisions_missed _ fun both => absurd both.1 (not_le.mpr worn)]
    exact ih

open Classical in
/-- A line that is thinner than two loses one unit, to whichever core. -/
theorem handleCollisions_thin {thickness : CGFloat} (thin : thickness < 2) (wells : List GravityWell) :
    handleCollisions p thickness wells =
      if 1 ≤ thickness ∧ ∃ gravWell ∈ wells, Touches p thickness gravWell then thickness - 1 else thickness := by
  induction wells with
  | nil => simp [handleCollisions]
  | cons first rest ih =>
    by_cases touched : 1 ≤ thickness ∧ Touches p thickness first
    · rw [handleCollisions_hit _ touched.1 touched.2, handleCollisions_worn p (by linarith) rest,
        if_pos ⟨touched.1, first, List.mem_cons_self, touched.2⟩]
    · rw [handleCollisions_missed _ touched, ih]
      refine if_congr ?_ rfl rfl
      rw [List.exists_mem_cons_iff]
      refine and_congr_right fun thick => (or_iff_right ?_).symm
      exact fun here => touched ⟨thick, here⟩

/-- How thick a line at `p` has to be for the core to take a unit off it. -/
def reach (gravWell : GravityWell) : CGFloat :=
  max 1 (2 * distance p gravWell.corePoint - gravWell.coreDiameter)

theorem reach_le_iff {gravWell : GravityWell} (sized : 0 ≤ gravWell.coreDiameter) {thickness : CGFloat} :
    reach p gravWell ≤ thickness ↔ 1 ≤ thickness ∧ Touches p thickness gravWell := by
  rw [reach, max_le_iff]
  refine and_congr_right fun thick => ?_
  have positive : 0 ≤ gravWell.coreDiameter / 2 + thickness / 2 := by linarith
  have near : Touches p thickness gravWell ↔
      distance p gravWell.corePoint ≤ gravWell.coreDiameter / 2 + thickness / 2 := by
    rw [distance, Real.sqrt_le_left positive, Touches, Circle.collidesWith, sq]
    dsimp only
    constructor <;> intro within_ <;> nlinarith
  rw [near]
  constructor <;> intro le <;> linarith

theorem handleCollisions_eq_hits {wells : List GravityWell}
    (sized : ∀ gravWell ∈ wells, 0 ≤ gravWell.coreDiameter) (thickness : CGFloat) :
    handleCollisions p thickness wells = thickness - hits (reach p) thickness wells := by
  induction wells generalizing thickness with
  | nil => simp [handleCollisions, hits]
  | cons first rest ih =>
    obtain ⟨sizedFirst, sizedRest⟩ := List.forall_mem_cons.mp sized
    by_cases touched : 1 ≤ thickness ∧ Touches p thickness first
    · rw [handleCollisions_hit _ touched.1 touched.2, hits_hit ((reach_le_iff p sizedFirst).mpr touched),
        ih sizedRest]
      push_cast
      ring
    · rw [handleCollisions_missed _ touched, hits_missed fun inReach => touched ((reach_le_iff p sizedFirst).mp inReach),
        ih sizedRest]

/-- The order of the cores does not show at a point exactly if their reaches leave no choice. -/
theorem handleCollisions_perm_iff {wells : List GravityWell}
    (sized : ∀ gravWell ∈ wells, 0 ≤ gravWell.coreDiameter) (thickness : CGFloat) (k : ℕ)
    (loses : handleCollisions p thickness wells = thickness - k) :
    (∀ wells' : List GravityWell, wells'.Perm wells →
      handleCollisions p thickness wells' = handleCollisions p thickness wells) ↔
      Loses (reach p) thickness wells k := by
  have count : hits (reach p) thickness wells = k := by
    rw [handleCollisions_eq_hits p sized, sub_right_inj] at loses
    exact_mod_cast loses
  rw [← count, ← hits_perm_iff]
  refine forall_congr' fun wells' => forall_congr' fun perm => ?_
  rw [handleCollisions_eq_hits p sized,
    handleCollisions_eq_hits p fun gravWell member => sized gravWell (perm.mem_iff.mp member), sub_right_inj,
    Nat.cast_inj]

end Collisions

section Turns
variable (gravityWells : List GravityWell) (antiGravityZones : List AntiGravityZone) (line : Line)

/-- What is left of the thickness after `n` turns, if so much is taken off at each. -/
def leftOf (taken : ℕ → ℕ) (n : ℕ) : CGFloat :=
  line.startThickness - ((Finset.range n).sum taken : ℕ)

theorem leftOf_succ (taken : ℕ → ℕ) (n : ℕ) : leftOf line taken (n + 1) = leftOf line taken n - taken n := by
  rw [leftOf, leftOf, Finset.sum_range_succ]
  push_cast
  ring

/-- The line gets through turn `n`, with way left after it. -/
def GoesOn (taken : ℕ → ℕ) (n : ℕ) : Prop := ∀ i ≤ n, 1 ≤ leftOf line taken i ∧
  forcesAt gravityWells antiGravityZones (pointAt gravityWells antiGravityZones line i) ≠ none ∧
  wayLength gravityWells antiGravityZones line (i + 1) < 700

/-- At each turn that the line gets through, the cores there leave no choice of how many
units they take off what is left of it. -/
def Steady : Prop := ∃ taken : ℕ → ℕ, ∀ n, GoesOn gravityWells antiGravityZones line taken n →
  Loses (reach (pointAt gravityWells antiGravityZones line (n + 1))) (leftOf line taken n) gravityWells (taken n)

end Turns

end
end Arthius.Guarantees.CoreWear
