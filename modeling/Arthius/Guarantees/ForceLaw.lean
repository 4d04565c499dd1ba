import Arthius.Source.PredictedPaths

/-!
# The force law

The loop of `calculateGravityForcesForLine` goes through `atan2`, `cos` and `sin`
and adds up in the order of the wells. What it returns is the sum of the
inverse-square attractions of the wells in reach.
-/
namespace Arthius.Guarantees.ForceLaw
open Arthius.Source

noncomputable section

instance : Zero CGVector := ⟨CGVector.zero⟩

instance : AddCommMonoid CGVector where
  add_assoc u v w := CGVector.ext (add_assoc _ _ _) (add_assoc _ _ _)
  zero_add v := CGVector.ext (zero_add _) (zero_add _)
  add_zero v := CGVector.ext (add_zero _) (add_zero _)
  add_comm v w := CGVector.ext (add_comm _ _) (add_comm _ _)
  nsmul := nsmulRec

section Plane
variable {z : ℂ} (k : ℝ)

/-- A strength of `k / r²` in the direction of `z`, in components. -/
theorem inverse_square_cos (away : z ≠ 0) :
    k / (‖z‖ * ‖z‖) * Real.cos (Complex.arg z) = k * z.re / ‖z‖ ^ 3 := by
  have positive : ‖z‖ ≠ 0 := norm_ne_zero_iff.mpr away
  rw [Complex.cos_arg away]
  field_simp

theorem inverse_square_sin (away : z ≠ 0) :
    k / (‖z‖ * ‖z‖) * Real.sin (Complex.arg z) = k * z.im / ‖z‖ ^ 3 := by
  have positive : ‖z‖ ≠ 0 := norm_ne_zero_iff.mpr away
  rw [Complex.sin_arg]
  field_simp

end Plane

theorem distance_eq_norm (p c : CGPoint) : distance p c = ‖(⟨c.x - p.x, c.y - p.y⟩ : ℂ)‖ := by
  rw [Complex.norm_eq_sqrt_sq_add_sq, distance]
  ring_nf

theorem distance_eq_zero_iff {p c : CGPoint} : distance p c = 0 ↔ c = p := by
  rw [distance_eq_norm, norm_eq_zero, Complex.ext_iff, CGPoint.ext_iff]
  exact and_congr sub_eq_zero sub_eq_zero

theorem distance_comm (p c : CGPoint) : distance p c = distance c p := by
  unfold distance
  ring_nf

/-- `G * mass * lineMass * (c - p) / |c - p|³` -/
def attraction (p : CGPoint) (gravWell : GravityWell) : CGVector :=
  ⟨G * gravWell.mass * Line.lineMass * (gravWell.center.x - p.x) / distance gravWell.center p ^ 3,
    G * gravWell.mass * Line.lineMass * (gravWell.center.y - p.y) / distance gravWell.center p ^ 3⟩

def InReach (p : CGPoint) (gravWell : GravityWell) : Prop :=
  distance gravWell.center p < gravWell.areaOfEffectDiameter / 2

instance (p : CGPoint) : DecidablePred (InReach p) := fun _ => Classical.dec _
instance (p q : CGPoint) : Decidable (p = q) := Classical.dec _

theorem force_eq_attraction {p : CGPoint} {gravWell : GravityWell} (away : gravWell.center ≠ p) :
    gravWell.force p = attraction p gravWell := by
  have apart : (⟨gravWell.center.x - p.x, gravWell.center.y - p.y⟩ : ℂ) ≠ 0 := by
    rwa [Ne, ← norm_eq_zero, ← distance_eq_norm, distance_eq_zero_iff]
  unfold GravityWell.force attraction atan2
  rw [distance_comm gravWell.center p, distance_eq_norm]
  exact CGVector.ext (inverse_square_cos _ apart) (inverse_square_sin _ apart)

/-- The line is at the centre of a well with an area of effect. -/
def AtCentre (p : CGPoint) (gravityWells : List GravityWell) : Prop :=
  ∃ gravWell ∈ gravityWells, gravWell.center = p ∧ 0 < gravWell.areaOfEffectDiameter

section Sum
variable {p : CGPoint} {gravityWells : List GravityWell}

theorem atCentre_cons {gravWell : GravityWell} : AtCentre p (gravWell :: gravityWells) ↔
    (gravWell.center = p ∧ 0 < gravWell.areaOfEffectDiameter) ∨ AtCentre p gravityWells := by
  unfold AtCentre
  rw [List.exists_mem_cons_iff]

theorem inReach_iff {gravWell : GravityWell} :
    InReach p gravWell ↔ distance p gravWell.center < gravWell.areaOfEffectDiameter / 2 := by
  rw [InReach, distance_comm]

theorem inReach_centre {gravWell : GravityWell} (here : gravWell.center = p) :
    InReach p gravWell ↔ 0 < gravWell.areaOfEffectDiameter := by
  rw [inReach_iff, distance_eq_zero_iff.mpr here]
  constructor <;> intro positive <;> linarith

/-- One turn of the loop of `calculateGravityForcesForLine`. -/
theorem sumGravityForces_cons (tempLineForces : CGVector) (gravWell : GravityWell)
    (rest : List GravityWell) : sumGravityForces p tempLineForces (gravWell :: rest) =
      if InReach p gravWell then
        if gravWell.center = p then none
        else sumGravityForces p (tempLineForces + attraction p gravWell) rest
      else sumGravityForces p tempLineForces rest := by
  simp only [sumGravityForces, ← inReach_iff, distance_eq_zero_iff]
  by_cases here : gravWell.center = p
  · rw [if_pos here, if_pos here]
  · rw [if_neg here, if_neg here, force_eq_attraction here]

/-- The whole loop, from any accumulator. -/
theorem sumGravityForces_eq (away : ¬ AtCentre p gravityWells) (tempLineForces : CGVector) :
    sumGravityForces p tempLineForces gravityWells =
      some (tempLineForces + ((gravityWells.filter (InReach p)).map (attraction p)).sum) := by
  induction gravityWells generalizing tempLineForces with
  | nil => simp [sumGravityForces]
  | cons gravWell rest ih =>
    rw [atCentre_cons, not_or] at away
    rw [sumGravityForces_cons]
    by_cases reaches : InReach p gravWell
    · have apart : gravWell.center ≠ p := fun here => away.1 ⟨here, (inReach_centre here).mp reaches⟩
      rw [if_pos reaches, if_neg apart, ih away.2, add_assoc]
      simp [reaches]
    · rw [if_neg reaches, ih away.2]
      simp [reaches]

/-- The loop divides by zero exactly at a centre. -/
theorem sumGravityForces_eq_none_iff (tempLineForces : CGVector) :
    sumGravityForces p tempLineForces gravityWells = none ↔ AtCentre p gravityWells := by
  constructor
  · intro undefined
    by_contra away
    rw [sumGravityForces_eq away] at undefined
    cases undefined
  · intro hit
    induction gravityWells generalizing tempLineForces with
    | nil =>
      obtain ⟨_, member, _⟩ := hit
      cases member
    | cons gravWell rest ih =>
      rw [sumGravityForces_cons]
      split_ifs with reaches here
      · rfl
      · exact ih _ ((atCentre_cons.mp hit).resolve_left fun first => here first.1)
      · refine ih _ ((atCentre_cons.mp hit).resolve_left fun first => reaches ?_)
        exact (inReach_centre first.1).mpr first.2

end Sum

section Order
variable {p : CGPoint} {gravityWells gravityWells' : List GravityWell}

theorem AtCentre.perm (perm : gravityWells.Perm gravityWells') :
    AtCentre p gravityWells ↔ AtCentre p gravityWells' :=
  exists_congr fun _ => and_congr_left fun _ => perm.mem_iff

/-- The order of the wells does not matter, not even at a centre. -/
theorem calculateGravityForces_perm (perm : gravityWells.Perm gravityWells') :
    calculateGravityForces gravityWells p = calculateGravityForces gravityWells' p := by
  unfold calculateGravityForces
  by_cases hit : AtCentre p gravityWells
  · rw [(sumGravityForces_eq_none_iff _).mpr hit,
      (sumGravityForces_eq_none_iff _).mpr ((AtCentre.perm perm).mp hit)]
  · have sums := ((perm.filter (InReach p)).map (attraction p)).sum_eq
    rw [sumGravityForces_eq hit, sumGravityForces_eq fun hit' => hit ((AtCentre.perm perm).mpr hit'),
      sums]

/-- Wells out of reach may as well not be there. -/
theorem calculateGravityForces_inReach :
    calculateGravityForces (gravityWells.filter (InReach p)) p =
      calculateGravityForces gravityWells p := by
  have hits : AtCentre p (gravityWells.filter (InReach p)) ↔ AtCentre p gravityWells := by
    constructor
    · intro ⟨gravWell, member, hit⟩
      exact ⟨gravWell, List.mem_of_mem_filter member, hit⟩
    · intro ⟨gravWell, member, hit⟩
      refine ⟨gravWell, List.mem_filter.mpr ⟨member, ?_⟩, hit⟩
      exact decide_eq_true ((inReach_centre hit.1).mpr hit.2)
  unfold calculateGravityForces
  by_cases hit : AtCentre p gravityWells
  · rw [(sumGravityForces_eq_none_iff _).mpr (hits.mpr hit), (sumGravityForces_eq_none_iff _).mpr hit]
  · rw [sumGravityForces_eq hit, sumGravityForces_eq fun hit' => hit (hits.mp hit'), List.filter_filter]
    simp only [Bool.and_self]

/-- Where no well reaches there is no force. -/
theorem calculateGravityForces_far (far : ∀ gravWell ∈ gravityWells, ¬ InReach p gravWell) :
    calculateGravityForces gravityWells p = some CGVector.zero := by
  have none_ : gravityWells.filter (InReach p) = [] :=
    List.filter_eq_nil_iff.mpr fun gravWell member => by simpa using far gravWell member
  rw [← calculateGravityForces_inReach, none_]
  rfl

end Order

/-- The prediction calls the function with whatever the line has. -/
theorem calculateGravityForcesForLine_eq (gravityWells : List GravityWell) (line : PulledLine) :
    calculateGravityForcesForLine gravityWells line =
      calculateGravityForces gravityWells line.currentPoint := rfl

/-- Away from every centre the force is the sum of the attractions in reach, in
any order, whatever `tempLineForces` was, and with or without the wells out of
reach. -/
theorem force_law (gravityWells : List GravityWell) (line : PulledLine)
    (away : ∀ gravWell ∈ gravityWells, gravWell.center ≠ line.currentPoint) :
    calculateGravityForcesForLine gravityWells line =
      some (((gravityWells.filter (InReach line.currentPoint)).map
        (attraction line.currentPoint)).sum) ∧
    (∀ gravityWells' : List GravityWell, gravityWells'.Perm gravityWells →
      calculateGravityForcesForLine gravityWells' line =
        calculateGravityForcesForLine gravityWells line) ∧
    (∀ tempLineForces, calculateGravityForcesForLine gravityWells
        { line with tempLineForces := tempLineForces } =
      calculateGravityForcesForLine gravityWells line) ∧
    calculateGravityForcesForLine (gravityWells.filter (InReach line.currentPoint)) line =
      calculateGravityForcesForLine gravityWells line := by
  have clear : ¬ AtCentre line.currentPoint gravityWells :=
    fun ⟨gravWell, member, hit, _⟩ => away gravWell member hit
  refine ⟨?_, fun _ perm => calculateGravityForces_perm perm, fun _ => rfl,
    calculateGravityForces_inReach⟩
  rw [calculateGravityForcesForLine_eq, calculateGravityForces, sumGravityForces_eq clear]
  exact congrArg some (zero_add _)

/-- A well of mass 4 two points to the right, and one that is too far up. -/
def rightWell : GravityWell := ⟨⟨2, 0⟩, ⟨2, 0⟩, 1, 5, 4⟩
def farWell : GravityWell := ⟨⟨0, 10⟩, ⟨0, 10⟩, 1, 5, 4⟩

theorem force_law_right : calculateGravityForcesForLine [farWell, rightWell] ⟨⟨0, 0⟩, ⟨3, 3⟩⟩ =
    some ⟨1, 0⟩ := by
  have near : distance ⟨2, 0⟩ ⟨0, 0⟩ = 2 := by
    rw [distance, Real.sqrt_eq_iff_mul_self_eq_of_pos] <;> norm_num
  have far : distance ⟨0, 10⟩ ⟨0, 0⟩ = 10 := by
    rw [distance, Real.sqrt_eq_iff_mul_self_eq_of_pos] <;> norm_num
  have inReach : InReach ⟨0, 0⟩ rightWell := by norm_num [InReach, rightWell, near]
  have outOfReach : ¬ InReach ⟨0, 0⟩ farWell := by norm_num [InReach, farWell, far]
  have sum := (force_law [farWell, rightWell] ⟨⟨0, 0⟩, ⟨3, 3⟩⟩ (by simp [farWell, rightWell])).1
  rw [sum]
  simp only [List.filter_cons, inReach, outOfReach, decide_true, decide_false, List.filter_nil, if_true]
  norm_num [attraction, rightWell, near, G, Line.lineMass]

end
end Arthius.Guarantees.ForceLaw
