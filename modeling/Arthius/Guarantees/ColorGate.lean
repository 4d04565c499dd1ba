import Arthius.Source.PredictedPaths

/-!
# The two-sided gate

A colour box is to change a line that enters it by the side of the line's own
colour and reaches the other side. `Gate.step` says so with one flag; the box's
two flags are shown to be that flag. What the flag remembers is then read off
the history of the line: it is up exactly when, in the same stay inside the body,
the line was on the side of its colour and has kept that colour since.
-/
namespace Arthius.Guarantees.ColorGate
open Arthius.Source

section Gate

inductive Side where
  | left | right
  deriving DecidableEq

def Side.opposite : Side → Side
  | .left => .right
  | .right => .left

/-- Where a point lies with respect to a box. -/
inductive Place where
  | outside | middle
  | on (side : Side)
  deriving DecidableEq

/-- The purpose of a box, as a step on the colour of the line and on the flag. -/
def Gate.step (sideColor : Side → Color) : Place → Color → Bool → Color × Bool
  | .outside, c, _ => (c, false)
  | .middle, c, armed => (c, armed)
  | .on side, c, armed =>
    if armed = true ∧ c = sideColor side.opposite then (sideColor side, false)
    else (c, armed || decide (c = sideColor side))

/-- A run of one gate. While the line is outside, anything may happen to its colour. -/
structure GateRun (sideColor : Side → Color) (place : ℕ → Place) (color : ℕ → Color)
    (armed : ℕ → Bool) : Prop where
  distinct : ∀ side, sideColor side.opposite ≠ sideColor side
  start : armed 0 = false
  outside : ∀ k, place k = .outside → armed (k + 1) = false
  inside : ∀ k, place k ≠ .outside →
    (color (k + 1), armed (k + 1)) = Gate.step sideColor (place k) (color k) (armed k)

/-- Since step `j`, the line has been inside, and it has kept the colour of the
side it was on at step `j`. -/
structure HeldSince (sideColor : Side → Color) (place : ℕ → Place) (color : ℕ → Color)
    (side : Side) (j k : ℕ) : Prop where
  earlier : j < k
  stay : ∀ i, j ≤ i → i < k → place i ≠ .outside
  entered : place j = .on side
  kept : ∀ i, j ≤ i → i ≤ k → color i = sideColor side

variable {sideColor : Side → Color} {place : ℕ → Place} {color : ℕ → Color} {armed : ℕ → Bool}
variable {side : Side} {j k : ℕ}

theorem HeldSince.now (held : HeldSince sideColor place color side j k) : color k = sideColor side :=
  held.kept k (Nat.le_of_lt held.earlier) (le_refl k)

theorem HeldSince.before (held : HeldSince sideColor place color side j (k + 1)) :
    color k = sideColor side :=
  held.kept k (Nat.lt_succ_iff.mp held.earlier) (Nat.le_succ k)

theorem HeldSince.succ (held : HeldSince sideColor place color side j k) (stays : place k ≠ .outside)
    (keeps : color (k + 1) = color k) : HeldSince sideColor place color side j (k + 1) where
  earlier := Nat.lt_succ_of_lt held.earlier
  entered := held.entered
  stay i since below := by
    rcases Nat.lt_succ_iff_lt_or_eq.mp below with earlier | rfl
    · exact held.stay i since earlier
    · exact stays
  kept i since below := by
    rcases Nat.le_succ_iff.mp below with earlier | rfl
    · exact held.kept i since earlier
    · exact keeps.trans held.now

theorem heldSince_self (entered : place k = .on side) (is : color k = sideColor side)
    (keeps : color (k + 1) = color k) : HeldSince sideColor place color side k (k + 1) where
  earlier := Nat.lt_succ_self k
  entered := entered
  stay i since below := by
    obtain rfl : i = k := by omega
    simp [entered]
  kept i since below := by
    rcases (show i = k ∨ i = k + 1 by omega) with rfl | rfl
    · exact is
    · exact keeps.trans is

/-- A history of the next step begins now or is one of this step. -/
theorem HeldSince.pred (held : HeldSince sideColor place color side j (k + 1)) :
    (j = k ∧ place k = .on side ∧ color k = sideColor side) ∨
      HeldSince sideColor place color side j k := by
  rcases Nat.lt_succ_iff_lt_or_eq.mp held.earlier with before | rfl
  · refine .inr ⟨before, fun i since below => ?_, held.entered, fun i since below => ?_⟩
    · exact held.stay i since (Nat.lt_succ_of_lt below)
    · exact held.kept i since (Nat.le_succ_of_le below)
  · exact .inl ⟨rfl, held.entered, held.before⟩

theorem GateRun.sideColor_inj (run : GateRun sideColor place color armed) {side side' : Side}
    (same : sideColor side = sideColor side') : side = side' := by
  cases side with
  | left => cases side' with
    | left => rfl
    | right => exact absurd same (run.distinct .right)
  | right => cases side' with
    | left => exact absurd same (run.distinct .left)
    | right => rfl

/-- On a side, the gate opens if the flag is up and the line has the opposite
colour; else the flag stays up, and goes up for a line of the side's colour. -/
theorem GateRun.on_side (run : GateRun sideColor place color armed) (entered : place k = .on side) :
    (armed k = true ∧ color k = sideColor side.opposite →
      color (k + 1) = sideColor side ∧ armed (k + 1) = false) ∧
    (¬ (armed k = true ∧ color k = sideColor side.opposite) →
      color (k + 1) = color k ∧ armed (k + 1) = (armed k || decide (color k = sideColor side))) := by
  have step := run.inside k (by simp [entered])
  simp only [entered, Gate.step] at step
  constructor
  · intro opens
    rw [if_pos opens] at step
    exact Prod.mk.inj step
  · intro shut
    rw [if_neg shut] at step
    exact Prod.mk.inj step

/-- What the flag remembers. -/
theorem GateRun.armed_iff (run : GateRun sideColor place color armed) (k : ℕ) :
    armed k = true ↔ ∃ j side, HeldSince sideColor place color side j k := by
  induction k with
  | zero =>
    rw [run.start]
    refine ⟨fun up => absurd up Bool.false_ne_true, fun ⟨j, side, held⟩ => ?_⟩
    exact absurd held.earlier (Nat.not_lt_zero j)
  | succ k ih =>
    cases entered : place k with
    | outside =>
      rw [run.outside k entered]
      refine ⟨fun up => absurd up Bool.false_ne_true, fun ⟨j, side, held⟩ => ?_⟩
      exact absurd entered (held.stay k (Nat.lt_succ_iff.mp held.earlier) (Nat.lt_succ_self k))
    | middle =>
      have step := run.inside k (by simp [entered])
      rw [entered] at step
      obtain ⟨keeps, same⟩ := Prod.mk.inj step
      rw [same, ih]
      constructor
      · intro ⟨j, side, held⟩
        exact ⟨j, side, held.succ (by simp [entered]) keeps⟩
      · intro ⟨j, side, held⟩
        rcases held.pred with ⟨_, onSide, _⟩ | held
        · simp [entered] at onSide
        · exact ⟨j, side, held⟩
    | on side =>
      obtain ⟨opens, shut⟩ := run.on_side entered
      by_cases through : armed k = true ∧ color k = sideColor side.opposite
      · -- the line has just changed, so no colour has been kept up to now
        obtain ⟨changed, down⟩ := opens through
        rw [down]
        refine ⟨fun up => absurd up Bool.false_ne_true, fun ⟨j, side', held⟩ => ?_⟩
        have same : color (k + 1) = color k := held.now.trans held.before.symm
        rw [changed, through.2] at same
        exact absurd same.symm (run.distinct side)
      · obtain ⟨keeps, flag⟩ := shut through
        rw [flag, Bool.or_eq_true, ih, decide_eq_true_eq]
        constructor
        · rintro (⟨j, side', held⟩ | is)
          · exact ⟨j, side', held.succ (by simp [entered]) keeps⟩
          · exact ⟨k, side, heldSince_self entered is keeps⟩
        · intro ⟨j, side', held⟩
          rcases held.pred with ⟨rfl, onSide, is⟩ | held
          · obtain rfl : side = side' := Place.on.inj (entered.symm.trans onSide)
            exact .inr is
          · exact .inl ⟨j, side', held⟩

/-- The line changes at a step inside exactly when it reaches a side with the
colour of the opposite one, held since it was there. -/
theorem GateRun.changes_iff (run : GateRun sideColor place color armed) (k : ℕ)
    (inside : place k ≠ .outside) (side : Side) :
    (color k ≠ sideColor side ∧ color (k + 1) = sideColor side) ↔
      place k = .on side ∧ color k = sideColor side.opposite ∧
        ∃ j, HeldSince sideColor place color side.opposite j k := by
  have heldOpposite : armed k = true ∧ color k = sideColor side.opposite →
      ∃ j, HeldSince sideColor place color side.opposite j k := by
    intro ⟨up, is⟩
    obtain ⟨j, side', held⟩ := (run.armed_iff k).mp up
    obtain rfl : side' = side.opposite := run.sideColor_inj (held.now.symm.trans is)
    exact ⟨j, held⟩
  constructor
  · intro ⟨other, becomes⟩
    cases entered : place k with
    | outside => exact absurd entered inside
    | middle =>
      have step := run.inside k inside
      rw [entered] at step
      obtain ⟨keeps, _⟩ := Prod.mk.inj step
      exact absurd (keeps.symm.trans becomes) other
    | on side' =>
      obtain ⟨opens, shut⟩ := run.on_side entered
      by_cases through : armed k = true ∧ color k = sideColor side'.opposite
      · obtain ⟨changed, _⟩ := opens through
        obtain rfl : side' = side := run.sideColor_inj (changed.symm.trans becomes)
        exact ⟨rfl, through.2, heldOpposite through⟩
      · exact absurd ((shut through).1.symm.trans becomes) other
  · intro ⟨entered, is, j, held⟩
    obtain ⟨opens, _⟩ := run.on_side entered
    have up : armed k = true := (run.armed_iff k).mpr ⟨j, _, held⟩
    exact ⟨is ▸ run.distinct side, (opens ⟨up, is⟩).1⟩

/-- A line that changes inside takes the colour of one of the sides. -/
theorem GateRun.changes_to_side (run : GateRun sideColor place color armed) (k : ℕ)
    (inside : place k ≠ .outside) (changes : color (k + 1) ≠ color k) :
    ∃ side, color (k + 1) = sideColor side := by
  cases entered : place k with
  | outside => exact absurd entered inside
  | middle =>
    have step := run.inside k inside
    rw [entered] at step
    exact absurd (Prod.mk.inj step).1 changes
  | on side =>
    obtain ⟨opens, shut⟩ := run.on_side entered
    by_cases through : armed k = true ∧ color k = sideColor side.opposite
    · exact ⟨side, (opens through).1⟩
    · exact absurd (shut through).1 changes

end Gate

section Box

def sideColor (box : ColorBox) : Side → Color
  | .left => box.leftColor
  | .right => box.rightColor

def pointOnSide (box : ColorBox) : Side → CGPoint → Prop
  | .left => box.pointInLeftRect
  | .right => box.pointInRightRect

open Classical in
noncomputable def placeOf (box : ColorBox) (p : CGPoint) : Place :=
  if box.pointInBody p then
    if pointOnSide box .left p then .on .left else if pointOnSide box .right p then .on .right
    else .middle
  else .outside

variable (box : ColorBox) (lineUUID : String) (p : CGPoint) (c : Color)

/-- A half of the loop body, for a box whose second flag is down, is a step of
the gate on that side, and leaves the second flag down. -/
theorem handleSide_eq (own other : Color) (idle : box.getStep2 lineUUID = false) :
    let handled := handleSide lineUUID own other c box
    (handled.1, handled.2.getStep1 lineUUID) =
        (if box.getStep1 lineUUID = true ∧ c = other then (own, false)
          else (c, box.getStep1 lineUUID || decide (c = own))) ∧
      handled.2.getStep2 lineUUID = false ∧ handled.2.shape = box.shape := by
  unfold handleSide
  by_cases up : box.getStep1 lineUUID = false
  · by_cases is : own = c
    · simp [up, is, idle]
    · simp [up, is, idle, Ne.symm is]
  · rw [Bool.not_eq_false] at up
    by_cases through : c = other
    · simp [up, through]
    · simp [up, through, idle]

/-- The two sides have no point in common. -/
theorem not_both_sides (narrow : 0 ≤ box.middlePropWidth ∧ box.middlePropWidth ≤ 1) (side : Side) :
    ¬ (pointOnSide box side p ∧ pointOnSide box side.opposite p) := by
  have apart : ¬ (box.pointInLeftRect p ∧ box.pointInRightRect p) := by
    intro ⟨left, right⟩
    have wide : 0 ≤ box.frame.width := abs_nonneg _
    have high : 0 ≤ box.frame.height := abs_nonneg _
    have middle := mul_nonneg narrow.1 wide
    have sides := mul_nonneg (sub_nonneg.mpr narrow.2) wide
    have half : 0 ≤ box.frame.width / 2 - box.middlePropWidth / 2 * box.frame.width := by linarith
    rw [ColorBox.pointInLeftRect, ColorBox.leftFrame, CGRect.contains_mk4 half high] at left
    rw [ColorBox.pointInRightRect, ColorBox.rightFrame, CGRect.contains_mk4 half high] at right
    linarith
  intro ⟨one, other⟩
  cases side with
  | left => exact apart ⟨one, other⟩
  | right => exact apart ⟨other, one⟩

theorem placeOf_eq_on (narrow : 0 ≤ box.middlePropWidth ∧ box.middlePropWidth ≤ 1) (side : Side) :
    placeOf box p = .on side ↔ box.pointInBody p ∧ pointOnSide box side p := by
  have apart := not_both_sides box p narrow side
  unfold placeOf
  cases side with
  | left =>
    split_ifs <;> simp_all
  | right =>
    split_ifs <;> simp_all [Side.opposite]

theorem placeOf_eq_outside : placeOf box p = .outside ↔ ¬ box.pointInBody p := by
  unfold placeOf
  split_ifs <;> simp_all

/-- For one box, the code is a step of the gate. -/
theorem handleColorBox_gate (narrow : 0 ≤ box.middlePropWidth ∧ box.middlePropWidth ≤ 1)
    (idle : box.getStep2 lineUUID = false) :
    let handled := handleColorBox lineUUID p c box
    (handled.1, handled.2.getStep1 lineUUID) =
        Gate.step (sideColor box) (placeOf box p) c (box.getStep1 lineUUID) ∧
      handled.2.getStep2 lineUUID = false ∧ handled.2.shape = box.shape := by
  unfold handleColorBox
  cases place : placeOf box p with
  | outside =>
    have out := (placeOf_eq_outside box p).mp place
    simp [out, Gate.step]
  | middle =>
    have inBody : box.pointInBody p := by
      by_contra out
      simp [(placeOf_eq_outside box p).mpr out] at place
    have noSide : ∀ side, ¬ pointOnSide box side p := by
      intro side onSide
      simp [(placeOf_eq_on box p narrow side).mpr ⟨inBody, onSide⟩] at place
    have noLeft : ¬ box.pointInLeftRect p := noSide .left
    have noRight : ¬ box.pointInRightRect p := noSide .right
    simp [inBody, noLeft, noRight, Gate.step, idle]
  | on side =>
    obtain ⟨inBody, onSide⟩ := (placeOf_eq_on box p narrow side).mp place
    have offSide : ¬ pointOnSide box side.opposite p := fun other =>
      not_both_sides box p narrow side ⟨onSide, other⟩
    cases side with
    | left =>
      have left : box.pointInLeftRect p := onSide
      have shape := (handleSide_eq box lineUUID c box.leftColor box.rightColor idle).2.2
      have noRight : ¬ (handleSide lineUUID box.leftColor box.rightColor c box).2.pointInRightRect p := by
        rw [← ColorBox.pointInRightRect_shape, shape]
        exact offSide
      simp only [if_pos inBody, if_pos left, if_neg noRight]
      exact handleSide_eq box lineUUID c box.leftColor box.rightColor idle
    | right =>
      have right : box.pointInRightRect p := onSide
      have noLeft : ¬ box.pointInLeftRect p := offSide
      simp only [if_pos inBody, if_neg noLeft, if_pos right]
      exact handleSide_eq box lineUUID c box.rightColor box.leftColor idle

end Box

section Call

/-- Boxes whose bodies are pairwise disjoint. -/
def Apart (boxes : List ColorBox) : Prop :=
  boxes.Pairwise fun box other => ∀ p, ¬ (box.pointInBody p ∧ other.pointInBody p)

/-- At most one of the boxes holds the point. -/
def ApartAt (p : CGPoint) (boxes : List ColorBox) : Prop :=
  boxes.Pairwise fun box other => ¬ (box.pointInBody p ∧ other.pointInBody p)

theorem Apart.at {boxes : List ColorBox} (apart : Apart boxes) (p : CGPoint) : ApartAt p boxes :=
  apart.imp fun apart => apart p

variable {lineUUID : String} {p : CGPoint} {c : Color} {box : ColorBox} {boxes : List ColorBox}

/-- A box the line is not in leaves the colour alone, whatever it is. -/
theorem handleColorBox_out (lineUUID : String) (c : Color) (out : ¬ box.pointInBody p) :
    handleColorBox lineUUID p c box = (c, (box.setStep1 lineUUID false).setStep2 lineUUID false) := by
  unfold handleColorBox
  rw [if_neg out]

theorem handleColorBoxes_out (out : ∀ box ∈ boxes, ¬ box.pointInBody p) :
    handleColorBoxes lineUUID p c boxes =
      (c, boxes.map fun box => (box.setStep1 lineUUID false).setStep2 lineUUID false) := by
  induction boxes with
  | nil => rfl
  | cons box rest ih =>
    have restOut := ih fun other member => out other (List.mem_cons_of_mem _ member)
    have boxOut := handleColorBox_out lineUUID c (out box (List.mem_cons_self ..))
    simp only [handleColorBoxes, boxOut, restOut, List.map_cons]

theorem handleColorBoxes_append (more : List ColorBox) :
    (handleColorBoxes lineUUID p c (boxes ++ more)).1 =
      (handleColorBoxes lineUUID p (handleColorBoxes lineUUID p c boxes).1 more).1 := by
  induction boxes generalizing c with
  | nil => rfl
  | cons box rest ih => exact ih

/-- Only one box can hold the point, so that each box sees the colour the call
was made with. -/
theorem handleColorBoxes_apart (lineUUID : String) (p : CGPoint) (c : Color) (apart : ApartAt p boxes) :
    (handleColorBoxes lineUUID p c boxes).2 =
        (boxes.map fun box => (handleColorBox lineUUID p c box).2) ∧
      ∀ box ∈ boxes, box.pointInBody p →
        (handleColorBoxes lineUUID p c boxes).1 = (handleColorBox lineUUID p c box).1 := by
  induction boxes with
  | nil => simp [handleColorBoxes]
  | cons box rest ih =>
    obtain ⟨first, restApart⟩ := List.pairwise_cons.mp apart
    obtain ⟨same, color⟩ := ih restApart
    by_cases inBody : box.pointInBody p
    · have out : ∀ other ∈ rest, ¬ other.pointInBody p := fun other member inOther =>
        first other member ⟨inBody, inOther⟩
      constructor
      · simp only [handleColorBoxes, handleColorBoxes_out out, List.map_cons, List.cons.injEq, true_and]
        apply List.map_congr_left
        intro other member
        rw [handleColorBox_out lineUUID c (out other member)]
      · intro other member inOther
        rcases List.mem_cons.mp member with rfl | later
        · simp only [handleColorBoxes, handleColorBoxes_out out]
        · exact absurd inOther (out other later)
    · have keeps := handleColorBox_out lineUUID c inBody
      constructor
      · simp only [handleColorBoxes, keeps, same, List.map_cons]
      · intro other member inOther
        rcases List.mem_cons.mp member with rfl | later
        · exact absurd inOther inBody
        · simp only [handleColorBoxes, keeps]
          exact color other later inOther

/-- The order of the boxes does not matter to a call. -/
theorem handleColorBoxes_perm {boxes' : List ColorBox} (apart : ApartAt p boxes) (apart' : ApartAt p boxes')
    (perm : boxes.Perm boxes') :
    (handleColorBoxes lineUUID p c boxes).1 = (handleColorBoxes lineUUID p c boxes').1 ∧
      (handleColorBoxes lineUUID p c boxes).2.Perm (handleColorBoxes lineUUID p c boxes').2 := by
  obtain ⟨same, color⟩ := handleColorBoxes_apart lineUUID p c apart
  obtain ⟨same', color'⟩ := handleColorBoxes_apart lineUUID p c apart'
  constructor
  · by_cases holds : ∃ box ∈ boxes, box.pointInBody p
    · obtain ⟨box, member, inBody⟩ := holds
      rw [color box member inBody, color' box (perm.mem_iff.mp member) inBody]
    · have out : ∀ box ∈ boxes, ¬ box.pointInBody p := fun box member inBody =>
        holds ⟨box, member, inBody⟩
      have out' : ∀ box ∈ boxes', ¬ box.pointInBody p := fun box member =>
        out box (perm.mem_iff.mpr member)
      rw [handleColorBoxes_out out, handleColorBoxes_out out']
  · rw [same, same']
    exact perm.map _

end Call

section Feed

/-- The line and the boxes before call `k`, when call `i` is made at `points i`. -/
noncomputable def feed (line : Line) (boxes : List ColorBox) (points : ℕ → CGPoint) :
    ℕ → Line × List ColorBox
  | 0 => (line, boxes)
  | k + 1 =>
    let before := feed line boxes points k
    handleColorBoxesForLine { before.1 with currentPoint := points k } before.2

variable (line : Line) (boxes : List ColorBox) (points : ℕ → CGPoint)

noncomputable def colorAt (k : ℕ) : Color := (feed line boxes points k).1.lineColor

/-- A box before call `k`. -/
noncomputable def boxAt (box : ColorBox) : ℕ → ColorBox
  | 0 => box
  | k + 1 => (handleColorBox line.uuid (points k) (colorAt line boxes points k) (boxAt box k)).2

/-- The colour of the line in call `k` after the first `i` boxes have had their turn. -/
noncomputable def turnColor (k i : ℕ) : Color :=
  (handleColorBoxes line.uuid (points k) (colorAt line boxes points k)
    ((feed line boxes points k).2.take i)).1

/-- In call `k`, box number `i` changes the line's colour to `c`. -/
def ChangesTo (k i : ℕ) (c : Color) : Prop :=
  turnColor line boxes points k i ≠ c ∧ turnColor line boxes points k (i + 1) = c

/-- What the boxes and the line are to begin with. -/
structure Gates (line : Line) (boxes : List ColorBox) : Prop where
  apart : Apart boxes
  narrow : ∀ box ∈ boxes, 0 ≤ box.middlePropWidth ∧ box.middlePropWidth ≤ 1
  distinct : ∀ box ∈ boxes, box.leftColor ≠ box.rightColor
  clear : ∀ box ∈ boxes, box.getStep1 line.uuid = false ∧ box.getStep2 line.uuid = false

variable {line boxes} {box : ColorBox}

@[simp] theorem feed_uuid (k : ℕ) : (feed line boxes points k).1.uuid = line.uuid := by
  induction k with
  | zero => rfl
  | succ k ih => exact ih

/-- A box keeps its shape, and its second flag is down after every call. -/
theorem Gates.boxAt_idle (gates : Gates line boxes) (member : box ∈ boxes) (k : ℕ) :
    (boxAt line boxes points box k).shape = box.shape ∧
      (boxAt line boxes points box k).getStep2 line.uuid = false := by
  induction k with
  | zero => exact ⟨rfl, (gates.clear box member).2⟩
  | succ k ih =>
    have narrow : 0 ≤ (boxAt line boxes points box k).shape.middlePropWidth ∧
        (boxAt line boxes points box k).shape.middlePropWidth ≤ 1 := by
      rw [ih.1]
      exact gates.narrow box member
    obtain ⟨_, idle, shape⟩ := handleColorBox_gate (boxAt line boxes points box k) line.uuid (points k)
      (colorAt line boxes points k) narrow ih.2
    exact ⟨shape.trans ih.1, idle⟩

theorem Gates.boxAt_inBody (gates : Gates line boxes) (member : box ∈ boxes) (k : ℕ) (p : CGPoint) :
    (boxAt line boxes points box k).pointInBody p ↔ box.pointInBody p := by
  rw [← ColorBox.pointInBody_shape, (gates.boxAt_idle points member k).1, ColorBox.pointInBody_shape]

theorem Gates.apart_boxAt (gates : Gates line boxes) (k : ℕ) :
    Apart (boxes.map (boxAt line boxes points · k)) := by
  refine List.pairwise_map.mpr (gates.apart.imp_of_mem ?_)
  intro box other member memberOther apart p
  rw [gates.boxAt_inBody points member, gates.boxAt_inBody points memberOther]
  exact apart p

/-- Every box goes its own way, for the colour the line has before each call. -/
theorem Gates.feed_boxes (gates : Gates line boxes) (k : ℕ) :
    (feed line boxes points k).2 = boxes.map (boxAt line boxes points · k) := by
  induction k with
  | zero => exact (List.map_id boxes).symm
  | succ k ih =>
    obtain ⟨same, _⟩ := handleColorBoxes_apart line.uuid (points k)
      (colorAt line boxes points k) ((gates.apart_boxAt points k).at _)
    simp only [feed, handleColorBoxesForLine, feed_uuid, ih]
    apply same.trans
    rw [List.map_map]
    rfl

theorem Gates.colorAt_succ (gates : Gates line boxes) (k : ℕ) :
    colorAt line boxes points (k + 1) =
      (handleColorBoxes line.uuid (points k) (colorAt line boxes points k)
        (boxes.map (boxAt line boxes points · k))).1 := by
  rw [← gates.feed_boxes points k, ← feed_uuid points k]
  rfl

theorem Gates.colorAt_inBody (gates : Gates line boxes) (member : box ∈ boxes) (k : ℕ)
    (inBody : box.pointInBody (points k)) :
    colorAt line boxes points (k + 1) =
      (handleColorBox line.uuid (points k) (colorAt line boxes points k)
        (boxAt line boxes points box k)).1 := by
  rw [gates.colorAt_succ]
  apply (handleColorBoxes_apart _ _ _ ((gates.apart_boxAt points k).at _)).2 _ (List.mem_map_of_mem member)
  exact (gates.boxAt_inBody points member k _).mpr inBody

theorem Gates.colorAt_out (gates : Gates line boxes) (k : ℕ)
    (out : ∀ box ∈ boxes, ¬ box.pointInBody (points k)) :
    colorAt line boxes points (k + 1) = colorAt line boxes points k := by
  rw [gates.colorAt_succ, handleColorBoxes_out]
  intro other memberOther
  obtain ⟨box, member, rfl⟩ := List.mem_map.mp memberOther
  rw [gates.boxAt_inBody points member]
  exact out box member

theorem sideColor_shape (box : ColorBox) : sideColor box.shape = sideColor box := by
  funext side
  cases side <;> rfl

/-- Each box's flag and the line make a run of the gate. -/
theorem Gates.gateRun (gates : Gates line boxes) (member : box ∈ boxes) :
    GateRun (sideColor box) (fun k => placeOf box (points k)) (colorAt line boxes points)
      (fun k => (boxAt line boxes points box k).getStep1 line.uuid) where
  distinct side := by
    cases side with
    | left => exact (gates.distinct box member).symm
    | right => exact gates.distinct box member
  start := (gates.clear box member).1
  outside k out := by
    have notIn := (placeOf_eq_outside box (points k)).mp out
    rw [← gates.boxAt_inBody points member k] at notIn
    simp only [boxAt, handleColorBox_out _ _ notIn]
    simp
  inside k inside := by
    have inBody : box.pointInBody (points k) := by
      by_contra out
      exact inside ((placeOf_eq_outside box (points k)).mpr out)
    obtain ⟨shape, idle⟩ := gates.boxAt_idle points member k
    have narrow : 0 ≤ (boxAt line boxes points box k).shape.middlePropWidth ∧
        (boxAt line boxes points box k).shape.middlePropWidth ≤ 1 := by
      rw [shape]
      exact gates.narrow box member
    obtain ⟨step, _, _⟩ := handleColorBox_gate (boxAt line boxes points box k) line.uuid (points k)
      (colorAt line boxes points k) narrow idle
    have samePlace : placeOf (boxAt line boxes points box k) (points k) = placeOf box (points k) := by
      change placeOf (boxAt line boxes points box k).shape (points k) = placeOf box.shape (points k)
      rw [shape]
    rw [gates.colorAt_inBody points member k inBody]
    rw [samePlace, ← sideColor_shape, shape, sideColor_shape] at step
    exact step

/-- In a call, a box changes the colour from what it was before the call to
what it is after it, or not at all. -/
theorem Gates.turnColor_cases (gates : Gates line boxes) {i : ℕ} (at_ : boxes[i]? = some box) (k : ℕ) :
    (box.pointInBody (points k) → turnColor line boxes points k i = colorAt line boxes points k ∧
      turnColor line boxes points k (i + 1) = colorAt line boxes points (k + 1)) ∧
    (¬ box.pointInBody (points k) →
      turnColor line boxes points k (i + 1) = turnColor line boxes points k i) := by
  obtain ⟨below, is⟩ := List.getElem?_eq_some_iff.mp at_
  have member : box ∈ boxes := is ▸ List.getElem_mem below
  have taken : (feed line boxes points k).2.take (i + 1) =
      (feed line boxes points k).2.take i ++ [boxAt line boxes points box k] := by
    have there : (feed line boxes points k).2[i]? = some (boxAt line boxes points box k) := by
      rw [gates.feed_boxes points k, List.getElem?_map, at_]
      rfl
    rw [List.take_add_one, there]
    rfl
  have turn : turnColor line boxes points k (i + 1) =
      (handleColorBox line.uuid (points k) (turnColor line boxes points k i)
        (boxAt line boxes points box k)).1 := by
    simp only [turnColor, taken, handleColorBoxes_append]
    rfl
  constructor
  · intro inBody
    have before : turnColor line boxes points k i = colorAt line boxes points k := by
      have out : ∀ other ∈ (feed line boxes points k).2.take i, ¬ other.pointInBody (points k) := by
        intro other early inOther
        have apart : Apart ((feed line boxes points k).2.take (i + 1)) := by
          rw [gates.feed_boxes points k]
          exact (gates.apart_boxAt points k).sublist (List.take_sublist _ _)
        rw [taken] at apart
        refine (List.pairwise_append.mp apart).2.2 other early _ (List.mem_singleton.mpr rfl) (points k)
          ⟨inOther, (gates.boxAt_inBody points member k _).mpr inBody⟩
      rw [turnColor, handleColorBoxes_out out]
    rw [turn, before, gates.colorAt_inBody points member k inBody]
    exact ⟨rfl, rfl⟩
  · intro out
    rw [← gates.boxAt_inBody points member k] at out
    rw [turn, handleColorBox_out _ _ out]

variable (line boxes) in
/-- The rule of the gate in terms of the history: the line reaches `side` with
the colour of the opposite side, at which it was at an earlier step of the same
stay inside the body, and of which it has been at every step since. -/
def Crosses (box : ColorBox) (side : Side) (k : ℕ) : Prop :=
  pointOnSide box side (points k) ∧ colorAt line boxes points k = sideColor box side.opposite ∧
    ∃ j < k, (∀ i, j ≤ i → i ≤ k → box.pointInBody (points i)) ∧
      pointOnSide box side.opposite (points j) ∧
      ∀ i, j ≤ i → i ≤ k → colorAt line boxes points i = sideColor box side.opposite

theorem Gates.changesTo_side_iff (gates : Gates line boxes) {i : ℕ} (at_ : boxes[i]? = some box)
    (k : ℕ) (side : Side) :
    ChangesTo line boxes points k i (sideColor box side) ↔
      Crosses line boxes points box side k := by
  obtain ⟨below, is⟩ := List.getElem?_eq_some_iff.mp at_
  have member : box ∈ boxes := is ▸ List.getElem_mem below
  obtain ⟨inside, outside⟩ := gates.turnColor_cases points at_ k
  have narrow := gates.narrow box member
  by_cases inBody : box.pointInBody (points k)
  · obtain ⟨before, after⟩ := inside inBody
    have notOut : placeOf box (points k) ≠ .outside :=
      fun out => (placeOf_eq_outside box (points k)).mp out inBody
    unfold ChangesTo
    rw [before, after, (gates.gateRun points member).changes_iff k notOut side]
    rw [placeOf_eq_on box (points k) narrow]
    constructor
    · intro ⟨⟨_, onSide⟩, is, j, held⟩
      refine ⟨onSide, is, j, held.earlier, fun i since below => ?_, ?_, held.kept⟩
      · rcases Nat.lt_or_eq_of_le below with below | rfl
        · exact not_not.mp fun out => held.stay i since below ((placeOf_eq_outside box _).mpr out)
        · exact inBody
      · exact ((placeOf_eq_on box (points j) narrow _).mp held.entered).2
    · intro ⟨onSide, is, j, earlier, stay, entered, kept⟩
      refine ⟨⟨inBody, onSide⟩, is, j, earlier, fun i since below => ?_, ?_, kept⟩
      · exact fun out => (placeOf_eq_outside box _).mp out (stay i since (Nat.le_of_lt below))
      · have there := stay j (le_refl j) (Nat.le_of_lt earlier)
        exact (placeOf_eq_on box (points j) narrow _).mpr ⟨there, entered⟩
  · constructor
    · intro ⟨other, becomes⟩
      exact absurd ((outside inBody).symm.trans becomes) other
    · intro ⟨_, _, j, earlier, stay, _⟩
      exact absurd (stay k (Nat.le_of_lt earlier) (le_refl k)) inBody

theorem Gates.changesTo_is_side (gates : Gates line boxes) {i : ℕ} (at_ : boxes[i]? = some box)
    (k : ℕ) {c : Color} (changes : ChangesTo line boxes points k i c) : ∃ side, c = sideColor box side := by
  obtain ⟨below, is⟩ := List.getElem?_eq_some_iff.mp at_
  have member : box ∈ boxes := is ▸ List.getElem_mem below
  obtain ⟨inside, outside⟩ := gates.turnColor_cases points at_ k
  obtain ⟨other, becomes⟩ := changes
  have inBody : box.pointInBody (points k) := by
    by_contra out
    exact other ((outside out).symm.trans becomes)
  obtain ⟨before, after⟩ := inside inBody
  have notOut : placeOf box (points k) ≠ .outside :=
    fun out => (placeOf_eq_outside box (points k)).mp out inBody
  have changed : colorAt line boxes points (k + 1) ≠ colorAt line boxes points k := by
    rw [← before, ← after, becomes]
    exact Ne.symm other
  obtain ⟨side, is⟩ := (gates.gateRun points member).changes_to_side k notOut changed
  exact ⟨side, becomes.symm.trans (after.trans is)⟩

/-- The colour changes in a call only by a crossing. -/
theorem Gates.exists_crosses (gates : Gates line boxes) {k : ℕ}
    (changed : colorAt line boxes points (k + 1) ≠ colorAt line boxes points k) :
    ∃ box ∈ boxes, ∃ side, Crosses line boxes points box side k := by
  by_cases holds : ∃ box ∈ boxes, box.pointInBody (points k)
  · obtain ⟨box, member, inBody⟩ := holds
    obtain ⟨i, at_⟩ := List.mem_iff_getElem?.mp member
    obtain ⟨before, after⟩ := (gates.turnColor_cases points at_ k).1 inBody
    have changes : ChangesTo line boxes points k i (colorAt line boxes points (k + 1)) :=
      ⟨before ▸ Ne.symm changed, after⟩
    obtain ⟨side, is⟩ := gates.changesTo_is_side points at_ k changes
    rw [is] at changes
    exact ⟨box, member, side, (gates.changesTo_side_iff points at_ k side).mp changes⟩
  · exact absurd (gates.colorAt_out points k fun box member inBody => holds ⟨box, member, inBody⟩) changed

theorem Gates.perm (gates : Gates line boxes) {boxes' : List ColorBox} (perm : boxes.Perm boxes') :
    Gates line boxes' where
  apart := (perm.pairwise_iff fun apart p both => apart p both.symm).mp gates.apart
  narrow box member := gates.narrow box (perm.mem_iff.mpr member)
  distinct box member := gates.distinct box (perm.mem_iff.mpr member)
  clear box member := gates.clear box (perm.mem_iff.mpr member)

theorem Gates.feed_perm (gates : Gates line boxes) {boxes' : List ColorBox} (perm : boxes.Perm boxes')
    (k : ℕ) : (feed line boxes' points k).1 = (feed line boxes points k).1 ∧
      (feed line boxes points k).2.Perm (feed line boxes' points k).2 := by
  induction k with
  | zero => exact ⟨rfl, perm⟩
  | succ k ih =>
    have apart : Apart (feed line boxes points k).2 := by
      rw [gates.feed_boxes points k]
      exact gates.apart_boxAt points k
    have apart' : Apart (feed line boxes' points k).2 := by
      rw [(gates.perm perm).feed_boxes points k]
      exact (gates.perm perm).apart_boxAt points k
    simp only [feed, handleColorBoxesForLine, ih.1]
    obtain ⟨sameColor, sameBoxes⟩ := handleColorBoxes_perm (apart.at _) (apart'.at _) ih.2
    exact ⟨by rw [sameColor], sameBoxes⟩

end Feed

/-- The colour boxes implement the two-sided gate, for every line and every
sequence of points, in any order of the boxes. -/
theorem two_sided_gate (line : Line) (boxes : List ColorBox) (gates : Gates line boxes)
    (points : ℕ → CGPoint) :
    (∀ k i box, boxes[i]? = some box →
      (ChangesTo line boxes points k i box.rightColor ↔
        Crosses line boxes points box .right k) ∧
      (ChangesTo line boxes points k i box.leftColor ↔
        Crosses line boxes points box .left k) ∧
      ∀ c, ChangesTo line boxes points k i c → c = box.leftColor ∨ c = box.rightColor) ∧
    (∀ k, colorAt line boxes points (k + 1) ≠ colorAt line boxes points k →
      ∃ box ∈ boxes, ∃ side, Crosses line boxes points box side k) ∧
    ((∀ box ∈ boxes, line.lineColor ≠ box.leftColor ∧ line.lineColor ≠ box.rightColor) →
      ∀ k, colorAt line boxes points k = line.lineColor) ∧
    (∀ boxes', boxes.Perm boxes' → ∀ k,
      (feed line boxes' points k).1 = (feed line boxes points k).1 ∧
      (feed line boxes points k).2.Perm (feed line boxes' points k).2) ∧
    ∀ k, ∀ box ∈ (feed line boxes points (k + 1)).2, box.getStep2 line.uuid = false := by
  refine ⟨fun k i box at_ => ⟨?_, ?_, ?_⟩, fun k => gates.exists_crosses points, ?_, ?_, ?_⟩
  · exact gates.changesTo_side_iff points at_ k .right
  · exact gates.changesTo_side_iff points at_ k .left
  · intro c changes
    obtain ⟨side, rfl⟩ := gates.changesTo_is_side points at_ k changes
    cases side with
    | left => exact .inl rfl
    | right => exact .inr rfl
  · intro neutral k
    induction k with
    | zero => rfl
    | succ k ih =>
      by_contra changed
      obtain ⟨box, member, side, _, is, _⟩ := gates.exists_crosses points (k := k) (ih.symm ▸ changed)
      rw [ih] at is
      cases side with
      | left => exact (neutral box member).2 is
      | right => exact (neutral box member).1 is
  · intro boxes' perm k
    exact gates.feed_perm points perm k
  · intro k box member
    rw [gates.feed_boxes points (k + 1)] at member
    obtain ⟨origin, there, rfl⟩ := List.mem_map.mp member
    exact (gates.boxAt_idle points there (k + 1)).2

/-- A box of 100 by 100 between red and blue, and a red line that goes through it. -/
noncomputable def redToBlue : ColorBox where
  frame := .mk4 0 0 100 100
  rotation := 0
  leftColor := ⟨1, 0, 0, 1⟩
  rightColor := ⟨0, 0, 1, 1⟩
  backgroundColor := ⟨0, 0, 0, 1⟩
  middlePropWidth := 1 / 2

noncomputable def redLine : Line := .new ⟨-10, 50⟩ ⟨20, 0⟩ ⟨1, 0, 0, 1⟩ 5 "red"

noncomputable def through (k : ℕ) : CGPoint := ⟨10 + 40 * k, 50⟩

theorem redToBlue_body (k : ℕ) : redToBlue.pointInBody (through k) ↔ 10 + 40 * (k : ℝ) < 100 := by
  have positive : (0 : ℝ) ≤ 10 + 40 * k := by positivity
  norm_num [ColorBox.pointInBody, ColorBox.bodyBounds, CGRect.contains, redToBlue, through,
    ColorBox.convertToBody, CGRect.mk4, CGRect.minX, CGRect.minY, CGRect.width, CGRect.height, positive]

theorem redToBlue_side (k : ℕ) :
    (pointOnSide redToBlue .left (through k) ↔ 10 + 40 * (k : ℝ) < 25) ∧
      (pointOnSide redToBlue .right (through k) ↔ 75 ≤ 10 + 40 * (k : ℝ) ∧ 10 + 40 * (k : ℝ) < 100) := by
  have positive : (0 : ℝ) ≤ 10 + 40 * k := by positivity
  constructor <;>
    norm_num [pointOnSide, ColorBox.pointInLeftRect, ColorBox.pointInRightRect, ColorBox.leftFrame,
      ColorBox.rightFrame, CGRect.contains, redToBlue, through, ColorBox.convertToBody, CGRect.mk4,
      CGRect.minX, CGRect.minY, CGRect.width, CGRect.height, positive]

/-- On the left at step 0 and in the middle at step 1, it changes on the right at step 2. -/
theorem redLine_turns_blue : ChangesTo redLine [redToBlue] through 2 0 redToBlue.rightColor := by
  have gates : Gates redLine [redToBlue] := by
    refine ⟨List.pairwise_singleton _ _, ?_, ?_, ?_⟩ <;> intro box member <;>
      obtain rfl := List.mem_singleton.mp member
    · norm_num [redToBlue]
    · decide
    · exact ⟨rfl, rfl⟩
  obtain ⟨rule, only, _⟩ := two_sided_gate redLine [redToBlue] gates through
  have red : ∀ k, k ≤ 2 → colorAt redLine [redToBlue] through k = redToBlue.leftColor := by
    intro k below
    induction k with
    | zero => rfl
    | succ k ih =>
      by_contra changed
      obtain ⟨box, member, side, onSide, is, j, earlier, _⟩ :=
        only k (fun same => changed (same.trans (ih (by omega))))
      -- only the middle is passed so far
      obtain rfl := List.mem_singleton.mp member
      obtain rfl : k = 1 := by omega
      have sides := redToBlue_side 1
      cases side <;> norm_num [sides] at onSide
  refine (rule 2 0 redToBlue rfl).1.mpr ⟨?_, red 2 (le_refl 2), 0, by omega, ?_, ?_, ?_⟩
  · norm_num [redToBlue_side]
  · intro i _ below
    have here : (i : ℝ) ≤ 2 := by exact_mod_cast below
    rw [redToBlue_body]
    linarith
  · have sides := (redToBlue_side 0).1
    norm_num at sides
    exact sides
  · intro i _ below
    exact red i below

end Arthius.Guarantees.ColorGate
