import Arthius.Guarantees.ColorGate
import Arthius.Guarantees.DrawnSegments

/-!
# Flags that a prediction finds up

A line that ends in a colour box can leave the box's flag up. The next prediction
comes to see it only if the line starts into that box and, before it leaves the
box, gets to a half with the colour of the other half first. Predictions that
differ in other flags draw the same: the walks of a line are followed turn by
turn, and as long as they differ the line is where the box does not heed it.
-/
namespace Arthius.Guarantees.StaleFlags
open Arthius.Lib Arthius.Source PredictionFrame PredictionTermination DrawnSegments
open ColorGate (ApartAt Apart sideColor Gate.step)

noncomputable section

section Box
variable (box : ColorBox) (p : CGPoint) (c : Color)

/-- At `p` the box reads or raises its flag for a line of colour `c`. -/
def Heeds : Prop :=
  (box.pointInLeftRect p ∨ box.pointInRightRect p) ∧ (c = box.leftColor ∨ c = box.rightColor)

/-- At `p` a flag that is up makes the box change a line of colour `c`. -/
def Trips : Prop :=
  (box.pointInLeftRect p ∧ c = box.rightColor) ∨
    ¬ box.pointInLeftRect p ∧ box.pointInRightRect p ∧ c = box.leftColor

/-- The two halves of the box in turn, as steps of the gate. -/
def passSides (up : Bool) : Color × Bool :=
  let left := if box.pointInLeftRect p then Gate.step (sideColor box) (.on .left) c up else (c, up)
  if box.pointInRightRect p then Gate.step (sideColor box) (.on .right) left.1 left.2 else left

variable {box p c}

theorem handleColorBox_passSides {uuid : String} (inBody : box.pointInBody p)
    (idle : box.getStep2 uuid = false) :
    ((handleColorBox uuid p c box).1, (handleColorBox uuid p c box).2.getStep1 uuid) =
        passSides box p c (box.getStep1 uuid) ∧
      (handleColorBox uuid p c box).2.getStep2 uuid = false := by
  have left : ∃ c₁ first,
      (if box.pointInLeftRect p then handleSide uuid box.leftColor box.rightColor c box
        else (c, box)) = (c₁, first) ∧
      (c₁, first.getStep1 uuid) = (if box.pointInLeftRect p then
        Gate.step (sideColor box) (.on .left) c (box.getStep1 uuid) else (c, box.getStep1 uuid)) ∧
      first.getStep2 uuid = false ∧ first.shape = box.shape := by
    by_cases onLeft : box.pointInLeftRect p
    · rw [if_pos onLeft, if_pos onLeft]
      obtain ⟨step, idleAfter, shape⟩ :=
        ColorGate.handleSide_eq box uuid c box.leftColor box.rightColor idle
      exact ⟨_, _, rfl, step, idleAfter, shape⟩
    · rw [if_neg onLeft, if_neg onLeft]
      exact ⟨_, _, rfl, rfl, idle, rfl⟩
  obtain ⟨c₁, first, is, step, idleFirst, shape⟩ := left
  have onRight : first.pointInRightRect p ↔ box.pointInRightRect p := by
    rw [← ColorBox.pointInRightRect_shape, shape, ColorBox.pointInRightRect_shape]
  have leftColor : first.leftColor = box.leftColor := congrArg (·.leftColor) shape
  have rightColor : first.rightColor = box.rightColor := congrArg (·.rightColor) shape
  unfold handleColorBox passSides
  rw [if_pos inBody, is, ← step]
  dsimp only
  by_cases right : box.pointInRightRect p
  · rw [if_pos right, if_pos (onRight.mpr right), leftColor, rightColor]
    obtain ⟨stepRight, idleAfter, _⟩ :=
      ColorGate.handleSide_eq first uuid c₁ box.rightColor box.leftColor idleFirst
    exact ⟨stepRight, idleAfter⟩
  · rw [if_neg right, if_neg fun there => right (onRight.mp there)]
    exact ⟨rfl, idleFirst⟩

theorem passSides_shape {box' : ColorBox} (shape : box'.shape = box.shape) (up : Bool) :
    passSides box' p c up = passSides box p c up := by
  change passSides box'.shape p c up = passSides box.shape p c up
  rw [shape]

/-- Where the box does not heed the line, nothing changes. -/
theorem passSides_unheeded (unheeded : ¬ Heeds box p c) (up : Bool) : passSides box p c up = (c, up) := by
  unfold Heeds at unheeded
  unfold passSides
  split_ifs <;> simp_all [Gate.step, sideColor, ColorGate.Side.opposite]

/-- Where it does and the line is not tripped, the flag makes no difference. -/
theorem passSides_untripped (heeds : Heeds box p c)
    (untripped : ¬ Trips box p c) (up up' : Bool) : passSides box p c up' = passSides box p c up := by
  unfold Heeds at heeds
  unfold Trips at untripped
  unfold passSides
  cases up <;> cases up' <;> split_ifs <;> simp_all [Gate.step, sideColor, ColorGate.Side.opposite]

/-- Where it is tripped, it keeps its colour exactly if the flag is down. -/
theorem passSides_tripped (differ : box.leftColor ≠ box.rightColor) (tripped : Trips box p c) (up : Bool) :
    (passSides box p c up).1 = c ↔ up = false := by
  unfold passSides
  have differ' := differ.symm
  rcases tripped with ⟨left, rfl⟩ | ⟨left, right, rfl⟩
  · rw [if_pos left]
    cases up <;> split_ifs <;> simp [Gate.step, sideColor, ColorGate.Side.opposite, differ, differ']
  · rw [if_neg left, if_pos right]
    cases up <;> simp [Gate.step, sideColor, ColorGate.Side.opposite, differ, differ']

/-- A box of one colour changes no line. -/
theorem passSides_plain (plain : box.leftColor = box.rightColor) (up : Bool) :
    (passSides box p c up).1 = c := by
  have step : ∀ side c up, (Gate.step (sideColor box) (.on side) c up).1 = c := by
    intro side c up
    simp only [Gate.step]
    split_ifs with opens
    · cases side <;> simp [opens.2, sideColor, ColorGate.Side.opposite, plain]
    · rfl
  unfold passSides
  split_ifs <;> simp [step]

end Box
section Pair
variable {uuid : String} {p : CGPoint} {c : Color} {box box' : ColorBox}

/-- Boxes of one shape, as they are between turns: only the first flags can differ. -/
structure Paired (uuid : String) (box box' : ColorBox) : Prop where
  shape : box'.shape = box.shape
  idle : box.getStep2 uuid = false
  idle' : box'.getStep2 uuid = false

/-- The first flags are the same, or the box does not use them. -/
def Even (uuid : String) (box box' : ColorBox) : Prop :=
  box'.getStep1 uuid = box.getStep1 uuid ∨ box.leftColor = box.rightColor

theorem Paired.inBody_iff (paired : Paired uuid box box') (p : CGPoint) :
    box'.pointInBody p ↔ box.pointInBody p := by
  rw [← ColorBox.pointInBody_shape, paired.shape, ColorBox.pointInBody_shape]

/-- What a turn inside the body does to both. -/
theorem Paired.inside (paired : Paired uuid box box') (inBody : box.pointInBody p) :
    ((handleColorBox uuid p c box).1, (handleColorBox uuid p c box).2.getStep1 uuid) =
        passSides box p c (box.getStep1 uuid) ∧
      ((handleColorBox uuid p c box').1, (handleColorBox uuid p c box').2.getStep1 uuid) =
        passSides box p c (box'.getStep1 uuid) ∧
      Paired uuid (handleColorBox uuid p c box).2 (handleColorBox uuid p c box').2 := by
  obtain ⟨step, idle⟩ := handleColorBox_passSides (c := c) inBody paired.idle
  obtain ⟨step', idle'⟩ := handleColorBox_passSides (c := c) ((paired.inBody_iff p).mpr inBody) paired.idle'
  refine ⟨step, step'.trans (passSides_shape paired.shape _), ?_, idle, idle'⟩
  rw [(handleColorBox_frame uuid p c box').1, paired.shape, (handleColorBox_frame uuid p c box).1]

/-- A turn outside of it. -/
theorem Paired.outside (paired : Paired uuid box box') (out : ¬ box.pointInBody p) :
    (handleColorBox uuid p c box).1 = c ∧ (handleColorBox uuid p c box').1 = c ∧
      Paired uuid (handleColorBox uuid p c box).2 (handleColorBox uuid p c box').2 ∧
      Even uuid (handleColorBox uuid p c box).2 (handleColorBox uuid p c box').2 := by
  have out' : ¬ box'.pointInBody p := fun inBody => out ((paired.inBody_iff p).mp inBody)
  rw [ColorGate.handleColorBox_out uuid c out, ColorGate.handleColorBox_out uuid c out']
  exact ⟨rfl, rfl, ⟨paired.shape, by simp, by simp⟩, .inl (by simp)⟩

/-- Boxes that are even do the same to a line of any colour. -/
theorem Paired.even (paired : Paired uuid box box') (even : Even uuid box box') (p : CGPoint) (c : Color) :
    (handleColorBox uuid p c box').1 = (handleColorBox uuid p c box).1 ∧
      Paired uuid (handleColorBox uuid p c box).2 (handleColorBox uuid p c box').2 ∧
      Even uuid (handleColorBox uuid p c box).2 (handleColorBox uuid p c box').2 := by
  by_cases inBody : box.pointInBody p
  · obtain ⟨step, step', pairedAfter⟩ := paired.inside (c := c) inBody
    have shape := (handleColorBox_frame uuid p c box).1
    rcases even with same | plain
    · rw [same, ← step] at step'
      obtain ⟨color, flag⟩ := Prod.mk.inj step'
      exact ⟨color, pairedAfter, .inl flag⟩
    · have color := congrArg Prod.fst step
      have color' := congrArg Prod.fst step'
      simp only [passSides_plain plain] at color color'
      refine ⟨color'.trans color.symm, pairedAfter, .inr ?_⟩
      have left : (handleColorBox uuid p c box).2.leftColor = box.leftColor := congrArg (·.leftColor) shape
      have right : (handleColorBox uuid p c box).2.rightColor = box.rightColor := congrArg (·.rightColor) shape
      rw [left, right, plain]
  · obtain ⟨keeps, keeps', pairedAfter, evenAfter⟩ := paired.outside (c := c) inBody
    exact ⟨keeps'.trans keeps.symm, pairedAfter, evenAfter⟩

end Pair

section Line
variable (gravityWells : List GravityWell) (antiGravityZones : List AntiGravityZone) (line : Line)

/-- The line's first `n` points lie inside the box, which heeds none of them. -/
def Dormant (box : ColorBox) (n : ℕ) : Prop := ∀ i < n,
  box.pointInBody (pointAt gravityWells antiGravityZones line (i + 1)) ∧
    ¬ Heeds box (pointAt gravityWells antiGravityZones line (i + 1)) line.startColor

/-- As long as it has heeded none, at the next point inside the box that the
loop goes on from the line is in no other box and is not tripped. -/
def Spared (boxes : List ColorBox) (box : ColorBox) : Prop :=
  ∀ n, Dormant gravityWells antiGravityZones line box n → Reaches gravityWells antiGravityZones line (n + 1) →
    box.pointInBody (pointAt gravityWells antiGravityZones line (n + 1)) →
    ApartAt (pointAt gravityWells antiGravityZones line (n + 1)) boxes ∧
      ¬ Trips box (pointAt gravityWells antiGravityZones line (n + 1)) line.startColor

/-- Among the boxes of a view, the path of the line does not come to show in
what state the flag of this one is to begin with. -/
def Unread (boxes : List ColorBox) (box : ColorBox) : Prop :=
  box.leftColor = box.rightColor ∨ Spared gravityWells antiGravityZones line boxes box

/-- The two boxes can be told apart by nothing that has happened in `n` turns. -/
def Beside (boxes : List ColorBox) (n : ℕ) (c : Color) (box box' : ColorBox) : Prop :=
  Paired line.uuid box box' ∧ (Even line.uuid box box' ∨
    Dormant gravityWells antiGravityZones line box n ∧ c = line.startColor ∧
      Spared gravityWells antiGravityZones line boxes box)

variable {gravityWells antiGravityZones line} {boxes : List ColorBox} {n : ℕ} {c : Color}
  {box box' : ColorBox}

theorem Dormant.of_shape (shape : box'.shape = box.shape)
    (dormant : Dormant gravityWells antiGravityZones line box n) :
    Dormant gravityWells antiGravityZones line box' n := by
  change Dormant gravityWells antiGravityZones line box'.shape n
  rw [shape]
  exact dormant

theorem Spared.of_shape (shape : box'.shape = box.shape)
    (spared : Spared gravityWells antiGravityZones line boxes box) :
    Spared gravityWells antiGravityZones line boxes box' := by
  change Spared gravityWells antiGravityZones line boxes box'.shape
  rw [shape]
  exact spared

theorem Dormant.succ (dormant : Dormant gravityWells antiGravityZones line box n)
    (inBody : box.pointInBody (pointAt gravityWells antiGravityZones line (n + 1)))
    (unheeded : ¬ Heeds box (pointAt gravityWells antiGravityZones line (n + 1)) line.startColor) :
    Dormant gravityWells antiGravityZones line box (n + 1) := by
  intro i below
  rcases Nat.lt_succ_iff_lt_or_eq.mp below with before | rfl
  · exact dormant i before
  · exact ⟨inBody, unheeded⟩

/-- One box, over one turn that the loop goes on from. -/
theorem Beside.next (beside : Beside gravityWells antiGravityZones line boxes n c box box')
    (reaches : Reaches gravityWells antiGravityZones line (n + 1)) :
    let handled := handleColorBox line.uuid (pointAt gravityWells antiGravityZones line (n + 1)) c box
    let handled' := handleColorBox line.uuid (pointAt gravityWells antiGravityZones line (n + 1)) c box'
    handled'.1 = handled.1 ∧
      Beside gravityWells antiGravityZones line boxes (n + 1) handled.1 handled.2 handled'.2 := by
  intro handled handled'
  obtain ⟨paired, even | ⟨dormant, rfl, spared⟩⟩ := beside
  · obtain ⟨color, pairedAfter, evenAfter⟩ :=
      paired.even even (pointAt gravityWells antiGravityZones line (n + 1)) c
    exact ⟨color, pairedAfter, .inl evenAfter⟩
  · by_cases inBody : box.pointInBody (pointAt gravityWells antiGravityZones line (n + 1))
    · obtain ⟨step, step', pairedAfter⟩ := paired.inside (c := line.startColor) inBody
      by_cases heeds : Heeds box (pointAt gravityWells antiGravityZones line (n + 1)) line.startColor
      · -- the flags are the same from here on
        have untripped := (spared n dormant reaches inBody).2
        rw [passSides_untripped heeds untripped (box.getStep1 line.uuid), ← step] at step'
        obtain ⟨color, flag⟩ := Prod.mk.inj step'
        exact ⟨color, pairedAfter, .inl (.inl flag)⟩
      · rw [passSides_unheeded heeds] at step step'
        have color : handled.1 = line.startColor := (Prod.mk.inj step).1
        have color' : handled'.1 = line.startColor := (Prod.mk.inj step').1
        have shape : handled.2.shape = box.shape := (handleColorBox_frame line.uuid _ _ box).1
        refine ⟨color'.trans color.symm, pairedAfter, .inr ⟨?_, color, spared.of_shape shape⟩⟩
        exact (dormant.succ inBody heeds).of_shape shape
    · obtain ⟨keeps, keeps', pairedAfter, evenAfter⟩ := paired.outside (c := line.startColor) inBody
      exact ⟨keeps'.trans keeps.symm, pairedAfter, .inl evenAfter⟩

theorem Paired.cleared (paired : Paired line.uuid box box') :
    Beside gravityWells antiGravityZones line boxes n c
      ((box.setStep1 line.uuid false).setStep2 line.uuid false)
      ((box'.setStep1 line.uuid false).setStep2 line.uuid false) :=
  ⟨⟨paired.shape, by simp, by simp⟩, .inl (.inl (by simp))⟩

theorem apartAt_shapes {p : CGPoint} : ApartAt p (boxes.map ColorBox.shape) ↔ ApartAt p boxes :=
  List.pairwise_map

variable {bs bs' : List ColorBox}

theorem exists_pair {R : ColorBox → ColorBox → Prop} (pairs : List.Forall₂ R bs bs') (member : box' ∈ bs') :
    ∃ box ∈ bs, R box box' := by
  obtain ⟨i, below', rfl⟩ := List.mem_iff_getElem.mp member
  have below : i < bs.length := pairs.length_eq ▸ below'
  exact ⟨bs[i], List.getElem_mem below, pairs.get below below'⟩

/-- At a point that one box at most holds, each box sees the colour the turn began with. -/
theorem handleColorBoxes_beside_apart
    (pairs : List.Forall₂ (Beside gravityWells antiGravityZones line boxes n c) bs bs')
    (reaches : Reaches gravityWells antiGravityZones line (n + 1))
    (apart : ApartAt (pointAt gravityWells antiGravityZones line (n + 1)) bs) :
    let handled := handleColorBoxes line.uuid (pointAt gravityWells antiGravityZones line (n + 1)) c bs
    let handled' := handleColorBoxes line.uuid (pointAt gravityWells antiGravityZones line (n + 1)) c bs'
    handled'.1 = handled.1 ∧
      List.Forall₂ (Beside gravityWells antiGravityZones line boxes (n + 1) handled.1) handled.2 handled'.2 := by
  induction pairs with
  | nil => exact ⟨rfl, List.Forall₂.nil⟩
  | @cons box box' rest rest' head others ih =>
    obtain ⟨first, restApart⟩ := List.pairwise_cons.mp apart
    by_cases inBody : box.pointInBody (pointAt gravityWells antiGravityZones line (n + 1))
    · have out : ∀ other ∈ rest, ¬ other.pointInBody (pointAt gravityWells antiGravityZones line (n + 1)) :=
        fun other member inOther => first other member ⟨inBody, inOther⟩
      have out' : ∀ other ∈ rest',
          ¬ other.pointInBody (pointAt gravityWells antiGravityZones line (n + 1)) := by
        intro other' member' inOther
        obtain ⟨other, member, beside⟩ := exists_pair others member'
        exact out other member ((beside.1.inBody_iff _).mp inOther)
      obtain ⟨color, headAfter⟩ := head.next reaches
      simp only [handleColorBoxes, ColorGate.handleColorBoxes_out out, ColorGate.handleColorBoxes_out out']
      refine ⟨color, List.Forall₂.cons headAfter ?_⟩
      refine List.forall₂_map_left_iff.mpr (List.forall₂_map_right_iff.mpr (others.imp ?_))
      exact fun _ _ beside => beside.1.cleared
    · have inBody' : ¬ box'.pointInBody (pointAt gravityWells antiGravityZones line (n + 1)) :=
        fun there => inBody ((head.1.inBody_iff _).mp there)
      obtain ⟨color, restAfter⟩ := ih restApart
      simp only [handleColorBoxes, ColorGate.handleColorBox_out _ _ inBody,
        ColorGate.handleColorBox_out _ _ inBody']
      exact ⟨color, List.Forall₂.cons head.1.cleared restAfter⟩

/-- Where the boxes that the line is in are even, they do the same in turn. -/
theorem handleColorBoxes_even {uuid : String} {p : CGPoint}
    (pairs : List.Forall₂ (fun box box' => Paired uuid box box' ∧ (box.pointInBody p → Even uuid box box'))
      bs bs') (c : Color) :
    (handleColorBoxes uuid p c bs').1 = (handleColorBoxes uuid p c bs).1 ∧
      List.Forall₂ (fun box box' => Paired uuid box box' ∧ Even uuid box box')
        (handleColorBoxes uuid p c bs).2 (handleColorBoxes uuid p c bs').2 := by
  induction pairs generalizing c with
  | nil => exact ⟨rfl, List.Forall₂.nil⟩
  | @cons box box' rest rest' head others ih =>
    obtain ⟨paired, even⟩ := head
    have first : (handleColorBox uuid p c box').1 = (handleColorBox uuid p c box).1 ∧
        Paired uuid (handleColorBox uuid p c box).2 (handleColorBox uuid p c box').2 ∧
        Even uuid (handleColorBox uuid p c box).2 (handleColorBox uuid p c box').2 := by
      by_cases inBody : box.pointInBody p
      · exact paired.even (even inBody) p c
      · obtain ⟨keeps, keeps', after⟩ := paired.outside (c := c) inBody
        exact ⟨keeps'.trans keeps.symm, after⟩
    obtain ⟨color, after⟩ := first
    obtain ⟨colorRest, restAfter⟩ := ih (handleColorBox uuid p c box).1
    simp only [handleColorBoxes]
    rw [color]
    exact ⟨colorRest, List.Forall₂.cons after restAfter⟩

/-- All boxes, over one turn that the loop goes on from. -/
theorem handleColorBoxes_beside
    (pairs : List.Forall₂ (Beside gravityWells antiGravityZones line boxes n c) bs bs')
    (shapes : bs.map ColorBox.shape = boxes.map ColorBox.shape)
    (reaches : Reaches gravityWells antiGravityZones line (n + 1)) :
    let handled := handleColorBoxes line.uuid (pointAt gravityWells antiGravityZones line (n + 1)) c bs
    let handled' := handleColorBoxes line.uuid (pointAt gravityWells antiGravityZones line (n + 1)) c bs'
    handled'.1 = handled.1 ∧
      List.Forall₂ (Beside gravityWells antiGravityZones line boxes (n + 1) handled.1) handled.2 handled'.2 := by
  by_cases apart : ApartAt (pointAt gravityWells antiGravityZones line (n + 1)) bs
  · exact handleColorBoxes_beside_apart pairs reaches apart
  · -- then no box that the line is in is asleep
    have overlap : ¬ ApartAt (pointAt gravityWells antiGravityZones line (n + 1)) boxes := by
      rw [← apartAt_shapes, ← shapes, apartAt_shapes]
      exact apart
    obtain ⟨color, after⟩ := handleColorBoxes_even (p := pointAt gravityWells antiGravityZones line (n + 1))
      (pairs.imp fun box box' beside => ⟨beside.1, fun inBody => by
        rcases beside.2 with even | ⟨dormant, _, spared⟩
        · exact even
        · exact absurd (spared n dormant reaches inBody).1 overlap⟩) c
    exact ⟨color, after.imp fun _ _ even => ⟨even.1, .inl even.2⟩⟩

section Turns

/-- A turn of the loop at which no centre is hit moves the line past the boxes. -/
theorem turn_gates (bs : List ColorBox) (reaches : Reaches gravityWells antiGravityZones line n)
    (pulled : forcesAt gravityWells antiGravityZones (pointAt gravityWells antiGravityZones line n) ≠ none) :
    let handled := handleColorBoxes line.uuid (pointAt gravityWells antiGravityZones line (n + 1))
      (turn gravityWells antiGravityZones bs line n).line.lineColor
      (turn gravityWells antiGravityZones bs line n).scaledColorBoxes
    (turn gravityWells antiGravityZones bs line (n + 1)).line.lineColor = handled.1 ∧
      (turn gravityWells antiGravityZones bs line (n + 1)).scaledColorBoxes = handled.2 := by
  have enters := (reaches_iff bs n).mp reaches
  have uuid := restart_uuid (after_frame fun i below => enters i (Nat.le_of_lt below)).1
  have now := enters n (le_refl n)
  have follows := reaches.follows bs
  have point := (follows.body now pulled).point
  rw [turn_succ]
  rcases body_cases gravityWells antiGravityZones now with ⟨forces, _, is⟩ | ⟨lost, _⟩
  · rw [is] at point ⊢
    rw [move_currentPoint, split_line] at point
    simp only [Walk.move, handleColorBoxesForLine, Line.newLocation, Line.changeLineColor, split_line,
      split_boxes, uuid]
    rw [point]
    exact ⟨rfl, rfl⟩
  · rw [follows.point] at lost
    exact absurd lost pulled

/-- The walk with other boxes. -/
def withBoxes (w : Walk) (boxes : List ColorBox) : Walk := { w with scaledColorBoxes := boxes }

variable (gravityWells antiGravityZones) in
/-- With other boxes a turn of the loop differs at most in the colour it leaves the line with. -/
theorem body_withBoxes (w : Walk) (boxes : List ColorBox) :
    (withBoxes w boxes).body gravityWells antiGravityZones =
      withBoxes { w.body gravityWells antiGravityZones with
          line := (w.body gravityWells antiGravityZones).line.changeLineColor
            ((withBoxes w boxes).body gravityWells antiGravityZones).line.lineColor }
        ((withBoxes w boxes).body gravityWells antiGravityZones).scaledColorBoxes := by
  have split : (withBoxes w boxes).split = withBoxes w.split boxes := by
    unfold Walk.split withBoxes
    split_ifs <;> rfl
  unfold Walk.body
  dsimp only
  rw [split]
  unfold withBoxes
  dsimp only
  split_ifs
  · cases forcesAt gravityWells antiGravityZones w.split.line.currentPoint <;> rfl
  · rfl

/-- Two walks that differ at most in the boxes, and there in nothing that has come to show. -/
structure Twin (gravityWells : List GravityWell) (antiGravityZones : List AntiGravityZone) (line : Line)
    (boxes : List ColorBox) (n : ℕ) (w w' : Walk) : Prop where
  state : w' = withBoxes w w'.scaledColorBoxes
  boxes : List.Forall₂ (Beside gravityWells antiGravityZones line boxes n w.line.lineColor)
    w.scaledColorBoxes w'.scaledColorBoxes

variable (shapes : bs.map ColorBox.shape = boxes.map ColorBox.shape)
  (pairs : List.Forall₂ (Beside gravityWells antiGravityZones line boxes 0 line.startColor) bs bs')
include shapes pairs

/-- As far as the loop goes on, the walks are twins. -/
theorem twin_of_reaches (reaches : Reaches gravityWells antiGravityZones line n) :
    Twin gravityWells antiGravityZones line boxes n (turn gravityWells antiGravityZones bs line n)
      (turn gravityWells antiGravityZones bs' line n) := by
  induction n with
  | zero => exact ⟨rfl, pairs⟩
  | succ n ih =>
    have twin := ih (reaches.of_le (Nat.le_succ n))
    have enters := (reaches_iff bs (n + 1)).mp reaches
    have frame := after_frame fun i below => enters i (Nat.le_of_lt (Nat.lt_succ_of_lt below))
    obtain ⟨color, after⟩ := turn_gates bs (reaches.of_le (Nat.le_succ n)) reaches.pulled
    obtain ⟨color', after'⟩ := turn_gates bs' (reaches.of_le (Nat.le_succ n)) reaches.pulled
    have sameColor : (turn gravityWells antiGravityZones bs' line n).line.lineColor =
        (turn gravityWells antiGravityZones bs line n).line.lineColor := by
      rw [twin.state]
      rfl
    rw [sameColor] at color' after'
    obtain ⟨same, beside⟩ := handleColorBoxes_beside twin.boxes (frame.2.shapes.trans shapes) reaches
    rw [← color, ← color'] at same
    rw [← color, ← after, ← after'] at beside
    refine ⟨?_, beside⟩
    have body := body_withBoxes gravityWells antiGravityZones (turn gravityWells antiGravityZones bs line n)
      (turn gravityWells antiGravityZones bs' line n).scaledColorBoxes
    rw [← twin.state, ← turn_succ, ← turn_succ, same] at body
    exact body

/-- One turn more, they have still drawn the same. -/
theorem pieces_of_reaches (reaches : Reaches gravityWells antiGravityZones line n) :
    (turn gravityWells antiGravityZones bs' line (n + 1)).pieces =
      (turn gravityWells antiGravityZones bs line (n + 1)).pieces := by
  have twin := twin_of_reaches shapes pairs reaches
  rw [turn_succ, turn_succ, twin.state, body_withBoxes]
  rfl

theorem predictLine_beside (fuel : ℕ) :
    Option.Rel (fun w w' => w'.pieces = w.pieces)
      (predictLine fuel gravityWells antiGravityZones bs line)
      (predictLine fuel gravityWells antiGravityZones bs' line) := by
  by_cases returns : ∃ n < fuel, (∀ i < n, Reaches gravityWells antiGravityZones line i) ∧
      ¬ Reaches gravityWells antiGravityZones line n
  · obtain ⟨n, below, exits⟩ := returns
    have success := (Walk.loop gravityWells antiGravityZones).run_eq_some_iff.mpr
      ⟨n, below, (exitsAt_iff bs n).mpr exits, rfl⟩
    have success' := (Walk.loop gravityWells antiGravityZones).run_eq_some_iff.mpr
      ⟨n, below, (exitsAt_iff bs' n).mpr exits, rfl⟩
    rw [predictLine, predictLine, success, success']
    refine Option.Rel.some ?_
    cases n with
    | zero => rfl
    | succ n => exact pieces_of_reaches shapes pairs (exits.1 n (Nat.lt_succ_self n))
  · have fails : ∀ bs, predictLine fuel gravityWells antiGravityZones bs line = none := by
      intro bs
      refine Option.eq_none_iff_forall_ne_some.mpr fun w success => returns ?_
      obtain ⟨n, below, exits, _⟩ := (Walk.loop gravityWells antiGravityZones).run_eq_some_iff.mp success
      exact ⟨n, below, (exitsAt_iff bs n).mp exits⟩
    rw [fails, fails]
    exact Option.Rel.none

end Turns

section Tripped
variable (apart : Apart bs)
include apart

/-- A box that the line is in decides alone what a turn does to its colour. -/
theorem turn_apart (reaches : Reaches gravityWells antiGravityZones line (n + 1))
    (there : box ∈ (turn gravityWells antiGravityZones bs line n).scaledColorBoxes)
    (inBody : box.pointInBody (pointAt gravityWells antiGravityZones line (n + 1))) :
    let handled := handleColorBox line.uuid (pointAt gravityWells antiGravityZones line (n + 1))
      (turn gravityWells antiGravityZones bs line n).line.lineColor box
    (turn gravityWells antiGravityZones bs line (n + 1)).line.lineColor = handled.1 ∧
      handled.2 ∈ (turn gravityWells antiGravityZones bs line (n + 1)).scaledColorBoxes := by
  have before := reaches.of_le (Nat.le_succ n)
  obtain ⟨color, after⟩ := turn_gates bs before reaches.pulled
  have enters := (reaches_iff bs n).mp before
  have shapes := (after_frame fun i below => enters i (Nat.le_of_lt below)).2.shapes
  have apartHere : ApartAt (pointAt gravityWells antiGravityZones line (n + 1))
      (turn gravityWells antiGravityZones bs line n).scaledColorBoxes := by
    rw [← apartAt_shapes, shapes, apartAt_shapes]
    exact apart.at _
  obtain ⟨each, decides⟩ := ColorGate.handleColorBoxes_apart line.uuid
    (pointAt gravityWells antiGravityZones line (n + 1))
    (turn gravityWells antiGravityZones bs line n).line.lineColor apartHere
  refine ⟨color.trans (decides box there inBody), ?_⟩
  rw [after, each]
  exact List.mem_map_of_mem there

variable (member : box ∈ bs) (idle : box.getStep2 line.uuid = false)
include member idle

/-- A box that has heeded none of the points has its flag as at first, and the line its colour. -/
theorem Dormant.kept (dormant : Dormant gravityWells antiGravityZones line box n)
    (reaches : Reaches gravityWells antiGravityZones line n) :
    (turn gravityWells antiGravityZones bs line n).line.lineColor = line.startColor ∧
      ∃ after ∈ (turn gravityWells antiGravityZones bs line n).scaledColorBoxes,
        after.shape = box.shape ∧ after.getStep2 line.uuid = false ∧
          after.getStep1 line.uuid = box.getStep1 line.uuid := by
  induction n with
  | zero => exact ⟨rfl, box, member, rfl, idle, rfl⟩
  | succ n ih =>
    obtain ⟨color, before, there, shape, idleBefore, flag⟩ :=
      ih (fun i below => dormant i (Nat.lt_succ_of_lt below)) (reaches.of_le (Nat.le_succ n))
    obtain ⟨inBody, unheeded⟩ := dormant n (Nat.lt_succ_self n)
    have inBefore : before.pointInBody (pointAt gravityWells antiGravityZones line (n + 1)) := by
      rw [← ColorBox.pointInBody_shape, shape, ColorBox.pointInBody_shape]
      exact inBody
    obtain ⟨colorNow, thereNow⟩ := turn_apart apart reaches there inBefore
    rw [color] at colorNow thereNow
    obtain ⟨step, idleNow⟩ := handleColorBox_passSides (c := line.startColor) inBefore idleBefore
    rw [passSides_shape shape, passSides_unheeded unheeded] at step
    obtain ⟨keeps, flagNow⟩ := Prod.mk.inj step
    refine ⟨colorNow.trans keeps, _, thereNow, ?_, idleNow, flagNow.trans flag⟩
    exact (handleColorBox_frame line.uuid _ _ before).1.trans shape

/-- And at the next point inside it does what its flag says. -/
theorem Dormant.color_succ (dormant : Dormant gravityWells antiGravityZones line box n)
    (reaches : Reaches gravityWells antiGravityZones line (n + 1))
    (inBody : box.pointInBody (pointAt gravityWells antiGravityZones line (n + 1))) :
    (turn gravityWells antiGravityZones bs line (n + 1)).line.lineColor =
      (passSides box (pointAt gravityWells antiGravityZones line (n + 1)) line.startColor
        (box.getStep1 line.uuid)).1 := by
  obtain ⟨color, before, there, shape, idleBefore, flag⟩ :=
    dormant.kept apart member idle (reaches.of_le (Nat.le_succ n))
  have inBefore : before.pointInBody (pointAt gravityWells antiGravityZones line (n + 1)) := by
    rw [← ColorBox.pointInBody_shape, shape, ColorBox.pointInBody_shape]
    exact inBody
  obtain ⟨colorNow, _⟩ := turn_apart apart reaches there inBefore
  obtain ⟨step, _⟩ := handleColorBox_passSides (c := line.startColor) inBefore idleBefore
  rw [color] at colorNow
  rw [colorNow, ← flag, ← passSides_shape shape, ← step]

end Tripped

end Line

section Prediction
variable {gravityWells : List GravityWell} {antiGravityZones : List AntiGravityZone}
  {boxes bs bs' : List ColorBox}

/-- What another line does to two boxes does not tell them apart. -/
theorem Beside.of_frames {line : Line} {uuid : String} {c : Color} {box box' after after' : ColorBox}
    (beside : Beside gravityWells antiGravityZones line boxes 0 c box box') (different : line.uuid ≠ uuid)
    (same : SameFor uuid box after) (same' : SameFor uuid box' after') :
    Beside gravityWells antiGravityZones line boxes 0 c after after' := by
  obtain ⟨paired, beside⟩ := beside
  obtain ⟨step1, step2⟩ := Prod.mk.inj (same.flags_eq different)
  obtain ⟨step1', step2'⟩ := Prod.mk.inj (same'.flags_eq different)
  refine ⟨⟨same'.1.trans (paired.shape.trans same.1.symm), step2.trans paired.idle,
    step2'.trans paired.idle'⟩, beside.imp (Or.imp (fun even => ?_) fun plain => ?_) ?_⟩
  · rw [step1, step1', even]
  · have left : after.leftColor = box.leftColor := congrArg (·.leftColor) same.1
    have right : after.rightColor = box.rightColor := congrArg (·.rightColor) same.1
    rw [left, right, plain]
  · rintro ⟨_, is, spared⟩
    exact ⟨fun i below => absurd below (Nat.not_lt_zero i), is, spared.of_shape same.1⟩

/-- Predictions for the same lines whose boxes can be told apart by none of them
draw the same, if they return. -/
theorem getPredictedPaths_beside (fuel : ℕ) {lines : List Line} (distinct : (lines.map Line.uuid).Nodup)
    (shapes : bs.map ColorBox.shape = boxes.map ColorBox.shape)
    (pairs : ∀ line ∈ lines,
      List.Forall₂ (Beside gravityWells antiGravityZones line boxes 0 line.startColor) bs bs') :
    Option.Rel (fun prediction prediction' => prediction'.paths = prediction.paths)
      (getPredictedPaths fuel gravityWells antiGravityZones bs lines)
      (getPredictedPaths fuel gravityWells antiGravityZones bs' lines) := by
  induction lines generalizing bs bs' with
  | nil => exact Option.Rel.some rfl
  | cons line rest ih =>
    obtain ⟨fresh, distinctRest⟩ := List.nodup_cons.mp distinct
    have related := predictLine_beside shapes (pairs line (List.mem_cons_self ..)) fuel
    cases first : predictLine fuel gravityWells antiGravityZones bs line with
    | none =>
      cases first' : predictLine fuel gravityWells antiGravityZones bs' line with
      | none =>
        simp only [getPredictedPaths, first, first']
        exact Option.Rel.none
      | some walk' =>
        rw [first, first'] at related
        cases related
    | some walk =>
      cases first' : predictLine fuel gravityWells antiGravityZones bs' line with
      | none =>
        rw [first, first'] at related
        cases related
      | some walk' =>
        rw [first, first'] at related
        obtain pieces : walk'.pieces = walk.pieces := by
          cases related with
          | some same => exact same
        have frame := (predictLine_frame first).2
        have pairsRest : ∀ other ∈ rest,
            List.Forall₂ (Beside gravityWells antiGravityZones other boxes 0 other.startColor)
              walk.scaledColorBoxes walk'.scaledColorBoxes := by
          intro other member
          have different : other.uuid ≠ line.uuid := fun same => fresh (same ▸ List.mem_map_of_mem member)
          exact forall₂_of_frames (fun _ _ _ _ beside same same' => beside.of_frames different same same')
            (pairs other (List.mem_cons_of_mem _ member)) frame (predictLine_frame first').2
        have later := ih distinctRest (frame.shapes.trans shapes) pairsRest
        simp only [getPredictedPaths, first, first', Option.bind_eq_bind, Option.bind_some]
        generalize getPredictedPaths fuel gravityWells antiGravityZones walk.scaledColorBoxes rest = others,
          getPredictedPaths fuel gravityWells antiGravityZones walk'.scaledColorBoxes rest = others' at later ⊢
        cases later with
        | none => exact Option.Rel.none
        | some same => exact Option.Rel.some (by simp only [pieces, same])

/-- The strokes for a line tell its look at every turn that the loop makes. -/
theorem predictLine_strokes {fuel : ℕ} {line : Line} {w : Walk}
    (success : predictLine fuel gravityWells antiGravityZones bs line = some w) {n : ℕ}
    (reaches : ∀ i < n, Reaches gravityWells antiGravityZones line i)
    (stops : ¬ Reaches gravityWells antiGravityZones line n) :
    strokesOf w.pieces = (List.range n).map fun i =>
      ((position (turn gravityWells antiGravityZones bs line i),
        position (turn gravityWells antiGravityZones bs line (i + 1))),
        look (turn gravityWells antiGravityZones bs line i)) := by
  obtain ⟨m, _, exits, rfl⟩ := (Walk.loop gravityWells antiGravityZones).run_eq_some_iff.mp success
  obtain rfl := exits.unique _ ((exitsAt_iff bs n).mpr ⟨reaches, stops⟩)
  exact strokesOf_turn exits.1

/-- A box before and after, with the same flags for the line. -/
def KeptFor (uuid : String) (box after : ColorBox) : Prop :=
  after.shape = box.shape ∧ flags uuid after = flags uuid box

/-- Another line keeps the flags. -/
theorem kept_of_frame {uuid other : String} (different : uuid ≠ other) {later : List ColorBox}
    (frame : BoxesSameFor other bs bs') (kept : List.Forall₂ (KeptFor uuid) bs' later) :
    List.Forall₂ (KeptFor uuid) bs later := by
  induction frame generalizing later with
  | nil => exact kept
  | cons head _ ih =>
    cases kept with
    | cons here there =>
      exact List.Forall₂.cons ⟨here.1.trans head.1, here.2.trans (head.flags_eq different)⟩ (ih there)

/-- And so do all others. -/
theorem getPredictedPaths_kept {fuel : ℕ} {uuid : String} {lines : List Line} {prediction : Prediction}
    (success : getPredictedPaths fuel gravityWells antiGravityZones bs lines = some prediction)
    (fresh : uuid ∉ lines.map Line.uuid) : List.Forall₂ (KeptFor uuid) bs prediction.scaledColorBoxes := by
  induction lines generalizing bs prediction with
  | nil =>
    cases success
    exact List.forall₂_same.mpr fun _ _ => ⟨rfl, rfl⟩
  | cons line rest ih =>
    obtain ⟨walk, others, first, later, rfl⟩ := getPredictedPaths_cons.mp success
    obtain ⟨different, freshRest⟩ := not_or.mp (mt List.mem_cons.mpr fresh)
    have keptRest := ih later freshRest
    exact kept_of_frame different (predictLine_frame first).2 keptRest

/-- Predictions for the same lines that draw the same give every line the same
look at every turn that its loop enters, from boxes that keep the flags of the line. -/
theorem looks_of_strokes {fuel : ℕ} {lines : List Line} (distinct : (lines.map Line.uuid).Nodup)
    {prediction prediction' : Prediction}
    (success : getPredictedPaths fuel gravityWells antiGravityZones bs lines = some prediction)
    (success' : getPredictedPaths fuel gravityWells antiGravityZones bs' lines = some prediction')
    (same : strokesOf prediction'.layers = strokesOf prediction.layers) {line : Line} (member : line ∈ lines) :
    ∃ after after', List.Forall₂ (KeptFor line.uuid) bs after ∧ List.Forall₂ (KeptFor line.uuid) bs' after' ∧
      ∀ n, Reaches gravityWells antiGravityZones line n →
        look (turn gravityWells antiGravityZones after' line n) =
          look (turn gravityWells antiGravityZones after line n) := by
  induction lines generalizing bs bs' prediction prediction' with
  | nil => exact absurd member List.not_mem_nil
  | cons first rest ih =>
    obtain ⟨fresh, distinctRest⟩ := List.nodup_cons.mp distinct
    obtain ⟨walk, others, found, later, rfl⟩ := getPredictedPaths_cons.mp success
    obtain ⟨walk', others', found', later', rfl⟩ := getPredictedPaths_cons.mp success'
    obtain ⟨n, _, exits, _⟩ := (Walk.loop gravityWells antiGravityZones).run_eq_some_iff.mp found
    obtain ⟨reaches, stops⟩ := (exitsAt_iff bs n).mp exits
    have strokes := predictLine_strokes found reaches stops
    have strokes' := predictLine_strokes found' reaches stops
    simp only [Prediction.layers, List.flatten_cons, strokesOf_append] at same
    obtain ⟨sameFirst, sameRest⟩ := List.append_inj same (by rw [strokes, strokes']; simp)
    rcases List.mem_cons.mp member with rfl | memberRest
    · rw [strokes, strokes'] at sameFirst
      refine ⟨bs, bs', List.forall₂_same.mpr fun _ _ => ⟨rfl, rfl⟩,
        List.forall₂_same.mpr fun _ _ => ⟨rfl, rfl⟩, fun i further => ?_⟩
      have below : i < n := by
        by_contra late
        exact stops (further.of_le (not_lt.mp late))
      exact congrArg Prod.snd (List.map_inj_left.mp sameFirst i (List.mem_range.mpr below))
    · have different : line.uuid ≠ first.uuid := fun same => fresh (same ▸ List.mem_map_of_mem memberRest)
      obtain ⟨after, after', kept, kept', looks⟩ := ih distinctRest later later' sameRest memberRest
      exact ⟨after, after', kept_of_frame different (predictLine_frame found).2 kept,
        kept_of_frame different (predictLine_frame found').2 kept', looks⟩

theorem apart_of_shapes (apart : Apart bs) (shapes : bs'.map ColorBox.shape = bs.map ColorBox.shape) :
    Apart bs' := by
  have both : ∀ boxes : List ColorBox, Apart (boxes.map ColorBox.shape) ↔ Apart boxes :=
    fun _ => List.pairwise_map
  rw [← both, shapes, both]
  exact apart

/-- Where a line starts into a box, what it looks like tells the flag of the box. -/
theorem color_of_trips {line : Line} {box after : ColorBox} {n : ℕ} (apart : Apart bs)
    (differ : box.leftColor ≠ box.rightColor) (there : after ∈ bs) (kept : KeptFor line.uuid box after)
    (idle : box.getStep2 line.uuid = false) (dormant : Dormant gravityWells antiGravityZones line box n)
    (reaches : Reaches gravityWells antiGravityZones line (n + 1))
    (inBody : box.pointInBody (pointAt gravityWells antiGravityZones line (n + 1)))
    (trips : Trips box (pointAt gravityWells antiGravityZones line (n + 1)) line.startColor) :
    (turn gravityWells antiGravityZones bs line (n + 1)).line.lineColor = line.startColor ↔
      box.getStep1 line.uuid = false := by
  obtain ⟨shape, sameFlags⟩ := kept
  obtain ⟨flag, flag2⟩ := Prod.mk.inj sameFlags
  have inAfter : after.pointInBody (pointAt gravityWells antiGravityZones line (n + 1)) := by
    rw [← ColorBox.pointInBody_shape, shape, ColorBox.pointInBody_shape]
    exact inBody
  rw [(dormant.of_shape shape).color_succ apart there (flag2.trans idle) reaches inAfter, flag,
    passSides_shape shape]
  exact passSides_tripped differ trips _

/-- Among boxes that hold no point in common, a prediction draws what it draws with
all flags down only if no flag that is up comes to show. -/
theorem unread_of_layers {fuel : ℕ} {lines : List Line} (distinct : (lines.map Line.uuid).Nodup)
    {prediction prediction' : Prediction}
    (success : getPredictedPaths fuel gravityWells antiGravityZones bs lines = some prediction)
    (success' : getPredictedPaths fuel gravityWells antiGravityZones (bs.map ColorBox.shape) lines =
      some prediction')
    (same : prediction'.layers = prediction.layers) (apart : Apart bs) {line : Line} (member : line ∈ lines)
    {box : ColorBox} (there : box ∈ bs) (idle : box.getStep2 line.uuid = false)
    (up : box.getStep1 line.uuid = true) : Unread gravityWells antiGravityZones line bs box := by
  obtain ⟨after, after', kept, kept', looks⟩ :=
    looks_of_strokes distinct success success' (congrArg strokesOf same) member
  have shapes : ∀ {before after : List ColorBox}, List.Forall₂ (KeptFor line.uuid) before after →
      after.map ColorBox.shape = before.map ColorBox.shape := by
    intro before after kept
    induction kept with
    | nil => rfl
    | cons head _ ih => rw [List.map_cons, List.map_cons, head.1, ih]
  by_contra read
  obtain ⟨differ, unspared⟩ := not_or.mp read
  unfold Spared at unspared
  push Not at unspared
  obtain ⟨n, dormant, reaches, inBody, trips⟩ := unspared
  obtain ⟨here, memberHere, keptHere⟩ := exists_pair kept.flip there
  obtain ⟨here', memberHere', keptHere'⟩ := exists_pair kept'.flip (List.mem_map_of_mem there)
  have apart' : Apart after' := apart_of_shapes apart ((shapes kept').trans (List.map_map ..))
  have color := color_of_trips (apart_of_shapes apart (shapes kept)) differ memberHere keptHere idle dormant
    reaches inBody (trips (apart.at _))
  have color' : (turn gravityWells antiGravityZones after' line (n + 1)).line.lineColor = line.startColor ↔
      box.shape.getStep1 line.uuid = false :=
    color_of_trips apart' differ memberHere' keptHere' rfl dormant reaches inBody (trips (apart.at _))
  have sameColor := congrArg Prod.fst (looks (n + 1) reaches)
  change (turn _ _ after' line (n + 1)).line.lineColor = (turn _ _ after line (n + 1)).line.lineColor at sameColor
  rw [sameColor, color, up] at color'
  exact absurd (color'.mpr rfl) (by simp)

section Ends
variable (gravityWells antiGravityZones) in
/-- The last point that the line is moved to lies outside the box. -/
def EndsOutside (line : Line) (box : ColorBox) : Prop :=
  ∀ n, Reaches gravityWells antiGravityZones line n → ¬ Reaches gravityWells antiGravityZones line (n + 1) →
    forcesAt gravityWells antiGravityZones (pointAt gravityWells antiGravityZones line n) ≠ none →
      ¬ box.pointInBody (pointAt gravityWells antiGravityZones line (n + 1))

theorem EndsOutside.of_shape {line : Line} {box box' : ColorBox} (shape : box'.shape = box.shape)
    (ends : EndsOutside gravityWells antiGravityZones line box) :
    EndsOutside gravityWells antiGravityZones line box' := by
  change EndsOutside gravityWells antiGravityZones line box'.shape
  rw [shape]
  exact ends

theorem handleColorBoxes_cleared {uuid : String} {p : CGPoint} {c : Color} {after : ColorBox}
    (member : after ∈ (handleColorBoxes uuid p c bs).2) (out : ¬ after.pointInBody p) :
    after.getStep1 uuid = false := by
  induction bs generalizing c with
  | nil => exact absurd member List.not_mem_nil
  | cons box rest ih =>
    rcases List.mem_cons.mp member with rfl | later
    · have outBefore : ¬ box.pointInBody p := by
        rw [← ColorBox.pointInBody_shape, (handleColorBox_frame uuid p c box).1, ColorBox.pointInBody_shape] at out
        exact out
      rw [ColorGate.handleColorBox_out uuid c outBefore]
      simp
    · exact ih later

/-- A line whose loop is entered leaves its flag down in a box it ends outside of. -/
theorem predictLine_down {fuel : ℕ} {line : Line} {w : Walk}
    (success : predictLine fuel gravityWells antiGravityZones bs line = some w)
    (starts : Reaches gravityWells antiGravityZones line 0) {after : ColorBox}
    (member : after ∈ w.scaledColorBoxes) (ends : EndsOutside gravityWells antiGravityZones line after) :
    after.getStep1 line.uuid = false := by
  obtain ⟨n, _, exits, rfl⟩ := (Walk.loop gravityWells antiGravityZones).run_eq_some_iff.mp success
  obtain ⟨reaches, stops⟩ := (exitsAt_iff bs n).mp exits
  cases n with
  | zero => exact absurd starts stops
  | succ n =>
    have last := reaches n (Nat.lt_succ_self n)
    change after ∈ (turn gravityWells antiGravityZones bs line (n + 1)).scaledColorBoxes at member
    by_cases pulled : forcesAt gravityWells antiGravityZones
        (pointAt gravityWells antiGravityZones line n) = none
    · have enters := (reaches_iff bs n).mp last
      have uuid := restart_uuid (after_frame fun i below => enters i (Nat.le_of_lt below)).1
      rw [← (last.follows bs).point] at pulled
      rw [turn_succ, body_of_lost (enters n (le_refl n)) pulled] at member
      obtain ⟨before, _, rfl⟩ := List.mem_map.mp member
      rw [← uuid, split_line]
      simp
    · rw [(turn_gates bs last pulled).2] at member
      exact handleColorBoxes_cleared member (ends n last stops pulled)

theorem getPredictedPaths_down {fuel : ℕ} {lines : List Line} (distinct : (lines.map Line.uuid).Nodup)
    {prediction : Prediction}
    (success : getPredictedPaths fuel gravityWells antiGravityZones bs lines = some prediction) {line : Line}
    (member : line ∈ lines) (starts : Reaches gravityWells antiGravityZones line 0) {after : ColorBox}
    (there : after ∈ prediction.scaledColorBoxes)
    (ends : EndsOutside gravityWells antiGravityZones line after) : after.getStep1 line.uuid = false := by
  induction lines generalizing bs prediction with
  | nil => exact absurd member List.not_mem_nil
  | cons first rest ih =>
    obtain ⟨fresh, distinctRest⟩ := List.nodup_cons.mp distinct
    obtain ⟨walk, others, found, later, rfl⟩ := getPredictedPaths_cons.mp success
    rcases List.mem_cons.mp member with rfl | memberRest
    · obtain ⟨box, before, shape, flag⟩ := exists_pair (getPredictedPaths_kept later fresh) there
      rw [(Prod.mk.inj flag).1]
      exact predictLine_down found starts before (ends.of_shape shape.symm)
    · exact ih distinctRest later memberRest there

end Ends

/-- A prediction asks of a line only what it restarts from. -/
theorem predictLine_restart {fuel : ℕ} {line line' : Line} (restart : line'.restart = line.restart) :
    predictLine fuel gravityWells antiGravityZones bs line' =
      predictLine fuel gravityWells antiGravityZones bs line := by
  unfold predictLine Walk.start
  rw [restart]

theorem getPredictedPaths_restart {fuel : ℕ} {lines lines' : List Line}
    (restart : lines'.map Line.restart = lines.map Line.restart) :
    getPredictedPaths fuel gravityWells antiGravityZones bs lines' =
      getPredictedPaths fuel gravityWells antiGravityZones bs lines := by
  induction lines generalizing lines' bs with
  | nil =>
    obtain rfl := List.map_eq_nil_iff.mp restart
    rfl
  | cons line rest ih =>
    obtain ⟨line', rest', rfl, restartLine, restartRest⟩ := List.map_eq_cons_iff.mp restart
    simp only [getPredictedPaths, predictLine_restart restartLine, ih restartRest]

/-- And so does what comes to show of a flag. -/
theorem Unread.of_restart {line line' : Line} {boxes' : List ColorBox} {box box' : ColorBox}
    (restart : line'.restart = line.restart) (shapes : boxes'.map ColorBox.shape = boxes.map ColorBox.shape)
    (shape : box'.shape = box.shape) (unread : Unread gravityWells antiGravityZones line boxes box) :
    Unread gravityWells antiGravityZones line' boxes' box' := by
  have color : line'.startColor = line.startColor := congrArg (·.startColor) restart
  have points : ∀ n, pointAt gravityWells antiGravityZones line' n = pointAt gravityWells antiGravityZones line n := by
    intro n
    rw [pointAt, pointAt, wayOf, wayOf, freePoint_restart restart]
  have apart : ∀ p, ApartAt p boxes' ↔ ApartAt p boxes := by
    intro p
    rw [← apartAt_shapes, shapes, apartAt_shapes]
  change Unread gravityWells antiGravityZones line' boxes' box'.shape
  rw [shape]
  unfold Unread Spared Dormant at unread ⊢
  simp only [color, points, apart, reaches_restart restart]
  exact unread

end Prediction

end
end Arthius.Guarantees.StaleFlags
