import Mathlib.Analysis.SpecialFunctions.Trigonometric.Basic
import Mathlib.Analysis.SpecialFunctions.Complex.Arg
import Arthius.Lib.BinaryRounding

/-!
# Points, vectors and rectangles

CoreGraphics values in exact arithmetic (`CGFloat` and `Float32` are reals), with
the operators of `Extensions.swift`. Points and rectangles are stored exactly; a
velocity is rounded to the nearest `Float32` when it is stored, and `double` is
there to say where exact arithmetic matters. `CGRect.width` and `CGRect.height` are CoreGraphics's
accessors, which never return a negative number, and `contains` takes the
minimum edges in and the maximum edges out.
-/
namespace Arthius.Source
open Arthius.Lib

abbrev CGFloat := ℝ
abbrev Float32 := ℝ

/-- The initialiser `Float32(_:)`. -/
noncomputable def float32 (x : CGFloat) : Float32 := binary32.round x

/-- What an operation of `CGFloat` makes of its exact result. -/
noncomputable def double (x : CGFloat) : CGFloat := binary64.round x

@[simp] theorem double_zero : double 0 = 0 := binary64.round_zero

theorem float32_natCast {n : ℕ} (small : n < 2 ^ 24) : float32 n = n :=
  BinaryFormat.round_natCast (show (n : ℝ) < 2 ^ (24 : ℤ) by exact_mod_cast small) (by decide)

theorem double_natCast {n : ℕ} (small : n < 2 ^ 53) : double n = n :=
  BinaryFormat.round_natCast (show (n : ℝ) < 2 ^ (53 : ℤ) by exact_mod_cast small) (by decide)

@[ext] structure CGPoint where
  x : CGFloat
  y : CGFloat

@[ext] structure CGVector where
  dx : CGFloat
  dy : CGFloat

@[ext] structure CGSize where
  width : CGFloat
  height : CGFloat

@[ext] structure CGRect where
  origin : CGPoint
  size : CGSize

-- A literal without a proof in it, so that it is the same term in every module.
noncomputable instance literal (n : ℕ) : OfNat CGFloat (n + 2) := ⟨((n + 2 : ℕ) : ℝ)⟩

noncomputable section

namespace CGPoint

def zero : CGPoint := ⟨0, 0⟩

instance : Add CGPoint := ⟨fun lhs rhs => ⟨lhs.x + rhs.x, lhs.y + rhs.y⟩⟩
instance : Sub CGPoint := ⟨fun lhs rhs => ⟨lhs.x - rhs.x, lhs.y - rhs.y⟩⟩

@[simp] theorem add_x (p q : CGPoint) : (p + q).x = p.x + q.x := rfl
@[simp] theorem add_y (p q : CGPoint) : (p + q).y = p.y + q.y := rfl
@[simp] theorem sub_x (p q : CGPoint) : (p - q).x = p.x - q.x := rfl
@[simp] theorem sub_y (p q : CGPoint) : (p - q).y = p.y - q.y := rfl

end CGPoint

namespace CGVector

def zero : CGVector := ⟨0, 0⟩

instance : Add CGVector := ⟨fun left right => ⟨left.dx + right.dx, left.dy + right.dy⟩⟩
instance : Mul CGVector := ⟨fun left right => ⟨left.dx * right.dx, left.dy * right.dy⟩⟩
instance : Div CGVector := ⟨fun left right => ⟨left.dx / right.dx, left.dy / right.dy⟩⟩
instance : HMul CGVector CGFloat CGVector := ⟨fun vector scalar => ⟨vector.dx * scalar, vector.dy * scalar⟩⟩
instance : HDiv CGVector CGFloat CGVector := ⟨fun vector scalar => ⟨vector.dx / scalar, vector.dy / scalar⟩⟩

def length (v : CGVector) : CGFloat := Real.sqrt (v.dx * v.dx + v.dy * v.dy)

def normalized (v : CGVector) : CGVector := if v.length > 0 then v / v.length else zero

@[simp] theorem zero_dx : zero.dx = 0 := rfl
@[simp] theorem zero_dy : zero.dy = 0 := rfl
@[simp] theorem add_dx (v w : CGVector) : (v + w).dx = v.dx + w.dx := rfl
@[simp] theorem add_dy (v w : CGVector) : (v + w).dy = v.dy + w.dy := rfl
@[simp] theorem mul_dx (v w : CGVector) : (v * w).dx = v.dx * w.dx := rfl
@[simp] theorem mul_dy (v w : CGVector) : (v * w).dy = v.dy * w.dy := rfl
@[simp] theorem div_dx (v w : CGVector) : (v / w).dx = v.dx / w.dx := rfl
@[simp] theorem div_dy (v w : CGVector) : (v / w).dy = v.dy / w.dy := rfl
@[simp] theorem smul_dx (v : CGVector) (k : CGFloat) : (v * k).dx = v.dx * k := rfl
@[simp] theorem smul_dy (v : CGVector) (k : CGFloat) : (v * k).dy = v.dy * k := rfl
@[simp] theorem sdiv_dx (v : CGVector) (k : CGFloat) : (v / k).dx = v.dx / k := rfl
@[simp] theorem sdiv_dy (v : CGVector) (k : CGFloat) : (v / k).dy = v.dy / k := rfl

end CGVector

/-- `atan2` of the C library, as the angle of the point `(x, y)`. -/
def atan2 (y x : CGFloat) : CGFloat := Complex.arg ⟨x, y⟩

namespace CGRect

def mk4 (x y width height : CGFloat) : CGRect := ⟨⟨x, y⟩, ⟨width, height⟩⟩

def width (r : CGRect) : CGFloat := |r.size.width|
def height (r : CGRect) : CGFloat := |r.size.height|

-- The height is scaled from the width.
instance : HMul CGRect CGFloat CGRect := ⟨fun left right =>
  mk4 (left.origin.x * right) (left.origin.y * right) (left.width * right) (left.width * right)⟩

def minX (r : CGRect) : CGFloat := min r.origin.x (r.origin.x + r.size.width)
def minY (r : CGRect) : CGFloat := min r.origin.y (r.origin.y + r.size.height)
def midX (r : CGRect) : CGFloat := r.minX + r.width / 2
def midY (r : CGRect) : CGFloat := r.minY + r.height / 2

def contains (r : CGRect) (p : CGPoint) : Prop :=
  r.minX ≤ p.x ∧ p.x < r.minX + r.width ∧ r.minY ≤ p.y ∧ p.y < r.minY + r.height

instance (r : CGRect) (p : CGPoint) : Decidable (r.contains p) := Classical.dec _

theorem contains_mk4 {x y width height : CGFloat} (wide : 0 ≤ width) (high : 0 ≤ height) (p : CGPoint) :
    (mk4 x y width height).contains p ↔ x ≤ p.x ∧ p.x < x + width ∧ y ≤ p.y ∧ p.y < y + height := by
  simp [contains, mk4, minX, minY, CGRect.width, CGRect.height, abs_of_nonneg, wide, high]

end CGRect

/-- `UIScreen.main.bounds.size`, which is never empty. -/
structure Screen where
  width : CGFloat
  height : CGFloat
  width_pos : 0 < width
  height_pos : 0 < height

namespace Screen
variable (screen : Screen)

def propToFloat (prop : CGFloat) (scaleWithX : Bool) : CGFloat :=
  if scaleWithX then prop * screen.width else prop * screen.height

def propToPoint (prop : CGPoint) : CGPoint :=
  ⟨screen.propToFloat prop.x true, screen.propToFloat prop.y false⟩

def propToVector (prop : CGVector) : CGVector :=
  ⟨screen.propToFloat prop.dx true, screen.propToFloat prop.dy false⟩

def propToRect (prop : CGRect) : CGRect :=
  .mk4 (prop.origin.x * screen.width) (prop.origin.y * screen.height)
    (screen.width * prop.width) (screen.height * prop.height)

def floatToProp (float : CGFloat) (scaleWithX : Bool) : CGFloat :=
  if scaleWithX then float / screen.width else float / screen.height

def pointToProp (point : CGPoint) : CGPoint :=
  ⟨screen.floatToProp point.x true, screen.floatToProp point.y false⟩

def rectToProp (rect : CGRect) : CGRect :=
  .mk4 (rect.origin.x / screen.width) (rect.origin.y / screen.height)
    (rect.width / screen.width) (rect.height / screen.height)

end Screen

/-- `Circle` of `LevelView.swift`. -/
structure Circle where
  center : CGPoint
  radius : CGFloat

def Circle.collidesWith (self circle2 : Circle) : Prop :=
  let xx := circle2.center.x - self.center.x
  let yy := circle2.center.y - self.center.y
  let rr := circle2.radius + self.radius
  xx * xx + yy * yy ≤ rr * rr

instance (c d : Circle) : Decidable (c.collidesWith d) := Classical.dec _

/-- `LevelView.distance(a:b:)` -/
def distance (a b : CGPoint) : CGFloat :=
  let xDist := a.x - b.x
  let yDist := a.y - b.y
  Real.sqrt (xDist * xDist + yDist * yDist)

end
end Arthius.Source
