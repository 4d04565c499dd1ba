import Mathlib.Algebra.BigOperators.Group.List.Basic
import Mathlib.Data.List.Chain
import Mathlib.Tactic.Common

/-!
# Polylines in labelled pieces

A path drawn edge by edge, each edge with a label (a colour, a width). A piece
holds consecutive edges of one label; a new one is begun at the last point when
the label changes. No edge is lost, no point drawn twice, and only a piece that
nothing has been drawn to yet is without an edge.
-/
namespace Arthius.Lib

variable {P L : Type*}

structure Piece (P L : Type*) where
  first : P
  rest : List P
  label : L

namespace Piece

def last (piece : Piece P L) : P := piece.rest.getLastD piece.first

def extend (piece : Piece P L) (p : P) : Piece P L := { piece with rest := piece.rest ++ [p] }

/-- The edges of a path. -/
def edgesFrom : P → List P → List (P × P)
  | _, [] => []
  | p, q :: rest => (p, q) :: edgesFrom q rest

/-- The edges of the piece, each with the piece's label. -/
def strokes (piece : Piece P L) : List ((P × P) × L) :=
  (edgesFrom piece.first piece.rest).map fun edge => (edge, piece.label)

theorem edgesFrom_append (p q : P) (rest : List P) :
    edgesFrom p (rest ++ [q]) = edgesFrom p rest ++ [(rest.getLastD p, q)] := by
  induction rest generalizing p with
  | nil => rfl
  | cons next rest ih =>
    rw [List.cons_append, edgesFrom, ih, edgesFrom, List.getLastD_cons, List.cons_append]

@[simp] theorem last_extend (piece : Piece P L) (p : P) : (piece.extend p).last = p := by
  simp [last, extend]

theorem strokes_extend (piece : Piece P L) (p : P) :
    (piece.extend p).strokes = piece.strokes ++ [((piece.last, p), piece.label)] := by
  unfold strokes extend last
  rw [edgesFrom_append, List.map_append, List.map_cons, List.map_nil]

end Piece

section Length
variable {A : Type*} [AddMonoid A] (measure : P → P → Option A)

/-- The length of some edges, unless one of them has none. -/
def edgesLength (edges : List (P × P)) : Option A :=
  (edges.mapM fun edge => measure edge.1 edge.2).map List.sum

theorem edgesLength_concat (edges : List (P × P)) (p q : P) :
    edgesLength measure (edges ++ [(p, q)]) =
      (edgesLength measure edges).bind fun length => (measure p q).map (length + ·) := by
  unfold edgesLength
  rw [List.mapM_append]
  cases edges.mapM fun edge => measure edge.1 edge.2 with
  | none => rfl
  | some lengths =>
    cases last : measure p q with
    | none => simp [last]
    | some length => simp [last]

end Length

/-- The pieces of a polyline: each begins where the one before ends and has
another label, and from the second on each has an edge. -/
structure Polyline (P L : Type*) where
  earlier : List (Piece P L)
  current : Piece P L
  connected : (earlier ++ [current]).IsChain fun piece next => next.first = piece.last
  changing : (earlier ++ [current]).IsChain fun piece next => next.label ≠ piece.label
  edged : ∀ piece ∈ (earlier ++ [current]).tail, piece.rest ≠ []

namespace Polyline

def pieces (polyline : Polyline P L) : List (Piece P L) := polyline.earlier ++ [polyline.current]

/-- The points of all pieces, the point where two pieces meet counted once. -/
def points (polyline : Polyline P L) : List P :=
  (polyline.pieces.head?.map Piece.first).toList ++ polyline.pieces.flatMap Piece.rest

def strokes (polyline : Polyline P L) : List ((P × P) × L) := polyline.pieces.flatMap Piece.strokes

def begin (p : P) (label : L) : Polyline P L where
  earlier := []
  current := ⟨p, [], label⟩
  connected := List.isChain_singleton _
  changing := List.isChain_singleton _
  edged := by simp

theorem isChain_concat {α : Type*} {R : α → α → Prop} {xs : List α} {x : α} :
    (xs ++ [x]).IsChain R ↔ xs.IsChain R ∧ ∀ y ∈ xs.getLast?, R y x := by
  rw [List.isChain_append]
  simp

/-- Drawing on with the same label. -/
def extend (polyline : Polyline P L) (p : P) : Polyline P L where
  earlier := polyline.earlier
  current := polyline.current.extend p
  connected := by
    have joined := isChain_concat.mp polyline.connected
    exact isChain_concat.mpr joined
  changing := by
    have distinct := isChain_concat.mp polyline.changing
    exact isChain_concat.mpr distinct
  edged := by
    intro piece member
    cases split : polyline.earlier with
    | nil => simp [split] at member
    | cons first others =>
      rw [split, List.cons_append, List.tail_cons, List.mem_append, List.mem_singleton] at member
      rcases member with before | rfl
      · refine polyline.edged piece ?_
        rw [split, List.cons_append, List.tail_cons]
        exact List.mem_append_left _ before
      · exact List.append_ne_nil_of_right_ne_nil _ (List.cons_ne_nil p [])

/-- Drawing on with another label. -/
def change (polyline : Polyline P L) (label : L) (p : P) (other : label ≠ polyline.current.label) :
    Polyline P L where
  earlier := polyline.pieces
  current := ⟨polyline.current.last, [p], label⟩
  connected := by
    refine isChain_concat.mpr ⟨polyline.connected, fun piece final => ?_⟩
    rw [pieces, List.getLast?_concat, Option.mem_some_iff] at final
    rw [← final]
  changing := by
    refine isChain_concat.mpr ⟨polyline.changing, fun piece final => ?_⟩
    rw [pieces, List.getLast?_concat, Option.mem_some_iff] at final
    rw [← final]
    exact other
  edged := by
    intro piece member
    rw [List.tail_append_of_ne_nil (by simp [pieces]), List.mem_append, List.mem_singleton] at member
    rcases member with before | rfl
    · exact polyline.edged piece before
    · exact List.cons_ne_nil p []

open Classical in
/-- One edge more, to a point and with a label. -/
noncomputable def draw (polyline : Polyline P L) (label : L) (p : P) : Polyline P L :=
  if other : label ≠ polyline.current.label then polyline.change label p other else polyline.extend p

section Draw
variable (polyline : Polyline P L) (label : L) (p : P)

theorem draw_same (same : label = polyline.current.label) :
    polyline.draw label p = polyline.extend p := dif_neg fun other => other same

theorem draw_other (other : label ≠ polyline.current.label) :
    polyline.draw label p = polyline.change label p other := dif_pos other

@[simp] theorem last_draw : (polyline.draw label p).current.last = p := by
  by_cases same : label = polyline.current.label
  · rw [draw_same _ _ _ same]
    exact Piece.last_extend _ _
  · rw [draw_other _ _ _ same]
    rfl

theorem points_draw : (polyline.draw label p).points = polyline.points ++ [p] := by
  by_cases same : label = polyline.current.label
  · rw [draw_same _ _ _ same]
    cases split : polyline.earlier with
    | nil => simp [points, pieces, extend, Piece.extend, split]
    | cons first others => simp [points, pieces, extend, Piece.extend, split]
  · rw [draw_other _ _ _ same]
    cases split : polyline.earlier with
    | nil => simp [points, pieces, change, split]
    | cons first others => simp [points, pieces, change, split]

theorem strokes_draw : (polyline.draw label p).strokes =
    polyline.strokes ++ [((polyline.current.last, p), label)] := by
  by_cases same : label = polyline.current.label
  · rw [draw_same _ _ _ same, same]
    simp [strokes, pieces, extend, Piece.strokes_extend]
  · rw [draw_other _ _ _ same]
    simp [strokes, pieces, change, Piece.strokes, Piece.edgesFrom]

end Draw

end Polyline
end Arthius.Lib
