import FormulaInk.Scalar

/-!
The shapes that are drawn, and how outlines are stroked.
-/

namespace FormulaInk

/-- The ends of stroked lines. -/
inductive LineCap where
  | butt
  | round
  | square
  deriving DecidableEq, Repr

namespace LineCap

/-- The name of a cap. -/
def name : LineCap → String
  | butt => "Butt"
  | round => "Round"
  | square => "Square"

/-- The cap of a name. -/
def ofName? (s : String) : Option LineCap := [butt, round, square].find? (·.name == s)

end LineCap

/-- The corners of stroked outlines. -/
inductive LineJoin where
  | miter
  | round
  | bevel
  deriving DecidableEq, Repr

namespace LineJoin

/-- The name of a join. -/
def name : LineJoin → String
  | miter => "Miter"
  | round => "Round"
  | bevel => "Bevel"

/-- The join of a name. -/
def ofName? (s : String) : Option LineJoin := [miter, round, bevel].find? (·.name == s)

end LineJoin

/-- How outlines are stroked. -/
structure Stroke (α : Type) where
  width : α
  cap : LineCap
  join : LineJoin
  miterLimit : α
  deriving DecidableEq, Repr

namespace Stroke

variable {α : Type} [Scalar α]

/-- The stroke of a width with the usual ends and corners. -/
def ofWidth (width : α) : Stroke α := ⟨width, .butt, .miter, Scalar.whole 10⟩

/-- The stroke of width one. -/
def standard : Stroke α := ofWidth (Scalar.whole 1)

instance : Inhabited (Stroke α) := ⟨standard⟩

/-- The stroke with other ends. -/
def withCap (s : Stroke α) (cap : LineCap) : Stroke α := { s with cap }

end Stroke

/-- A rectangle by its upper left corner and its size. -/
structure Rect (α : Type) where
  x : α
  y : α
  w : α
  h : α
  deriving DecidableEq, Repr

/-- The right edge. -/
def Rect.right {α : Type} [Scalar α] (r : Rect α) : α := r.x + r.w

/-- The lower edge. -/
def Rect.bottom {α : Type} [Scalar α] (r : Rect α) : α := r.y + r.h

/-- What is drawn. Rectangles, rectangles with round corners and ellipses lie in a rectangle; the
angles of arcs are in degrees, counterclockwise from three o'clock. -/
inductive Shape (α : Type) where
  | fillRect (r : Rect α)
  | drawRect (r : Rect α)
  | fillRoundRect (r : Rect α) (arcWidth arcHeight : α)
  | drawRoundRect (r : Rect α) (arcWidth arcHeight : α)
  | line (x₁ y₁ x₂ y₂ : α)
  /-- The wedge between an arc and its center. -/
  | fillArc (r : Rect α) (start extent : α)
  | drawArc (r : Rect α) (start extent : α)
  deriving DecidableEq, Repr

namespace Shape

variable {α : Type}

/-- The name of a kind of shape. -/
def name : Shape α → String
  | fillRect _ => "FillRect"
  | drawRect _ => "DrawRect"
  | fillRoundRect .. => "FillRoundRect"
  | drawRoundRect .. => "DrawRoundRect"
  | line .. => "Line"
  | fillArc .. => "FillArc"
  | drawArc .. => "DrawArc"

/-- The numbers that make up a shape. -/
def numbers : Shape α → List α
  | fillRect r | drawRect r => [r.x, r.y, r.w, r.h]
  | fillRoundRect r a b | drawRoundRect r a b | fillArc r a b | drawArc r a b =>
    [r.x, r.y, r.w, r.h, a, b]
  | line x₁ y₁ x₂ y₂ => [x₁, y₁, x₂, y₂]

variable [Scalar α]

/-- A filled ellipse. -/
def fillEllipse (r : Rect α) : Shape α := fillArc r (Scalar.whole 0) (Scalar.whole 360)

/-- The outline of an ellipse. -/
def drawEllipse (r : Rect α) : Shape α := drawArc r (Scalar.whole 0) (Scalar.whole 360)

/-- The rectangle that a shape lies in. -/
def rect : Shape α → Rect α
  | fillRect r | drawRect r | fillRoundRect r _ _ | drawRoundRect r _ _ | fillArc r _ _
  | drawArc r _ _ => r
  | line x₁ y₁ x₂ y₂ =>
    ⟨Scalar.min x₁ x₂, Scalar.min y₁ y₂, Scalar.abs (x₂ - x₁), Scalar.abs (y₂ - y₁)⟩

end Shape

end FormulaInk
