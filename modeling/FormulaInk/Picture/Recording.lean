import FormulaInk.Color
import FormulaInk.Picture.Shape
import FormulaInk.Picture.Transform

/-!
Pictures recorded as commands.

A command is a shape with the state of the pen that drew it. Shapes are given in user space with
numbers of `α`; the transform takes them to the device in the wider arithmetic `δ`.
-/

namespace FormulaInk

/-- The state that shapes are drawn under. -/
structure Pen (α δ : Type) where
  color : Color
  stroke : Stroke α
  transform : Transform δ
  deriving DecidableEq, Repr

/-- A black pen of width one. -/
def Pen.standard {α δ : Type} [Scalar α] [Scalar δ] : Pen α δ := ⟨.black, .standard, .identity⟩

/-- A shape, and the pen that drew it. -/
structure Command (α δ : Type) where
  shape : Shape α
  pen : Pen α δ
  deriving DecidableEq, Repr

/-- The corners of an upright rectangle: the upper left and the lower right one. -/
structure Bounds (δ : Type) where
  left : δ
  top : δ
  right : δ
  bottom : δ
  deriving DecidableEq, Repr

/-- The smallest upright rectangle around two. -/
def Bounds.union {δ : Type} [Scalar δ] (b c : Bounds δ) : Bounds δ :=
  ⟨Scalar.min b.left c.left, Scalar.min b.top c.top, Scalar.max b.right c.right,
    Scalar.max b.bottom c.bottom⟩

/-- The rectangle that a shape lies in, in the wider arithmetic. -/
def Shape.bounds {α δ : Type} [Scalar α] [Widening α δ] (s : Shape α) : Bounds δ :=
  let r := s.rect
  ⟨Widening.widen r.x, Widening.widen r.y, Widening.widen r.right, Widening.widen r.bottom⟩

/-- The smallest upright rectangle on the device around the mapped corners of the shape's. -/
def Command.bounds {α δ : Type} [Scalar α] [Scalar δ] [Widening α δ] (c : Command α δ) :
    Bounds δ :=
  let b : Bounds δ := c.shape.bounds
  let first := c.pen.transform.apply (b.left, b.top)
  let corners := [(b.right, b.top), (b.left, b.bottom), (b.right, b.bottom)].map c.pen.transform.apply
  ⟨Scalar.least first.1 (corners.map (·.1)), Scalar.least first.2 (corners.map (·.2)),
    Scalar.greatest first.1 (corners.map (·.1)), Scalar.greatest first.2 (corners.map (·.2))⟩

/-- A picture: what was drawn so far, and the pen that draws next. -/
structure Recording (α δ : Type) where
  commands : List (Command α δ)
  pen : Pen α δ
  deriving DecidableEq, Repr

namespace Recording

variable {α δ : Type}

/-- A blank picture under a black pen of width one. -/
def blank [Scalar α] [Scalar δ] : Recording α δ := ⟨[], .standard⟩

/-- Draws a shape. -/
def draw (g : Recording α δ) (shape : Shape α) : Recording α δ :=
  { g with commands := g.commands ++ [⟨shape, g.pen⟩] }

/-- Forgets what was drawn. -/
def clear (g : Recording α δ) : Recording α δ := { g with commands := [] }

/-- Takes another pen. -/
def withPen (g : Recording α δ) (pen : Pen α δ) : Recording α δ := { g with pen }

/-- Changes the color. -/
def withColor (g : Recording α δ) (color : Color) : Recording α δ :=
  { g with pen := { g.pen with color } }

/-- Changes the stroke. -/
def withStroke (g : Recording α δ) (stroke : Stroke α) : Recording α δ :=
  { g with pen := { g.pen with stroke } }

/-- Changes the transform. -/
def withTransform (g : Recording α δ) (transform : Transform δ) : Recording α δ :=
  { g with pen := { g.pen with transform } }

/-- Draws with `act`, and then takes back the pen from before. -/
def guarded (g : Recording α δ) (act : Recording α δ → Recording α δ) : Recording α δ :=
  (act g).withPen g.pen

variable [Scalar α] [Scalar δ]

/-- Moves the origin of user space. -/
def translate (g : Recording α δ) (x y : δ) : Recording α δ :=
  g.withTransform (g.pen.transform.translate x y)

/-- Stretches user space. -/
def scale (g : Recording α δ) (x y : δ) : Recording α δ :=
  g.withTransform (g.pen.transform.scale x y)

/-- Turns user space around a point. -/
def rotateAbout (g : Recording α δ) (theta x y : δ) : Recording α δ :=
  g.withTransform (g.pen.transform.rotateAbout theta x y)

/-- The smallest upright rectangle on the device around everything that was drawn. -/
def bounds [Widening α δ] (g : Recording α δ) : Option (Bounds δ) :=
  match g.commands.map Command.bounds with
  | [] => none
  | b :: rest => some (rest.foldl Bounds.union b)

end Recording

end FormulaInk
