import FormulaInk.Scalar

/-!
Affine transforms of the plane.
-/

namespace FormulaInk

/-- The transform that maps `(x, y)` to `(sx * x + kx * y + tx, ky * x + sy * y + ty)`. -/
structure Transform (δ : Type) where
  sx : δ
  ky : δ
  kx : δ
  sy : δ
  tx : δ
  ty : δ
  deriving DecidableEq, Repr

namespace Transform

variable {δ : Type} [Scalar δ]

/-- The transform that moves nothing. -/
def identity : Transform δ :=
  ⟨Scalar.whole 1, Scalar.whole 0, Scalar.whole 0, Scalar.whole 1, Scalar.whole 0, Scalar.whole 0⟩

instance : Inhabited (Transform δ) := ⟨identity⟩

/-- The transform that moves every point by the same distance. -/
def translation (x y : δ) : Transform δ := { identity with tx := x, ty := y }

/-- The transform that stretches along the axes. -/
def scaling (x y : δ) : Transform δ := { identity with sx := x, sy := y }

/-- The transform that turns around the origin, by an angle in radians. -/
def rotation (theta : δ) : Transform δ :=
  let (sin, cos) := Scalar.sinCos theta
  ⟨cos, sin, -sin, cos, Scalar.whole 0, Scalar.whole 0⟩

/-- The transform that applies `t` to what `u` gives. -/
def comp (t u : Transform δ) : Transform δ where
  sx := t.sx * u.sx + t.kx * u.ky
  ky := t.ky * u.sx + t.sy * u.ky
  kx := t.sx * u.kx + t.kx * u.sy
  sy := t.ky * u.kx + t.sy * u.sy
  tx := t.sx * u.tx + t.kx * u.ty + t.tx
  ty := t.ky * u.tx + t.sy * u.ty + t.ty

/-- Moves the origin of user space. -/
def translate (t : Transform δ) (x y : δ) : Transform δ := t.comp (translation x y)

/-- Stretches user space. -/
def scale (t : Transform δ) (x y : δ) : Transform δ := t.comp (scaling x y)

/-- Turns user space around its origin. -/
def rotate (t : Transform δ) (theta : δ) : Transform δ := t.comp (rotation theta)

/-- Turns user space around a point. -/
def rotateAbout (t : Transform δ) (theta x y : δ) : Transform δ :=
  ((t.translate x y).rotate theta).translate (-x) (-y)

/-- The point that a point is mapped to. -/
def apply (t : Transform δ) (p : δ × δ) : δ × δ :=
  (t.sx * p.1 + t.kx * p.2 + t.tx, t.ky * p.1 + t.sy * p.2 + t.ty)

end Transform

end FormulaInk
