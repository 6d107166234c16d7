import FormulaInk.Box.Paint

/-!
Icons: boxes at a size, with their extent in whole pixels.
-/

namespace FormulaInk

namespace Pixels

/-- The largest number of pixels, and the largest inset. -/
def most : Int := 2147483647

/-- The least inset. -/
def least : Int := -2147483648

/-- A number of pixels held within its range. -/
def clamp (n : Int) : Int := max least (min n most)

/-- The sum of two numbers of pixels, held within their range. -/
def add (m n : Int) : Int := clamp (m + n)

end Pixels

/-- The margins around a painted box, in pixels. -/
structure Insets where
  top : Int
  left : Int
  bottom : Int
  right : Int
  deriving DecidableEq, Repr

namespace Insets

/-- The same margin on all sides. -/
def uniform (n : Int) : Insets := ⟨n, n, n, n⟩

/-- Margins enlarged on all sides. -/
def widen (i : Insets) (pad : Int) : Insets :=
  ⟨Pixels.add i.top pad, Pixels.add i.left pad, Pixels.add i.bottom pad, Pixels.add i.right pad⟩

end Insets

/-- A box at a size in points. -/
structure Icon (α : Type) where
  box : Box α
  size : α
  /-- Whether the extent is that of the box, without padding. -/
  trueValues : Bool
  foreground : Option Color
  /-- Whether the formula sets colors. -/
  colored : Bool
  insets : Insets
  pixelsPerPoint : α

namespace Icon

variable {α δ : Type} [Scalar α] [Scalar δ] [Widening α δ] [Truncating α] [Truncating δ]

/-- Sets the margins. Without true values they are enlarged by the padding, which grows with the
size. -/
def withInsets (i : Icon α) (insets : Insets) : Icon α :=
  { i with
    insets :=
      if i.trueValues then insets
      else insets.widen (Truncating.truncate (Scalar.ratio 18 100 * i.size)) }

/-- The icon of a box. -/
def ofBox (box : Box α) (size : α) (trueValues : Bool) (pixelsPerPoint : α) : Icon α :=
  let bare : Icon α := ⟨box, size, trueValues, none, false, .uniform 0, pixelsPerPoint⟩
  bare.withInsets (.uniform 0)

/-- Sets the foreground. -/
def withForeground (i : Icon α) (foreground : Option Color) : Icon α := { i with foreground }

/-- The pixels of an em. -/
def scale (i : Icon α) : α := i.size * i.pixelsPerPoint

/-- A length in em as a number of pixels, rounded up. -/
def pixels (i : Icon α) (length : α) : Int :=
  Truncating.truncate
    ((Widening.widen length * Widening.widen i.scale + Scalar.ratio 99 100 : δ))

/-- The width in pixels. -/
def width (i : Icon α) : Int :=
  Pixels.add (Pixels.add (i.pixels i.box.width) i.insets.left) i.insets.right

/-- The height in pixels. -/
def height (i : Icon α) : Int :=
  Pixels.add
    (Pixels.add (Pixels.add (i.pixels i.box.height) i.insets.top) (i.pixels i.box.depth))
    i.insets.bottom

/-- Where the baseline stands between the upper edge at zero and the lower one at one. -/
def baseLine (i : Icon α) : α :=
  let above := i.box.height * i.scale + Scalar.ratio 99 100 + Scalar.ofInt i.insets.top
  let total := i.box.totalHeight * i.scale + Scalar.ratio 99 100 + Scalar.ofInt i.insets.top +
    Scalar.ofInt i.insets.bottom
  if Scalar.whole 0 < total then above / total else Scalar.whole 0

/-- Paints the icon with its upper left corner at a point, in its foreground or else in black. -/
def paint (i : Icon α) (x y : δ) (g : Recording α δ) : Recording α δ :=
  g.guarded fun g =>
    let g := (g.withColor (i.foreground.getD .black)).translate (x + Scalar.ofInt i.insets.left)
      (y + Scalar.ofInt i.insets.top)
    i.box.paint (Scalar.whole 0) i.box.height
      (g.scale (Widening.widen i.scale) (Widening.widen i.scale))

end Icon

end FormulaInk
