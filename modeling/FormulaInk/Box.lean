import FormulaInk.Color
import FormulaInk.Font
import FormulaInk.Length

/-!
Boxes: formulas laid out.

A box has a reference point on the baseline at its left edge. Its height goes up from the baseline
and its depth goes down, both in em. A shift moves a box down in a row and to the right in a stack.
-/

namespace FormulaInk

/-- The extent and the colors of a box. -/
structure Outline (α : Type) where
  width : α
  height : α
  depth : α
  shift : α
  foreground : Option Color := none
  background : Option Color := none

/-- A laid-out box, with its parts. -/
inductive Box (α : Type) where
  /-- Space without ink. -/
  | strut (o : Outline α)
  | glyph (o : Outline α) (ch : Char) (shape : GlyphShape) (thickness : α)
  /-- Ink all over the box. -/
  | rule (o : Outline α)
  /-- Children side by side, with the indices of those that a line may start with. -/
  | horizontal (o : Outline α) (children : List (Box α)) (breaks : List Nat)
  /-- Children on top of each other, the topmost first. -/
  | vertical (o : Outline α) (children : List (Box α))
  | radicalSign (o : Outline α) (thickness : α)
  | framed (o : Outline α) (thickness space : α) (base : Box α)
  | oval (o : Outline α) (thickness space : α) (base : Box α)
  | circled (o : Outline α) (thickness : α) (base : Box α)
  /-- A base turned around its reference point, which stands `offset` right of the left edge. -/
  | rotated (o : Outline α) (radians offset : α) (base : Box α)
  | scaled (o : Outline α) (x y : α) (base : Box α)

namespace Box

variable {α : Type}

/-- The outline of a box. -/
def outline : Box α → Outline α
  | strut o | glyph o .. | rule o | horizontal o .. | vertical o .. | radicalSign o .. | framed o ..
  | oval o .. | circled o .. | rotated o .. | scaled o .. => o

/-- The box with another outline. -/
def withOutline (o : Outline α) : Box α → Box α
  | strut _ => strut o
  | glyph _ ch shape thickness => glyph o ch shape thickness
  | rule _ => rule o
  | horizontal _ children breaks => horizontal o children breaks
  | vertical _ children => vertical o children
  | radicalSign _ thickness => radicalSign o thickness
  | framed _ thickness space base => framed o thickness space base
  | oval _ thickness space base => oval o thickness space base
  | circled _ thickness base => circled o thickness base
  | rotated _ radians offset base => rotated o radians offset base
  | scaled _ x y base => scaled o x y base

@[simp]
theorem outline_withOutline (o : Outline α) (b : Box α) : (b.withOutline o).outline = o := by
  cases b <;> rfl

def width (b : Box α) : α := b.outline.width
def height (b : Box α) : α := b.outline.height
def depth (b : Box α) : α := b.outline.depth
def shift (b : Box α) : α := b.outline.shift
def foreground (b : Box α) : Option Color := b.outline.foreground
def background (b : Box α) : Option Color := b.outline.background

/-- The box with another shift. -/
def withShift (b : Box α) (shift : α) : Box α := b.withOutline { b.outline with shift }

/-- The box with other colors. -/
def withColors (b : Box α) (foreground background : Option Color) : Box α :=
  b.withOutline { b.outline with foreground, background }

/-- The box with colors where it has none of its own. -/
def colored (b : Box α) (foreground background : Option Color) : Box α :=
  b.withColors (b.foreground <|> foreground) (b.background <|> background)

/-- The parts of a row or a stack. -/
def children : Box α → List (Box α)
  | horizontal _ children _ | vertical _ children => children
  | _ => []

variable [Scalar α]

/-- The height and the depth together. -/
def totalHeight (b : Box α) : α := b.height + b.depth

/-- How far a box reaches above the baseline of its row. -/
def ascent (b : Box α) : α := b.height - b.shift

/-- How far a box reaches below the baseline of its row. -/
def descent (b : Box α) : α := b.depth + b.shift

/-- An outline without shift and colors. -/
def plain (width height depth : α) : Outline α := ⟨width, height, depth, Scalar.whole 0, none, none⟩

/-- Space of the given size. -/
def space (width height depth : α) : Box α := strut (plain width height depth)

/-- Horizontal space. -/
def kern (width : α) : Box α := space width (Scalar.whole 0) (Scalar.whole 0)

/-- No space at all. -/
def nothing : Box α := kern (Scalar.whole 0)

/-- The glyph of a character. -/
def ofChar (ch : Char) (width height depth thickness : α) : Box α :=
  glyph (plain width height depth) ch (.ofChar ch) thickness

/-- A solid rectangle. -/
def bar (width height depth : α) : Box α := rule (plain width height depth)

/-- The largest of the numbers; zero if there are none. -/
def largest : List α → α
  | [] => Scalar.whole 0
  | x :: xs => xs.foldl Scalar.max x

/-- Boxes side by side. The row is as wide as they are together, and reaches as far up and down as
any of them. -/
def row (children : List (Box α)) (breaks : List Nat) : Box α :=
  horizontal
    (plain (Scalar.sum (children.map width)) (largest (children.map ascent))
      (largest (children.map descent)))
    children breaks

/-- Boxes side by side without a place for a break. -/
def hbox (children : List (Box α)) : Box α := row children []

/-- Boxes on top of each other, with the baseline `height` below the top. -/
def stack (children : List (Box α)) (height : α) : Box α :=
  vertical
    (plain
      ((children.map fun c => c.width + c.shift).foldl Scalar.max (Scalar.whole 0)) height
      (Scalar.sum (children.map totalHeight) - height))
    children

/-- The sign of a radical. -/
def radical (width height depth thickness : α) : Box α :=
  radicalSign (plain width height depth) thickness

/-- The outline of a box with the same space around it on all sides. -/
def padded (base : Box α) (pad : α) : Outline α :=
  plain (base.width + Scalar.whole 2 * pad) (base.height + pad) (base.depth + pad)

/-- A box in a rectangular frame. -/
def frame (base : Box α) (thickness space : α) : Box α :=
  framed (padded base (thickness + space)) thickness space base

/-- A box in a frame with round ends. -/
def ovalFrame (base : Box α) (thickness space : α) : Box α :=
  oval (padded base (thickness + space)) thickness space base

/-- A box in a circle around its middle. -/
def circle (base : Box α) (thickness space : α) : Box α :=
  let diameter :=
    Scalar.max base.width (base.height + base.depth) + Scalar.whole 2 * (space + thickness)
  let center := (base.height - base.depth) / Scalar.whole 2
  circled
    (plain diameter (center + diameter / Scalar.whole 2) (diameter / Scalar.whole 2 - center))
    thickness base

/-- A point turned clockwise, on a surface whose vertical axis points down. -/
def turn (sin cos : α) (p : α × α) : α × α := (p.1 * cos - p.2 * sin, p.1 * sin + p.2 * cos)

/-- A box turned counterclockwise by an angle in degrees. It covers the corners of its base. -/
def rotate (base : Box α) (degrees : α) : Box α :=
  let radians := -(degrees * Scalar.degree)
  let (sin, cos) := Scalar.sinCos radians
  let zero : α := Scalar.whole 0
  let first := turn sin cos (zero, -base.height)
  let corners := [(base.width, -base.height), (zero, base.depth), (base.width, base.depth)].map
    (turn sin cos)
  let left := Scalar.least first.1 (corners.map (·.1))
  let right := Scalar.greatest first.1 (corners.map (·.1))
  let top := Scalar.least first.2 (corners.map (·.2))
  let bottom := Scalar.greatest first.2 (corners.map (·.2))
  rotated (plain (right - left) (-top) bottom) radians (-left) base

/-- A box stretched by two factors. A negative one turns it around. -/
def scale (base : Box α) (x y : α) : Box α :=
  let width := base.width * Scalar.abs x
  if Scalar.whole 0 ≤ y then scaled (plain width (base.height * y) (base.depth * y)) x y base
  else scaled (plain width (base.depth * -y) (base.height * -y)) x y base

/-- A box in a wider row. One that is too wide is left as it is. -/
def aligned (inner : Box α) (width : α) (align : Alignment) : Box α :=
  let rest := width - inner.width
  if rest ≤ Scalar.whole 0 then hbox [inner]
  else
    match align with
    | .left => hbox [inner, kern rest]
    | .right => hbox [kern rest, inner]
    | .center => hbox [kern (rest / Scalar.whole 2), inner, kern (rest / Scalar.whole 2)]

end Box

end FormulaInk
