import FormulaInk.Box
import FormulaInk.Layout.Glue

/-!
Rows: items side by side, with glue between neighbours and places for line breaks.

A row is laid out in two steps. The items become pieces one after the other, with glue where two
neighbours ask for it; then the children and the break positions are read off the pieces.
-/

namespace FormulaInk

/-- An item of a row whose own box is laid out. -/
inductive Cell (α : Type) where
  /-- A place where the line may be broken. -/
  | breakMark
  /-- An item that takes no part in the glue. -/
  | neutral (box : Box α)
  /-- An item with the classes it shows, which may grow to the height of the row. -/
  | solid (left right : AtomClass) (grows : Bool) (box : Box α)

/-- A part of a row. -/
inductive Piece (α : Type) where
  | breakPoint
  | child (grows : Bool) (box : Box α)

namespace Row

variable {α : Type}

/-- The children of a row, each with whether it grows. -/
def children : List (Piece α) → List (Bool × Box α)
  | [] => []
  | .breakPoint :: rest => children rest
  | .child grows box :: rest => (grows, box) :: children rest

/-- The index of the child that each break point stands before, after `n` children. -/
def breaks (n : Nat) : List (Piece α) → List Nat
  | [] => []
  | .breakPoint :: rest => n :: breaks n rest
  | .child .. :: rest => breaks (n + 1) rest

variable [Scalar α]

/-- The glue before an item of class `left`, as children of the row. -/
def glue (style : Style) (mu : α) (previous : Option AtomClass) (left : AtomClass) :
    List (Piece α) :=
  match previous with
  | none => []
  | some previous =>
    let width : α := (Glue.between previous left).mu style
    if Scalar.whole 0 < width then [.child false (.kern (width * mu))] else []

/-- The pieces of the items, after an item that shows the class `previous` on its right. -/
def pieces (style : Style) (mu : α) (previous : Option AtomClass) : List (Cell α) → List (Piece α)
  | [] => []
  | .breakMark :: rest => .breakPoint :: pieces style mu previous rest
  | .neutral box :: rest => .child false box :: pieces style mu previous rest
  | .solid left right grows box :: rest =>
    let left := Glue.leftClassAfter previous left
    glue style mu previous left ++
      .child grows box :: pieces style mu (some (Glue.rightClassAfter left right)) rest

/-- A glyph made at least as high and as deep as given. -/
def grow (height depth : α) : Box α → Box α
  | .glyph o ch shape thickness =>
    .glyph { o with height := Scalar.max o.height height, depth := Scalar.max o.depth depth } ch
      shape thickness
  | box => box

/-- Grows what grows to the extent of the other children, and never below the baseline's own. -/
def stretch (children : List (Bool × Box α)) : List (Box α) :=
  if children.any (·.1) then
    let others := (children.filter (!·.1)).map (·.2)
    let height := (others.map Box.ascent).foldl Scalar.max (Scalar.whole 0)
    let depth := (others.map Box.descent).foldl Scalar.max (Scalar.whole 0)
    children.map fun (grows, box) => if grows then grow height depth box else box
  else children.map (·.2)

/-- The box of a row. -/
def ofPieces (pieces : List (Piece α)) : Box α :=
  .row (stretch (children pieces)) (breaks 0 pieces)

/-- The box of a row of items. -/
def ofCells (style : Style) (mu : α) (cells : List (Cell α)) : Box α :=
  ofPieces (pieces style mu none cells)

end Row

end FormulaInk
