import FormulaInk.Box

/-!
Rows broken into lines.

A row that is too wide is cut at its break positions, greedily: the children are measured from left
to right, and when the line grows over the width it is cut at the last break position in it. What
has no break position stays on one line, however wide it is.
-/

namespace FormulaInk

/-- The indices from `first` up to, but not including, `past`. -/
structure Range where
  first : Nat
  past : Nat
  deriving DecidableEq, Repr

namespace Range

/-- The members of a list at the indices of the range. -/
def slice {β : Type} (r : Range) (xs : List β) : List β := (xs.drop r.first).take (r.past - r.first)

end Range

namespace Lines

variable {α : Type} [Scalar α]

/-- The ranges of the lines that remain, where the line that starts at `start` holds the children
before `index`, these are `sum` wide, and `candidate` is the last break position that was met. -/
def rangesFrom (widths : List α) (breaks : List Nat) (width : α) :
    List α → (index start : Nat) → (sum : α) → (candidate : Option Nat) → List Range
  | [], _, start, _, _ => [⟨start, widths.length⟩]
  | w :: rest, index, start, sum, candidate =>
    let candidate := if start < index ∧ index ∈ breaks then some index else candidate
    let sum := sum + w
    if width < sum then
      match candidate with
      | some cut =>
        ⟨start, cut⟩ ::
          rangesFrom widths breaks width rest (index + 1) cut
            (Scalar.sum (Range.slice ⟨cut, index + 1⟩ widths)) none
      | none => rangesFrom widths breaks width rest (index + 1) start sum none
    else rangesFrom widths breaks width rest (index + 1) start sum candidate

/-- The ranges of the lines of a row. -/
def ranges (children : List (Box α)) (breaks : List Nat) (width : α) : List Range :=
  let widths := children.map Box.width
  rangesFrom widths breaks width widths 0 0 (Scalar.whole 0) none

/-- Whether a box is space without height, as a break leaves at the start of a line. -/
def isLeading : Box α → Bool
  | .strut o =>
    let total := o.height + o.depth
    total ≤ Scalar.whole 0 && Scalar.whole 0 ≤ total
  | _ => false

/-- The rows of the lines: all but the first lose the space that they start with. -/
def rows (children : List (Box α)) : List Range → List (Box α)
  | [] => []
  | first :: rest =>
    .hbox (first.slice children) ::
      rest.map fun r => .hbox ((r.slice children).dropWhile isLeading)

/-- The parts of a stack: the rows with a gap between neighbours. -/
def withGaps (gap : α) (rows : List (Box α)) : List (Box α) :=
  rows.intersperse (.space (Scalar.whole 0) gap (Scalar.whole 0))

/-- Rows on top of each other, with the baseline of the first. -/
def stack (interline : α) (rows : List (Box α)) : Box α :=
  .stack (withGaps interline rows) ((rows.head?.map Box.height).getD (Scalar.whole 0))

end Lines

namespace Box

variable {α : Type} [Scalar α]

/-- The lines that a box is broken into, if it is too wide and may be broken at all. -/
def lines? (b : Box α) (width : α) : Option (List Range) :=
  match b with
  | horizontal o children breaks =>
    if width < o.width ∧ breaks ≠ [] then some (Lines.ranges children breaks width) else none
  | _ => none

/-- Breaks a box into lines with a gap between them. The colors stay. -/
def split (b : Box α) (width interline : α) : Box α :=
  match b.lines? width with
  | none => b
  | some ranges =>
    (Lines.stack interline (Lines.rows b.children ranges)).withColors b.foreground b.background

end Box

end FormulaInk
