import FormulaInk.Box

/-! The characters of the glyphs of a box, in the order in which they are painted. -/

namespace FormulaInk.Box

variable {α : Type}

mutual

/-- A box and everything in it in the order in which `paint` comes to them: each box before its
parts, the parts of a row from left to right and those of a stack from top to bottom. -/
def visits (b : Box α) : List (Box α) :=
  b ::
    match b with
    | horizontal _ children _ | vertical _ children => allVisits children
    | framed _ _ _ base | oval _ _ _ base | circled _ _ base | rotated _ _ _ base
    | scaled _ _ _ base => visits base
    | strut _ | glyph .. | rule _ | radicalSign .. => []

def allVisits : List (Box α) → List (Box α)
  | [] => []
  | b :: rest => visits b ++ allVisits rest

end

/-- The character of a glyph. -/
def char? : Box α → Option Char
  | glyph _ ch _ _ => some ch
  | _ => none

/-- The characters of the glyphs in the order of painting. -/
def glyphs (b : Box α) : List Char := b.visits.filterMap char?

end FormulaInk.Box
