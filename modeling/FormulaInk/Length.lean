import FormulaInk.Scalar
import FormulaInk.Text.Blank

/-!
Lengths in units, the fixed skips of formulas, and horizontal alignment.
-/

namespace FormulaInk

/-- A unit of length. -/
inductive LengthUnit where
  | em
  | ex
  | pixel
  /-- A big point, of which an inch has 72. -/
  | point
  | pica
  | mu
  | cm
  | mm
  | inch
  | sp
  /-- A printer's point, of which an inch has 72.27. -/
  | pt
  | dd
  | cc
  deriving DecidableEq, Repr

namespace LengthUnit

/-- Every unit, in the order of the codes. -/
def all : List LengthUnit := [em, ex, pixel, point, pica, mu, cm, mm, inch, sp, pt, dd, cc]

/-- The name of a unit. -/
def name : LengthUnit → String
  | em => "em"
  | ex => "ex"
  | pixel => "pixel"
  | point => "point"
  | pica => "pica"
  | mu => "mu"
  | cm => "cm"
  | mm => "mm"
  | inch => "in"
  | sp => "sp"
  | pt => "pt"
  | dd => "dd"
  | cc => "cc"

/-- The name of a unit as reports give it. -/
def label (u : LengthUnit) : String := Text.capitalize u.name

/-- The number of a unit. -/
def code (u : LengthUnit) : Nat := all.idxOf u

/-- The unit of a number. -/
def ofCode? (n : Int) : Option LengthUnit :=
  match n with
  | .ofNat k => all[k]?
  | .negSucc _ => none

/-- The unit of a name. -/
def ofName? (s : String) : Option LengthUnit := all.find? (·.name == s)

/-- The unit of an abbreviation as lengths in formulas write it. -/
def ofAbbreviation? : String → Option LengthUnit
  | "em" => some em
  | "ex" => some ex
  | "px" | "pix" => some pixel
  | "bp" | "point" => some point
  | "pc" => some pica
  | "mu" => some mu
  | "cm" => some cm
  | "mm" => some mm
  | "in" => some inch
  | "sp" => some sp
  | "pt" => some pt
  | "dd" => some dd
  | "cc" => some cc
  | _ => none

end LengthUnit

/-- A length in a unit. -/
structure Length (α : Type) where
  unit : LengthUnit
  value : α
  deriving DecidableEq, Repr

/-- The skips that formulas can ask for by name. -/
inductive Skip where
  | thin
  | medium
  | thick
  | negativeThin
  | quad
  | doubleQuad
  deriving DecidableEq, Repr

namespace Skip

/-- Every skip. -/
def all : List Skip := [thin, medium, thick, negativeThin, quad, doubleQuad]

/-- The name of a skip. -/
def name : Skip → String
  | thin => "thin"
  | medium => "medium"
  | thick => "thick"
  | negativeThin => "negative_thin"
  | quad => "quad"
  | doubleQuad => "q_quad"

/-- The skip of a name. -/
def ofName? (s : String) : Option Skip := all.find? (·.name == s)

/-- The width of a skip in math units, of which a quad has 18. -/
def mu {α : Type} [Scalar α] : Skip → α
  | thin => Scalar.whole 3
  | medium => Scalar.whole 4
  | thick => Scalar.whole 5
  | negativeThin => -Scalar.whole 3
  | quad => Scalar.whole 18
  | doubleQuad => Scalar.whole 36

end Skip

/-- Where narrow content stands in a wider box. -/
inductive Alignment where
  | left
  | center
  | right
  deriving DecidableEq, Repr

namespace Alignment

/-- The name of an alignment. -/
def name : Alignment → String
  | left => "left"
  | center => "center"
  | right => "right"

/-- The name of an alignment as reports give it. -/
def label (a : Alignment) : String := Text.capitalize a.name

/-- The alignment of a name. -/
def ofName? (s : String) : Option Alignment := [left, center, right].find? (·.name == s)

end Alignment

end FormulaInk
