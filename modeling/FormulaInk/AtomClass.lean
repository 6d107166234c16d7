/-!
The spacing classes of atoms.
-/

namespace FormulaInk

/-- What an atom is to its neighbours in a row. -/
inductive AtomClass where
  | ordinary
  | bigOperator
  | binaryOperator
  | relation
  | opening
  | closing
  | punctuation
  | inner
  | accent
  | interText
  | multiColumn
  | hLine
  | multiRow
  deriving DecidableEq, Repr

namespace AtomClass

/-- Every class, in the order of the codes. -/
def all : List AtomClass :=
  [ordinary, bigOperator, binaryOperator, relation, opening, closing, punctuation, inner, accent,
    interText, multiColumn, hLine, multiRow]

/-- The number of a class. -/
def code : AtomClass → Nat
  | ordinary => 0
  | bigOperator => 1
  | binaryOperator => 2
  | relation => 3
  | opening => 4
  | closing => 5
  | punctuation => 6
  | inner => 7
  | accent => 10
  | interText => 11
  | multiColumn => 12
  | hLine => 13
  | multiRow => 14

/-- The name of a class. -/
def name : AtomClass → String
  | ordinary => "ordinary"
  | bigOperator => "big_operator"
  | binaryOperator => "binary_operator"
  | relation => "relation"
  | opening => "opening"
  | closing => "closing"
  | punctuation => "punctuation"
  | inner => "inner"
  | accent => "accent"
  | interText => "inter_text"
  | multiColumn => "multi_column"
  | hLine => "h_line"
  | multiRow => "multi_row"

/-- The class of a number. -/
def ofCode? (n : Int) : Option AtomClass := all.find? fun k => (k.code : Int) == n

/-- The class of a name. -/
def ofName? (s : String) : Option AtomClass := all.find? (·.name == s)

/-- Whether atoms of the class take part in the glue between atoms. -/
def isSpacing (k : AtomClass) : Bool := k.code ≤ inner.code

/-- Whether a line may end after an atom of the class. -/
def allowsBreakAfter : AtomClass → Bool
  | binaryOperator | relation => true
  | _ => false

end AtomClass

end FormulaInk
