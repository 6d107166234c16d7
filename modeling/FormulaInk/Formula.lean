import FormulaInk.Atom

/-!
Formulas: an atom tree with the summaries that are kept beside it.

This module holds the operations on formulas that need no table of names. The tree grows to the
right: an atom that is added to a row becomes its last item, and after an operator or a relation
comes a place where the line may be broken.
-/

namespace FormulaInk

/-- A formula with numbers of 32 bits. -/
structure Formula where
  /-- The atom tree, if anything was added yet. -/
  root : Option (Atom Float32) := none
  /-- The middle delimiters in the order in which they came in. -/
  middles : List Char := []
  /-- The style of letters that is used when the build names no font. -/
  textStyle : Option TextStyle := none
  /-- Whether colors were set anywhere. -/
  colored : Bool := false

namespace Formula

/-- The formula without content. -/
def empty : Formula := {}

instance : Inhabited Formula := ⟨empty⟩

/-- Whether the formula shows nothing. -/
def isEmpty (f : Formula) : Bool :=
  match f.root with
  | none => true
  | some root => root.isEmpty

/-- The items of an atom in a row. -/
def items : Atom Float32 → List (Atom Float32)
  | .row items => items
  | a => [a]

/-- Whether the line may be broken after the atom when it is added to a row. -/
def breaksAfter : Atom Float32 → Bool
  | .row _ => false
  | a => a.rightClass.allowsBreakAfter

/-- The root after an atom was added at the end. -/
def extend (root : Option (Atom Float32)) (a : Atom Float32) : Atom Float32 :=
  match root with
  | none => a
  | some root => .row (items root ++ a :: if breaksAfter a then [.breakMark] else [])

/-- Adds an atom at the end. -/
def add (f : Formula) (a : Atom Float32) : Formula :=
  { f with
    root := some (extend f.root a)
    middles := f.middles ++ a.middles
    colored := f.colored || a.hasColor }

/-- Adds atoms at the end, the first one first. -/
def addAll (f : Formula) (atoms : List (Atom Float32)) : Formula := atoms.foldl add f

/-- Adds the tree of another formula as one atom. -/
def addFormula (f other : Formula) : Formula :=
  match other.root with
  | none => f
  | some root => f.add root

/-- Adds an invisible box of the given size. -/
def addStrut (f : Formula) (unit : LengthUnit) (width height depth : Float32) : Formula :=
  f.add (.strut ⟨unit, width⟩ ⟨unit, height⟩ ⟨unit, depth⟩)

/-- Adds a skip. -/
def addSkip (f : Formula) (kind : Skip) : Formula := f.add (.space kind)

/-- Sets the foreground of the whole formula and keeps its background. -/
def setColor (f : Formula) (color : Color) : Formula :=
  { f with
    root := some <| match f.root with
      | some (.color background _ base) => .color background (some color) base
      | root => .color none (some color) (root.getD .empty)
    colored := true }

/-- Sets the background of the whole formula and keeps its foreground. -/
def setBackground (f : Formula) (color : Color) : Formula :=
  { f with
    root := some <| match f.root with
      | some (.color _ foreground base) => .color (some color) foreground base
      | root => .color (some color) none (root.getD .empty)
    colored := true }

/-- Fixes the classes that the formula shows its neighbours. Only spacing classes can be fixed; of
two others the left one is reported. -/
def setFixedTypes (f : Formula) (left right : AtomClass) : Except AtomClass Formula :=
  if !left.isSpacing then .error left
  else if !right.isSpacing then .error right
  else .ok { f with root := some (.typed left right (f.root.getD .empty)) }

/-- Centers the formula on the math axis. -/
def centerOnAxis (f : Formula) : Formula :=
  { f with root := some (.vCentered (f.root.getD .empty)) }

/-- The lines of a text: a line ends at a newline, at two backslashes and at a backslash with the
letters c and r. -/
def textLines : List Char → List (List Char)
  | [] => [[]]
  | '\n' :: rest => [] :: textLines rest
  | '\\' :: '\\' :: rest => [] :: textLines rest
  | '\\' :: 'c' :: 'r' :: rest => [] :: textLines rest
  | c :: rest =>
    match textLines rest with
    | [] => [[c]]
    | line :: lines => (c :: line) :: lines

end Formula

end FormulaInk
