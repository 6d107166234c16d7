import FormulaInk.AtomClass
import FormulaInk.Style

/-!
The glue between neighbouring atoms of a row.
-/

namespace FormulaInk

/-- The amounts of glue. In small styles only plain thin glue remains. -/
inductive Glue where
  | none
  | thin
  /-- Thin glue that vanishes in small styles. -/
  | thinInText
  | medium
  | thick
  deriving DecidableEq, Repr

namespace Glue

/-- The glue between two spacing classes. -/
def betweenSpacing : AtomClass → AtomClass → Glue
  | .bigOperator, .ordinary | .ordinary, .bigOperator | .bigOperator, .bigOperator
  | .closing, .bigOperator | .inner, .bigOperator => thin
  | .ordinary, .binaryOperator | .closing, .binaryOperator | .inner, .binaryOperator => medium
  | .binaryOperator, .ordinary | .binaryOperator, .bigOperator | .binaryOperator, .opening
  | .binaryOperator, .inner => medium
  | .ordinary, .relation | .bigOperator, .relation | .closing, .relation | .inner, .relation => thick
  | .relation, .ordinary | .relation, .bigOperator | .relation, .opening | .relation, .inner => thick
  | .ordinary, .inner | .bigOperator, .inner | .closing, .inner => thinInText
  | .punctuation, .binaryOperator | .inner, .closing => none
  | .punctuation, _ => thinInText
  | .inner, .ordinary | .inner, .opening | .inner, .punctuation | .inner, .inner => thinInText
  | _, _ => none

/-- The class that counts for glue: classes without spacing of their own count as ordinary. -/
def spacingClass (k : AtomClass) : AtomClass := if k.isSpacing then k else .ordinary

/-- The glue between two classes. -/
def between (left right : AtomClass) : Glue := betweenSpacing (spacingClass left) (spacingClass right)

/-- The width of glue in math units. -/
def mu {α : Type} [Scalar α] (g : Glue) (style : Style) : α :=
  match g with
  | none => Scalar.whole 0
  | thin => Scalar.whole 3
  | thinInText => if style.isScript then Scalar.whole 0 else Scalar.whole 3
  | medium => if style.isScript then Scalar.whole 0 else Scalar.whole 4
  | thick => if style.isScript then Scalar.whole 0 else Scalar.whole 5

/-- Whether a binary operator has nothing to operate on after an atom of the class, and so acts as
an ordinary atom. -/
def leavesOperatorAlone : Option AtomClass → Bool
  | Option.none | some .binaryOperator | some .bigOperator | some .relation | some .opening
  | some .punctuation => true
  | _ => false

/-- The class that an atom shows on its left, given what stands before it. -/
def leftClassAfter (previous : Option AtomClass) (left : AtomClass) : AtomClass :=
  if left = .binaryOperator ∧ leavesOperatorAlone previous then .ordinary else left

/-- The class that an atom shows on its right, given the class that it shows on its left. -/
def rightClassAfter (left right : AtomClass) : AtomClass :=
  if left = .ordinary ∧ right = .binaryOperator then .ordinary else right

end Glue

end FormulaInk
