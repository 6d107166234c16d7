/-!
The arithmetic of lengths and coordinates.

Layout, boxes and painting are written against `Scalar`, so that one definition runs in binary
floating point and can be read in exact arithmetic. A constant is written as a quotient of whole
numbers: in exact arithmetic it is that number, and in floating point one division rounds it once.
-/

namespace FormulaInk

/-- The operations on lengths and coordinates that layout and painting use. -/
class Scalar (α : Type) extends Add α, Sub α, Mul α, Div α, Neg α, LT α, LE α where
  /-- A whole number of units. -/
  whole : Nat → α
  decLt : DecidableLT α
  decLe : DecidableLE α
  /-- The sine and the cosine of an angle in radians. -/
  sinCos : α → α × α
  /-- One degree in radians. -/
  degree : α
  /-- The largest finite number, in arithmetic that has one. -/
  largest : Option α

attribute [reducible, instance] Scalar.decLt Scalar.decLe

/-- Numbers of `α` read without rounding as numbers of the wider arithmetic `δ`. -/
class Widening (α : Type) (δ : outParam Type) where
  widen : α → δ

/-- Numbers whose integral part can be taken. -/
class Truncating (α : Type) where
  /-- The number without its fraction, held within the range of signed 32-bit integers. -/
  truncate : α → Int

namespace Scalar

variable {α : Type} [Scalar α]

/-- The quotient `n / d` of two whole numbers. -/
def ratio (n d : Nat) : α := whole n / whole d

/-- The larger of two numbers; a number wins over one that is not even equal to itself. -/
def max (a b : α) : α := if a < b then b else if a ≤ a then a else b

/-- The smaller of two numbers; a number wins over one that is not even equal to itself. -/
def min (a b : α) : α := if b < a then b else if a ≤ a then a else b

/-- The number without its sign. -/
def abs (a : α) : α := if a < whole 0 then -a else a

/-- A whole number of either sign. -/
def ofInt : Int → α
  | .ofNat n => whole n
  | .negSucc n => -whole (n + 1)

/-- Whether the number is neither infinite nor missing: then it differs from itself by zero, and
else by something that is not even equal to itself. -/
def isFinite (a : α) : Bool := a - a ≤ a - a

/-- The sum from left to right, starting at zero. -/
def sum (xs : List α) : α := xs.foldl (· + ·) (whole 0)

/-- The least of `x` and `xs`, and never more than the largest finite number. -/
def least (x : α) (xs : List α) : α := (x :: xs).foldl min (largest.getD x)

/-- The greatest of `x` and `xs`, and never less than the negated largest finite number. -/
def greatest (x : α) (xs : List α) : α := (x :: xs).foldl max ((largest.map (-·)).getD x)

end Scalar

end FormulaInk
