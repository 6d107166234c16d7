import FormulaInk.Decimal.Binary

/-!
Decimal literals: a sign, digits with at most one point and at least one digit, and an exponent;
or one of the names of infinity and of the missing number.
-/

namespace FormulaInk.Decimal

/-- What a literal says. -/
inductive Literal where
  /-- The number `digits * 10 ^ exponent`, with its sign. -/
  | finite (negative : Bool) (digits : Nat) (exponent : Int)
  | infinite (negative : Bool)
  | notANumber

/-- The number that digits write, after the number `n`. -/
def ofDigits (n : Nat) (cs : List Char) : Nat :=
  cs.foldl (fun n c => 10 * n + (c.toNat - '0'.toNat)) n

namespace Literal

/-- Reads what may follow the digits: nothing, or an exponent. -/
def exponent? : List Char → Option Int
  | [] => some 0
  | 'e' :: rest | 'E' :: rest =>
    let (negative, ds) := match rest with
      | '-' :: ds => (true, ds)
      | '+' :: ds => (false, ds)
      | ds => (false, ds)
    if ds.isEmpty || !ds.all Char.isDigit then none
    else
      let size : Int := ofDigits 0 ds
      some (if negative then -size else size)
  | _ => none

/-- Reads digits with a point and an exponent. -/
def number? (negative : Bool) (cs : List Char) : Option Literal :=
  let whole := cs.takeWhile Char.isDigit
  let rest := cs.dropWhile Char.isDigit
  let (fraction, rest) := match rest with
    | '.' :: rest => (rest.takeWhile Char.isDigit, rest.dropWhile Char.isDigit)
    | rest => ([], rest)
  if whole.isEmpty && fraction.isEmpty then none
  else
    (exponent? rest).map fun e =>
      .finite negative (ofDigits 0 (whole ++ fraction)) (e - fraction.length)

/-- Reads a literal. -/
def ofText? (cs : List Char) : Option Literal :=
  let (negative, size) := match cs with
    | '-' :: size => (true, size)
    | '+' :: size => (false, size)
    | size => (false, size)
  match number? negative size with
  | some literal => some literal
  | none =>
    match String.ofList (size.map Char.toLower) with
    | "inf" | "infinity" => some (.infinite negative)
    | "nan" => some .notANumber
    | _ => none

/-- The 32-bit number nearest to a literal. Exponents far beyond the range count as ends of it. -/
def toFloat32 : Literal → Float32
  | .notANumber => Binary.notANumber.toFloat32
  | .infinite negative => (Binary.infinite negative).toFloat32
  | .finite negative n e =>
    let places : Int := (Nat.toDigits 10 n).length
    let size :=
      if n = 0 || e + places < -100 then Float32.ofNat 0
      else if 100 < e + places then (Binary.infinite false).toFloat32
      else Float32.ofScientific n (e < 0) e.natAbs
    if negative then -size else size

end Literal

/-- Reads a literal as the nearest 32-bit number. -/
def float32? (cs : List Char) : Option Float32 := (Literal.ofText? cs).map Literal.toFloat32

/-- Whether a 32-bit number is neither infinite nor missing. -/
def isFinite (x : Float32) : Bool := (Binary.ofFloat32 x).isFinite

end FormulaInk.Decimal
