import FormulaInk.Decimal.Binary

/-!
The decimal text of binary numbers.

`shortest` writes the fewest digits that read back to the same number, the nearest of those, always
positional: no exponent and no point without digits after it. `fixed` writes a given number of
digits after the point, a half going to the even neighbour.
-/

namespace FormulaInk.Decimal

/-- The digits of `n` in base ten, the first digit in front. -/
def digits (n : Nat) : List Char := Nat.toDigits 10 n

/-- The text of the number `n * 10 ^ e`, for `n` without factor ten unless `e` is zero. -/
def positional (n : Nat) (e : Int) : String :=
  let ds := digits n
  match e with
  | .ofNat k => String.ofList (ds ++ List.replicate k '0')
  | .negSucc k =>
    let places := k + 1
    let padded := List.replicate (places + 1 - ds.length) '0' ++ ds
    String.ofList (padded.take (padded.length - places) ++ '.' :: padded.drop (padded.length - places))

/-- A positive quantity `num / den` with the ends of the interval of the quantities nearest to it,
over the same denominator. -/
structure Span where
  num : Nat
  den : Nat
  low : Nat
  high : Nat
  /-- Whether the ends of the interval belong to it. -/
  closed : Bool

namespace Span

/-- The quantity `m * 2 ^ e` among the numbers of its format. -/
def ofFinite (m : Nat) (e : Int) (narrowBelow : Bool) : Span :=
  let below := if narrowBelow then 1 else 2
  match e with
  | .ofNat k =>
    let unit := Nat.pow 2 k
    ⟨4 * m * unit, 4, (4 * m - below) * unit, (4 * m + 2) * unit, m % 2 = 0⟩
  | .negSucc k => ⟨4 * m, 4 * Nat.pow 2 (k + 1), 4 * m - below, 4 * m + 2, m % 2 = 0⟩

/-- The same quantity and interval in units of `10 ^ e`. -/
def scale (s : Span) : Int → Span
  | .ofNat k => { s with den := s.den * Nat.pow 10 k }
  | .negSucc k =>
    let t := Nat.pow 10 (k + 1)
    { s with num := s.num * t, low := s.low * t, high := s.high * t }

/-- Whether the whole number `n` lies in the interval. -/
def holds (s : Span) (n : Nat) : Bool :=
  let x := n * s.den
  if s.closed then s.low ≤ x && x ≤ s.high else s.low < x && x < s.high

/-- The whole number in the interval that is nearest to the quantity, if one of the two whole
numbers beside the quantity lies in the interval. -/
def nearest? (s : Span) : Option Nat :=
  let down := s.num / s.den
  let up := down + 1
  match s.holds down && down != 0, s.holds up with
  | true, true => some (if 2 * s.num < (down + up) * s.den then down else up)
  | true, false => some down
  | false, true => some up
  | false, false => none

/-- The exponent of the first digit of the quantity: the power of ten at or below it. -/
def magnitude (s : Span) : Int :=
  if s.den ≤ s.num then (digits (s.num / s.den)).length - 1
  else
    -- the reciprocal, rounded up, has one digit more than there are zeros in front
    -((digits ((s.den + s.num - 1) / s.num - 1)).length : Int)

/-- The shortest digits and their exponent, from grids of `10 ^ e` and finer. -/
def search (s : Span) (e : Int) : Nat → Nat × Int
  | 0 => ((s.scale e).num / (s.scale e).den, e)
  | tries + 1 =>
    match (s.scale e).nearest? with
    | some n => (n, e)
    | none => search s (e - 1) tries

end Span

/-- Moves the zeros at the end of `n` into the exponent, at most `count` of them. -/
def stripZeros (n : Nat) (e : Int) : Nat → Nat × Int
  | 0 => (n, e)
  | count + 1 => if n % 10 = 0 ∧ e < 0 then stripZeros (n / 10) (e + 1) count else (n, e)

namespace Binary

/-- The fewest digits that read back to the same number. -/
def shortest : Binary → String
  | .notANumber => "NaN"
  | .infinite negative => if negative then "-inf" else "inf"
  | .finite negative 0 _ _ => if negative then "-0" else "0"
  | .finite negative m e narrowBelow =>
    let s := Span.ofFinite m e narrowBelow
    let (n, e) := s.search s.magnitude 20
    let (n, e) := stripZeros n e 20
    (if negative then "-" else "") ++ positional n e

/-- The number with `places` digits after the point, a half going to the even neighbour. -/
def fixed (places : Nat) : Binary → String
  | .notANumber => "NaN"
  | .infinite negative => if negative then "-inf" else "inf"
  | .finite negative m e _ =>
    let (num, den) := match e with
      | .ofNat k => (m * Nat.pow 2 k * Nat.pow 10 places, 1)
      | .negSucc k => (m * Nat.pow 10 places, Nat.pow 2 (k + 1))
    let down := num / den
    let rest := 2 * (num % den)
    let n := if rest < den then down else if rest = den then down + down % 2 else down + 1
    (if negative then "-" else "") ++
      match places with
      | 0 => positional n 0
      | k + 1 => positional n (.negSucc k)

end Binary

/-- The shortest text of a 32-bit number. -/
def text32 (x : Float32) : String := (Binary.ofFloat32 x).shortest

/-- The shortest text of a 64-bit number. -/
def text64 (x : Float) : String := (Binary.ofFloat x).shortest

end FormulaInk.Decimal
