import FormulaInk.Scalar

/-!
Binary floating point numbers as exact quantities: a sign, a whole significand and a power of two.

`Binary.ofFloat32` and `Binary.ofFloat` take a number apart by its bits. Widening and narrowing go
through the exact quantity, so that narrowing rounds once, to the nearest number.
-/

namespace FormulaInk.Decimal

/-- A floating point number taken apart. -/
inductive Binary where
  | notANumber
  | infinite (negative : Bool)
  /-- The number `significand * 2 ^ exponent`, with its sign. The flag tells that the number below
  is only half as far away as the number above. -/
  | finite (negative : Bool) (significand : Nat) (exponent : Int) (narrowBelow : Bool)

namespace Binary

/-- The number with the given fields, in a format whose stored fraction has `fractionBits` bits,
whose all-ones exponent field is `top` and whose smallest exponent is `least`. -/
def ofFields (fractionBits top : Nat) (least : Int) (negative : Bool) (field fraction : Nat) :
    Binary :=
  if field = top then
    if fraction = 0 then .infinite negative else .notANumber
  else if field = 0 then .finite negative fraction least false
  else .finite negative (Nat.pow 2 fractionBits + fraction) (least + (field - 1))
    (fraction = 0 && field != 1)

/-- A 32-bit number taken apart. -/
def ofFloat32 (x : Float32) : Binary :=
  let bits := x.toBits.toNat
  ofFields 23 255 (-149) (bits >>> 31 = 1) ((bits >>> 23) % 0x100) (bits % 0x800000)

/-- A 64-bit number taken apart. -/
def ofFloat (x : Float) : Binary :=
  let bits := x.toBits.toNat
  ofFields 52 2047 (-1074) (bits >>> 63 = 1) ((bits >>> 52) % 0x800)
    (bits % 0x10000000000000)

/-- The 64-bit number of the given sign nearest to `m * 2 ^ e`. -/
def toFloat : Binary → Float
  | .notANumber => Float.ofBits 0x7FF8000000000000
  | .infinite negative => Float.ofBits (if negative then 0xFFF0000000000000 else 0x7FF0000000000000)
  | .finite negative m e _ =>
    let size := match e with
      | .ofNat k => Float.ofScientific (m * Nat.pow 2 k) false 0
      | .negSucc k => Float.ofScientific (m * Nat.pow 5 (k + 1)) true (k + 1)
    if negative then -size else size

/-- The 32-bit number of the given sign nearest to `m * 2 ^ e`. -/
def toFloat32 : Binary → Float32
  | .notANumber => Float32.ofBits 0x7FC00000
  | .infinite negative => Float32.ofBits (if negative then 0xFF800000 else 0x7F800000)
  | .finite negative m e _ =>
    let size := match e with
      | .ofNat k => Float32.ofScientific (m * Nat.pow 2 k) false 0
      | .negSucc k => Float32.ofScientific (m * Nat.pow 5 (k + 1)) true (k + 1)
    if negative then -size else size

/-- The number without its fraction, held within the range of signed 32-bit integers; what is not a
number counts as zero. -/
def truncate : Binary → Int
  | .notANumber => 0
  | .infinite negative => if negative then -2147483648 else 2147483647
  | .finite negative m e _ =>
    let size := match e with
      | .ofNat k => m * Nat.pow 2 k
      | .negSucc k => m / Nat.pow 2 (k + 1)
    if negative then max (-(size : Int)) (-2147483648) else min (size : Int) 2147483647

/-- Whether the number is neither infinite nor missing. -/
def isFinite : Binary → Bool
  | .finite .. => true
  | _ => false

end Binary

end FormulaInk.Decimal

namespace FormulaInk

open Decimal

/-- The nearest 32-bit number. -/
def narrow (x : Float) : Float32 := (Binary.ofFloat x).toFloat32

instance : Scalar Float32 where
  whole := Float32.ofNat
  decLt := Float32.decLt
  decLe := Float32.decLe
  sinCos x := (x.sin, x.cos)
  degree := Float32.ofBits 0x40490FDB / Float32.ofNat 180
  largest := some (Float32.ofBits 0x7F7FFFFF)

instance : Scalar Float where
  whole := Float.ofNat
  decLt := Float.decLt
  decLe := Float.decLe
  sinCos x := (x.sin, x.cos)
  degree := Float.ofBits 0x400921FB54442D18 / Float.ofNat 180
  largest := some (Float.ofBits 0x7FEFFFFFFFFFFFFF)

instance : Widening Float32 Float where
  widen x := (Binary.ofFloat32 x).toFloat

instance : Truncating Float32 where
  truncate x := (Binary.ofFloat32 x).truncate

instance : Truncating Float where
  truncate x := (Binary.ofFloat x).truncate

end FormulaInk
