import FormulaInk.Text.Blank

/-!
Opaque colors and their text.
-/

namespace FormulaInk

/-- An opaque color. -/
structure Color where
  r : UInt8
  g : UInt8
  b : UInt8
  deriving DecidableEq, Repr

namespace Color

def black : Color := ⟨0, 0, 0⟩
def white : Color := ⟨255, 255, 255⟩
def red : Color := ⟨255, 0, 0⟩
def green : Color := ⟨0, 128, 0⟩
def blue : Color := ⟨0, 0, 255⟩
def gray : Color := ⟨128, 128, 128⟩

instance : Inhabited Color := ⟨black⟩

/-- The four channels of the color as a pixel, with full alpha. -/
def toPixel (c : Color) : List UInt8 := [c.r, c.g, c.b, 255]

/-- The digit of a value below sixteen. -/
def hexDigit (n : Nat) : Char := Nat.digitChar n

/-- The value of a hexadecimal digit. -/
def hexValue? (c : Char) : Option Nat :=
  if '0' ≤ c ∧ c ≤ '9' then some (c.toNat - '0'.toNat)
  else if 'a' ≤ c ∧ c ≤ 'f' then some (c.toNat - 'a'.toNat + 10)
  else if 'A' ≤ c ∧ c ≤ 'F' then some (c.toNat - 'A'.toNat + 10)
  else none

/-- A channel as two digits. -/
def channelText (n : UInt8) : List Char := [hexDigit (n.toNat / 16), hexDigit (n.toNat % 16)]

/-- The text `#rrggbb` of a color. -/
def text (c : Color) : String :=
  String.ofList ('#' :: (channelText c.r ++ channelText c.g ++ channelText c.b))

/-- Why a text is no color. -/
inductive Fault where
  /-- The text is neither a known name nor of the form `#rrggbb`. -/
  | unknown (text : String)
  /-- One of the channels is no hexadecimal number. -/
  | digits (text : String)
  deriving DecidableEq, Repr

/-- The description of a fault. -/
def Fault.message : Fault → String
  | unknown text => "Illegal color string: '" ++ text ++ "'"
  | digits text => "Illegal color '" ++ text ++ "': invalid digit found in string"

/-- A channel is two hexadecimal digits; a plus sign may stand for the first. -/
def channel? (first second : Char) : Option UInt8 :=
  if first = '+' then (hexValue? second).map UInt8.ofNat
  else do
    let high ← hexValue? first
    let low ← hexValue? second
    some (UInt8.ofNat (16 * high + low))

/-- The color of a name, in any case. -/
def ofName? (s : String) : Option Color :=
  match Text.lower s with
  | "black" => some black
  | "white" => some white
  | "red" => some red
  | "green" => some green
  | "blue" => some blue
  | "gray" => some gray
  | "grey" => some gray
  | _ => none

/-- Reads a color: `#rrggbb` or a name, with blanks around it. -/
def ofString (s : String) : Except Fault Color :=
  let cs := Text.trim s.toList
  let trimmed := String.ofList cs
  match cs with
  | '#' :: hex =>
    match hex with
    | [r1, r2, g1, g2, b1, b2] =>
      if hex.all (·.toNat < 128) then
        match channel? r1 r2, channel? g1 g2, channel? b1 b2 with
        | some r, some g, some b => .ok ⟨r, g, b⟩
        | _, _, _ => .error (.digits trimmed)
      else .error (.unknown trimmed)
    | _ => .error (.unknown trimmed)
  | _ =>
    match ofName? trimmed with
    | some color => .ok color
    | none => .error (.unknown trimmed)

end Color

end FormulaInk
