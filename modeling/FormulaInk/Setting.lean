import FormulaInk.Font
import FormulaInk.Length

/-!
The setting in which an atom is laid out: its style and font, and what the build asks for.
-/

namespace FormulaInk

/-- A style and a font, with the width and the line gap that a build asks for, in em. -/
structure Setting (α : Type) where
  style : Style
  font : Font α
  textWidth : Option α := none
  interline : Option α := none
  pixelsPerPoint : α

namespace Setting

variable {α : Type} [Scalar α]

/-- The same setting in another style. -/
def withStyle (s : Setting α) (style : Style) : Setting α := { s with style }

def sup (s : Setting α) : Setting α := s.withStyle s.style.sup
def sub (s : Setting α) : Setting α := s.withStyle s.style.sub
def num (s : Setting α) : Setting α := s.withStyle s.style.num
def denom (s : Setting α) : Setting α := s.withStyle s.style.denom
def root (s : Setting α) : Setting α := s.withStyle s.style.root
def cramp (s : Setting α) : Setting α := s.withStyle s.style.cramp

/-- The same setting with further font type bits. -/
def withFontType (s : Setting α) (type : FontType) : Setting α :=
  { s with font := s.font.extend type }

/-- A big point in em. -/
def point (s : Setting α) : α := Scalar.whole 1 / s.font.size

/-- A printer's point in em. -/
def printersPoint (s : Setting α) : α :=
  Scalar.whole 72 / Scalar.ratio 7227 100 * s.point

/-- A didot point in em. -/
def didotPoint (s : Setting α) : α :=
  Scalar.whole 1238 / Scalar.whole 1157 * s.printersPoint

/-- The size of a unit in em. -/
def unitFactor (s : Setting α) : LengthUnit → α
  | .em => Font.quad s.style
  | .ex => Font.xHeight s.style
  | .pixel => Scalar.whole 1 / (s.font.size * s.pixelsPerPoint)
  | .point => s.point
  | .pica => Scalar.whole 12 * s.printersPoint
  | .mu => Font.mu s.style
  | .cm => Scalar.whole 72 / Scalar.ratio 254 100 * s.point
  | .mm => Scalar.whole 72 / Scalar.ratio 254 10 * s.point
  | .inch => Scalar.whole 72 * s.point
  | .sp => s.printersPoint / Scalar.whole 65536
  | .pt => s.printersPoint
  | .dd => s.didotPoint
  | .cc => Scalar.whole 12 * s.didotPoint

/-- A length in em. -/
def length (s : Setting α) (l : Length α) : α := l.value * s.unitFactor l.unit

/-- The setting with a text width. -/
def withTextWidth (s : Setting α) (l : Length α) : Setting α :=
  { s with textWidth := some (s.length l) }

/-- The setting with a gap between lines. -/
def withInterline (s : Setting α) (l : Length α) : Setting α :=
  { s with interline := some (s.length l) }

end Setting

end FormulaInk
