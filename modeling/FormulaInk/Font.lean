import FormulaInk.FontType
import FormulaInk.Style
import FormulaInk.Text.Alphabetic

/-!
The math font: how large its glyphs are, how they are drawn, and where formulas place their parts.

All measures are in em. The font has no outlines: a glyph is drawn as one of a few simple shapes,
and its metrics depend on its character, the font type and the style.
-/

namespace FormulaInk

/-- The shape that a glyph is drawn as. -/
inductive GlyphShape where
  | plus
  | minus
  | times
  | equals
  | slash
  | bar
  | dot
  /-- A solid rectangle. -/
  | block
  deriving DecidableEq, Repr

namespace GlyphShape

/-- The name of a shape. -/
def name : GlyphShape → String
  | plus => "Plus"
  | minus => "Minus"
  | times => "Times"
  | equals => "Equals"
  | slash => "Slash"
  | bar => "Bar"
  | dot => "Dot"
  | block => "Block"

/-- The shape of a character. -/
def ofChar (ch : Char) : GlyphShape :=
  match ch with
  | '+' | '±' => plus
  | '-' | '−' | '∓' => minus
  | '×' | '∗' => times
  | '=' | '≡' | '≠' | '≈' => equals
  | '/' => slash
  | '|' => bar
  | '.' | '⋅' | '·' | ',' => dot
  | _ => block

end GlyphShape

/-- The extent of a glyph, with the space that a slanted one adds after it. -/
structure GlyphMetrics (α : Type) where
  width : α
  height : α
  depth : α
  italic : α

namespace GlyphMetrics

variable {α : Type} [Scalar α]

/-- Upright metrics in thousandths of an em. -/
def upright (width height depth : Nat) : GlyphMetrics α :=
  ⟨Scalar.ratio width 1000, Scalar.ratio height 1000, Scalar.ratio depth 1000, Scalar.whole 0⟩

/-- Metrics of a small Latin letter. Letters with ascenders are taller, and those with descenders
reach below the baseline. -/
def small (ch : Char) : GlyphMetrics α :=
  match ch with
  | 'i' | 'l' => upright 300 694 0
  | 'j' => upright 300 694 194
  | 'm' => upright 833 431 0
  | 'w' => upright 722 431 0
  | 'b' | 'd' | 'f' | 'h' | 'k' | 't' => upright 500 694 0
  | 'g' | 'p' | 'q' | 'y' => upright 500 431 194
  | _ => upright 500 431 0

/-- Metrics of a character that is neither a digit nor a Latin letter. -/
def other (ch : Char) : GlyphMetrics α :=
  match ch with
  | '+' | '−' | '-' | '±' | '∓' | '×' | '÷' | '∗' | '⋅' => upright 778 583 83
  | '=' | '<' | '>' | '≤' | '≥' | '≠' | '≈' | '≡' | '∼' | '∈' | '⊂' => upright 778 367 0
  | '→' | '←' | '⇒' | '⇔' => upright 1000 511 11
  | '∑' | '∏' => upright 1056 1000 500
  | '∫' | '∮' => upright 556 1111 611
  | '(' | ')' | '[' | ']' | '\x7b' | '\x7d' | '⟨' | '⟩' | '|' => upright 389 750 250
  | ',' | ';' => upright 278 106 194
  | ':' | '.' | '!' => upright 278 431 0
  | '/' => upright 500 750 250
  | '…' | '⋯' => upright 1172 123 0
  | '\'' | '′' => upright 275 750 0
  | ' ' => upright 333 0 0
  | _ => if Text.isAlphabetic ch then upright 600 694 0 else upright 600 683 0

/-- The metrics of a character in the plain font. -/
def ofChar (ch : Char) : GlyphMetrics α :=
  if ch.isDigit then upright 500 644 0
  else if ch.isLower then small ch
  else if ch.isUpper then upright 722 683 0
  else other ch

/-- The metrics at another size. -/
def scale (m : GlyphMetrics α) (factor : α) : GlyphMetrics α :=
  ⟨m.width * factor, m.height * factor, m.depth * factor, m.italic * factor⟩

/-- How far the next glyph is from the start of this one. -/
def advance (m : GlyphMetrics α) : α := m.width + m.italic

end GlyphMetrics

/-- The math font at a size in points. -/
structure Font (α : Type) where
  size : α
  type : FontType := .serif

namespace Font

variable {α : Type} [Scalar α]

/-- The font with further type bits. -/
def extend (f : Font α) (type : FontType) : Font α := { f with type := f.type.union type }

/-- Whether the glyph of a character is slanted: in an italic font, and among the letters of a font
that is neither sans-serif nor fixed in width, unless the font is upright. Bold type keeps the slant
of its base. -/
def isSlanted (type : FontType) (ch : Char) : Bool :=
  !type.contains .roman &&
    (type.contains .italic ||
      (!type.contains .sansSerif && !type.contains .typewriter && Text.isAlphabetic ch))

/-- The width of a glyph after the font type changed it. -/
def adjustWidth (type : FontType) (width : α) : α :=
  if type.contains .typewriter then Scalar.ratio 525 1000
  else
    let width := if type.contains .sansSerif then width * Scalar.ratio 95 100 else width
    if type.contains .bold then width * Scalar.ratio 11 10 else width

/-- The metrics of a character. -/
def metrics (f : Font α) (ch : Char) (style : Style) : GlyphMetrics α :=
  let plain : GlyphMetrics α := .ofChar ch
  let width := adjustWidth f.type plain.width
  let italic := if isSlanted f.type ch then Scalar.ratio 5 100 else Scalar.whole 0
  ({ plain with width, italic } : GlyphMetrics α).scale style.factor

/-- How heavy the strokes of glyphs are relative to rules. -/
def weight (f : Font α) : α :=
  if f.type.contains .bold then Scalar.ratio 16 10 else Scalar.whole 1

/-- The width of a quad. -/
def quad (style : Style) : α := style.factor

/-- A math unit: the eighteenth part of a quad. -/
def mu (style : Style) : α := quad style / Scalar.whole 18

/-- The height of small letters. -/
def xHeight (style : Style) : α := Scalar.ratio 431 1000 * style.factor

/-- The height of the axis that operators and fraction bars are centered on. -/
def axisHeight (style : Style) : α := Scalar.ratio 25 100 * style.factor

/-- The thickness of rules. -/
def ruleThickness (style : Style) : α := Scalar.ratio 4 100 * style.factor

/-- How far superscripts are raised at least. -/
def supShift (style : Style) : α :=
  (if style.cramped then Scalar.ratio 289 1000 else Scalar.ratio 413 1000) * style.factor

/-- How far subscripts are lowered at least. -/
def subShift (style : Style) : α := Scalar.ratio 15 100 * style.factor

/-- How far numerators are raised at least. -/
def numShift (style : Style) : α :=
  (if style.isDisplay then Scalar.ratio 677 1000 else Scalar.ratio 394 1000) * style.factor

/-- How far denominators are lowered at least. -/
def denomShift (style : Style) : α :=
  (if style.isDisplay then Scalar.ratio 686 1000 else Scalar.ratio 345 1000) * style.factor

end Font

end FormulaInk
