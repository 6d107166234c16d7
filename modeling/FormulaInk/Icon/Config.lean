import FormulaInk.Color
import FormulaInk.FontType
import FormulaInk.Length
import FormulaInk.Style

/-!
What the build of an icon is asked for.
-/

namespace FormulaInk.Icon

/-- A width that is asked for, and where narrower content stands in it. -/
structure WidthRequest (α : Type) where
  length : Length α
  align : Alignment
  /-- Whether the width of the content is used in place of the one that is asked for. -/
  isMaxWidth : Bool

/-- Everything that a build needs to know. Style and size have to be set. -/
structure Config (α : Type) where
  style : Option Style := none
  size : Option α := none
  fontType : Option FontType := none
  foreground : Option Color := none
  trueValues : Bool := false
  width : Option (WidthRequest α) := none
  interline : Option (Length α) := none
  pixelsPerPoint : α

namespace Config

/-- Why nothing can be built. -/
inductive Fault (α : Type) where
  | styleMissing
  | sizeMissing
  | size (size : α)
  | pixelsPerPoint (density : α)
  /-- An em has more pixels than a build accepts. -/
  | scale (size density : α)
  | width (width : α)
  | maxWidthWithoutWidth
  | interlineWithoutWidth

variable {α δ : Type} [Scalar α] [Scalar δ] [Widening α δ]

/-- The request without settings, at one pixel for a point. -/
def standard : Config α := { pixelsPerPoint := Scalar.whole 1 }

/-- Asks for a width. The extent of the icon is then that of the box. -/
def withWidth (c : Config α) (length : Length α) (align : Alignment) : Config α :=
  { c with width := some ⟨length, align, false⟩, trueValues := true }

/-- Asks for the width of the content, which then stands on the left. -/
def withMaxWidth (c : Config α) (isMaxWidth : Bool) : Except (Fault α) (Config α) :=
  match c.width with
  | none => .error .maxWidthWithoutWidth
  | some width =>
    .ok { c with
      width := some { width with
        isMaxWidth, align := if isMaxWidth then .left else width.align } }

/-- Asks for line breaks with the given gap between lines. -/
def withInterline (c : Config α) (interline : Length α) : Except (Fault α) (Config α) :=
  match c.width with
  | none => .error .interlineWithoutWidth
  | some _ => .ok { c with interline := some interline }

/-- Asks for a number of pixels for an inch. -/
def withDotsPerInch (c : Config α) (dots : α) : Config α :=
  { c with pixelsPerPoint := dots / Scalar.whole 72 }

/-- The most pixels that an em may have. -/
def mostPixelsPerEm : Nat := 1000000

/-- Whether a size is finite and more than zero. -/
def isPositive (a : α) : Bool := Scalar.isFinite a && Scalar.whole 0 < a

/-- The style and the size, if nothing speaks against the build. -/
def validate (c : Config α) : Except (Fault α) (Style × α) :=
  match c.style, c.size with
  | none, _ => .error .styleMissing
  | some _, none => .error .sizeMissing
  | some style, some size =>
    if !isPositive size then .error (.size size)
    else if !isPositive c.pixelsPerPoint then .error (.pixelsPerPoint c.pixelsPerPoint)
    else if (Scalar.whole mostPixelsPerEm : δ) <
        Widening.widen size * Widening.widen c.pixelsPerPoint then
      .error (.scale size c.pixelsPerPoint)
    else
      match c.width with
      | none => .ok (style, size)
      | some width =>
        let value := width.length.value
        if !Scalar.isFinite value || value < Scalar.whole 0 then .error (.width value)
        else .ok (style, size)

end Config

end FormulaInk.Icon
