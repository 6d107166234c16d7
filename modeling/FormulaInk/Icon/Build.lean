import FormulaInk.Box.Lines
import FormulaInk.Icon
import FormulaInk.Icon.Config
import FormulaInk.Layout

/-!
Icons built from atom trees.

A build lays out the tree, breaks the box into lines if both a width and a line gap are asked for,
and places it in the width.
-/

namespace FormulaInk.Icon

/-- A row that was broken into lines. -/
structure Broken (α : Type) where
  width : α
  lines : Nat
  limit : α

/-- A box broken to a width, and what there is to tell about it. -/
def breakBox (b : Box α) (width interline : α) [Scalar α] : Box α × Option (Broken α) :=
  (b.split width interline, (b.lines? width).map fun ranges => ⟨b.width, ranges.length, width⟩)

/-- A finished icon, its style, and what there is to tell about its lines. -/
structure Built (α : Type) where
  icon : Icon α
  style : Style
  broken : Option (Broken α)

namespace Config

variable {α δ : Type} [Scalar α] [Scalar δ] [Widening α δ] [Truncating α]

/-- The setting for a style and a size in the font of the request, or else in `font`. -/
def setting (c : Config α) (style : Style) (size : α) (font : Option FontType) : Setting α :=
  let s : Setting α :=
    { style, font := ⟨size, (c.fontType <|> font).getD .serif⟩, pixelsPerPoint := c.pixelsPerPoint }
  let s := (c.width.map fun width => s.withTextWidth width.length).getD s
  (c.interline.map s.withInterline).getD s

/-- A box placed in the width that is asked for, broken into lines if line breaks are. -/
def place (c : Config α) (s : Setting α) (box : Box α) : Box α × Option (Broken α) :=
  match c.width, s.textWidth with
  | some width, some textWidth =>
    let (box, broken) :=
      match s.interline with
      | none => (box, none)
      | some interline => breakBox box textWidth interline
    (box.aligned (if width.isMaxWidth then box.width else textWidth) width.align, broken)
  | _, _ => (box, none)

/-- The icon of an atom tree. The font is used when the request names none. -/
def build (c : Config α) (root : Option (Atom α)) (font : Option FontType) :
    Except (Fault α) (Built α) :=
  match validate (δ := δ) c with
  | .error fault => .error fault
  | .ok (style, size) =>
    let s := c.setting style size font
    let laid := (root.map (Atom.layout s)).getD (.plain .nothing)
    let (box, broken) := c.place s laid.box
    let icon := Icon.ofBox box size c.trueValues c.pixelsPerPoint
    .ok ⟨{ icon with foreground := c.foreground, colored := laid.colored }, style, broken⟩

end Config

end FormulaInk.Icon
