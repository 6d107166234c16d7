import FormulaInk.Atom
import FormulaInk.Layout.Parts
import FormulaInk.Layout.Row

/-!
Atom trees laid out as boxes.

Laying out a tree also tells whether a color was met on the way.
-/

namespace FormulaInk

/-- The box of an atom, and whether a color was met in it. -/
structure Laid (α : Type) where
  box : Box α
  colored : Bool

namespace Laid

variable {α : Type}

/-- A box without colors. -/
def plain (box : Box α) : Laid α := ⟨box, false⟩

/-- The same with the box changed. -/
def map (f : Box α → Box α) (l : Laid α) : Laid α := ⟨f l.box, l.colored⟩

/-- Two boxes put together. -/
def map₂ (f : Box α → Box α → Box α) (l m : Laid α) : Laid α :=
  ⟨f l.box m.box, l.colored || m.colored⟩

end Laid

namespace Atom

variable {α : Type} [Scalar α]

open Layout

/-- Whether the atom grows to the height of its row. -/
def grows : Atom α → Bool
  | middle _ => true
  | _ => false

/-- What an item is in a row, given its box. -/
def cell (a : Atom α) (box : Box α) : Cell α :=
  match a with
  | breakMark => .breakMark
  | a => if a.isNeutral then .neutral box else .solid a.leftClass a.rightClass a.grows box

mutual

/-- The box of an atom in a setting. -/
def layout (s : Setting α) : Atom α → Laid α
  | empty | breakMark => .plain .nothing
  | char ch | middle ch => .plain (glyph s ch)
  | symbol _ ch kind =>
    .plain (if kind = .bigOperator then bigOperator s (glyph s ch) else glyph s ch)
  | row items =>
    let l := layoutCells s items
    ⟨Row.ofCells s.style (Font.mu s.style) l.1, l.2⟩
  | typed _ _ base => layout s base
  | color background foreground base => ⟨(layout s base).box.colored foreground background, true⟩
  | fraction num den => .map₂ (Layout.fraction s) (layout s.num num) (layout s.denom den)
  | scripts base sup sub =>
    let l := layout s base
    let m := layoutSome s.sup sup
    let n := layoutSome s.sub sub
    ⟨Layout.scripts s l.box m.1 n.1, l.colored || m.2 || n.2⟩
  | sqrt index base =>
    let l := layout s.cramp base
    let m := layoutSome s.root index
    ⟨Layout.root s m.1 l.box, l.colored || m.2⟩
  | space kind => .plain (.kern (kind.mu * Font.mu s.style))
  | strut width height depth => .plain (.space (s.length width) (s.length height) (s.length depth))
  | text run _ => .plain (.hbox (run.toList.map (glyph (s.withFontType .roman))))
  | styled font base => layout (s.withFontType font) base
  | vCentered base => (layout s base).map (centered s)
  | framed base =>
    (layout s base).map (·.frame (Font.ruleThickness s.style) (frameSpace * s.style.factor))
  | oval base =>
    (layout s base).map (·.ovalFrame (Font.ruleThickness s.style) (frameSpace * s.style.factor))
  | circled base =>
    (layout s base).map (·.circle (Font.ruleThickness s.style) (circleSpace * s.style.factor))
  | rotated degrees base => (layout s base).map (·.rotate degrees)
  | scaled x y base => (layout s base).map (·.scale x y)
  | lines rows align =>
    let l := layoutAll s rows
    ⟨Layout.lines s align l.1, l.2⟩

/-- The items of a row. -/
def layoutCells (s : Setting α) : List (Atom α) → List (Cell α) × Bool
  | [] => ([], false)
  | a :: rest =>
    let l := layout s a
    let m := layoutCells s rest
    (cell a l.box :: m.1, l.colored || m.2)

/-- The boxes of all atoms. -/
def layoutAll (s : Setting α) : List (Atom α) → List (Box α) × Bool
  | [] => ([], false)
  | a :: rest =>
    let l := layout s a
    let m := layoutAll s rest
    (l.box :: m.1, l.colored || m.2)

/-- The box of a part that may be absent. -/
def layoutSome (s : Setting α) : Option (Atom α) → Option (Box α) × Bool
  | none => (none, false)
  | some a =>
    let l := layout s a
    (some l.box, l.colored)

end

end Atom

end FormulaInk
