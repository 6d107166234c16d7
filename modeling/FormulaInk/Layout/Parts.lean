import FormulaInk.Box
import FormulaInk.Setting

/-!
How the boxes of a fraction, of scripts, of a radical and of stacked lines are put together.
-/

namespace FormulaInk.Layout

variable {α : Type} [Scalar α]

/-- The space on both sides of a fraction. -/
def delimiterSpace : α := Scalar.ratio 12 100

/-- The space after scripts. -/
def scriptSpace : α := Scalar.ratio 5 100

/-- The space between a frame and its content. -/
def frameSpace : α := Scalar.ratio 15 100

/-- The space between a circle and its content. -/
def circleSpace : α := Scalar.ratio 5 100

/-- The gap between stacked lines. -/
def lineGap : α := Scalar.ratio 2 10

/-- The glyph of a character. -/
def glyph (s : Setting α) (ch : Char) : Box α :=
  let m := s.font.metrics ch s.style
  .ofChar ch m.advance m.height m.depth (Font.ruleThickness s.style * s.font.weight)

/-- A big operator: larger in display style, and centered on the axis. -/
def bigOperator (s : Setting α) (b : Box α) : Box α :=
  let b := if s.style.isDisplay then b.scale (Scalar.ratio 14 10) (Scalar.ratio 14 10) else b
  .hbox [b.withShift ((b.height - b.depth) / Scalar.whole 2 - Font.axisHeight s.style)]

/-- Content centered on the axis. -/
def centered (s : Setting α) (b : Box α) : Box α :=
  let height := b.totalHeight / Scalar.whole 2 + Font.axisHeight s.style
  .hbox [b.withShift (b.height - height)]

/-- The clearance that a fraction bar keeps at least. -/
def clearance (s : Setting α) : α :=
  if s.style.isDisplay then Scalar.whole 3 * Font.ruleThickness s.style
  else Font.ruleThickness s.style

/-- The gap between a numerator raised by `shift` and the top of the bar. -/
def gapAbove (s : Setting α) (num : Box α) (shift : α) : α :=
  (shift - num.depth) -
    (Font.axisHeight s.style + Font.ruleThickness s.style / Scalar.whole 2)

/-- The gap between the bottom of the bar and a denominator lowered by `shift`. -/
def gapBelow (s : Setting α) (den : Box α) (shift : α) : α :=
  (Font.axisHeight s.style - Font.ruleThickness s.style / Scalar.whole 2) - (den.height - shift)

/-- A shift enlarged so that its gap is as large as the clearance. -/
def enlarged (least gap shift : α) : α := if gap < least then shift + (least - gap) else shift

/-- How far a numerator is raised. -/
def numRaise (s : Setting α) (num : Box α) : α :=
  let shift := Font.numShift s.style
  enlarged (clearance s) (gapAbove s num shift) shift

/-- How far a denominator is lowered. -/
def denDrop (s : Setting α) (den : Box α) : α :=
  let shift := Font.denomShift s.style
  enlarged (clearance s) (gapBelow s den shift) shift

/-- A numerator over a bar over a denominator, all of one width. -/
def fractionStack (s : Setting α) (num den : Box α) : Box α :=
  let zero : α := Scalar.whole 0
  let width := Scalar.max num.width den.width
  let raise := numRaise s num
  let drop := denDrop s den
  .stack
    [num.aligned width .center, .space zero (gapAbove s num raise) zero,
      .bar width (Font.ruleThickness s.style) zero, .space zero (gapBelow s den drop) zero,
      den.aligned width .center]
    (raise + num.height)

/-- A fraction, with the bar on the axis. -/
def fraction (s : Setting α) (num den : Box α) : Box α :=
  let side : Box α := .kern (delimiterSpace * s.style.factor)
  .hbox [side, fractionStack s num den, side]

/-- How far the superscript of a base is raised at least. -/
def supRaise (s : Setting α) (base : Box α) : α :=
  Scalar.max (Font.supShift s.style) (base.height - Scalar.ratio 386 1000 * s.style.factor)

/-- How far the subscript of a base is lowered at least. -/
def subDrop (s : Setting α) (base : Box α) : α :=
  Scalar.max (Font.subShift s.style) (base.depth + Scalar.ratio 5 100 * s.style.factor)

/-- A superscript over a subscript, at least four rules apart. -/
def scriptStack (s : Setting α) (base sup sub : Box α) : Box α :=
  let zero : α := Scalar.whole 0
  let raise := supRaise s base
  let drop := subDrop s base
  let least := Scalar.whole 4 * Font.ruleThickness s.style
  let gap (drop : α) : α := (raise - sup.depth) - (sub.height - drop)
  let drop := enlarged least (gap drop) drop
  .stack [sup, .space zero (gap drop) zero, sub] (raise + sup.height)

/-- A base with its scripts. -/
def scripts (s : Setting α) (base : Box α) (sup sub : Option (Box α)) : Box α :=
  let attach (b : Box α) : Box α := .hbox [base, b, .kern (scriptSpace * s.style.factor)]
  match sup, sub with
  | none, none => base
  | some sup, none =>
    attach <| sup.withShift <| -Scalar.max (supRaise s base)
      (sup.depth + Font.xHeight s.style / Scalar.whole 4)
  | none, some sub =>
    attach <| sub.withShift <| Scalar.max (subDrop s base)
      (sub.height - Scalar.ratio 8 10 * Font.xHeight s.style)
  | some sup, some sub => attach (scriptStack s base sup sub)

/-- A radical over a base, with its index, if any, moved up and over the sign. -/
def root (s : Setting α) (index : Option (Box α)) (base : Box α) : Box α :=
  let zero : α := Scalar.whole 0
  let theta := Font.ruleThickness s.style
  let clearance :=
    theta + (if s.style.isDisplay then Font.xHeight s.style else theta) / Scalar.whole 4
  let signWidth := Scalar.ratio 833 1000 * s.style.factor
  let height := base.height + clearance + theta
  let depth := base.depth
  let sign := Box.radical signWidth height depth (theta * s.font.weight)
  let body := Box.stack [.bar base.width theta zero, .space zero clearance zero, base] height
  let front :=
    match index with
    | none => []
    | some index =>
      let raise := Scalar.ratio 6 10 * (height + depth) - depth
      [index.withShift (-raise), .kern (-Scalar.min index.width (Scalar.ratio 5 10 * signWidth))]
  .hbox (front ++ [sign, body])

/-- The parts of a stack of lines: each line set to the width, with a gap before all but the
first. -/
def lineParts (gap width : α) (align : Alignment) : List (Box α) → List (Box α)
  | [] => []
  | [line] => [line.aligned width align]
  | line :: rest =>
    line.aligned width align :: .space (Scalar.whole 0) gap (Scalar.whole 0) ::
      lineParts gap width align rest

/-- Lines on top of each other, with the baseline of the first. -/
def lines (s : Setting α) (align : Alignment) (boxes : List (Box α)) : Box α :=
  let width := (boxes.map Box.width).foldl Scalar.max (Scalar.whole 0)
  .stack (lineParts (lineGap * s.style.factor) width align boxes)
    ((boxes.head?.map Box.height).getD (Scalar.whole 0))

end FormulaInk.Layout
