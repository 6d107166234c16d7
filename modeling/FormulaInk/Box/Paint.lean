import FormulaInk.Box
import FormulaInk.Picture.Recording

/-!
Boxes painted on a picture.

A box is painted with its reference point at a point of user space, whose vertical axis points down.
It takes back the pen that it found.
-/

namespace FormulaInk.Box

variable {α δ : Type} [Scalar α] [Scalar δ] [Widening α δ]

/-- The shapes that a glyph is drawn as, between a left and a right edge and around a middle. -/
def glyphShapes (o : Outline α) (shape : GlyphShape) (x y : α) : List (Shape α) :=
  let w := o.width
  let h := o.height
  let d := o.depth
  let top := y - h
  let mid := y - (h - d) / Scalar.whole 2
  let left := x + Scalar.ratio 1 10 * w
  let right := x + Scalar.ratio 9 10 * w
  let center := x + w / Scalar.whole 2
  let arm := (right - left) / Scalar.whole 2
  match shape with
  | .plus => [.line left mid right mid, .line center (mid - arm) center (mid + arm)]
  | .minus => [.line left mid right mid]
  | .times =>
    let arm := arm * Scalar.ratio 8 10
    [.line (center - arm) (mid - arm) (center + arm) (mid + arm),
      .line (center - arm) (mid + arm) (center + arm) (mid - arm)]
  | .equals =>
    let gap := (h + d) * Scalar.ratio 3 10
    [.line left (mid - gap) right (mid - gap), .line left (mid + gap) right (mid + gap)]
  | .slash => [.line left (y + d) right top]
  | .bar => [.line center top center (y + d)]
  | .dot =>
    let radius := Scalar.min (w * Scalar.ratio 25 100) (Scalar.ratio 8 100)
    let side := Scalar.whole 2 * radius
    [.fillEllipse ⟨center - radius, y - side, side, side⟩]
  | .block =>
    [.fillRect ⟨left, top + Scalar.ratio 1 10 * h, right - left, Scalar.ratio 9 10 * h + d⟩]

/-- Draws a glyph. One without extent leaves no ink. -/
def paintGlyph (o : Outline α) (shape : GlyphShape) (thickness x y : α) (g : Recording α δ) :
    Recording α δ :=
  if o.width ≤ Scalar.whole 0 ∨ o.height + o.depth ≤ Scalar.whole 0 then g
  else
    (glyphShapes o shape x y).foldl .draw
      (g.withStroke (.ofWidth (thickness * Scalar.ratio 15 10)))

/-- The rectangle that an outline covers. -/
def area (o : Outline α) (x y : α) : Rect α := ⟨x, y - o.height, o.width, o.height + o.depth⟩

/-- The rectangle that the middle of a frame around an outline follows. -/
def frameArea (o : Outline α) (thickness x y : α) : Rect α :=
  let half := thickness / Scalar.whole 2
  ⟨x + half, y - o.height + half, o.width - thickness, o.height + o.depth - thickness⟩

/-- Fills the background and takes the foreground. -/
def paintColors (o : Outline α) (x y : α) (g : Recording α δ) : Recording α δ :=
  let g :=
    match o.background with
    | none => g
    | some background => ((g.withColor background).draw (.fillRect (area o x y))).withColor g.pen.color
  match o.foreground with
  | none => g
  | some foreground => g.withColor foreground

/-- Draws the sign of a radical. -/
def paintRadical (o : Outline α) (thickness x y : α) (g : Recording α δ) : Recording α δ :=
  let top := y - o.height + thickness / Scalar.whole 2
  let bottom := y + o.depth
  let knee := x + o.width * Scalar.ratio 35 100
  let start := bottom - (o.height + o.depth) * Scalar.ratio 4 10
  ((g.withStroke ((Stroke.ofWidth thickness).withCap .round)).draw
    (.line x start knee bottom)).draw (.line knee bottom (x + o.width) top)

/-- Draws a frame with round ends. -/
def paintOval (o : Outline α) (thickness x y : α) (g : Recording α δ) : Recording α δ :=
  let r := frameArea o thickness x y
  let arc := Scalar.ratio 5 10 * Scalar.min r.w r.h
  (g.withStroke (.ofWidth thickness)).draw (.drawRoundRect r arc arc)

mutual

/-- Paints a box with its reference point at `(x, y)`. -/
def paint (b : Box α) (x y : α) (g : Recording α δ) : Recording α δ :=
  match b with
  | strut o => g.guarded fun g => paintColors o x y g
  | glyph o _ shape thickness =>
    g.guarded fun g => paintGlyph o shape thickness x y (paintColors o x y g)
  | rule o => g.guarded fun g => (paintColors o x y g).draw (.fillRect (area o x y))
  | horizontal o children _ =>
    g.guarded fun g => paintRow children x y (paintColors o x y g)
  | vertical o children =>
    g.guarded fun g => paintStack children x (y - o.height) (paintColors o x y g)
  | radicalSign o thickness =>
    g.guarded fun g => paintRadical o thickness x y (paintColors o x y g)
  | framed o thickness space base =>
    g.guarded fun g =>
      paint base (x + thickness + space) y <|
        ((paintColors o x y g).withStroke (.ofWidth thickness)).draw
          (.drawRect (frameArea o thickness x y))
  | oval o thickness space base =>
    g.guarded fun g =>
      paint base (x + thickness + space) y (paintOval o thickness x y (paintColors o x y g))
  | circled o thickness base =>
    g.guarded fun g =>
      paint base (x + (o.width - base.width) / Scalar.whole 2) y <|
        ((paintColors o x y g).withStroke (.ofWidth thickness)).draw
          (.drawEllipse (frameArea o thickness x y))
  | rotated o radians offset base =>
    g.guarded fun g =>
      paint base (x + offset) y <|
        (paintColors o x y g).rotateAbout (Widening.widen radians) (Widening.widen (x + offset))
          (Widening.widen y)
  | scaled o sx sy base =>
    g.guarded fun g =>
      let dx := if sx < Scalar.whole 0 then o.width else Scalar.whole 0
      paint base (Scalar.whole 0) (Scalar.whole 0) <|
        ((paintColors o x y g).translate (Widening.widen (x + dx)) (Widening.widen y)).scale
          (Widening.widen sx) (Widening.widen sy)

/-- Paints the parts of a row, the first one at `x`. -/
def paintRow (children : List (Box α)) (x y : α) (g : Recording α δ) : Recording α δ :=
  match children with
  | [] => g
  | c :: rest => paintRow rest (x + c.width) y (paint c x (y + c.shift) g)

/-- Paints the parts of a stack, the first one below `y`. -/
def paintStack (children : List (Box α)) (x y : α) (g : Recording α δ) : Recording α δ :=
  match children with
  | [] => g
  | c :: rest =>
    paintStack rest x (y + c.height + c.depth) (paint c (x + c.shift) (y + c.height) g)

end

end FormulaInk.Box
