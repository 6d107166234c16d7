import FormulaInk.Decimal.Binary
import FormulaInk.Picture.Recording

/-!
What shapes cover on the device, as polygons.

A shape has a path: a line from point to point, on which curves are followed in many short steps. A
filled shape covers what its path encloses. A stroked one covers a rectangle along each step of the
path, the joins between steps, and the caps at the ends of an open path.
-/

namespace FormulaInk.Raster

/-- A point of the plane. -/
abbrev Point := Float × Float

/-- The corners of a polygon. -/
abbrev Polygon := List Point

/-- A line from point to point. -/
structure Path where
  points : List Point
  /-- Whether the path leads back to its first point. -/
  closed : Bool
  /-- Whether the corners only stand for a curve. -/
  smooth : Bool

namespace Point

def add (p q : Point) : Point := (p.1 + q.1, p.2 + q.2)
def sub (p q : Point) : Point := (p.1 - q.1, p.2 - q.2)
def mul (p : Point) (k : Float) : Point := (p.1 * k, p.2 * k)
def dot (p q : Point) : Float := p.1 * q.1 + p.2 * q.2
def cross (p q : Point) : Float := p.1 * q.2 - p.2 * q.1

/-- The distance from the origin. -/
def length (p : Point) : Float := (dot p p).sqrt

/-- The point a quarter turn further. -/
def turned (p : Point) : Point := (-p.2, p.1)

/-- Whether both coordinates are finite. -/
def isFinite (p : Point) : Bool := Scalar.isFinite p.1 && Scalar.isFinite p.2

end Point

/-- A full turn in radians. -/
def turn : Float := 360 * Scalar.degree

/-- The steps that a full turn is followed in. -/
def stepsPerTurn : Nat := 256

/-- The steps that an angle is followed in. More than four turns are as good as four. -/
def steps (sweep : Float) : Nat :=
  let wanted := (sweep.abs / turn * Scalar.whole stepsPerTurn).ceil
  if wanted < Scalar.whole (4 * stepsPerTurn) then wanted.toUInt64.toNat + 1 else 4 * stepsPerTurn

/-- The points of an elliptic arc around a center. -/
def arc (center radii : Point) (start sweep : Float) : List Point :=
  let n := steps sweep
  (List.range (n + 1)).map fun i =>
    let angle := start + sweep * (Scalar.whole i / Scalar.whole n)
    (center.1 + radii.1 * angle.cos, center.2 + radii.2 * angle.sin)

/-- A disc. -/
def disc (center : Point) (radius : Float) : Polygon := arc center (radius, radius) 0 turn

/-- The corners of a rectangle. -/
def corners (r : Rect Float32) : List Point :=
  let left : Float := Widening.widen r.x
  let top : Float := Widening.widen r.y
  let right : Float := Widening.widen r.right
  let bottom : Float := Widening.widen r.bottom
  [(left, top), (right, top), (right, bottom), (left, bottom)]

/-- The path of a rectangle, if its sides are not negative. -/
def rectPath? (r : Rect Float32) : Option Path :=
  if Scalar.whole 0 ≤ r.w ∧ Scalar.whole 0 ≤ r.h then some ⟨corners r, true, false⟩ else none

/-- The path of a rectangle with round corners. The corners are circular, and the smaller diameter
counts. -/
def roundRectPath (r : Rect Float32) (arcWidth arcHeight : Float32) : Path :=
  let zero : Float32 := Scalar.whole 0
  let wanted : Float :=
    Widening.widen (Scalar.max (Scalar.min arcWidth arcHeight / Scalar.whole 2) zero)
  let x₀ : Float := Widening.widen r.x
  let y₀ : Float := Widening.widen r.y
  let x₁ : Float := Widening.widen r.right
  let y₁ : Float := Widening.widen r.bottom
  let left := Scalar.min x₀ x₁
  let right := Scalar.max x₀ x₁
  let top := Scalar.min y₀ y₁
  let bottom := Scalar.max y₀ y₁
  let radius := Scalar.min wanted (Scalar.min (right - left) (bottom - top) / 2)
  if radius ≤ 0 then ⟨[(left, top), (right, top), (right, bottom), (left, bottom)], true, false⟩
  else
    let quarter := turn / 4
    let corner (x y : Float) (start : Float) : List Point := arc (x, y) (radius, radius) start quarter
    ⟨corner (left + radius) (top + radius) (2 * quarter) ++
      corner (right - radius) (top + radius) (3 * quarter) ++
      corner (right - radius) (bottom - radius) 0 ++
      corner (left + radius) (bottom - radius) quarter, true, true⟩

/-- The center of the ellipse in a rectangle, and the points of an arc on it. Angles are in degrees
and go counterclockwise on a device whose vertical axis points down. -/
def ellipseArc (r : Rect Float32) (start extent : Float32) : Point × List Point :=
  let rx : Float := Widening.widen r.w / 2
  let ry : Float := Widening.widen r.h / 2
  let center : Point := (Widening.widen r.x + rx, Widening.widen r.y + ry)
  let angle (a : Float32) : Float := -(Widening.widen a * Scalar.degree)
  (center, arc center (rx, ry) (angle start) (angle extent))

/-- The path of a shape, and whether it is filled. A rectangle with a negative side and an arc that
goes nowhere have none. -/
def path? : Shape Float32 → Option (Path × Bool)
  | .fillRect r => (rectPath? r).map (·, true)
  | .drawRect r => (rectPath? r).map (·, false)
  | .fillRoundRect r a b => some (roundRectPath r a b, true)
  | .drawRoundRect r a b => some (roundRectPath r a b, false)
  | .line x₁ y₁ x₂ y₂ =>
    some (⟨[(Widening.widen x₁, Widening.widen y₁), (Widening.widen x₂, Widening.widen y₂)],
      false, false⟩, false)
  | .fillArc r start extent =>
    let (center, points) := ellipseArc r start extent
    some (⟨center :: points, true, false⟩, true)
  | .drawArc r start extent =>
    if extent == Scalar.whole 0 then none
    else some (⟨(ellipseArc r start extent).2, false, true⟩, false)

/-! ### Strokes -/

/-- The distance below which two points count as one. -/
def nearby : Float := 1 / 4096

/-- The points that differ from the one before them. -/
def distinctFrom (p : Point) : List Point → List Point
  | [] => []
  | q :: rest => if (q.sub p).length ≤ nearby then distinctFrom p rest else q :: distinctFrom q rest

/-- A step of a path, with its direction. -/
structure Segment where
  start : Point
  finish : Point
  direction : Point

/-- The steps between neighbours. -/
def segments : List Point → List Segment
  | p :: q :: rest => ⟨p, q, (q.sub p).mul (1 / (q.sub p).length)⟩ :: segments (q :: rest)
  | _ => []

/-- What the stroke of a step covers, with the given half of the width. -/
def body (half : Float) (s : Segment) : Polygon :=
  let n := s.direction.turned.mul half
  [s.start.add n, s.finish.add n, s.finish.sub n, s.start.sub n]

/-- What the corner between two steps covers. -/
def join (half : Float) (kind : LineJoin) (limit : Float) (s t : Segment) : Polygon :=
  let corner := s.finish
  let side := if s.direction.cross t.direction > 0 then -half else half
  let m := s.direction.turned.mul side
  let n := t.direction.turned.mul side
  let cosine := s.direction.dot t.direction
  match kind with
  | .round => disc corner half
  | .bevel => [corner, corner.add m, corner.add n]
  | .miter =>
    if limit > 1 && (1 + cosine) / 2 * limit * limit ≥ 1 then
      [corner, corner.add m, corner.add ((m.add n).mul (1 / (1 + cosine))), corner.add n]
    else [corner, corner.add m, corner.add n]

/-- What the end of an open path covers, beyond a point in a direction. -/
def cap (half : Float) (kind : LineCap) (p direction : Point) : List Polygon :=
  let n := direction.turned.mul half
  let d := direction.mul half
  match kind with
  | .butt => []
  | .round => [disc p half]
  | .square => [[p.add n, (p.add n).add d, (p.sub n).add d, p.sub n]]

/-- What the joins between neighbouring steps cover. -/
def joins (half : Float) (kind : LineJoin) (limit : Float) : List Segment → List Polygon
  | s :: t :: rest => join half kind limit s t :: joins half kind limit (t :: rest)
  | _ => []

/-- What the stroke of a path covers. -/
def strokePath (p : Path) (s : Stroke Float32) : List Polygon :=
  let half : Float := Widening.widen s.width / 2
  let limit : Float := Widening.widen s.miterLimit
  let kind := if p.smooth then .bevel else s.join
  if !(half > 0) then []
  else
    match p.points with
    | [] => []
    | first :: rest =>
      let points := first :: distinctFrom first rest
      let steps := segments (if p.closed then points ++ distinctFrom (points.getLast?.getD first)
        [first] else points)
      match steps.head?, steps.getLast? with
      | some head, some last =>
        let ends :=
          if p.closed then [join half kind limit last head]
          else cap half s.cap head.start (head.direction.mul (-1)) ++
            cap half s.cap last.finish last.direction
        steps.map (body half) ++ joins half kind limit steps ++ ends
      | _, _ => cap half s.cap first (1, 0) ++ cap half s.cap first (-1, 0)

/-- The transform in the numbers of shapes. -/
def narrowed (t : Transform Float) : Transform Float :=
  let n (x : Float) : Float := Widening.widen (narrow x)
  ⟨n t.sx, n t.ky, n t.kx, n t.sy, n t.tx, n t.ty⟩

/-- What a command covers on the device. A path with a point that is not finite covers nothing. -/
def region (c : Command Float32 Float) : List Polygon :=
  match path? c.shape with
  | none => []
  | some (path, filled) =>
    if !path.points.all Point.isFinite then []
    else
      let polygons := if filled then [path.points] else strokePath path c.pen.stroke
      let device := polygons.map (·.map (narrowed c.pen.transform).apply)
      if device.all (·.all Point.isFinite) then device else []

end FormulaInk.Raster
