import FormulaInk.Image.Bitmap
import FormulaInk.Raster.Region

/-!
Pictures painted in pixels.

A pixel takes the color of the last command that covers its center. Where nothing was painted the
canvas is transparent.
-/

namespace FormulaInk.Raster

/-- A canvas of the given size, with four bytes for each pixel, row by row. -/
structure Canvas where
  width : Nat
  height : Nat
  data : ByteArray

/-- The direction in which an edge crosses a horizontal line, and where. -/
def crossing (y : Float) (p q : Point) : Option (Float × Int) :=
  let x := p.1 + (y - p.2) * ((q.1 - p.1) / (q.2 - p.2))
  if p.2 ≤ y && y < q.2 then some (x, 1)
  else if q.2 ≤ y && y < p.2 then some (x, -1)
  else none

/-- The crossings of the edges from each point to the next one, the last one leading to `first`. -/
def crossings (y : Float) (first : Point) : Polygon → List (Float × Int)
  | [] => []
  | [p] => (crossing y p first).toList
  | p :: q :: rest => (crossing y p q).toList ++ crossings y first (q :: rest)

/-- The stretches of a horizontal line that are wound around, given its crossings from left to right
and how often the line is wound around before them. -/
def spans (winding : Int) : List (Float × Int) → List (Float × Float)
  | (x, d) :: (x', d') :: rest =>
    let winding := winding + d
    if winding = 0 then spans winding ((x', d') :: rest)
    else (x, x') :: spans winding ((x', d') :: rest)
  | _ => []

/-- The first of `count` cells whose middle is not left of a coordinate; `count` if there is none. -/
def cell (count : Nat) (x : Float) : Nat :=
  let index := (x - 0.5).ceil
  if index ≤ 0 then 0
  else if index < Scalar.whole count then index.toUInt64.toNat
  else count

/-- The middle of a cell. -/
def middle (i : Nat) : Float := Scalar.whole i + 0.5

namespace Canvas

/-- A transparent canvas. -/
def blank (width height : Nat) : Canvas :=
  let row := (4 * width).fold (fun _ _ row => row.push 0) ByteArray.empty
  let data := ByteArray.emptyWithCapacity (4 * width * height)
  ⟨width, height, height.fold (fun _ _ data => data ++ row) data⟩

/-- The bytes with one pixel colored. -/
def setPixel (data : ByteArray) (i : Nat) (color : Color) : ByteArray :=
  (((data.set! (4 * i) color.r).set! (4 * i + 1) color.g).set! (4 * i + 2) color.b).set!
    (4 * i + 3) 255

/-- Colors a stretch of pixels. -/
def setSpan (data : ByteArray) (start count : Nat) (color : Color) : ByteArray :=
  count.fold (fun i _ data => setPixel data (start + i) color) data

/-- Colors the whole canvas. -/
def clear (c : Canvas) (color : Color) : Canvas :=
  { c with data := setSpan c.data 0 (c.width * c.height) color }

/-- Colors the pixels of a row whose centers lie in a polygon. -/
def fillRow (width row : Nat) (polygon : Polygon) (color : Color) (data : ByteArray) : ByteArray :=
  match polygon with
  | [] => data
  | first :: _ =>
    let found := (crossings (middle row) first polygon).mergeSort fun a b => a.1 ≤ b.1
    (spans 0 found).foldl (fun data (x, x') =>
      let start := cell width x
      setSpan data (row * width + start) (cell width x' - start) color) data

/-- Colors the pixels whose centers lie in a polygon. -/
def fillPolygon (c : Canvas) (polygon : Polygon) (color : Color) : Canvas :=
  match polygon.map (·.2) with
  | [] => c
  | y :: ys =>
    let top := cell c.height (Scalar.least y ys)
    let bottom := cell c.height (Scalar.greatest y ys)
    { c with
      data := (bottom - top).fold
        (fun i _ data => fillRow c.width (top + i) polygon color data) c.data }

/-- Paints a command. -/
def paint (c : Canvas) (command : Command Float32 Float) : Canvas :=
  (region command).foldl (fun c polygon => c.fillPolygon polygon command.pen.color) c

/-- Paints a picture. -/
def paintAll (c : Canvas) (g : Recording Float32 Float) : Canvas := g.commands.foldl paint c

/-- The surface of a canvas. Its colors are opaque or not there at all. -/
def surface (c : Canvas) : Surface :=
  ⟨UInt32.ofNat c.width, UInt32.ofNat c.height, true, c.data⟩

/-- The most bytes that a row of pixels may have. -/
def mostRowBytes : Nat := 0x7fffffff

/-- A transparent canvas. It has pixels, and not too many in a row. -/
def new (width height : Nat) : Except RenderFault Canvas :=
  if width = 0 ∨ height = 0 ∨ mostRowBytes < 4 * width then .error (.canvasSize width height)
  else .ok (blank width height)

end Canvas

end FormulaInk.Raster
