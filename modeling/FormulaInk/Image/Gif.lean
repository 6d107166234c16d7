import FormulaInk.Image.Encoded
import FormulaInk.Image.Octet
import Std.Data.HashMap

/-!
Files with a table of at most 256 colors, one of which may stand for what is transparent.

A picture with more colors is drawn in those of a coarse grid. The pixels are written as codes of
nine bits that stand for a single color each.
-/

namespace FormulaInk.Gif

/-- A color of the table; without channels it is the transparent one. -/
abbrev Paint := Option (UInt8 × UInt8 × UInt8)

/-- The color of pixel `i`. -/
def paintAt (data : ByteArray) (i : Nat) : Paint :=
  if data.get! (4 * i + 3) = 0 then none
  else some (data.get! (4 * i), data.get! (4 * i + 1), data.get! (4 * i + 2))

/-- A channel on a scale of six steps. -/
def coarseChannel (c : UInt8) : UInt8 := UInt8.ofNat ((c.toNat * 5 + 127) / 255 * 51)

/-- The nearest color of the grid. -/
def coarse : Paint → Paint :=
  Option.map fun (r, g, b) => (coarseChannel r, coarseChannel g, coarseChannel b)

/-- The colors of a picture in the order in which they come. -/
structure Palette where
  paints : Array Paint := #[]
  places : Std.HashMap Paint Nat := ∅

namespace Palette

/-- The table with a color. -/
def insert (p : Palette) (paint : Paint) : Palette :=
  if p.places.contains paint then p
  else ⟨p.paints.push paint, p.places.insert paint p.paints.size⟩

/-- The place of a color. -/
def place (p : Palette) (paint : Paint) : Nat := p.places.getD paint 0

/-- The colors of the pixels as `view` shows them. -/
def ofPixels (view : Paint → Paint) (data : ByteArray) : Palette :=
  (data.size / 4).fold (fun i _ p => p.insert (view (paintAt data i))) {}

/-- The bytes of the table, filled up with black. -/
def bytes (p : Palette) : ByteArray :=
  (256).fold (fun i _ out =>
    let (r, g, b) := ((p.paints[i]?).getD none).getD (0, 0, 0)
    ((out.push r).push g).push b) .empty

end Palette

/-- The code that empties the table of sequences. -/
def clearCode : Nat := 256

/-- The code at the end. -/
def endCode : Nat := 257

/-- How many codes may follow a clearing. With as many, the table has grown up to sequence 510, and
the codes still have nine bits. -/
def runLength : Nat := 254

/-- Bits that do not fill a byte, and the bytes before them. The first bit is the lowest. -/
structure Packing where
  bytes : ByteArray := .empty
  count : Nat := 0
  bits : Nat := 0

namespace Packing

/-- The packing with a code of nine bits. -/
def push (p : Packing) (code : Nat) : Packing :=
  let bits := p.bits + code <<< p.count
  if p.count + 9 < 16 then ⟨p.bytes.push (UInt8.ofNat bits), p.count + 1, bits >>> 8⟩
  else
    ⟨(p.bytes.push (UInt8.ofNat bits)).push (UInt8.ofNat (bits >>> 8)), p.count + 9 - 16,
      bits >>> 16⟩

/-- The bytes, the last one filled up with zeros. -/
def flush (p : Packing) : ByteArray :=
  if p.count = 0 then p.bytes else p.bytes.push (UInt8.ofNat p.bits)

end Packing

/-- The codes of the pixels. -/
def codes (view : Paint → Paint) (palette : Palette) (data : ByteArray) : ByteArray :=
  let packing := (data.size / 4).fold (fun i _ (p : Packing) =>
    let p := if i % runLength = 0 then p.push clearCode else p
    p.push (palette.place (view (paintAt data i)))) {}
  (packing.push endCode).flush

/-- The most bytes of a block. -/
def blockSize : Nat := 255

/-- The bytes in blocks that start with their size, and an empty block. -/
def blocks (data : ByteArray) : ByteArray :=
  (((data.size + blockSize - 1) / blockSize).fold (fun i _ out =>
    let block := data.extract (i * blockSize) ((i + 1) * blockSize)
    out.push (UInt8.ofNat block.size) ++ block) .empty).push 0

/-- The extension that tells which color is transparent. -/
def transparency (place : Nat) : ByteArray := ⟨#[0x21, 0xf9, 4, 1, 0, 0, UInt8.ofNat place, 0]⟩

/-- The file of a picture. -/
def file (b : Bitmap) : ByteArray :=
  let exact := Palette.ofPixels id b.data
  let (view, palette) :=
    if exact.paints.size ≤ 256 then (id, exact) else (coarse, Palette.ofPixels coarse b.data)
  let size := Octet.little16 b.width.toNat ++ Octet.little16 b.height.toNat
  "GIF89a".toUTF8 ++ size ++ ⟨#[0x70, 0, 0]⟩ ++
    ((palette.places.get? none).map transparency).getD .empty ++
    ⟨#[0x2c, 0, 0, 0, 0]⟩ ++ size ++ ⟨#[0x87]⟩ ++ palette.bytes ++
    ⟨#[8]⟩ ++ blocks (codes view palette b.data) ++ ⟨#[0x3b]⟩

end FormulaInk.Gif
