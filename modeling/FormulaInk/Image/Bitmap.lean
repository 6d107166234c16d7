import FormulaInk.Arithmetic
import FormulaInk.Decimal.Binary
import FormulaInk.Image.Fault

/-!
Pixels: surfaces as they are painted, and bitmaps with straight color channels.

Both hold four bytes for each pixel, row by row: red, green, blue and alpha. Positions are words of
32 bits, and so is the index of a pixel's bytes. The number of all bytes is a word of 64 bits.
-/

namespace FormulaInk

/-- One pixel. -/
structure Pixel where
  r : UInt8
  g : UInt8
  b : UInt8
  a : UInt8
  deriving DecidableEq, Repr

/-- A picture whose colors are not multiplied by their alpha. -/
structure Bitmap where
  width : UInt32
  height : UInt32
  data : ByteArray

namespace Bitmap

/-- The index of the first byte of a pixel. -/
def index (b : Bitmap) (a : Arithmetic) (x y : UInt32) : Except Panic Nat := do
  let row ← a.fit UInt32.size (y.toNat * b.width.toNat)
  let pixel ← a.fit UInt32.size (row + x.toNat)
  a.fit UInt32.size (pixel * 4)

/-- The pixel whose four bytes begin at an index. -/
def stored? (b : Bitmap) (i : Nat) : Option Pixel := do
  some ⟨← b.data[i]?, ← b.data[i + 1]?, ← b.data[i + 2]?, ← b.data[i + 3]?⟩

/-- The pixel at a position inside the bitmap. -/
def pixel? (b : Bitmap) (a : Arithmetic) (x y : UInt32) : Except Panic (Option Pixel) :=
  if b.width ≤ x ∨ b.height ≤ y then .ok none
  else (b.index a x y).map b.stored?

end Bitmap

/-- A color channel divided by its alpha, without the fraction. -/
def straighten (alpha channel : UInt8) : UInt8 :=
  let byte (n : UInt8) : Float32 := Scalar.whole n.toNat
  let quotient := byte channel / (byte alpha / byte 255)
  UInt8.ofNat (Truncating.truncate (Scalar.min quotient (byte 255))).toNat

/-- The bytes with the color channels of pixel `i` divided by its alpha. A pixel that is opaque or
transparent keeps its channels. -/
def straightenPixel (data : ByteArray) (i : Nat) : ByteArray :=
  let alpha := data.get! (4 * i + 3)
  if alpha = 0 ∨ alpha = 255 then data
  else
    ((data.set! (4 * i) (straighten alpha (data.get! (4 * i)))).set! (4 * i + 1)
      (straighten alpha (data.get! (4 * i + 1)))).set! (4 * i + 2)
      (straighten alpha (data.get! (4 * i + 2)))

/-- The bytes with the color channels of all pixels divided by their alpha. -/
def straightenAll (data : ByteArray) : ByteArray :=
  (data.size / 4).fold (fun i _ data => straightenPixel data i) data

/-- What was painted, before it is made a bitmap. -/
structure Surface where
  width : UInt32
  height : UInt32
  /-- Whether the colors are multiplied by their alpha. -/
  premultiplied : Bool
  data : ByteArray

namespace Surface

/-- The number of bytes that a surface of the size has. -/
def byteCount (s : Surface) (a : Arithmetic) : Except Panic Nat := do
  let pixels ← a.fit UInt64.size (s.width.toNat * s.height.toNat)
  a.fit UInt64.size (pixels * 4)

/-- The bitmap of a surface. -/
def toBitmap (s : Surface) (a : Arithmetic) : Except (Halt RenderFault) Bitmap := do
  let expected ← (s.byteCount a).mapError .panic
  if s.data.size ≠ expected then .error (.fault (.dataSize expected s.data.size))
  else .ok ⟨s.width, s.height, if s.premultiplied then straightenAll s.data else s.data⟩

end Surface

end FormulaInk
