import FormulaInk.Image.Gif
import FormulaInk.Image.Jpeg
import FormulaInk.Image.Png

/-!
The bytes of picture files.
-/

namespace FormulaInk

/-- The file that holds a picture. -/
def Encoded.file (e : Encoded) : ByteArray :=
  match e.format with
  | .png => Png.file e.bitmap e.hasAlpha
  | .gif => Gif.file e.bitmap
  | .jpeg => Jpeg.file e.bitmap

end FormulaInk
