import FormulaInk.Icon.Build
import FormulaInk.Image.Encoded
import FormulaInk.Raster.Canvas
import FormulaInk.Registry.Read

/-!
Formulas rendered: from an atom tree over an icon to pixels and picture files.

The background is painted only if the area behind the formula is not to stay transparent.
-/

namespace FormulaInk

namespace Icon

/-- The longest side of a picture in pixels. -/
def longestSide : Nat := 65536

/-- The size in pixels, if a picture can have it. -/
def pictureSize (i : Icon Float32) : Except RenderFault (Nat × Nat) :=
  match i.width, i.height with
  | .negSucc n, _ => .error (.negativeWidth (.negSucc n))
  | _, .negSucc n => .error (.negativeHeight (.negSucc n))
  | .ofNat width, .ofNat height =>
    if longestSide < width ∨ longestSide < height then .error (.tooLarge width height longestSide)
    else .ok (width, height)

/-- A transparent canvas, or one in the color of the background if that is to be seen. -/
def ground (width height : Nat) (background : Option Color) (transparent : Bool) :
    Except RenderFault Raster.Canvas := do
  let canvas ← Raster.Canvas.new width height
  match background with
  | some color => return if transparent then canvas else canvas.clear color
  | none => return canvas

/-- The icon in pixels, with its upper left corner in that of the picture. -/
def rasterize (i : Icon Float32) (background : Option Color) (transparent : Bool) :
    Except (Halt RenderFault) Bitmap := do
  let (width, height) ← i.pictureSize.mapError .fault
  let canvas ← (ground width height background transparent).mapError .fault
  (canvas.paintAll (i.paint 0 0 .blank)).surface.toBitmap .checked

end Icon

/-- How a formula is made a picture. -/
structure RenderOptions where
  style : Style := .display
  size : Float32 := 20
  /-- The color of the text, which is else black. -/
  foreground : Option Color := none
  /-- The color behind the formula. -/
  background : Option Color := none
  /-- Whether the area behind the formula stays transparent. -/
  transparent : Bool := true

namespace RenderOptions

/-- The margin of pictures for files, in pixels. -/
def fileMargin : Int := 1

/-- The margin of pictures in memory, in pixels. -/
def memoryMargin : Int := 2

/-- The options for a picture that is transparent unless there is a background. -/
def transparentUnlessFilled (o : RenderOptions) : RenderOptions :=
  { o with transparent := o.background.isNone }

/-- The options for a picture in memory: black if no color is given, and with the background. -/
def forMemory (o : RenderOptions) : RenderOptions :=
  { o with foreground := some (o.foreground.getD .black), transparent := false }

/-- The options as far as a format can follow them. -/
def forFormat (o : RenderOptions) (format : ImageFormat) : RenderOptions :=
  { o with transparent := o.transparent && format.keepsAlpha }

end RenderOptions

namespace Formula

/-- The icon of a formula as the request asks for it, in the font of the text style if the request
names none. -/
def icon (f : Formula) (c : Icon.Config Float32) : Except Error (Icon.Built Float32) :=
  (c.build f.root (f.textStyle.map TextStyle.font)).mapError (.configuration <| .build ·)

/-- The icon of a formula in a style and a size. -/
def iconOf (f : Formula) (style : Style) (size : Float32) : Except Error (Icon.Built Float32) :=
  f.icon { Icon.Config.standard with style := some style, size := some size }

/-- The formula in pixels, with a margin. -/
def bitmapWithin (f : Formula) (o : RenderOptions) (margin : Int) :
    Except (Halt Error) Bitmap := do
  let built ← (f.iconOf o.style o.size).mapError .fault
  let icon := (built.icon.withInsets (.uniform margin)).withForeground o.foreground
  (icon.rasterize o.background o.transparent).mapError (Halt.map .render)

/-- The formula in pixels, as files have it. -/
def bitmap (f : Formula) (o : RenderOptions) : Except (Halt Error) Bitmap :=
  f.bitmapWithin o RenderOptions.fileMargin

/-- The formula in pixels, as it is held in memory. -/
def memoryBitmap (f : Formula) (o : RenderOptions) : Except (Halt Error) Bitmap :=
  f.bitmapWithin o.forMemory RenderOptions.memoryMargin

/-- What a picture file of the formula holds. -/
def encode (f : Formula) (format : ImageFormat) (o : RenderOptions) :
    Except (Halt Error) Encoded := do
  let o := o.forFormat format
  (Encoded.ofBitmap (← f.bitmap o) format o.transparent).mapError fun e => .fault (.encode e)

end Formula

/-- Writes a picture to a file, given what hinders the writing of a path. It gives the picture that
was written. If the writer is silent, nothing written is no error. -/
def Encoded.save (e : Encoded) (hindrance : String → Option String) (silent : Bool)
    (path : String) : Except Error (Option Encoded) :=
  match hindrance path with
  | none => .ok (some e)
  | some reason => if silent then .ok none else .error (.unwritable path reason)

end FormulaInk
