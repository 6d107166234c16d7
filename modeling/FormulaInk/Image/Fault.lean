import FormulaInk.Image.Format

/-!
What can go wrong between a painted surface and a picture file.
-/

namespace FormulaInk

/-- Why a picture cannot be painted. -/
inductive RenderFault where
  | dataSize (expected got : Nat)
  /-- A canvas that has no pixels, or more in a row than there can be. -/
  | canvasSize (width height : Nat)
  | negativeWidth (width : Int)
  | negativeHeight (height : Int)
  | tooLarge (width height limit : Nat)

/-- The description of a fault. -/
def RenderFault.message : RenderFault → String
  | dataSize expected got =>
    "Pixel data size mismatch: expected " ++ toString expected ++ " bytes, got " ++ toString got
  | canvasSize width height =>
    "Failed to create " ++ toString width ++ "x" ++ toString height ++ " pixmap"
  | negativeWidth width => "Negative icon width " ++ toString width
  | negativeHeight height => "Negative icon height " ++ toString height
  | tooLarge width height limit =>
    "Icon of " ++ toString width ++ "x" ++ toString height ++ " pixels exceeds the " ++
      toString limit ++ " pixel limit"

/-- Why a picture cannot be encoded. -/
inductive EncodeFault where
  | unknownEncoder (name : String)
  | zeroWidth
  | zeroHeight
  /-- The sides do not fit the words of the format. -/
  | dimensions (format : ImageFormat)

/-- The description of a fault. -/
def EncodeFault.message : EncodeFault → String
  | unknownEncoder name => "Unknown encoder '" ++ name ++ "'"
  | zeroWidth => "PNG encoder error: Zero width not allowed"
  | zeroHeight => "PNG encoder error: Zero height not allowed"
  | dimensions format =>
    format.name ++ " encoder error: The Image's dimensions are either too small or too large"

end FormulaInk
