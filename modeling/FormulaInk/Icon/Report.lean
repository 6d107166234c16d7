import FormulaInk.Decimal.Text
import FormulaInk.Icon.Build

/-!
What a build has to tell, in words.
-/

namespace FormulaInk.Icon

/-- The number with the given number of digits after the point. -/
def fixed (places : Nat) (x : Float32) : String := (Decimal.Binary.ofFloat32 x).fixed places

/-- A length with its unit behind it. -/
def lengthText (l : Length Float32) : String := Decimal.text32 l.value ++ l.unit.label

/-- The report on a row that was broken into lines. -/
def Broken.report (b : Broken Float32) : String :=
  "split " ++ fixed 3 b.width ++ "em into " ++ toString b.lines ++ " lines of at most " ++
    fixed 3 b.limit ++ "em"

/-- The report on a finished build. -/
def Built.report (c : Config Float32) (b : Built Float32) : String :=
  let text (field value : String) : String := field ++ "=" ++ value
  " ".intercalate [
    text "style" b.style.name,
    text "size" (fixed 1 b.icon.size),
    text "font" ((c.fontType.map FontType.text).getD "default"),
    text "width" ((c.width.map fun w => lengthText w.length).getD "<none>"),
    text "align" ((c.width.map WidthRequest.align).getD .left).label,
    text "max_width" (toString ((c.width.map WidthRequest.isMaxWidth).getD false)),
    text "interline" ((c.interline.map lengthText).getD "<none>"),
    text "ppp" (fixed 2 b.icon.pixelsPerPoint),
    text "true_values" (toString b.icon.trueValues),
    text "colored" (toString b.icon.colored),
    text "pixels" (toString b.icon.width ++ "x" ++ toString b.icon.height)]

end FormulaInk.Icon
