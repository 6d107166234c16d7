import FormulaInk.Document.Record
import FormulaInk.Icon.Config

/-!
Documents with what the build of an icon is asked for.
-/

namespace FormulaInk.Document

open Icon

namespace Value

/-- A number below 256. -/
def byte? (v : Value) : Option UInt8 := do
  let n ← v.nat?
  if n < 256 then some (UInt8.ofNat n) else none

/-- A color by its channels. -/
def color? (v : Value) : Option Color := do
  match ← v.fields? ["r", "g", "b"] with
  | (_, [some r, some g, some b]) => some ⟨← r.byte?, ← g.byte?, ← b.byte?⟩
  | _ => none

/-- A length: its unit and its value. -/
def length? (v : Value) : Option (Length Float32) := do
  match ← v.fields? ["unit", "value"] with
  | (_, [some unit, some value]) => some ⟨← LengthUnit.ofName? (← unit.name?), ← value.float32?⟩
  | _ => none

/-- A width, where content stands in it, and whether the content's own width counts. -/
def width? (v : Value) : Option (WidthRequest Float32) := do
  match ← v.fields? ["length", "align", "is_max_width"] with
  | (_, [some length, some align, some isMaxWidth]) =>
    some ⟨← length.length?, ← Alignment.ofName? (← align.name?), ← isMaxWidth.bool?⟩
  | _ => none

end Value

/-- Reads what a build is asked for. What may be unset may be left out of an object, but not of an
array. -/
def requestOfText? (text : String) : Option (Config Float32) := do
  let v ← Value.ofText? text
  match ← v.fields? ["style", "size", "font_type", "foreground", "true_values", "width",
      "interline", "pixels_per_point"] with
  | (isArray, [style, size, fontType, foreground, trueValues, width, interline, density]) =>
    if isArray && density.isNone then none
    else
      some {
        style := ← Value.optional? (fun v => v.name?.bind Style.ofName?) style
        size := ← Value.optional? Value.float32? size
        fontType := (← Value.optional? Value.byte? fontType).map FontType.mk
        foreground := ← Value.optional? Value.color? foreground
        trueValues := ← Value.required? Value.bool? trueValues
        width := ← Value.optional? Value.width? width
        interline := ← Value.optional? Value.length? interline
        pixelsPerPoint := ← Value.required? Value.float32? density }
  | _ => none

end FormulaInk.Document
