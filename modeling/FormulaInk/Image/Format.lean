import FormulaInk.Text.Blank

/-!
The formats that pictures can be written in.
-/

namespace FormulaInk

/-- A picture format. -/
inductive ImageFormat where
  | png
  | gif
  | jpeg
  deriving DecidableEq, Repr

namespace ImageFormat

/-- The name of a format. -/
def name : ImageFormat → String
  | png => "png"
  | gif => "gif"
  | jpeg => "jpeg"

/-- The format of a name, in any case. -/
def ofName? (s : String) : Option ImageFormat :=
  match Text.lower s with
  | "png" => some png
  | "gif" => some gif
  | "jpeg" | "jpg" => some jpeg
  | _ => none

/-- Whether pictures of the format can be transparent. -/
def keepsAlpha : ImageFormat → Bool
  | jpeg => false
  | _ => true

end ImageFormat

end FormulaInk
