import FormulaInk.Source.Raw

/-!
The commands that are built in: what each reads after its name, and the atom it makes.
-/

namespace FormulaInk.Source

/-- A parameter of a built-in command. -/
inductive Param where
  /-- A group or a single token. -/
  | atom
  /-- Items in square brackets that may be absent. -/
  | optionalAtom
  | plain (kind : Plain)
  deriving DecidableEq, Repr

/-- What is read for a parameter. -/
@[reducible] def Param.Value : Param → Type
  | atom => Atom Float32
  | optionalAtom => Option (Atom Float32)
  | plain kind => kind.Value

/-- What is read for several parameters. -/
@[reducible] def Args : List Param → Type
  | [] => Unit
  | p :: ps => p.Value × Args ps

/-- A built-in command. -/
structure Construct where
  params : List Param
  build : Tables → Args params → Atom Float32

namespace Construct

/-- A command that makes the same atom wherever it stands. -/
def constant (a : Atom Float32) : Construct := ⟨[], fun _ _ => a⟩

/-- A command that wraps the atom after it. -/
def wrapper (wrap : Atom Float32 → Atom Float32) : Construct := ⟨[.atom], fun _ (a, ()) => wrap a⟩

/-- The command that sets the atom after it in a text style. -/
def styled (style : TextStyle) : Construct := wrapper (.styled style.font)

/-- Text in the font families of its characters. -/
def text : Construct :=
  ⟨[.plain .text], fun t (text, ()) => .text text (t.familiesFor text.toList)⟩

/-- The built-in command of a name. -/
def ofName? : String → Option Construct
  | "frac" => some ⟨[.atom, .atom], fun _ (num, den, ()) => .fraction num den⟩
  | "sqrt" => some ⟨[.optionalAtom, .atom], fun _ (index, base, ()) => .sqrt index base⟩
  | "text" => some text
  | "mbox" => some text
  | "textrm" => some text
  | "fbox" => some (wrapper .framed)
  | "ovalbox" => some (wrapper .oval)
  | "textcircled" => some (wrapper .circled)
  | "vcenter" => some (wrapper .vCentered)
  | "rotatebox" =>
    some ⟨[.plain .number, .atom], fun _ (degrees, base, ()) => .rotated degrees base⟩
  | "scalebox" =>
    some ⟨[.plain .number, .plain .optionalNumber, .atom],
      fun _ (x, y, base, ()) => .scaled x (y.getD x) base⟩
  | "textcolor" =>
    some ⟨[.plain .color, .atom], fun _ (color, base, ()) => .color none (some color) base⟩
  | "colorbox" =>
    some ⟨[.plain .color, .atom], fun _ (color, base, ()) => .color (some color) none base⟩
  | "middle" => some ⟨[.plain .delimiter], fun _ (delimiter, ()) => .middle delimiter⟩
  | "quad" => some (constant (.space .quad))
  | "qquad" => some (constant (.space .doubleQuad))
  | "thinspace" => some (constant (.space .thin))
  | "medspace" => some (constant (.space .medium))
  | "thickspace" => some (constant (.space .thick))
  | "negthinspace" => some (constant (.space .negativeThin))
  | "mathrm" => some (styled .roman)
  | "mathbf" => some (styled .bold)
  | "mathit" => some (styled .italic)
  | "mathsf" => some (styled .sansSerif)
  | "mathtt" => some (styled .typewriter)
  | "hspace" =>
    some ⟨[.plain .length], fun _ (width, ()) =>
      .strut width ⟨width.unit, Float32.ofNat 0⟩ ⟨width.unit, Float32.ofNat 0⟩⟩
  | _ => none

end Construct

/-- The atom of a named symbol, or the character itself where the name is not known. -/
def namedSymbol (t : Tables) (name : String) (fallback : Char) : Atom Float32 :=
  match t.symbols.get? name with
  | some symbol => .symbol name symbol.ch symbol.kind
  | none => .char fallback

/-- The atom of a command whose name is a single character other than a letter. -/
def ofSign? (t : Tables) (ch : Char) : Option (Atom Float32) :=
  match ch with
  | ',' => some (.space .thin)
  | ':' | '>' => some (.space .medium)
  | ';' | ' ' => some (.space .thick)
  | '!' => some (.space .negativeThin)
  | '{' => some (namedSymbol t "lbrace" ch)
  | '}' => some (namedSymbol t "rbrace" ch)
  | '%' | '&' | '$' | '#' | '_' => some (.char ch)
  | _ => none

/-- Why a script cannot be set on the last of the items, which come latest first. -/
def scriptFault? (superscript : Bool) : List (Atom Float32) → Option Fault
  | .scripts _ sup sub :: _ =>
    if superscript then if sup.isSome then some .doubleSuperscript else none
    else if sub.isSome then some .doubleSubscript else none
  | _ => none

/-- Sets a script on the last of the items, which come latest first. -/
def attachScript (superscript : Bool) (script : Atom Float32) :
    List (Atom Float32) → List (Atom Float32)
  | .scripts base sup sub :: rest =>
    (if superscript then .scripts base (some script) sub else .scripts base sup (some script)) ::
      rest
  | base :: rest =>
    (if superscript then .scripts base (some script) none else .scripts base none (some script)) ::
      rest
  | [] => [if superscript then .scripts .empty (some script) none
      else .scripts .empty none (some script)]

end FormulaInk.Source
