import FormulaInk.Error
import FormulaInk.Style
import FormulaInk.AtomClass
import FormulaInk.Length
import FormulaInk.FontType
import FormulaInk.Image.Format
import FormulaInk.Text.Block

/-!
Styles, units, classes and the like as callers name or number them, with the error for what is not
there.
-/

namespace FormulaInk

/-- The style of a number. -/
def Style.ofCode (code : Int) : Except Error Style :=
  match ofCode? code with
  | some style => .ok style
  | none => .error (.configuration (.styleCode code))

/-- The style of a name, in any case. -/
def Style.ofLevelName (name : String) : Except Error Style :=
  match ofLevelName? name with
  | some style => .ok style
  | none => .error (.configuration (.styleName (Text.lower name)))

/-- The class of a number. -/
def AtomClass.ofCode (code : Int) : Except Error AtomClass :=
  match ofCode? code with
  | some kind => .ok kind
  | none => .error (.atomClass code)

/-- The unit of a number. -/
def LengthUnit.ofCode (code : Int) : Except Error LengthUnit :=
  match ofCode? code with
  | some unit => .ok unit
  | none => .error (.unit code)

/-- The unit of an abbreviation. -/
def LengthUnit.ofAbbreviation (name : String) : Except Error LengthUnit :=
  match ofAbbreviation? name with
  | some unit => .ok unit
  | none => .error (.unit (-1))

/-- The alignment of a name, in any case. -/
def Alignment.ofAnyCase (name : String) : Except Error Alignment :=
  match ofName? (Text.lower name) with
  | some align => .ok align
  | none => .error (.configuration (.alignmentName (Text.lower name)))

/-- The block of a name. -/
def Text.Block.ofName (name : String) : Except Error Text.Block :=
  match ofName? name with
  | some block => .ok block
  | none => .error (.configuration (.blockName name))

/-- The color of a text. -/
def Color.named (text : String) : Except Error Color :=
  (ofString text).mapError (.configuration <| .color ·)

/-- The text style of a name. -/
def TextStyle.ofName (name : String) : Except Error TextStyle :=
  match ofName? name with
  | some style => .ok style
  | none => .error (.configuration (.textStyleName name))

/-- The picture format of a name, in any case. -/
def ImageFormat.ofName (name : String) : Except Error ImageFormat :=
  match ofName? name with
  | some format => .ok format
  | none => .error (.encode (.unknownEncoder (Text.lower name)))

end FormulaInk
