import FormulaInk.Scalar
import FormulaInk.Text.Blank

/-!
Typesetting styles: four levels, each in a normal and a cramped form.
-/

namespace FormulaInk

/-- The size class of a style. -/
inductive Level where
  | display
  | text
  | script
  | scriptScript
  deriving DecidableEq, Repr

/-- A typesetting style. A cramped style lowers superscripts. -/
structure Style where
  level : Level
  cramped : Bool
  deriving DecidableEq, Repr

namespace Style

def display : Style := ⟨.display, false⟩

/-- Every style, in the order of the codes. -/
def all : List Style :=
  [⟨.display, false⟩, ⟨.display, true⟩, ⟨.text, false⟩, ⟨.text, true⟩, ⟨.script, false⟩,
    ⟨.script, true⟩, ⟨.scriptScript, false⟩, ⟨.scriptScript, true⟩]

/-- The number of a style. -/
def code (s : Style) : Nat :=
  2 * (match s.level with
    | .display => 0
    | .text => 1
    | .script => 2
    | .scriptScript => 3) + s.cramped.toNat

/-- The name of a style. -/
def name (s : Style) : String :=
  (match s.level with
    | .display => "Display"
    | .text => "Text"
    | .script => "Script"
    | .scriptScript => "ScriptScript") ++ if s.cramped then "Cramped" else ""

/-- The style of a name as `name` writes it. -/
def ofName? (s : String) : Option Style := all.find? (·.name == s)

/-- The style of a number. -/
def ofCode? (n : Int) : Option Style :=
  match n with
  | .ofNat k => all[k]?
  | .negSucc _ => none

/-- The style of a name as styles are asked for: a level in any case, never cramped. -/
def ofLevelName? (s : String) : Option Style :=
  match Text.lower s with
  | "display" => some ⟨.display, false⟩
  | "text" => some ⟨.text, false⟩
  | "script" => some ⟨.script, false⟩
  | "scriptscript" => some ⟨.scriptScript, false⟩
  | _ => none

/-- Whether the style is one of the two large ones for formulas of their own. -/
def isDisplay (s : Style) : Bool := s.level == .display

/-- Whether the style is one of the small ones. -/
def isScript (s : Style) : Bool := s.level == .script || s.level == .scriptScript

/-- The cramped form of a style. -/
def cramp (s : Style) : Style := { s with cramped := true }

/-- The style of a superscript. -/
def sup (s : Style) : Style := { s with level := if s.isScript then .scriptScript else .script }

/-- The style of a subscript. -/
def sub (s : Style) : Style := s.sup.cramp

/-- The style of a numerator. -/
def num (s : Style) : Style :=
  { s with level := match s.level with
    | .display => .text
    | .text => .script
    | .script | .scriptScript => .scriptScript }

/-- The style of a denominator. -/
def denom (s : Style) : Style := s.num.cramp

/-- The style of the index of a radical. -/
def root (_ : Style) : Style := ⟨.scriptScript, false⟩

/-- The size of a style relative to the font's. -/
def factor {α : Type} [Scalar α] (s : Style) : α :=
  match s.level with
  | .display | .text => Scalar.whole 1
  | .script => Scalar.ratio 7 10
  | .scriptScript => Scalar.ratio 5 10

end Style

end FormulaInk
