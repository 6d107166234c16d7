import FormulaInk.Dictionary
import FormulaInk.Formula
import FormulaInk.Text.Block

/-!
The tables that names and characters of formulas are resolved against.

A registry is a set of tables with the predefined formulas that were already read from them. The
cache of those is part of the value: an operation that fills it returns the registry it leaves.
-/

namespace FormulaInk

/-- A named symbol. -/
structure Symbol where
  ch : Char
  kind : AtomClass
  deriving DecidableEq, Repr

/-- A command defined by text: its body is read in its place, with arguments put in. -/
structure TextCommand where
  args : Nat
  body : String
  deriving DecidableEq, Repr

/-- The tables that do not change while a source is read. -/
structure Tables where
  symbols : Dictionary String Symbol := .empty
  /-- The symbol names that characters stand for. -/
  mappings : Dictionary Char String := .empty
  /-- The sources that characters stand for. -/
  charFormulas : Dictionary Char String := .empty
  commands : Dictionary String TextCommand := .empty
  /-- The sources of predefined formulas. -/
  predefined : Dictionary String String := .empty
  fonts : Dictionary Text.Block Families := .empty

/-- The predefined formulas that were already read. -/
abbrev Cache := Dictionary String Formula

/-- Tables with their cache. -/
structure Registry extends Tables where
  cache : Cache := .empty

namespace Tables

/-- The name and the symbol that a character stands for. -/
def symbolForChar? (t : Tables) (ch : Char) : Option (String × Symbol) :=
  match t.mappings.get? ch with
  | none => none
  | some name => (t.symbols.get? name).map (name, ·)

/-- The families for text in a block. -/
def families (t : Tables) (block : Text.Block) : Families :=
  (t.fonts.get? block).getD .standard

/-- The families for a text: those of the block of its first character that is not blank. -/
def familiesFor (t : Tables) (text : List Char) : Families :=
  t.families (((text.find? (!Text.isBlank ·)).map Text.Block.ofChar).getD .basicLatin)

end Tables

namespace TextCommand

/-- The body with the arguments put in. A number sign with a digit after it is a parameter, which
leaves nothing when it has no argument; every other character stands for itself. Arguments are not
searched for parameters. -/
def expandBody (args : List (List Char)) : List Char → List Char
  | [] => []
  | '#' :: d :: rest =>
    if d.isDigit then
      (if d = '0' then [] else (args[d.toNat - '1'.toNat]?).getD []) ++ expandBody args rest
    else '#' :: expandBody args (d :: rest)
  | c :: rest => c :: expandBody args rest

/-- The text that a command stands for. -/
def expand (c : TextCommand) (args : List (List Char)) : List Char := expandBody args c.body.toList

end TextCommand

namespace Registry

/-- The registry without entries. -/
def empty : Registry := {}

instance : Inhabited Registry := ⟨empty⟩

/-- Adds or replaces a symbol. -/
def addSymbol (r : Registry) (name : String) (ch : Char) (kind : AtomClass) : Registry :=
  { r with symbols := r.symbols.insert name ⟨ch, kind⟩ }

/-- Adds or replaces a command. -/
def addCommand (r : Registry) (name : String) (args : Nat) (body : String) : Registry :=
  { r with commands := r.commands.insert name ⟨args, body⟩ }

/-- Adds or replaces a predefined formula, and forgets what was read under its name. -/
def registerPredefined (r : Registry) (name source : String) : Registry :=
  { r with predefined := r.predefined.insert name source, cache := r.cache.erase name }

/-- Adds or replaces predefined formulas, the first one first. -/
def registerAll (r : Registry) (formulas : List (String × String)) : Registry :=
  formulas.foldl (fun r entry => r.registerPredefined entry.1 entry.2) r

/-- Sets the families for text in a block; without any the block is unregistered. A change for
Basic Latin forgets every formula that was read. -/
def registerFont (r : Registry) (block : Text.Block) (sansSerif serif : Option String) : Registry :=
  let fonts :=
    match sansSerif, serif with
    | none, none => r.fonts.erase block
    | _, _ => r.fonts.insert block
        ⟨sansSerif.getD Families.standard.sansSerif, serif.getD Families.standard.serif⟩
  { r with fonts, cache := if block = .basicLatin then .empty else r.cache }

/-- Sets one family for all text in a block. -/
def registerFamily (r : Registry) (block : Text.Block) (family : String) : Registry :=
  r.registerFont block (some family) (some family)

end Registry

/-- Plain text in the roman font, one row for each line. -/
def Formula.ofText (t : Tables) (text : String) (align : Alignment) : Formula :=
  let row (line : List Char) : Atom Float32 := .text (String.ofList line) (t.familiesFor line)
  Formula.empty.add <|
    match Formula.textLines text.toList with
    | [line] => row line
    | lines => .lines (lines.map row) align

end FormulaInk
