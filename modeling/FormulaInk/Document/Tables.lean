import FormulaInk.Document.Record
import FormulaInk.Registry

/-!
Documents with the entries of a registry.
-/

namespace FormulaInk.Document

namespace Value

/-- A symbol: its character and its class. -/
def symbol? (v : Value) : Option Symbol := do
  match ← v.fields? ["ch", "type"] with
  | (_, [some ch, some kind]) => some ⟨← ch.char?, ← AtomClass.ofName? (← kind.name?)⟩
  | _ => none

/-- A text command: how many arguments it has, by default none, and its body. -/
def command? (v : Value) : Option TextCommand := do
  match ← v.fields? ["args", "body"] with
  | (_, [args, some body]) =>
    let args ← match args with
      | some args => args.nat?
      | none => some 0
    some ⟨args, ← body.text?⟩
  | _ => none

end Value

/-- The entries that a document adds to a registry. -/
structure Entries where
  symbols : Dictionary String Symbol := .empty
  mappings : Dictionary String String := .empty
  charFormulas : Dictionary String String := .empty
  commands : Dictionary String TextCommand := .empty
  predefined : Dictionary String String := .empty

/-- Reads the entries of a document. Tables that are left out are empty. -/
def Entries.ofText? (text : String) : Option Entries := do
  let v ← Value.ofText? text
  match ← v.fields? ["symbols", "symbol_mappings", "symbol_formulas", "commands", "formulas"] with
  | (_, [symbols, mappings, charFormulas, commands, predefined]) =>
    let table {β : Type} (decode : Value → Option β) (v : Option Value) :
        Option (Dictionary String β) :=
      match v with
      | none => some .empty
      | some v => v.table? decode
    some {
      symbols := ← table Value.symbol? symbols
      mappings := ← table Value.text? mappings
      charFormulas := ← table Value.text? charFormulas
      commands := ← table Value.command? commands
      predefined := ← table Value.text? predefined }
  | _ => none

/-- Reads a document that is one table of sources. -/
def sourcesOfText? (text : String) : Option (Dictionary String String) := do
  (← Value.ofText? text).table? Value.text?

end FormulaInk.Document
