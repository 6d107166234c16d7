import FormulaInk.Document.Tables
import FormulaInk.Error

/-!
Documents merged into a registry.

The tables of a document are merged one after the other. A fault ends the merge and leaves what was
merged before it.
-/

namespace FormulaInk.Registry

/-- The character of a key of a character table. -/
def keyChar (name key : String) : Except Error Char :=
  match key.toList with
  | [ch] => .ok ch
  | _ => .error (.resource name (.key key))

/-- Maps characters to symbols. -/
def mergeMappings (name : String) (r : Registry) :
    List (String × String) → Registry × Option Error
  | [] => (r, none)
  | (key, symbol) :: rest =>
    match keyChar name key with
    | .error e => (r, some e)
    | .ok ch =>
      if r.symbols.contains symbol then
        mergeMappings name { r with mappings := r.mappings.insert ch symbol } rest
      else (r, some (.resource name (.symbol key symbol)))

/-- Maps characters to sources. -/
def mergeCharFormulas (name : String) (r : Registry) :
    List (String × String) → Registry × Option Error
  | [] => (r, none)
  | (key, source) :: rest =>
    match keyChar name key with
    | .error e => (r, some e)
    | .ok ch =>
      mergeCharFormulas name { r with charFormulas := r.charFormulas.insert ch source } rest

/-- Merges both tables of characters. -/
def mergeCharacters (name : String) (r : Registry) (entries : Document.Entries) :
    Registry × Option Error :=
  match mergeMappings name r entries.mappings.entries with
  | (r, some e) => (r, some e)
  | (r, none) => mergeCharFormulas name r entries.charFormulas.entries

/-- Merges all tables: symbols, characters, commands, predefined formulas. -/
def merge (name : String) (r : Registry) (entries : Document.Entries) : Registry × Option Error :=
  match mergeCharacters name { r with symbols := r.symbols.insertAll entries.symbols.entries }
      entries with
  | (r, some e) => (r, some e)
  | (r, none) =>
    (({ r with commands := r.commands.insertAll entries.commands.entries } : Registry).registerAll
      entries.predefined.entries, none)

/-- Merges a document under the name that errors give it. -/
def load (name : String) (r : Registry) (text : String) : Registry × Option Error :=
  match Document.Entries.ofText? text with
  | none => (r, some (.resource name .malformed))
  | some entries => merge name r entries

/-- Merges a registry document. -/
def loadDocument (r : Registry) (text : String) : Registry × Option Error :=
  load "registry document" r text

/-- Merges the tables of characters of a document. -/
def addMappings (r : Registry) (text : String) : Registry × Option Error :=
  let name := "symbol mappings"
  match Document.Entries.ofText? text with
  | none => (r, some (.resource name .malformed))
  | some entries => mergeCharacters name r entries

/-- Merges a document of predefined formulas. -/
def addPredefined (r : Registry) (text : String) : Registry × Option Error :=
  match Document.sourcesOfText? text with
  | none => (r, some (.resource "predefined formulas" .malformed))
  | some sources => (r.registerAll sources.entries, none)

end FormulaInk.Registry
