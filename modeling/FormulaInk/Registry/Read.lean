import FormulaInk.Error
import FormulaInk.Naming
import FormulaInk.Source.Reading

/-!
Sources read into formulas, and predefined formulas fetched by name.
-/

namespace FormulaInk

/-- The result of reading, with the registry it leaves and the faults it passed over. -/
structure Parsed (α : Type) where
  result : Except (Halt Error) α
  registry : Registry
  skipped : List Source.ParseError := []

namespace Parsed

/-- The same reading with its result changed. -/
def map {α β : Type} (f : α → β) (p : Parsed α) : Parsed β :=
  { p with result := p.result.map f }

end Parsed

namespace Registry

/-- Reads a source that is nested at the given depth into its items. -/
def readAt (r : Registry) (depth : Nat) (mode : Source.Mode) (source : String) :
    Parsed (List (Atom Float32)) :=
  let (result, memo) := Source.atDepth r.toTables depth mode source.toList { cache := r.cache }
  ⟨result.mapError (Halt.map .parse), { r with cache := memo.cache }, memo.skipped⟩

/-- Reads a source into its items. -/
def read (r : Registry) (mode : Source.Mode) (source : String) : Parsed (List (Atom Float32)) :=
  r.readAt 0 mode source

/-- Reads a source into a formula. -/
def formula (r : Registry) (mode : Source.Mode) (source : String) : Parsed Formula :=
  (r.read mode source).map Formula.empty.addAll

/-- Fetches a predefined formula. Its source is read the first time. -/
def get (r : Registry) (name : String) : Parsed Formula :=
  match r.cache.get? name with
  | some formula => ⟨.ok formula, r, []⟩
  | none =>
    match r.predefined.get? name with
    | none => ⟨.error (.fault (.lookup name)), r, []⟩
    | some source =>
      let (result, memo) :=
        Source.predefined (Source.atDepth r.toTables 0) name source { cache := r.cache }
      ⟨result.mapError (Halt.map .parse), { r with cache := memo.cache }, memo.skipped⟩

end Registry

/-- A formula after an edit, which may have come to its end or not. -/
structure Edited where
  formula : Formula
  /-- What kept the edit from its end. -/
  halt : Option (Halt Error)
  registry : Registry
  skipped : List Source.ParseError := []

namespace Edited

/-- The error that an edit returns. -/
def failure (e : Edited) : Option Error :=
  match e.halt with
  | some (.fault e) => some e
  | _ => none

/-- The outcome of an edit that reads no source. A fault leaves the formula as it was. -/
def ofResult (f : Formula) (r : Registry) : Except Error Formula → Edited
  | .ok edited => ⟨edited, none, r, []⟩
  | .error e => ⟨f, some (.fault e), r, []⟩

end Edited

namespace Formula

/-- Sets the text style by its name, or ends it. -/
def setTextStyle (f : Formula) (name : Option String) : Except Error Formula :=
  match name with
  | none => .ok { f with textStyle := none }
  | some name => (TextStyle.ofName name).map fun style => { f with textStyle := some style }

/-- Reads a source strictly and adds it as one atom, which ends the text style. A halt leaves the
formula as it was. -/
def addSource (f : Formula) (r : Registry) (source : String) : Edited :=
  let p := r.formula .strict source
  match p.result with
  | .ok other => ⟨({ f with textStyle := none } : Formula).addFormula other, none, p.registry, p.skipped⟩
  | .error e => ⟨f, some e, p.registry, p.skipped⟩

/-- Reads a source and adds its items one by one. A halt leaves the formula empty. -/
def append (f : Formula) (r : Registry) (mode : Source.Mode) (source : String) : Edited :=
  let p := r.read mode source
  match p.result with
  | .ok atoms => ⟨f.addAll atoms, none, p.registry, p.skipped⟩
  | .error e => ⟨.empty, some e, p.registry, p.skipped⟩

/-- Replaces the formula by the items of a source. A halt leaves it empty. -/
def setSource (r : Registry) (source : String) : Edited :=
  Formula.empty.append r .strict source

end Formula

end FormulaInk
