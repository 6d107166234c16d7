import FormulaInk.Dictionary
import FormulaInk.Document.Value

/-!
Records, tables and plain values in documents.

A record is written as an object, or as an array of its fields in order. Of an object, members that
are not fields are passed over, and no field stands twice. A table is an object, in which the last
value of a name counts.
-/

namespace FormulaInk.Document

namespace Value

/-- The value of a field that stands at most once among the members. -/
def member? (name : String) (members : List (Option String × Value)) : Option (Option Value) :=
  match members.filter (·.1 == some name) with
  | [] => some none
  | [(_, v)] => some (some v)
  | _ => none

/-- The values of the named fields, where they are present. The flag tells whether the record is
written as an array. -/
def fields? (names : List String) : Value → Option (Bool × List (Option Value))
  | .object members =>
    if members.any (·.1.isNone) then none
    else (names.mapM (member? · members)).map (false, ·)
  | .array items =>
    if names.length < items.length then none
    else some (true, items.map some ++ List.replicate (names.length - items.length) none)
  | _ => none

/-- A string. -/
def text? : Value → Option String
  | .string s => s
  | _ => none

/-- A string of one character. -/
def char? (v : Value) : Option Char := do
  match (← v.text?).toList with
  | [ch] => some ch
  | _ => none

/-- A truth value. -/
def bool? : Value → Option Bool
  | .bool b => some b
  | _ => none

/-- A natural number of 64 bits. -/
def nat? : Value → Option Nat
  | .number n => n.toNat?
  | _ => none

/-- A floating point number of 32 bits. -/
def float32? : Value → Option Float32
  | .number n => n.toFloat32?
  | _ => none

/-- A name without content: a string, or an object with the name and null. -/
def name? : Value → Option String
  | .string s => s
  | .object [(name, .null)] => name
  | _ => none

/-- A table, in which the last value of a name counts. -/
def table? {β : Type} (decode : Value → Option β) : Value → Option (Dictionary String β)
  | .object members => do
    let entries ← members.mapM fun (name, v) => do some (← name, ← decode v)
    some (.ofList entries)
  | _ => none

/-- A value that may be absent, or null in place of it. -/
def optional? {β : Type} (decode : Value → Option β) : Option Value → Option (Option β)
  | none | some .null => some none
  | some v => (decode v).map some

/-- A value that must be there. -/
def required? {β : Type} (decode : Value → Option β) (v : Option Value) : Option β := v.bind decode

end Value

end FormulaInk.Document
