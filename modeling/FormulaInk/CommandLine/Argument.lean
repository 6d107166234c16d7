/-!
Arguments by their look: options with one or two hyphens in front, the end of the options, and plain
texts.
-/

namespace FormulaInk.CommandLine

/-- An argument by its look. -/
inductive Argument where
  /-- Two hyphens, after which every argument is plain. -/
  | endOfOptions
  /-- The name of an option, perhaps with its value behind an equals sign. -/
  | long (name : String) (value : Option String)
  /-- The letters of options after a single hyphen; the value of one may follow its letter. -/
  | short (letters : List Char)
  | plain (text : String)
  deriving DecidableEq, Repr

namespace Argument

/-- An option by its name: what stands before and after the first equals sign. -/
def ofLong (cs : List Char) : Argument :=
  let name := String.ofList (cs.takeWhile (· ≠ '='))
  match cs.dropWhile (· ≠ '=') with
  | [] => .long name none
  | _ :: value => .long name (some (String.ofList value))

/-- The look of an argument. A single hyphen is a plain text. -/
def ofText (text : String) : Argument :=
  match text.toList with
  | ['-', '-'] => .endOfOptions
  | '-' :: '-' :: cs => ofLong cs
  | '-' :: c :: cs => .short (c :: cs)
  | _ => .plain text

end Argument

end FormulaInk.CommandLine
