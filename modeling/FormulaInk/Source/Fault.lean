import FormulaInk.Color

/-!
Why a source cannot be read, and where.
-/

namespace FormulaInk.Source

/-- What a nested source was read for. -/
inductive Origin where
  | character (ch : Char)
  | command (name : String)
  deriving DecidableEq, Repr

/-- How reports name the origin of a nested source. -/
def Origin.text : Origin → String
  | character ch => "'" ++ String.singleton ch ++ "'"
  | command name => "\\" ++ name

/-- Why a source cannot be read. -/
inductive Fault where
  /-- The source ends inside a group. -/
  | unclosed (close : Char)
  | unmatchedBrace
  | doubleSuperscript
  | doubleSubscript
  | missingArgument
  /-- A character that has no meaning by itself. -/
  | unexpected (ch : Char)
  /-- Definitions are nested beyond the limit. -/
  | tooDeep
  /-- A backslash ends the source. -/
  | missingName
  | unknownCommand (name : String)
  | badNumber (text : String)
  | badLength (text : String)
  | badColor (fault : Color.Fault)
  | missingDelimiter
  | unknownDelimiter (name : String)
  /-- A nested source is at fault. -/
  | within (origin : Origin) (fault : Fault)
  deriving DecidableEq, Repr

/-- The description of a fault. -/
def Fault.message : Fault → String
  | unclosed close => "Missing '" ++ String.singleton close ++ "'"
  | unmatchedBrace => "Unmatched '\x7d'"
  | doubleSuperscript => "Double superscript"
  | doubleSubscript => "Double subscript"
  | missingArgument => "Missing argument"
  | unexpected ch => "Unexpected '" ++ String.singleton ch ++ "'"
  | tooDeep => "Expansion nested too deeply"
  | missingName => "Missing command name after '\\'"
  | unknownCommand name => "Unknown command '\\" ++ name ++ "'"
  | badNumber text => "Invalid number '" ++ text ++ "'"
  | badLength text => "Invalid length '" ++ text ++ "'"
  | badColor fault => "Configuration error: " ++ fault.message
  | missingDelimiter => "Missing delimiter"
  | unknownDelimiter name => "Unknown delimiter '\\" ++ name ++ "'"
  | within origin fault => "in " ++ origin.text ++ ": " ++ fault.message

/-- A fault with the offset at which it is reported. -/
structure ParseError where
  offset : Nat
  fault : Fault
  deriving DecidableEq, Repr

/-- The description of a fault with its offset. -/
def ParseError.message (e : ParseError) : String :=
  "Parse error at offset " ++ toString e.offset ++ ": " ++ e.fault.message

/-- What happens at a fault. -/
inductive Mode where
  /-- The first fault ends the reading. -/
  | strict
  /-- Faulty parts become empty atoms. -/
  | lenient
  deriving DecidableEq, Repr

end FormulaInk.Source
