import FormulaInk.CommandLine.Answer
import FormulaInk.Image.File

/-!
The program: it answers its arguments, writes the file of the answer and prints its texts.
-/

open FormulaInk.CommandLine

/-- What the system says about a failure, and its number. -/
def reasonOf : IO.Error → String
  | .alreadyExists _ n s | .invalidArgument _ n s | .permissionDenied _ n s
  | .resourceExhausted _ n s | .inappropriateType _ n s | .noSuchThing _ n s
  | .interrupted _ n s | .noFileOrDirectory _ n s
  | .otherError n s | .resourceBusy n s | .resourceVanished n s | .unsupportedOperation n s
  | .hardwareFault n s | .unsatisfiedConstraints n s | .illegalOperation n s | .protocolError n s
  | .timeExpired n s => s ++ " (os error " ++ toString n ++ ")"
  | e => toString e

/-- Writes the file of an answer. It gives the reason if it cannot be written. -/
def write (a : Answer) : IO (Option String) := do
  match a.file with
  | none => return none
  | some (path, picture) =>
    try
      IO.FS.writeBinFile path picture.file
      return none
    catch e => return some (reasonOf e)

/-- Runs the program on its arguments. -/
def main (args : List String) : IO UInt32 := do
  let answer := Answer.ofArguments (fun _ => none) args
  let answer ←
    match ← write answer with
    | none => pure answer
    | some reason => pure (Answer.ofArguments (fun _ => some reason) args)
  IO.print answer.stdout
  IO.eprint answer.stderr
  return UInt32.ofNat answer.code
