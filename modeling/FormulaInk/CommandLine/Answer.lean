import FormulaInk.CommandLine.Request
import FormulaInk.Registry.Defaults

/-!
What the program answers to its arguments: an exit code, what it prints, and the file it writes.
-/

namespace FormulaInk.CommandLine

/-- The name of the program. -/
def programName : String := "texform"

/-- The version of the program. -/
def programVersion : String := "0.1.0"

/-- The outcome of a run. -/
structure Answer where
  code : Nat
  /-- What is printed. -/
  stdout : String := ""
  /-- What is printed as an error. -/
  stderr : String := ""
  /-- The file that was written, and its path. -/
  file : Option (String × Encoded) := none

namespace Answer

/-- Texts one below the other. -/
def unlines (lines : List String) : String := String.join (lines.map (· ++ "\n"))

/-- How the program is used. -/
def usage : Option Command → String
  | none => unlines [
      "Usage: " ++ programName ++ " [OPTIONS] <COMMAND>", "",
      "Commands:",
      "  render  Render a formula to an image file",
      "  check   Parse a formula and report its layout size",
      "  help    Print this message or the help of a command", "",
      "Options:",
      "  -v, --verbose  Enable verbose logging",
      "  -h, --help     Print help",
      "  -V, --version  Print version"]
  | some .render => unlines [
      "Usage: " ++ programName ++ " render [OPTIONS] --output <OUTPUT> <FORMULA>", "",
      "Options:",
      "  -o, --output <OUTPUT>  Output file",
      "      --format <FORMAT>  Encoder name (png, gif, jpeg), by default png",
      "      --size <SIZE>      Font size in points, by default 20",
      "      --style <STYLE>    display, text, script or scriptscript, by default display",
      "      --fg <FG>          Foreground color (name or #rrggbb)",
      "      --bg <BG>          Background color (name or #rrggbb)",
      "      --transparent      Keep the background transparent",
      "      --partial          Skip sub-expressions that fail to parse",
      "  -v, --verbose          Enable verbose logging",
      "  -h, --help             Print help"]
  | some .check => unlines [
      "Usage: " ++ programName ++ " check [OPTIONS] <FORMULA>", "",
      "Options:",
      "      --partial  Skip sub-expressions that fail to parse",
      "  -v, --verbose  Enable verbose logging",
      "  -h, --help     Print help"]

/-- The lines of a text after the first one moved to the right. -/
def indentRest (indent : Nat) (text : String) : String :=
  String.ofList <| text.toList.flatMap fun c =>
    c :: if c = '\n' then List.replicate indent ' ' else []

/-- The descriptions of an error and of what lies behind it. -/
def causes : Error → List String
  | .unwritable path reason => [(Error.unwritable path reason).message, reason]
  | e => [e.message]

/-- What lies behind a failure. More than one cause are numbered. -/
def causeLines : List String → List String
  | [cause] => ["    " ++ indentRest 4 cause]
  | causes => causes.mapIdx fun i cause => "    " ++ toString i ++ ": " ++ indentRest 7 cause

/-- A failure of what the program was doing. -/
def failure (doing : String) (e : Error) : Answer :=
  { code := 1
    stderr := unlines (("Error: " ++ doing) :: "" :: "Caused by:" :: causeLines (causes e)) }

/-- The exit code after a panic. -/
def panicCode : Nat := 101

/-- What is left of a run that did not come to its end. What is printed about a panic is not part of
the answer. -/
def ofHalt (doing : String) : Halt Error → Answer
  | .fault e => failure doing e
  | .panic _ => { code := panicCode }

/-- The answer to arguments that end the reading early. -/
def ofStop : Stop → Answer
  | .usage => { code := 2, stderr := usage none }
  | .help command => { code := 0, stdout := usage command }
  | .version => { code := 0, stdout := unlines [programName ++ " " ++ programVersion] }

/-- The size of a formula in words. -/
def sizeReport (f : Formula) (i : Icon Float32) : String :=
  let leaves := (f.root.map Atom.leaves).getD []
  "ok: " ++ toString leaves.length ++ " atoms, " ++ toString i.width ++ "x" ++
    toString i.height ++ " px at 20pt" ++ if f.colored then ", colored" else ""

/-- The answer to a request for the size of a formula. -/
def check (f : Formula) : Answer :=
  match f.icon { Icon.Config.standard with
      style := some .display, size := some 20, trueValues := true } with
  | .ok built => { code := 0, stdout := unlines [sizeReport f built.icon] }
  | .error e => { code := 1, stderr := unlines ["Error: " ++ e.message] }

/-- The answer to a request for a file. -/
def render (f : Formula) (format : ImageFormat) (options : RenderOptions)
    (hindrance : String → Option String) (path : String) : Answer :=
  match do ((← f.encode format options).save hindrance false path).mapError .fault with
  | .ok e => { code := 0, file := e.map (path, ·) }
  | .error e => ofHalt ("Failed to render to " ++ path) e

/-- The answer to a request, given what hinders the writing of a path. -/
def ofRequest (registry : Registry) (hindrance : String → Option String) : Request → Answer
  | .check mode source => answerOn mode source check
  | .render mode source format options path =>
    answerOn mode source fun f => render f format options hindrance path
where
  /-- The answer about a formula, or the fault in it. -/
  answerOn (mode : Source.Mode) (source : String) (answer : Formula → Answer) : Answer :=
    match (registry.formula mode source).result with
    | .ok f => answer f
    | .error e => ofHalt ("Failed to parse '" ++ source ++ "'") e

/-- The answer to arguments. -/
def ofArguments (hindrance : String → Option String) (args : List String) : Answer :=
  match Request.ofArguments args with
  | .ok request => ofRequest .defaults hindrance request
  | .error stop => ofStop stop

end Answer

end FormulaInk.CommandLine
