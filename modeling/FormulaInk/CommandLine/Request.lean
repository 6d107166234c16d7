import FormulaInk.CommandLine.Argument
import FormulaInk.Decimal.Literal
import FormulaInk.Naming
import FormulaInk.Rendering
import FormulaInk.Source.Reading

/-!
Requests read from the arguments of the command line.

Arguments are read from left to right, and the first one that stops the reading decides: a fault in
the usage, or a question for help or for the version. What is missing is only noticed at the end.
-/

namespace FormulaInk.CommandLine

/-- The commands of the program. -/
inductive Command where
  | render
  | check
  deriving DecidableEq, Repr

/-- What the program is asked for. -/
inductive Request where
  /-- To render a formula into a file. -/
  | render (mode : Source.Mode) (formula : String) (format : ImageFormat)
      (options : RenderOptions) (path : String)
  /-- To tell how large a formula is. -/
  | check (mode : Source.Mode) (formula : String)

/-- What ends the reading of arguments early. -/
inductive Stop where
  /-- The arguments do not fit the program. -/
  | usage
  | help (command : Option Command)
  | version

/-- An option. -/
inductive Parameter where
  | help
  | version
  | verbose
  | lenient
  | transparent
  | output
  | format
  | size
  | style
  | foreground
  | background
  deriving DecidableEq, Repr

namespace Parameter

/-- Whether a value comes with the option. -/
def takesValue : Parameter → Bool
  | help | version | verbose | lenient | transparent => false
  | output | format | size | style | foreground | background => true

/-- The name of an option. -/
def name : Parameter → String
  | help => "help"
  | version => "version"
  | verbose => "verbose"
  | lenient => "partial"
  | transparent => "transparent"
  | output => "output"
  | format => "format"
  | size => "size"
  | style => "style"
  | foreground => "fg"
  | background => "bg"

/-- The letter of an option that has one. -/
def letter? : Parameter → Option Char
  | help => some 'h'
  | version => some 'V'
  | verbose => some 'v'
  | output => some 'o'
  | _ => none

/-- The options that may stand after a command, or before any. -/
def known : Option Command → List Parameter
  | none => [help, version, verbose]
  | some .check => [help, verbose, lenient]
  | some .render =>
    [help, verbose, lenient, transparent, output, format, size, style, foreground, background]

/-- The option of a name. -/
def ofName? (command : Option Command) (name : String) : Option Parameter :=
  (known command).find? (·.name == name)

/-- The option of a letter. -/
def ofLetter? (command : Option Command) (letter : Char) : Option Parameter :=
  (known command).find? (·.letter? == some letter)

end Parameter

namespace Command

/-- The command of a word. -/
def ofWord? : String → Option Command
  | "render" => some .render
  | "check" => some .check
  | _ => none

end Command

/-- What the arguments of a command have said so far. -/
structure Draft where
  formula : Option String := none
  output : Option String := none
  format : Option ImageFormat := none
  size : Option Float32 := none
  style : Option Style := none
  foreground : Option Color := none
  background : Option Color := none
  transparent : Bool := false
  lenient : Bool := false
  verbose : Bool := false

namespace Draft

/-- A value for what was not set before. -/
def once {β : Type} (old new : Option β) : Except Stop (Option β) :=
  if old.isNone && new.isSome then .ok new else .error .usage

/-- A flag that was not set before. -/
def onceTrue (old : Bool) : Except Stop Bool := if old then .error .usage else .ok true

/-- The draft with an option that takes no value. -/
def raise (d : Draft) (command : Option Command) : Parameter → Except Stop Draft
  | .help => .error (.help command)
  | .version => .error .version
  | .verbose => do return { d with verbose := ← onceTrue d.verbose }
  | .lenient => do return { d with lenient := ← onceTrue d.lenient }
  | .transparent => do return { d with transparent := ← onceTrue d.transparent }
  | _ => .error .usage

/-- The draft with the value of an option. A path is not empty. -/
def set (d : Draft) (value : String) : Parameter → Except Stop Draft
  | .output => do
    return { d with output := ← once d.output (if value.isEmpty then none else some value) }
  | .format => do return { d with format := ← once d.format (ImageFormat.ofName? value) }
  | .size => do return { d with size := ← once d.size (Decimal.float32? value.toList) }
  | .style => do return { d with style := ← once d.style (Style.ofLevelName? value) }
  | .foreground => do
    return { d with foreground := ← once d.foreground (Color.ofString value).toOption }
  | .background => do
    return { d with background := ← once d.background (Color.ofString value).toOption }
  | _ => .error .usage

/-- The draft with a plain argument: the formula. -/
def plain (d : Draft) (text : String) : Except Stop Draft := do
  return { d with formula := ← once d.formula (some text) }

/-- The draft with an option, whose value may come with it. Without one, the option that waits for
its value is told. -/
def long (d : Draft) (command : Option Command) (p : Parameter) (value : Option String) :
    Except Stop (Draft × Option Parameter) :=
  match p.takesValue, value with
  | true, some value => do return (← d.set value p, none)
  | true, none => .ok (d, some p)
  | false, none => do return (← d.raise command p, none)
  | false, some _ => .error .usage

/-- The draft with the options of letters. What follows the letter of an option with a value is the
value, less an equals sign in front. -/
def short (d : Draft) (command : Option Command) :
    List Char → Except Stop (Draft × Option Parameter)
  | [] => .ok (d, none)
  | c :: rest =>
    match Parameter.ofLetter? command c with
    | none => .error .usage
    | some p =>
      if p.takesValue then
        match rest with
        | [] => .ok (d, some p)
        | '=' :: value => do return (← d.set (String.ofList value) p, none)
        | value => do return (← d.set (String.ofList value) p, none)
      else do short (← d.raise command p) command rest

/-- The draft after all arguments of a command. -/
def read (command : Command) (d : Draft) : List String → Except Stop Draft
  | [] => .ok d
  | arg :: rest => do
    let (d, waiting) ← match Argument.ofText arg with
      | .endOfOptions => return ← rest.foldlM plain d
      | .plain text => pure (← d.plain text, none)
      | .short letters => d.short (some command) letters
      | .long name value =>
        match Parameter.ofName? (some command) name with
        | none => throw .usage
        | some p => d.long (some command) p value
    match waiting, rest with
    | none, rest => read command d rest
    | some _, [] => throw .usage
    | some p, value :: rest =>
      match Argument.ofText value with
      | .plain value => read command (← d.set value p) rest
      | _ => throw .usage

/-- How faults in the formula are treated. -/
def mode (d : Draft) : Source.Mode := if d.lenient then .lenient else .strict

/-- The request of a command. -/
def request (d : Draft) : Command → Except Stop Request
  | .check =>
    match d.formula with
    | some formula => .ok (.check d.mode formula)
    | none => .error .usage
  | .render =>
    match d.formula, d.output with
    | some formula, some path =>
      let options : RenderOptions :=
        { style := d.style.getD .display
          size := d.size.getD 20
          foreground := d.foreground
          background := d.background
          transparent := d.transparent || d.background.isNone }
      .ok (.render d.mode formula (d.format.getD .png) options path)
    | _, _ => .error .usage

end Draft

/-- What the arguments ask for, after flags that stand before the command. -/
def Request.after (d : Draft) : List String → Except Stop Request
  | [] => .error .usage
  | arg :: rest =>
    match Argument.ofText arg with
    | .endOfOptions => .error .usage
    | .short letters => do after (← d.short none letters).1 rest
    | .long name value =>
      match Parameter.ofName? none name with
      | none => .error .usage
      | some p => do after (← d.long none p value).1 rest
    | .plain "help" =>
      match rest with
      | [] => .error (.help none)
      | [word] =>
        match Command.ofWord? word, word with
        | some command, _ => .error (.help (some command))
        | none, "help" => .error (.help none)
        | none, _ => .error .usage
      | _ => .error .usage
    | .plain word =>
      match Command.ofWord? word with
      | none => .error .usage
      | some command => do (← Draft.read command {} rest).request command

/-- What the arguments ask for. -/
def Request.ofArguments (args : List String) : Except Stop Request := Request.after {} args

end FormulaInk.CommandLine
