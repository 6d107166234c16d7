import FormulaInk.Decimal.Text
import FormulaInk.Icon.Config
import FormulaInk.Image.Fault
import FormulaInk.Source.Fault

/-!
Everything that can go wrong, and the words for it.
-/

namespace FormulaInk

/-- A request that makes no sense, or comes at the wrong time. -/
inductive Misuse where
  | color (fault : Color.Fault)
  | styleCode (code : Int)
  | styleName (name : String)
  | alignmentName (name : String)
  | blockName (name : String)
  | textStyleName (name : String)
  | build (fault : Icon.Config.Fault Float32)

/-- The description of what keeps an icon from being built. -/
def buildMessage : Icon.Config.Fault Float32 → String
  | .styleMissing => "A style is required. Use style()"
  | .sizeMissing => "A size is required. Use size()"
  | .size value => "Size must be positive, got " ++ Decimal.text32 value
  | .pixelsPerPoint density => "Pixels per point must be positive, got " ++ Decimal.text32 density
  | .scale value density =>
    "Size " ++ Decimal.text32 value ++ " at " ++ Decimal.text32 density ++
      " pixels per point exceeds " ++ toString Icon.Config.mostPixelsPerEm ++ " pixels per em"
  | .width value => "Width must be non-negative, got " ++ Decimal.text32 value
  | .maxWidthWithoutWidth => "Cannot set 'is_max_width' without having specified a width"
  | .interlineWithoutWidth => "Cannot set inter line spacing without having specified a width"

/-- The description of a misuse. -/
def Misuse.message : Misuse → String
  | color reason => reason.message
  | styleCode code => "Invalid style code " ++ toString code
  | styleName name => "Unknown style '" ++ name ++ "'"
  | alignmentName name => "Unknown alignment '" ++ name ++ "'"
  | blockName name => "Unknown Unicode block '" ++ name ++ "'"
  | textStyleName name => "Unknown text style '" ++ name ++ "'"
  | build fault => buildMessage fault

/-- Why a document cannot be merged into a registry. -/
inductive ResourceFault where
  /-- The document is not of the form of its kind. -/
  | malformed
  /-- A key of a character table is not one character. -/
  | key (key : String)
  /-- A character is mapped to a symbol that is not there. -/
  | symbol (key name : String)

/-- The description of a fault. -/
def ResourceFault.message : ResourceFault → String
  | malformed => "malformed document"
  | key text => "mapping key '" ++ text ++ "' is not a single character"
  | symbol text name => "'" ++ text ++ "' maps to unknown symbol '" ++ name ++ "'"

/-- Everything that can go wrong. -/
inductive Error where
  | parse (e : Source.ParseError)
  | configuration (misuse : Misuse)
  /-- A name that no predefined formula has. -/
  | lookup (name : String)
  | unit (code : Int)
  | atomClass (code : Int)
  | resource (name : String) (fault : ResourceFault)
  | render (fault : RenderFault)
  | encode (fault : EncodeFault)
  /-- A file that cannot be written, and why. -/
  | unwritable (path reason : String)

namespace Error

/-- The description of an error. -/
def message : Error → String
  | parse e => e.message
  | configuration misuse => "Configuration error: " ++ misuse.message
  | lookup name => "Predefined formula not found: " ++ name
  | unit code => "Invalid unit: " ++ toString code
  | atomClass code => "Invalid atom type: " ++ toString code
  | resource name fault => "Invalid resource '" ++ name ++ "': " ++ fault.message
  | render fault => "Render error: " ++ fault.message
  | encode fault => "Image encoding error: " ++ fault.message
  | unwritable path reason => "Cannot write " ++ path ++ ": " ++ reason

end Error

end FormulaInk
