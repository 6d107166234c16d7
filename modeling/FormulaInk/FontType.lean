/-!
Font types: sets of style bits. The empty set is the serif font.
-/

namespace FormulaInk

/-- A set of font style bits. -/
structure FontType where
  bits : UInt8
  deriving DecidableEq, Repr

namespace FontType

def serif : FontType := ⟨0⟩
def sansSerif : FontType := ⟨1⟩
def bold : FontType := ⟨2⟩
def italic : FontType := ⟨4⟩
def roman : FontType := ⟨8⟩
def typewriter : FontType := ⟨16⟩

/-- The type of the bits that have a meaning. -/
def ofBits (bits : UInt8) : FontType := ⟨bits &&& 0x1f⟩

/-- The type with the bits of both. -/
def union (s t : FontType) : FontType := ⟨s.bits ||| t.bits⟩

/-- Whether `s` has all bits of `t`, and `t` has any. -/
def contains (s t : FontType) : Bool := t.bits != 0 && s.bits &&& t.bits == t.bits

def isSerif (t : FontType) : Bool := t.bits == 0

/-- The names of the bits, joined by plus signs. -/
def text (t : FontType) : String :=
  if t.isSerif then "serif"
  else
    "+".intercalate <|
      ([(sansSerif, "sans"), (bold, "bold"), (italic, "italic"), (roman, "roman"),
        (typewriter, "tt")].filter fun (flag, _) => t.contains flag).map (·.2)

end FontType

/-- The font families of text runs, for the plain and for the sans-serif font. -/
structure Families where
  sansSerif : String
  serif : String
  deriving DecidableEq, Repr

/-- The families of text in a block without a registered font. -/
def Families.standard : Families := ⟨"SansSerif", "Serif"⟩

/-- A style that the letters of a formula can be set in by name. -/
inductive TextStyle where
  | roman
  | bold
  | italic
  | sansSerif
  | typewriter
  | normal
  deriving DecidableEq, Repr

namespace TextStyle

/-- Every text style. -/
def all : List TextStyle := [roman, bold, italic, sansSerif, typewriter, normal]

/-- The name of a text style. -/
def name : TextStyle → String
  | roman => "mathrm"
  | bold => "mathbf"
  | italic => "mathit"
  | sansSerif => "mathsf"
  | typewriter => "mathtt"
  | normal => "mathnormal"

/-- The text style of a name. -/
def ofName? (s : String) : Option TextStyle := all.find? (·.name == s)

/-- The font type that a text style selects. -/
def font : TextStyle → FontType
  | roman => .roman
  | bold => .bold
  | italic => .italic
  | sansSerif => .sansSerif
  | typewriter => .typewriter
  | normal => .serif

end TextStyle

end FormulaInk
