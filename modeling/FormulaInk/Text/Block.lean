/-!
The blocks of characters that can be given font families of their own.
-/

namespace FormulaInk.Text

/-- A group of Unicode blocks. -/
inductive Block where
  | basicLatin
  | latin1Supplement
  | latinExtended
  | greek
  | cyrillic
  | hebrew
  | arabic
  | devanagari
  | thai
  | hangul
  | hiragana
  | katakana
  | cjkUnified
  | mathematicalOperators
  | other
  deriving DecidableEq, Repr

namespace Block

/-- The block of a character. -/
def ofChar (c : Char) : Block :=
  let n := c.toNat
  let within (first last : Nat) : Bool := first ≤ n && n ≤ last
  if within 0x0000 0x007f then basicLatin
  else if within 0x0080 0x00ff then latin1Supplement
  else if within 0x0100 0x024f || within 0x1e00 0x1eff then latinExtended
  else if within 0x0370 0x03ff || within 0x1f00 0x1fff then greek
  else if within 0x0400 0x052f then cyrillic
  else if within 0x0590 0x05ff then hebrew
  else if within 0x0600 0x06ff || within 0x0750 0x077f then arabic
  else if within 0x0900 0x097f then devanagari
  else if within 0x0e00 0x0e7f then thai
  else if within 0x1100 0x11ff || within 0xac00 0xd7af then hangul
  else if within 0x3040 0x309f then hiragana
  else if within 0x30a0 0x30ff then katakana
  else if within 0x4e00 0x9fff || within 0x3400 0x4dbf then cjkUnified
  else if within 0x2200 0x22ff then mathematicalOperators
  else other

/-- The name of a block. -/
def name : Block → String
  | basicLatin => "basic_latin"
  | latin1Supplement => "latin1_supplement"
  | latinExtended => "latin_extended"
  | greek => "greek"
  | cyrillic => "cyrillic"
  | hebrew => "hebrew"
  | arabic => "arabic"
  | devanagari => "devanagari"
  | thai => "thai"
  | hangul => "hangul"
  | hiragana => "hiragana"
  | katakana => "katakana"
  | cjkUnified => "cjk_unified"
  | mathematicalOperators => "mathematical_operators"
  | other => "other"

/-- Every block. -/
def all : List Block :=
  [basicLatin, latin1Supplement, latinExtended, greek, cyrillic, hebrew, arabic, devanagari, thai,
    hangul, hiragana, katakana, cjkUnified, mathematicalOperators, other]

/-- The block of a name. -/
def ofName? (s : String) : Option Block := all.find? (·.name == s)

end Block

end FormulaInk.Text
