import FormulaInk.Registry

/-!
The entries that every registry starts with.
-/

namespace FormulaInk.Registry.Defaults

/-- The symbols by class. -/
def symbols : List (String × Symbol) := [
  ("alpha", ⟨'α', .ordinary⟩), ("beta", ⟨'β', .ordinary⟩), ("gamma", ⟨'γ', .ordinary⟩),
  ("delta", ⟨'δ', .ordinary⟩), ("epsilon", ⟨'ϵ', .ordinary⟩), ("zeta", ⟨'ζ', .ordinary⟩),
  ("eta", ⟨'η', .ordinary⟩), ("theta", ⟨'θ', .ordinary⟩), ("kappa", ⟨'κ', .ordinary⟩),
  ("lambda", ⟨'λ', .ordinary⟩), ("mu", ⟨'μ', .ordinary⟩), ("nu", ⟨'ν', .ordinary⟩),
  ("xi", ⟨'ξ', .ordinary⟩), ("pi", ⟨'π', .ordinary⟩), ("rho", ⟨'ρ', .ordinary⟩),
  ("sigma", ⟨'σ', .ordinary⟩), ("tau", ⟨'τ', .ordinary⟩), ("phi", ⟨'ϕ', .ordinary⟩),
  ("chi", ⟨'χ', .ordinary⟩), ("psi", ⟨'ψ', .ordinary⟩), ("omega", ⟨'ω', .ordinary⟩),
  ("Gamma", ⟨'Γ', .ordinary⟩), ("Delta", ⟨'Δ', .ordinary⟩), ("Theta", ⟨'Θ', .ordinary⟩),
  ("Lambda", ⟨'Λ', .ordinary⟩), ("Pi", ⟨'Π', .ordinary⟩), ("Sigma", ⟨'Σ', .ordinary⟩),
  ("Phi", ⟨'Φ', .ordinary⟩), ("Psi", ⟨'Ψ', .ordinary⟩), ("Omega", ⟨'Ω', .ordinary⟩),
  ("infty", ⟨'∞', .ordinary⟩), ("partial", ⟨'∂', .ordinary⟩), ("nabla", ⟨'∇', .ordinary⟩),
  ("ldots", ⟨'…', .inner⟩), ("cdots", ⟨'⋯', .inner⟩), ("prime", ⟨'′', .ordinary⟩),
  ("vert", ⟨'|', .ordinary⟩), ("slash", ⟨'/', .ordinary⟩), ("plus", ⟨'+', .binaryOperator⟩),
  ("minus", ⟨'−', .binaryOperator⟩), ("times", ⟨'×', .binaryOperator⟩),
  ("div", ⟨'÷', .binaryOperator⟩), ("cdot", ⟨'⋅', .binaryOperator⟩),
  ("pm", ⟨'±', .binaryOperator⟩), ("mp", ⟨'∓', .binaryOperator⟩),
  ("ast", ⟨'∗', .binaryOperator⟩), ("equals", ⟨'=', .relation⟩), ("lt", ⟨'<', .relation⟩),
  ("gt", ⟨'>', .relation⟩), ("leq", ⟨'≤', .relation⟩), ("geq", ⟨'≥', .relation⟩),
  ("neq", ⟨'≠', .relation⟩), ("approx", ⟨'≈', .relation⟩), ("equiv", ⟨'≡', .relation⟩),
  ("sim", ⟨'∼', .relation⟩), ("in", ⟨'∈', .relation⟩), ("subset", ⟨'⊂', .relation⟩),
  ("to", ⟨'→', .relation⟩), ("rightarrow", ⟨'→', .relation⟩), ("leftarrow", ⟨'←', .relation⟩),
  ("Rightarrow", ⟨'⇒', .relation⟩), ("Leftrightarrow", ⟨'⇔', .relation⟩),
  ("colon", ⟨':', .relation⟩), ("sum", ⟨'∑', .bigOperator⟩), ("prod", ⟨'∏', .bigOperator⟩),
  ("int", ⟨'∫', .bigOperator⟩), ("oint", ⟨'∮', .bigOperator⟩), ("lbrack", ⟨'(', .opening⟩),
  ("rbrack", ⟨')', .closing⟩), ("lsqbrack", ⟨'[', .opening⟩), ("rsqbrack", ⟨']', .closing⟩),
  ("lbrace", ⟨'{', .opening⟩), ("rbrace", ⟨'}', .closing⟩), ("langle", ⟨'⟨', .opening⟩),
  ("rangle", ⟨'⟩', .closing⟩), ("comma", ⟨',', .punctuation⟩),
  ("semicolon", ⟨';', .punctuation⟩), ("faculty", ⟨'!', .closing⟩)]

/-- The characters that stand for symbols. -/
def mappings : List (Char × String) := [
  ('+', "plus"), ('-', "minus"), ('*', "ast"), ('=', "equals"), ('<', "lt"), ('>', "gt"),
  (':', "colon"), ('(', "lbrack"), (')', "rbrack"), ('[', "lsqbrack"), (']', "rsqbrack"),
  (',', "comma"), (';', "semicolon"), ('|', "vert"), ('/', "slash"), ('!', "faculty"),
  ('\'', "prime"), ('×', "times"), ('±', "pm"), ('≤', "leq"), ('≥', "geq"), ('≠', "neq"),
  ('∞', "infty")]

/-- The characters that stand for sources. -/
def charFormulas : List (Char × String) := [
  ('½', "\\frac\x7b1\x7d\x7b2\x7d"), ('⅓', "\\frac\x7b1\x7d\x7b3\x7d"),
  ('¼', "\\frac\x7b1\x7d\x7b4\x7d"), ('¾', "\\frac\x7b3\x7d\x7b4\x7d")]

/-- The commands that are defined by text. -/
def commands : List (String × TextCommand) := [
  ("half", ⟨0, "\\frac\x7b1\x7d\x7b2\x7d"⟩), ("abs", ⟨1, "\\vert #1\\vert"⟩),
  ("norm", ⟨1, "\\vert\\vert #1\\vert\\vert"⟩), ("inv", ⟨1, "\x7b#1\x7d^\x7b-1\x7d"⟩),
  ("tfrac", ⟨2, "\\scalebox\x7b0.7\x7d\x7b\\frac\x7b#1\x7d\x7b#2\x7d\x7d"⟩),
  ("boxed", ⟨1, "\\fbox\x7b#1\x7d"⟩)]

/-- The predefined formulas. -/
def predefined : List (String × String) := [
  ("implies", "\\;\\Rightarrow\\;"), ("iff", "\\;\\Leftrightarrow\\;"), ("dotsc", "\\ldots"),
  ("log", "\\mathrm\x7blog\x7d"), ("ln", "\\mathrm\x7bln\x7d"), ("exp", "\\mathrm\x7bexp\x7d"),
  ("sin", "\\mathrm\x7bsin\x7d"), ("cos", "\\mathrm\x7bcos\x7d"), ("tan", "\\mathrm\x7btan\x7d"),
  ("lim", "\\mathrm\x7blim\x7d"), ("max", "\\mathrm\x7bmax\x7d"), ("min", "\\mathrm\x7bmin\x7d")]

end FormulaInk.Registry.Defaults

namespace FormulaInk.Registry

/-- The registry with the standard entries. -/
def defaults : Registry :=
  { symbols := ⟨Defaults.symbols⟩
    mappings := ⟨Defaults.mappings⟩
    charFormulas := ⟨Defaults.charFormulas⟩
    commands := ⟨Defaults.commands⟩
    predefined := ⟨Defaults.predefined⟩ }

end FormulaInk.Registry
