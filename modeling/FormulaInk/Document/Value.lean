import FormulaInk.Decimal.Literal

/-!
JSON documents as trees.

The reader accepts exactly one value with blanks around it. A string that holds half of a surrogate
pair is a value without text: it may stand where its text is not needed.
-/

namespace FormulaInk.Document

/-- A number as it is written. -/
structure Number where
  negative : Bool
  whole : List Char
  fraction : List Char
  /-- The sign and the digits of the exponent, if there is one. -/
  exponent : Option (Bool × List Char)

/-- A JSON value. The members of an object keep their order and may repeat a name. -/
inductive Value where
  | null
  | bool (b : Bool)
  | number (n : Number)
  | string (text : Option String)
  | array (items : List Value)
  | object (members : List (Option String × Value))

namespace Number

/-- The largest number of 64 bits. -/
def wordMax : Nat := UInt64.size - 1

/-- The number as a natural number of 64 bits, if it is written as one. -/
def toNat? (n : Number) : Option Nat :=
  if n.negative || !n.fraction.isEmpty || n.exponent.isSome then none
  else
    let value := Decimal.ofDigits 0 n.whole
    if value ≤ wordMax then some value else none

/-- The leading digits that fit 64 bits, and how many digits are left over. -/
def significand (acc : Nat) : List Char → Nat × List Char
  | [] => (acc, [])
  | d :: rest =>
    let next := 10 * acc + (d.toNat - '0'.toNat)
    if next ≤ wordMax then significand next rest else (acc, d :: rest)

/-- The quotient or product of a number with a power of ten, in steps that a 64-bit number can hold.
There is none beyond the range. -/
def scaled (f : Float) (e : Int) : Nat → Option Float
  | 0 => none
  | steps + 1 =>
    if e.natAbs ≤ 308 then
      let power := Float.ofScientific 1 false e.natAbs
      if 0 ≤ e then if (f * power).isInf then none else some (f * power) else some (f / power)
    else if f == 0 then some f
    else if 0 ≤ e then none
    else scaled (f / Float.ofScientific 1 false 308) (e + 308) steps

/-- The number as a 64-bit floating point number: the digits that fit a 64-bit word, times or over a
power of ten. There is none beyond the range. -/
def toFloat? (n : Number) : Option Float := do
  let (whole, spare) := significand 0 n.whole
  let (digits, rest) := if spare.isEmpty then significand whole n.fraction else (whole, n.fraction)
  let places : Int := spare.length - (if spare.isEmpty then n.fraction.length - rest.length else 0)
  let size ← match n.exponent with
    | none => scaled (Float.ofNat digits) places 10
    | some (negative, ds) =>
      let e := Decimal.ofDigits 0 ds
      if 0x7fffffff < e then
        if digits ≠ 0 ∧ ¬negative then none else some (Float.ofNat 0)
      else scaled (Float.ofNat digits) (places + if negative then -(e : Int) else e) 10
  some (if n.negative then -size else size)

/-- The number as a 32-bit floating point number. -/
def toFloat32? (n : Number) : Option Float32 :=
  let value := Decimal.ofDigits 0 n.whole
  if n.fraction.isEmpty && n.exponent.isNone && value ≤ if n.negative then 0x8000000000000000 else wordMax then
    some (if n.negative then -Float32.ofNat value else Float32.ofNat value)
  else n.toFloat?.map narrow

end Number

/-- Blanks between the parts of a document. -/
def isSpace (c : Char) : Bool := c == ' ' || c == '\n' || c == '\t' || c == '\r'

/-- A text without the blanks in front. -/
def skipSpace (cs : List Char) : List Char := cs.dropWhile isSpace

theorem length_skipSpace_le (cs : List Char) : (skipSpace cs).length ≤ cs.length :=
  (List.dropWhile_suffix isSpace).length_le

theorem length_lt_of_skipSpace {cs rest : List Char} {c : Char} (h : skipSpace cs = c :: rest) :
    rest.length < cs.length := by
  have le := length_skipSpace_le cs
  rw [h, List.length_cons] at le
  exact le

/-- The value of a hexadecimal digit. -/
def hexValue? (c : Char) : Option Nat :=
  if '0' ≤ c ∧ c ≤ '9' then some (c.toNat - '0'.toNat)
  else if 'a' ≤ c ∧ c ≤ 'f' then some (c.toNat - 'a'.toNat + 10)
  else if 'A' ≤ c ∧ c ≤ 'F' then some (c.toNat - 'A'.toNat + 10)
  else none

/-- The unit of four hexadecimal digits. -/
def hexUnit? (a b c d : Char) : Option Nat :=
  match hexValue? a, hexValue? b, hexValue? c, hexValue? d with
  | some a, some b, some c, some d => some (((16 * a + b) * 16 + c) * 16 + d)
  | _, _, _, _ => none

/-- The unit of a character after a backslash. -/
def escape? : Char → Option Nat
  | '"' => some 0x22
  | '\\' => some 0x5C
  | '/' => some 0x2F
  | 'b' => some 8
  | 'f' => some 12
  | 'n' => some 10
  | 'r' => some 13
  | 't' => some 9
  | _ => none

/-- The units of a string after its opening quote, as code points or halves of surrogate pairs, and
what follows the closing quote. -/
def stringUnits : List Char → Option (List Nat × List Char)
  | [] => none
  | '"' :: rest => some ([], rest)
  | '\\' :: 'u' :: a :: b :: c :: d :: rest =>
    match hexUnit? a b c d, stringUnits rest with
    | some unit, some (units, after) => some (unit :: units, after)
    | _, _ => none
  | '\\' :: e :: rest =>
    match escape? e, stringUnits rest with
    | some unit, some (units, after) => some (unit :: units, after)
    | _, _ => none
  | c :: rest =>
    if c.toNat < 0x20 || c = '\\' then none
    else
      match stringUnits rest with
      | some (units, after) => some (c.toNat :: units, after)
      | none => none

/-- The characters of units, with surrogate pairs joined. There are none if half of a pair stands
alone. -/
def joinUnits : List Nat → Option (List Char)
  | [] => some []
  | u :: rest =>
    if 0xD800 ≤ u ∧ u < 0xDC00 then
      match rest with
      | v :: rest =>
        if 0xDC00 ≤ v ∧ v < 0xE000 then
          (joinUnits rest).map (Char.ofNat (0x10000 + (u - 0xD800) * 0x400 + (v - 0xDC00)) :: ·)
        else none
      | [] => none
    else if 0xDC00 ≤ u ∧ u < 0xE000 then none
    else (joinUnits rest).map (Char.ofNat u :: ·)

theorem length_stringUnits {cs after : List Char} {units : List Nat}
    (h : stringUnits cs = some (units, after)) : after.length < cs.length := by
  fun_induction stringUnits cs generalizing units after <;> simp_all <;> omega

/-- The exponent of a number, if there is one, and what follows it. -/
def exponent? : List Char → Option (Option (Bool × List Char) × List Char)
  | 'e' :: rest | 'E' :: rest =>
    let (negative, rest) := match rest with
      | '-' :: rest => (true, rest)
      | '+' :: rest => (false, rest)
      | rest => (false, rest)
    let ds := rest.takeWhile Char.isDigit
    if ds.isEmpty then none else some (some (negative, ds), rest.dropWhile Char.isDigit)
  | rest => some (none, rest)

/-- The number at the front of a text, and what follows it. A whole part of several digits does not
start with a zero. -/
def number? (cs : List Char) : Option (Number × List Char) := do
  let (negative, cs) := match cs with
    | '-' :: rest => (true, rest)
    | rest => (false, rest)
  let whole := cs.takeWhile Char.isDigit
  if whole.isEmpty || (whole.head? == some '0' && 1 < whole.length) then none
  else
    let rest := cs.dropWhile Char.isDigit
    let (fraction, rest) ← match rest with
      | '.' :: rest =>
        let ds := rest.takeWhile Char.isDigit
        if ds.isEmpty then none else some (ds, rest.dropWhile Char.isDigit)
      | rest => some ([], rest)
    let (exponent, rest) ← exponent? rest
    some (⟨negative, whole, fraction, exponent⟩, rest)

/-- What follows a part of the text `cs`: fewer characters than `cs` has. -/
abbrev Rest (cs : List Char) := { rest : List Char // rest.length < cs.length }

/-- A rest, if it is shorter than the text. -/
def rest? (cs rest : List Char) : Option (Rest cs) :=
  if h : rest.length < cs.length then some ⟨rest, h⟩ else none

/-- What follows a fixed word. -/
def word? (word : String) (cs : List Char) : Option (List Char) :=
  if cs.take word.length = word.toList then some (cs.drop word.length) else none

mutual

/-- Reads a value. -/
def value? (cs : List Char) : Option (Value × Rest cs) :=
  match h : skipSpace cs with
  | [] => none
  | c :: rest =>
    have shorter := length_lt_of_skipSpace h
    if c = '{' then do
      let (members, after) ← members? true rest
      some (.object members, ⟨after.1, Nat.lt_trans after.2 shorter⟩)
    else if c = '[' then do
      let (items, after) ← items? true rest
      some (.array items, ⟨after.1, Nat.lt_trans after.2 shorter⟩)
    else if c = '"' then
      match hs : stringUnits rest with
      | none => none
      | some (units, after) =>
        some (.string ((joinUnits units).map String.ofList),
          ⟨after, Nat.lt_trans (length_stringUnits hs) shorter⟩)
    else if c = 'n' then do
      let after ← rest? cs (← word? "ull" rest)
      some (.null, after)
    else if c = 't' then do
      let after ← rest? cs (← word? "rue" rest)
      some (.bool true, after)
    else if c = 'f' then do
      let after ← rest? cs (← word? "alse" rest)
      some (.bool false, after)
    else do
      let (n, after) ← number? (c :: rest)
      let after ← rest? cs after
      some (.number n, after)
termination_by (cs.length, 0)

/-- Reads the items of an array and its closing bracket. An item that is not the first one has a
comma in front. -/
def items? (first : Bool) (cs : List Char) : Option (List Value × Rest cs) :=
  match h : skipSpace cs with
  | [] => none
  | c :: rest =>
    have shorter := length_lt_of_skipSpace h
    if c = ']' then some ([], ⟨rest, shorter⟩)
    else if first then
      match value? cs with
      | none => none
      | some (item, after) => do
        have := after.2
        let (items, after') ← items? false after.1
        some (item :: items, ⟨after'.1, Nat.lt_trans after'.2 after.2⟩)
    else if c = ',' then
      match value? rest with
      | none => none
      | some (item, after) => do
        have := Nat.lt_trans after.2 shorter
        let (items, after') ← items? false after.1
        some (item :: items, ⟨after'.1, Nat.lt_trans after'.2 this⟩)
    else none
termination_by (cs.length, 1)

/-- Reads the members of an object and its closing brace. A member that is not the first one has a
comma in front. -/
def members? (first : Bool) (cs : List Char) : Option (List (Option String × Value) × Rest cs) :=
  match h : skipSpace cs with
  | [] => none
  | c :: rest =>
    have shorter := length_lt_of_skipSpace h
    if c = '}' then some ([], ⟨rest, shorter⟩)
    else
      match skipSpace (if first then c :: rest else if c = ',' then rest else []) with
      | '"' :: afterQuote =>
        match stringUnits afterQuote with
        | none => none
        | some (units, afterName) =>
          match skipSpace afterName with
          | ':' :: afterColon =>
            if hc : afterColon.length < cs.length then
              match value? afterColon with
              | none => none
              | some (value, after) => do
                have := Nat.lt_trans after.2 hc
                let (members, after') ← members? false after.1
                some (((joinUnits units).map String.ofList, value) :: members,
                  ⟨after'.1, Nat.lt_trans after'.2 this⟩)
            else none
          | _ => none
      | _ => none
termination_by (cs.length, 1)

end

/-- Reads a whole document. -/
def Value.ofText? (text : String) : Option Value := do
  let (value, after) ← value? text.toList
  if (skipSpace after.1).isEmpty then some value else none

end FormulaInk.Document
