import FormulaInk.Decimal.Literal
import FormulaInk.Length
import FormulaInk.Registry
import FormulaInk.Source.Cursor
import FormulaInk.Source.Fault

/-!
Readers that take text as it stands: raw groups, numbers, colors, lengths and delimiters.

Each reader returns what it read and the place where it stopped, also when it fails. Main statement:
no reader goes back (`Plain.length_read_le`).
-/

namespace FormulaInk.Source

/-- What a reader found, and where it stopped. -/
abbrev Found (α : Type) := Except ParseError α × Cursor

/-- The letters of a command name at the front of a text. -/
def nameOf (cs : List Char) : List Char := cs.takeWhile Char.isAlpha

/-- The text of a group whose opening brace was read, inside `depth` more groups, and what follows
its closing brace, if that is there. A backslash hides the character after it. -/
def bracedText (depth : Nat) : List Char → List Char × Option (List Char)
  | [] => ([], none)
  | '\\' :: c :: rest =>
    let (text, after) := bracedText depth rest
    ('\\' :: c :: text, after)
  | '{' :: rest =>
    let (text, after) := bracedText (depth + 1) rest
    ('{' :: text, after)
  | '}' :: rest =>
    match depth with
    | 0 => ([], some rest)
    | depth + 1 =>
      let (text, after) := bracedText depth rest
      ('}' :: text, after)
  | c :: rest =>
    let (text, after) := bracedText depth rest
    (c :: text, after)

/-- A braced group as it stands, or a single command or character. Without any the reader fails at
`owner`. -/
def rawGroup (mode : Mode) (owner : Nat) (c : Cursor) : Found (List Char) :=
  match c.skip with
  | ⟨[], n⟩ => (.error ⟨owner, .missingArgument⟩, ⟨[], n⟩)
  | ⟨'{' :: rest, n⟩ =>
    match bracedText 0 rest with
    | (text, some after) => (.ok text, ⟨after, n + text.length + 2⟩)
    | (text, none) =>
      match mode with
      | .strict => (.error ⟨n, .unclosed '}'⟩, ⟨[], n + 1 + rest.length⟩)
      | .lenient => (.ok text, ⟨[], n + 1 + rest.length⟩)
  | ⟨'\\' :: rest, n⟩ =>
    let name := nameOf rest
    if name.isEmpty then (.ok ('\\' :: rest.take 1), ⟨rest.drop 1, n + 1 + (rest.take 1).length⟩)
    else (.ok ('\\' :: name), ⟨rest.drop name.length, n + 1 + name.length⟩)
  | ⟨ch :: rest, n⟩ => (.ok [ch], ⟨rest, n + 1⟩)

/-- The text up to a closing character. -/
def textUntil (close : Char) (owner : Nat) (c : Cursor) : Found (List Char) :=
  let text := c.rest.takeWhile (· != close)
  match c.rest.dropWhile (· != close) with
  | [] => (.error ⟨owner, .unclosed close⟩, ⟨[], c.offset + text.length⟩)
  | _ :: rest => (.ok text, ⟨rest, c.offset + text.length + 1⟩)

/-- A finite number, with blanks around it. -/
def numberOf (owner : Nat) (text : List Char) : Except ParseError Float32 :=
  match Decimal.float32? (Text.trim text) with
  | some x =>
    if Decimal.isFinite x then .ok x
    else .error ⟨owner, .badNumber (String.ofList (Text.trim text))⟩
  | none => .error ⟨owner, .badNumber (String.ofList (Text.trim text))⟩

/-- A color. -/
def colorOf (owner : Nat) (text : List Char) : Except ParseError Color :=
  match Color.ofString (String.ofList text) with
  | .ok color => .ok color
  | .error fault => .error ⟨owner, .badColor fault⟩

end FormulaInk.Source

namespace FormulaInk

/-- Reads a length: a number, then a unit that starts at the first letter. -/
def Length.ofText? (text : List Char) : Option (Length Float32) :=
  let text := Text.trim text
  let value := text.takeWhile (!Char.isAlpha ·)
  let unit := text.dropWhile (!Char.isAlpha ·)
  match Decimal.float32? (Text.trim value),
    LengthUnit.ofAbbreviation? (String.ofList (Text.trim unit)) with
  | some value, some unit => some ⟨unit, value⟩
  | _, _ => none

end FormulaInk

namespace FormulaInk.Source

/-- A length. -/
def lengthOf (owner : Nat) (text : List Char) : Except ParseError (Length Float32) :=
  match Length.ofText? text with
  | some length => .ok length
  | none => .error ⟨owner, .badLength (String.ofList text)⟩

/-- A delimiter: a character, or the character of a symbol. After a backslash any character without
a name stands for itself. -/
def delimiter (t : Tables) (owner : Nat) (c : Cursor) : Found Char :=
  match c.skip with
  | ⟨[], n⟩ => (.error ⟨owner, .missingDelimiter⟩, ⟨[], n⟩)
  | ⟨'\\' :: rest, n⟩ =>
    let name := nameOf rest
    if name.isEmpty then
      match rest with
      | [] => (.error ⟨owner, .missingDelimiter⟩, ⟨[], n + 1⟩)
      | ch :: rest => (.ok ch, ⟨rest, n + 2⟩)
    else
      let after : Cursor := ⟨rest.drop name.length, n + 1 + name.length⟩
      match t.symbols.get? (String.ofList name) with
      | some symbol => (.ok symbol.ch, after)
      | none => (.error ⟨owner, .unknownDelimiter (String.ofList name)⟩, after)
  | ⟨ch :: rest, n⟩ => (.ok ch, ⟨rest, n + 1⟩)

/-- A parameter that is read without looking at its atoms. -/
inductive Plain where
  | text
  | number
  /-- A number in square brackets that may be absent. -/
  | optionalNumber
  | color
  | length
  | delimiter
  deriving DecidableEq, Repr

namespace Plain

/-- What is read for a plain parameter. -/
@[reducible] def Value : Plain → Type
  | text => String
  | number => Float32
  | optionalNumber => Option Float32
  | color => Color
  | length => Length Float32
  | delimiter => Char

/-- Reads a raw group and interprets it. -/
def readGroup {α : Type} (mode : Mode) (owner : Nat)
    (interpret : List Char → Except ParseError α) (c : Cursor) : Found α :=
  match rawGroup mode owner c with
  | (.ok raw, after) => (interpret raw, after)
  | (.error e, after) => (.error e, after)

/-- Reads a number in square brackets, if the next character opens them. -/
def readOptional (owner : Nat) (c : Cursor) : Found (Option Float32) :=
  match c.skip with
  | ⟨'[' :: rest, n⟩ =>
    match textUntil ']' owner ⟨rest, n + 1⟩ with
    | (.ok raw, after) => ((numberOf owner raw).map some, after)
    | (.error e, after) => (.error e, after)
  | after => (.ok none, after)

/-- Reads a plain parameter. -/
def read (t : Tables) (mode : Mode) (owner : Nat) : (p : Plain) → Cursor → Found p.Value
  | text => readGroup mode owner fun raw => .ok (String.ofList raw)
  | number => readGroup mode owner (numberOf owner)
  | optionalNumber => readOptional owner
  | color => readGroup mode owner (colorOf owner)
  | length => readGroup mode owner (lengthOf owner)
  | delimiter => Source.delimiter t owner

end Plain

theorem length_bracedText (depth : Nat) (cs : List Char) {after : List Char}
    (h : (bracedText depth cs).2 = some after) : after.length < cs.length := by
  fun_induction bracedText depth cs with
  | case1 => simp at h
  | case4 => simp_all
  | _ => simp_all; omega

theorem length_rawGroup_le (mode : Mode) (owner : Nat) (c : Cursor) :
    (rawGroup mode owner c).2.rest.length ≤ c.rest.length := by
  have le := Cursor.length_skip_le c
  unfold rawGroup
  split
  · simp
  · rename_i rest n hs
    rw [hs] at le
    simp only [List.length_cons] at le
    split
    · rename_i text after hb
      have shorter : after.length < rest.length := length_bracedText 0 rest (by rw [hb])
      simp only
      omega
    · split <;> simp
  · rename_i rest n hs
    rw [hs] at le
    simp only [List.length_cons] at le
    simp only
    split <;> simp only [List.length_drop] <;> omega
  · rename_i hs
    rw [hs] at le
    simp only [List.length_cons] at le
    simp only
    omega

theorem length_textUntil_le (close : Char) (owner : Nat) (c : Cursor) :
    (textUntil close owner c).2.rest.length ≤ c.rest.length := by
  have le := (List.dropWhile_suffix (l := c.rest) (· != close)).length_le
  unfold textUntil
  split
  · simp
  · rename_i h
    rw [h] at le
    simp only [List.length_cons] at le
    simp only
    omega

theorem length_delimiter_le (t : Tables) (owner : Nat) (c : Cursor) :
    (delimiter t owner c).2.rest.length ≤ c.rest.length := by
  have le := Cursor.length_skip_le c
  unfold delimiter
  split
  · simp
  · rename_i rest n hs
    rw [hs] at le
    simp only [List.length_cons] at le
    simp only
    split
    · split
      · simp
      · simp_all; omega
    · split <;> simp only [List.length_drop] <;> omega
  · rename_i hs
    rw [hs] at le
    simp only [List.length_cons] at le
    simp only
    omega

namespace Plain

theorem length_readGroup_le {α : Type} (mode : Mode) (owner : Nat)
    (interpret : List Char → Except ParseError α) (c : Cursor) :
    (readGroup mode owner interpret c).2.rest.length ≤ c.rest.length := by
  have le := length_rawGroup_le mode owner c
  unfold readGroup
  split <;> simp_all

theorem length_readOptional_le (owner : Nat) (c : Cursor) :
    (readOptional owner c).2.rest.length ≤ c.rest.length := by
  have le := Cursor.length_skip_le c
  unfold readOptional
  split
  · rename_i rest n hs
    rw [hs] at le
    simp only [List.length_cons] at le
    have := length_textUntil_le ']' owner ⟨rest, n + 1⟩
    split <;> simp_all <;> omega
  · exact le

/-- No plain reader goes back. -/
theorem length_read_le (t : Tables) (mode : Mode) (owner : Nat) (p : Plain) (c : Cursor) :
    (p.read t mode owner c).2.rest.length ≤ c.rest.length := by
  cases p with
  | optionalNumber => exact length_readOptional_le owner c
  | delimiter => exact length_delimiter_le t owner c
  | _ => exact length_readGroup_le mode owner _ c

end Plain

end FormulaInk.Source
