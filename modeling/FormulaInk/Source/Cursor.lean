import FormulaInk.Text.Blank

/-!
Places in a source text.

A cursor holds the characters that are still to be read and how many were read before them. Offsets
count characters.
-/

namespace FormulaInk.Source

/-- A place in a source. -/
structure Cursor where
  rest : List Char
  offset : Nat
  deriving DecidableEq, Repr

namespace Cursor

/-- The start of a source. -/
def start (source : List Char) : Cursor := ⟨source, 0⟩

/-- Skips blanks and comments. A comment starts at a percent sign and ends with its line. -/
def skipFrom (comment : Bool) : List Char → Nat → Cursor
  | [], n => ⟨[], n⟩
  | c :: rest, n =>
    if comment then skipFrom (c != '\n') rest (n + 1)
    else if Text.isBlank c then skipFrom false rest (n + 1)
    else if c = '%' then skipFrom true rest (n + 1)
    else ⟨c :: rest, n⟩

/-- The next character that is neither blank nor part of a comment. -/
def skip (c : Cursor) : Cursor := skipFrom false c.rest c.offset

theorem length_skipFrom_le (comment : Bool) (rest : List Char) (n : Nat) :
    (skipFrom comment rest n).rest.length ≤ rest.length := by
  induction rest generalizing comment n with
  | nil => simp [skipFrom]
  | cons c rest ih =>
    simp only [skipFrom, List.length_cons]
    split
    · exact Nat.le_succ_of_le (ih _ _)
    · split
      · exact Nat.le_succ_of_le (ih _ _)
      · split
        · exact Nat.le_succ_of_le (ih _ _)
        · simp

theorem length_skip_le (c : Cursor) : c.skip.rest.length ≤ c.rest.length :=
  length_skipFrom_le false c.rest c.offset

/-- A character behind a skip leaves fewer characters than there were. -/
theorem length_lt_of_skip {c : Cursor} {ch : Char} {rest : List Char} {n : Nat}
    (h : c.skip = ⟨ch :: rest, n⟩) : rest.length < c.rest.length := by
  have le := length_skip_le c
  rw [h] at le
  simp only [List.length_cons] at le
  omega

end Cursor

end FormulaInk.Source
