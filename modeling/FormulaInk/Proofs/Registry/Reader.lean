import Mathlib
import FormulaInk.Document.Tables

/-! Equations of the document reader for strings and objects, without the bounds on what follows
them. -/

namespace FormulaInk.Document

/-- What is read and what follows it. -/
def plain {α : Type} {cs : List Char} (r : α × Rest cs) : α × List Char := (r.1, r.2.1)

/-- The text of a string after its opening quote, and what follows the closing quote. -/
def quoted? (cs : List Char) : Option (Option String × List Char) :=
  (stringUnits cs).map fun (units, after) => ((joinUnits units).map String.ofList, after)

variable {cs rest after left quoted named colon : List Char} {text : Option String} {v : Value}
  {members : List (Option String × Value)}

theorem some_of_plain {α : Type} {o : Option (α × Rest cs)} {a : α}
    (h : o.map plain = some (a, after)) : ∃ shorter, o = some (a, ⟨after, shorter⟩) := by
  obtain ⟨⟨b, ⟨left, shorter⟩⟩, rfl, same⟩ := Option.map_eq_some_iff.mp h
  cases same
  exact ⟨shorter, rfl⟩

theorem units_of_quoted (h : quoted? cs = some (text, after)) :
    ∃ units, stringUnits cs = some (units, after) ∧ (joinUnits units).map String.ofList = text := by
  obtain ⟨⟨units, left⟩, read, same⟩ := Option.map_eq_some_iff.mp h
  cases same
  exact ⟨units, read, rfl⟩

theorem value?_object (front : skipSpace cs = '{' :: rest)
    (inner : (members? true rest).map plain = some (members, after)) :
    (value? cs).map plain = some (.object members, after) := by
  obtain ⟨_, inner⟩ := some_of_plain inner
  rw [value?]
  split
  · next empty => rw [front] at empty; cases empty
  · next cons =>
    rw [front] at cons
    cases cons
    rw [if_pos rfl, inner]
    rfl

theorem value?_string (front : skipSpace cs = '"' :: rest)
    (inner : quoted? rest = some (text, after)) :
    (value? cs).map plain = some (.string text, after) := by
  obtain ⟨units, read, rfl⟩ := units_of_quoted inner
  rw [value?]
  split
  · next empty => rw [front] at empty; cases empty
  · next cons =>
    rw [front] at cons
    cases cons
    rw [if_neg (by decide), if_neg (by decide), if_pos rfl]
    split
    · next none => rw [read] at none; cases none
    · next found =>
      rw [read] at found
      cases found
      rfl

theorem members?_nil {first : Bool} (front : skipSpace cs = '}' :: rest) :
    (members? first cs).map plain = some ([], rest) := by
  rw [members?]
  split
  · next empty => rw [front] at empty; cases empty
  · next cons =>
    rw [front] at cons
    cases cons
    rw [if_pos rfl]
    rfl

theorem members?_cons {first : Bool} {c : Char} (front : skipSpace cs = c :: rest) (more : c ≠ '}')
    (quote : skipSpace (if first then c :: rest else if c = ',' then rest else []) = '"' :: quoted)
    (name : quoted? quoted = some (text, named)) (mark : skipSpace named = ':' :: colon)
    (value : (value? colon).map plain = some (v, left))
    (others : (members? false left).map plain = some (members, after)) :
    (members? first cs).map plain = some ((text, v) :: members, after) := by
  obtain ⟨units, read, rfl⟩ := units_of_quoted name
  obtain ⟨_, value⟩ := some_of_plain value
  obtain ⟨_, others⟩ := some_of_plain others
  have shorter : colon.length < cs.length := by
    have afterMark := length_lt_of_skipSpace mark
    have afterName := length_stringUnits read
    have afterQuote := length_lt_of_skipSpace quote
    have afterFront := length_lt_of_skipSpace front
    split at afterQuote
    · rw [List.length_cons] at afterQuote
      omega
    · split at afterQuote
      · omega
      · cases afterQuote
  rw [members?]
  split
  · next empty => rw [front] at empty; cases empty
  · next cons =>
    rw [front] at cons
    cases cons
    rw [if_neg more]
    simp only [quote, read, mark]
    rw [dif_pos shorter]
    simp only [value]
    rw [others]
    rfl

theorem members?_first (front : skipSpace cs = '"' :: quoted)
    (name : quoted? quoted = some (text, named)) (mark : skipSpace named = ':' :: colon)
    (value : (value? colon).map plain = some (v, left))
    (others : (members? false left).map plain = some (members, after)) :
    (members? true cs).map plain = some ((text, v) :: members, after) :=
  members?_cons front (by decide) rfl name mark value others

theorem members?_next (front : skipSpace cs = ',' :: rest) (quote : skipSpace rest = '"' :: quoted)
    (name : quoted? quoted = some (text, named)) (mark : skipSpace named = ':' :: colon)
    (value : (value? colon).map plain = some (v, left))
    (others : (members? false left).map plain = some (members, after)) :
    (members? false cs).map plain = some ((text, v) :: members, after) :=
  members?_cons front (by decide) quote name mark value others

theorem ofText?_of_value {text : String} (h : (value? text.toList).map plain = some (v, [])) :
    Value.ofText? text = some v := by
  obtain ⟨_, read⟩ := some_of_plain h
  rw [Value.ofText?, read]
  rfl

end FormulaInk.Document
