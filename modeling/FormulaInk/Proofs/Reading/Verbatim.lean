import Mathlib
import FormulaInk.Proofs.Reading.Braces
import FormulaInk.Proofs.Reading.Cut

/-! Groups that are taken as they stand. The reader of raw text takes a text in braces exactly if the
braces in it are balanced, those behind a backslash left out. -/

namespace FormulaInk.Source

/-- The characters of a text that no backslash hides, without the backslashes that hide one. A text
has none if it ends between a backslash and the character behind it. -/
def shown? : List Char → Option (List Char)
  | [] => some []
  | ['\\'] => none
  | '\\' :: _ :: rest => shown? rest
  | ch :: rest => (shown? rest).map (ch :: ·)

/-- A text that can stand in a group as it is: its braces are balanced, but for those that a backslash
hides, and its last character is not a backslash that hides nothing. -/
def Enclosed (text : List Char) : Prop := ∃ visible, shown? text = some visible ∧ Balanced visible

/-- Blanks and comments, each comment with the end of its line. -/
inductive Ignored : List Char → Prop
  | nothing : Ignored []
  | blank {ch rest} : Text.isBlank ch → Ignored rest → Ignored (ch :: rest)
  | comment {line rest} : '\n' ∉ line → Ignored rest → Ignored ('%' :: (line ++ '\n' :: rest))

section Characters

variable {ch : Char} {text : List Char}

theorem shown?_cons (h : ch ≠ '\\') :
    shown? (ch :: text) = (shown? text).map (ch :: ·) := by
  rw [shown?]
  · exact fun same _ => h same
  · exact fun _ _ same _ => h same

theorem bracedText_cons {depth : Nat} (h : ch ≠ '{' ∧ ch ≠ '}' ∧ ch ≠ '\\') :
    bracedText depth (ch :: text) =
      (ch :: (bracedText depth text).1, (bracedText depth text).2) := by
  rw [bracedText]
  · exact fun _ _ same _ => h.2.2 same
  · exact h.1
  · exact h.2.1

end Characters

section Groups

variable {depth : Nat} {text visible rest after : List Char}

theorem bracedText_of_shown (h : shown? text = some visible)
    (closes : openAfter depth visible = some 0) (left : List Char) :
    bracedText depth (text ++ '}' :: left) = (text, some left) := by
  fun_induction shown? text generalizing depth visible with
  | case1 =>
    cases h
    cases closes
    rfl
  | case2 => cases h
  | case3 ch rest ih =>
    have inside := ih h closes
    simp [bracedText, inside]
  | case4 ch rest last hidden ih =>
    obtain ⟨inner, shown, rfl⟩ := Option.map_eq_some_iff.mp h
    have slash : ch ≠ '\\' := by
      rintro rfl
      cases rest with
      | nil => exact last rfl rfl
      | cons next rest => exact hidden next rest rfl rfl
    by_cases opening : ch = '{'
    · subst opening
      have onward : openAfter (depth + 1) inner = some 0 := closes
      have inside := ih shown onward
      simp [bracedText, inside]
    · by_cases closing : ch = '}'
      · subst closing
        cases depth with
        | zero => cases closes
        | succ depth =>
          have onward : openAfter depth inner = some 0 := closes
          have inside := ih shown onward
          simp [bracedText, inside]
      · rw [openAfter_cons ⟨opening, closing⟩] at closes
        rw [List.cons_append, bracedText_cons ⟨opening, closing, slash⟩, ih shown closes]

theorem shown_of_bracedText (h : bracedText depth rest = (text, some after)) :
    ∃ visible, shown? text = some visible ∧ openAfter depth visible = some 0 := by
  fun_induction bracedText depth rest generalizing text with
  | case1 => cases h
  | case2 depth ch rest inner more read ih =>
    cases h
    obtain ⟨visible, shown, closes⟩ := ih read
    exact ⟨visible, shown, closes⟩
  | case3 depth rest inner more read ih =>
    cases h
    obtain ⟨visible, shown, closes⟩ := ih read
    exact ⟨'{' :: visible, by rw [shown?_cons (by decide), shown]; rfl, closes⟩
  | case4 rest =>
    cases h
    exact ⟨[], rfl, rfl⟩
  | case5 rest depth inner more read ih =>
    cases h
    obtain ⟨visible, shown, closes⟩ := ih read
    exact ⟨'}' :: visible, by rw [shown?_cons (by decide), shown]; rfl, closes⟩
  | case6 depth ch rest hidden opening closing inner more read ih =>
    cases h
    obtain ⟨visible, shown, closes⟩ := ih read
    have slash : ch ≠ '\\' := by
      -- No group is closed behind a backslash that is the last character.
      rintro rfl
      cases rest with
      | nil => cases read
      | cons next rest => exact hidden next rest rfl rfl
    refine ⟨ch :: visible, by rw [shown?_cons slash, shown]; rfl, ?_⟩
    rwa [openAfter_cons ⟨opening, closing⟩]

theorem Enclosed.bracedText (h : Enclosed text) (left : List Char) :
    bracedText 0 (text ++ '}' :: left) = (text, some left) := by
  obtain ⟨visible, shown, balanced⟩ := h
  exact bracedText_of_shown shown (balanced_iff_openAfter.mp balanced) left

theorem enclosed_of_bracedText (h : bracedText 0 rest = (text, some after)) : Enclosed text := by
  obtain ⟨visible, shown, closes⟩ := shown_of_bracedText h
  exact ⟨visible, shown, balanced_iff_openAfter.mpr closes⟩

end Groups

section Front

variable {front rest text : List Char} {ch : Char} {n k : Nat}

theorem skipFrom_line {line : List Char} (h : '\n' ∉ line) (rest : List Char) (n : Nat) :
    Cursor.skipFrom true (line ++ '\n' :: rest) n =
      Cursor.skipFrom false rest (n + line.length + 1) := by
  induction line generalizing n with
  | nil => rfl
  | cons ch line ih =>
    have other : ch ≠ '\n' := fun same => h (by simp [same])
    have inner : '\n' ∉ line := fun member => h (List.mem_cons_of_mem ch member)
    simp only [List.cons_append, Cursor.skipFrom, if_true, bne_iff_ne.mpr other, ih inner,
      List.length_cons]
    congr 1
    omega

theorem Ignored.skip (h : Ignored front) (solid : ¬Text.isBlank ch) (sign : ch ≠ '%')
    (rest : List Char) (n : Nat) :
    Cursor.skip ⟨front ++ ch :: rest, n⟩ = ⟨ch :: rest, n + front.length⟩ := by
  show Cursor.skipFrom false (front ++ ch :: rest) n = _
  induction h generalizing n with
  | nothing => simp [Cursor.skipFrom, solid, sign]
  | blank blank _ ih =>
    simp only [List.cons_append, Cursor.skipFrom, blank, if_true, Bool.false_eq_true, if_false, ih,
      List.length_cons, Cursor.mk.injEq, true_and]
    omega
  | @comment line rest ending _ ih =>
    have percent : Text.isBlank '%' = false := by decide
    simp only [List.cons_append, List.append_assoc, Cursor.skipFrom, percent, Bool.false_eq_true,
      if_false, if_true, skipFrom_line ending, ih, List.length_cons, List.length_append,
      Cursor.mk.injEq, true_and]
    omega

/-- One more character before the end of a line belongs to the comment. -/
theorem Ignored.longer (h : Ignored ('%' :: front)) (other : ch ≠ '\n') :
    Ignored ('%' :: ch :: front) := by
  cases h with
  | blank blank _ => exact absurd blank (by decide)
  | @comment line rest ending inner =>
    refine @Ignored.comment (ch :: line) _ (fun member => ?_) inner
    obtain same | member := List.mem_cons.mp member
    · exact other same.symm
    · exact ending member

theorem ignored_of_skipFrom {comment : Bool}
    (h : Cursor.skipFrom comment text n = ⟨ch :: rest, k⟩) :
    ∃ front, Ignored (if comment then '%' :: front else front) ∧ text = front ++ ch :: rest := by
  induction text generalizing comment n with
  | nil => cases h
  | cons first text ih =>
    rw [Cursor.skipFrom] at h
    split at h
    · rename_i inside
      obtain ⟨front, ignored, rfl⟩ := ih h
      refine ⟨first :: front, ?_, rfl⟩
      rw [if_pos inside]
      by_cases ending : first = '\n'
      · subst ending
        exact @Ignored.comment [] front (by simp) (by simpa using ignored)
      · exact Ignored.longer (by simpa [ending] using ignored) ending
    · rename_i outside
      obtain rfl : comment = false := Bool.eq_false_iff.mpr outside
      split at h
      · rename_i blank
        obtain ⟨front, ignored, rfl⟩ := ih h
        exact ⟨first :: front, .blank blank ignored, rfl⟩
      · split at h
        · rename_i percent
          subst percent
          obtain ⟨front, ignored, rfl⟩ := ih h
          exact ⟨'%' :: front, ignored, rfl⟩
        · cases h
          exact ⟨[], .nothing, rfl⟩

theorem ignored_of_skip {c : Cursor} (h : c.skip = ⟨ch :: rest, n⟩) :
    ∃ front, Ignored front ∧ c.rest = front ++ ch :: rest := ignored_of_skipFrom h

end Front

/-- Behind blanks and comments the reader of raw text takes every enclosed text between braces just as
it stands, and stops behind the closing brace. Where it comes to a brace, a strict reader takes nothing
else. -/
theorem rawGroup_enclosed :
    (∀ (mode : Mode) (owner n : Nat) (front text rest : List Char), Ignored front → Enclosed text →
      rawGroup mode owner ⟨front ++ '{' :: (text ++ '}' :: rest), n⟩ =
        (.ok text, ⟨rest, n + front.length + text.length + 2⟩)) ∧
    ∀ (owner : Nat) (c after : Cursor) (text : List Char), c.skip.rest.head? = some '{' →
      rawGroup .strict owner c = (.ok text, after) →
      ∃ front, Ignored front ∧ Enclosed text ∧
        c.rest = front ++ '{' :: (text ++ '}' :: after.rest) ∧
        after.offset = c.offset + front.length + text.length + 2 := by
  have skipped {front : List Char} (ignored : Ignored front) (rest : List Char) (n : Nat) :
      Cursor.skip ⟨front ++ '{' :: rest, n⟩ = ⟨'{' :: rest, n + front.length⟩ :=
    ignored.skip (by decide) (by decide) rest n
  constructor
  · intro mode owner n front text rest ignored enclosed
    exact rawGroup_of_braces (skipped ignored _ n) (enclosed.bracedText rest)
  · intro owner c after text first read
    obtain ⟨rest, k, place⟩ := Cursor.skip_of_head? first
    obtain ⟨front, ignored, split⟩ := ignored_of_skip place
    obtain ⟨source, n⟩ := c
    obtain rfl : source = front ++ '{' :: rest := split
    rcases taken : bracedText 0 rest with ⟨inner, _ | left⟩
    · rw [rawGroup_of_open (skipped ignored rest n) taken] at read
      cases read
    · rw [rawGroup_of_braces (skipped ignored rest n) taken] at read
      cases read
      exact ⟨front, ignored, enclosed_of_bracedText taken, by rw [← (bracedText_eq_append taken).1],
        rfl⟩

/-- An escaped brace and a group of its own inside, a brace in a comment before. -/
theorem rawGroup_enclosed_escaped :
    let text := ['a', '\\', '}', '{', 'b', '}']
    let source := [' ', '%', '{', '\n', '{'] ++ text ++ ['}', 'c']
    Ignored [' ', '%', '{', '\n'] ∧ Enclosed text ∧
      rawGroup .strict 7 ⟨source, 0⟩ = (.ok text, ⟨['c'], 12⟩) ∧
      ∃ front, Ignored front ∧ source = front ++ '{' :: (text ++ ['}', 'c']) := by
  intro text source
  have ignored : Ignored [' ', '%', '{', '\n'] :=
    .blank (by decide) (@Ignored.comment ['{'] [] (by decide) .nothing)
  have enclosed : Enclosed text := ⟨['a', '{', 'b', '}'], rfl, balanced_of_openAfter rfl⟩
  have read : rawGroup .strict 7 ⟨source, 0⟩ = (.ok text, ⟨['c'], 12⟩) :=
    rawGroup_enclosed.1 .strict 7 0 _ text ['c'] ignored enclosed
  obtain ⟨front, before, -, split, -⟩ :=
    rawGroup_enclosed.2 7 ⟨source, 0⟩ ⟨['c'], 12⟩ text (by decide) read
  exact ⟨ignored, enclosed, read, front, before, split⟩

end FormulaInk.Source
