import Mathlib.Data.List.TakeWhile
import FormulaInk.Proofs.Reading.Raw

/-! Braces in the text that the readers of raw text take. A reader that succeeds takes text in which
every group is closed, unless it takes a brace as a character that stands for itself. -/

namespace FormulaInk.Source

/-- How many groups are open behind a text before which `n` are, if each closing brace closes
one. -/
def openAfter (n : Nat) : List Char → Option Nat
  | [] => some n
  | '{' :: rest => openAfter (n + 1) rest
  | '}' :: rest =>
    match n with
    | 0 => none
    | n + 1 => openAfter n rest
  | _ :: rest => openAfter n rest

/-- No prefix of a text closes more groups than it opens, and the whole text closes them all. -/
structure Balanced (text : List Char) : Prop where
  before : ∀ front, front <+: text → front.count '}' ≤ front.count '{'
  total : text.count '}' = text.count '{'

/-- Text in which the reader of raw text takes every character for itself. -/
def Bare (text : List Char) : Prop := ∀ ch ∈ text, ch ≠ '{' ∧ ch ≠ '}' ∧ ch ≠ '\\'

section OpenAfter

variable {n k : Nat} {ch : Char} {text tail : List Char}

theorem openAfter_cons (h : ch ≠ '{' ∧ ch ≠ '}') : openAfter n (ch :: text) = openAfter n text := by
  rw [openAfter]
  · exact h.1
  · exact h.2

/-- Groups that are open around a text stay open. -/
theorem openAfter_add (h : openAfter n text = some k) (more : Nat) :
    openAfter (n + more) text = some (k + more) := by
  fun_induction openAfter n text with
  | case1 => cases h; rfl
  | case2 n rest ih =>
    have inside := ih h
    rw [Nat.add_right_comm] at inside
    exact inside
  | case3 => cases h
  | case4 rest n ih =>
    rw [Nat.succ_add]
    exact ih h
  | case5 n ch rest opening closing ih =>
    rw [openAfter_cons ⟨opening, closing⟩]
    exact ih h

theorem openAfter_append (h : openAfter n text = some k) :
    openAfter n (text ++ tail) = openAfter k tail := by
  fun_induction openAfter n text with
  | case1 => cases h; rfl
  | case2 n rest ih => exact ih h
  | case3 => cases h
  | case4 rest n ih => exact ih h
  | case5 n ch rest opening closing ih =>
    rw [List.cons_append, openAfter_cons ⟨opening, closing⟩]
    exact ih h

/-- The number of open groups is what the counts of braces leave. -/
theorem openAfter_count (h : openAfter n text = some k) :
    text.count '{' + n = text.count '}' + k := by
  fun_induction openAfter n text with
  | case1 => cases h; rfl
  | case2 n rest ih =>
    have inside := ih h
    simp only [List.count_cons_self, List.count_cons_of_ne (by decide : '{' ≠ '}')]
    omega
  | case3 => cases h
  | case4 rest n ih =>
    have inside := ih h
    simp only [List.count_cons_self, List.count_cons_of_ne (by decide : '}' ≠ '{')]
    omega
  | case5 n ch rest opening closing ih =>
    rw [List.count_cons_of_ne opening, List.count_cons_of_ne closing]
    exact ih h

theorem openAfter_prefix (h : openAfter n (text ++ tail) = some k) :
    ∃ j, openAfter n text = some j := by
  fun_induction openAfter n text with
  | case1 n => exact ⟨n, rfl⟩
  | case2 n rest ih => exact ih h
  | case3 => cases h
  | case4 rest n ih => exact ih h
  | case5 n ch rest opening closing ih =>
    rw [List.cons_append, openAfter_cons ⟨opening, closing⟩] at h
    exact ih h

theorem balanced_of_openAfter (h : openAfter 0 text = some 0) : Balanced text where
  before front initial := by
    obtain ⟨tail, rfl⟩ := initial
    obtain ⟨j, inside⟩ := openAfter_prefix h
    have counts := openAfter_count inside
    omega
  total := by
    have counts := openAfter_count h
    omega

/-- Where no prefix closes more groups than are open, the number of open groups is known. -/
theorem exists_openAfter
    (h : ∀ front, front <+: text → front.count '}' ≤ n + front.count '{') :
    ∃ k, openAfter n text = some k := by
  induction text generalizing n with
  | nil => exact ⟨n, rfl⟩
  | cons ch rest ih =>
    have onward (front : List Char) (le : front <+: rest) :
        (ch :: front).count '}' ≤ n + (ch :: front).count '{' := by
      obtain ⟨tail, rfl⟩ := le
      exact h _ ⟨tail, rfl⟩
    by_cases opening : ch = '{'
    · subst opening
      refine ih fun front le => ?_
      have inside := onward front le
      rw [List.count_cons_self, List.count_cons_of_ne (by decide)] at inside
      omega
    · by_cases closing : ch = '}'
      · subst closing
        have first := onward [] List.nil_prefix
        cases n with
        | zero => exact absurd first (by decide)
        | succ n =>
          refine ih fun front le => ?_
          have inside := onward front le
          rw [List.count_cons_self, List.count_cons_of_ne (by decide)] at inside
          omega
      · rw [openAfter_cons ⟨opening, closing⟩]
        refine ih fun front le => ?_
        have inside := onward front le
        rwa [List.count_cons_of_ne opening, List.count_cons_of_ne closing] at inside

theorem balanced_iff_openAfter : Balanced text ↔ openAfter 0 text = some 0 := by
  refine ⟨fun h => ?_, balanced_of_openAfter⟩
  obtain ⟨k, closes⟩ := exists_openAfter (n := 0) fun front le => by
    rw [Nat.zero_add]
    exact h.before front le
  have counts := openAfter_count closes
  have total := h.total
  obtain rfl : k = 0 := by omega
  exact closes

end OpenAfter

/-- From the front of a text the reader of raw text comes to what is left of it, where it has closed
`n` groups that were open and every group that it opened. -/
inductive Walks : Nat → List Char → List Char → Prop
  | done (left : List Char) : Walks 0 left left
  | plain {n ch rest left} : ch ≠ '{' → ch ≠ '}' → ch ≠ '\\' → Walks n rest left →
      Walks n (ch :: rest) left
  | escaped (ch : Char) {n rest left} : Walks n rest left → Walks n ('\\' :: ch :: rest) left
  | last : Walks 0 ['\\'] []
  | opening {n rest left} : Walks (n + 1) rest left → Walks n ('{' :: rest) left
  | closing {n rest left} : Walks n rest left → Walks (n + 1) ('}' :: rest) left

/-- Whether every percent sign of a text stands behind a backslash, so that no comment begins. -/
def uncommented : List Char → Bool
  | [] => true
  | '\\' :: _ :: rest => uncommented rest
  | ch :: rest => ch != '%' && uncommented rest

theorem uncommented_cons {ch : Char} {rest : List Char} (h : uncommented (ch :: rest))
    (slash : ch ≠ '\\') : ch ≠ '%' ∧ uncommented rest := by
  rw [uncommented] at h
  · simpa using h
  · exact fun _ _ same _ => slash same

namespace Walks

variable {n k : Nat} {ch : Char} {front middle left rest text : List Char}

theorem trans (h : Walks k front middle) (h' : Walks n middle left) : Walks (k + n) front left := by
  induction h with
  | done => rwa [Nat.zero_add]
  | plain opening closing slash _ ih => exact .plain opening closing slash (ih h')
  | escaped ch _ ih => exact .escaped ch (ih h')
  | last =>
    cases h'
    exact .last
  | opening _ ih =>
    have inside := ih h'
    rw [Nat.add_right_comm] at inside
    exact .opening inside
  | closing _ ih =>
    rw [Nat.add_right_comm]
    exact .closing (ih h')

theorem before (h : Walks 0 front middle) (h' : Walks n middle left) : Walks n front left := by
  have both := h.trans h'
  rwa [Nat.zero_add] at both

theorem bare (h : Bare text) (left : List Char) : Walks 0 (text ++ left) left := by
  induction text with
  | nil => exact .done left
  | cons ch text ih =>
    obtain ⟨opening, closing, slash⟩ := h ch (by simp)
    exact .plain opening closing slash (ih fun other member => h other (by simp [member]))

theorem suffix (h : Walks n front left) : left <:+ front := by
  induction h with
  | done => exact List.suffix_refl _
  | plain _ _ _ _ ih | opening _ ih | closing _ ih => exact ih.trans (List.suffix_cons _ _)
  | escaped ch _ ih => exact ih.trans ⟨['\\', ch], rfl⟩
  | last => exact List.nil_suffix

/-- What is left begins where the reader of raw text looks at a character. -/
theorem uncommented (h : Walks n front left) (tidy : uncommented front) : uncommented left := by
  induction h with
  | done => exact tidy
  | plain _ _ slash _ ih => exact ih (uncommented_cons tidy slash).2
  | escaped ch _ ih => exact ih tidy
  | last => rfl
  | opening _ ih | closing _ ih => exact ih (uncommented_cons tidy (by decide)).2

end Walks

/-- A text without comments in which no backslash hides a brace. -/
structure Unescaped (text : List Char) : Prop where
  percent : '%' ∉ text
  backslash : ∀ ch rest, '\\' :: ch :: rest <:+ text → ch ≠ '{' ∧ ch ≠ '}' ∧ ch ≠ '\\'

theorem Unescaped.suffix {text tail : List Char} (h : Unescaped text) (le : tail <:+ text) :
    Unescaped tail where
  percent member := h.percent (le.subset member)
  backslash ch rest behind := h.backslash ch rest (behind.trans le)

theorem unescaped_cons {ch : Char} {text : List Char} :
    Unescaped (ch :: text) ↔ ch ≠ '%' ∧ (ch = '\\' → text.head? ≠ some '{' ∧
      text.head? ≠ some '}' ∧ text.head? ≠ some '\\') ∧ Unescaped text := by
  constructor
  · intro h
    refine ⟨fun percent => h.percent (by simp [percent]), ?_, h.suffix (List.suffix_cons ch text)⟩
    rintro rfl
    have hidden (next : Char) (first : text.head? = some next) :
        next ≠ '{' ∧ next ≠ '}' ∧ next ≠ '\\' := by
      obtain ⟨rest, rfl⟩ := List.head?_eq_some_iff.mp first
      exact h.backslash next rest (List.suffix_refl _)
    exact ⟨fun first => (hidden _ first).1 rfl, fun first => (hidden _ first).2.1 rfl,
      fun first => (hidden _ first).2.2 rfl⟩
  · rintro ⟨percent, backslash, h⟩
    refine ⟨fun member => ?_, fun next rest behind => ?_⟩
    · obtain rfl | member := List.mem_cons.mp member
      · exact percent rfl
      · exact h.percent member
    · obtain same | behind := List.suffix_cons_iff.mp behind
      · cases same
        have hidden := backslash rfl
        simpa using hidden
      · exact h.backslash next rest behind

instance decidableUnescaped : (text : List Char) → Decidable (Unescaped text)
  | [] => .isTrue ⟨by simp, by simp⟩
  | _ :: text =>
    have := decidableUnescaped text
    decidable_of_iff _ unescaped_cons.symm

theorem Unescaped.uncommented {text : List Char} (h : Unescaped text) : uncommented text := by
  fun_induction Source.uncommented text with
  | case1 => rfl
  | case2 ch rest ih => exact ih (h.suffix ⟨['\\', ch], rfl⟩)
  | case3 ch rest _ ih =>
    have percent : ch ≠ '%' := fun same => h.percent (by simp [same])
    simp [percent, ih (h.suffix (List.suffix_cons ch rest))]

/-- Where no backslash hides a brace, every brace counts. -/
theorem Walks.openAfter {n : Nat} {front left : List Char} (h : Walks n front left)
    (unescaped : Unescaped front) : ∃ text, front = text ++ left ∧ openAfter n text = some 0 := by
  induction h with
  | done => exact ⟨[], rfl, rfl⟩
  | @plain n ch rest left opening closing _ _ ih =>
    obtain ⟨text, rfl, inside⟩ := ih (unescaped.suffix (List.suffix_cons _ _))
    exact ⟨ch :: text, rfl, by rwa [openAfter_cons ⟨opening, closing⟩]⟩
  | @escaped ch n rest left _ ih =>
    have shown := unescaped.backslash ch rest (List.suffix_refl _)
    obtain ⟨text, rfl, inside⟩ := ih (unescaped.suffix ⟨['\\', ch], rfl⟩)
    refine ⟨'\\' :: ch :: text, rfl, ?_⟩
    rwa [openAfter_cons (by decide), openAfter_cons ⟨shown.1, shown.2.1⟩]
  | last => exact ⟨['\\'], rfl, rfl⟩
  | opening _ ih =>
    obtain ⟨text, rfl, inside⟩ := ih (unescaped.suffix (List.suffix_cons _ _))
    exact ⟨'{' :: text, rfl, inside⟩
  | closing _ ih =>
    obtain ⟨text, rfl, inside⟩ := ih (unescaped.suffix (List.suffix_cons _ _))
    exact ⟨'}' :: text, rfl, inside⟩

/-- Characters of a kind to which no brace and no backslash belongs. -/
theorem bare_of_forall {text : List Char} {p : Char → Bool} (h : ∀ ch ∈ text, p ch)
    (other : p '{' = false ∧ p '}' = false ∧ p '\\' = false) : Bare text := by
  intro ch member
  have kind := h ch member
  refine ⟨?_, ?_, ?_⟩ <;> rintro rfl <;> simp_all

theorem bare_nameOf (text : List Char) : Bare (nameOf text) :=
  bare_of_forall (fun _ member => List.mem_takeWhile_imp member) (by decide)

theorem walks_afterName (rest : List Char) (n : Nat) : Walks 0 rest (afterName rest n).rest := by
  have letters := Walks.bare (bare_nameOf rest) (afterName rest n).rest
  rwa [nameOf_append_afterName] at letters

theorem walks_name {rest : List Char} (named : nameOf rest ≠ []) (n : Nat) :
    Walks 0 ('\\' :: rest) (afterName rest n).rest := by
  cases rest with
  | nil => exact absurd rfl named
  | cons ch rest =>
    have letter : ch.isAlpha :=
      Decidable.byContradiction fun other => named (List.takeWhile_cons_of_neg other)
    rw [afterName_cons letter]
    exact .escaped ch (walks_afterName rest (n + 1))

section Skip

variable {c : Cursor} {n : Nat} {ch : Char} {rest : List Char}

theorem rest_skipFrom (text : List Char) (n : Nat) (h : uncommented text) :
    (Cursor.skipFrom false text n).rest = text.dropWhile Text.isBlank := by
  induction text generalizing n with
  | nil => rfl
  | cons ch text ih =>
    simp only [Cursor.skipFrom, Bool.false_eq_true, if_false, List.dropWhile_cons]
    split
    · rename_i blank
      have slash : ch ≠ '\\' := by
        rintro rfl
        exact absurd blank (by decide)
      exact ih (n + 1) (uncommented_cons h slash).2
    · have percent : ch ≠ '%' := by
        rintro rfl
        exact (uncommented_cons h (by decide)).1 rfl
      rw [if_neg percent]

theorem walks_skip (h : uncommented c.rest) : Walks 0 c.rest c.skip.rest := by
  have split : c.rest.takeWhile Text.isBlank ++ c.skip.rest = c.rest := by
    rw [Cursor.skip, rest_skipFrom c.rest c.offset h, List.takeWhile_append_dropWhile]
  have blank : Bare (c.rest.takeWhile Text.isBlank) :=
    bare_of_forall (fun _ member => List.mem_takeWhile_imp member) (by decide)
  have skipped := Walks.bare blank c.skip.rest
  rwa [split] at skipped

theorem walks_of_skip (h : uncommented c.rest) (hs : c.skip = ⟨rest, n⟩) :
    Walks 0 c.rest rest := by
  have skipped := walks_skip h
  rwa [hs] at skipped

/-- The first character that is not blank is the one behind the blanks. -/
theorem find?_of_skip (h : uncommented c.rest) (hs : c.skip = ⟨ch :: rest, n⟩) :
    c.rest.find? (!Text.isBlank ·) = some ch := by
  have skipped := rest_skipFrom c.rest c.offset h
  rw [Cursor.skip] at hs
  rw [hs] at skipped
  rw [List.find?_not_eq_head?_dropWhile, ← skipped]
  rfl

theorem Cursor.skip_of_head? (h : c.skip.rest.head? = some ch) :
    ∃ rest n, c.skip = ⟨ch :: rest, n⟩ := by
  rcases hs : c.skip with ⟨_ | ⟨head, rest⟩, n⟩
  · rw [hs] at h
    cases h
  · rw [hs] at h
    cases h
    exact ⟨rest, n, rfl⟩

end Skip

/-- The text of a group closes it. -/
theorem walks_bracedText {depth : Nat} {text inner after : List Char}
    (hb : bracedText depth text = (inner, some after)) : Walks (depth + 1) text after := by
  fun_induction bracedText depth text generalizing inner with
  | case1 => cases hb
  | case2 depth ch rest text more read ih =>
    cases hb
    exact .escaped ch (ih read)
  | case3 depth rest text more read ih =>
    cases hb
    exact .opening (ih read)
  | case4 rest =>
    cases hb
    exact .closing (.done after)
  | case5 rest depth text more read ih =>
    cases hb
    exact .closing (ih read)
  | case6 depth ch rest escaped opening closing text more read ih =>
    cases hb
    by_cases slash : ch = '\\'
    · -- A backslash that hides nothing is the last character, and no group is closed behind it.
      subst slash
      cases rest with
      | nil => cases read
      | cons ch rest => exact absurd rfl (escaped ch rest · rfl)
    · exact .plain opening closing slash (ih read)

theorem Walks.bracedText {n : Nat} {front left : List Char} (h : Walks n front left)
    (depth : Nat) : (bracedText (n + depth) front).2 = (bracedText depth left).2 := by
  induction h with
  | done => rw [Nat.zero_add]
  | plain opening closing slash _ ih =>
    rw [Source.bracedText]
    · exact ih
    · exact fun _ _ same _ => slash same
    · exact opening
    · exact closing
  | escaped ch _ ih => exact ih
  | last =>
    rw [Nat.zero_add]
    rfl
  | @opening n rest left _ ih =>
    rw [Nat.add_right_comm] at ih
    exact ih
  | @closing n rest left _ ih =>
    rw [Nat.add_right_comm]
    exact ih

section Readers

variable {t : Tables} {owner : Nat} {c after : Cursor} {raw : List Char} {ch : Char}

/-- A raw argument closes its groups, unless it is a closing brace by itself. -/
theorem walks_rawGroup (h : uncommented c.rest)
    (read : rawGroup .strict owner c = (.ok raw, after)) :
    (raw = ['}'] ∧ c.rest.find? (!Text.isBlank ·) = some '}') ∨ Walks 0 c.rest after.rest := by
  rcases hs : c.skip with ⟨_ | ⟨ch, rest⟩, n⟩
  · rw [rawGroup_of_end hs] at read
    cases read
  · have skipped := walks_of_skip h hs
    by_cases opening : ch = '{'
    · subst opening
      rcases hb : bracedText 0 rest with ⟨text, _ | left⟩
      · rw [rawGroup_of_open hs hb] at read
        cases read
      · rw [rawGroup_of_braces hs hb] at read
        cases read
        exact .inr (skipped.before (.opening (walks_bracedText hb)))
    · by_cases slash : ch = '\\'
      · subst slash
        by_cases named : nameOf rest = []
        · rw [rawGroup_of_sign hs named] at read
          cases read
          cases rest with
          | nil => exact .inr (skipped.before .last)
          | cons ch rest => exact .inr (skipped.before (.escaped ch (.done rest)))
        · rw [rawGroup_of_name hs named] at read
          cases read
          exact .inr (skipped.before (walks_name named _))
      · rw [rawGroup_of_character hs opening slash] at read
        cases read
        by_cases closing : ch = '}'
        · subst closing
          exact .inl ⟨rfl, find?_of_skip h hs⟩
        · exact .inr (skipped.before (.plain opening closing slash (.done rest)))

theorem walks_delimiter (h : uncommented c.rest)
    (free : ∀ brace, c.rest.find? (!Text.isBlank ·) = some brace → brace ≠ '{' ∧ brace ≠ '}')
    (read : delimiter t owner c = (.ok ch, after)) : Walks 0 c.rest after.rest := by
  rcases hs : c.skip with ⟨_ | ⟨head, rest⟩, n⟩
  · rw [delimiter_of_end hs] at read
    cases read
  · have skipped := walks_of_skip h hs
    by_cases slash : head = '\\'
    · subst slash
      by_cases named : nameOf rest = []
      · cases rest with
        | nil =>
          rw [delimiter_of_backslash hs] at read
          cases read
        | cons sign rest =>
          rw [delimiter_of_sign hs named] at read
          cases read
          exact skipped.before (.escaped ch (.done rest))
      · rw [delimiter_of_name hs named] at read
        have place := congrArg Prod.snd read
        cases place
        exact skipped.before (walks_name named _)
    · rw [delimiter_of_character hs slash] at read
      cases read
      have shown := free _ (find?_of_skip h hs)
      exact skipped.before (.plain shown.1 shown.2 slash (.done rest))

end Readers

section Numbers

open Decimal

variable {text : List Char}

theorem Bare.nil : Bare [] := fun _ member => by cases member

theorem Bare.append {text' : List Char} (h : Bare text) (h' : Bare text') : Bare (text ++ text') :=
  fun ch member => (List.mem_append.mp member).elim (h ch) (h' ch)

theorem Bare.cons {ch : Char} (different : ch ≠ '{' ∧ ch ≠ '}' ∧ ch ≠ '\\') (h : Bare text) :
    Bare (ch :: text) := by
  intro other member
  obtain rfl | member := List.mem_cons.mp member
  · exact different
  · exact h other member

theorem bare_of_isDigit (h : ∀ ch ∈ text, ch.isDigit) : Bare text := bare_of_forall h (by decide)

/-- A sign before a text is no brace. -/
theorem bare_of_signed {negative : Bool} {size : List Char}
    (h : (match text with
      | '-' :: size => (true, size)
      | '+' :: size => (false, size)
      | size => (false, size)) = (negative, size)) (inner : Bare size) : Bare text := by
  split at h
  · cases h
    exact inner.cons (by decide)
  · cases h
    exact inner.cons (by decide)
  · cases h
    exact inner

theorem bare_exponent? {e : Int} (h : Literal.exponent? text = some e) : Bare text := by
  -- What follows the letter is a sign and digits.
  have digits {ds : List Char} {size : Int}
      (numeric : (if ds.isEmpty || !ds.all Char.isDigit then none else some size) = some e) :
      Bare ds := by
    split at numeric
    · cases numeric
    · rename_i all
      simp only [Bool.or_eq_true, Bool.not_eq_true', not_or, Bool.not_eq_false] at all
      exact bare_of_isDigit (List.all_eq_true.mp all.2)
  unfold Literal.exponent? at h
  split at h
  · exact .nil
  · split at h
    rename_i signed
    exact (bare_of_signed signed (digits h)).cons (by decide)
  · split at h
    rename_i signed
    exact (bare_of_signed signed (digits h)).cons (by decide)
  · cases h

theorem bare_number? {negative : Bool} {literal : Literal}
    (h : Literal.number? negative text = some literal) : Bare text := by
  have whole (text : List Char) : Bare (text.takeWhile Char.isDigit) :=
    bare_of_isDigit fun ch member => List.mem_takeWhile_imp member
  rw [← List.takeWhile_append_dropWhile (p := Char.isDigit) (l := text)]
  refine (whole text).append ?_
  unfold Literal.number? at h
  simp only at h
  split at h
  · rename_i rest point
    split at h
    · cases h
    · obtain ⟨e, exponent, -⟩ := Option.map_eq_some_iff.mp h
      rw [point, ← List.takeWhile_append_dropWhile (p := Char.isDigit) (l := rest)]
      exact ((whole rest).append (bare_exponent? exponent)).cons (by decide)
  · split at h
    · cases h
    · obtain ⟨e, exponent, -⟩ := Option.map_eq_some_iff.mp h
      exact bare_exponent? exponent

theorem bare_of_lower {name : String} (h : String.ofList (text.map Char.toLower) = name)
    (letters : Bare name.toList) : Bare text := by
  intro ch member
  have lower : ch.toLower ∈ name.toList := by
    rw [← h, String.toList_ofList]
    exact List.mem_map_of_mem member
  have shown := letters ch.toLower lower
  refine ⟨?_, ?_, ?_⟩ <;> rintro rfl
  · exact shown.1 rfl
  · exact shown.2.1 rfl
  · exact shown.2.2 rfl

theorem bare_ofText? {literal : Literal} (h : Literal.ofText? text = some literal) :
    Bare text := by
  unfold Literal.ofText? at h
  split at h
  rename_i signed
  refine bare_of_signed signed ?_
  split at h
  · rename_i number
    exact bare_number? number
  · split at h
    · rename_i name
      exact bare_of_lower name (by simp [Bare])
    · rename_i name
      exact bare_of_lower name (by simp [Bare])
    · rename_i name
      exact bare_of_lower name (by simp [Bare])
    · cases h

theorem bare_of_dropWhile (h : Bare (text.dropWhile Text.isBlank)) : Bare text := by
  have blank : Bare (text.takeWhile Text.isBlank) :=
    bare_of_forall (fun _ member => List.mem_takeWhile_imp member) (by decide)
  have whole := blank.append h
  rwa [List.takeWhile_append_dropWhile] at whole

theorem Bare.reverse (h : Bare text) : Bare text.reverse :=
  fun ch member => h ch (List.mem_reverse.mp member)

theorem bare_of_trim (h : Bare (Text.trim text)) : Bare text := by
  have behind := bare_of_dropWhile (by simpa [Text.trim] using h.reverse)
  have inside := behind.reverse
  rw [List.reverse_reverse] at inside
  exact bare_of_dropWhile inside

theorem bare_numberOf {owner : Nat} {x : Float32} (h : numberOf owner text = .ok x) :
    Bare text := by
  unfold numberOf at h
  split at h
  · rename_i number
    obtain ⟨literal, read, -⟩ := Option.map_eq_some_iff.mp number
    exact bare_of_trim (bare_ofText? read)
  · cases h

end Numbers

section Arguments

variable {t : Tables} {owner n : Nat} {c after : Cursor} {rest raw : List Char}

theorem walks_textUntil {close : Char} (different : close ≠ '{' ∧ close ≠ '}' ∧ close ≠ '\\')
    (h : Bare raw) (read : textUntil close owner c = (.ok raw, after)) :
    Walks 0 c.rest after.rest := by
  unfold textUntil at read
  split at read
  · cases read
  · rename_i last rest found
    cases read
    have closing : last = close := by
      have stops := List.head?_dropWhile_not (· != close) c.rest
      rw [found] at stops
      simpa using stops
    rw [← List.takeWhile_append_dropWhile (p := (· != close)) (l := c.rest), found, closing]
    exact (Walks.bare h _).before (.plain different.1 different.2.1 different.2.2 (.done rest))

theorem walks_readOptional {x : Option Float32} (h : uncommented c.rest)
    (read : Plain.readOptional owner c = (.ok x, after)) : Walks 0 c.rest after.rest := by
  have skipped := walks_skip h
  by_cases opening : c.skip.rest.head? = some '['
  · obtain ⟨rest, n, hs⟩ := Cursor.skip_of_head? opening
    rw [hs] at skipped
    rw [readOptional_of_open hs] at read
    rcases taken : textUntil ']' owner ⟨rest, n + 1⟩ with ⟨_ | raw, behind⟩
    · rw [taken] at read
      cases read
    · rw [taken] at read
      obtain ⟨value, rfl⟩ := Prod.mk.inj read
      have numeric : Bare raw := by
        cases number : numberOf owner raw with
        | ok y => exact bare_numberOf number
        | error e =>
          simp only [Except.bind, number] at value
          cases value
      have inside := walks_textUntil (by decide) numeric taken
      exact skipped.before (.plain (by decide) (by decide) (by decide) inside)
  · rw [readOptional_of_absent opening] at read
    cases read
    exact skipped

/-- Whether a plain parameter takes no brace by itself from the front of a text. -/
def Plain.Clear (p : Plain) (text : List Char) : Prop :=
  match p with
  | .text => text.find? (!Text.isBlank ·) ≠ some '}'
  | .delimiter => ∀ ch, text.find? (!Text.isBlank ·) = some ch → ch ≠ '{' ∧ ch ≠ '}'
  | .number | .optionalNumber | .color | .length => True

theorem readGroup_ok {α : Type} {mode : Mode} {interpret : List Char → Except ParseError α} {x : α}
    (h : Plain.readGroup mode owner interpret c = (.ok x, after)) :
    ∃ raw, rawGroup mode owner c = (.ok raw, after) ∧ interpret raw = .ok x := by
  rw [readGroup_eq] at h
  rcases read : rawGroup mode owner c with ⟨_ | raw, behind⟩
  · rw [read] at h
    cases h
  · rw [read] at h
    obtain ⟨value, rfl⟩ := Prod.mk.inj h
    exact ⟨raw, rfl, value⟩

/-- A brace by itself is no number, no color and no length. -/
theorem walks_readGroup {α : Type} {interpret : List Char → Except ParseError α} {x : α}
    (h : uncommented c.rest) (refused : ∀ x, interpret ['}'] ≠ .ok x)
    (read : Plain.readGroup .strict owner interpret c = (.ok x, after)) :
    Walks 0 c.rest after.rest := by
  obtain ⟨raw, group, value⟩ := readGroup_ok read
  obtain ⟨brace, -⟩ | walks := walks_rawGroup h group
  · rw [brace] at value
    exact absurd value (refused x)
  · exact walks

theorem walks_read {p : Plain} {x : p.Value} (h : uncommented c.rest) (clear : p.Clear c.rest)
    (read : p.read t .strict owner c = (.ok x, after)) : Walks 0 c.rest after.rest := by
  cases p with
  | text =>
    obtain ⟨raw, group, -⟩ := readGroup_ok read
    obtain ⟨-, brace⟩ | walks := walks_rawGroup h group
    · exact absurd brace clear
    · exact walks
  | number =>
    refine walks_readGroup h (fun x value => ?_) read
    exact absurd rfl (bare_numberOf value '}' (by simp)).2.1
  | optionalNumber => exact walks_readOptional h read
  | color => exact walks_readGroup h (fun x value => by cases value) read
  | length => exact walks_readGroup h (fun x value => by cases value) read
  | delimiter => exact walks_delimiter h clear read

/-- The arguments of a text command close their groups, unless one is a closing brace by itself. -/
theorem walks_textArgs {count : Nat} {args : List (List Char)} (h : uncommented c.rest)
    (clear : ∀ before < count, ∀ args place, textArgs .strict owner before c = (.ok args, place) →
      place.rest.find? (!Text.isBlank ·) ≠ some '}')
    (read : textArgs .strict owner count c = (.ok args, after)) : Walks 0 c.rest after.rest := by
  induction count generalizing c args with
  | zero =>
    cases read
    exact .done _
  | succ count ih =>
    rw [textArgs] at read
    rcases group : rawGroup .strict owner c with ⟨_ | raw, behind⟩
    · rw [group] at read
      cases read
    · have first : Walks 0 c.rest behind.rest := by
        obtain ⟨-, brace⟩ | walks := walks_rawGroup h group
        · exact absurd brace (clear 0 (Nat.succ_pos _) [] c rfl)
        · exact walks
      rcases later : textArgs .strict owner count behind with ⟨_ | args, last⟩
      · rw [group] at read
        simp only [later] at read
        cases read
      · rw [group] at read
        simp only [later] at read
        cases read
        have behind := first.uncommented h
        refine first.before (ih behind (fun before less args place taken => ?_) later)
        refine clear (before + 1) (Nat.succ_lt_succ less) (raw :: args) place ?_
        rw [textArgs, group]
        simp only [taken]

end Arguments

end FormulaInk.Source
