import Mathlib.Data.List.DropRight
import FormulaInk.Proofs.Reading.Places

/-! Reading with less text behind. What a strict reading leaves of a source has no part in what it
finds, and neither has what stands further behind. -/

namespace FormulaInk.Source

section Text

variable {n k : Nat} {ch : Char} {front left rest after text : List Char}

theorem rdrop_append (h : n ≤ left.length) : (front ++ left).rdrop n = front ++ left.rdrop n := by
  rw [List.rdrop, List.length_append, Nat.add_sub_assoc h, List.take_length_add_append, List.rdrop]

theorem rdrop_cons (h : n ≤ rest.length) : (ch :: rest).rdrop n = ch :: rest.rdrop n := by
  show ([ch] ++ rest).rdrop n = [ch] ++ rest.rdrop n
  exact rdrop_append h

theorem rdrop_length (front left : List Char) : (front ++ left).rdrop left.length = front := by
  rw [rdrop_append (Nat.le_refl _), List.rdrop, Nat.sub_self, List.take_zero, List.append_nil]

theorem head?_of_rdrop (h : (left.rdrop n).head? = some ch) : left.head? = some ch := by
  obtain ⟨tail, cut⟩ := List.head?_eq_some_iff.mp h
  have inside : left.rdrop n <+: left := List.take_prefix _ _
  rw [cut] at inside
  obtain ⟨more, rfl⟩ := inside
  rfl

/-- A name ends where it ended, with less text behind it. -/
theorem nameOf_rdrop (h : n ≤ (afterName rest k).rest.length) :
    nameOf (rest.rdrop n) = nameOf rest := by
  have letters : ∀ ch ∈ nameOf rest, ch.isAlpha := fun _ member => List.mem_takeWhile_imp member
  have edge : ((afterName rest k).rest.rdrop n).takeWhile Char.isAlpha = [] := by
    cases cut : (afterName rest k).rest.rdrop n with
    | nil => rfl
    | cons ch tail =>
      refine List.takeWhile_cons_of_neg fun letter => ?_
      have first : (afterName rest k).rest.head? = some ch := head?_of_rdrop (by rw [cut]; rfl)
      have stops := List.head?_dropWhile_not Char.isAlpha rest
      rw [← rest_afterName rest k, first] at stops
      simp [letter] at stops
  conv_lhs => rw [← nameOf_append_afterName rest k, rdrop_append h]
  rw [nameOf, List.takeWhile_append_of_pos letters, edge, List.append_nil]

/-- What a group holds is followed by its closing brace, and does not depend on what follows. -/
theorem bracedText_eq_append {depth : Nat} (h : bracedText depth rest = (text, some after)) :
    rest = text ++ '}' :: after ∧
      ∀ left, bracedText depth (text ++ '}' :: left) = (text, some left) := by
  fun_induction bracedText depth rest generalizing text with
  | case1 => cases h
  | case2 depth ch rest inner more read ih =>
    cases h
    obtain ⟨rfl, other⟩ := ih read
    exact ⟨rfl, fun left => by simp [bracedText, other left]⟩
  | case3 depth rest inner more read ih =>
    cases h
    obtain ⟨rfl, other⟩ := ih read
    exact ⟨rfl, fun left => by simp [bracedText, other left]⟩
  | case4 rest =>
    cases h
    exact ⟨rfl, fun left => rfl⟩
  | case5 rest depth inner more read ih =>
    cases h
    obtain ⟨rfl, other⟩ := ih read
    exact ⟨rfl, fun left => by simp [bracedText, other left]⟩
  | case6 depth ch rest hidden opening closing inner more read ih =>
    cases h
    obtain ⟨rfl, other⟩ := ih read
    have slash : ch ≠ '\\' := by
      -- Something stands behind the character, at least the closing brace.
      rintro rfl
      cases inner with
      | nil => exact hidden '}' after rfl rfl
      | cons next inner => exact hidden next _ rfl rfl
    refine ⟨rfl, fun left => ?_⟩
    rw [List.cons_append, bracedText]
    · rw [other left]
    · exact fun _ _ same _ => slash same
    · exact opening
    · exact closing

end Text

namespace Cursor

/-- The place with the last `n` characters of the source taken away. -/
def cut (c : Cursor) (n : Nat) : Cursor := ⟨c.rest.rdrop n, c.offset⟩

variable {c : Cursor} {n k : Nat} {ch : Char} {rest : List Char}

theorem cut_nil (k n : Nat) : cut ⟨[], k⟩ n = ⟨[], k⟩ := by
  rw [cut, List.rdrop_nil]

theorem cut_cons (h : n ≤ rest.length) : cut ⟨ch :: rest, k⟩ n = ⟨ch :: rest.rdrop n, k⟩ := by
  rw [cut, rdrop_cons h]

theorem cut_skipFrom (comment : Bool) (rest : List Char) (k : Nat)
    (h : n ≤ (skipFrom comment rest k).rest.length) :
    skipFrom comment (rest.rdrop n) k = (skipFrom comment rest k).cut n := by
  induction rest generalizing comment k with
  | nil => simp [skipFrom, cut]
  | cons ch rest ih =>
    -- Whichever way the reader passes the character, what it leaves is part of the rest.
    have onward (comment' : Bool) (same : skipFrom comment (ch :: rest) k =
        skipFrom comment' rest (k + 1)) : n ≤ rest.length := by
      rw [same] at h
      exact h.trans (length_skipFrom_le comment' rest (k + 1))
    by_cases inside : comment = true
    · have step (tail : List Char) : skipFrom comment (ch :: tail) k =
          skipFrom (ch != '\n') tail (k + 1) := by simp [skipFrom, inside]
      have short := onward _ (step rest)
      rw [rdrop_cons short, step, step]
      exact ih _ _ (step rest ▸ h)
    · by_cases blank : Text.isBlank ch = true
      · have step (tail : List Char) : skipFrom comment (ch :: tail) k =
            skipFrom false tail (k + 1) := by simp [skipFrom, inside, blank]
        have short := onward _ (step rest)
        rw [rdrop_cons short, step, step]
        exact ih _ _ (step rest ▸ h)
      · by_cases percent : ch = '%'
        · have step (tail : List Char) : skipFrom comment (ch :: tail) k =
              skipFrom true tail (k + 1) := by
            rw [skipFrom, if_neg inside, if_neg blank, if_pos percent]
          have short := onward _ (step rest)
          rw [rdrop_cons short, step, step]
          exact ih _ _ (step rest ▸ h)
        · have stop (tail : List Char) : skipFrom comment (ch :: tail) k = ⟨ch :: tail, k⟩ := by
            rw [skipFrom, if_neg inside, if_neg blank, if_neg percent]
          rw [stop] at h ⊢
          obtain short | all := Nat.lt_or_eq_of_le h
          · rw [cut_cons (Nat.le_of_lt_succ short), rdrop_cons (Nat.le_of_lt_succ short), stop]
          · have nothing : (ch :: rest).rdrop n = [] := by simp [List.rdrop, all]
            rw [cut, nothing]
            rfl

theorem skip_cut (h : n ≤ c.skip.rest.length) : (c.cut n).skip = c.skip.cut n :=
  cut_skipFrom false c.rest c.offset h

theorem head?_skip_cut (h : n ≤ c.skip.rest.length) (other : c.skip.rest.head? ≠ some ch) :
    (c.cut n).skip.rest.head? ≠ some ch := by
  rw [skip_cut h]
  exact fun first => other (head?_of_rdrop first)

theorem skip_cut_cons (hs : c.skip = ⟨ch :: rest, k⟩) (h : n ≤ rest.length) :
    (c.cut n).skip = ⟨ch :: rest.rdrop n, k⟩ := by
  rw [skip_cut (by rw [hs]; exact Nat.le_succ_of_le h), hs, cut_cons h]

theorem cut_afterName (h : n ≤ (afterName rest k).rest.length) :
    afterName (rest.rdrop n) k = (afterName rest k).cut n := by
  have dropped : (rest.rdrop n).drop (nameOf rest).length = (afterName rest k).rest.rdrop n := by
    have front : rest.rdrop n = nameOf rest ++ (afterName rest k).rest.rdrop n := by
      conv_lhs => rw [← nameOf_append_afterName rest k, rdrop_append h]
    rw [front, List.drop_left]
  rw [cut, ← dropped]
  simp only [afterName, nameOf_rdrop h]

end Cursor

section Readers

variable {t : Tables} {owner n : Nat} {c after : Cursor}

theorem le_of_afterName {rest : List Char} {k : Nat} (h : n ≤ (afterName rest k).rest.length) :
    n ≤ rest.length :=
  h.trans (by simp [afterName])

theorem rawGroup_cut {raw : List Char} (read : rawGroup .strict owner c = (.ok raw, after))
    (h : n ≤ after.rest.length) : rawGroup .strict owner (c.cut n) = (.ok raw, after.cut n) := by
  rcases hs : c.skip with ⟨_ | ⟨ch, rest⟩, k⟩
  · rw [rawGroup_of_end hs] at read
    cases read
  · by_cases brace : ch = '{'
    · subst brace
      rcases hb : bracedText 0 rest with ⟨text, _ | left⟩
      · rw [rawGroup_of_open hs hb] at read
        cases read
      · rw [rawGroup_of_braces hs hb] at read
        cases read
        obtain ⟨rfl, other⟩ := bracedText_eq_append hb
        have short : n ≤ ('}' :: left).length := Nat.le_succ_of_le h
        have inside : (raw ++ '}' :: left).rdrop n = raw ++ '}' :: left.rdrop n := by
          rw [rdrop_append short, rdrop_cons h]
        have front := Cursor.skip_cut_cons hs (short.trans (by simp))
        rw [inside] at front
        exact rawGroup_of_braces front (other _)
    · by_cases slash : ch = '\\'
      · subst slash
        by_cases named : nameOf rest = []
        · rw [rawGroup_of_sign hs named] at read
          cases read
          cases rest with
          | nil =>
            have short : n ≤ ([] : List Char).length := h
            have front := Cursor.skip_cut_cons hs short
            rw [List.rdrop_nil] at front
            exact (rawGroup_of_sign front rfl).trans (by simp [Cursor.cut])
          | cons ch rest =>
            have short : n ≤ rest.length := h
            have front := Cursor.skip_cut_cons hs (Nat.le_succ_of_le short)
            rw [rdrop_cons short] at front
            have sign : nameOf (ch :: rest.rdrop n) = [] :=
              List.takeWhile_cons_of_neg (not_isAlpha_of_nameOf named)
            exact rawGroup_of_sign front sign
        · rw [rawGroup_of_name hs named] at read
          cases read
          have front := Cursor.skip_cut_cons hs (le_of_afterName h)
          have name : nameOf (rest.rdrop n) = nameOf rest := nameOf_rdrop h
          rw [rawGroup_of_name front (by rwa [name]), name, Cursor.cut_afterName h]
      · rw [rawGroup_of_character hs brace slash] at read
        cases read
        exact rawGroup_of_character (Cursor.skip_cut_cons hs h) brace slash

theorem delimiter_cut {ch : Char} (read : delimiter t owner c = (.ok ch, after))
    (h : n ≤ after.rest.length) : delimiter t owner (c.cut n) = (.ok ch, after.cut n) := by
  rcases hs : c.skip with ⟨_ | ⟨head, rest⟩, k⟩
  · rw [delimiter_of_end hs] at read
    cases read
  · by_cases slash : head = '\\'
    · subst slash
      by_cases named : nameOf rest = []
      · cases rest with
        | nil =>
          rw [delimiter_of_backslash hs] at read
          cases read
        | cons sign rest =>
          rw [delimiter_of_sign hs named] at read
          cases read
          have front := Cursor.skip_cut_cons hs (Nat.le_succ_of_le h)
          rw [rdrop_cons h] at front
          exact delimiter_of_sign front
            (List.takeWhile_cons_of_neg (not_isAlpha_of_nameOf named))
      · rw [delimiter_of_name hs named] at read
        obtain ⟨value, rfl⟩ := Prod.mk.inj read
        have front := Cursor.skip_cut_cons hs (le_of_afterName h)
        have name : nameOf (rest.rdrop n) = nameOf rest := nameOf_rdrop h
        rw [delimiter_of_name front (by rwa [name]), name, Cursor.cut_afterName h, value]
    · rw [delimiter_of_character hs slash] at read
      cases read
      exact delimiter_of_character (Cursor.skip_cut_cons hs h) slash

theorem textUntil_cut {close : Char} {text : List Char}
    (read : textUntil close owner c = (.ok text, after)) (h : n ≤ after.rest.length) :
    textUntil close owner (c.cut n) = (.ok text, after.cut n) := by
  have whole := List.takeWhile_append_dropWhile (p := (· != close)) (l := c.rest)
  unfold textUntil at read
  split at read
  · cases read
  · rename_i last rest found
    cases read
    have stops := List.head?_dropWhile_not (· != close) c.rest
    rw [found] at stops whole
    have closing : ¬(last != close) = true := by simpa using stops
    have before : ∀ ch ∈ c.rest.takeWhile (· != close), (ch != close) = true :=
      fun _ member => List.mem_takeWhile_imp (p := (· != close)) member
    have short : n ≤ (last :: rest).length := Nat.le_succ_of_le h
    have front : c.rest.rdrop n = c.rest.takeWhile (· != close) ++ last :: rest.rdrop n := by
      conv_lhs => rw [← whole, rdrop_append short, rdrop_cons h]
    have text : (c.rest.rdrop n).takeWhile (· != close) = c.rest.takeWhile (· != close) := by
      rw [front, List.takeWhile_append_of_pos before,
        List.takeWhile_cons_of_neg (p := (· != close)) closing, List.append_nil]
    have left : (c.rest.rdrop n).dropWhile (· != close) = last :: rest.rdrop n := by
      rw [front, List.dropWhile_append_of_pos before,
        List.dropWhile_cons_of_neg (p := (· != close)) closing]
    simp [textUntil, Cursor.cut, text, left]

theorem readOptional_cut {x : Option Float32}
    (read : Plain.readOptional owner c = (.ok x, after)) (h : n ≤ after.rest.length) :
    Plain.readOptional owner (c.cut n) = (.ok x, after.cut n) := by
  by_cases opening : c.skip.rest.head? = some '['
  · obtain ⟨rest, more⟩ := List.head?_eq_some_iff.mp opening
    have hs : c.skip = ⟨'[' :: rest, c.skip.offset⟩ := by rw [← more]
    have place := leads_textUntil ']' owner ⟨rest, c.skip.offset + 1⟩
    rw [readOptional_of_open hs] at read
    rcases taken : textUntil ']' owner ⟨rest, c.skip.offset + 1⟩ with ⟨_ | raw, behind⟩
    · rw [taken] at read
      cases read
    · rw [taken] at read place
      obtain ⟨value, rfl⟩ := Prod.mk.inj read
      have short : n ≤ rest.length := h.trans place.rest.length_le
      have inside : textUntil ']' owner ⟨rest.rdrop n, c.skip.offset + 1⟩ = (.ok raw, behind.cut n) :=
        textUntil_cut taken h
      rw [readOptional_of_open (Cursor.skip_cut_cons hs short), inside]
      exact Prod.ext value rfl
  · rw [readOptional_of_absent opening] at read
    cases read
    rw [readOptional_of_absent (Cursor.head?_skip_cut h opening), Cursor.skip_cut h]

theorem read_cut {p : Plain} {x : p.Value} (read : p.read t .strict owner c = (.ok x, after))
    (h : n ≤ after.rest.length) : p.read t .strict owner (c.cut n) = (.ok x, after.cut n) := by
  have group {α : Type} {interpret : List Char → Except ParseError α} {x : α}
      (read : Plain.readGroup .strict owner interpret c = (.ok x, after)) :
      Plain.readGroup .strict owner interpret (c.cut n) = (.ok x, after.cut n) := by
    rw [readGroup_eq] at read ⊢
    rcases taken : rawGroup .strict owner c with ⟨_ | raw, behind⟩
    · rw [taken] at read
      cases read
    · rw [taken] at read
      obtain ⟨value, rfl⟩ := Prod.mk.inj read
      rw [rawGroup_cut taken h]
      exact Prod.ext value rfl
  cases p with
  | optionalNumber => exact readOptional_cut read h
  | delimiter => exact delimiter_cut read h
  | text | number | color | length => exact group read

theorem textArgs_cut {count : Nat} {args : List (List Char)}
    (read : textArgs .strict owner count c = (.ok args, after)) (h : n ≤ after.rest.length) :
    textArgs .strict owner count (c.cut n) = (.ok args, after.cut n) := by
  induction count generalizing c args with
  | zero =>
    cases read
    rfl
  | succ count ih =>
    rw [textArgs] at read
    rcases group : rawGroup .strict owner c with ⟨_ | raw, behind⟩
    · rw [group] at read
      cases read
    · have place := leads_textArgs .strict owner count behind
      rcases later : textArgs .strict owner count behind with ⟨_ | args, last⟩
      · rw [group] at read
        simp only [later] at read
        cases read
      · rw [group] at read
        simp only [later] at read
        cases read
        rw [later] at place
        have short : n ≤ behind.rest.length := h.trans place.rest.length_le
        rw [textArgs, rawGroup_cut group short]
        simp only [ih later]

end Readers

/-- The outcome with the last `n` characters of the source taken away. -/
def Outcome.cut {α : Type} (o : Outcome α) (n : Nat) : Outcome α := ⟨o.value, o.cursor.cut n, o.memo⟩

namespace Reads

variable {t : Tables} {d : Nat} {mode : Mode} {k : Task} {c : Cursor} {m : Memo}
  {o : Outcome k.Result} {v : List Nat} {n : Nat}

theorem le_of_left (h : Reads t d mode k c m o v) (left : n ≤ o.cursor.rest.length) :
    n ≤ c.rest.length :=
  left.trans h.length_le

/-- A strict reading that leaves `n` characters is the same without them. -/
theorem cut (h : Reads t d mode k c m o v) (strict : mode = .strict) (ok : ∃ a, o.value = .ok a)
    (left : n ≤ o.cursor.rest.length) : Reads t d mode k (c.cut n) m (o.cut n) v := by
  induction h with
  | unclosed | halted | unmatched | secondScript | argumentEnd | argumentMissing | unexpected
  | nameless | unknownSign | noRoom | textArgument | unknown | predefinedTooDeep | argsHalted
  | tooDeep =>
    obtain ⟨a, ok⟩ := ok
    cases ok
  | passed => cases strict
  | ended hs done =>
    have front := Cursor.skip_cut (hs ▸ left)
    rw [hs, Cursor.cut_nil] at front
    rw [Outcome.cut, Cursor.cut_nil]
    exact .ended front done
  | closed hs => exact .closed (Cursor.skip_cut_cons hs left)
  | item hs other stepReads laterReads first later =>
    have short := laterReads.le_of_left left
    have front := Cursor.skip_cut_cons hs (stepReads.le_of_left short)
    have both := Reads.item front other (first strict ⟨_, rfl⟩ short) (later strict ok left)
    exact both
  | script script hf _ ih => exact .script script hf (ih strict (Outcome.ok_of_map ok) left)
  | another brace script _ ih => exact .another brace script (ih strict (Outcome.ok_of_map ok) left)
  | argument hs present reads ih =>
    have front := Cursor.skip_cut_cons hs (reads.le_of_left left)
    exact .argument front present (ih strict ok left)
  | group _ ih => exact .group (ih strict (Outcome.ok_of_map ok) left)
  | command _ ih => exact .command (ih strict ok left)
  | tie => exact .tie
  | character plain found _ ih => exact .character plain found (ih strict ok left)
  | symbolCharacter plain missing found => exact .symbolCharacter plain missing found
  | itself plain missing unnamed => exact .itself plain missing unnamed
  | @construct d mode start ch rest k m construct o v letter built reads ih =>
    have short := reads.le_of_left left
    have name : nameOf (rest.rdrop n) = nameOf rest := nameOf_rdrop short
    have inside := ih strict (Outcome.ok_of_map ok) left
    rw [← Cursor.cut_afterName short] at inside
    rw [Cursor.cut_cons (le_of_afterName short)]
    exact .construct letter (name.symm ▸ built) inside
  | @name d mode start ch rest k m o v letter other reads ih =>
    have short := reads.le_of_left left
    have name : nameOf (rest.rdrop n) = nameOf rest := nameOf_rdrop short
    have inside := ih strict ok left
    rw [← Cursor.cut_afterName short] at inside
    rw [Cursor.cut_cons (le_of_afterName short)]
    refine .name letter (by rwa [name]) ?_
    rwa [name]
  | sign other found =>
    rw [Cursor.cut_cons left]
    exact .sign other found
  | symbol found => exact .symbol found
  | textCommand other found room read reads ih =>
    subst strict
    exact .textCommand other found room (textArgs_cut read (reads.le_of_left left)) (ih rfl ok left)
  | kept other absent found room hit => exact .kept other absent found room hit
  | predefined other absent found room miss reads _ =>
    exact .predefined other absent found room miss reads
  | atomParam _ ih => exact .atomParam (ih strict ok left)
  | optional hs reads ih =>
    have front := Cursor.skip_cut_cons hs (reads.le_of_left left)
    exact .optional front (ih strict (Outcome.ok_of_map ok) left)
  | @absent d mode start c m h =>
    have reads : Reads t d mode (.param start .optionalAtom) (c.cut n) m _ [] :=
      .absent (Cursor.head?_skip_cut left h)
    rwa [Cursor.skip_cut left] at reads
  | @plain d mode start p c m =>
    subst strict
    obtain ⟨x, ok⟩ := ok
    have read := read_cut (p := p) (Prod.ext (Outcome.found_of_ok ok) rfl) left
    have reads : Reads t d .strict (.param start (.plain p)) (c.cut n) m _ [] := .plain
    rw [read] at reads
    rw [Outcome.cut, ok]
    exact reads
  | nil => exact .nil
  | cons firstReads laterReads first later =>
    have short := laterReads.le_of_left left
    exact .cons (first strict ⟨_, rfl⟩ short) (later strict (Outcome.ok_of_map ok) left)
  | nested room reads _ => exact .nested room reads

end Reads

end FormulaInk.Source
