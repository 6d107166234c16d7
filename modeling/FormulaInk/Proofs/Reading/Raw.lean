import FormulaInk.Proofs.Reading.Pairing

/-! Readers of text as it stands, side by side. Text behind what is read does not change the
reading unless it joins what is read. -/

namespace FormulaInk.Source

namespace Cursor

theorem skipFrom_add (comment : Bool) (rest : List Char) (n d : Nat) :
    skipFrom comment rest (n + d) =
      ⟨(skipFrom comment rest n).rest, (skipFrom comment rest n).offset + d⟩ := by
  induction rest generalizing comment n with
  | nil => rfl
  | cons c rest ih =>
    simp only [skipFrom, Nat.add_right_comm n d 1]
    split
    · exact ih _ _
    · split
      · exact ih _ _
      · split
        · exact ih _ _
        · rfl

theorem skipFrom_append {comment : Bool} {rest : List Char} {n : Nat} (tail : List Char)
    (h : (skipFrom comment rest n).rest ≠ []) :
    skipFrom comment (rest ++ tail) n =
      ⟨(skipFrom comment rest n).rest ++ tail, (skipFrom comment rest n).offset⟩ := by
  induction rest generalizing comment n with
  | nil => exact absurd rfl h
  | cons c rest ih =>
    simp only [skipFrom, List.cons_append] at h ⊢
    split at h
    · rename_i hc
      simp only [hc, if_true]
      exact ih h
    · rename_i hc
      rw [if_neg hc, if_neg hc]
      split at h
      · rename_i hb
        simp only [hb, if_true]
        exact ih h
      · rename_i hb
        rw [if_neg hb, if_neg hb]
        split at h
        · rename_i hp
          simp only [hp, if_true] at h ⊢
          exact ih h
        · rename_i hp
          rw [if_neg hp, if_neg hp]
          rfl

theorem leads_skipFrom (comment : Bool) (rest : List Char) (n : Nat) :
    Leads ⟨rest, n⟩ (skipFrom comment rest n) := by
  have onward (c : Char) (rest : List Char) (n : Nat) : Leads ⟨c :: rest, n⟩ ⟨rest, n + 1⟩ :=
    ⟨List.suffix_cons c rest, by simp only [List.length_cons]; omega⟩
  induction rest generalizing comment n with
  | nil => exact ⟨List.suffix_refl _, rfl⟩
  | cons c rest ih =>
    simp only [skipFrom]
    split
    · exact (onward c rest n).trans (ih _ _)
    · split
      · exact (onward c rest n).trans (ih _ _)
      · split
        · exact (onward c rest n).trans (ih _ _)
        · exact ⟨List.suffix_refl _, rfl⟩

theorem leads_skip (c : Cursor) : c.Leads c.skip := leads_skipFrom false c.rest c.offset

theorem leads_drop {c : Cursor} {rest : List Char} {n : Nat} (h : c.Leads ⟨rest, n⟩) (count : Nat)
    (hc : count ≤ rest.length) : c.Leads ⟨rest.drop count, n + count⟩ := by
  refine h.trans ⟨List.drop_suffix count rest, ?_⟩
  simp only [List.length_drop]
  omega

theorem suffix_of_skip {c : Cursor} {ch : Char} {rest : List Char} {n : Nat}
    (h : c.skip = ⟨ch :: rest, n⟩) : ch :: rest <:+ c.rest := by
  have leads := c.leads_skip
  rw [h] at leads
  exact leads.rest

theorem leads_of_skip {c : Cursor} {ch : Char} {rest : List Char} {n : Nat}
    (h : c.skip = ⟨ch :: rest, n⟩) : c.Leads ⟨rest, n + 1⟩ := by
  have leads := c.leads_skip
  rw [h] at leads
  exact leads_drop leads 1 (by simp)

theorem skipFrom_skipFrom (comment : Bool) (rest : List Char) (n : Nat) :
    (skipFrom comment rest n).skip = skipFrom comment rest n := by
  induction rest generalizing comment n with
  | nil => rfl
  | cons c rest ih =>
    simp only [skipFrom]
    split
    · exact ih _ _
    · split
      · exact ih _ _
      · split
        · exact ih _ _
        · simp_all [skip, skipFrom]

@[simp] theorem skip_skip (c : Cursor) : c.skip.skip = c.skip :=
  skipFrom_skipFrom false c.rest c.offset

end Cursor

theorem nameOf_append {tail : List Char} (h : ∀ ch ∈ tail.head?, ¬ch.isAlpha) (rest : List Char) :
    nameOf (rest ++ tail) = nameOf rest := by
  unfold nameOf
  induction rest with
  | nil =>
    cases tail with
    | nil => rfl
    | cons ch tail => simp_all
  | cons c rest ih => simp [List.takeWhile_cons, ih]

theorem length_nameOf_le (rest : List Char) : (nameOf rest).length ≤ rest.length :=
  (List.takeWhile_prefix _).length_le

theorem nameOf_cons {ch : Char} (letter : ch.isAlpha) (rest : List Char) :
    nameOf (ch :: rest) = ch :: nameOf rest :=
  List.takeWhile_cons_of_pos letter

theorem not_isAlpha_of_nameOf {ch : Char} {rest : List Char} (h : nameOf (ch :: rest) = []) :
    ¬ch.isAlpha := by
  intro letter
  rw [nameOf_cons letter] at h
  cases h

theorem rest_afterName (rest : List Char) (n : Nat) :
    (afterName rest n).rest = rest.dropWhile Char.isAlpha := by
  calc (afterName rest n).rest
      = (rest.takeWhile Char.isAlpha ++ rest.dropWhile Char.isAlpha).drop (nameOf rest).length := by
        rw [List.takeWhile_append_dropWhile]
        rfl
    _ = rest.dropWhile Char.isAlpha := List.drop_left

theorem nameOf_append_afterName (rest : List Char) (n : Nat) :
    nameOf rest ++ (afterName rest n).rest = rest := by
  rw [rest_afterName]
  exact List.takeWhile_append_dropWhile

theorem afterName_cons {ch : Char} (letter : ch.isAlpha) (rest : List Char) (n : Nat) :
    afterName (ch :: rest) n = afterName rest (n + 1) := by
  simp only [afterName, nameOf_cons letter, List.length_cons, List.drop_succ_cons,
    Cursor.mk.injEq, true_and]
  omega

theorem bracedText_append {depth : Nat} {cs after : List Char} (tail : List Char)
    (h : (bracedText depth cs).2 = some after) :
    bracedText depth (cs ++ tail) = ((bracedText depth cs).1, some (after ++ tail)) := by
  fun_induction bracedText depth cs with
  | case1 => simp at h
  | case2 depth c rest text rest' heq ih => simp_all [bracedText]
  | case3 depth rest text rest' heq ih => simp_all [bracedText]
  | case4 rest => simp_all [bracedText]
  | case5 rest depth text rest' heq ih => simp_all [bracedText]
  | case6 depth c rest hb ho hc text rest' heq ih =>
    cases rest with
    | nil => simp_all [bracedText]
    | cons d rest =>
      have hd : c ≠ '\\' := fun hd => hb d rest hd rfl
      rw [List.cons_append, bracedText]
      · simp_all
      · exact fun d rest hd' _ => hd hd'
      · exact ho
      · exact hc

theorem length_bracedText_add {depth : Nat} {cs after : List Char}
    (h : (bracedText depth cs).2 = some after) :
    (bracedText depth cs).1.length + 1 + after.length = cs.length := by
  fun_induction bracedText depth cs with
  | case1 => simp at h
  | case4 rest => simp_all; omega
  | _ => simp_all; omega

theorem bracedText_suffix {depth : Nat} {cs after : List Char}
    (h : (bracedText depth cs).2 = some after) : after <:+ cs := by
  fun_induction bracedText depth cs with
  | case1 => simp at h
  | case2 depth c rest text rest' heq ih =>
    exact (ih (by rw [heq]; exact h)).trans ⟨['\\', c], rfl⟩
  | case4 rest =>
    cases h
    exact List.suffix_cons _ _
  | _ => exact (‹_ → after <:+ _› (by simp_all)).trans (List.suffix_cons _ _)

section Equations

variable {mode : Mode} {t : Tables} {owner n : Nat} {c : Cursor} {ch : Char}
  {rest after text : List Char}

theorem rawGroup_of_end (h : c.skip = ⟨[], n⟩) :
    rawGroup mode owner c = (.error ⟨owner, .missingArgument⟩, ⟨[], n⟩) := by
  simp [rawGroup, h]

theorem rawGroup_of_braces (h : c.skip = ⟨'{' :: rest, n⟩)
    (hb : bracedText 0 rest = (text, some after)) :
    rawGroup mode owner c = (.ok text, ⟨after, n + text.length + 2⟩) := by
  simp [rawGroup, h, hb]

theorem rawGroup_of_open (h : c.skip = ⟨'{' :: rest, n⟩) (hb : bracedText 0 rest = (text, none)) :
    rawGroup mode owner c =
      (if mode = .strict then .error ⟨n, .unclosed '}'⟩ else .ok text,
        ⟨[], n + 1 + rest.length⟩) := by
  cases mode <;> simp [rawGroup, h, hb]

theorem rawGroup_of_sign (h : c.skip = ⟨'\\' :: rest, n⟩) (hn : nameOf rest = []) :
    rawGroup mode owner c =
      (.ok ('\\' :: rest.take 1), ⟨rest.drop 1, n + 1 + (rest.take 1).length⟩) := by
  simp [rawGroup, h, hn]

theorem rawGroup_of_name (h : c.skip = ⟨'\\' :: rest, n⟩) (hn : nameOf rest ≠ []) :
    rawGroup mode owner c = (.ok ('\\' :: nameOf rest), afterName rest (n + 1)) := by
  simp [rawGroup, h, hn, afterName]

theorem rawGroup_of_character (h : c.skip = ⟨ch :: rest, n⟩) (hb : ch ≠ '{') (hs : ch ≠ '\\') :
    rawGroup mode owner c = (.ok [ch], ⟨rest, n + 1⟩) := by
  unfold rawGroup
  split
  · rename_i hc
    cases h.symm.trans hc
  · rename_i hc
    cases h.symm.trans hc
    exact absurd rfl hb
  · rename_i hc
    cases h.symm.trans hc
    exact absurd rfl hs
  · rename_i hc
    cases h.symm.trans hc
    rfl

theorem delimiter_of_end (h : c.skip = ⟨[], n⟩) :
    delimiter t owner c = (.error ⟨owner, .missingDelimiter⟩, ⟨[], n⟩) := by
  simp [delimiter, h]

theorem delimiter_of_backslash (h : c.skip = ⟨['\\'], n⟩) :
    delimiter t owner c = (.error ⟨owner, .missingDelimiter⟩, ⟨[], n + 1⟩) := by
  simp [delimiter, h, nameOf]

theorem delimiter_of_sign (h : c.skip = ⟨'\\' :: ch :: rest, n⟩) (hn : nameOf (ch :: rest) = []) :
    delimiter t owner c = (.ok ch, ⟨rest, n + 2⟩) := by
  simp [delimiter, h, hn]

theorem delimiter_of_name (h : c.skip = ⟨'\\' :: rest, n⟩) (hn : nameOf rest ≠ []) :
    delimiter t owner c =
      (match t.symbols.get? (String.ofList (nameOf rest)) with
        | some symbol => .ok symbol.ch
        | none => .error ⟨owner, .unknownDelimiter (String.ofList (nameOf rest))⟩,
        afterName rest (n + 1)) := by
  simp only [delimiter, h, List.isEmpty_iff, hn, if_false, afterName]
  cases t.symbols.get? (String.ofList (nameOf rest)) <;> rfl

theorem delimiter_of_character (h : c.skip = ⟨ch :: rest, n⟩) (hs : ch ≠ '\\') :
    delimiter t owner c = (.ok ch, ⟨rest, n + 1⟩) := by
  unfold delimiter
  split
  · rename_i hc
    cases h.symm.trans hc
  · rename_i hc
    cases h.symm.trans hc
    exact absurd rfl hs
  · rename_i hc
    cases h.symm.trans hc
    rfl

theorem readGroup_eq {α : Type} (interpret : List Char → Except ParseError α) :
    Plain.readGroup mode owner interpret c =
      ((rawGroup mode owner c).1.bind interpret, (rawGroup mode owner c).2) := by
  unfold Plain.readGroup
  rcases rawGroup mode owner c with ⟨_ | raw, after⟩ <;> rfl

theorem readOptional_of_open (h : c.skip = ⟨'[' :: rest, n⟩) :
    Plain.readOptional owner c =
      ((textUntil ']' owner ⟨rest, n + 1⟩).1.bind fun raw => (numberOf owner raw).map some,
        (textUntil ']' owner ⟨rest, n + 1⟩).2) := by
  simp only [Plain.readOptional, h]
  rcases textUntil ']' owner ⟨rest, n + 1⟩ with ⟨_ | raw, after⟩ <;> rfl

theorem readOptional_of_absent (h : c.skip.rest.head? ≠ some '[') :
    Plain.readOptional owner c = (.ok none, c.skip) := by
  unfold Plain.readOptional
  split
  · rename_i hs
    simp [hs] at h
  · rfl

theorem textArgs_succ {count : Nat} {m : Memo} :
    Outcome.ofFound (textArgs mode owner (count + 1) c) m =
      (Outcome.ofFound (rawGroup mode owner c) m).andThen fun raw after m =>
        (Outcome.ofFound (textArgs mode owner count after) m).map (raw :: ·) := by
  rw [textArgs]
  rcases rawGroup mode owner c with ⟨_ | raw, after⟩
  · rfl
  · simp only [Outcome.ofFound, Outcome.andThen, Outcome.map]
    rcases textArgs mode owner count after with ⟨_ | rest, last⟩ <;> rfl

end Equations

namespace Pairing

variable {p : Pairing}

theorem moved_skip {c : Cursor} (h : p.tail = [] ∨ c.skip.rest ≠ []) :
    (p.moved c).skip = p.moved c.skip := by
  have shifted (cs : List Char) := Cursor.skipFrom_add false cs c.offset p.shift
  obtain tail | more := h
  · simp only [moved, Cursor.skip, tail, List.append_nil, shifted]
  · have behind := Cursor.skipFrom_append p.tail more
    simp only [moved, Cursor.skip, shifted, behind]

theorem moved_skip_cons {c : Cursor} {ch : Char} {rest : List Char} {n : Nat}
    (h : c.skip = ⟨ch :: rest, n⟩) :
    (p.moved c).skip = ⟨ch :: (rest ++ p.tail), n + p.shift⟩ := by
  rw [moved_skip (.inr (by simp [h])), h]
  rfl

theorem moved_skip_nil {c : Cursor} {n : Nat} (tail : p.tail = []) (h : c.skip = ⟨[], n⟩) :
    (p.moved c).skip = ⟨[], n + p.shift⟩ := by
  rw [moved_skip (.inl tail), h, moved, tail]
  rfl

/-- What follows the text does not open what may be absent. -/
theorem moved_head?_ne {c : Cursor} {ch : Char} (h : p.tail = [] ∨ c.rest ≠ [])
    (hc : c.rest.head? ≠ some ch) : (p.moved c).rest.head? ≠ some ch := by
  obtain tail | more := h
  · simpa [moved, tail] using hc
  · rwa [moved, List.head?_append, Option.or_of_isSome (by simpa using more)]

theorem Fits.skip {c : Cursor} (h : p.Fits c) : p.Fits c.skip := h.further c.leads_skip

theorem Fits.behind {c : Cursor} {ch : Char} {rest : List Char} {n : Nat} (h : p.Fits c)
    (hs : c.skip = ⟨ch :: rest, n⟩) : p.Fits ⟨rest, n + 1⟩ :=
  h.further (Cursor.leads_of_skip hs)

theorem Fits.drop {c : Cursor} {ch : Char} {rest : List Char} {n : Nat} (h : p.Fits c)
    (hs : c.skip = ⟨ch :: rest, n⟩) (count : Nat) (hc : count ≤ rest.length) :
    p.Fits ⟨rest.drop count, n + 1 + count⟩ :=
  h.further (Cursor.leads_drop (Cursor.leads_of_skip hs) count hc)

section Shifted

variable (owner : Nat) (raw : List Char)

theorem numberOf_shifted :
    numberOf (owner + p.shift) raw = (numberOf owner raw).mapError p.shifted := by
  unfold numberOf
  split
  · split <;> rfl
  · rfl

theorem colorOf_shifted :
    colorOf (owner + p.shift) raw = (colorOf owner raw).mapError p.shifted := by
  unfold colorOf
  split <;> rfl

theorem lengthOf_shifted :
    lengthOf (owner + p.shift) raw = (lengthOf owner raw).mapError p.shifted := by
  unfold lengthOf
  split <;> rfl

end Shifted

namespace Scopes

variable {s₁ s₂ : Scope} {α β : Type}

theorem nameOf_behind (h : p.Scopes s₁ s₂) (rest : List Char) :
    nameOf (rest ++ p.tail) = nameOf rest := by
  obtain tail | edge := h.edge
  · rw [tail, List.append_nil]
  · exact nameOf_append edge.2 rest

theorem afterName_behind (h : p.Scopes s₁ s₂) (rest : List Char) (n : Nat) :
    afterName (rest ++ p.tail) (n + p.shift + 1) = p.moved (afterName rest (n + 1)) := by
  simp only [afterName, h.nameOf_behind, moved,
    List.drop_append_of_le_length (length_nameOf_le rest), Cursor.mk.injEq, true_and]
  omega

/-- Readers of text at the same fault agree. -/
theorem faultFound (h : p.Scopes s₁ s₂) {f : α → β} {c c' : Cursor} {n : Nat} {e : Fault}
    (hc : p.tail = [] → c' = p.moved c) :
    p.Founds f (.error ⟨n, e⟩, c) (.error ⟨n + p.shift, e⟩, c') :=
  h.lax_or_tail.elim (.first _ · rfl) fun tail => .same ⟨hc tail, .inl tail⟩ rfl

theorem rawGroup_agree (h : p.Scopes s₁ s₂) (owner : Nat) {c : Cursor} (hc : p.Fits c) :
    p.Founds id (rawGroup s₁.mode owner c) (rawGroup s₂.mode (owner + p.shift) (p.moved c)) := by
  rcases hs : c.skip with ⟨_ | ⟨ch, rest⟩, n⟩
  · rw [rawGroup_of_end hs]
    obtain lax | tail := h.lax_or_tail
    · exact .first _ lax rfl
    · rw [rawGroup_of_end (moved_skip_nil tail hs)]
      exact h.faultFound fun tail => by simp [moved, tail]
  · have behind : (p.moved c).skip = ⟨ch :: (rest ++ p.tail), n + p.shift⟩ := moved_skip_cons hs
    by_cases hb : ch = '{'
    · subst hb
      rcases ht : bracedText 0 rest with ⟨text, _ | after⟩
      · rw [rawGroup_of_open hs ht]
        obtain lax | tail := h.lax_or_tail
        · exact .first _ lax (by rw [h.strict₁ lax]; rfl)
        · rw [tail, List.append_nil] at behind
          rw [rawGroup_of_open behind ht]
          have place : (⟨[], n + p.shift + 1 + rest.length⟩ : Cursor) =
              p.moved ⟨[], n + 1 + rest.length⟩ := by
            simp only [moved, tail, List.append_nil, Cursor.mk.injEq, true_and]
            omega
          obtain lax | modes := h.modes
          · exact .first _ lax (by rw [h.strict₁ lax]; rfl)
          · rw [modes]
            refine .same ⟨place, .inl tail⟩ ?_
            cases s₂.mode <;> rfl
      · have joined := bracedText_append p.tail (by rw [ht])
        rw [ht] at joined
        rw [rawGroup_of_braces hs ht, rawGroup_of_braces behind joined]
        refine .same ⟨?_, ?_⟩ rfl
        · simp only [moved, Cursor.mk.injEq, true_and]
          omega
        · have inside : after <:+ rest := bracedText_suffix (by rw [ht])
          have length := length_bracedText_add (congrArg Prod.snd ht)
          rw [ht] at length
          refine hc.further ((Cursor.leads_of_skip hs).trans ⟨inside, ?_⟩)
          simp only at length ⊢
          omega
    · by_cases hd : ch = '\\'
      · subst hd
        have name := h.nameOf_behind rest
        by_cases hn : nameOf rest = []
        · rw [rawGroup_of_sign hs hn, rawGroup_of_sign behind (by rw [name, hn])]
          cases rest with
          | nil =>
            obtain tail | joinable := hc
            · exact .same ⟨by simp [moved, tail, Nat.add_right_comm], .inl tail⟩
                (by rw [tail]; rfl)
            · exact absurd (Cursor.suffix_of_skip hs) joinable.1.backslash
          | cons ch rest =>
            refine .same ⟨?_, hc.drop hs 1 (by simp)⟩ rfl
            simp [moved, Nat.add_right_comm]
        · rw [rawGroup_of_name hs hn, rawGroup_of_name behind (by rwa [name]), name]
          exact .same ⟨h.afterName_behind rest n, hc.drop hs _ (length_nameOf_le rest)⟩ rfl
      · rw [rawGroup_of_character hs hb hd, rawGroup_of_character behind hb hd]
        exact .same ⟨by simp [moved, Nat.add_right_comm], hc.behind hs⟩ rfl

theorem delimiter_agree (h : p.Scopes s₁ s₂) (owner : Nat) {c : Cursor} (hc : p.Fits c) :
    p.Founds id (delimiter s₁.tables owner c)
      (delimiter s₂.tables (owner + p.shift) (p.moved c)) := by
  rcases hs : c.skip with ⟨_ | ⟨ch, rest⟩, n⟩
  · rw [delimiter_of_end hs]
    obtain lax | tail := h.lax_or_tail
    · exact .first _ lax rfl
    · rw [delimiter_of_end (moved_skip_nil tail hs)]
      exact h.faultFound fun tail => by simp [moved, tail]
  · have behind : (p.moved c).skip = ⟨ch :: (rest ++ p.tail), n + p.shift⟩ := moved_skip_cons hs
    by_cases hd : ch = '\\'
    · subst hd
      have name := h.nameOf_behind rest
      by_cases hn : nameOf rest = []
      · cases rest with
        | nil =>
          obtain tail | joinable := hc
          · rw [tail] at behind
            rw [delimiter_of_backslash hs, delimiter_of_backslash behind]
            exact h.faultFound fun tail => by simp [moved, tail, Nat.add_right_comm]
          · exact absurd (Cursor.suffix_of_skip hs) joinable.1.backslash
        | cons ch rest =>
          rw [delimiter_of_sign hs hn, delimiter_of_sign behind (name.trans hn)]
          exact .same ⟨by simp [moved, Nat.add_right_comm], hc.drop hs 1 (by simp)⟩ rfl
      · rw [delimiter_of_name hs hn, delimiter_of_name behind (by rwa [name]), name,
          h.names.symbols]
        refine .same ⟨h.afterName_behind rest n, hc.drop hs _ (length_nameOf_le rest)⟩ ?_
        cases s₁.tables.symbols.get? (String.ofList (nameOf rest)) <;> rfl
    · rw [delimiter_of_character hs hd, delimiter_of_character behind hd]
      exact .same ⟨by simp [moved, Nat.add_right_comm], hc.behind hs⟩ rfl

theorem readGroup_agree (h : p.Scopes s₁ s₂) (owner : Nat)
    {interpret₁ interpret₂ : List Char → Except ParseError α} {c : Cursor} (hc : p.Fits c)
    (hi : ∀ raw, interpret₂ raw = (interpret₁ raw).mapError p.shifted) :
    p.Founds id (Plain.readGroup s₁.mode owner interpret₁ c)
      (Plain.readGroup s₂.mode (owner + p.shift) interpret₂ (p.moved c)) := by
  rw [readGroup_eq, readGroup_eq]
  exact (h.rawGroup_agree owner hc).bind hi

theorem textUntil_agree (h : p.Scopes s₁ s₂) (close : Char) (owner : Nat) {c : Cursor}
    (hc : p.Fits c) :
    p.Founds id (textUntil close owner c) (textUntil close (owner + p.shift) (p.moved c)) := by
  cases hd : c.rest.dropWhile (· != close) with
  | nil =>
    have open₁ : textUntil close owner c =
        (.error ⟨owner, .unclosed close⟩,
          ⟨[], c.offset + (c.rest.takeWhile (· != close)).length⟩) := by
      simp [textUntil, hd]
    rw [open₁]
    obtain lax | tail := h.lax_or_tail
    · exact .first _ lax rfl
    · have open₂ : textUntil close (owner + p.shift) (p.moved c) =
          (.error ⟨owner + p.shift, .unclosed close⟩,
            ⟨[], c.offset + p.shift + (c.rest.takeWhile (· != close)).length⟩) := by
        simp [textUntil, moved, tail, hd]
      rw [open₂]
      exact h.faultFound fun tail => by simp [moved, tail, Nat.add_right_comm]
  | cons ch rest =>
    have found₁ : textUntil close owner c =
        (.ok (c.rest.takeWhile (· != close)),
          ⟨rest, c.offset + (c.rest.takeWhile (· != close)).length + 1⟩) := by
      simp [textUntil, hd]
    have length : (c.rest.takeWhile (· != close)).length + (rest.length + 1) = c.rest.length := by
      rw [← List.length_cons (a := ch), ← hd, ← List.length_append, List.takeWhile_append_dropWhile]
    have more : (c.rest.takeWhile (· != close)).length ≠ c.rest.length := by omega
    have found₂ : textUntil close (owner + p.shift) (p.moved c) =
        (.ok (c.rest.takeWhile (· != close)),
          ⟨rest ++ p.tail, c.offset + p.shift + (c.rest.takeWhile (· != close)).length + 1⟩) := by
      simp [textUntil, moved, List.takeWhile_append, List.dropWhile_append, hd, more]
    rw [found₁, found₂]
    refine .same ⟨?_, ?_⟩ rfl
    · simp only [moved, Cursor.mk.injEq, true_and]
      omega
    · have inside : ch :: rest <:+ c.rest := hd ▸ List.dropWhile_suffix _
      refine hc.further ⟨(List.suffix_cons ch rest).trans inside, ?_⟩
      simp only
      omega

theorem readOptional_agree (h : p.Scopes s₁ s₂) (owner : Nat) {c : Cursor} (hc : p.Fits c)
    (more : p.tail = [] ∨ c.skip.rest ≠ []) :
    p.Founds id (Plain.readOptional owner c) (Plain.readOptional (owner + p.shift) (p.moved c)) := by
  have place : (p.moved c).skip = p.moved c.skip := moved_skip more
  by_cases hb : c.skip.rest.head? = some '['
  · obtain ⟨rest, hr⟩ := List.head?_eq_some_iff.mp hb
    have hs : c.skip = ⟨'[' :: rest, c.skip.offset⟩ := by rw [← hr]
    rw [readOptional_of_open hs, readOptional_of_open (moved_skip_cons hs)]
    have inside := h.textUntil_agree ']' owner (hc.behind hs)
    rw [moved, Nat.add_right_comm] at inside
    refine inside.bind fun raw => ?_
    rw [id, numberOf_shifted]
    cases numberOf owner raw <;> rfl
  · have absent : (p.moved c).skip.rest.head? ≠ some '[' := by
      rw [place]
      exact moved_head?_ne more hb
    rw [readOptional_of_absent hb, readOptional_of_absent absent, place]
    exact .same ⟨rfl, hc.skip⟩ rfl

/-- What is read for a plain parameter agrees. A parameter that may be absent is not looked for
where the text may end. -/
theorem plain_agree (h : p.Scopes s₁ s₂) (plain : Plain) (owner : Nat) {c : Cursor} (hc : p.Fits c)
    (more : plain = .optionalNumber → p.tail = [] ∨ c.skip.rest ≠ []) :
    p.Founds id (plain.read s₁.tables s₁.mode owner c)
      (plain.read s₂.tables s₂.mode (owner + p.shift) (p.moved c)) := by
  cases plain with
  | optionalNumber => exact h.readOptional_agree owner hc (more rfl)
  | delimiter => exact h.delimiter_agree owner hc
  | text => exact h.readGroup_agree owner hc fun _ => rfl
  | number => exact h.readGroup_agree owner hc (numberOf_shifted owner)
  | color => exact h.readGroup_agree owner hc (colorOf_shifted owner)
  | length => exact h.readGroup_agree owner hc (lengthOf_shifted owner)

theorem textArgs_agree (h : p.Scopes s₁ s₂) (owner count : Nat) {c : Cursor} (hc : p.Fits c)
    {m₁ m₂ : Memo} (hm : p.caches m₁.cache m₂.cache) :
    p.Outcomes id (Outcome.ofFound (textArgs s₁.mode owner count c) m₁)
      (Outcome.ofFound (textArgs s₂.mode (owner + p.shift) count (p.moved c)) m₂) := by
  induction count generalizing c with
  | zero => exact .same ⟨rfl, hc, hm⟩ rfl
  | succ count ih =>
    rw [textArgs_succ, textArgs_succ]
    refine ((h.rawGroup_agree owner hc).outcomes hm).andThen fun raw fits caches => ?_
    exact (ih fits).map fun _ => rfl

end Scopes

end Pairing

end FormulaInk.Source
