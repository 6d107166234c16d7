import Mathlib
import FormulaInk.Proofs.Reading.Levels
import FormulaInk.Proofs.Reading.Lenient

/-! Sources put together. A source that can be read by itself is read the same with more text behind
it: a reading of the longer source comes to the junction with the same items, and goes on from there.
After the junction the items before it matter only to a script. -/

namespace FormulaInk

namespace Source

namespace Cursor

/-- Nothing but blanks and closed comments stands before the text behind them. -/
theorem skipFrom_append_of_nil {comment : Bool} {rest : List Char} {n : Nat} (tail : List Char)
    (h : (skipFrom comment rest n).rest = []) (closed : comment → '\n' ∈ rest)
    (comments : ∀ line, '%' :: line <:+ rest → '\n' ∈ line) :
    skipFrom comment (rest ++ tail) n = skipFrom false tail (n + rest.length) := by
  induction rest generalizing comment n with
  | nil =>
    cases comment with
    | false => rfl
    | true => cases closed rfl
  | cons c rest ih =>
    have behind : ∀ line, '%' :: line <:+ rest → '\n' ∈ line := fun line hl =>
      comments line (hl.trans (List.suffix_cons c rest))
    have place : n + (c :: rest).length = n + 1 + rest.length := by
      rw [List.length_cons]
      omega
    rw [place]
    simp only [skipFrom, List.cons_append] at h ⊢
    split at h
    · rename_i hc
      rw [if_pos hc]
      refine ih h (fun more => ?_) behind
      obtain rfl | inside := List.mem_cons.mp (closed hc)
      · simp at more
      · exact inside
    · rename_i hc
      rw [if_neg hc]
      split at h
      · rename_i hb
        rw [if_pos hb]
        exact ih h (by simp) behind
      · rename_i hb
        rw [if_neg hb]
        split at h
        · rename_i hp
          subst hp
          rw [if_pos rfl]
          exact ih h (fun _ => comments rest (List.suffix_refl _)) behind
        · cases h

end Cursor

/-- A sequence depends on its place only through what comes after blanks and comments. -/
theorem sequence_congr {s : Scope} {close : Option Char} {opened : Nat}
    {items : List (Atom Float32)} {c c' : Cursor} {m : Memo} (h : c.skip = c'.skip) :
    (sequence s close opened items c m).outcome = (sequence s close opened items c' m).outcome := by
  rcases hs : c'.skip with ⟨_ | ⟨ch, rest⟩, k⟩
  · rw [sequence_of_end (h.trans hs), sequence_of_end hs]
  · by_cases closing : some ch = close
    · rw [sequence_of_close (h.trans hs) closing, sequence_of_close hs closing]
    · rw [sequence_of_step (h.trans hs) closing, sequence_of_step hs closing]

/-- The pairing of a strict reading of a source of `size` characters with one that has `shift` more
characters before it and the text `tail` behind it. -/
def joined (tail : List Char) (size shift : Nat) : Pairing := { tail, size, shift, lax₁ := True }

/-- A reading that succeeds up to the end comes to the junction with more text behind it. -/
theorem sequence_joined {tail : List Char} {size shift : Nat} {s₁ s₂ : Scope}
    (h : (joined tail size shift).Scopes s₁ s₂) (more : tail ≠ []) (close : Option Char)
    (closing : ∀ ch ∈ close, ch = '}') (opened₁ opened₂ n : Nat)
    {items found : List (Atom Float32)} {c : Cursor} {m₁ m₂ : Memo} (short : c.rest.length < n)
    (hc : (joined tail size shift).Fits c) (hm : m₁.cache = m₂.cache)
    (ok : (sequence s₁ none opened₁ items c m₁).outcome.value = .ok found) :
    ∃ m, m.cache = (sequence s₁ none opened₁ items c m₁).outcome.memo.cache ∧
      (sequence s₂ close opened₂ items ((joined tail size shift).moved c) m₂).outcome =
        (sequence s₂ close opened₂ found.reverse ⟨tail, size + shift⟩ m).outcome := by
  induction n generalizing items c m₁ m₂ with
  | zero => exact absurd short (Nat.not_lt_zero _)
  | succ n ih =>
    rcases hs : c.skip with ⟨_ | ⟨ch, rest⟩, k⟩
    · rw [sequence_of_end hs] at ok ⊢
      obtain rfl : items.reverse = found := Except.ok.inj ok
      refine ⟨m₂, hm.symm, ?_⟩
      rw [List.reverse_reverse]
      refine sequence_congr ?_
      obtain ⟨joinable, size⟩ := hc.resolve_left more
      have ended : (Cursor.skipFrom false c.rest c.offset).rest = [] := congrArg Cursor.rest hs
      have blank := Cursor.skipFrom_append_of_nil tail ended (by simp) joinable.comment
      rw [size] at blank
      simp only [Cursor.skip, Pairing.moved, Cursor.skipFrom_add, joined, blank]
    · have shorter := Cursor.length_lt_of_skip hs
      have behind : ((joined tail size shift).moved c).skip = ⟨ch :: (rest ++ tail), k + shift⟩ :=
        Pairing.moved_skip_cons hs
      have agree : (joined tail size shift).Outcomes (List.map (Atom.refit (joined tail size shift).fit))
          (step s₁ items ch k ⟨rest, k + 1⟩ m₁).outcome
          (step s₂ (items.map (Atom.refit (joined tail size shift).fit)) ch (k + shift)
            ⟨rest ++ tail, k + shift + 1⟩ m₂).outcome := by
        have stepped := (Pairing.below h n).step_agree h items ch k (by show rest.length < n; omega)
          (hc.behind hs) hm
        rw [Pairing.moved, Nat.add_right_comm] at stepped
        exact stepped
      rw [Pairing.map_refit_keep rfl] at agree
      have unclosed : some ch ≠ none := Option.some_ne_none ch
      rw [sequence_of_step hs unclosed, recover_strict (h.strict₁ trivial)] at ok ⊢
      have le := (step s₁ items ch k ⟨rest, k + 1⟩ m₁).length_outcome_le
      cases hx : (step s₁ items ch k ⟨rest, k + 1⟩ m₁).outcome.value with
      | error e =>
        rw [Outcome.andThen_error hx] at ok
        cases ok
      | ok items' =>
        rw [Outcome.andThen_ok hx] at ok ⊢
        cases agree with
        | same left same =>
          obtain ⟨place, fits, caches⟩ := left
          rw [hx, Pairing.carry, Pairing.map_refit_keep rfl] at same
          have open₂ : some ch ≠ close := by
            intro hch
            obtain rfl := closing ch hch.symm
            rw [step_of_brace] at hx
            cases hx
          obtain ⟨m, hcache, junction⟩ := ih
            (Nat.lt_of_le_of_lt le (by show rest.length < n; omega)) fits caches ok
          refine ⟨m, hcache, ?_⟩
          rw [sequence_of_step behind open₂, recover_ok same, Outcome.andThen_ok same, place]
          exact junction
        | first e _ fault => cases hx.symm.trans fault
        | second e lax => exact lax.elim

section Base

variable {s : Scope} {items base : List (Atom Float32)} {script : Atom Float32}

theorem scriptFault?_append (base : List (Atom Float32)) (h : items ≠ []) (superscript : Bool) :
    scriptFault? superscript (items ++ base) = scriptFault? superscript items := by
  cases items with
  | nil => exact absurd rfl h
  | cons a rest => cases a <;> rfl

theorem attachScript_append (h : items ≠ []) (superscript : Bool) :
    attachScript superscript script (items ++ base) =
      attachScript superscript script items ++ base := by
  cases items with
  | nil => exact absurd rfl h
  | cons a rest => cases a <;> rfl

theorem attachScript_ne_nil (superscript : Bool) : attachScript superscript script items ≠ [] := by
  unfold attachScript
  split <;> simp

theorem recover_map_append (o : Outcome (List (Atom Float32))) :
    recover s (items ++ base) (o.map (· ++ base)) = (recover s items o).map (· ++ base) := by
  rcases o with ⟨(e | p) | found, c, m⟩
  · cases hm : s.mode with
    | strict => rw [recover_strict hm, recover_strict hm]
    | lenient => rw [recover_lenient rfl hm, recover_lenient rfl hm]; rfl
  · rfl
  · rfl

/-- The items before the last one do not matter to a step, nor does any of them but to a script. -/
theorem step_append {ch : Char} {start : Nat} {c : Cursor} {m : Memo}
    (h : items ≠ [] ∨ ¬(ch = '^' ∨ ch = '_')) :
    (step s (items ++ base) ch start c m).outcome =
      (step s items ch start c m).outcome.map (· ++ base) := by
  by_cases hb : ch = '}'
  · subst hb
    rw [step_of_brace, step_of_brace]
    rfl
  by_cases hs : ch = '^' ∨ ch = '_'
  · have more : items ≠ [] := h.resolve_right (not_not_intro hs)
    have faults := scriptFault?_append base more (ch = '^')
    cases hf : scriptFault? (ch = '^') items with
    | some fault =>
      rw [step_of_fault hs hf, step_of_fault hs (faults.trans hf)]
      rfl
    | none =>
      rw [step_of_script hs hf, step_of_script hs (faults.trans hf), Outcome.map_map]
      simp only [attachScript_append more]
  · rw [step_of_atom hb hs, step_of_atom hb hs, Outcome.map_map]
    rfl

theorem step_ne_nil {ch : Char} {start : Nat} {c : Cursor} {m : Memo}
    {found : List (Atom Float32)} (h : (step s items ch start c m).outcome.value = .ok found) :
    found ≠ [] := by
  by_cases hb : ch = '}'
  · subst hb
    rw [step_of_brace] at h
    cases h
  by_cases hs : ch = '^' ∨ ch = '_'
  · cases hf : scriptFault? (ch = '^') items with
    | some fault =>
      rw [step_of_fault hs hf] at h
      cases h
    | none =>
      rw [step_of_script hs hf] at h
      obtain ⟨script, _, rfl⟩ := Outcome.value_map_ok h
      exact attachScript_ne_nil _
  · rw [step_of_atom hb hs] at h
    obtain ⟨a, _, rfl⟩ := Outcome.value_map_ok h
    exact List.cons_ne_nil a items

theorem recover_ne_nil {o : Outcome (List (Atom Float32))} {found : List (Atom Float32)}
    (ho : ∀ found, o.value = .ok found → found ≠ [])
    (h : (recover s items o).value = .ok found) : found ≠ [] := by
  rcases hv : o.value with (e | p) | items'
  · cases hm : s.mode with
    | strict =>
      rw [recover_strict hm, hv] at h
      cases h
    | lenient =>
      rw [recover_lenient hv hm] at h
      cases h
      exact List.cons_ne_nil _ _
  · rw [recover_panic hv, hv] at h
    cases h
  · rw [recover_ok hv] at h
    exact ho found h

/-- Items before a text that does not begin with a script come before what the text is read to. -/
theorem sequence_base (s : Scope) (base : List (Atom Float32)) (opened opened' n : Nat)
    (items : List (Atom Float32)) {c : Cursor} {m : Memo} (short : c.rest.length < n)
    (h : items ≠ [] ∨ ∀ ch ∈ c.skip.rest.head?, ¬(ch = '^' ∨ ch = '_')) :
    (sequence s none opened (items ++ base) c m).outcome =
      (sequence s none opened' items c m).outcome.map (base.reverse ++ ·) := by
  induction n generalizing items c m with
  | zero => exact absurd short (Nat.not_lt_zero _)
  | succ n ih =>
    rcases hs : c.skip with ⟨_ | ⟨ch, rest⟩, k⟩
    · rw [sequence_of_end hs, sequence_of_end hs]
      simp [atEnd, Outcome.map, Except.map]
    · have unclosed : some ch ≠ none := Option.some_ne_none ch
      have shorter := Cursor.length_lt_of_skip hs
      have le := (step s items ch k ⟨rest, k + 1⟩ m).length_outcome_le
      have plain : items ≠ [] ∨ ¬(ch = '^' ∨ ch = '_') := h.imp id fun h => h ch (by rw [hs]; rfl)
      rw [sequence_of_step hs unclosed, sequence_of_step hs unclosed, step_append plain,
        recover_map_append, Outcome.map_andThen]
      cases ho : (recover s items (step s items ch k ⟨rest, k + 1⟩ m).outcome).value with
      | error e =>
        rw [Outcome.andThen_error ho, Outcome.andThen_error ho]
        rfl
      | ok found =>
        rw [Outcome.andThen_ok ho, Outcome.andThen_ok ho]
        refine ih found ?_ (.inl (recover_ne_nil (fun _ => step_ne_nil) ho))
        rw [cursor_recover]
        exact Nat.lt_of_le_of_lt le (by show rest.length < n; omega)

end Base

/-- The pairing of a reading with the same reading from a later place. -/
def later (shift : Nat) : Pairing := { shift }

section Levels

variable {t : Tables} {levels : Nat} {mode : Mode} {w : List Char} {m : Memo}
  {items : List (Atom Float32)}

theorem sequence_later (t : Tables) (levels : Nat) (mode : Mode) (opened : Nat) (tail : List Char) (k : Nat) {m₁ m₂ : Memo}
    (hm : m₁.cache = m₂.cache) :
    (sequence ⟨t, mode, nestedUnder t levels⟩ none (opened + k) [] ⟨tail, k⟩ m₂).outcome.value =
      (later k).carry id
        (sequence ⟨t, mode, nestedUnder t levels⟩ none opened [] (.start tail) m₁).outcome.value := by
  have modes : (later k).Modes mode mode := ⟨False.elim, False.elim, .inr rfl⟩
  have scopes := Pairing.scopes_under (Pairing.regular_of_eq rfl rfl) (Pairing.resolves_self rfl t)
    levels modes (.inl rfl)
  have agree := (Pairing.below scopes (tail.length + 1)).sequences none opened []
    (c := .start tail) (Nat.lt_succ_self _) (fun _ => rfl) (.inl rfl) hm
  have place : (later k).moved (.start tail) = ⟨tail, k⟩ := by
    simp [Pairing.moved, Cursor.start, later]
  rw [place] at agree
  cases agree with
  | same left found =>
    rw [funext (Pairing.map_refit_keep (p := later k) rfl)] at found
    exact found
  | first e lax => exact lax.elim
  | second e lax => exact lax.elim

theorem skip_blank (rest : List Char) (n : Nat) :
    Cursor.skip ⟨' ' :: rest, n⟩ = Cursor.skip ⟨rest, n + 1⟩ := by
  have blank : Text.isBlank ' ' = true := by decide
  simp [Cursor.skip, Cursor.skipFrom, blank]

theorem joined_scopes (t : Tables) (levels : Nat) (mode : Mode) (tail : List Char)
    (edge : ∀ ch ∈ tail.head?, ¬ch.isAlpha) (size shift : Nat) :
    (joined tail size shift).Scopes ⟨t, .strict, nestedUnder t levels⟩
      ⟨t, mode, nestedUnder t levels⟩ :=
  Pairing.scopes_under (Pairing.regular_of_eq rfl rfl) (Pairing.resolves_self rfl t) levels
    ⟨fun _ => rfl, False.elim, .inl trivial⟩ (.inr ⟨trivial, edge⟩)

/-- A source that can be read by itself is read to its items wherever it stands, with more text
behind it. -/
theorem sequence_before (ok : (withLevels t levels .strict w m).1 = .ok items)
    (joinable : Joinable w) {tail : List Char} (more : tail ≠ [])
    (edge : ∀ ch ∈ tail.head?, ¬ch.isAlpha) (mode : Mode) (close : Option Char)
    (closing : ∀ ch ∈ close, ch = '}') (opened start : Nat) {m' : Memo} (hm : m.cache = m'.cache) :
    ∃ m₁, m₁.cache = (withLevels t levels .strict w m).2.cache ∧
      (sequence ⟨t, mode, nestedUnder t levels⟩ close opened [] ⟨w ++ tail, start⟩ m').outcome =
        (sequence ⟨t, mode, nestedUnder t levels⟩ close opened items.reverse
          ⟨tail, start + w.length⟩ m₁).outcome := by
  rw [withLevels_eq] at ok ⊢
  have scopes := joined_scopes t levels mode tail edge w.length start
  obtain ⟨m₁, cache, junction⟩ := sequence_joined scopes more close closing 0 opened
    (w.length + 1) (c := .start w) (Nat.lt_succ_self _) (.inr ⟨joinable, Nat.zero_add _⟩) hm ok
  have place : (joined tail w.length start).moved (.start w) = ⟨w ++ tail, start⟩ := by
    simp [Pairing.moved, Cursor.start, joined]
  rw [place, Nat.add_comm] at junction
  exact ⟨m₁, cache, junction⟩

/-- Behind a source and a blank another source is read as by itself. -/
theorem withLevels_joined (ok : (withLevels t levels .strict w m).1 = .ok items)
    (joinable : Joinable w) (mode : Mode) {next : List Char}
    (plain : ∀ ch ∈ (Cursor.start next).skip.rest.head?, ¬(ch = '^' ∨ ch = '_')) (m' : Memo)
    (hm' : m'.cache = (withLevels t levels .strict w m).2.cache) :
    (withLevels t levels mode (w ++ ' ' :: next) m).1 =
      (later (w.length + 1)).carry (items ++ ·) (withLevels t levels mode next m').1 := by
  obtain ⟨m₁, cache, junction⟩ := sequence_before ok joinable (List.cons_ne_nil ' ' next)
    (by simp) mode none (by simp) 0 0 rfl
  have front : ∀ ch ∈ (Cursor.skip ⟨next, w.length + 1⟩).rest.head?, ¬(ch = '^' ∨ ch = '_') := by
    have shifted := Cursor.skipFrom_add false next 0 (w.length + 1)
    rw [Nat.zero_add] at shifted
    rw [Cursor.skip, shifted]
    exact plain
  have base := sequence_base ⟨t, mode, nestedUnder t levels⟩ items.reverse 0
    (0 + (w.length + 1)) (next.length + 1) [] (c := ⟨next, w.length + 1⟩) (m := m₁)
    (Nat.lt_succ_self _) (.inr front)
  have behind := sequence_later t levels mode 0 next (w.length + 1) (hm'.trans cache.symm)
  rw [List.nil_append, List.reverse_reverse] at base
  rw [withLevels_eq, withLevels_eq]
  show (sequence ⟨t, mode, nestedUnder t levels⟩ none 0 [] ⟨w ++ ' ' :: next, 0⟩ m).outcome.value = _
  rw [junction, sequence_congr (skip_blank next _), Nat.zero_add, base, Outcome.map, behind]
  exact Pairing.map_carry _ _ _

/-- A source that can be read by itself is a group in braces, whatever text comes behind them. -/
theorem atom_joined (ok : (withLevels t levels .strict w m).1 = .ok items) (joinable : Joinable w)
    (rest : List Char) (start : Nat) {m' : Memo} (hm : m.cache = m'.cache) :
    ∃ m₁, m₁.cache = (withLevels t levels .strict w m).2.cache ∧
      (atom ⟨t, .strict, nestedUnder t levels⟩ '{' start ⟨w ++ '}' :: rest, start + 1⟩ m').outcome =
        ⟨.ok (.group items), ⟨rest, start + (w.length + 2)⟩, m₁⟩ := by
  obtain ⟨m₁, cache, inside⟩ := sequence_before ok joinable (List.cons_ne_nil '}' rest) (by simp)
    .strict (some '}') (fun _ h => (Option.some.inj h).symm) start (start + 1) hm
  have brace : Cursor.skip ⟨'}' :: rest, start + 1 + w.length⟩ =
      ⟨'}' :: rest, start + 1 + w.length⟩ := by rfl
  have stop : start + 1 + w.length + 1 = start + (w.length + 2) := by omega
  rw [sequence_of_close brace rfl, List.reverse_reverse, stop] at inside
  refine ⟨m₁, cache, ?_⟩
  rw [atom_of_group, inside]
  rfl

/-- A source in braces is one item, and what comes behind is read on from there. -/
theorem sequence_group (ok : (withLevels t levels .strict w m).1 = .ok items)
    (joinable : Joinable w) (before : List (Atom Float32)) (rest : List Char) (start : Nat)
    {m' : Memo} (hm : m.cache = m'.cache) :
    ∃ m₁, m₁.cache = (withLevels t levels .strict w m).2.cache ∧
      (sequence ⟨t, .strict, nestedUnder t levels⟩ none 0 before ⟨'{' :: (w ++ '}' :: rest), start⟩
          m').outcome =
        (sequence ⟨t, .strict, nestedUnder t levels⟩ none 0 (.group items :: before)
          ⟨rest, start + (w.length + 2)⟩ m₁).outcome := by
  obtain ⟨m₁, cache, group⟩ := atom_joined ok joinable rest start hm
  have front : Cursor.skip ⟨'{' :: (w ++ '}' :: rest), start⟩ =
      ⟨'{' :: (w ++ '}' :: rest), start⟩ := by rfl
  have step : (step ⟨t, .strict, nestedUnder t levels⟩ before '{' start ⟨w ++ '}' :: rest, start + 1⟩
      m').outcome = ⟨.ok (.group items :: before), ⟨rest, start + (w.length + 2)⟩, m₁⟩ := by
    rw [step_of_atom (by decide) (by decide), group]
    rfl
  exact ⟨m₁, cache, sequence_of_item front (Option.some_ne_none _) step⟩

/-- A source in braces is one group. -/
theorem withLevels_braced (ok : (withLevels t levels .strict w m).1 = .ok items)
    (joinable : Joinable w) :
    (withLevels t levels .strict ('{' :: (w ++ ['}'])) m).1 = .ok [.group items] := by
  obtain ⟨m₁, -, group⟩ := sequence_group ok joinable [] [] 0 rfl
  rw [withLevels_eq]
  exact congrArg Outcome.value (group.trans (sequence_of_end rfl))

end Levels

/-- The text behind the last newline. -/
def lastLine (text : List Char) : List Char := (text.reverse.takeWhile (· ≠ '\n')).reverse

/-- Whether a source begins with a script, after blanks and comments. -/
def OpensScript (source : List Char) : Prop :=
  ∃ ch ∈ (Cursor.start source).skip.rest.head?, ch = '^' ∨ ch = '_'

theorem joinable_of_lastLine {text : List Char} (comment : '%' ∉ lastLine text)
    (backslash : text.getLast? ≠ some '\\') : Joinable text where
  backslash h := by
    obtain ⟨front, rfl⟩ := h
    simp at backslash
  comment line h := by
    obtain ⟨front, rfl⟩ := h
    refine Decidable.byContradiction fun unclosed => ?_
    have plain : ∀ ch ∈ ('%' :: line).reverse, (fun ch => decide (ch ≠ '\n')) ch = true := by
      intro ch hch
      obtain rfl | hch := List.mem_cons.mp (List.mem_reverse.mp hch)
      · decide
      · exact decide_eq_true fun h => unclosed (h ▸ hch)
    apply comment
    rw [lastLine, List.reverse_append, List.takeWhile_append_of_pos plain]
    simp

end Source

namespace Registry

variable {r : Registry} {depth : Nat} {s : String} {items : List (Atom Float32)}

/-- Reading is compositional. A source that can be read by itself, that does not end in a backslash
and that leaves no comment open is read the same before a blank and another source, and the other
source is read behind it as by itself in the registry that the first one leaves, unless it begins
with a script; its faults are found at their places in the whole. In braces the source is one
group. -/
theorem readAt_joined (ok : (r.readAt depth .strict s).result = .ok items)
    (comment : '%' ∉ Source.lastLine s.toList) (backslash : s.toList.getLast? ≠ some '\\') :
    (∀ (mode : Source.Mode) (next : String), ¬Source.OpensScript next.toList →
      (∀ more, ((r.readAt depth .strict s).registry.readAt depth mode next).result = .ok more →
        (r.readAt depth mode (s ++ " " ++ next)).result = .ok (items ++ more)) ∧
      ∀ offset fault,
        ((r.readAt depth .strict s).registry.readAt depth mode next).result =
            .error (.fault (.parse ⟨offset, fault⟩)) →
          (r.readAt depth mode (s ++ " " ++ next)).result =
            .error (.fault (.parse ⟨offset + (s.length + 1), fault⟩))) ∧
    (r.readAt depth .strict ("\x7b" ++ s ++ "\x7d")).result = .ok [.group items] := by
  have joinable : Source.Joinable s.toList := Source.joinable_of_lastLine comment backslash
  have strict := readAt_ok.mp ok
  constructor
  · intro mode next plain
    have text : (s ++ " " ++ next).toList = s.toList ++ ' ' :: next.toList := by
      simp [String.toList_append]
    have joined := Source.withLevels_joined strict joinable mode
      (fun ch h script => plain ⟨ch, h, script⟩)
      { cache := (r.readAt depth .strict s).registry.cache } rfl
    constructor
    · intro more h
      rw [readAt_ok] at h ⊢
      rw [text]
      exact joined.trans (congrArg _ h)
    · intro offset fault h
      rw [readAt_error] at h ⊢
      rw [text]
      exact joined.trans (congrArg _ h)
  · have text : ("\x7b" ++ s ++ "\x7d").toList = '{' :: (s.toList ++ ['}']) := by
      simp [String.toList_append]
    rw [readAt_ok, text]
    exact Source.withLevels_braced strict joinable

theorem readAt_joined_letters :
    (empty.readAt 0 .lenient ("a" ++ " " ++ "b^c")).result =
        .ok [.char 'a', .scripts (.char 'b') (some (.char 'c')) none] ∧
      (empty.readAt 0 .lenient ("a" ++ " " ++ "%")).result = .ok [.char 'a'] ∧
      (empty.readAt 0 .strict ("a" ++ " " ++ "\\")).result =
        .error (.fault (.parse ⟨2, .missingName⟩)) ∧
      (empty.readAt 0 .strict ("\x7b" ++ "a" ++ "\x7d")).result = .ok [.group [.char 'a']] := by
  have ok : (empty.readAt 0 .strict "a").result = .ok [.char 'a'] := by cbv
  obtain ⟨behind, braced⟩ := readAt_joined ok (by decide) (by decide)
  refine ⟨?_, ?_, ?_, braced⟩
  · refine (behind .lenient "b^c" ?_).1 [.scripts (.char 'b') (some (.char 'c')) none] (by cbv)
    rintro ⟨ch, h, rfl | rfl⟩ <;> cases h
  · refine (behind .lenient "%" ?_).1 [] (by cbv)
    rintro ⟨ch, h, rfl | rfl⟩ <;> cases h
  · refine (behind .strict "\\" ?_).2 0 .missingName (by cbv)
    rintro ⟨ch, h, rfl | rfl⟩ <;> cases h

end Registry

end FormulaInk
