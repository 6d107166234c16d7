import Mathlib
import FormulaInk.Proofs.Reading.Balance
import FormulaInk.Proofs.Reading.Cut
import FormulaInk.Proofs.Reading.Joined
import FormulaInk.Proofs.Registry.History

/-! Arguments of text commands and groups. The argument of a text command is taken as it stands, by a
reader that knows braces and backslashes and nothing else of the language; then it is parsed inside
the text of the command. Where that reader and the parser find the same closing brace, a command that
stands for its argument in braces means what the group means. -/

namespace FormulaInk

namespace Source

/-- The reader of raw text and the parser end the group at the front of a source at the same place. -/
def SameArgument (t : Tables) (d : Nat) (cache : Cache) (source : List Char) : Prop :=
  ∃ text, rawGroup .strict 0 (.start source) =
    (.ok text, (argument (scopeAt t d .strict) 0 (.start source) { cache }).outcome.cursor)

section Groups

variable {t : Tables} {d : Nat} {rest text left : List Char} {m m₁ : Memo}
  {items found : List (Atom Float32)} {k : Nat}

theorem skip_brace (rest : List Char) : (Cursor.start ('{' :: rest)).skip = ⟨'{' :: rest, 0⟩ := by
  rfl

namespace Reads

/-- A source that begins with a brace is a group and what follows it. -/
theorem of_brace {o : Outcome (List (Atom Float32))} {v : List Nat}
    (h : Reads t d .strict .whole (.start ('{' :: rest)) m o v) (ok : o.value = .ok items) :
    ∃ found after m₁ v₁ v₂,
      Reads t d .strict (.sequence (some '}') 0 []) ⟨rest, 1⟩ m ⟨.ok found, after, m₁⟩ v₁ ∧
        Reads t d .strict (.sequence none 0 [.group found]) after m₁ o v₂ := by
  have other : some '{' ≠ (none : Option Char) := by simp
  obtain ⟨⟨value, after, m₁⟩, v₁, inner⟩ := ends t d .strict (.sequence (some '}') 0 []) ⟨rest, 1⟩ m
  have step : Reads t d .strict (.step [] '{' 0) ⟨rest, 1⟩ m _ v₁ :=
    .another (by decide) (by decide) (.group inner)
  cases value with
  | error e =>
    have whole := h.unique (.halted (skip_brace rest) other (.strict e) step)
    rw [whole] at ok
    cases ok
  | ok found =>
    obtain ⟨o', v₂, later⟩ := ends t d .strict (.sequence none 0 [.group found]) after m₁
    have both := Reads.item (skip_brace rest) other step later
    have whole := h.unique both
    rw [whole]
    exact ⟨found, after, m₁, v₁, v₂, inner, later⟩

/-- A group by itself. -/
theorem brace {v : List Nat} (h : Reads t d .strict (.sequence (some '}') 0 []) ⟨rest, 1⟩ m
      ⟨.ok found, ⟨[], k⟩, m₁⟩ v) :
    ∃ v', Reads t d .strict .whole (.start ('{' :: rest)) m ⟨.ok [.group found], ⟨[], k⟩, m₁⟩ v' := by
  have other : some '{' ≠ (none : Option Char) := by simp
  have step : Reads t d .strict (.step [] '{' 0) ⟨rest, 1⟩ m _ v :=
    .another (by decide) (by decide) (.group h)
  have last : Reads t d .strict (.sequence none 0 [.group found]) ⟨[], k⟩ m₁
      ⟨.ok [.group found], ⟨[], k⟩, m₁⟩ [] := .ended rfl (.inl rfl)
  have both := Reads.item (skip_brace rest) other step last
  exact ⟨_, both⟩

/-- What is read strictly is read the same no deeper. -/
theorem shallower {d' : Nat} {k : Task} {c : Cursor} {o : Outcome k.Result} {v : List Nat}
    (h : Reads t d .strict k c m o v) (ok : ∃ a, o.value = .ok a) (clean : m.skipped = [])
    (le : d' ≤ d) : ∃ m' v', Reads t d' .strict k c m ⟨o.value, o.cursor, m'⟩ v' := by
  obtain ⟨a, ok⟩ := ok
  have unlimited : o.Unlimited := by
    refine ⟨fun e failed => ?_, fun e passed => ?_⟩
    · cases ok.symm.trans failed
    · rw [h.skipped_strict, clean] at passed
      cases passed
  obtain ⟨m', v', reads, -⟩ := h.follows unlimited le (.refl _) (.refl _) (.refl t m.cache)
  exact ⟨m', v', reads⟩

/-- What follows an item is read the same from a later place. -/
theorem shifted {c : Cursor} {o : Outcome (List (Atom Float32))} {v : List Nat}
    (h : Reads t d .strict (.sequence none 0 items) c m o v) (ok : o.value = .ok found)
    (more : items ≠ []) (shift : Nat) :
    ∃ o' v', Reads t d .strict (.sequence none 0 items) ⟨c.rest, c.offset + shift⟩ m o' v' ∧
      o'.value = .ok found := by
  obtain ⟨o', v', reads⟩ := ends t d .strict (.sequence none 0 items) ⟨c.rest, c.offset + shift⟩ m
  refine ⟨o', v', reads, ?_⟩
  have scopes := Pairing.scopes_under (p := later shift) (Pairing.regular_of_eq rfl rfl)
    (Pairing.resolves_self rfl t) (maxDepth - d) .strict (.inl rfl)
  have caches : (later shift).caches m.cache m.cache := rfl
  have agree := (Pairing.below scopes (c.rest.length + 1)).sequences none 0 items (c := c)
    (Nat.lt_succ_self _) (fun _ => rfl) (.inl rfl) caches
  have place : (later shift).moved c = ⟨c.rest, c.offset + shift⟩ := by
    simp [Pairing.moved, later]
  rw [place, Pairing.map_refit_keep rfl] at agree
  cases agree with
  | same left same =>
    -- Where the source itself is read to its end, the place at which it was opened is not used.
    have base := sequence_base (scopeAt t d .strict) [] (0 + shift) 0 (c.rest.length + 1) items
      (c := ⟨c.rest, c.offset + shift⟩) (m := m) (Nat.lt_succ_self _) (.inl more)
    have first : (Source.sequence (scopeAt t d .strict) none 0 items c m).outcome = o := h.sound
    have second : (Source.sequence (scopeAt t d .strict) none 0 items
        ⟨c.rest, c.offset + shift⟩ m).outcome = o' := reads.sound
    rw [funext (Pairing.map_refit_keep (p := later shift) rfl)] at same
    rw [List.append_nil, second] at base
    have moved : (o'.map ([].reverse ++ ·)).value = .ok found := by
      rw [← base]
      refine same.trans ?_
      rw [← scopeAt, first, ok]
      rfl
    obtain ⟨found', value, rfl⟩ := Outcome.value_map_ok moved
    exact value
  | first e lax => exact lax.elim
  | second e lax => exact lax.elim

end Reads

/-- What stands for a command whose text is its argument in braces. -/
theorem expand_braced (text : List Char) :
    TextCommand.expand ⟨1, "\x7b#1\x7d"⟩ [text] = '{' :: (text ++ ['}']) := by
  have body : "\x7b#1\x7d".toList = ['{', '#', '1', '}'] := by rfl
  simp only [TextCommand.expand, body]
  simp [TextCommand.expandBody, Char.isDigit]

section Stops

variable {c : Cache} {after : Cursor} {v : List Nat}

theorem bracedText_of_same (inner : Reads t d .strict (.sequence (some '}') 0 []) ⟨rest, 1⟩
      { cache := c } ⟨.ok found, after, m₁⟩ v) (same : SameArgument t d c ('{' :: rest)) :
    ∃ text, bracedText 0 rest = (text, some after.rest) := by
  obtain ⟨text, raw⟩ := same
  have group : (sequence (scopeAt t d .strict) (some '}') 0 [] ⟨rest, 0 + 1⟩
      { cache := c }).outcome = ⟨.ok found, after, m₁⟩ := inner.sound
  have missing : ¬('{' = '}' ∨ '{' = '^' ∨ '{' = '_') := by decide
  rw [argument_of_atom (skip_brace rest) missing, atom_of_group, group] at raw
  rcases taken : bracedText 0 rest with ⟨inside, _ | left⟩
  · rw [rawGroup_of_open (skip_brace rest) taken] at raw
    cases raw
  · rw [rawGroup_of_braces (skip_brace rest) taken] at raw
    have place : (⟨left, 0 + inside.length + 2⟩ : Cursor) = after := congrArg Prod.snd raw
    exact ⟨inside, by rw [← place]⟩

theorem bracedText_of_legible (inner : Reads t d .strict (.sequence (some '}') 0 []) ⟨rest, 1⟩ m
      ⟨.ok found, after, m₁⟩ v) (legible : Legible t ('{' :: rest)) :
    ∃ text, bracedText 0 rest = (text, some after.rest) := by
  have walks : Walks 0 rest ('}' :: after.rest) :=
    inner.walks rfl ⟨found, rfl⟩ legible.inside ⟨by simp, by simp⟩
  exact ⟨_, Prod.ext rfl (walks.bracedText 0)⟩

end Stops

section Command

variable {ch : Char} {more : List Char} {after : Cursor} {v : List Nat}

/-- A command that stands for its argument in braces is read to the group that it stands for. -/
theorem Reads.braced_command (letters : ∀ c ∈ ch :: more, c.isAlpha)
    (other : Construct.ofName? (String.ofList (ch :: more)) = none)
    (unnamed : t.symbols.get? (String.ofList (ch :: more)) = none)
    (command : t.commands.get? (String.ofList (ch :: more)) = some ⟨1, "\x7b#1\x7d"⟩)
    (room : d < maxDepth) (taken : bracedText 0 rest = (text, some left))
    (inner : Reads t (d + 1) .strict (.sequence (some '}') 0 []) ⟨rest, 1⟩ m
      ⟨.ok found, ⟨left, k⟩, m₁⟩ v) :
    ∃ v', Reads t d .strict (.command 0) ⟨ch :: (more ++ '{' :: rest), 1⟩ m
      ⟨.ok (.group found), ⟨left, k + (more.length + 2)⟩, m₁⟩ v' := by
  have split : rest = (text ++ ['}']) ++ left := by
    rw [(bracedText_eq_append taken).1, List.append_assoc, List.singleton_append]
  have stop : k = text.length + 2 := by
    have place := inner.leads.offset
    simp only [split, List.length_append, List.length_cons, List.length_nil] at place
    omega
  -- The argument is parsed without the text that follows it.
  obtain ⟨v₁, nested⟩ : ∃ v₁, Reads t (d + 1) .strict .whole (.start ('{' :: (text ++ ['}']))) m
      ⟨.ok [.group found], ⟨[], k⟩, m₁⟩ v₁ := by
    have alone := inner.cut rfl ⟨found, rfl⟩ (Nat.le_refl left.length)
    have front : rest.rdrop left.length = text ++ ['}'] := by rw [split, rdrop_length]
    have behind : left.rdrop left.length = [] := rdrop_length [] left
    rw [Outcome.cut, Cursor.cut, Cursor.cut, front, behind] at alone
    exact alone.brace
  have name : nameOf (more ++ '{' :: rest) = more := by
    have brace : ∀ c ∈ ('{' :: rest).head?, ¬c.isAlpha := by
      intro c first
      cases first
      decide
    have whole : nameOf more = more := List.takeWhile_eq_self_iff.mpr fun c member =>
      letters c (List.mem_cons_of_mem ch member)
    rw [nameOf_append brace, whole]
  have place : afterName (more ++ '{' :: rest) (1 + 1) = ⟨'{' :: rest, more.length + 2⟩ := by
    simp [afterName, name, Nat.add_comm]
  have argument : textArgs .strict 0 1 ⟨'{' :: rest, more.length + 2⟩ =
      (.ok [text], ⟨left, k + (more.length + 2)⟩) := by
    have skipped : Cursor.skip ⟨'{' :: rest, more.length + 2⟩ = ⟨'{' :: rest, more.length + 2⟩ := rfl
    have stopped : more.length + 2 + text.length + 2 = k + (more.length + 2) := by omega
    simp only [textArgs, rawGroup_of_braces skipped taken, stopped]
  have expansion : Reads t d .strict
      (.expansion (TextCommand.expand ⟨1, "\x7b#1\x7d"⟩ [text])
        (.command (String.ofList (ch :: more))) 0)
      ⟨left, k + (more.length + 2)⟩ m ⟨.ok (.group found), ⟨left, k + (more.length + 2)⟩, m₁⟩
      ((d + 1) :: v₁) := by
    rw [expand_braced]
    exact .nested room nested
  have lookup : Reads t d .strict (.lookup (String.ofList (ch :: nameOf (more ++ '{' :: rest))) 0)
      (afterName (more ++ '{' :: rest) (1 + 1)) m
      ⟨.ok (.group found), ⟨left, k + (more.length + 2)⟩, m₁⟩ ((d + 1) :: v₁) := by
    rw [name, place]
    exact .textCommand unnamed command (by decide) argument expansion
  exact ⟨_, .name (letters ch (by simp)) (by rwa [name]) lookup⟩

end Command

end Groups

end Source

namespace Registry

open Source

/-- An argument means what a group means. A command that stands for its argument in braces is read
with an argument to what the braced argument is read to, one level of nesting being left for it and
one more for what it holds, if the reader of raw text ends the argument where the parser ends the
group. That is so if no comment begins in the argument and no command takes a brace by itself. -/
theorem readAt_argument {r : Registry} {depth : Nat} {name argument : String}
    {items : List (Atom Float32)} (named : name ≠ "") (letters : ∀ ch ∈ name.toList, ch.isAlpha)
    (other : Construct.ofName? name = none) (unnamed : r.symbols.get? name = none)
    (command : r.commands.get? name = some ⟨1, "\x7b#1\x7d"⟩) (room : depth < maxDepth)
    (read : (r.readAt depth .strict ("\x7b" ++ argument ++ "\x7d")).result = .ok items)
    (unlimited : ∀ e, (r.readAt (depth + 1) .strict ("\x7b" ++ argument ++ "\x7d")).result =
      .error (.fault (.parse e)) → e.fault.isLimit = false)
    (stops : SameArgument r.toTables depth r.cache ("\x7b" ++ argument ++ "\x7d").toList ∨
      Legible r.toTables ("\x7b" ++ argument ++ "\x7d").toList) :
    (r.readAt depth .strict ("\\" ++ name ++ "\x7b" ++ argument ++ "\x7d")).result = .ok items := by
  obtain ⟨ch, more, spelled⟩ : ∃ ch more, name.toList = ch :: more := by
    cases spelled : name.toList with
    | nil => exact absurd (String.toList_eq_nil_iff.mp spelled) named
    | cons ch more => exact ⟨ch, more, rfl⟩
  have spelling : name = String.ofList (ch :: more) := by rw [← spelled, String.ofList_toList]
  have group : ("\x7b" ++ argument ++ "\x7d").toList = '{' :: (argument.toList ++ ['}']) := by
    simp [String.toList_append]
  have whole : ("\\" ++ name ++ "\x7b" ++ argument ++ "\x7d").toList =
      '\\' :: ch :: (more ++ '{' :: (argument.toList ++ ['}'])) := by
    simp [String.toList_append, spelled]
  rw [spelled] at letters
  rw [spelling] at other unnamed command
  rw [group] at stops
  -- One level deeper the braced argument is read to the same.
  have deeper := (LeftOf.refl r).result_readAt unlimited (by simp [skipped_readAt])
    (Nat.le_succ depth)
  rw [read] at deeper
  obtain ⟨o, v, reads⟩ := ends r.toTables (depth + 1) .strict .whole
    (.start ("\x7b" ++ argument ++ "\x7d").toList) { cache := r.cache }
  rw [readAt_of_reads reads] at deeper
  have value : o.value = .ok items := mapError_ok.mp deeper.symm
  rw [group] at reads
  obtain ⟨found, ⟨left, k⟩, m₁, v₁, v₂, inner, later⟩ := reads.of_brace value
  have clean : m₁.skipped = [] := inner.skipped_strict
  obtain ⟨text, taken⟩ : ∃ text, bracedText 0 (argument.toList ++ ['}']) = (text, some left) := by
    obtain same | legible := stops
    · obtain ⟨m', v', inner⟩ := inner.shallower ⟨found, rfl⟩ rfl (Nat.le_succ depth)
      exact bracedText_of_same inner same
    · exact bracedText_of_legible inner legible
  obtain ⟨v₃, first⟩ := Reads.braced_command letters other unnamed command room taken inner
  obtain ⟨m₂, v₄, later⟩ := later.shallower ⟨items, value⟩ clean (Nat.le_succ depth)
  obtain ⟨o', v₅, behind, result⟩ := later.shifted value (by simp) (more.length + 2)
  have front : (Cursor.start ('\\' :: ch :: (more ++ '{' :: (argument.toList ++ ['}'])))).skip =
      ⟨'\\' :: ch :: (more ++ '{' :: (argument.toList ++ ['}'])), 0⟩ := by rfl
  have step : Reads r.toTables depth .strict (.step [] '\\' 0) _ _ _ v₃ :=
    .another (by decide) (by decide) (.command first)
  have both := Reads.item front (by simp) step behind
  rw [← whole] at both
  rw [readAt_of_reads both]
  exact mapError_ok.mpr result

theorem readAt_argument_escaped :
    ((empty.addCommand "m" 1 "\x7b#1\x7d").readAt 0 .strict
      ("\\" ++ "m" ++ "\x7b" ++ "a\\\x7d^b" ++ "\x7d")).result =
        .ok [.row [.char 'a', .scripts (.char '\x7d') (some (.char 'b')) none]] := by
  have read (depth : Nat) (h : depth = 0 ∨ depth = 1) :
      ((empty.addCommand "m" 1 "\x7b#1\x7d").readAt depth .strict
        ("\x7b" ++ "a\\\x7d^b" ++ "\x7d")).result =
          .ok [.row [.char 'a', .scripts (.char '\x7d') (some (.char 'b')) none]] := by
    obtain rfl | rfl := h <;> cbv
  have legible : Legible (empty.addCommand "m" 1 "\x7b#1\x7d").toTables
      ("\x7b" ++ "a\\\x7d^b" ++ "\x7d").toList := by
    refine ⟨by decide, fun rest behind takes => ?_⟩
    obtain rfl : rest = "\x7d^b\x7d".toList := by
      simpa [List.suffix_cons_iff] using behind
    cases takes with
    | delimiter name => exact absurd name (by decide)
    | text name => exact absurd name (by decide)
    | argument _ _ found => cases found
  refine readAt_argument (by decide) (by simp) rfl rfl rfl (by decide) (read 0 (.inl rfl))
    (fun e failed => ?_) (.inr legible)
  rw [read 1 (.inr rfl)] at failed
  cases failed

/-- A comment hides a brace from the parser, and not from the reader of raw text. -/
theorem not_readAt_argument :
    ¬∀ (r : Registry) (name argument : String) (a : Atom Float32), name ≠ "" →
      (∀ ch ∈ name.toList, ch.isAlpha) → Construct.ofName? name = none →
      r.symbols.get? name = none → r.commands.get? name = some ⟨1, "\x7b#1\x7d"⟩ →
      (r.readAt 0 .strict ("\x7b" ++ argument ++ "\x7d")).result = .ok [a] →
      (∀ depth ≤ 1, ∀ e, (r.readAt depth .strict ("\x7b" ++ argument ++ "\x7d")).result =
        .error (.fault (.parse e)) → e.fault.isLimit = false) →
      (r.readAt 0 .strict ("\\" ++ name ++ "\x7b" ++ argument ++ "\x7d")).result = .ok [a] := by
  intro claim
  have read (depth : Nat) (h : depth = 0 ∨ depth = 1) :
      ((empty.addCommand "m" 1 "\x7b#1\x7d").readAt depth .strict
        ("\x7b" ++ "a%\x7d\nb" ++ "\x7d")).result = .ok [.row [.char 'a', .char 'b']] := by
    obtain rfl | rfl := h <;> cbv
  have failed : ((empty.addCommand "m" 1 "\x7b#1\x7d").readAt 0 .strict
      ("\\" ++ "m" ++ "\x7b" ++ "a%\x7d\nb" ++ "\x7d")).result =
        .error (.fault (.parse ⟨0, .within (.command "m") (.unclosed '\x7d')⟩)) := by
    cbv
  have meant := claim (empty.addCommand "m" 1 "\x7b#1\x7d") "m" "a%\x7d\nb" _ (by decide)
    (by simp) rfl rfl rfl (read 0 (.inl rfl)) fun depth le e limit => by
      rw [read depth (by omega)] at limit
      cases limit
  rw [failed] at meant
  cases meant

end Registry

end FormulaInk
