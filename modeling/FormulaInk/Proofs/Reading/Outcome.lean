import FormulaInk.Source.Reading

/-! The readers without the bounds that their results carry. Each reader gets one equation for each
way it can go; the proofs about reading use these and never unfold a reader. -/

namespace FormulaInk.Source

variable {α β : Type}

/-- What a reader leaves: what it found, the place where it stopped, and the memo. -/
structure Outcome (α : Type) where
  value : Except (Halt ParseError) α
  cursor : Cursor
  memo : Memo

namespace Outcome

/-- Goes on after a success. A halt ends the reading. -/
def andThen (o : Outcome α) (next : α → Cursor → Memo → Outcome β) : Outcome β :=
  match o.value with
  | .ok a => next a o.cursor o.memo
  | .error e => ⟨.error e, o.cursor, o.memo⟩

/-- The outcome with its value changed. -/
def map (f : α → β) (o : Outcome α) : Outcome β := ⟨o.value.map f, o.cursor, o.memo⟩

/-- The outcome of a reader that leaves the memo alone. -/
def ofFound (found : Found α) (m : Memo) : Outcome α := ⟨found.1.mapError .fault, found.2, m⟩

@[simp] theorem ofFound_ok (a : α) (c : Cursor) (m : Memo) :
    ofFound (.ok a, c) m = ⟨.ok a, c, m⟩ :=
  rfl

@[simp] theorem ofFound_error (e : ParseError) (c : Cursor) (m : Memo) :
    (ofFound (.error e, c) m : Outcome α) = ⟨.error (.fault e), c, m⟩ :=
  rfl

theorem found_of_ok {found : Found α} {m : Memo} {a : α} (h : (ofFound found m).value = .ok a) :
    found.1 = .ok a := by
  rcases found with ⟨_ | _, _⟩ <;> cases h
  rfl

theorem andThen_ok {o : Outcome α} {a : α} (h : o.value = .ok a)
    (next : α → Cursor → Memo → Outcome β) : o.andThen next = next a o.cursor o.memo := by
  simp [andThen, h]

theorem andThen_error {o : Outcome α} {e : Halt ParseError} (h : o.value = .error e)
    (next : α → Cursor → Memo → Outcome β) : o.andThen next = ⟨.error e, o.cursor, o.memo⟩ := by
  simp [andThen, h]

theorem map_map {γ : Type} (o : Outcome α) (f : α → β) (g : β → γ) :
    (o.map f).map g = o.map fun a => g (f a) := by
  rcases o with ⟨_ | _, _, _⟩ <;> rfl

theorem map_andThen {γ : Type} (o : Outcome α) (f : α → β) (next : β → Cursor → Memo → Outcome γ) :
    (o.map f).andThen next = o.andThen fun a => next (f a) := by
  rcases o with ⟨_ | _, _, _⟩ <;> rfl

theorem value_map_ok {o : Outcome α} {f : α → β} {b : β} (h : (o.map f).value = .ok b) :
    ∃ a, o.value = .ok a ∧ f a = b := by
  rcases o with ⟨_ | a, _, _⟩
  · cases h
  · exact ⟨a, rfl, Except.ok.inj h⟩

theorem value_map_error {o : Outcome α} {f : α → β} {halt : Halt ParseError} :
    (o.map f).value = .error halt ↔ o.value = .error halt := by
  rcases o with ⟨_ | a, _, _⟩ <;> constructor <;> intro h <;> cases h <;> rfl

theorem ok_of_map {o : Outcome α} {f : α → β} (h : ∃ b, (o.map f).value = .ok b) :
    ∃ a, o.value = .ok a := by
  obtain ⟨b, ok⟩ := h
  obtain ⟨a, ok, -⟩ := value_map_ok ok
  exact ⟨a, ok⟩

end Outcome

/-- A panic in a nested source is the same panic in the source around it. -/
theorem panic_of_mapped {ε δ : Type} {x : Except (Halt ε) α} {f : ε → δ} {g : α → β} {p : Panic}
    (h : (x.mapError (Halt.map f)).map g = .error (.panic p)) : x = .error (.panic p) := by
  rcases x with (e | q) | a <;> cases h
  rfl

/-- A reading without its bound. -/
def Reading.outcome {n : Nat} (r : Reading α n) : Outcome α := ⟨r.value, r.cursor, r.memo⟩

namespace Reading

variable {n : Nat}

theorem length_outcome_le (r : Reading α n) : r.outcome.cursor.rest.length ≤ n := r.le

end Reading

/-- A lenient scope takes an empty atom for a faulty item and goes on. A panic ends the reading in
every scope. -/
def recover (s : Scope) (items : List (Atom Float32)) (o : Outcome (List (Atom Float32))) :
    Outcome (List (Atom Float32)) :=
  match o.value, s.mode with
  | .error (.fault e), .lenient =>
    ⟨.ok (.empty :: items), o.cursor, { o.memo with skipped := o.memo.skipped ++ [e] }⟩
  | _, _ => o

/-- Whether a sequence read in the mode ends where one of its items halts. -/
def Mode.EndsAt (mode : Mode) : Halt ParseError → Prop
  | .fault _ => mode = .strict
  | .panic _ => True

theorem Mode.EndsAt.strict (halt : Halt ParseError) : Mode.strict.EndsAt halt := by
  cases halt with
  | fault e => rfl
  | panic p => trivial

theorem Mode.EndsAt.panic (mode : Mode) (p : Panic) : mode.EndsAt (.panic p) := trivial

/-- What items come to at the end of the source. -/
def atEnd (s : Scope) (close : Option Char) (opened : Nat) (items : List (Atom Float32)) :
    Except (Halt ParseError) (List (Atom Float32)) :=
  match close, s.mode with
  | some ch, .strict => .error (.fault ⟨opened, .unclosed ch⟩)
  | _, _ => .ok items.reverse

/-- The atom of a name that is neither built in nor a symbol nor a text command. -/
def predefinedName (s : Scope) (name : String) (start : Nat) (m : Memo) :
    Except (Halt ParseError) (Atom Float32) × Memo :=
  match s.tables.predefined.get? name with
  | some source => predefinedAtom s name source start m
  | none => (.error (.fault ⟨start, .unknownCommand name⟩), m)

section Expansion

variable {s : Scope} {nested : Nested} {source : List Char} {name text : String} {start : Nat}
  {m : Memo} {origin : Origin} {f : Formula} {items : List (Atom Float32)} {e : ParseError}

theorem expansion_none (h : s.nested = none) :
    expansion s source origin start m = (.error (.fault ⟨start, .tooDeep⟩), m) := by
  simp [expansion, h]

theorem expansion_some (h : s.nested = some nested) :
    expansion s source origin start m =
      (((nested s.mode source m).1.mapError
          (Halt.map fun e => ⟨start, .within origin e.fault⟩)).map .group,
        (nested s.mode source m).2) := by
  simp only [expansion, h]
  rcases nested s.mode source m with ⟨_ | items, m'⟩ <;> rfl

theorem predefined_of_hit (h : m.cache.get? name = some f) :
    predefined nested name text m = (.ok f, m) := by
  simp [predefined, h]

/-- What a cache comes to when a name was read into items. -/
def remember (cache : Cache) (name : String) :
    Except (Halt ParseError) (List (Atom Float32)) → Cache
  | .ok items => cache.insert name (Formula.empty.addAll items)
  | .error _ => cache

theorem predefined_of_miss (h : m.cache.get? name = none) :
    predefined nested name text m =
      ((nested .strict text.toList m).1.map Formula.empty.addAll,
        { (nested .strict text.toList m).2 with
          cache := remember (nested .strict text.toList m).2.cache name
            (nested .strict text.toList m).1 }) := by
  simp only [predefined, h]
  rcases nested .strict text.toList m with ⟨_ | items, m'⟩ <;> rfl

theorem predefinedName_unknown (h : s.tables.predefined.get? name = none) :
    predefinedName s name start m = (.error (.fault ⟨start, .unknownCommand name⟩), m) := by
  simp [predefinedName, h]

theorem predefinedName_none (h : s.tables.predefined.get? name = some text) (hn : s.nested = none) :
    predefinedName s name start m = (.error (.fault ⟨start, .tooDeep⟩), m) := by
  simp [predefinedName, h, predefinedAtom, hn]

theorem predefinedName_some (h : s.tables.predefined.get? name = some text)
    (hn : s.nested = some nested) :
    predefinedName s name start m =
      (((predefined nested name text m).1.mapError
          (Halt.map fun e => ⟨start, .within (.command name) e.fault⟩)).map
            fun f => f.root.getD .empty,
        (predefined nested name text m).2) := by
  simp only [predefinedName, h, predefinedAtom, hn]
  rcases predefined nested name text m with ⟨_ | f, m'⟩ <;> rfl

theorem character_of_source {ch : Char} (h : s.tables.charFormulas.get? ch = some text) :
    character s ch start m = expansion s text.toList (.character ch) start m := by
  simp [character, h]

theorem character_of_symbol {ch : Char} {symbol : Symbol}
    (h : s.tables.charFormulas.get? ch = none)
    (hs : s.tables.symbolForChar? ch = some (name, symbol)) :
    character s ch start m = (.ok (.symbol name symbol.ch symbol.kind), m) := by
  simp [character, h, hs]

theorem character_of_none {ch : Char} (h : s.tables.charFormulas.get? ch = none)
    (hs : s.tables.symbolForChar? ch = none) : character s ch start m = (.ok (.char ch), m) := by
  simp [character, h, hs]

end Expansion

section Recover

variable {s : Scope} {items : List (Atom Float32)} {o : Outcome (List (Atom Float32))}
  {e : ParseError}

theorem recover_ok {found : List (Atom Float32)} (h : o.value = .ok found) :
    recover s items o = o := by
  simp [recover, h]

theorem recover_strict (h : s.mode = .strict) : recover s items o = o := by
  unfold recover
  split <;> simp_all

theorem recover_lenient (h : o.value = .error (.fault e)) (hs : s.mode = .lenient) :
    recover s items o =
      ⟨.ok (.empty :: items), o.cursor, { o.memo with skipped := o.memo.skipped ++ [e] }⟩ := by
  simp [recover, h, hs]

theorem recover_panic {p : Panic} (h : o.value = .error (.panic p)) : recover s items o = o := by
  simp [recover, h]

theorem recover_endsAt {halt : Halt ParseError} (h : o.value = .error halt)
    (hs : s.mode.EndsAt halt) : recover s items o = o := by
  cases halt with
  | fault e => exact recover_strict hs
  | panic p => exact recover_panic h

@[simp] theorem cursor_recover : (recover s items o).cursor = o.cursor := by
  unfold recover
  split <;> rfl

end Recover

section Sequence

variable {s : Scope} {close : Option Char} {opened n : Nat} {items : List (Atom Float32)}
  {c : Cursor} {m : Memo} {ch : Char} {rest : List Char}

theorem sequence_of_end (h : c.skip = ⟨[], n⟩) :
    (sequence s close opened items c m).outcome =
      ⟨atEnd s close opened items, ⟨[], n⟩, m⟩ := by
  rw [sequence]
  split
  · rename_i hs
    cases h.symm.trans hs
    unfold atEnd
    split <;> simp_all [Reading.outcome]
  · rename_i hs
    cases h.symm.trans hs

theorem sequence_of_close (h : c.skip = ⟨ch :: rest, n⟩) (hc : some ch = close) :
    (sequence s close opened items c m).outcome = ⟨.ok items.reverse, ⟨rest, n + 1⟩, m⟩ := by
  rw [sequence]
  split
  · rename_i hs
    cases h.symm.trans hs
  · rename_i hs
    cases h.symm.trans hs
    simp [hc, Reading.outcome]

theorem sequence_of_step (h : c.skip = ⟨ch :: rest, n⟩) (hc : some ch ≠ close) :
    (sequence s close opened items c m).outcome =
      (recover s items (step s items ch n ⟨rest, n + 1⟩ m).outcome).andThen
        fun items after m => (sequence s close opened items after m).outcome := by
  rw [sequence]
  split
  · rename_i hs
    cases h.symm.trans hs
  · rename_i hs
    cases h.symm.trans hs
    rw [if_neg hc]
    rcases step s items ch n ⟨rest, n + 1⟩ m with ⟨value, after, m', le⟩
    cases value with
    | ok found => rfl
    | error e =>
      cases hm : s.mode with
      | strict => rw [recover_strict hm]; rfl
      | lenient =>
        cases e with
        | fault e => rw [recover_lenient rfl hm]; rfl
        | panic p => rw [recover_panic rfl]; rfl

variable {found : List (Atom Float32)} {e : ParseError} {halt : Halt ParseError} {after : Cursor}
  {m' : Memo}

theorem sequence_of_item (h : c.skip = ⟨ch :: rest, n⟩) (hc : some ch ≠ close)
    (hf : (step s items ch n ⟨rest, n + 1⟩ m).outcome = ⟨.ok found, after, m'⟩) :
    (sequence s close opened items c m).outcome =
      (sequence s close opened found after m').outcome := by
  rw [sequence_of_step h hc, hf, recover_ok rfl, Outcome.andThen_ok rfl]

theorem sequence_of_halt (h : c.skip = ⟨ch :: rest, n⟩) (hc : some ch ≠ close)
    (hs : s.mode.EndsAt halt)
    (hf : (step s items ch n ⟨rest, n + 1⟩ m).outcome = ⟨.error halt, after, m'⟩) :
    (sequence s close opened items c m).outcome = ⟨.error halt, after, m'⟩ := by
  rw [sequence_of_step h hc, hf, recover_endsAt rfl hs, Outcome.andThen_error rfl]

theorem sequence_of_passed (h : c.skip = ⟨ch :: rest, n⟩) (hc : some ch ≠ close)
    (hs : s.mode = .lenient)
    (hf : (step s items ch n ⟨rest, n + 1⟩ m).outcome = ⟨.error (.fault e), after, m'⟩) :
    (sequence s close opened items c m).outcome =
      (sequence s close opened (.empty :: items) after
        { m' with skipped := m'.skipped ++ [e] }).outcome := by
  rw [sequence_of_step h hc, hf, recover_lenient rfl hs, Outcome.andThen_ok rfl]

end Sequence

section Items

variable {s : Scope} {items : List (Atom Float32)} {start owner n : Nat} {c : Cursor} {m : Memo}
  {ch : Char} {rest : List Char} {fault : Fault}

theorem step_of_brace :
    (step s items '}' start c m).outcome = ⟨.error (.fault ⟨start, .unmatchedBrace⟩), c, m⟩ := by
  rw [step]
  rfl

theorem step_of_fault (h : ch = '^' ∨ ch = '_') (hf : scriptFault? (ch = '^') items = some fault) :
    (step s items ch start c m).outcome = ⟨.error (.fault ⟨start, fault⟩), c, m⟩ := by
  have hb : ch ≠ '}' := by rcases h with rfl | rfl <;> decide
  rw [step, if_neg hb, if_pos h]
  split
  · rename_i hs
    cases hf.symm.trans hs
    rfl
  · rename_i hs
    cases hf.symm.trans hs

theorem step_of_script (h : ch = '^' ∨ ch = '_') (hf : scriptFault? (ch = '^') items = none) :
    (step s items ch start c m).outcome =
      (argument s start c m).outcome.map (attachScript (ch = '^') · items) := by
  have hb : ch ≠ '}' := by rcases h with rfl | rfl <;> decide
  rw [step, if_neg hb, if_pos h]
  split
  · rename_i hs
    cases hf.symm.trans hs
  · rfl

theorem step_of_atom (hb : ch ≠ '}') (h : ¬(ch = '^' ∨ ch = '_')) :
    (step s items ch start c m).outcome = (atom s ch start c m).outcome.map (· :: items) := by
  rw [step, if_neg hb, if_neg h]
  rfl

theorem argument_of_end (h : c.skip = ⟨[], n⟩) :
    (argument s owner c m).outcome = ⟨.error (.fault ⟨owner, .missingArgument⟩), ⟨[], n⟩, m⟩ := by
  rw [argument]
  split
  · rename_i hs
    cases h.symm.trans hs
    rfl
  · rename_i hs
    cases h.symm.trans hs

theorem argument_of_missing (h : c.skip = ⟨ch :: rest, n⟩) (hc : ch = '}' ∨ ch = '^' ∨ ch = '_') :
    (argument s owner c m).outcome =
      ⟨.error (.fault ⟨owner, .missingArgument⟩), ⟨ch :: rest, n⟩, m⟩ := by
  rw [argument]
  split
  · rename_i hs
    cases h.symm.trans hs
  · rename_i hs
    cases h.symm.trans hs
    simp [hc, Reading.outcome]

theorem argument_of_atom (h : c.skip = ⟨ch :: rest, n⟩)
    (hc : ¬(ch = '}' ∨ ch = '^' ∨ ch = '_')) :
    (argument s owner c m).outcome = (atom s ch n ⟨rest, n + 1⟩ m).outcome := by
  rw [argument]
  split
  · rename_i hs
    cases h.symm.trans hs
  · rename_i hs
    cases h.symm.trans hs
    rw [if_neg hc]
    rfl

theorem atom_of_group :
    (atom s '{' start c m).outcome = (sequence s (some '}') start [] c m).outcome.map .group := by
  rw [atom]
  rfl

theorem atom_of_command : (atom s '\\' start c m).outcome = (command s start c m).outcome := by
  rw [atom]

theorem atom_of_unexpected (h : ch = '#' ∨ ch = '&') :
    (atom s ch start c m).outcome = ⟨.error (.fault ⟨start, .unexpected ch⟩), c, m⟩ := by
  rcases h with rfl | rfl <;> rw [atom] <;> rfl

theorem atom_of_tie : (atom s '~' start c m).outcome = ⟨.ok (.space .thick), c, m⟩ := by
  rw [atom]
  rfl

theorem atom_of_character (hg : ch ≠ '{') (hc : ch ≠ '\\') (hu : ¬(ch = '#' ∨ ch = '&'))
    (ht : ch ≠ '~') :
    (atom s ch start c m).outcome =
      ⟨(character s ch start m).1, c, (character s ch start m).2⟩ := by
  rw [atom]
  · rfl
  all_goals simp_all

end Items

section Command

variable {s : Scope} {name : String} {start n : Nat} {c : Cursor} {m : Memo} {ch : Char}
  {rest : List Char} {construct : Construct} {a : Atom Float32}

/-- The place after the letters of a command name at the front of `rest`. -/
def afterName (rest : List Char) (n : Nat) : Cursor :=
  ⟨rest.drop (nameOf rest).length, n + (nameOf rest).length⟩

theorem command_of_end :
    (command s start ⟨[], n⟩ m).outcome = ⟨.error (.fault ⟨start, .missingName⟩), ⟨[], n⟩, m⟩ := by
  rw [command]
  rfl

theorem command_of_construct (hc : ch.isAlpha)
    (hn : Construct.ofName? (String.ofList (ch :: nameOf rest)) = some construct) :
    (command s start ⟨ch :: rest, n⟩ m).outcome =
      (args s start construct.params (afterName rest (n + 1)) m).outcome.map
        (construct.build s.tables) := by
  rw [command]
  simp only [hc, if_true]
  split
  · rename_i hs
    cases hn.symm.trans hs
    rfl
  · rename_i hs
    cases hn.symm.trans hs

theorem command_of_name (hc : ch.isAlpha)
    (hn : Construct.ofName? (String.ofList (ch :: nameOf rest)) = none) :
    (command s start ⟨ch :: rest, n⟩ m).outcome =
      (lookup s (String.ofList (ch :: nameOf rest)) start (afterName rest (n + 1)) m).outcome := by
  rw [command]
  simp only [hc, if_true]
  split
  · rename_i hs
    cases hn.symm.trans hs
  · rfl

theorem command_of_sign (hc : ¬ch.isAlpha) (hs : ofSign? s.tables ch = some a) :
    (command s start ⟨ch :: rest, n⟩ m).outcome = ⟨.ok a, ⟨rest, n + 1⟩, m⟩ := by
  rw [command]
  simp only [if_neg hc]
  split
  · rename_i hs'
    cases hs.symm.trans hs'
    rfl
  · rename_i hs'
    cases hs.symm.trans hs'

theorem command_of_unknown (hc : ¬ch.isAlpha) (hs : ofSign? s.tables ch = none) :
    (command s start ⟨ch :: rest, n⟩ m).outcome =
      ⟨.error (.fault ⟨start, .unknownCommand (String.singleton ch)⟩), ⟨rest, n + 1⟩, m⟩ := by
  rw [command]
  simp only [if_neg hc]
  split
  · rename_i hs'
    cases hs.symm.trans hs'
  · rfl

theorem lookup_of_symbol {symbol : Symbol} (h : s.tables.symbols.get? name = some symbol) :
    (lookup s name start c m).outcome = ⟨.ok (.symbol name symbol.ch symbol.kind), c, m⟩ := by
  unfold lookup
  split
  · rename_i hs
    cases h.symm.trans hs
    rfl
  · rename_i hs
    cases h.symm.trans hs

/-- A text command makes room for its arguments, reads them, and then reads what its body comes to
with them. -/
theorem lookup_of_text {command : TextCommand} (h : s.tables.symbols.get? name = none)
    (hc : s.tables.commands.get? name = some command) :
    (lookup s name start c m).outcome =
      if mostArgs < command.args then ⟨.error (.panic .capacity), c, m⟩
      else (Outcome.ofFound (textArgs s.mode start command.args c) m).andThen fun args after m =>
        ⟨(expansion s (command.expand args) (.command name) start m).1, after,
          (expansion s (command.expand args) (.command name) start m).2⟩ := by
  unfold lookup
  split
  · rename_i hs
    cases h.symm.trans hs
  · split
    · rename_i hs
      cases hc.symm.trans hs
      split
      · rfl
      · split
        · rename_i ha
          simp [ha, Reading.outcome, Outcome.andThen]
        · rename_i ha
          simp [ha, Reading.outcome, Outcome.andThen]
    · rename_i hs
      cases hc.symm.trans hs

/-- A text command panics when there cannot be room for its arguments. -/
theorem lookup_of_panic {command : TextCommand} (h : s.tables.symbols.get? name = none)
    (hc : s.tables.commands.get? name = some command) (many : mostArgs < command.args) :
    (lookup s name start c m).outcome = ⟨.error (.panic .capacity), c, m⟩ := by
  rw [lookup_of_text h hc, if_pos many]

theorem lookup_of_command {command : TextCommand} (h : s.tables.symbols.get? name = none)
    (hc : s.tables.commands.get? name = some command) (room : command.args ≤ mostArgs) :
    (lookup s name start c m).outcome =
      (Outcome.ofFound (textArgs s.mode start command.args c) m).andThen fun args after m =>
        ⟨(expansion s (command.expand args) (.command name) start m).1, after,
          (expansion s (command.expand args) (.command name) start m).2⟩ := by
  rw [lookup_of_text h hc, if_neg (Nat.not_lt.mpr room)]

theorem lookup_of_textFault {command : TextCommand} {e : ParseError} {after : Cursor}
    (h : s.tables.symbols.get? name = none) (hc : s.tables.commands.get? name = some command)
    (room : command.args ≤ mostArgs)
    (ha : textArgs s.mode start command.args c = (.error e, after)) :
    (lookup s name start c m).outcome = ⟨.error (.fault e), after, m⟩ := by
  rw [lookup_of_command h hc room, ha]
  rfl

theorem lookup_of_body {command : TextCommand} {args : List (List Char)} {after : Cursor}
    (h : s.tables.symbols.get? name = none) (hc : s.tables.commands.get? name = some command)
    (room : command.args ≤ mostArgs)
    (ha : textArgs s.mode start command.args c = (.ok args, after)) :
    (lookup s name start c m).outcome =
      ⟨(expansion s (command.expand args) (.command name) start m).1, after,
        (expansion s (command.expand args) (.command name) start m).2⟩ := by
  rw [lookup_of_command h hc room, ha]
  rfl

theorem lookup_of_predefined (h : s.tables.symbols.get? name = none)
    (hc : s.tables.commands.get? name = none) :
    (lookup s name start c m).outcome =
      ⟨(predefinedName s name start m).1, c, (predefinedName s name start m).2⟩ := by
  unfold lookup predefinedName
  simp only [h, hc]
  cases s.tables.predefined.get? name with
  | none => rfl
  | some source => rfl

end Command

section Args

variable {s : Scope} {start n : Nat} {ps : List Param} {c : Cursor} {m : Memo} {rest : List Char}

theorem args_nil : (args s start [] c m).outcome = ⟨.ok (), c, m⟩ := by
  rw [args]
  rfl

theorem args_atom :
    (args s start (.atom :: ps) c m).outcome =
      (argument s start c m).outcome.andThen fun a after m =>
        (args s start ps after m).outcome.map (a, ·) := by
  rw [args]
  rcases argument s start c m with ⟨value, after, m', le⟩
  cases value <;> rfl

/-- At the end of the source an argument is missing. -/
theorem args_atom_of_end (h : c.skip = ⟨[], n⟩) :
    (args s start (.atom :: ps) c m).outcome =
      ⟨.error (.fault ⟨start, .missingArgument⟩), ⟨[], n⟩, m⟩ := by
  rw [args_atom, argument_of_end h]
  rfl

theorem args_optional_of_open (h : c.skip = ⟨'[' :: rest, n⟩) :
    (args s start (.optionalAtom :: ps) c m).outcome =
      (sequence s (some ']') n [] ⟨rest, n + 1⟩ m).outcome.andThen fun items after m =>
        (args s start ps after m).outcome.map (some (.group items), ·) := by
  rw [args]
  split
  · rename_i hs
    cases h.symm.trans hs
    rcases sequence s (some ']') n [] ⟨rest, n + 1⟩ m with ⟨value, after, m', le⟩
    cases value <;> rfl
  · rename_i hs
    exact absurd h (hs rest n)

theorem args_optional_of_absent (h : c.skip.rest.head? ≠ some '[') :
    (args s start (.optionalAtom :: ps) c m).outcome =
      (args s start ps c.skip m).outcome.map (none, ·) := by
  rw [args]
  split
  · rename_i hs
    simp [hs] at h
  · rfl

theorem args_plain {p : Plain} :
    (args s start (.plain p :: ps) c m).outcome =
      (Outcome.ofFound (p.read s.tables s.mode start c) m).andThen fun value after m =>
        (args s start ps after m).outcome.map (value, ·) := by
  rw [args]
  split
  · rename_i e after hs
    have found :
        Outcome.ofFound (p.read s.tables s.mode start c) m = ⟨.error (.fault e), after, m⟩ := by
      rw [hs, Outcome.ofFound_error]
    rw [found]
    rfl
  · rename_i value after hs
    have found : Outcome.ofFound (p.read s.tables s.mode start c) m = ⟨.ok value, after, m⟩ := by
      rw [hs, Outcome.ofFound_ok]
    rw [found]
    rfl

end Args

end FormulaInk.Source
