import FormulaInk.Halt
import FormulaInk.Source.Construct

/-!
Reading a source into atoms.

The readers call each other on what is left of the source, which never grows; every reading carries
that bound, and so the recursion ends. Texts that a name or a character stands for are read by the
`nested` reader of the scope. `Source.atDepth` supplies one for each level of nesting up to
`maxDepth`, and none beyond it.

Names are looked up in this order: built-in commands, symbols, text commands, predefined formulas.

A reading ends with a value, at a fault or at a panic. A panic goes through all readers unchanged,
also those that pass over faults.
-/

namespace FormulaInk.Source

/-- What reading changes: the predefined formulas that were read, and the faults passed over. -/
structure Memo where
  cache : Cache := .empty
  skipped : List ParseError := []

/-- A reader of nested sources. -/
abbrev Nested := Mode → List Char → Memo → Except (Halt ParseError) (List (Atom Float32)) × Memo

/-- What stays the same while one source is read. -/
structure Scope where
  tables : Tables
  mode : Mode
  /-- The reader of nested sources, unless they are nested too deeply. -/
  nested : Option Nested

/-- What a reader found, where it stopped and what it changed. It stopped where at most `bound`
characters are left. -/
structure Reading (α : Type) (bound : Nat) where
  value : Except (Halt ParseError) α
  cursor : Cursor
  memo : Memo
  le : cursor.rest.length ≤ bound

namespace Reading

variable {α β : Type} {m n : Nat}

/-- The same reading under a larger bound. -/
def weaken (r : Reading α m) (h : m ≤ n) : Reading α n :=
  ⟨r.value, r.cursor, r.memo, Nat.le_trans r.le h⟩

/-- The reading with its value changed. -/
def map (f : α → β) (r : Reading α n) : Reading β n := ⟨r.value.map f, r.cursor, r.memo, r.le⟩

end Reading

/-- Reads the source that a character or a command stands for, as one atom. -/
def expansion (s : Scope) (source : List Char) (origin : Origin) (start : Nat) (m : Memo) :
    Except (Halt ParseError) (Atom Float32) × Memo :=
  match s.nested with
  | none => (.error (.fault ⟨start, .tooDeep⟩), m)
  | some nested =>
    match nested s.mode source m with
    | (.ok items, m) => (.ok (.group items), m)
    | (.error e, m) => (.error (e.map fun e => ⟨start, .within origin e.fault⟩), m)

/-- The formula of a name: the one that was read before, or one that is read now and kept. A
predefined formula is always read strictly. -/
def predefined (nested : Nested) (name source : String) (m : Memo) :
    Except (Halt ParseError) Formula × Memo :=
  match m.cache.get? name with
  | some formula => (.ok formula, m)
  | none =>
    match nested .strict source.toList m with
    | (.ok items, m) =>
      let formula := Formula.empty.addAll items
      (.ok formula, { m with cache := m.cache.insert name formula })
    | (.error e, m) => (.error e, m)

/-- The atom of a predefined formula. -/
def predefinedAtom (s : Scope) (name source : String) (start : Nat) (m : Memo) :
    Except (Halt ParseError) (Atom Float32) × Memo :=
  match s.nested with
  | none => (.error (.fault ⟨start, .tooDeep⟩), m)
  | some nested =>
    match predefined nested name source m with
    | (.ok formula, m) => (.ok (formula.root.getD .empty), m)
    | (.error e, m) => (.error (e.map fun e => ⟨start, .within (.command name) e.fault⟩), m)

/-- The atom of a character that has no meaning of its own. -/
def character (s : Scope) (ch : Char) (start : Nat) (m : Memo) :
    Except (Halt ParseError) (Atom Float32) × Memo :=
  match s.tables.charFormulas.get? ch with
  | some source => expansion s source.toList (.character ch) start m
  | none =>
    match s.tables.symbolForChar? ch with
    | some (name, symbol) => (.ok (.symbol name symbol.ch symbol.kind), m)
    | none => (.ok (.char ch), m)

/-- Reads the arguments of a text command. -/
def textArgs (mode : Mode) (owner : Nat) : Nat → Cursor → Found (List (List Char))
  | 0, c => (.ok [], c)
  | count + 1, c =>
    match rawGroup mode owner c with
    | (.error e, after) => (.error e, after)
    | (.ok raw, after) =>
      match textArgs mode owner count after with
      | (.error e, after) => (.error e, after)
      | (.ok rest, after) => (.ok (raw :: rest), after)

theorem length_textArgs_le (mode : Mode) (owner count : Nat) (c : Cursor) :
    (textArgs mode owner count c).2.rest.length ≤ c.rest.length := by
  induction count generalizing c with
  | zero => simp [textArgs]
  | succ count ih =>
    have first := length_rawGroup_le mode owner c
    simp only [textArgs]
    split
    · simp_all
    · rename_i after h
      have rest := ih after
      rw [h] at first
      split <;> simp_all <;> omega

/-- How many arguments there can be room for: a text takes 24 bytes in a list, and a list may have
as many bytes as a signed word of 64 bits can count. -/
def mostArgs : Nat := 0x7fffffffffffffff / 24

/-- Reads a name that is not built in. A text command makes room for its arguments before it reads
them. -/
def lookup (s : Scope) (name : String) (start : Nat) (c : Cursor) (m : Memo) :
    Reading (Atom Float32) c.rest.length :=
  match s.tables.symbols.get? name with
  | some symbol => ⟨.ok (.symbol name symbol.ch symbol.kind), c, m, Nat.le_refl _⟩
  | none =>
    match s.tables.commands.get? name with
    | some command =>
      if mostArgs < command.args then ⟨.error (.panic .capacity), c, m, Nat.le_refl _⟩
      else
        match h : textArgs s.mode start command.args c with
        | (.error e, after) =>
          ⟨.error (.fault e), after, m,
            by have := length_textArgs_le s.mode start command.args c; rwa [h] at this⟩
        | (.ok args, after) =>
          let (value, m) := expansion s (command.expand args) (.command name) start m
          ⟨value, after, m,
            by have := length_textArgs_le s.mode start command.args c; rwa [h] at this⟩
    | none =>
      match s.tables.predefined.get? name with
      | some source =>
        let (value, m) := predefinedAtom s name source start m
        ⟨value, c, m, Nat.le_refl _⟩
      | none => ⟨.error (.fault ⟨start, .unknownCommand name⟩), c, m, Nat.le_refl _⟩

/-- The order in which the readers go down: fewer characters; else a reader of lower rank; else fewer
parameters. -/
theorem descends {n n' rank rank' count count' : Nat} (fewer : n' ≤ n)
    (lower : rank' < rank ∨ rank' = rank ∧ count' < count) :
    Prod.Lex (· < ·) (Prod.Lex (· < ·) (· < ·)) (n', rank', count') (n, rank, count) := by
  rw [Prod.lex_def, Prod.lex_def]
  simp only
  omega

mutual

/-- Reads items up to `close`, or up to the end of the source. The items read so far come latest
first. -/
def sequence (s : Scope) (close : Option Char) (opened : Nat) (items : List (Atom Float32))
    (c : Cursor) (m : Memo) : Reading (List (Atom Float32)) c.rest.length :=
  match h : c.skip with
  | ⟨[], n⟩ =>
    match close, s.mode with
    | some ch, .strict => ⟨.error (.fault ⟨opened, .unclosed ch⟩), ⟨[], n⟩, m, Nat.zero_le _⟩
    | _, _ => ⟨.ok items.reverse, ⟨[], n⟩, m, Nat.zero_le _⟩
  | ⟨ch :: rest, n⟩ =>
    have shorter := Cursor.length_lt_of_skip h
    if some ch = close then ⟨.ok items.reverse, ⟨rest, n + 1⟩, m, Nat.le_of_lt shorter⟩
    else
      match step s items ch n ⟨rest, n + 1⟩ m with
      | ⟨.ok items, after, m, le⟩ =>
        have fewer : after.rest.length < c.rest.length := Nat.lt_of_le_of_lt le shorter
        (sequence s close opened items after m).weaken (Nat.le_of_lt fewer)
      | ⟨.error e, after, m, le⟩ =>
        have fewer : after.rest.length < c.rest.length := Nat.lt_of_le_of_lt le shorter
        match s.mode, e with
        | .lenient, .fault e =>
          (sequence s close opened (.empty :: items) after
            { m with skipped := m.skipped ++ [e] }).weaken (Nat.le_of_lt fewer)
        | _, e => ⟨.error e, after, m, Nat.le_of_lt fewer⟩
termination_by (c.rest.length, 0, 0)

/-- Reads on after the character `ch` at `start`: a script for the last item, or a new item. -/
def step (s : Scope) (items : List (Atom Float32)) (ch : Char) (start : Nat) (c : Cursor)
    (m : Memo) : Reading (List (Atom Float32)) c.rest.length :=
  if ch = '}' then ⟨.error (.fault ⟨start, .unmatchedBrace⟩), c, m, Nat.le_refl _⟩
  else if ch = '^' ∨ ch = '_' then
    match scriptFault? (ch = '^') items with
    | some fault => ⟨.error (.fault ⟨start, fault⟩), c, m, Nat.le_refl _⟩
    | none => (argument s start c m).map (attachScript (ch = '^') · items)
  else (atom s ch start c m).map (· :: items)
termination_by (c.rest.length, 3, 0)

/-- Reads a braced group or a single token for the construct at `owner`. -/
def argument (s : Scope) (owner : Nat) (c : Cursor) (m : Memo) :
    Reading (Atom Float32) c.rest.length :=
  match h : c.skip with
  | ⟨[], n⟩ => ⟨.error (.fault ⟨owner, .missingArgument⟩), ⟨[], n⟩, m, Nat.zero_le _⟩
  | ⟨ch :: rest, n⟩ =>
    have shorter := Cursor.length_lt_of_skip h
    if ch = '}' ∨ ch = '^' ∨ ch = '_' then
      ⟨.error (.fault ⟨owner, .missingArgument⟩), ⟨ch :: rest, n⟩, m,
        by simp only [List.length_cons]; omega⟩
    else (atom s ch n ⟨rest, n + 1⟩ m).weaken (Nat.le_of_lt shorter)
termination_by (c.rest.length, 0, 0)

/-- Reads the atom that begins with the character `ch` at `start`. -/
def atom (s : Scope) (ch : Char) (start : Nat) (c : Cursor) (m : Memo) :
    Reading (Atom Float32) c.rest.length :=
  match ch with
  | '{' => (sequence s (some '}') start [] c m).map .group
  | '\\' => command s start c m
  | '#' | '&' => ⟨.error (.fault ⟨start, .unexpected ch⟩), c, m, Nat.le_refl _⟩
  | '~' => ⟨.ok (.space .thick), c, m, Nat.le_refl _⟩
  | ch =>
    let (value, m) := character s ch start m
    ⟨value, c, m, Nat.le_refl _⟩
termination_by (c.rest.length, 2, 0)

/-- Reads the command whose backslash stands at `start`. -/
def command (s : Scope) (start : Nat) (c : Cursor) (m : Memo) :
    Reading (Atom Float32) c.rest.length :=
  match h : c.rest with
  | [] => ⟨.error (.fault ⟨start, .missingName⟩), c, m, by simp [h]⟩
  | ch :: rest =>
    if ch.isAlpha then
      let more := nameOf rest
      let name := String.ofList (ch :: more)
      let after : Cursor := ⟨rest.drop more.length, c.offset + 1 + more.length⟩
      have fewer : rest.length - (nameOf rest).length < c.rest.length := by
        rw [h, List.length_cons]
        omega
      have le : after.rest.length ≤ (ch :: rest).length := by
        simp only [after, more, List.length_drop, List.length_cons]
        omega
      match Construct.ofName? name with
      | some construct =>
        ((args s start construct.params after m).map (construct.build s.tables)).weaken le
      | none => (lookup s name start after m).weaken le
    else
      match ofSign? s.tables ch with
      | some a => ⟨.ok a, ⟨rest, c.offset + 1⟩, m, Nat.le_succ _⟩
      | none =>
        ⟨.error (.fault ⟨start, .unknownCommand (String.singleton ch)⟩), ⟨rest, c.offset + 1⟩, m,
          Nat.le_succ _⟩
termination_by (c.rest.length, 1, 0)

/-- Reads the arguments of the built-in command at `start`. -/
def args (s : Scope) (start : Nat) (ps : List Param) (c : Cursor) (m : Memo) :
    Reading (Args ps) c.rest.length :=
  match ps with
  | [] => ⟨.ok (), c, m, Nat.le_refl _⟩
  | .atom :: ps =>
    match argument s start c m with
    | ⟨.error e, after, m, le⟩ => ⟨.error e, after, m, le⟩
    | ⟨.ok a, after, m, le⟩ => ((args s start ps after m).map (a, ·)).weaken le
  | .optionalAtom :: ps =>
    match h : c.skip with
    | ⟨'[' :: rest, n⟩ =>
      have shorter := Cursor.length_lt_of_skip h
      match sequence s (some ']') n [] ⟨rest, n + 1⟩ m with
      | ⟨.error e, after, m, le⟩ =>
        ⟨.error e, after, m, Nat.le_trans le (Nat.le_of_lt shorter)⟩
      | ⟨.ok items, after, m, le⟩ =>
        have fewer : after.rest.length < c.rest.length := Nat.lt_of_le_of_lt le shorter
        ((args s start ps after m).map (some (.group items), ·)).weaken (Nat.le_of_lt fewer)
    | after => ((args s start ps after m).map (none, ·)).weaken (h ▸ c.length_skip_le)
  | .plain p :: ps =>
    match h : p.read s.tables s.mode start c with
    | (.error e, after) =>
      ⟨.error (.fault e), after, m,
        by have := p.length_read_le s.tables s.mode start c; rwa [h] at this⟩
    | (.ok value, after) =>
      ((args s start ps after m).map (value, ·)).weaken
        (by have := p.length_read_le s.tables s.mode start c; rwa [h] at this)
termination_by (c.rest.length, 0, ps.length)
decreasing_by
  · exact descends (Nat.le_refl _) (.inr ⟨rfl, by simp⟩)
  · exact descends le (.inr ⟨rfl, by simp⟩)
  · exact Prod.Lex.left _ _ shorter
  · exact Prod.Lex.left _ _ fewer
  · exact descends (h ▸ c.length_skip_le) (.inr ⟨rfl, by simp⟩)
  · have le := p.length_read_le s.tables s.mode start c
    rw [h] at le
    exact descends le (.inr ⟨rfl, by simp⟩)

end

/-- Reads a whole source. -/
def whole (s : Scope) (source : List Char) (m : Memo) :
    Except (Halt ParseError) (List (Atom Float32)) × Memo :=
  let reading := sequence s none 0 [] (.start source) m
  (reading.value, reading.memo)

/-- How deeply sources may be nested. -/
def maxDepth : Nat := 32

/-- Reads a source under which `levels` more levels of nested sources are allowed. -/
def withLevels (t : Tables) : Nat → Nested
  | 0, mode, source, m => whole ⟨t, mode, none⟩ source m
  | levels + 1, mode, source, m => whole ⟨t, mode, some (withLevels t levels)⟩ source m

/-- Reads a source that is itself nested at the given depth. -/
def atDepth (t : Tables) (depth : Nat) : Nested := withLevels t (maxDepth - depth)

end FormulaInk.Source
