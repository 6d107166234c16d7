import FormulaInk.Proofs.Reading.Rules
import FormulaInk.Proofs.Registry.Read

/-! Reading ends. The rules of reading have a derivation for every task, by induction on the
levels that are left under the limit, then on the characters that are left, then on the rank of
the task; and what a derivation comes to is what the readers find. -/

namespace FormulaInk

namespace Source

section Params

variable {s : Scope} {start n : Nat} {p : Param} {ps : List Param} {c : Cursor} {m : Memo}
  {rest : List Char}

/-- What is read for a parameter. -/
def param (s : Scope) (start : Nat) (p : Param) (c : Cursor) (m : Memo) : Outcome p.Value :=
  match p with
  | .atom => (argument s start c m).outcome
  | .optionalAtom =>
    match c.skip with
    | ⟨'[' :: rest, n⟩ =>
      (sequence s (some ']') n [] ⟨rest, n + 1⟩ m).outcome.map fun items => some (.group items)
    | after => ⟨.ok none, after, m⟩
  | .plain p => .ofFound (p.read s.tables s.mode start c) m

theorem param_of_open (start : Nat) (h : c.skip = ⟨'[' :: rest, n⟩) :
    param s start .optionalAtom c m =
      (sequence s (some ']') n [] ⟨rest, n + 1⟩ m).outcome.map
        fun items => some (.group items) := by
  simp [param, h]

theorem param_of_absent (start : Nat) (h : c.skip.rest.head? ≠ some '[') :
    param s start .optionalAtom c m = ⟨.ok none, c.skip, m⟩ := by
  unfold param
  split
  · rename_i hs
    simp [hs] at h
  · rfl

/-- Arguments are read one parameter after the other. -/
theorem args_cons :
    (args s start (p :: ps) c m).outcome =
      (param s start p c m).andThen fun a after m =>
        (args s start ps after m).outcome.map (a, ·) := by
  cases p with
  | atom => exact args_atom
  | plain p => exact args_plain
  | optionalAtom =>
    by_cases absent : c.skip.rest.head? = some '['
    · obtain ⟨rest, n, h⟩ : ∃ rest n, c.skip = ⟨'[' :: rest, n⟩ := by
        rcases hs : c.skip with ⟨_ | ⟨ch, rest⟩, n⟩ <;> simp_all
      rw [args_optional_of_open h, param_of_open start h, Outcome.map_andThen]
    · rw [args_optional_of_absent absent, param_of_absent start absent]
      rfl

variable {a : p.Value} {e : Halt ParseError} {after : Cursor} {m' : Memo}

theorem args_of_halt (h : param s start p c m = ⟨.error e, after, m'⟩) :
    (args s start (p :: ps) c m).outcome = ⟨.error e, after, m'⟩ := by
  rw [args_cons, h, Outcome.andThen_error rfl]

theorem args_of_cons (h : param s start p c m = ⟨.ok a, after, m'⟩) :
    (args s start (p :: ps) c m).outcome = (args s start ps after m').outcome.map (a, ·) := by
  rw [args_cons, h, Outcome.andThen_ok rfl]

end Params

theorem atom_of_plain {s : Scope} {ch : Char} {start : Nat} {c : Cursor} {m : Memo}
    (h : IsPlainCharacter ch) :
    (atom s ch start c m).outcome =
      ⟨(character s ch start m).1, c, (character s ch start m).2⟩ :=
  atom_of_character h.1 h.2.1 h.2.2.1 h.2.2.2

/-- What the readers of a scope make of a task. -/
def Task.outcome (s : Scope) (c : Cursor) (m : Memo) : (k : Task) → Outcome k.Result
  | .sequence close opened items => (Source.sequence s close opened items c m).outcome
  | .step items ch start => (Source.step s items ch start c m).outcome
  | .argument owner => (Source.argument s owner c m).outcome
  | .atom ch start => (Source.atom s ch start c m).outcome
  | .command start => (Source.command s start c m).outcome
  | .lookup name start => (Source.lookup s name start c m).outcome
  | .param start p => Source.param s start p c m
  | .args start ps => (Source.args s start ps c m).outcome
  | .expansion source origin start =>
    ⟨(Source.expansion s source origin start m).1, c, (Source.expansion s source origin start m).2⟩

/-- The scope of a parser at a depth. -/
def scopeAt (t : Tables) (d : Nat) (mode : Mode) : Scope :=
  ⟨t, mode, nestedUnder t (maxDepth - d)⟩

section Scopes

variable (t : Tables) (d : Nat) (mode : Mode)

theorem withLevels_eq_outcome (source : List Char) (m : Memo) :
    withLevels t (maxDepth - d) mode source m =
      ((Task.whole.outcome (scopeAt t d mode) (.start source) m).value,
        (Task.whole.outcome (scopeAt t d mode) (.start source) m).memo) := by
  rw [withLevels_eq]
  rfl

variable {t d mode}

theorem nested_of_le (h : maxDepth ≤ d) : (scopeAt t d mode).nested = none := by
  rw [scopeAt, Nat.sub_eq_zero_of_le h]
  rfl

theorem nested_of_lt (h : d < maxDepth) :
    (scopeAt t d mode).nested = some (withLevels t (maxDepth - (d + 1))) := by
  have levels : maxDepth - d = maxDepth - (d + 1) + 1 := by omega
  rw [scopeAt, levels]
  rfl

end Scopes

namespace Reads

variable {t : Tables} {d : Nat} {mode : Mode} {k : Task} {c : Cursor} {m : Memo}
  {o : Outcome k.Result} {depths : List Nat}

/-- A derivation comes to what the readers find. -/
theorem sound (h : Reads t d mode k c m o depths) : k.outcome (scopeAt t d mode) c m = o := by
  induction h with
  | unclosed hs => exact sequence_of_end hs
  | @ended d mode close opened items c m n hs ends =>
    have done : atEnd (scopeAt t d mode) close opened items = .ok items.reverse := by
      obtain rfl | rfl := ends
      · rfl
      · cases close <;> rfl
    exact (sequence_of_end hs).trans (by rw [done])
  | closed hs => exact sequence_of_close hs rfl
  | item hs other _ _ first later => exact (sequence_of_item hs other first).trans later
  | halted hs other ends _ first => exact sequence_of_halt hs other ends first
  | passed hs other _ _ first later => exact (sequence_of_passed hs other rfl first).trans later
  | unmatched => exact step_of_brace
  | secondScript script hf => exact step_of_fault script hf
  | script script hf _ ih => rw [← ih]; exact step_of_script script hf
  | another brace script _ ih => rw [← ih]; exact step_of_atom brace script
  | argumentEnd hs => exact argument_of_end hs
  | argumentMissing hs missing => exact argument_of_missing hs missing
  | argument hs present _ ih => exact (argument_of_atom hs present).trans ih
  | group _ ih => rw [← ih]; exact atom_of_group
  | command _ ih => exact atom_of_command.trans ih
  | unexpected h => exact atom_of_unexpected h
  | tie => exact atom_of_tie
  | @character d mode _ _ _ _ _ _ _ plain found _ ih =>
    refine (atom_of_plain plain).trans ?_
    rw [character_of_source (s := scopeAt t d mode) found]
    exact ih
  | @symbolCharacter d mode _ _ _ _ _ _ plain missing found =>
    refine (atom_of_plain plain).trans ?_
    rw [character_of_symbol (s := scopeAt t d mode) missing found]
  | @itself d mode _ _ _ _ plain missing unnamed =>
    refine (atom_of_plain plain).trans ?_
    rw [character_of_none (s := scopeAt t d mode) missing unnamed]
  | nameless => exact command_of_end
  | construct letter built _ ih => rw [← ih]; exact command_of_construct letter built
  | name letter other _ ih => exact (command_of_name letter other).trans ih
  | sign other found => exact command_of_sign other found
  | unknownSign other missing => exact command_of_unknown other missing
  | symbol found => exact lookup_of_symbol found
  | noRoom other found many => exact lookup_of_panic other found many
  | textArgument other found room read => exact lookup_of_textFault other found room read
  | textCommand other found room read _ ih => exact (lookup_of_body other found room read).trans ih
  | unknown other text missing =>
    refine (lookup_of_predefined other text).trans ?_
    rw [predefinedName_unknown missing]
  | predefinedTooDeep other text found limit =>
    refine (lookup_of_predefined other text).trans ?_
    rw [predefinedName_none found (nested_of_le limit)]
  | kept other text found room hit =>
    refine (lookup_of_predefined other text).trans ?_
    rw [predefinedName_some found (nested_of_lt room), predefined_of_hit hit]
    rfl
  | @predefined d _ _ _ _ _ _ o _ other text found room miss _ ih =>
    refine (lookup_of_predefined other text).trans ?_
    rw [predefinedName_some found (nested_of_lt room), predefined_of_miss miss,
      withLevels_eq_outcome t (d + 1), ih]
    cases o.value <;> rfl
  | atomParam _ ih => exact ih
  | @optional _ _ start _ _ _ _ _ _ hs _ ih => rw [← ih]; exact param_of_open start hs
  | @absent _ _ start _ _ h => exact param_of_absent start h
  | plain => rfl
  | nil => exact args_nil
  | argsHalted _ ih => exact args_of_halt ih
  | cons _ _ first later => rw [← later]; exact args_of_cons first
  | tooDeep limit => simp [Task.outcome, expansion_none (nested_of_le limit)]
  | @nested d mode source _ _ _ m _ _ room _ ih =>
    have inner : withLevels t (maxDepth - (d + 1)) (scopeAt t d mode).mode source m = _ :=
      withLevels_eq_outcome t (d + 1) mode source m
    rw [ih] at inner
    simp only [Task.outcome, expansion_some (nested_of_lt room), inner]

/-- A task leaves no more characters than it finds. -/
theorem length_le (h : Reads t d mode k c m o depths) : o.cursor.rest.length ≤ c.rest.length := by
  rw [← h.sound]
  cases k with
  | expansion => exact Nat.le_refl _
  | sequence | step | argument | atom | command | lookup | args =>
    exact Reading.length_outcome_le _
  | param start p =>
    cases p with
    | atom => exact Reading.length_outcome_le _
    | plain p => exact p.length_read_le _ _ start c
    | optionalAtom =>
      have skipped := c.length_skip_le
      simp only [Task.outcome, param]
      split
      · rename_i rest n hs
        have shorter := Cursor.length_lt_of_skip hs
        have inside := (Source.sequence (scopeAt t d mode) (some ']') n [] ⟨rest, n + 1⟩ m).le
        exact Nat.le_of_lt (Nat.lt_of_le_of_lt inside shorter)
      · exact skipped

/-- Only a text command panics, and only for want of room for its arguments. -/
theorem noRoom_of_panic (h : Reads t d mode k c m o depths) {p : Panic}
    (panics : o.value = .error (.panic p)) :
    p = .capacity ∧ ∃ name command, t.commands.get? name = some command ∧
      mostArgs < command.args := by
  induction h with
  | noRoom _ found many =>
    cases panics
    exact ⟨rfl, _, _, found, many⟩
  | item _ _ _ _ _ later | passed _ _ _ _ _ later => exact later panics
  | halted _ _ _ _ ih | argsHalted _ ih =>
    exact ih (congrArg Except.error (Except.error.inj panics))
  | script _ _ _ ih | another _ _ _ ih | group _ ih | construct _ _ _ ih | optional _ _ ih
  | cons _ _ _ ih => exact ih (Outcome.value_map_error.mp panics)
  | predefined _ _ _ _ _ _ ih | nested _ _ ih => exact ih (panic_of_mapped panics)
  | argument _ _ _ ih | command _ ih | character _ _ _ ih | name _ _ _ ih
  | textCommand _ _ _ _ _ ih | atomParam _ ih => exact ih panics
  | @plain _ mode start p c =>
    -- What is read as text is at fault or is found.
    rcases hr : p.read t mode start c with ⟨_ | _, _⟩ <;> rw [hr] at panics <;> cases panics
  | _ => cases panics

/-- Each round of a sequence takes at least the character that it begins with, also where it finds a
fault. -/
theorem length_lt_of_step {items : List (Atom Float32)} {ch : Char} {rest : List Char} {n : Nat}
    {o : Outcome (List (Atom Float32))} (hs : c.skip = ⟨ch :: rest, n⟩)
    (h : Reads t d mode (.step items ch n) ⟨rest, n + 1⟩ m o depths) :
    o.cursor.rest.length < c.rest.length :=
  Nat.lt_of_le_of_lt h.length_le (Cursor.length_lt_of_skip hs)

end Reads

/-- The rank of a task: at the place where it stands it only does tasks of lower rank. -/
def Task.rank : Task → Nat
  | .sequence .. | .argument _ | .expansion .. => 0
  | .command _ | .lookup .. | .param .. => 1
  | .atom .. => 2
  | .step .. => 3
  | .args _ ps => ps.length + 2

/-- A task comes to an end. -/
def Ends (t : Tables) (d : Nat) (mode : Mode) (k : Task) (c : Cursor) (m : Memo) : Prop :=
  ∃ o depths, Reads t d mode k c m o depths

/-- The tasks end for which fewer characters are left, or not more and the rank is lower. -/
def EndsBelow (t : Tables) (d : Nat) (mode : Mode) (c : Cursor) (rank : Nat) : Prop :=
  ∀ k c' m, c'.rest.length < c.rest.length ∨ c'.rest.length ≤ c.rest.length ∧ k.rank < rank →
    Ends t d mode k c' m

namespace EndsBelow

variable {t : Tables} {d : Nat} {mode : Mode} {c : Cursor} {rank : Nat} {m : Memo}

theorem shorter (below : EndsBelow t d mode c rank) (k : Task) (c' : Cursor) (m : Memo)
    (h : c'.rest.length < c.rest.length) : Ends t d mode k c' m :=
  below k c' m (.inl h)

theorem here (below : EndsBelow t d mode c rank) {k : Task} (m : Memo) (h : k.rank < rank) :
    Ends t d mode k c m :=
  below k c m (.inr ⟨Nat.le_refl _, h⟩)

theorem sequence (below : EndsBelow t d mode c rank) (close : Option Char) (opened : Nat)
    (items : List (Atom Float32)) : Ends t d mode (.sequence close opened items) c m := by
  rcases hs : c.skip with ⟨_ | ⟨ch, rest⟩, n⟩
  · cases close with
    | none => exact ⟨_, _, .ended hs (.inl rfl)⟩
    | some ch =>
      cases mode with
      | strict => exact ⟨_, _, .unclosed hs⟩
      | lenient => exact ⟨_, _, .ended hs (.inr rfl)⟩
  · by_cases closing : some ch = close
    · subst closing
      exact ⟨_, _, .closed hs⟩
    · obtain ⟨⟨value, after, m'⟩, v, step⟩ :=
        below.shorter (.step items ch n) ⟨rest, n + 1⟩ m (Cursor.length_lt_of_skip hs)
      have fewer := step.length_lt_of_step hs
      cases value with
      | ok found =>
        obtain ⟨o, v', later⟩ := below.shorter (.sequence close opened found) after m' fewer
        exact ⟨o, v ++ v', .item hs closing step later⟩
      | error e =>
        cases mode with
        | strict => exact ⟨_, _, .halted hs closing (.strict e) step⟩
        | lenient =>
          cases e with
          | panic p => exact ⟨_, _, .halted hs closing (.panic _ p) step⟩
          | fault e =>
            obtain ⟨o, v', later⟩ := below.shorter (.sequence close opened (.empty :: items)) after
              { m' with skipped := m'.skipped ++ [e] } fewer
            exact ⟨o, v ++ v', .passed hs closing step later⟩

theorem step {items : List (Atom Float32)} {ch : Char} {start : Nat}
    (below : EndsBelow t d mode c (Task.step items ch start).rank) :
    Ends t d mode (.step items ch start) c m := by
  by_cases brace : ch = '}'
  · subst brace
    exact ⟨_, _, .unmatched⟩
  · by_cases script : ch = '^' ∨ ch = '_'
    · cases hf : scriptFault? (ch = '^') items with
      | some fault => exact ⟨_, _, .secondScript script hf⟩
      | none =>
        obtain ⟨o, v, argument⟩ := below.here (k := .argument start) m (by simp [Task.rank])
        exact ⟨_, _, .script script hf argument⟩
    · obtain ⟨o, v, atom⟩ := below.here (k := .atom ch start) m (by simp [Task.rank])
      exact ⟨_, _, .another brace script atom⟩

theorem argument (below : EndsBelow t d mode c rank) (owner : Nat) :
    Ends t d mode (.argument owner) c m := by
  rcases hs : c.skip with ⟨_ | ⟨ch, rest⟩, n⟩
  · exact ⟨_, _, .argumentEnd hs⟩
  · by_cases missing : ch = '}' ∨ ch = '^' ∨ ch = '_'
    · exact ⟨_, _, .argumentMissing hs missing⟩
    · obtain ⟨o, v, atom⟩ :=
        below.shorter (.atom ch n) ⟨rest, n + 1⟩ m (Cursor.length_lt_of_skip hs)
      exact ⟨_, _, .argument hs missing atom⟩

theorem atom {ch : Char} {start : Nat} (below : EndsBelow t d mode c (Task.atom ch start).rank) :
    Ends t d mode (.atom ch start) c m := by
  by_cases plain : IsPlainCharacter ch
  · cases found : t.charFormulas.get? ch with
    | some source =>
      obtain ⟨o, v, inner⟩ := below.here
        (k := .expansion source.toList (.character ch) start) m (by simp [Task.rank])
      exact ⟨_, _, .character plain found inner⟩
    | none =>
      cases named : t.symbolForChar? ch with
      | some symbol => exact ⟨_, _, .symbolCharacter plain found named⟩
      | none => exact ⟨_, _, .itself plain found named⟩
  · obtain rfl | rfl | unexpected | rfl :
        ch = '{' ∨ ch = '\\' ∨ (ch = '#' ∨ ch = '&') ∨ ch = '~' := by
      grind [IsPlainCharacter]
    · obtain ⟨o, v, inner⟩ :=
        below.here (k := .sequence (some '}') start []) m (by simp [Task.rank])
      exact ⟨_, _, .group inner⟩
    · obtain ⟨o, v, command⟩ := below.here (k := .command start) m (by simp [Task.rank])
      exact ⟨_, _, .command command⟩
    · exact ⟨_, _, .unexpected unexpected⟩
    · exact ⟨_, _, .tie⟩

theorem command (below : EndsBelow t d mode c rank) (start : Nat) :
    Ends t d mode (.command start) c m := by
  rcases c with ⟨_ | ⟨ch, rest⟩, n⟩
  · exact ⟨_, _, .nameless⟩
  · by_cases letter : ch.isAlpha
    · have fewer : (afterName rest (n + 1)).rest.length < (ch :: rest).length := by
        simp only [afterName, List.length_drop, List.length_cons]
        omega
      cases built : Construct.ofName? (String.ofList (ch :: nameOf rest)) with
      | some construct =>
        obtain ⟨o, v, args⟩ := below.shorter (.args start construct.params) _ m fewer
        exact ⟨_, _, .construct letter built args⟩
      | none =>
        obtain ⟨o, v, lookup⟩ :=
          below.shorter (.lookup (String.ofList (ch :: nameOf rest)) start) _ m fewer
        exact ⟨_, _, .name letter built lookup⟩
    · cases found : ofSign? t ch with
      | some a => exact ⟨_, _, .sign letter found⟩
      | none => exact ⟨_, _, .unknownSign letter found⟩

theorem param {start : Nat} {p : Param} (below : EndsBelow t d mode c (Task.param start p).rank) :
    Ends t d mode (.param start p) c m := by
  cases p with
  | plain p => exact ⟨_, _, .plain⟩
  | atom =>
    obtain ⟨o, v, argument⟩ := below.here (k := .argument start) m (by simp [Task.rank])
    exact ⟨_, _, .atomParam argument⟩
  | optionalAtom =>
    by_cases opening : c.skip.rest.head? = some '['
    · obtain ⟨rest, n, hs⟩ : ∃ rest n, c.skip = ⟨'[' :: rest, n⟩ := by
        rcases hs : c.skip with ⟨_ | ⟨ch, rest⟩, n⟩ <;> simp_all
      obtain ⟨o, v, inner⟩ := below.shorter (.sequence (some ']') n []) ⟨rest, n + 1⟩ m
        (Cursor.length_lt_of_skip hs)
      exact ⟨_, _, .optional hs inner⟩
    · exact ⟨_, _, .absent opening⟩

theorem args {start : Nat} {ps : List Param}
    (below : EndsBelow t d mode c (Task.args start ps).rank) :
    Ends t d mode (.args start ps) c m := by
  cases ps with
  | nil => exact ⟨_, _, .nil⟩
  | cons p ps =>
    obtain ⟨⟨value, after, m'⟩, v, first⟩ :=
      below.here (k := .param start p) m (by simp [Task.rank])
    cases value with
    | error e => exact ⟨_, _, .argsHalted first⟩
    | ok a =>
      obtain ⟨o, v', later⟩ :=
        below (.args start ps) after m' (.inr ⟨first.length_le, by simp [Task.rank]⟩)
      exact ⟨_, _, .cons first later⟩

theorem lookup {name : String} {start : Nat}
    (below : EndsBelow t d mode c (Task.lookup name start).rank)
    (deeper : d < maxDepth → ∀ mode source m, Ends t (d + 1) mode .whole (.start source) m) :
    Ends t d mode (.lookup name start) c m := by
  cases other : t.symbols.get? name with
  | some symbol => exact ⟨_, _, .symbol other⟩
  | none =>
    cases text : t.commands.get? name with
    | some command =>
      by_cases many : mostArgs < command.args
      · exact ⟨_, _, .noRoom other text many⟩
      · have room := Nat.le_of_not_lt many
        have le := length_textArgs_le mode start command.args c
        rcases read : textArgs mode start command.args c with ⟨e | args, after⟩
        · exact ⟨_, _, .textArgument other text room read⟩
        · rw [read] at le
          obtain ⟨o, v, inner⟩ :=
            below (.expansion (command.expand args) (.command name) start) after m
              (.inr ⟨le, by simp [Task.rank]⟩)
          exact ⟨_, _, .textCommand other text room read inner⟩
    | none =>
      cases found : t.predefined.get? name with
      | none => exact ⟨_, _, .unknown other text found⟩
      | some source =>
        by_cases room : d < maxDepth
        · cases hit : m.cache.get? name with
          | some f => exact ⟨_, _, .kept other text found room hit⟩
          | none =>
            obtain ⟨o, v, inner⟩ := deeper room .strict source.toList m
            exact ⟨_, _, .predefined other text found room hit inner⟩
        · exact ⟨_, _, .predefinedTooDeep other text found (Nat.le_of_not_lt room)⟩

end EndsBelow

theorem ends_expansion {t : Tables} {d : Nat} {mode : Mode} {c : Cursor} {m : Memo}
    {source : List Char} {origin : Origin} {start : Nat}
    (deeper : d < maxDepth → ∀ mode source m, Ends t (d + 1) mode .whole (.start source) m) :
    Ends t d mode (.expansion source origin start) c m := by
  by_cases room : d < maxDepth
  · obtain ⟨o, v, inner⟩ := deeper room mode source m
    exact ⟨_, _, .nested room inner⟩
  · exact ⟨_, _, .tooDeep (Nat.le_of_not_lt room)⟩

/-- Every task ends. A parser that is started has one level less under the limit; what a parser does
itself, it does with fewer characters left, or as a task of lower rank. -/
theorem ends (t : Tables) (d : Nat) (mode : Mode) (k : Task) (c : Cursor) (m : Memo) :
    Ends t d mode k c m := by
  have below : EndsBelow t d mode c k.rank := fun k' c' m' less => ends t d mode k' c' m'
  have deeper : d < maxDepth → ∀ mode source m, Ends t (d + 1) mode .whole (.start source) m :=
    fun room mode source m => ends t (d + 1) mode .whole (.start source) m
  cases k with
  | sequence close opened items => exact below.sequence close opened items
  | step => exact below.step
  | argument owner => exact below.argument owner
  | atom => exact below.atom
  | command start => exact below.command start
  | lookup => exact below.lookup deeper
  | param => exact below.param
  | args => exact below.args
  | expansion => exact ends_expansion deeper
termination_by (maxDepth - d, c.rest.length, k.rank)
decreasing_by
  · obtain fewer | ⟨le, lower⟩ := less
    · exact .right _ (.left _ _ fewer)
    · obtain fewer | same := Nat.lt_or_eq_of_le le
      · exact .right _ (.left _ _ fewer)
      · rw [same]
        exact .right _ (.right _ lower)
  · exact .left _ _ (by omega)

end Source

namespace Registry

/-- What a registry reads is what a derivation comes to. -/
theorem readAt_of_reads {r : Registry} {depth : Nat} {mode : Source.Mode} {source : String}
    {o : Source.Outcome (List (Atom Float32))} {v : List Nat}
    (h : Source.Reads r.toTables depth mode .whole (.start source.toList)
      { cache := r.cache } o v) :
    r.readAt depth mode source =
      ⟨o.value.mapError (Halt.map .parse), { r with cache := o.memo.cache }, o.memo.skipped⟩ := by
  rw [readAt, Source.atDepth, Source.withLevels_eq_outcome, h.sound]

/-- A predefined formula that is not in the cache is read at the top. -/
theorem get_of_reads {r : Registry} {name text : String} {o : Source.Outcome (List (Atom Float32))}
    {v : List Nat} (miss : r.cache.get? name = none) (known : r.predefined.get? name = some text)
    (h : Source.Reads r.toTables 0 .strict .whole (.start text.toList) { cache := r.cache } o v) :
    r.get name =
      ⟨(o.value.map Formula.empty.addAll).mapError (Halt.map .parse),
        { r with cache := Source.remember o.memo.cache name o.value }, o.memo.skipped⟩ := by
  have read : Source.atDepth r.toTables 0 .strict text.toList { cache := r.cache } =
      (o.value, o.memo) := by
    rw [Source.atDepth, Source.withLevels_eq_outcome, h.sound]
  have missing : ({ cache := r.cache } : Source.Memo).cache.get? name = none := miss
  rw [get_of_miss miss known, Source.predefined_of_miss missing, read]

/-- Only for want of room for the arguments of a command does a reading panic. -/
theorem noRoom_of_panic {r : Registry} {depth : Nat} {mode : Source.Mode} {source : String}
    {p : Panic} (panics : (r.readAt depth mode source).result = .error (.panic p)) :
    p = .capacity ∧ ∃ name command, r.commands.get? name = some command ∧
      Source.mostArgs < command.args := by
  obtain ⟨o, depths, h⟩ := Source.ends r.toTables depth mode .whole (.start source.toList)
    { cache := r.cache }
  rw [readAt_of_reads h] at panics
  exact h.noRoom_of_panic (mapError_panic.mp panics)

/-- Reading ends, whatever the definitions of a registry refer to. A source has a derivation, and
what it comes to is the result of the reading. Every parser that is started for a nested source
stands below the one that starts it, and not below the limit. Each round of a sequence, in both
modes and at every depth, leaves fewer characters than it finds, also when it ends at a fault. And
a result is returned, unless a command of the registry has more arguments than there can be room
for. -/
theorem readAt_ends (r : Registry) (depth : Nat) (mode : Source.Mode) (source : String) :
    (∃ o depths, Source.Reads r.toTables depth mode .whole (.start source.toList)
        { cache := r.cache } o depths ∧
      r.readAt depth mode source =
        ⟨o.value.mapError (Halt.map .parse), { r with cache := o.memo.cache }, o.memo.skipped⟩) ∧
    (∀ o depths, Source.Reads r.toTables depth mode .whole (.start source.toList)
        { cache := r.cache } o depths →
      r.readAt depth mode source =
          ⟨o.value.mapError (Halt.map .parse), { r with cache := o.memo.cache }, o.memo.skipped⟩ ∧
        ∀ d ∈ depths, depth < d ∧ d ≤ Source.maxDepth) ∧
    (∀ (d : Nat) (mode : Source.Mode) (items : List (Atom Float32)) (ch : Char) (rest : List Char)
      (n : Nat) (c : Source.Cursor) (m : Source.Memo) (o : Source.Outcome (List (Atom Float32)))
      (depths : List Nat), c.skip = ⟨ch :: rest, n⟩ →
      Source.Reads r.toTables d mode (.step items ch n) ⟨rest, n + 1⟩ m o depths →
      o.cursor.rest.length < c.rest.length) ∧
    ∀ p, (r.readAt depth mode source).result = .error (.panic p) →
      p = .capacity ∧ ∃ name command, r.commands.get? name = some command ∧
        Source.mostArgs < command.args := by
  obtain ⟨o, depths, h⟩ := Source.ends r.toTables depth mode .whole (.start source.toList)
    { cache := r.cache }
  refine ⟨⟨o, depths, h, readAt_of_reads h⟩,
    fun o depths h => ⟨readAt_of_reads h, h.depths_within⟩, ?_, ?_⟩
  · intro d mode items ch rest n c m o depths hs h
    exact h.length_lt_of_step hs
  · exact fun p => noRoom_of_panic

/-- A source that begins with the name of a text command panics, in both modes and at every depth,
if the command has more arguments than there can be room for. -/
theorem readAt_of_noRoom {r : Registry} {ch : Char} {rest : List Char} {command : TextCommand}
    (letter : ch.isAlpha)
    (plain : Source.Construct.ofName? (String.ofList (ch :: Source.nameOf rest)) = none)
    (other : r.symbols.get? (String.ofList (ch :: Source.nameOf rest)) = none)
    (found : r.commands.get? (String.ofList (ch :: Source.nameOf rest)) = some command)
    (many : Source.mostArgs < command.args) (depth : Nat) (mode : Source.Mode) :
    (r.readAt depth mode (String.ofList ('\\' :: ch :: rest))).result =
      .error (.panic .capacity) := by
  have lookup : Source.Reads r.toTables depth mode (.lookup _ 0) (Source.afterName rest 2)
      { cache := r.cache } _ _ := .noRoom other found many
  have step : Source.Reads r.toTables depth mode (.step [] '\\' 0) ⟨ch :: rest, 1⟩
      { cache := r.cache } _ _ :=
    .another (by decide) (by decide) (.command (.name letter plain lookup))
  have whole : Source.Reads r.toTables depth mode .whole (.start ('\\' :: ch :: rest))
      { cache := r.cache } ⟨_, _, _⟩ _ := .halted rfl (by simp) (.panic mode .capacity) step
  rw [readAt_of_reads (by rw [String.toList_ofList]; exact whole)]
  rfl

/-- A registry with a command that no list has room for the arguments of. -/
def crowded : Registry := empty.addCommand "x" 1000000000000000000 ""

/-- A strict reading need not return anything. -/
theorem readAt_crowded_strict :
    ¬∀ (r : Registry) (depth : Nat) (mode : Source.Mode) (source : String),
      depth ≤ Source.maxDepth → (∃ items, (r.readAt depth mode source).result = .ok items) ∨
        ∃ e, (r.readAt depth mode source).result = .error (.fault e) := by
  intro returns
  have panics : (crowded.readAt 0 .strict "\\x").result = .error (.panic .capacity) :=
    readAt_of_noRoom (by decide) (by decide) (by decide) (by rfl) (by decide) 0 .strict
  obtain ⟨items, found⟩ | ⟨e, failed⟩ := returns crowded 0 .strict "\\x" (Nat.zero_le _)
  · cases panics.symm.trans found
  · cases panics.symm.trans failed

end Registry

end FormulaInk
