import FormulaInk.Proofs.Reading.Levels

/-! The rules of reading, with the depth at which the parser stands and without a bound on anything.

A parser that comes to a text command, a predefined formula or a character with a source of its own
starts a parser for that source one level deeper, unless it stands at the limit. A derivation tells
what a task comes to and which parsers were started for it, by their depths. Nothing in the rules says
that a task has a derivation. -/

namespace FormulaInk.Source

/-- What a parser does next, from the place where it stands. -/
inductive Task where
  | sequence (close : Option Char) (opened : Nat) (items : List (Atom Float32))
  | step (items : List (Atom Float32)) (ch : Char) (start : Nat)
  | argument (owner : Nat)
  | atom (ch : Char) (start : Nat)
  | command (start : Nat)
  | lookup (name : String) (start : Nat)
  | param (start : Nat) (p : Param)
  | args (start : Nat) (ps : List Param)
  /-- Reads the source that the token at `start` stands for. -/
  | expansion (source : List Char) (origin : Origin) (start : Nat)

namespace Task

/-- What a task finds. -/
@[reducible] def Result : Task → Type
  | sequence .. | step .. => List (Atom Float32)
  | argument _ | atom .. | command _ | lookup .. | expansion .. => Atom Float32
  | param _ p => p.Value
  | args _ ps => Args ps

/-- The task of a parser that starts. -/
abbrev whole : Task := sequence none 0 []

end Task

/-- A character that stands for itself, a symbol or a source. -/
def IsPlainCharacter (ch : Char) : Prop :=
  ch ≠ '{' ∧ ch ≠ '\\' ∧ ¬(ch = '#' ∨ ch = '&') ∧ ch ≠ '~'

/-- A parser at the given depth does a task, with the depths of the parsers that are started for
it, the first one first. -/
inductive Reads (t : Tables) : (depth : Nat) → Mode → (k : Task) → Cursor → Memo →
    Outcome k.Result → List Nat → Prop
  -- sequences
  | unclosed {d ch opened items c m n} : c.skip = ⟨[], n⟩ →
      Reads t d .strict (.sequence (some ch) opened items) c m
        ⟨.error (.fault ⟨opened, .unclosed ch⟩), ⟨[], n⟩, m⟩ []
  | ended {d mode close opened items c m n} : c.skip = ⟨[], n⟩ → close = none ∨ mode = .lenient →
      Reads t d mode (.sequence close opened items) c m ⟨.ok items.reverse, ⟨[], n⟩, m⟩ []
  | closed {d mode ch opened items c m rest n} : c.skip = ⟨ch :: rest, n⟩ →
      Reads t d mode (.sequence (some ch) opened items) c m
        ⟨.ok items.reverse, ⟨rest, n + 1⟩, m⟩ []
  | item {d mode close opened items c m ch rest n found after m' o v v'} :
      c.skip = ⟨ch :: rest, n⟩ → some ch ≠ close →
      Reads t d mode (.step items ch n) ⟨rest, n + 1⟩ m ⟨.ok found, after, m'⟩ v →
      Reads t d mode (.sequence close opened found) after m' o v' →
      Reads t d mode (.sequence close opened items) c m o (v ++ v')
  | halted {d mode close opened items c m ch rest n e after m' v} :
      c.skip = ⟨ch :: rest, n⟩ → some ch ≠ close → mode.EndsAt e →
      Reads t d mode (.step items ch n) ⟨rest, n + 1⟩ m ⟨.error e, after, m'⟩ v →
      Reads t d mode (.sequence close opened items) c m ⟨.error e, after, m'⟩ v
  | passed {d close opened items c m ch rest n e after m' o v v'} :
      c.skip = ⟨ch :: rest, n⟩ → some ch ≠ close →
      Reads t d .lenient (.step items ch n) ⟨rest, n + 1⟩ m ⟨.error (.fault e), after, m'⟩ v →
      Reads t d .lenient (.sequence close opened (.empty :: items)) after
        { m' with skipped := m'.skipped ++ [e] } o v' →
      Reads t d .lenient (.sequence close opened items) c m o (v ++ v')
  -- a round of a sequence
  | unmatched {d mode items start c m} :
      Reads t d mode (.step items '}' start) c m ⟨.error (.fault ⟨start, .unmatchedBrace⟩), c, m⟩ []
  | secondScript {d mode items ch start c m fault} : ch = '^' ∨ ch = '_' →
      scriptFault? (ch = '^') items = some fault →
      Reads t d mode (.step items ch start) c m ⟨.error (.fault ⟨start, fault⟩), c, m⟩ []
  | script {d mode items ch start c m o v} : ch = '^' ∨ ch = '_' →
      scriptFault? (ch = '^') items = none → Reads t d mode (.argument start) c m o v →
      Reads t d mode (.step items ch start) c m (o.map (attachScript (ch = '^') · items)) v
  | another {d mode items ch start c m o v} : ch ≠ '}' → ¬(ch = '^' ∨ ch = '_') →
      Reads t d mode (.atom ch start) c m o v →
      Reads t d mode (.step items ch start) c m (o.map (· :: items)) v
  -- arguments
  | argumentEnd {d mode owner c m n} : c.skip = ⟨[], n⟩ →
      Reads t d mode (.argument owner) c m
        ⟨.error (.fault ⟨owner, .missingArgument⟩), ⟨[], n⟩, m⟩ []
  | argumentMissing {d mode owner c m ch rest n} : c.skip = ⟨ch :: rest, n⟩ →
      ch = '}' ∨ ch = '^' ∨ ch = '_' →
      Reads t d mode (.argument owner) c m
        ⟨.error (.fault ⟨owner, .missingArgument⟩), ⟨ch :: rest, n⟩, m⟩ []
  | argument {d mode owner c m ch rest n o v} : c.skip = ⟨ch :: rest, n⟩ →
      ¬(ch = '}' ∨ ch = '^' ∨ ch = '_') → Reads t d mode (.atom ch n) ⟨rest, n + 1⟩ m o v →
      Reads t d mode (.argument owner) c m o v
  -- atoms
  | group {d mode start c m o v} : Reads t d mode (.sequence (some '}') start []) c m o v →
      Reads t d mode (.atom '{' start) c m (o.map .group) v
  | command {d mode start c m o v} : Reads t d mode (.command start) c m o v →
      Reads t d mode (.atom '\\' start) c m o v
  | unexpected {d mode ch start c m} : ch = '#' ∨ ch = '&' →
      Reads t d mode (.atom ch start) c m ⟨.error (.fault ⟨start, .unexpected ch⟩), c, m⟩ []
  | tie {d mode start c m} : Reads t d mode (.atom '~' start) c m ⟨.ok (.space .thick), c, m⟩ []
  | character {d mode ch start c m source o v} : IsPlainCharacter ch →
      t.charFormulas.get? ch = some source →
      Reads t d mode (.expansion source.toList (.character ch) start) c m o v →
      Reads t d mode (.atom ch start) c m o v
  | symbolCharacter {d mode ch start c m name symbol} : IsPlainCharacter ch →
      t.charFormulas.get? ch = none → t.symbolForChar? ch = some (name, symbol) →
      Reads t d mode (.atom ch start) c m ⟨.ok (.symbol name symbol.ch symbol.kind), c, m⟩ []
  | itself {d mode ch start c m} : IsPlainCharacter ch → t.charFormulas.get? ch = none →
      t.symbolForChar? ch = none → Reads t d mode (.atom ch start) c m ⟨.ok (.char ch), c, m⟩ []
  -- commands
  | nameless {d mode start n m} :
      Reads t d mode (.command start) ⟨[], n⟩ m
        ⟨.error (.fault ⟨start, .missingName⟩), ⟨[], n⟩, m⟩ []
  | construct {d mode start ch rest n m construct o v} : ch.isAlpha →
      Construct.ofName? (String.ofList (ch :: nameOf rest)) = some construct →
      Reads t d mode (.args start construct.params) (afterName rest (n + 1)) m o v →
      Reads t d mode (.command start) ⟨ch :: rest, n⟩ m (o.map (construct.build t)) v
  | name {d mode start ch rest n m o v} : ch.isAlpha →
      Construct.ofName? (String.ofList (ch :: nameOf rest)) = none →
      Reads t d mode (.lookup (String.ofList (ch :: nameOf rest)) start) (afterName rest (n + 1)) m
        o v →
      Reads t d mode (.command start) ⟨ch :: rest, n⟩ m o v
  | sign {d mode start ch rest n m a} : ¬ch.isAlpha → ofSign? t ch = some a →
      Reads t d mode (.command start) ⟨ch :: rest, n⟩ m ⟨.ok a, ⟨rest, n + 1⟩, m⟩ []
  | unknownSign {d mode start ch rest n m} : ¬ch.isAlpha → ofSign? t ch = none →
      Reads t d mode (.command start) ⟨ch :: rest, n⟩ m
        ⟨.error (.fault ⟨start, .unknownCommand (String.singleton ch)⟩), ⟨rest, n + 1⟩, m⟩ []
  -- names that are not built in; the limit comes before the cache
  | symbol {d mode name start c m symbol} : t.symbols.get? name = some symbol →
      Reads t d mode (.lookup name start) c m ⟨.ok (.symbol name symbol.ch symbol.kind), c, m⟩ []
  | noRoom {d mode name start c m command} : t.symbols.get? name = none →
      t.commands.get? name = some command → mostArgs < command.args →
      Reads t d mode (.lookup name start) c m ⟨.error (.panic .capacity), c, m⟩ []
  | textArgument {d mode name start c m command e after} : t.symbols.get? name = none →
      t.commands.get? name = some command → command.args ≤ mostArgs →
      textArgs mode start command.args c = (.error e, after) →
      Reads t d mode (.lookup name start) c m ⟨.error (.fault e), after, m⟩ []
  | textCommand {d mode name start c m command args after o v} : t.symbols.get? name = none →
      t.commands.get? name = some command → command.args ≤ mostArgs →
      textArgs mode start command.args c = (.ok args, after) →
      Reads t d mode (.expansion (command.expand args) (.command name) start) after m o v →
      Reads t d mode (.lookup name start) c m o v
  | unknown {d mode name start c m} : t.symbols.get? name = none → t.commands.get? name = none →
      t.predefined.get? name = none →
      Reads t d mode (.lookup name start) c m
        ⟨.error (.fault ⟨start, .unknownCommand name⟩), c, m⟩ []
  | predefinedTooDeep {d mode name start c m text} : t.symbols.get? name = none →
      t.commands.get? name = none → t.predefined.get? name = some text → maxDepth ≤ d →
      Reads t d mode (.lookup name start) c m ⟨.error (.fault ⟨start, .tooDeep⟩), c, m⟩ []
  | kept {d mode name start c m text f} : t.symbols.get? name = none →
      t.commands.get? name = none → t.predefined.get? name = some text → d < maxDepth →
      m.cache.get? name = some f →
      Reads t d mode (.lookup name start) c m ⟨.ok (f.root.getD .empty), c, m⟩ []
  | predefined {d mode name start c m text o v} : t.symbols.get? name = none →
      t.commands.get? name = none → t.predefined.get? name = some text → d < maxDepth →
      m.cache.get? name = none → Reads t (d + 1) .strict .whole (.start text.toList) m o v →
      Reads t d mode (.lookup name start) c m
        ⟨(o.value.mapError (Halt.map fun e => ⟨start, .within (.command name) e.fault⟩)).map
            fun items => (Formula.empty.addAll items).root.getD .empty,
          c, { o.memo with cache := remember o.memo.cache name o.value }⟩ ((d + 1) :: v)
  -- parameters
  | atomParam {d mode start c m o v} : Reads t d mode (.argument start) c m o v →
      Reads t d mode (.param start .atom) c m o v
  | optional {d mode start c m rest n o v} : c.skip = ⟨'[' :: rest, n⟩ →
      Reads t d mode (.sequence (some ']') n []) ⟨rest, n + 1⟩ m o v →
      Reads t d mode (.param start .optionalAtom) c m (o.map fun items => some (.group items)) v
  | absent {d mode start c m} : c.skip.rest.head? ≠ some '[' →
      Reads t d mode (.param start .optionalAtom) c m ⟨.ok none, c.skip, m⟩ []
  | plain {d mode start p c m} :
      Reads t d mode (.param start (.plain p)) c m (.ofFound (p.read t mode start c) m) []
  -- arguments of built-in commands
  | nil {d mode start c m} : Reads t d mode (.args start []) c m ⟨.ok (), c, m⟩ []
  | argsHalted {d mode start p ps c m e after m' v} :
      Reads t d mode (.param start p) c m ⟨.error e, after, m'⟩ v →
      Reads t d mode (.args start (p :: ps)) c m ⟨.error e, after, m'⟩ v
  | cons {d mode start p ps c m a after m' o v v'} :
      Reads t d mode (.param start p) c m ⟨.ok a, after, m'⟩ v →
      Reads t d mode (.args start ps) after m' o v' →
      Reads t d mode (.args start (p :: ps)) c m (o.map (a, ·)) (v ++ v')
  -- nested sources
  | tooDeep {d mode source origin start c m} : maxDepth ≤ d →
      Reads t d mode (.expansion source origin start) c m
        ⟨.error (.fault ⟨start, .tooDeep⟩), c, m⟩ []
  | nested {d mode source origin start c m o v} : d < maxDepth →
      Reads t (d + 1) mode .whole (.start source) m o v →
      Reads t d mode (.expansion source origin start) c m
        ⟨(o.value.mapError (Halt.map fun e => ⟨start, .within origin e.fault⟩)).map .group, c,
          o.memo⟩
        ((d + 1) :: v)

namespace Reads

variable {t : Tables} {d : Nat} {mode : Mode} {k : Task} {c : Cursor} {m : Memo}
  {o : Outcome k.Result} {depths : List Nat}

/-- Every parser that is started stands below the one that does the task, and not below the
limit. -/
theorem depths_within (h : Reads t d mode k c m o depths) :
    ∀ depth ∈ depths, d < depth ∧ depth ≤ maxDepth := by
  induction h with
  | item _ _ _ _ first later | passed _ _ _ _ first later | cons _ _ first later =>
    intro depth hd
    exact (List.mem_append.mp hd).elim (first depth) (later depth)
  | predefined _ _ _ room _ _ inner | nested room _ inner =>
    intro depth hd
    obtain rfl | hd := List.mem_cons.mp hd
    · exact ⟨Nat.lt_succ_self _, room⟩
    · have deeper := inner depth hd
      omega
  | halted _ _ _ _ ih | script _ _ _ ih | another _ _ _ ih | argument _ _ _ ih | group _ ih
  | command _ ih | character _ _ _ ih | construct _ _ _ ih | name _ _ _ ih
  | textCommand _ _ _ _ _ ih
  | atomParam _ ih | optional _ _ ih | argsHalted _ ih => exact ih
  | _ => simp

end Reads

end FormulaInk.Source
