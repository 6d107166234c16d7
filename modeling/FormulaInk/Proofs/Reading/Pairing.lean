import FormulaInk.Proofs.Atom.Families
import FormulaInk.Proofs.Reading.Outcome

/-! Two readings side by side. The second may have other font families, another cache, more text
behind what the first one reads, and larger offsets. Unless one of them is at fault where the
pairing permits it, they find the same. -/

namespace FormulaInk.Source

/-- What is made of a success, with its fault changed. -/
theorem mapError_bind {ε δ α β : Type} (x : Except ε α) (g : α → Except ε β) (f : ε → δ) :
    (x.bind g).mapError f = (x.mapError f).bind fun a => (g a).mapError f := by
  cases x <;> rfl

/-- The second place lies behind the first one in the same source. -/
structure Cursor.Leads (c c' : Cursor) : Prop where
  rest : c'.rest <:+ c.rest
  offset : c'.offset + c'.rest.length = c.offset + c.rest.length

theorem Cursor.Leads.trans {c c' c'' : Cursor} (h : c.Leads c') (h' : c'.Leads c'') :
    c.Leads c'' :=
  ⟨h'.rest.trans h.rest, h'.offset.trans h.offset⟩

/-- How the second of two readings differs from the first. -/
structure Pairing where
  /-- The families that the second reading gives a text. -/
  fit : String → Families → Families := fun _ font => font
  /-- The caches that are taken for the same. -/
  caches : Cache → Cache → Prop := Eq
  /-- What the second reading has behind the characters of the first. -/
  tail : List Char := []
  /-- How many characters the source of the first reading has. -/
  size : Nat := 0
  /-- How many more characters the second reading counts. -/
  shift : Nat := 0
  /-- Whether nothing is said once the first reading is at fault. -/
  lax₁ : Prop := False
  /-- Whether nothing is said once the second reading is at fault. -/
  lax₂ : Prop := False

/-- A text that can be continued: no backslash stands at its end, and no comment is open there. -/
structure Joinable (text : List Char) : Prop where
  backslash : ¬['\\'] <:+ text
  comment : ∀ line, '%' :: line <:+ text → '\n' ∈ line

theorem Joinable.of_suffix {text rest : List Char} (h : Joinable text) (hr : rest <:+ text) :
    Joinable rest :=
  ⟨fun hb => h.backslash (hb.trans hr), fun line hl => h.comment line (hl.trans hr)⟩

namespace Pairing

variable {α β γ δ : Type} (p : Pairing)

/-- The place of the second reading where the first one is at `c`. -/
def moved (c : Cursor) : Cursor := ⟨c.rest ++ p.tail, c.offset + p.shift⟩

/-- The pairing of nested readings, which start at their own sources. -/
def inner : Pairing := { p with tail := [], shift := 0 }

/-- Whether the text behind a place can be continued by what the second reading has there. -/
def Fits (c : Cursor) : Prop :=
  p.tail = [] ∨ Joinable c.rest ∧ c.offset + c.rest.length = p.size

/-- The fault of the second reading where the first one is at the fault `e`. -/
def shifted (e : ParseError) : ParseError := ⟨e.offset + p.shift, e.fault⟩

/-- What the second reading finds where the first one finds `x`. -/
def carry (f : α → β) : Except (Halt ParseError) α → Except (Halt ParseError) β
  | .ok a => .ok (f a)
  | .error e => .error (e.map p.shifted)

theorem map_carry (f : α → β) (x : Except (Halt ParseError) α) :
    (p.carry id x).map f = p.carry f x := by
  cases x <;> rfl

/-- The readings found the same and `good` holds of what they leave, or one of them halted where the
pairing permits it. -/
inductive Agree (f : α → β) (good : Prop) (x : Except (Halt ParseError) α)
    (y : Except (Halt ParseError) β) :
    Prop where
  | same : good → y = p.carry f x → Agree f good x y
  | first (e : Halt ParseError) : p.lax₁ → x = .error e → Agree f good x y
  | second (e : Halt ParseError) : p.lax₂ → y = .error e → Agree f good x y

/-- What two readers leave agrees, and so do the places where they stopped. -/
def Outcomes (f : α → β) (x : Outcome α) (y : Outcome β) : Prop :=
  p.Agree f (y.cursor = p.moved x.cursor ∧ p.Fits x.cursor ∧ p.caches x.memo.cache y.memo.cache)
    x.value y.value

/-- The same for readers that leave the memo alone. -/
def Founds (f : α → β) (x : Found α) (y : Found β) : Prop :=
  p.Agree f (y.2 = p.moved x.2 ∧ p.Fits x.2) (x.1.mapError .fault) (y.1.mapError .fault)

/-- The same for readers that leave the place alone. -/
def Values (f : α → β) (x : Except (Halt ParseError) α × Memo)
    (y : Except (Halt ParseError) β × Memo) : Prop :=
  p.Agree f (p.caches x.2.cache y.2.cache) x.1 y.1

variable {p}

theorem Fits.further {c c' : Cursor} (h : p.Fits c) (hc : c.Leads c') : p.Fits c' :=
  h.imp id fun fits => ⟨fits.1.of_suffix hc.rest, hc.offset.trans fits.2⟩

/-- Other values with the same successes, and other claims about what is left. -/
theorem Agree.map {f : α → β} {f' : γ → δ} {g : α → γ} {g' : β → δ} {good good' : Prop}
    {x : Except (Halt ParseError) α} {y : Except (Halt ParseError) β} (h : p.Agree f good x y)
    (hg : good → good') (hf : ∀ a, g' (f a) = f' (g a)) :
    p.Agree f' good' (x.map g) (y.map g') := by
  cases h with
  | same left found =>
    refine .same (hg left) ?_
    subst found
    cases x with
    | ok a => exact congrArg Except.ok (hf a)
    | error e => rfl
  | first e lax found => exact .first e lax (by rw [found]; rfl)
  | second e lax found => exact .second e lax (by rw [found]; rfl)

/-- What is made of the same successes agrees where the makers do. -/
theorem Agree.bind {f : α → β} {f' : γ → δ} {g : α → Except (Halt ParseError) γ}
    {g' : β → Except (Halt ParseError) δ} {good : Prop} {x : Except (Halt ParseError) α}
    {y : Except (Halt ParseError) β} (h : p.Agree f good x y)
    (hg : ∀ a, g' (f a) = p.carry f' (g a)) : p.Agree f' good (x.bind g) (y.bind g') := by
  cases h with
  | same left found =>
    refine .same left ?_
    subst found
    cases x with
    | ok a => exact hg a
    | error e => rfl
  | first e lax found => exact .first e lax (by rw [found]; rfl)
  | second e lax found => exact .second e lax (by rw [found]; rfl)

/-- The faults of nested readings are reported at corresponding places. -/
theorem Agree.enclose {f : α → β} {g g' : ParseError → ParseError} {good : Prop}
    {x : Except (Halt ParseError) α} {y : Except (Halt ParseError) β} (h : p.inner.Agree f good x y)
    (hg : ∀ e, g' e = p.shifted (g e)) :
    p.Agree f good (x.mapError (Halt.map g)) (y.mapError (Halt.map g')) := by
  cases h with
  | same left found =>
    refine .same left ?_
    subst found
    rcases x with (e | panic) | a
    · exact congrArg (fun e => Except.error (Halt.fault e)) (hg e)
    · rfl
    · rfl
  | first e lax found => exact .first (e.map g) lax (by rw [found]; rfl)
  | second e lax found => exact .second (e.map g') lax (by rw [found]; rfl)

theorem Outcomes.map {f : α → β} {f' : γ → δ} {g : α → γ} {g' : β → δ} {x : Outcome α}
    {y : Outcome β} (h : p.Outcomes f x y) (hf : ∀ a, g' (f a) = f' (g a)) :
    p.Outcomes f' (x.map g) (y.map g') :=
  Agree.map h id hf

/-- Readings agree when what they found agrees and what they do next does. -/
theorem Outcomes.andThen {f : α → β} {g : γ → δ} {x : Outcome α} {y : Outcome β}
    {next₁ : α → Cursor → Memo → Outcome γ} {next₂ : β → Cursor → Memo → Outcome δ}
    (h : p.Outcomes f x y)
    (next : ∀ a, p.Fits x.cursor → p.caches x.memo.cache y.memo.cache →
      p.Outcomes g (next₁ a x.cursor x.memo) (next₂ (f a) (p.moved x.cursor) y.memo)) :
    p.Outcomes g (x.andThen next₁) (y.andThen next₂) := by
  cases h with
  | same left found =>
    obtain ⟨place, fits, caches⟩ := left
    cases hx : x.value with
    | ok a =>
      rw [hx] at found
      rw [Outcome.andThen_ok hx, Outcome.andThen_ok found, place]
      exact next a fits caches
    | error e =>
      rw [hx] at found
      rw [Outcome.andThen_error hx, Outcome.andThen_error found]
      exact .same ⟨place, fits, caches⟩ rfl
  | first e lax found =>
    rw [Outcome.andThen_error found]
    exact .first e lax rfl
  | second e lax found =>
    rw [Outcome.andThen_error found]
    exact .second e lax rfl

/-- The same for readers of text. -/
theorem Founds.bind {f : α → β} {g : α → Except ParseError γ} {g' : β → Except ParseError γ}
    {x : Found α} {y : Found β} (h : p.Founds f x y)
    (hg : ∀ a, g' (f a) = (g a).mapError p.shifted) :
    p.Founds id (x.1.bind g, x.2) (y.1.bind g', y.2) := by
  unfold Founds
  rw [mapError_bind, mapError_bind]
  refine Agree.bind h fun a => ?_
  rw [hg]
  cases g a <;> rfl

/-- A reader that leaves the memo alone, as one that carries it. -/
theorem Founds.outcomes {f : α → β} {x : Found α} {y : Found β} (h : p.Founds f x y) {m₁ m₂ : Memo}
    (hm : p.caches m₁.cache m₂.cache) :
    p.Outcomes f (Outcome.ofFound x m₁) (Outcome.ofFound y m₂) := by
  cases h with
  | same left found => exact .same ⟨left.1, left.2, hm⟩ found
  | first e lax found => exact .first e lax found
  | second e lax found => exact .second e lax found

/-- A reader that leaves the place alone, as one that carries it. -/
theorem Values.outcomes {f : α → β} {x : Except (Halt ParseError) α × Memo}
    {y : Except (Halt ParseError) β × Memo} (h : p.Values f x y) {c : Cursor} (hc : p.Fits c) :
    p.Outcomes f ⟨x.1, c, x.2⟩ ⟨y.1, p.moved c, y.2⟩ := by
  cases h with
  | same left found => exact .same ⟨rfl, hc, left⟩ found
  | first e lax found => exact .first e lax found
  | second e lax found => exact .second e lax found

end Pairing

/-- Tables in which every name and every character but those of predefined formulas stands for the
same. -/
structure Tables.SameNames (t₁ t₂ : Tables) : Prop where
  symbols : t₂.symbols = t₁.symbols
  mappings : t₂.mappings = t₁.mappings
  charFormulas : t₂.charFormulas = t₁.charFormulas
  commands : t₂.commands = t₁.commands

/-- Scopes whose readings a pairing relates: nested sources and predefined formulas agree already,
and a mode in which a reading would go on past a fault is the mode of both. -/
structure Pairing.Scopes (p : Pairing) (s₁ s₂ : Scope) : Prop where
  strict₁ : p.lax₁ → s₁.mode = .strict
  strict₂ : p.lax₂ → s₂.mode = .strict
  modes : p.lax₁ ∨ s₁.mode = s₂.mode
  edge : p.tail = [] ∨ p.lax₁ ∧ ∀ ch ∈ p.tail.head?, ¬ch.isAlpha
  names : Tables.SameNames s₁.tables s₂.tables
  fonts : ∀ text : String,
    s₂.tables.familiesFor text.toList = p.fit text (s₁.tables.familiesFor text.toList)
  expansion : ∀ source origin start m₁ m₂, p.caches m₁.cache m₂.cache →
    p.Values (Atom.refit p.fit) (expansion s₁ source origin start m₁)
      (expansion s₂ source origin (start + p.shift) m₂)
  predefined : ∀ name start m₁ m₂, p.caches m₁.cache m₂.cache →
    p.Values (Atom.refit p.fit) (predefinedName s₁ name start m₁)
      (predefinedName s₂ name (start + p.shift) m₂)

namespace Pairing.Scopes

variable {p : Pairing} {s₁ s₂ : Scope} {α β : Type}

theorem lax_or_tail (h : p.Scopes s₁ s₂) : p.lax₁ ∨ p.tail = [] :=
  h.edge.elim .inr fun edge => .inl edge.1

/-- Readings at the same fault agree. -/
theorem fault (h : p.Scopes s₁ s₂) {f : α → β} {c c' : Cursor} {m₁ m₂ : Memo} {n : Nat} {e : Fault}
    (hm : p.caches m₁.cache m₂.cache) (hc : p.tail = [] → c' = p.moved c) :
    p.Outcomes f ⟨.error (.fault ⟨n, e⟩), c, m₁⟩ ⟨.error (.fault ⟨n + p.shift, e⟩), c', m₂⟩ :=
  h.lax_or_tail.elim (.first _ · rfl) fun tail => .same ⟨hc tail, .inl tail, hm⟩ rfl

/-- Recovery from faults keeps the agreement. -/
theorem recover (h : p.Scopes s₁ s₂) (items : List (Atom Float32))
    {x y : Outcome (List (Atom Float32))} (hxy : p.Outcomes (List.map (Atom.refit p.fit)) x y) :
    p.Outcomes (List.map (Atom.refit p.fit)) (recover s₁ items x)
      (recover s₂ (items.map (Atom.refit p.fit)) y) := by
  cases hxy with
  | same left found =>
    cases hx : x.value with
    | ok a =>
      rw [hx] at found
      rw [recover_ok hx, recover_ok found]
      exact .same left (by rw [hx, found])
    | error e =>
      rw [hx] at found
      obtain lax | modes := h.modes
      · rw [recover_strict (h.strict₁ lax)]
        exact .first e lax hx
      · cases hs : s₁.mode with
        | strict =>
          rw [recover_strict hs, recover_strict (modes ▸ hs)]
          exact .same left (by rw [hx, found])
        | lenient =>
          cases e with
          | fault e =>
            rw [recover_lenient hx hs, recover_lenient found (modes ▸ hs)]
            exact .same left rfl
          | panic panic =>
            rw [recover_panic hx, recover_panic found]
            exact .same left (by rw [hx, found])
  | first e lax found =>
    rw [recover_strict (h.strict₁ lax)]
    exact .first e lax found
  | second e lax found =>
    rw [recover_strict (h.strict₂ lax)]
    exact .second e lax found

end Pairing.Scopes

end FormulaInk.Source
