import FormulaInk.Proofs.Reading.Raw

/-! The readers side by side: in scopes that a pairing relates, from places that correspond, every
reader finds the same. The induction is on the length of what is left of the source. -/

namespace FormulaInk.Source

section Constructs

variable (fit : String → Families → Families) {t₁ t₂ : Tables} {construct : Construct} {name : String}

/-- Arguments with the families of their texts replaced. -/
def refitArgs : (ps : List Param) → Args ps → Args ps
  | [], v => v
  | .atom :: ps, v => (v.1.refit fit, refitArgs ps v.2)
  | .optionalAtom :: ps, v => (v.1.map (Atom.refit fit), refitArgs ps v.2)
  | .plain _ :: ps, v => (v.1, refitArgs ps v.2)

/-- Whether an argument follows each parameter that may be absent. -/
def Guarded : List Param → Prop
  | [] => True
  | .atom :: ps => Guarded ps
  | .optionalAtom :: ps => (∃ qs, ps = .atom :: qs) ∧ Guarded ps
  | .plain kind :: ps => (kind = .optionalNumber → ∃ qs, ps = .atom :: qs) ∧ Guarded ps

/-- In every built-in command an argument follows each parameter that may be absent. -/
theorem guarded_of_ofName? (h : Construct.ofName? name = some construct) :
    Guarded construct.params := by
  unfold Construct.ofName? at h
  split at h <;> cases h <;>
    simp [Guarded, Construct.text, Construct.wrapper, Construct.constant, Construct.styled]

/-- A built-in command makes the same of the same arguments. -/
theorem build_refitArgs (h : Construct.ofName? name = some construct)
    (fonts : ∀ text : String, t₂.familiesFor text.toList = fit text (t₁.familiesFor text.toList))
    (v : Args construct.params) :
    construct.build t₂ (refitArgs fit construct.params v) = (construct.build t₁ v).refit fit := by
  unfold Construct.ofName? at h
  split at h <;> cases h <;>
    simp [refitArgs, Construct.text, Construct.wrapper, Construct.constant, Construct.styled,
      Atom.refit, fonts]

theorem ofSign?_refit (h : t₂.symbols = t₁.symbols) (ch : Char) :
    ofSign? t₂ ch = (ofSign? t₁ ch).map (Atom.refit fit) := by
  have named (name : String) :
      namedSymbol t₂ name ch = (namedSymbol t₁ name ch).refit fit := by
    unfold namedSymbol
    rw [h]
    split <;> rfl
  unfold ofSign?
  split <;> simp [Atom.refit, named]

theorem scriptFault?_refit (superscript : Bool) (items : List (Atom Float32)) :
    scriptFault? superscript (items.map (Atom.refit fit)) = scriptFault? superscript items := by
  cases items with
  | nil => rfl
  | cons a rest => cases a <;> simp [scriptFault?, Atom.refit]

theorem attachScript_refit (superscript : Bool) (script : Atom Float32)
    (items : List (Atom Float32)) :
    attachScript superscript (script.refit fit) (items.map (Atom.refit fit)) =
      (attachScript superscript script items).map (Atom.refit fit) := by
  cases items with
  | nil => cases superscript <;> rfl
  | cons a rest => cases a <;> cases superscript <;> simp [attachScript, Atom.refit]

end Constructs

namespace Pairing

variable {p : Pairing} {s₁ s₂ : Scope}

/-- The second reading has more where the first one ended only if that fault is permitted. -/
theorem Scopes.lax_of_ended (h : p.Scopes s₁ s₂) {c : Cursor}
    (ended : ¬(p.tail = [] ∨ c.skip.rest ≠ [])) : p.lax₁ ∧ c.skip = ⟨[], c.skip.offset⟩ := by
  obtain ⟨tail, rest⟩ := not_or.mp ended
  refine ⟨h.lax_or_tail.resolve_right tail, ?_⟩
  rw [← Decidable.not_not.mp rest]

/-- What items come to at the end of both sources. -/
theorem Scopes.atEnd_agree (h : p.Scopes s₁ s₂) {close : Option Char} {opened : Nat}
    {items : List (Atom Float32)} {good : Prop} (left : good) :
    p.Agree (List.map (Atom.refit p.fit)) good (atEnd s₁ close opened items)
      (atEnd s₂ close (opened + p.shift) (items.map (Atom.refit p.fit))) := by
  cases close with
  | none => exact .same left (by simp [atEnd, carry])
  | some ch =>
    obtain lax | modes := h.modes
    · exact .first (.fault ⟨opened, .unclosed ch⟩) lax (by simp [atEnd, h.strict₁ lax])
    · refine .same left ?_
      unfold atEnd
      rw [modes]
      cases s₂.mode <;> simp [carry, shifted]

/-- Readings of fewer than `n` characters agree. -/
structure Below (p : Pairing) (s₁ s₂ : Scope) (n : Nat) : Prop where
  sequences : ∀ (close : Option Char) (opened : Nat) (items : List (Atom Float32)) {c : Cursor}
    {m₁ m₂ : Memo}, c.rest.length < n → (close = none → p.tail = []) → p.Fits c →
    p.caches m₁.cache m₂.cache →
    p.Outcomes (List.map (Atom.refit p.fit)) (sequence s₁ close opened items c m₁).outcome
      (sequence s₂ close (opened + p.shift) (items.map (Atom.refit p.fit)) (p.moved c) m₂).outcome
  arguments : ∀ {owner : Nat} {c : Cursor} {m₁ m₂ : Memo}, c.rest.length < n → p.Fits c →
    p.caches m₁.cache m₂.cache →
    p.Outcomes (Atom.refit p.fit) (argument s₁ owner c m₁).outcome
      (argument s₂ (owner + p.shift) (p.moved c) m₂).outcome

namespace Below

variable {n : Nat} {c : Cursor} {m₁ m₂ : Memo}

theorem args_agree (b : p.Below s₁ s₂ n) (h : p.Scopes s₁ s₂) {start : Nat} {ps : List Param}
    (guarded : Guarded ps) (short : c.rest.length < n) (hc : p.Fits c)
    (hm : p.caches m₁.cache m₂.cache) :
    p.Outcomes (refitArgs p.fit ps) (args s₁ start ps c m₁).outcome
      (args s₂ (start + p.shift) ps (p.moved c) m₂).outcome := by
  induction ps generalizing c m₁ m₂ with
  | nil =>
    rw [args_nil, args_nil]
    exact .same ⟨rfl, hc, hm⟩ rfl
  | cons param ps ih =>
    cases param with
    | atom =>
      rw [args_atom, args_atom]
      have le := (argument s₁ start c m₁).length_outcome_le
      refine (b.arguments short hc hm).andThen fun a fits caches => ?_
      exact (ih guarded (by omega) fits caches).map fun _ => rfl
    | optionalAtom =>
      obtain ⟨⟨qs, rfl⟩, guarded⟩ := guarded
      by_cases hb : c.skip.rest.head? = some '['
      · obtain ⟨rest, hr⟩ := List.head?_eq_some_iff.mp hb
        have hs : c.skip = ⟨'[' :: rest, c.skip.offset⟩ := by rw [← hr]
        have shorter := Cursor.length_lt_of_skip hs
        have fits : p.Fits ⟨rest, c.skip.offset + 1⟩ := hc.behind hs
        have le := (sequence s₁ (some ']') c.skip.offset [] ⟨rest, c.skip.offset + 1⟩ m₁).length_outcome_le
        have inside := b.sequences (some ']') c.skip.offset [] (by show rest.length < n; omega)
          (by simp) fits hm
        rw [moved, Nat.add_right_comm] at inside
        rw [args_optional_of_open hs, args_optional_of_open (moved_skip_cons hs)]
        refine inside.andThen fun items fits caches => ?_
        exact (ih guarded (by simp only at le; omega) fits caches).map fun _ => by
          simp [refitArgs, Atom.group_map_refit]
      · rw [args_optional_of_absent hb]
        by_cases more : p.tail = [] ∨ c.skip.rest ≠ []
        · have place : (p.moved c).skip = p.moved c.skip := moved_skip more
          have absent : (p.moved c).skip.rest.head? ≠ some '[' := by
            rw [place]
            exact moved_head?_ne more hb
          rw [args_optional_of_absent absent, place]
          have le := c.length_skip_le
          exact (ih guarded (by omega) hc.skip hm).map fun _ => rfl
        · obtain ⟨lax, last⟩ := h.lax_of_ended more
          rw [args_atom_of_end (c.skip_skip.trans last)]
          exact .first _ lax rfl
    | plain kind =>
      rw [args_plain, args_plain]
      have le := kind.length_read_le s₁.tables s₁.mode start c
      by_cases more : kind = .optionalNumber → p.tail = [] ∨ c.skip.rest ≠ []
      · refine ((h.plain_agree kind start hc more).outcomes hm).andThen fun value fits caches => ?_
        exact (ih guarded.2 (Nat.lt_of_le_of_lt le short) fits caches).map fun _ => rfl
      · obtain ⟨rfl, ended⟩ := Classical.not_imp.mp more
        obtain ⟨lax, last⟩ := h.lax_of_ended ended
        obtain ⟨qs, rfl⟩ := guarded.1 rfl
        have absent : Plain.read s₁.tables s₁.mode start .optionalNumber c = (.ok none, c.skip) :=
          readOptional_of_absent (by rw [last]; simp)
        rw [absent]
        refine .first (.fault ⟨start, .missingArgument⟩) lax ?_
        rw [Outcome.andThen_ok rfl, Outcome.ofFound, args_atom_of_end (c.skip_skip.trans last)]
        rfl

end Below

theorem Scopes.lookup_agree (h : p.Scopes s₁ s₂) {name : String} {start : Nat} {c : Cursor}
    {m₁ m₂ : Memo} (hc : p.Fits c) (hm : p.caches m₁.cache m₂.cache) :
    p.Outcomes (Atom.refit p.fit) (lookup s₁ name start c m₁).outcome
      (lookup s₂ name (start + p.shift) (p.moved c) m₂).outcome := by
  cases hs : s₁.tables.symbols.get? name with
  | some symbol =>
    rw [lookup_of_symbol hs, lookup_of_symbol (h.names.symbols ▸ hs)]
    exact .same ⟨rfl, hc, hm⟩ rfl
  | none =>
    have hs₂ : s₂.tables.symbols.get? name = none := h.names.symbols ▸ hs
    cases hk : s₁.tables.commands.get? name with
    | some command =>
      have hk₂ : s₂.tables.commands.get? name = some command := h.names.commands ▸ hk
      by_cases many : mostArgs < command.args
      · rw [lookup_of_panic hs hk many, lookup_of_panic hs₂ hk₂ many]
        exact .same ⟨rfl, hc, hm⟩ rfl
      · rw [lookup_of_command hs hk (Nat.le_of_not_lt many),
          lookup_of_command hs₂ hk₂ (Nat.le_of_not_lt many)]
        refine (h.textArgs_agree start command.args hc hm).andThen fun found fits caches => ?_
        exact (h.expansion _ _ start _ _ caches).outcomes fits
    | none =>
      rw [lookup_of_predefined hs hk, lookup_of_predefined hs₂ (h.names.commands ▸ hk)]
      exact (h.predefined name start _ _ hm).outcomes hc

theorem Scopes.character_agree (h : p.Scopes s₁ s₂) (ch : Char) (start : Nat) {m₁ m₂ : Memo}
    (hm : p.caches m₁.cache m₂.cache) :
    p.Values (Atom.refit p.fit) (character s₁ ch start m₁)
      (character s₂ ch (start + p.shift) m₂) := by
  have same : s₂.tables.symbolForChar? ch = s₁.tables.symbolForChar? ch := by
    rw [Tables.symbolForChar?, Tables.symbolForChar?, h.names.mappings, h.names.symbols]
  unfold character
  rw [h.names.charFormulas, same]
  split
  · exact h.expansion _ _ _ _ _ hm
  · split
    · exact .same hm rfl
    · exact .same hm rfl

namespace Below

variable {n : Nat} {c : Cursor} {m₁ m₂ : Memo}

theorem command_agree (b : p.Below s₁ s₂ n) (h : p.Scopes s₁ s₂) {start : Nat}
    (short : c.rest.length < n) (hc : p.Fits c) (hm : p.caches m₁.cache m₂.cache) :
    p.Outcomes (Atom.refit p.fit) (command s₁ start c m₁).outcome
      (command s₂ (start + p.shift) (p.moved c) m₂).outcome := by
  rcases c with ⟨_ | ⟨ch, rest⟩, k⟩
  · rw [command_of_end]
    obtain lax | tail := h.lax_or_tail
    · exact .first _ lax rfl
    · rw [moved, tail, List.append_nil, command_of_end]
      exact h.fault hm fun tail => by simp [moved, tail]
  · have name := h.nameOf_behind rest
    have front : Cursor.Leads ⟨ch :: rest, k⟩ ⟨rest, k + 1⟩ :=
      ⟨List.suffix_cons ch rest, by simp only [List.length_cons]; omega⟩
    show p.Outcomes _ _ (command s₂ _ ⟨ch :: (rest ++ p.tail), k + p.shift⟩ m₂).outcome
    by_cases ha : ch.isAlpha
    · have behind : afterName (rest ++ p.tail) (k + p.shift + 1) = _ := h.afterName_behind rest k
      have fits : p.Fits (afterName rest (k + 1)) :=
        hc.further (Cursor.leads_drop front _ (length_nameOf_le rest))
      have fewer : (afterName rest (k + 1)).rest.length < n := by
        simp only [afterName, List.length_drop, List.length_cons] at short ⊢
        omega
      cases hn : Construct.ofName? (String.ofList (ch :: nameOf rest)) with
      | some construct =>
        rw [command_of_construct ha hn, command_of_construct ha (by rwa [name]), behind]
        refine (b.args_agree h (guarded_of_ofName? hn) fewer fits hm).map fun v => ?_
        exact build_refitArgs p.fit hn h.fonts v
      | none =>
        rw [command_of_name ha hn, command_of_name ha (by rwa [name]), behind, name]
        exact h.lookup_agree fits hm
    · have signs := ofSign?_refit p.fit h.names.symbols ch
      have fits : p.Fits ⟨rest, k + 1⟩ := hc.further front
      have place : (⟨rest ++ p.tail, k + p.shift + 1⟩ : Cursor) = p.moved ⟨rest, k + 1⟩ := by
        rw [moved, Nat.add_right_comm]
      cases hs : ofSign? s₁.tables ch with
      | some a =>
        rw [hs] at signs
        rw [command_of_sign ha hs, command_of_sign ha signs]
        exact .same ⟨place, fits, hm⟩ rfl
      | none =>
        rw [hs] at signs
        rw [command_of_unknown ha hs, command_of_unknown ha signs]
        exact .same ⟨place, fits, hm⟩ rfl

theorem atom_agree (b : p.Below s₁ s₂ n) (h : p.Scopes s₁ s₂) (ch : Char) (start : Nat)
    (short : c.rest.length < n) (hc : p.Fits c) (hm : p.caches m₁.cache m₂.cache) :
    p.Outcomes (Atom.refit p.fit) (atom s₁ ch start c m₁).outcome
      (atom s₂ ch (start + p.shift) (p.moved c) m₂).outcome := by
  by_cases hg : ch = '{'
  · subst hg
    rw [atom_of_group, atom_of_group]
    have inside := b.sequences (some '}') start [] short (by simp) hc hm
    exact inside.map fun items => Atom.group_map_refit items
  by_cases hs : ch = '\\'
  · subst hs
    rw [atom_of_command, atom_of_command]
    exact b.command_agree h short hc hm
  by_cases hu : ch = '#' ∨ ch = '&'
  · rw [atom_of_unexpected hu, atom_of_unexpected hu]
    exact .same ⟨rfl, hc, hm⟩ rfl
  by_cases ht : ch = '~'
  · subst ht
    rw [atom_of_tie, atom_of_tie]
    exact .same ⟨rfl, hc, hm⟩ rfl
  rw [atom_of_character hg hs hu ht, atom_of_character hg hs hu ht]
  exact (h.character_agree ch start hm).outcomes hc

theorem step_agree (b : p.Below s₁ s₂ n) (h : p.Scopes s₁ s₂) (items : List (Atom Float32))
    (ch : Char) (start : Nat) (short : c.rest.length < n) (hc : p.Fits c)
    (hm : p.caches m₁.cache m₂.cache) :
    p.Outcomes (List.map (Atom.refit p.fit)) (step s₁ items ch start c m₁).outcome
      (step s₂ (items.map (Atom.refit p.fit)) ch (start + p.shift) (p.moved c) m₂).outcome := by
  by_cases hb : ch = '}'
  · subst hb
    rw [step_of_brace, step_of_brace]
    exact .same ⟨rfl, hc, hm⟩ rfl
  by_cases hs : ch = '^' ∨ ch = '_'
  · have faults := scriptFault?_refit p.fit (ch = '^') items
    cases hf : scriptFault? (ch = '^') items with
    | some fault =>
      rw [step_of_fault hs hf, step_of_fault hs (faults.trans hf)]
      exact .same ⟨rfl, hc, hm⟩ rfl
    | none =>
      rw [step_of_script hs hf, step_of_script hs (faults.trans hf)]
      exact (b.arguments short hc hm).map fun script => attachScript_refit p.fit _ script items
  · rw [step_of_atom hb hs, step_of_atom hb hs]
    exact (b.atom_agree h ch start short hc hm).map fun _ => rfl

theorem argument_agree (b : p.Below s₁ s₂ n) (h : p.Scopes s₁ s₂) {owner : Nat}
    (short : c.rest.length ≤ n) (hc : p.Fits c) (hm : p.caches m₁.cache m₂.cache) :
    p.Outcomes (Atom.refit p.fit) (argument s₁ owner c m₁).outcome
      (argument s₂ (owner + p.shift) (p.moved c) m₂).outcome := by
  rcases hs : c.skip with ⟨_ | ⟨ch, rest⟩, k⟩
  · rw [argument_of_end hs]
    obtain lax | tail := h.lax_or_tail
    · exact .first _ lax rfl
    · rw [argument_of_end (moved_skip_nil tail hs)]
      exact h.fault hm fun tail => by simp [moved, tail]
  · have behind : (p.moved c).skip = ⟨ch :: (rest ++ p.tail), k + p.shift⟩ := moved_skip_cons hs
    by_cases missing : ch = '}' ∨ ch = '^' ∨ ch = '_'
    · rw [argument_of_missing hs missing, argument_of_missing behind missing]
      exact .same ⟨rfl, hs ▸ hc.skip, hm⟩ rfl
    · rw [argument_of_atom hs missing, argument_of_atom behind missing]
      have shorter := Cursor.length_lt_of_skip hs
      have found := b.atom_agree (c := ⟨rest, k + 1⟩) h ch k (by show rest.length < n; omega)
        (hc.behind hs) hm
      rwa [moved, Nat.add_right_comm] at found

theorem sequence_agree (b : p.Below s₁ s₂ n) (h : p.Scopes s₁ s₂) {close : Option Char}
    {opened : Nat} {items : List (Atom Float32)} (short : c.rest.length ≤ n)
    (last : close = none → p.tail = []) (hc : p.Fits c) (hm : p.caches m₁.cache m₂.cache) :
    p.Outcomes (List.map (Atom.refit p.fit)) (sequence s₁ close opened items c m₁).outcome
      (sequence s₂ close (opened + p.shift) (items.map (Atom.refit p.fit)) (p.moved c) m₂).outcome := by
  rcases hs : c.skip with ⟨_ | ⟨ch, rest⟩, k⟩
  · rw [sequence_of_end hs]
    by_cases tail : p.tail = []
    · rw [sequence_of_end (moved_skip_nil tail hs)]
      exact h.atEnd_agree ⟨by simp [moved, tail], .inl tail, hm⟩
    · obtain ⟨ch, rfl⟩ := Option.ne_none_iff_exists'.mp (mt last tail)
      have lax := h.lax_or_tail.resolve_right tail
      exact .first (.fault ⟨opened, .unclosed ch⟩) lax (by simp [atEnd, h.strict₁ lax])
  · have behind : (p.moved c).skip = ⟨ch :: (rest ++ p.tail), k + p.shift⟩ := moved_skip_cons hs
    have place : (⟨rest ++ p.tail, k + p.shift + 1⟩ : Cursor) = p.moved ⟨rest, k + 1⟩ := by
      rw [moved, Nat.add_right_comm]
    by_cases closing : some ch = close
    · rw [sequence_of_close hs closing, sequence_of_close behind closing]
      exact .same ⟨place, hc.behind hs, hm⟩ (by simp [carry])
    · have shorter := Cursor.length_lt_of_skip hs
      have le := (step s₁ items ch k ⟨rest, k + 1⟩ m₁).length_outcome_le
      have stepped := b.step_agree (c := ⟨rest, k + 1⟩) h items ch k (by show rest.length < n; omega)
        (hc.behind hs) hm
      rw [sequence_of_step hs closing, sequence_of_step behind closing, place]
      refine (h.recover items stepped).andThen fun items fits caches => ?_
      refine b.sequences _ _ _ ?_ last fits caches
      rw [cursor_recover]
      exact Nat.lt_of_le_of_lt le (by show rest.length < n; omega)

end Below

theorem below (h : p.Scopes s₁ s₂) (n : Nat) : p.Below s₁ s₂ n := by
  induction n with
  | zero => exact ⟨fun _ _ _ _ _ _ short => absurd short (Nat.not_lt_zero _),
      fun short => absurd short (Nat.not_lt_zero _)⟩
  | succ n ih =>
    exact ⟨fun _ _ _ _ _ _ short => ih.sequence_agree h (Nat.le_of_lt_succ short),
      fun short => ih.argument_agree h (Nat.le_of_lt_succ short)⟩

end Pairing

end FormulaInk.Source
