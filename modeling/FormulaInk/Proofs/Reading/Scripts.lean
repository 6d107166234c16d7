import Mathlib
import FormulaInk.Proofs.Reading.Joined
import FormulaInk.Proofs.Registry.History

/-! Scripts in braces. Their order does not matter: each one is set on the item in front, and each
one is read to the same behind the other, which leaves nothing in the cache that was not read with
what it found there. Braces around what a script is set on are gone once they are read: a group of
one atom is that atom, and one that has scripts takes the script itself. -/

namespace FormulaInk

namespace Source

/-- A source that leaves no comment open and does not end in a backslash. -/
structure Finished (source : String) : Prop where
  comment : '%' ∉ lastLine source.toList
  backslash : source.toList.getLast? ≠ some '\\'

theorem Finished.joinable {source : String} (h : Finished source) : Joinable source.toList :=
  joinable_of_lastLine h.comment h.backslash

/-- The last of some items, which come latest first, has no scripts. -/
def Scriptless (items : List (Atom Float32)) : Prop :=
  ∀ base sup sub, items.head? ≠ some (.scripts base sup sub)

section Scriptless

variable {before : List (Atom Float32)}

theorem Scriptless.no_fault (h : Scriptless before) (superscript : Bool) :
    scriptFault? superscript before = none := by
  cases before with
  | nil => rfl
  | cons a rest =>
    cases a with
    | scripts base sup sub => exact absurd rfl (h base sup sub)
    | _ => rfl

theorem Scriptless.attached (h : Scriptless before) (superscript : Bool)
    (script : Atom Float32) :
    attachScript superscript script before =
      (if superscript then .scripts (before.head?.getD .empty) (some script) none
        else .scripts (before.head?.getD .empty) none (some script)) :: before.tail := by
  cases before with
  | nil => rfl
  | cons a rest =>
    cases a with
    | scripts base sup sub => exact absurd rfl (h base sup sub)
    | _ => rfl

theorem scriptless_group {items : List (Atom Float32)}
    (h : ∀ b sup sub, items ≠ [.scripts b sup sub]) : Scriptless [.group items] := by
  intro b sup sub same
  have only : Atom.group items = .scripts b sup sub := Option.some.inj same
  rcases items with _ | ⟨a, _ | ⟨next, rest⟩⟩
  · cases only
  · exact h b sup sub (congrArg (· :: []) only)
  · cases only

end Scriptless

/-- A script: its sign and a source in braces, with a text behind them. -/
def scriptText (sign : Char) (source rest : List Char) : List Char :=
  sign :: '{' :: (source ++ '}' :: rest)

section Levels

variable {t : Tables} {levels : Nat} {sign : Char} {w u v : List Char} {m m₁ m₂ : Memo}
  {items found found' before : List (Atom Float32)}

theorem skip_sign (h : sign = '^' ∨ sign = '_') (rest : List Char) (start : Nat) :
    Cursor.skip ⟨sign :: rest, start⟩ = ⟨sign :: rest, start⟩ := by
  obtain rfl | rfl := h <;> rfl

/-- A script is set on the item in front, and what comes behind is read on from there. -/
theorem sequence_script (h : sign = '^' ∨ sign = '_')
    (ok : (withLevels t levels .strict u m).1 = .ok found) (joinable : Joinable u)
    (free : scriptFault? (sign = '^') before = none) (rest : List Char) (start : Nat)
    (hm : m.cache = m₁.cache) :
    ∃ m₂, m₂.cache = (withLevels t levels .strict u m).2.cache ∧
      (sequence ⟨t, .strict, nestedUnder t levels⟩ none 0 before
          ⟨scriptText sign u rest, start⟩ m₁).outcome =
        (sequence ⟨t, .strict, nestedUnder t levels⟩ none 0
          (attachScript (sign = '^') (.group found) before) ⟨rest, start + (u.length + 3)⟩
          m₂).outcome := by
  obtain ⟨m₂, cache, group⟩ := atom_joined ok joinable rest (start + 1) hm
  have opens : Cursor.skip ⟨'{' :: (u ++ '}' :: rest), start + 1⟩ =
      ⟨'{' :: (u ++ '}' :: rest), start + 1⟩ := by rfl
  have stop : start + 1 + (u.length + 2) = start + (u.length + 3) := by omega
  have step : (step ⟨t, .strict, nestedUnder t levels⟩ before sign start
      ⟨'{' :: (u ++ '}' :: rest), start + 1⟩ m₁).outcome =
        ⟨.ok (attachScript (sign = '^') (.group found) before), ⟨rest, start + (u.length + 3)⟩,
          m₂⟩ := by
    rw [step_of_script h free, argument_of_atom opens (by decide), group, stop]
    rfl
  exact ⟨m₂, cache, sequence_of_item (skip_sign h _ start) (Option.some_ne_none _) step⟩

/-- A script behind a group. -/
theorem withLevels_script (h : sign = '^' ∨ sign = '_')
    (ok : (withLevels t levels .strict w m).1 = .ok items) (joinable : Joinable w)
    (ok' : (withLevels t levels .strict u m₁).1 = .ok found) (joinable' : Joinable u)
    (left : m₁.cache = (withLevels t levels .strict w m).2.cache)
    (free : scriptFault? (sign = '^') [.group items] = none) :
    (withLevels t levels .strict ('{' :: (w ++ '}' :: scriptText sign u [])) m).1 =
      .ok (attachScript (sign = '^') (.group found) [.group items]).reverse := by
  obtain ⟨m₂, cache, group⟩ := sequence_group ok joinable [] (scriptText sign u []) 0 rfl
  obtain ⟨m₃, -, script⟩ := sequence_script h ok' joinable' free [] (0 + (w.length + 2))
    (left.trans cache.symm)
  have whole := (group.trans script).trans (sequence_of_end rfl)
  rw [withLevels_eq]
  exact congrArg Outcome.value whole

/-- A script behind a group that has that script already. -/
theorem withLevels_secondScript (h : sign = '^' ∨ sign = '_')
    (ok : (withLevels t levels .strict w m).1 = .ok items) (joinable : Joinable w) {fault : Fault}
    (taken : scriptFault? (sign = '^') [.group items] = some fault) (rest : List Char) :
    (withLevels t levels .strict ('{' :: (w ++ '}' :: sign :: rest)) m).1 =
      .error (.fault ⟨w.length + 2, fault⟩) := by
  obtain ⟨m₂, -, group⟩ := sequence_group ok joinable [] (sign :: rest) 0 rfl
  have whole := group.trans (sequence_of_halt (skip_sign h rest _) (Option.some_ne_none _)
    (.strict _) (step_of_fault h taken))
  rw [withLevels_eq, ← Nat.zero_add (w.length + 2)]
  exact congrArg Outcome.value whole

/-- Two scripts behind a source. -/
theorem withLevels_scripts {sign' : Char} (h : sign = '^' ∨ sign = '_')
    (h' : sign' = '^' ∨ sign' = '_')
    (ok : (withLevels t levels .strict w m).1 = .ok items) (joinable : Joinable w)
    (first : (withLevels t levels .strict u m₁).1 = .ok found) (joinable₁ : Joinable u)
    (second : (withLevels t levels .strict v m₂).1 = .ok found') (joinable₂ : Joinable v)
    (left₁ : m₁.cache = (withLevels t levels .strict w m).2.cache)
    (left₂ : m₂.cache = (withLevels t levels .strict u m₁).2.cache)
    (free : scriptFault? (sign = '^') items.reverse = none)
    (free' : scriptFault? (sign' = '^')
      (attachScript (sign = '^') (.group found) items.reverse) = none) :
    (withLevels t levels .strict (w ++ scriptText sign u (scriptText sign' v [])) m).1 =
      .ok (attachScript (sign' = '^') (.group found')
        (attachScript (sign = '^') (.group found) items.reverse)).reverse := by
  have edge : ∀ ch ∈ (scriptText sign u (scriptText sign' v [])).head?, ¬ch.isAlpha := by
    intro ch first
    obtain rfl := Option.some.inj first
    obtain rfl | rfl := h <;> decide
  obtain ⟨m₃, cache₃, front⟩ := sequence_before ok joinable (List.cons_ne_nil _ _) edge .strict none
    (by simp) 0 0 rfl
  obtain ⟨m₄, cache₄, step₁⟩ := sequence_script h first joinable₁ free (scriptText sign' v [])
    (0 + w.length) (left₁.trans cache₃.symm)
  obtain ⟨m₅, -, step₂⟩ := sequence_script h' second joinable₂ free' []
    (0 + w.length + (u.length + 3)) (left₂.trans cache₄.symm)
  have whole := (front.trans (step₁.trans step₂)).trans (sequence_of_end rfl)
  rw [withLevels_eq]
  exact congrArg Outcome.value whole

end Levels

end Source

namespace Registry

open Source

variable {r : Registry} {depth : Nat}

section Braces

variable {base script text : String} {items found : List (Atom Float32)} {sign : Char}

theorem result_script (h : sign = '^' ∨ sign = '_')
    (ok : (r.readAt depth .strict base).result = .ok items)
    (ok' : ((r.readAt depth .strict base).registry.readAt depth .strict script).result = .ok found)
    (finished : Finished base) (finished' : Finished script)
    (spelled : text.toList = '{' :: (base.toList ++ '}' :: scriptText sign script.toList []))
    (free : scriptFault? (sign = '^') [.group items] = none) :
    (r.readAt depth .strict text).result =
      .ok (attachScript (sign = '^') (.group found) [.group items]).reverse := by
  have read := readAt_ok.mp ok
  have read' := readAt_ok.mp ok'
  rw [readAt_ok, spelled]
  exact withLevels_script h read finished.joinable read' finished'.joinable rfl free

theorem result_secondScript (h : sign = '^' ∨ sign = '_')
    (ok : (r.readAt depth .strict base).result = .ok items) (finished : Finished base)
    {rest : List Char} (spelled : text.toList = '{' :: (base.toList ++ '}' :: sign :: rest))
    {fault : Fault} (taken : scriptFault? (sign = '^') [.group items] = some fault) :
    (r.readAt depth .strict text).result = .error (.fault (.parse ⟨base.length + 2, fault⟩)) := by
  rw [readAt_error, spelled]
  exact withLevels_secondScript h (readAt_ok.mp ok) finished.joinable taken rest

/-- A script behind braces is set on what the braces hold, unless that is a single atom with
scripts. Then it becomes one more script of that atom, and is refused if the atom has it already. -/
theorem readAt_script (ok : (r.readAt depth .strict base).result = .ok items)
    (ok' : ((r.readAt depth .strict base).registry.readAt depth .strict script).result = .ok found)
    (finished : Finished base) (finished' : Finished script) :
    ((∀ b sup sub, items ≠ [.scripts b sup sub]) →
      (r.readAt depth .strict ("\x7b" ++ base ++ "\x7d^\x7b" ++ script ++ "\x7d")).result =
          .ok [.scripts (.group items) (some (.group found)) none] ∧
        (r.readAt depth .strict ("\x7b" ++ base ++ "\x7d_\x7b" ++ script ++ "\x7d")).result =
          .ok [.scripts (.group items) none (some (.group found))]) ∧
    ∀ b sup sub, items = [.scripts b sup sub] →
      (r.readAt depth .strict ("\x7b" ++ base ++ "\x7d^\x7b" ++ script ++ "\x7d")).result =
          (if sup.isSome then .error (.fault (.parse ⟨base.length + 2, .doubleSuperscript⟩))
            else .ok [.scripts b (some (.group found)) sub]) ∧
        (r.readAt depth .strict ("\x7b" ++ base ++ "\x7d_\x7b" ++ script ++ "\x7d")).result =
          (if sub.isSome then .error (.fault (.parse ⟨base.length + 2, .doubleSubscript⟩))
            else .ok [.scripts b sup (some (.group found))]) := by
  have upper : ("\x7b" ++ base ++ "\x7d^\x7b" ++ script ++ "\x7d").toList =
      '{' :: (base.toList ++ '}' :: scriptText '^' script.toList []) := by
    simp [String.toList_append, scriptText]
  have lower : ("\x7b" ++ base ++ "\x7d_\x7b" ++ script ++ "\x7d").toList =
      '{' :: (base.toList ++ '}' :: scriptText '_' script.toList []) := by
    simp [String.toList_append, scriptText]
  constructor
  · intro other
    have scriptless := scriptless_group other
    have sup := result_script (.inl rfl) ok ok' finished finished' upper (scriptless.no_fault _)
    have sub := result_script (.inr rfl) ok ok' finished finished' lower (scriptless.no_fault _)
    rw [scriptless.attached] at sup sub
    exact ⟨sup, sub⟩
  · rintro b sup sub rfl
    constructor
    · cases sup with
      | none => exact result_script (.inl rfl) ok ok' finished finished' upper rfl
      | some taken => exact result_secondScript (.inl rfl) ok finished upper rfl
    · cases sub with
      | none => exact result_script (.inr rfl) ok ok' finished finished' lower rfl
      | some taken => exact result_secondScript (.inr rfl) ok finished lower rfl

end Braces

/-- A registry in which a name stands for a letter with a subscript. -/
def indexed : Registry := empty.registerPredefined "n" "x_1"

theorem readAt_script_indexed :
    (indexed.readAt 0 .strict ("\x7b" ++ "a\\n" ++ "\x7d_\x7b" ++ "\\n" ++ "\x7d")).result =
        .ok [.scripts (.row [.char 'a', .scripts (.char 'x') none (some (.char '1'))]) none
          (some (.scripts (.char 'x') none (some (.char '1'))))] ∧
      (indexed.readAt 0 .strict ("\x7b" ++ "\\n" ++ "\x7d^\x7b" ++ "2" ++ "\x7d")).result =
        .ok [.scripts (.char 'x') (some (.char '2')) (some (.char '1'))] := by
  have row : (indexed.readAt 0 .strict "a\\n").result =
      .ok [.char 'a', .scripts (.char 'x') none (some (.char '1'))] := by cbv
  have behind : ((indexed.readAt 0 .strict "a\\n").registry.readAt 0 .strict "\\n").result =
      .ok [.scripts (.char 'x') none (some (.char '1'))] := by cbv
  have single : (indexed.readAt 0 .strict "\\n").result =
      .ok [.scripts (.char 'x') none (some (.char '1'))] := by cbv
  have digit : ((indexed.readAt 0 .strict "\\n").registry.readAt 0 .strict "2").result =
      .ok [.char '2'] := by cbv
  have first := readAt_script row behind ⟨by decide, by decide⟩ ⟨by decide, by decide⟩
  have second := readAt_script single digit ⟨by decide, by decide⟩ ⟨by decide, by decide⟩
  exact ⟨(first.1 (by simp)).2, (second.2 _ _ _ rfl).1⟩

/-- Braces do not protect what has scripts: a second superscript is refused, and where there is only
a subscript the superscript is not set on the whole. -/
theorem not_readAt_script :
    (¬∀ (r : Registry) (base script : String) (items found : List (Atom Float32)),
      '%' ∉ base.toList → base.toList.getLast? ≠ some '\\' →
      '%' ∉ script.toList → script.toList.getLast? ≠ some '\\' →
      (r.readAt 0 .strict base).result = .ok items →
      ((r.readAt 0 .strict base).registry.readAt 0 .strict script).result = .ok found →
      (r.readAt 0 .strict ("\x7b" ++ base ++ "\x7d^\x7b" ++ script ++ "\x7d")).result =
        .ok [.scripts (.group items) (some (.group found)) none]) ∧
    (empty.readAt 0 .strict "\x7bx^2\x7d^\x7b3\x7d").result =
      .error (.fault (.parse ⟨5, .doubleSuperscript⟩)) ∧
    (empty.readAt 0 .strict "\x7bx_1\x7d^\x7b2\x7d").result =
      .ok [.scripts (.char 'x') (some (.char '2')) (some (.char '1'))] := by
  refine ⟨fun claim => ?_, by cbv, by cbv⟩
  have power : (empty.readAt 0 .strict "x^2").result =
      .ok [.scripts (.char 'x') (some (.char '2')) none] := by cbv
  have digit : ((empty.readAt 0 .strict "x^2").registry.readAt 0 .strict "3").result =
      .ok [.char '3'] := by cbv
  have refused : (empty.readAt 0 .strict ("\x7b" ++ "x^2" ++ "\x7d^\x7b" ++ "3" ++ "\x7d")).result =
      .error (.fault (.parse ⟨5, .doubleSuperscript⟩)) := by cbv
  have kept := claim empty "x^2" "3" _ _ (by decide) (by decide) (by decide) (by decide) power digit
  rw [refused] at kept
  cases kept

section Order

variable {front text : String} {items found found' : List (Atom Float32)}

/-- Two scripts behind a source whose last atom has none. The second one is read to the same behind
the first one as behind the source. -/
theorem result_scripts {sign sign' : Char} {first second : String} (h : sign = '^' ∨ sign = '_')
    (h' : sign' = '^' ∨ sign' = '_') (ok : (r.readAt depth .strict front).result = .ok items)
    (ok₁ : ((r.readAt depth .strict front).registry.readAt depth .strict first).result = .ok found)
    (ok₂ : ((r.readAt depth .strict front).registry.readAt depth .strict second).result =
      .ok found')
    (finished : Finished front) (finished₁ : Finished first) (finished₂ : Finished second)
    (spelled : text.toList =
      front.toList ++ scriptText sign first.toList (scriptText sign' second.toList []))
    (free : scriptFault? (sign = '^') items.reverse = none)
    (free' : scriptFault? (sign' = '^')
      (attachScript (sign = '^') (.group found) items.reverse) = none) :
    (r.readAt depth .strict text).result =
      .ok (attachScript (sign' = '^') (.group found')
        (attachScript (sign = '^') (.group found) items.reverse)).reverse := by
  have behind := ((LeftOf.refl _).read depth .strict first).readAt_ok ok₂ (Nat.le_refl depth)
  have read := readAt_ok.mp ok
  have read₁ := readAt_ok.mp ok₁
  have read₂ := readAt_ok.mp behind
  rw [readAt_ok, spelled]
  exact withLevels_scripts h h' read finished.joinable read₁ finished₁.joinable read₂
    finished₂.joinable rfl rfl free free'

/-- A superscript and a subscript may be set on the last atom of a source in either order, if it has
no scripts before. -/
theorem readAt_scripts_swapped {upper lower : String} {sup sub : List (Atom Float32)}
    (ok : (r.readAt depth .strict front).result = .ok items)
    (scriptless : ∀ b s s', items.getLast? ≠ some (.scripts b s s'))
    (sup_ok : ((r.readAt depth .strict front).registry.readAt depth .strict upper).result = .ok sup)
    (sub_ok : ((r.readAt depth .strict front).registry.readAt depth .strict lower).result = .ok sub)
    (finished : Finished front) (finished₁ : Finished upper) (finished₂ : Finished lower) :
    (r.readAt depth .strict (front ++ "^\x7b" ++ upper ++ "\x7d_\x7b" ++ lower ++ "\x7d")).result =
        .ok (items.dropLast ++
          [.scripts (items.getLast?.getD .empty) (some (.group sup)) (some (.group sub))]) ∧
      (r.readAt depth .strict
          (front ++ "_\x7b" ++ lower ++ "\x7d^\x7b" ++ upper ++ "\x7d")).result =
        .ok (items.dropLast ++
          [.scripts (items.getLast?.getD .empty) (some (.group sup)) (some (.group sub))]) := by
  have last : Scriptless items.reverse := by
    intro b s s' head
    rw [List.head?_reverse] at head
    exact scriptless b s s' head
  have one (superscript : Bool) (script : Atom Float32) := last.attached superscript script
  have whole : (.scripts (items.reverse.head?.getD .empty) (some (.group sup))
      (some (.group sub)) :: items.reverse.tail).reverse =
        items.dropLast ++
          [.scripts (items.getLast?.getD .empty) (some (.group sup)) (some (.group sub))] := by
    rw [List.reverse_cons, List.head?_reverse, List.tail_reverse, List.reverse_reverse]
  have upper_first :
      (front ++ "^\x7b" ++ upper ++ "\x7d_\x7b" ++ lower ++ "\x7d").toList =
        front.toList ++ scriptText '^' upper.toList (scriptText '_' lower.toList []) := by
    simp [String.toList_append, scriptText]
  have lower_first :
      (front ++ "_\x7b" ++ lower ++ "\x7d^\x7b" ++ upper ++ "\x7d").toList =
        front.toList ++ scriptText '_' lower.toList (scriptText '^' upper.toList []) := by
    simp [String.toList_append, scriptText]
  rw [← whole]
  constructor
  · rw [result_scripts (.inl rfl) (.inr rfl) ok sup_ok sub_ok finished finished₁ finished₂
      upper_first (last.no_fault _) (by rw [one]; rfl), one]
    rfl
  · rw [result_scripts (.inr rfl) (.inl rfl) ok sub_ok sup_ok finished finished₂ finished₁
      lower_first (last.no_fault _) (by rw [one]; rfl), one]
    rfl

end Order

/-- The front and both scripts need the same name, which is read once. -/
theorem readAt_scripts_swapped_indexed :
    (indexed.readAt 0 .strict
          ("a\\n b" ++ "^\x7b" ++ "\\n" ++ "\x7d_\x7b" ++ "c\\n" ++ "\x7d")).result =
        .ok [.char 'a', .scripts (.char 'x') none (some (.char '1')),
          .scripts (.char 'b') (some (.scripts (.char 'x') none (some (.char '1'))))
            (some (.row [.char 'c', .scripts (.char 'x') none (some (.char '1'))]))] ∧
      (indexed.readAt 0 .strict
          ("a\\n b" ++ "_\x7b" ++ "c\\n" ++ "\x7d^\x7b" ++ "\\n" ++ "\x7d")).result =
        .ok [.char 'a', .scripts (.char 'x') none (some (.char '1')),
          .scripts (.char 'b') (some (.scripts (.char 'x') none (some (.char '1'))))
            (some (.row [.char 'c', .scripts (.char 'x') none (some (.char '1'))]))] := by
  have front : (indexed.readAt 0 .strict "a\\n b").result =
      .ok [.char 'a', .scripts (.char 'x') none (some (.char '1')), .char 'b'] := by cbv
  have upper : ((indexed.readAt 0 .strict "a\\n b").registry.readAt 0 .strict "\\n").result =
      .ok [.scripts (.char 'x') none (some (.char '1'))] := by cbv
  have lower : ((indexed.readAt 0 .strict "a\\n b").registry.readAt 0 .strict "c\\n").result =
      .ok [.char 'c', .scripts (.char 'x') none (some (.char '1'))] := by cbv
  exact readAt_scripts_swapped front (by simp) upper lower ⟨by decide, by decide⟩
    ⟨by decide, by decide⟩ ⟨by decide, by decide⟩

end Registry

end FormulaInk
