import Mathlib
import FormulaInk.Proofs.Reading.Ending

/-! Lenient reading. It returns no error, and comes to the items of strict reading where that
succeeds.

A fault inside an item ends the reading of that item only, and the sequence around it goes on; so
the induction for totality follows the sequence and never looks into an item. What is left are
panics, which go through a sequence. For the second part strict reading is paired with lenient
reading, and nothing is asked at a fault of the strict one. -/

namespace FormulaInk

namespace Source

/-- No fault is returned. -/
def Outcome.Settled {α : Type} (o : Outcome α) : Prop :=
  (∃ a, o.value = .ok a) ∨ ∃ p, o.value = .error (.panic p)

theorem settled_recover {s : Scope} (lenient : s.mode = .lenient) (items : List (Atom Float32))
    (o : Outcome (List (Atom Float32))) : (recover s items o).Settled := by
  rcases h : o.value with (e | p) | found
  · exact .inl ⟨.empty :: items, by rw [recover_lenient h lenient]⟩
  · exact .inr ⟨p, by rw [recover_panic h, h]⟩
  · exact .inl ⟨found, by rw [recover_ok h, h]⟩

theorem settled_sequence {s : Scope} (lenient : s.mode = .lenient) (close : Option Char)
    (opened n : Nat) {items : List (Atom Float32)} {c : Cursor} {m : Memo}
    (short : c.rest.length < n) : (sequence s close opened items c m).outcome.Settled := by
  induction n generalizing items c m with
  | zero => exact absurd short (Nat.not_lt_zero _)
  | succ n ih =>
    rcases hs : c.skip with ⟨_ | ⟨ch, rest⟩, k⟩
    · rw [sequence_of_end hs]
      exact .inl ⟨items.reverse, by simp [atEnd, lenient]⟩
    · have shorter := Cursor.length_lt_of_skip hs
      by_cases closing : some ch = close
      · rw [sequence_of_close hs closing]
        exact .inl ⟨items.reverse, rfl⟩
      · have le := (step s items ch k ⟨rest, k + 1⟩ m).length_outcome_le
        rw [sequence_of_step hs closing]
        obtain ⟨found, hf⟩ | ⟨p, hp⟩ := settled_recover lenient items
          (step s items ch k ⟨rest, k + 1⟩ m).outcome
        · rw [Outcome.andThen_ok hf]
          refine ih ?_
          rw [cursor_recover]
          exact Nat.lt_of_le_of_lt le (by show rest.length < n; omega)
        · rw [Outcome.andThen_error hp]
          exact .inr ⟨p, rfl⟩

theorem settled_withLevels_lenient (t : Tables) (levels : Nat) (source : List Char) (m : Memo) :
    (∃ items, (withLevels t levels .lenient source m).1 = .ok items) ∨
      ∃ p, (withLevels t levels .lenient source m).1 = .error (.panic p) := by
  rw [withLevels_eq]
  exact settled_sequence rfl none 0 _ (Nat.lt_succ_self _)

theorem withLevels_lenient_of_strict {t : Tables} {levels : Nat} {source : List Char} {m : Memo}
    {items : List (Atom Float32)} (h : (withLevels t levels .strict source m).1 = .ok items) :
    (withLevels t levels .lenient source m).1 = .ok items ∧
      (withLevels t levels .lenient source m).2.cache =
        (withLevels t levels .strict source m).2.cache := by
  have modes : Pairing.successes.Modes .strict .lenient := ⟨fun _ => rfl, False.elim, .inl trivial⟩
  have caches : Pairing.successes.caches m.cache m.cache := rfl
  cases Pairing.withLevels_agree (Pairing.regular_of_eq rfl rfl) (Pairing.resolves_self rfl t) modes
    levels source caches with
  | same left found =>
    rw [h] at found
    exact ⟨found.trans (congrArg Except.ok (Pairing.map_refit_keep rfl items)), left.symm⟩
  | first e _ fault => cases h.symm.trans fault
  | second e lax => exact lax.elim

end Source

namespace Registry

theorem readAt_lenient (r : Registry) (depth : Nat) (source : String) :
    (∃ items, (r.readAt depth .lenient source).result = .ok items) ∨
      ∃ p, (r.readAt depth .lenient source).result = .error (.panic p) :=
  (Source.settled_withLevels_lenient r.toTables (Source.maxDepth - depth) source.toList
    { cache := r.cache }).imp (.imp fun _ => readAt_ok.mpr) (.imp fun _ => readAt_panic.mpr)

/-- Lenient reading succeeds on every source, at every depth, unless a command of the registry has
more arguments than there can be room for. What strict reading succeeds on is read to the same
items, and leaves the same cache. -/
theorem lenient_extends_strict (r : Registry) (depth : Nat) (source : String) :
    ((∃ items, (r.readAt depth .lenient source).result = .ok items) ∨
      (r.readAt depth .lenient source).result = .error (.panic .capacity) ∧
        ∃ name command, r.commands.get? name = some command ∧ Source.mostArgs < command.args) ∧
      ∀ items, (r.readAt depth .strict source).result = .ok items →
        (r.readAt depth .lenient source).result = .ok items ∧
          (r.readAt depth .lenient source).registry = (r.readAt depth .strict source).registry := by
  constructor
  · obtain found | ⟨p, panics⟩ := readAt_lenient r depth source
    · exact .inl found
    · obtain ⟨rfl, noRoom⟩ := noRoom_of_panic panics
      exact .inr ⟨panics, noRoom⟩
  · intro items h
    obtain ⟨result, cache⟩ := Source.withLevels_lenient_of_strict (readAt_ok.mp h)
    refine ⟨readAt_ok.mpr result, ?_⟩
    rw [registry_readAt, registry_readAt]
    exact congrArg (fun cache => { r with cache := cache }) cache

/-- A predefined formula that uses a text command. -/
def doubled : Registry := (empty.addCommand "m" 1 "#1#1").registerPredefined "f" "\\m b"

/-- The formula is read the first time and comes from the cache the second time. -/
theorem lenient_extends_strict_doubled :
    (doubled.readAt 0 .strict "\\f\\f").result =
        .ok [.row [.char 'b', .char 'b'], .row [.char 'b', .char 'b']] ∧
      (doubled.readAt 0 .strict "\\f\\f").registry.cache.contains "f" = true ∧
      (doubled.readAt 0 .lenient "\\f\\f").result =
        .ok [.row [.char 'b', .char 'b'], .row [.char 'b', .char 'b']] ∧
      (doubled.readAt 0 .lenient "\\f\\f").registry =
        (doubled.readAt 0 .strict "\\f\\f").registry := by
  have strict : (doubled.readAt 0 .strict "\\f\\f").result =
      .ok [.row [.char 'b', .char 'b'], .row [.char 'b', .char 'b']] := by cbv
  exact ⟨strict, by cbv, (lenient_extends_strict doubled 0 "\\f\\f").2 _ strict⟩

/-- A lenient reading need not succeed. -/
theorem readAt_crowded_lenient :
    ¬∀ (r : Registry) (source : String),
      ∃ items, (r.readAt 0 .lenient source).result = .ok items := by
  intro succeeds
  have panics : (crowded.readAt 0 .lenient "\\x").result = .error (.panic .capacity) :=
    readAt_of_noRoom (by decide) (by decide) (by decide) (by rfl) (by decide) 0 .lenient
  obtain ⟨items, found⟩ := succeeds crowded "\\x"
  cases panics.symm.trans found

end Registry

end FormulaInk
