import Mathlib
import FormulaInk.Proofs.Reading.Lenient
import FormulaInk.Registry.Read

/-! What a call that fails leaves of a formula. Most calls find the fault before they change
anything. Appending the items of a source gives the formula away first, and then it is lost. -/

namespace FormulaInk

namespace Formula

/-- A call that changes a formula and may fail. -/
inductive Attempt where
  | addSource (source : String)
  | append (mode : Source.Mode) (source : String)
  | setFixedTypes (left right : AtomClass)
  | setTextStyle (name : Option String)

/-- The formula after a call with a registry, and the error if the call fails. -/
def Attempt.run (a : Attempt) (r : Registry) (f : Formula) : Edited :=
  match a with
  | addSource source => f.addSource r source
  | append mode source => f.append r mode source
  | setFixedTypes left right =>
    .ofResult f r ((f.setFixedTypes left right).mapError fun kind => .atomClass kind.code)
  | setTextStyle name => .ofResult f r (f.setTextStyle name)

section Outcome

variable {f : Formula} {r : Registry} {mode : Source.Mode} {source : String}

theorem formula_ofResult {result : Except Error Formula}
    (failed : (Edited.ofResult f r result).failure ≠ none) :
    (Edited.ofResult f r result).formula = f := by
  cases result with
  | ok edited => exact absurd rfl failed
  | error e => rfl

theorem formula_addSource (failed : (f.addSource r source).failure ≠ none) :
    (f.addSource r source).formula = f := by
  unfold addSource at failed ⊢
  dsimp only at failed ⊢
  split
  · rename_i other read
    rw [read] at failed
    exact absurd rfl failed
  · rfl

theorem formula_append (failed : (f.append r mode source).failure ≠ none) :
    (f.append r mode source).formula = .empty := by
  unfold append at failed ⊢
  dsimp only at failed ⊢
  split
  · rename_i items read
    rw [read] at failed
    exact absurd rfl failed
  · rfl

/-- No error is returned when a source is appended that is read leniently. -/
theorem failure_append_lenient (f : Formula) (r : Registry) (source : String) :
    (f.append r .lenient source).failure = none := by
  rw [append, Registry.read]
  obtain ⟨items, read⟩ | ⟨p, read⟩ := r.readAt_lenient 0 source
  · rw [read]
    rfl
  · rw [read]
    rfl

end Outcome

/-- A call that fails leaves the formula as it was, unless it was to append a source that is read
strictly: that leaves nothing. -/
theorem formula_run_of_failure {a : Attempt} {r : Registry} {f : Formula}
    (failed : (a.run r f).failure ≠ none) :
    (a.run r f).formula = f ∧ (∀ source, a ≠ .append .strict source) ∨
      (a.run r f).formula = .empty ∧ ∃ source, a = .append .strict source := by
  cases a with
  | addSource source => exact .inl ⟨formula_addSource failed, by simp⟩
  | setFixedTypes left right => exact .inl ⟨formula_ofResult failed, by simp⟩
  | setTextStyle name => exact .inl ⟨formula_ofResult failed, by simp⟩
  | append mode source =>
    cases mode with
    | strict => exact .inr ⟨formula_append failed, source, rfl⟩
    | lenient => exact absurd (failure_append_lenient f r source) failed

/-- A brace that is never closed cannot be added to a letter. -/
theorem formula_run_of_failure_brace :
    let letter := Formula.empty.add (.char 'x')
    let a : Attempt := .addSource "\x7b"
    (a.run .empty letter).failure ≠ none ∧
      ((a.run .empty letter).formula = letter ∧ (∀ source, a ≠ .append .strict source) ∨
        (a.run .empty letter).formula = .empty ∧ ∃ source, a = .append .strict source) := by
  intro letter a
  have failed : (a.run .empty letter).failure ≠ none :=
    Option.isSome_iff_ne_none.mp (by cbv)
  exact ⟨failed, formula_run_of_failure failed⟩

/-- A letter is lost when an open brace is appended to it. -/
theorem formula_append_brace_ne :
    let letter := Formula.empty.add (.char 'x')
    ((Attempt.append .strict "\x7b").run .empty letter).failure ≠ none ∧
      ((Attempt.append .strict "\x7b").run .empty letter).formula ≠ letter := by
  intro letter
  have failed : ((Attempt.append .strict "\x7b").run .empty letter).failure ≠ none :=
    Option.isSome_iff_ne_none.mp (by cbv)
  refine ⟨failed, fun same => ?_⟩
  have lost : ((Attempt.append .strict "\x7b").run .empty letter).formula = .empty :=
    formula_append failed
  cases congrArg Formula.root (same.symm.trans lost)

end Formula

end FormulaInk
