import FormulaInk.Formula

/-! Atoms that are added one by one. The first atom is the root by itself, and a row that comes
first is the row that the others are added to. Every later atom becomes one item, a row too, and
behind an operator or a relation comes a place where the line may be broken. No such place comes
behind a row. -/

namespace FormulaInk

namespace Formula

/-- The line may be broken behind an atom that is no row and ends as a binary operator or as a
relation. -/
def Breakable (a : Atom Float32) : Prop :=
  (∀ items, a ≠ .row items) ∧ (a.rightClass = .binaryOperator ∨ a.rightClass = .relation)

theorem breaksAfter_iff (a : Atom Float32) : breaksAfter a = true ↔ Breakable a := by
  have allows (kind : AtomClass) :
      kind.allowsBreakAfter = true ↔ kind = .binaryOperator ∨ kind = .relation := by
    cases kind <;> decide
  cases a with
  | row items => simp [breaksAfter, Breakable]
  | _ => simp [breaksAfter, Breakable, allows]

instance : DecidablePred Breakable := fun a => decidable_of_iff _ (breaksAfter_iff a)

/-- What an atom becomes in a row that it is added to. -/
def marked (a : Atom Float32) : List (Atom Float32) :=
  if Breakable a then [a, .breakMark] else [a]

theorem self_mem_marked (a : Atom Float32) : a ∈ marked a := by
  unfold marked
  split <;> simp

theorem mem_marked {a b : Atom Float32} (h : b ∈ marked a) : b = a ∨ b = .breakMark := by
  unfold marked at h
  split at h
  · simpa using h
  · exact .inl (List.mem_singleton.mp h)

theorem extend_some (root a : Atom Float32) :
    extend (some root) a = .row (items root ++ marked a) := by
  by_cases h : Breakable a
  · have breaks := (breaksAfter_iff a).mpr h
    simp [extend, marked, h, breaks]
  · have breaks : ¬breaksAfter a = true := fun breaks => h ((breaksAfter_iff a).mp breaks)
    simp [extend, marked, h, breaks]

/-- Atoms that are added to a formula with content come behind its items. -/
theorem root_addAll_of_some {f : Formula} {root : Atom Float32} (h : f.root = some root)
    {atoms : List (Atom Float32)} (more : atoms ≠ []) :
    (f.addAll atoms).root = some (.row (items root ++ atoms.flatMap marked)) := by
  induction atoms generalizing f root with
  | nil => exact absurd rfl more
  | cons a rest ih =>
    have first : (f.add a).root = some (.row (items root ++ marked a)) := by
      rw [add, h, extend_some]
    cases rest with
    | nil => simpa [addAll] using first
    | cons next rest =>
      have behind := ih first (List.cons_ne_nil next rest)
      rw [addAll, List.foldl_cons, ← addAll, behind]
      simp [items]

/-- An atom that is added by itself is the root, and two atoms or more are a row. -/
theorem root_of_addAll {atoms : List (Atom Float32)} {root : Atom Float32}
    (h : (Formula.empty.addAll atoms).root = some root) :
    atoms = [root] ∨ ∃ first rest, rest ≠ [] ∧ atoms = first :: rest ∧
      root = .row (items first ++ rest.flatMap marked) := by
  match atoms with
  | [] => cases h
  | [a] =>
    have single : (Formula.empty.addAll [a]).root = some a := rfl
    obtain rfl := Option.some.inj (single.symm.trans h)
    exact .inl rfl
  | first :: next :: rest =>
    have started : (Formula.empty.add first).root = some first := rfl
    have behind := root_addAll_of_some started (List.cons_ne_nil next rest)
    exact .inr ⟨first, next :: rest, List.cons_ne_nil next rest, rfl,
      (Option.some.inj (behind.symm.trans h)).symm⟩

/-- Appending keeps the boundaries of atoms. Two atoms or more, added to an empty formula, are a
row: the items of the first atom if that is a row, else the first atom, then each of the others as
one item, followed by a place to break the line exactly if it is no row and ends as a binary
operator or as a relation. -/
theorem root_addAll (first : Atom Float32) {rest : List (Atom Float32)} (more : rest ≠ []) :
    (Formula.empty.addAll (first :: rest)).root =
      some (.row (items first ++ rest.flatMap marked)) :=
  root_addAll_of_some (f := Formula.empty.add first) rfl more

/-- A row, then a sum that ends in a plus sign, then a colored relation. -/
theorem root_addAll_row :
    let plus : Atom Float32 := .symbol "plus" '+' .binaryOperator
    let equals : Atom Float32 := .color none (some .red) (.symbol "equals" '=' .relation)
    [.row [.char 'b', plus], equals] ≠ [] ∧
      (Formula.empty.addAll [.row [plus, .char 'a'], .row [.char 'b', plus], equals]).root =
        some (.row [plus, .char 'a', .row [.char 'b', plus], equals, .breakMark]) := by
  intro plus equals
  have more : [.row [.char 'b', plus], equals] ≠ [] := List.cons_ne_nil _ _
  have root := root_addAll (.row [plus, .char 'a']) more
  have sum : ¬Breakable (.row [.char 'b', plus]) := by simp [Breakable]
  have relation : Breakable equals := by
    refine ⟨fun items => by simp [equals], .inr rfl⟩
  refine ⟨more, root.trans ?_⟩
  simp [items, marked, sum, relation]

/-- Rows are different. One that comes first loses its boundary, and one that is added later and
ends in an operator has no place to break the line behind it. -/
theorem not_root_addAll :
    let marked (a : Atom Float32) : List (Atom Float32) :=
      if a.rightClass = .binaryOperator ∨ a.rightClass = .relation then [a, .breakMark] else [a]
    (¬∀ (first : Atom Float32) (rest : List (Atom Float32)), rest ≠ [] →
      (∀ a ∈ first :: rest, a ≠ .breakMark) → (∀ a ∈ rest, ∀ items, a ≠ .row items) →
        (Formula.empty.addAll (first :: rest)).root =
          some (.row (first :: rest.flatMap marked))) ∧
      ¬∀ (first : Atom Float32) (rest : List (Atom Float32)), rest ≠ [] →
        (∀ a ∈ first :: rest, a ≠ .breakMark) → (∀ items, first ≠ .row items) →
          (Formula.empty.addAll (first :: rest)).root =
            some (.row (first :: rest.flatMap marked)) := by
  intro marked
  constructor
  · intro claim
    have kept := claim (.row [.char 'a', .char 'b']) [.char 'c'] (by simp) (by simp) (by simp)
    simp [addAll, add, extend, items, breaksAfter, Atom.rightClass, AtomClass.allowsBreakAfter,
      Formula.empty, marked] at kept
  · intro claim
    have kept := claim (.char 'a') [.row [.char 'b', .symbol "plus" '+' .binaryOperator]] (by simp)
      (by simp) (by simp)
    simp [addAll, add, extend, items, breaksAfter, Atom.rightClass, Atom.lastClass?,
      Atom.isNeutral, Formula.empty, marked] at kept

end Formula

end FormulaInk
