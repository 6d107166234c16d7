import FormulaInk.Proofs.Ink.Layout
import FormulaInk.Registry.Read

/-! The characters of a formula under edits. An edit that appends atoms puts their characters behind
those of the formula; the others wrap the tree, or change a wrapper, and keep them. -/

namespace FormulaInk

/-- The formula after an edit, if the edit did not fail. -/
def Edited.success? (e : Edited) : Option Formula :=
  match e.halt with
  | none => some e.formula
  | some _ => none

namespace Formula

/-- An edit of a formula. -/
inductive Edit where
  | add (a : Atom Float32)
  | addFormula (other : Formula)
  | addSource (source : String)
  | append (mode : Source.Mode) (source : String)
  | addSkip (kind : Skip)
  | addStrut (unit : LengthUnit) (width height depth : Float32)
  | setColor (color : Color)
  | setBackground (color : Color)
  | setFixedTypes (left right : AtomClass)
  | centerOnAxis

namespace Edit

/-- The formula after an edit with a registry, if the edit succeeds. -/
def run (e : Edit) (r : Registry) (f : Formula) : Option Formula :=
  match e with
  | add a => some (f.add a)
  | addFormula other => some (f.addFormula other)
  | addSource source => (f.addSource r source).success?
  | append mode source => (f.append r mode source).success?
  | addSkip kind => some (f.addSkip kind)
  | addStrut unit width height depth => some (f.addStrut unit width height depth)
  | setColor color => some (f.setColor color)
  | setBackground color => some (f.setBackground color)
  | setFixedTypes left right => (f.setFixedTypes left right).toOption
  | centerOnAxis => some f.centerOnAxis

/-- The formula after edits that all succeed, the first one first, each with the registry that it
finds. -/
def runAll : List (Registry × Edit) → Formula → Option Formula
  | [], f => some f
  | (r, e) :: rest, f => (e.run r f).bind (runAll rest)

/-- The atoms that an edit appends: the one that it is given, the tree of another formula, the
formula that a source is read to, the items of a source, or the space that it makes. -/
def appended (e : Edit) (r : Registry) : List (Atom Float32) :=
  match e with
  | add a => [a]
  | addFormula other => other.root.toList
  | addSource source =>
    match (r.formula .strict source).result with
    | .ok other => other.root.toList
    | .error _ => []
  | append mode source =>
    match (r.read mode source).result with
    | .ok items => items
    | .error _ => []
  | addSkip kind => [.space kind]
  | addStrut unit width height depth => [.strut ⟨unit, width⟩ ⟨unit, height⟩ ⟨unit, depth⟩]
  | setColor _ | setBackground _ | setFixedTypes .. | centerOnAxis => []

/-- The characters of the atoms that edits append, in the order of the edits. -/
def allInk (edits : List (Registry × Edit)) : List Char :=
  edits.flatMap fun (r, e) => (e.appended r).flatMap Atom.ink

end Edit

/-- The characters of a formula in the order of the layout. -/
def ink (f : Formula) : List Char := f.root.toList.flatMap Atom.ink

theorem ink_items (a : Atom Float32) : (items a).flatMap Atom.ink = a.ink := by
  cases a <;> simp [items, Atom.ink]

theorem ink_extend (root : Option (Atom Float32)) (a : Atom Float32) :
    (extend root a).ink = root.toList.flatMap Atom.ink ++ a.ink := by
  cases root with
  | none => simp [extend]
  | some root => by_cases h : breaksAfter a <;> simp [extend, h, Atom.ink, ink_items]

@[simp] theorem ink_add (f : Formula) (a : Atom Float32) : (f.add a).ink = f.ink ++ a.ink := by
  simp [ink, add, ink_extend]

@[simp] theorem ink_addAll (f : Formula) (atoms : List (Atom Float32)) :
    (f.addAll atoms).ink = f.ink ++ atoms.flatMap Atom.ink := by
  induction atoms generalizing f with
  | nil => simp [addAll]
  | cons a rest ih =>
    show ((f.add a).addAll rest).ink = _
    rw [ih, ink_add, List.append_assoc, List.flatMap_cons]

@[simp] theorem ink_addFormula (f other : Formula) :
    (f.addFormula other).ink = f.ink ++ other.root.toList.flatMap Atom.ink := by
  cases h : other.root <;> simp [addFormula, h]

theorem ink_getD (root : Option (Atom Float32)) :
    (root.getD .empty).ink = root.toList.flatMap Atom.ink := by
  cases root <;> simp [Atom.ink]

@[simp] theorem ink_setColor (f : Formula) (color : Color) : (f.setColor color).ink = f.ink := by
  rcases f with ⟨_ | root, _⟩
  · rfl
  · cases root <;> simp [setColor, ink, Atom.ink]

@[simp] theorem ink_setBackground (f : Formula) (color : Color) :
    (f.setBackground color).ink = f.ink := by
  rcases f with ⟨_ | root, _⟩
  · rfl
  · cases root <;> simp [setBackground, ink, Atom.ink]

theorem ink_setFixedTypes {f g : Formula} {left right : AtomClass}
    (h : f.setFixedTypes left right = .ok g) : g.ink = f.ink := by
  unfold setFixedTypes at h
  split at h
  · cases h
  · split at h
    · cases h
    · obtain rfl := Except.ok.inj h
      simp [ink, Atom.ink, ink_getD]

@[simp] theorem ink_centerOnAxis (f : Formula) : f.centerOnAxis.ink = f.ink := by
  simp [centerOnAxis, ink, Atom.ink, ink_getD]

theorem success_addSource {f g : Formula} {r : Registry} {source : String} :
    (f.addSource r source).success? = some g ↔
      ∃ other, (r.formula .strict source).result = .ok other ∧
        ({ f with textStyle := none } : Formula).addFormula other = g := by
  cases read : (r.formula .strict source).result <;> simp [addSource, Edited.success?, read]

theorem success_append {f g : Formula} {r : Registry} {mode : Source.Mode} {source : String} :
    (f.append r mode source).success? = some g ↔
      ∃ items, (r.read mode source).result = .ok items ∧ f.addAll items = g := by
  cases read : (r.read mode source).result <;> simp [append, Edited.success?, read]

namespace Edit

/-- An edit that succeeds puts the characters of what it appends behind those of the formula. -/
theorem ink_run {e : Edit} {r : Registry} {f g : Formula} (h : e.run r f = some g) :
    g.ink = f.ink ++ (e.appended r).flatMap Atom.ink := by
  cases e with
  | addSource source =>
    obtain ⟨other, read, rfl⟩ := success_addSource.mp h
    rw [ink_addFormula, appended, read]
    rfl
  | append mode source =>
    obtain ⟨items, read, rfl⟩ := success_append.mp h
    rw [ink_addAll, appended, read]
  | setFixedTypes left right =>
    cases fixed : f.setFixedTypes left right with
    | error _ => simp [run, fixed, Except.toOption] at h
    | ok g' =>
      obtain rfl : g' = g := by simpa [run, fixed, Except.toOption] using h
      simp [appended, ink_setFixedTypes fixed]
  | addSkip kind | addStrut unit width height depth =>
    obtain rfl := Option.some.inj h
    simp [appended, Formula.addSkip, Formula.addStrut]
  | add a | addFormula other | setColor color | setBackground color | centerOnAxis =>
    obtain rfl := Option.some.inj h
    simp [appended]

/-- After edits that succeed a formula has its characters and then those of all that was appended,
in the order of the edits. -/
theorem ink_runAll {edits : List (Registry × Edit)} {f g : Formula}
    (h : runAll edits f = some g) : g.ink = f.ink ++ allInk edits := by
  induction edits generalizing f with
  | nil =>
    obtain rfl := Option.some.inj h
    simp [allInk]
  | cons entry rest ih =>
    obtain ⟨r, e⟩ := entry
    obtain ⟨between, first, later⟩ := Option.bind_eq_some_iff.mp h
    rw [ih later, ink_run first, List.append_assoc]
    rfl

end Edit

end Formula

end FormulaInk
