import FormulaInk.Proofs.Reading.Parallel

/-! Whole sources side by side, through all levels of nesting. -/

namespace FormulaInk.Source

/-- The reader of nested sources of a source under which `levels` more levels are allowed. -/
def nestedUnder (t : Tables) : Nat → Option Nested
  | 0 => none
  | levels + 1 => some (withLevels t levels)

theorem withLevels_eq (t : Tables) (levels : Nat) (mode : Mode) (source : List Char) (m : Memo) :
    withLevels t levels mode source m = whole ⟨t, mode, nestedUnder t levels⟩ source m := by
  cases levels <;> rfl

namespace Pairing

variable {p : Pairing} {t₁ t₂ : Tables} {mode₁ mode₂ : Mode} {n₁ n₂ : Option Nested}

/-- Modes in which no reading goes on past a fault that the other one does not have. -/
structure Modes (p : Pairing) (mode₁ mode₂ : Mode) : Prop where
  strict₁ : p.lax₁ → mode₁ = .strict
  strict₂ : p.lax₂ → mode₂ = .strict
  same : p.lax₁ ∨ mode₁ = mode₂

theorem Modes.strict : p.Modes .strict .strict := ⟨fun _ => rfl, fun _ => rfl, .inr rfl⟩

theorem Modes.inner (h : p.Modes mode₁ mode₂) : p.inner.Modes mode₁ mode₂ :=
  ⟨h.strict₁, h.strict₂, h.same⟩

/-- Tables in which all names and characters are resolved to the same. A predefined formula may be
missing where the fault that this leads to is permitted. -/
structure Resolves (p : Pairing) (t₁ t₂ : Tables) : Prop where
  names : Tables.SameNames t₁ t₂
  fonts : ∀ text : String, t₂.familiesFor text.toList = p.fit text (t₁.familiesFor text.toList)
  lost₁ : ∀ name, t₁.predefined.get? name = none → t₂.predefined.get? name = none ∨ p.lax₁
  lost₂ : ∀ name, t₂.predefined.get? name = none → t₁.predefined.get? name = none ∨ p.lax₂
  same : ∀ name text₁ text₂, t₁.predefined.get? name = some text₁ →
    t₂.predefined.get? name = some text₂ → text₁ = text₂

theorem Resolves.inner (h : p.Resolves t₁ t₂) : p.inner.Resolves t₁ t₂ :=
  ⟨h.names, h.fonts, h.lost₁, h.lost₂, h.same⟩

/-- Readers of nested sources that find the same. A reader may be missing where the fault that this
leads to is permitted. -/
def Nests (p : Pairing) (mode₁ mode₂ : Mode) : Option Nested → Option Nested → Prop
  | none, none => True
  | none, some _ => p.lax₁
  | some _, none => p.lax₂
  | some n₁, some n₂ => ∀ source m₁ m₂, p.caches m₁.cache m₂.cache →
      p.inner.Values (List.map (Atom.refit p.fit)) (n₁ mode₁ source m₁) (n₂ mode₂ source m₂)

/-- Readers of nested sources with which a name comes to the same formula. -/
def Fetches (p : Pairing) (n₁ n₂ : Nested) (name text : String) : Prop :=
  ∀ m₁ m₂, p.caches m₁.cache m₂.cache →
    p.inner.Values (Formula.refit p.fit) (predefined n₁ name text m₁) (predefined n₂ name text m₂)

theorem expansion_agree (nests : p.Nests mode₁ mode₂ n₁ n₂) (source : List Char) (origin : Origin)
    (start : Nat) {m₁ m₂ : Memo} (hm : p.caches m₁.cache m₂.cache) :
    p.Values (Atom.refit p.fit) (expansion ⟨t₁, mode₁, n₁⟩ source origin start m₁)
      (expansion ⟨t₂, mode₂, n₂⟩ source origin (start + p.shift) m₂) := by
  match n₁, n₂, nests with
  | none, none, _ =>
    rw [expansion_none rfl, expansion_none rfl]
    exact .same hm rfl
  | none, some n₂, lax =>
    rw [expansion_none rfl]
    exact .first _ lax rfl
  | some n₁, none, lax =>
    rw [expansion_none (s := ⟨t₂, mode₂, none⟩) rfl]
    exact .second _ lax rfl
  | some n₁, some n₂, nests =>
    rw [expansion_some rfl, expansion_some rfl]
    exact ((nests source m₁ m₂ hm).enclose fun _ => rfl).map id Atom.group_map_refit

theorem predefinedName_agree (resolves : p.Resolves t₁ t₂) (nests : p.Nests .strict .strict n₁ n₂)
    (fetches : ∀ n₁' n₂' name text, n₁ = some n₁' → n₂ = some n₂' →
      t₁.predefined.get? name = some text → t₂.predefined.get? name = some text →
      p.Fetches n₁' n₂' name text)
    (name : String) (start : Nat) {m₁ m₂ : Memo} (hm : p.caches m₁.cache m₂.cache) :
    p.Values (Atom.refit p.fit) (predefinedName ⟨t₁, mode₁, n₁⟩ name start m₁)
      (predefinedName ⟨t₂, mode₂, n₂⟩ name (start + p.shift) m₂) := by
  cases h₁ : t₁.predefined.get? name with
  | none =>
    rw [predefinedName_unknown h₁]
    obtain h₂ | lax := resolves.lost₁ name h₁
    · rw [predefinedName_unknown h₂]
      exact .same hm rfl
    · exact .first _ lax rfl
  | some text =>
    cases h₂ : t₂.predefined.get? name with
    | none =>
      obtain h₁' | lax := resolves.lost₂ name h₂
      · cases h₁.symm.trans h₁'
      · rw [predefinedName_unknown (s := ⟨t₂, mode₂, n₂⟩) h₂]
        exact .second _ lax rfl
    | some text₂ =>
      cases resolves.same name text text₂ h₁ h₂
      match n₁, n₂, nests, fetches with
      | none, none, _, _ =>
        rw [predefinedName_none h₁ rfl, predefinedName_none h₂ rfl]
        exact .same hm rfl
      | none, some n₂, lax, _ =>
        rw [predefinedName_none h₁ rfl]
        exact .first _ lax rfl
      | some n₁, none, lax, _ =>
        rw [predefinedName_none (s := ⟨t₂, mode₂, none⟩) h₂ rfl]
        exact .second _ lax rfl
      | some n₁, some n₂, _, fetches =>
        rw [predefinedName_some h₁ rfl, predefinedName_some h₂ rfl]
        have fetched := fetches n₁ n₂ name text rfl rfl h₁ h₂ m₁ m₂ hm
        refine (fetched.enclose fun _ => rfl).map id fun f => ?_
        cases h : f.root <;> simp [Formula.refit, h, Atom.refit]

/-- Scopes are related when their tables, their modes and their readers of nested sources are. -/
theorem scopes (resolves : p.Resolves t₁ t₂) (modes : p.Modes mode₁ mode₂)
    (edge : p.tail = [] ∨ p.lax₁ ∧ ∀ ch ∈ p.tail.head?, ¬ch.isAlpha)
    (nests : p.Nests mode₁ mode₂ n₁ n₂) (strict : p.Nests .strict .strict n₁ n₂)
    (fetches : ∀ n₁' n₂' name text, n₁ = some n₁' → n₂ = some n₂' →
      t₁.predefined.get? name = some text → t₂.predefined.get? name = some text →
      p.Fetches n₁' n₂' name text) :
    p.Scopes ⟨t₁, mode₁, n₁⟩ ⟨t₂, mode₂, n₂⟩ where
  strict₁ := modes.strict₁
  strict₂ := modes.strict₂
  modes := modes.same
  edge := edge
  names := resolves.names
  fonts := resolves.fonts
  expansion source origin start _ _ hm := expansion_agree nests source origin start hm
  predefined name start _ _ hm := predefinedName_agree resolves strict fetches name start hm

/-- Whole sources read side by side come to the same. -/
theorem whole_agree {s₁ s₂ : Scope} (h : p.inner.Scopes s₁ s₂) (source : List Char) {m₁ m₂ : Memo}
    (hm : p.caches m₁.cache m₂.cache) :
    p.inner.Values (List.map (Atom.refit p.fit)) (whole s₁ source m₁) (whole s₂ source m₂) := by
  have whole := (below h (source.length + 1)).sequences none 0 [] (c := .start source)
    (Nat.lt_succ_self _) (fun _ => rfl) (.inl rfl) hm
  have place : p.inner.moved (.start source) = .start source := by
    simp [moved, inner, Cursor.start]
  rw [place] at whole
  cases whole with
  | same left found => exact .same left.2.2 found
  | first e lax found => exact .first e lax found
  | second e lax found => exact .second e lax found

/-- Caches in which the same names are found, with the same formulas. -/
structure Regular (p : Pairing) : Prop where
  get? : ∀ {c₁ c₂ : Cache}, p.caches c₁ c₂ → ∀ name,
    c₂.get? name = (c₁.get? name).map (Formula.refit p.fit)
  insert : ∀ {c₁ c₂ : Cache}, p.caches c₁ c₂ → ∀ name formula,
    p.caches (c₁.insert name formula) (c₂.insert name (Formula.refit p.fit formula))

theorem Regular.fetches (regular : p.Regular) {n₁ n₂ : Nested}
    (nests : p.Nests .strict .strict (some n₁) (some n₂)) (name text : String) :
    p.Fetches n₁ n₂ name text := by
  intro m₁ m₂ hm
  have found := regular.get? hm name
  cases hit : m₁.cache.get? name with
  | some f =>
    rw [hit] at found
    rw [predefined_of_hit hit, predefined_of_hit found]
    exact .same hm rfl
  | none =>
    rw [hit] at found
    rw [predefined_of_miss hit, predefined_of_miss found]
    cases nests text.toList m₁ m₂ hm with
    | same left same =>
      have adds (items : List (Atom Float32)) : Formula.empty.addAll (items.map (Atom.refit p.fit)) =
          (Formula.empty.addAll items).refit p.fit := Formula.addAll_refit .empty items
      cases hx : (n₁ .strict text.toList m₁).1 with
      | ok items =>
        rw [hx] at same
        refine .same ?_ (by rw [same]; exact congrArg Except.ok (adds items))
        rw [same]
        show p.caches _ (Dictionary.insert _ name (Formula.empty.addAll (items.map _)))
        rw [adds]
        exact regular.insert left name _
      | error e =>
        rw [hx] at same
        refine .same ?_ (by rw [same]; rfl)
        rw [same]
        exact left
    | first e lax fault => exact .first e lax (by rw [fault]; rfl)
    | second e lax fault => exact .second e lax (by rw [fault]; rfl)

theorem Regular.fetches_of_nests (regular : p.Regular) (strict : p.Nests .strict .strict n₁ n₂) :
    ∀ n₁' n₂' name text, n₁ = some n₁' → n₂ = some n₂' → t₁.predefined.get? name = some text →
      t₂.predefined.get? name = some text → p.Fetches n₁' n₂' name text := by
  rintro n₁' n₂' name text rfl rfl _ _
  exact regular.fetches strict name text

theorem nests_under (regular : p.Regular) (resolves : p.Resolves t₁ t₂) (levels : Nat)
    (modes : p.Modes mode₁ mode₂) :
    p.Nests mode₁ mode₂ (nestedUnder t₁ levels) (nestedUnder t₂ levels) := by
  induction levels generalizing mode₁ mode₂ with
  | zero => trivial
  | succ levels ih =>
    intro source m₁ m₂ hm
    rw [withLevels_eq, withLevels_eq]
    exact whole_agree (scopes resolves.inner modes.inner (.inl rfl) (ih modes) (ih .strict)
      (regular.fetches_of_nests (ih .strict))) source hm

/-- Scopes of the same level are related when their tables and their modes are. -/
theorem scopes_under (regular : p.Regular) (resolves : p.Resolves t₁ t₂) (levels : Nat)
    (modes : p.Modes mode₁ mode₂)
    (edge : p.tail = [] ∨ p.lax₁ ∧ ∀ ch ∈ p.tail.head?, ¬ch.isAlpha) :
    p.Scopes ⟨t₁, mode₁, nestedUnder t₁ levels⟩ ⟨t₂, mode₂, nestedUnder t₂ levels⟩ :=
  scopes resolves modes edge (nests_under regular resolves levels modes)
    (nests_under regular resolves levels .strict)
    (regular.fetches_of_nests (nests_under regular resolves levels .strict))

/-- Readings of the same source in tables that resolve names to the same come to the same. -/
theorem withLevels_agree (regular : p.Regular) (resolves : p.Resolves t₁ t₂)
    (modes : p.Modes mode₁ mode₂) (levels : Nat) (source : List Char) {m₁ m₂ : Memo}
    (hm : p.caches m₁.cache m₂.cache) :
    p.inner.Values (List.map (Atom.refit p.fit)) (withLevels t₁ levels mode₁ source m₁)
      (withLevels t₂ levels mode₂ source m₂) :=
  nests_under regular resolves (levels + 1) modes source m₁ m₂ hm

/-- The pairing in which nothing is said once the first reading is at fault. -/
def successes : Pairing := { lax₁ := True }

section Keep

variable (keep : p.fit = fun _ font => font)

include keep

theorem map_refit_keep (items : List (Atom Float32)) : items.map (Atom.refit p.fit) = items := by
  rw [keep, List.map_congr_left fun a _ => Atom.refit_keep a, List.map_id']

theorem formula_refit_keep (f : Formula) : f.refit p.fit = f := by
  rcases f with ⟨_ | root, _⟩
  · rfl
  · rw [keep, Formula.refit, Option.map_some, Atom.refit_keep]

theorem regular_of_eq (caches : p.caches = Eq) : p.Regular where
  get? := by
    rw [caches]
    rintro c _ rfl name
    cases c.get? name with
    | none => rfl
    | some f => exact congrArg some (formula_refit_keep keep f).symm
  insert := by
    rw [caches]
    rintro c _ rfl name f
    rw [formula_refit_keep keep]

theorem resolves_self (t : Tables) : p.Resolves t t where
  names := ⟨rfl, rfl, rfl, rfl⟩
  fonts _ := by rw [keep]
  lost₁ _ := .inl
  lost₂ _ := .inl
  same _ _ _ h₁ h₂ := Option.some.inj (h₁.symm.trans h₂)

end Keep

end Pairing

end FormulaInk.Source
