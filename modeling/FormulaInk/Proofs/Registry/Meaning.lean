import FormulaInk.Proofs.Reading.Levels

/-! What the names of predefined formulas come to, whatever was read before. A name has at most one
meaning. It keeps it when more names are registered, and other font families change nothing but the
families of its texts. -/

namespace FormulaInk

open Source

/-- The formula that a name comes to: its source is read as this formula, under some levels, from a
cache that holds for every name what that name comes to. -/
inductive Means (t : Tables) : String → Formula → Prop where
  | intro {name text : String} {levels : Nat} {m : Memo} {items : List (Atom Float32)} :
      t.predefined.get? name = some text →
      (∀ other f, m.cache.get? other = some f → Means t other f) →
      (withLevels t levels .strict text.toList m).1 = .ok items →
      Means t name (Formula.empty.addAll items)

/-- All formulas of a cache are of the given kind. -/
def Cache.All (P : String → Formula → Prop) (c : Cache) : Prop :=
  ∀ name f, c.get? name = some f → P name f

theorem Cache.All.insert {P : String → Formula → Prop} {c : Cache} (h : Cache.All P c)
    {name : String} {f : Formula} (hf : P name f) : Cache.All P (c.insert name f) := by
  intro other g hg
  rw [Dictionary.get?_insert] at hg
  split at hg
  · rename_i same
    cases same
    cases hg
    exact hf
  · exact h other g hg

namespace Source

variable {P : String → Formula → Prop} {t : Tables}

/-- Sources of names are read as formulas of the given kind, from caches of such formulas. -/
def Yields (P : String → Formula → Prop) (t : Tables) (levels : Nat) : Prop :=
  ∀ {name text : String} {m : Memo} {items : List (Atom Float32)}, Cache.All P m.cache →
    t.predefined.get? name = some text →
    (withLevels t levels .strict text.toList m).1 = .ok items →
    P name (Formula.empty.addAll items)

theorem predefined_all (nested : Nested) (name text : String) {m : Memo}
    (hm : Cache.All P m.cache) (after : Cache.All P (nested .strict text.toList m).2.cache)
    (found : ∀ items, (nested .strict text.toList m).1 = .ok items →
      P name (Formula.empty.addAll items)) :
    Cache.All P (predefined nested name text m).2.cache ∧
      ∀ f, (predefined nested name text m).1 = .ok f → P name f := by
  cases hit : m.cache.get? name with
  | some f =>
    rw [predefined_of_hit hit]
    refine ⟨hm, fun g hg => ?_⟩
    cases hg
    exact hm name f hit
  | none =>
    rw [predefined_of_miss hit]
    cases hx : (nested .strict text.toList m).1 with
    | ok items =>
      refine ⟨after.insert (found items hx), fun f hf => ?_⟩
      cases hf
      exact found items hx
    | error e => exact ⟨after, fun _ hf => by cases hf⟩

/-- The pairing of a reading with itself, from a cache of formulas of the given kind. -/
def kept (P : String → Formula → Prop) : Pairing :=
  { caches := fun c c' => c = c' ∧ Cache.All P c }

theorem modes_kept (mode : Mode) : (kept P).Modes mode mode := ⟨False.elim, False.elim, .inr rfl⟩

theorem Cache.All.of_nests {nested : Nested} {mode : Mode}
    (nests : (kept P).Nests mode mode (some nested) (some nested)) {source : List Char} {m : Memo}
    (hm : Cache.All P m.cache) : Cache.All P (nested mode source m).2.cache := by
  cases nests source m m ⟨rfl, hm⟩ with
  | same left _ => exact left.2
  | first e lax => exact lax.elim
  | second e lax => exact lax.elim

theorem fetches_kept {levels : Nat} (yields : Yields P t levels)
    (nests : (kept P).Nests .strict .strict (nestedUnder t (levels + 1)) (nestedUnder t (levels + 1)))
    {name text : String} (known : t.predefined.get? name = some text) :
    (kept P).Fetches (withLevels t levels) (withLevels t levels) name text := by
  intro m₁ m₂ hm
  have plain : ({} : Pairing).Nests .strict .strict (nestedUnder t (levels + 1))
      (nestedUnder t (levels + 1)) :=
    Pairing.nests_under (Pairing.regular_of_eq rfl rfl) (Pairing.resolves_self rfl t) _ .strict
  have regular : ({} : Pairing).Regular := Pairing.regular_of_eq rfl rfl
  have all := predefined_all (withLevels t levels) name text hm.2
    (Cache.All.of_nests nests hm.2) fun items found => yields hm.2 known found
  cases regular.fetches plain name text m₁ m₂ hm.1 with
  | same left found => exact .same ⟨left, all.1⟩ found
  | first e lax => exact lax.elim
  | second e lax => exact lax.elim

theorem nests_kept {n : Nat} (yields : ∀ levels < n, Yields P t levels) (levels : Nat)
    (hl : levels ≤ n + 1) (mode : Mode) :
    (kept P).Nests mode mode (nestedUnder t levels) (nestedUnder t levels) := by
  induction levels generalizing mode with
  | zero => trivial
  | succ levels ih =>
    intro source m₁ m₂ hm
    rw [withLevels_eq, withLevels_eq]
    have below := ih (by omega)
    refine Pairing.whole_agree (Pairing.scopes (Pairing.resolves_self rfl t) (modes_kept mode).inner
      (.inl rfl) (below mode) (below .strict) ?_) source hm
    intro n₁ n₂ name text h₁ h₂ known _
    cases levels with
    | zero => cases h₁
    | succ levels =>
      cases h₁
      cases h₂
      exact fetches_kept (yields levels (by omega)) (below .strict) known

/-- Reading keeps the kind of the formulas in the cache. -/
theorem cache_withLevels_all {n : Nat} (yields : ∀ levels < n, Yields P t levels) (mode : Mode)
    (source : List Char) {m : Memo} (hm : Cache.All P m.cache) :
    Cache.All P (withLevels t n mode source m).2.cache :=
  Cache.All.of_nests (nests_kept yields (n + 1) (Nat.le_refl _) mode) hm

end Source

/-- Tables with the entries of others, but for some predefined formulas. -/
structure Tables.Within (t₀ t : Tables) : Prop where
  names : Source.Tables.SameNames t₀ t
  fonts : t.fonts = t₀.fonts
  predefined : ∀ name text, t₀.predefined.get? name = some text →
    t.predefined.get? name = some text

theorem Tables.Within.refl (t : Tables) : t.Within t :=
  ⟨⟨rfl, rfl, rfl, rfl⟩, rfl, fun _ _ => id⟩

theorem Tables.Within.familiesFor {t₀ t : Tables} (h : t₀.Within t) (text : List Char) :
    t.familiesFor text = t₀.familiesFor text := by
  unfold Tables.familiesFor Tables.families
  rw [h.fonts]

/-- A formula that a name can only come to in the tables, if it comes to any. -/
def Tables.Admits (t : Tables) (name : String) (f : Formula) : Prop := ∀ g, Means t name g → f = g

namespace Means

variable {t t₀ : Tables} {name : String} {f g : Formula}

theorem known (h : Means t name f) : ∃ text, t.predefined.get? name = some text := by
  cases h with
  | intro known _ _ => exact ⟨_, known⟩

theorem yields (levels : Nat) : Yields (Means t) t levels :=
  fun all known found => .intro known all found

/-- The pairing of readings of which only the successful ones are compared: in the first the cache
holds what the tables of the second admit, in the second what names come to. -/
def admitted (t₀ : Tables) : Pairing :=
  { caches := fun c₁ c₂ => Cache.All t₀.Admits c₁ ∧ Cache.All (Means t₀) c₂
    lax₁ := True
    lax₂ := True }

/-- Whatever is read in some tables from formulas that smaller tables admit is what is read in the
smaller tables. -/
def Confirms (t₀ t : Tables) (levels : Nat) : Prop :=
  ∀ {levels₀ : Nat} {source : List Char} {m m₀ : Memo} {items items₀ : List (Atom Float32)},
    Cache.All t₀.Admits m.cache → Cache.All (Means t₀) m₀.cache →
    (withLevels t levels .strict source m).1 = .ok items →
    (withLevels t₀ levels₀ .strict source m₀).1 = .ok items₀ → items = items₀

theorem yields_admitted (within : t₀.Within t) {levels : Nat} (confirms : Confirms t₀ t levels) :
    Yields t₀.Admits t levels := by
  intro name text m items hm known found g means
  cases means with
  | intro known₀ hm₀ found₀ =>
    cases known.symm.trans (within.predefined _ _ known₀)
    rw [confirms hm hm₀ found found₀]

theorem resolves_admitted (within : t₀.Within t) : (admitted t₀).Resolves t t₀ where
  names := ⟨within.names.symbols.symm, within.names.mappings.symm, within.names.charFormulas.symm,
    within.names.commands.symm⟩
  fonts text := (within.familiesFor text.toList).symm
  lost₁ _ _ := .inr trivial
  lost₂ _ _ := .inr trivial
  same _ _ _ h₁ h₂ := Option.some.inj (h₁.symm.trans (within.predefined _ _ h₂))

theorem nests_admitted (within : t₀.Within t) {n : Nat}
    (confirms : ∀ levels < n, Confirms t₀ t levels) (levels₀ : Nat) :
    (admitted t₀).Nests .strict .strict (nestedUnder t n) (nestedUnder t₀ levels₀) := by
  cases n with
  | zero => cases levels₀ <;> trivial
  | succ n =>
    cases levels₀ with
    | zero => trivial
    | succ levels₀ =>
      intro source m₁ m₂ hm
      cases h₁ : (withLevels t n .strict source m₁).1 with
      | error e => exact .first e trivial h₁
      | ok items =>
        cases h₂ : (withLevels t₀ levels₀ .strict source m₂).1 with
        | error e => exact .second e trivial h₂
        | ok items₀ =>
          refine .same ⟨?_, ?_⟩ ?_
          · exact cache_withLevels_all (fun levels hl =>
              yields_admitted within (confirms levels (by omega))) .strict source hm.1
          · exact cache_withLevels_all (fun levels _ => yields levels) .strict source hm.2
          · rw [h₁, h₂, confirms n (by omega) hm.1 hm.2 h₁ h₂]
            exact congrArg Except.ok (Pairing.map_refit_keep rfl items₀).symm

theorem fetches_admitted (within : t₀.Within t) {levels levels₀ : Nat}
    (confirms : ∀ below ≤ levels, Confirms t₀ t below) {name text : String}
    (known : t.predefined.get? name = some text) (known₀ : t₀.predefined.get? name = some text) :
    (admitted t₀).Fetches (withLevels t levels) (withLevels t₀ levels₀) name text := by
  intro m₁ m₂ hm
  have first := predefined_all (withLevels t levels) name text hm.1
    (cache_withLevels_all (fun below hb =>
      yields_admitted within (confirms below (Nat.le_of_lt hb))) .strict _ hm.1)
    fun items found => yields_admitted within (confirms levels (Nat.le_refl _)) hm.1 known found
  have second := predefined_all (withLevels t₀ levels₀) name text hm.2
    (cache_withLevels_all (fun below _ => yields below) .strict _ hm.2)
    fun items found => yields levels₀ hm.2 known₀ found
  cases h₁ : (predefined (withLevels t levels) name text m₁).1 with
  | error e => exact .first e trivial h₁
  | ok f =>
    cases h₂ : (predefined (withLevels t₀ levels₀) name text m₂).1 with
    | error e => exact .second e trivial h₂
    | ok g =>
      refine .same ⟨first.1, second.1⟩ ?_
      rw [h₁, h₂, first.2 f h₁ g (second.2 g h₂)]
      exact congrArg Except.ok (Pairing.formula_refit_keep rfl g).symm

theorem confirms (within : t₀.Within t) (levels : Nat) : Confirms t₀ t levels := by
  induction levels using Nat.strongRecOn with
  | ind levels ih =>
    intro levels₀ source m m₀ items items₀ hm hm₀ found found₀
    rw [withLevels_eq] at found found₀
    have caches : (admitted t₀).caches m.cache m₀.cache := ⟨hm, hm₀⟩
    have nests := nests_admitted within ih levels₀
    have agree := Pairing.whole_agree (Pairing.scopes (resolves_admitted within).inner
      Pairing.Modes.strict.inner (.inl rfl) nests nests fun n₁ n₂ name text h₁ h₂ known known₀ => by
        cases levels with
        | zero => cases h₁
        | succ levels =>
          cases levels₀ with
          | zero => cases h₂
          | succ levels₀ =>
            cases h₁
            cases h₂
            exact fetches_admitted within (fun below hb => ih below (by omega)) known known₀)
      source caches
    cases agree with
    | same _ same =>
      rw [found, found₀] at same
      exact (Pairing.map_refit_keep rfl items).symm.trans (Except.ok.inj same).symm
    | first e _ fault => cases found.symm.trans fault
    | second e _ fault => cases found₀.symm.trans fault

/-- What a cache admits stays so in any reading. -/
theorem admits_withLevels (within : t₀.Within t) (levels : Nat) (mode : Mode) (source : List Char)
    {m : Memo} (hm : Cache.All t₀.Admits m.cache) :
    Cache.All t₀.Admits (withLevels t levels mode source m).2.cache :=
  cache_withLevels_all (fun below _ => yields_admitted within (confirms within below)) mode source hm

theorem admits_predefined (within : t₀.Within t) {text : String}
    (known : t.predefined.get? name = some text) (levels : Nat) {m : Memo}
    (hm : Cache.All t₀.Admits m.cache) :
    Cache.All t₀.Admits (predefined (withLevels t levels) name text m).2.cache ∧
      ∀ f, (predefined (withLevels t levels) name text m).1 = .ok f → t₀.Admits name f :=
  predefined_all (withLevels t levels) name text hm
    (admits_withLevels within levels .strict text.toList hm)
    fun _ found => yields_admitted within (confirms within levels) hm known found

/-- A name comes to one formula at most. -/
theorem unique (hf : Means t name f) (hg : Means t name g) : f = g := by
  induction hf generalizing g with
  | intro known hm found ih =>
    exact yields_admitted (.refl t) (confirms (.refl t) _) (fun other f hit g => ih other f hit)
      known found g hg

theorem resolves_larger (within : t₀.Within t) : Pairing.successes.Resolves t₀ t where
  names := within.names
  fonts text := within.familiesFor text.toList
  lost₁ _ _ := .inr trivial
  lost₂ name h := by
    cases h₀ : t₀.predefined.get? name with
    | none => exact .inl rfl
    | some text => cases h.symm.trans (within.predefined name text h₀)
  same _ _ _ h₁ h₂ := Option.some.inj ((within.predefined _ _ h₁).symm.trans h₂)

/-- A name that comes to a formula comes to it in larger tables. -/
theorem mono (within : t₀.Within t) (h : Means t₀ name f) : Means t name f := by
  induction h with
  | @intro name text levels m items known hm found ih =>
    have caches : Pairing.successes.caches m.cache m.cache := rfl
    cases Pairing.withLevels_agree (Pairing.regular_of_eq rfl rfl) (resolves_larger within) .strict
      levels text.toList caches with
    | same _ same =>
      rw [found, Pairing.carry, Pairing.map_refit_keep rfl] at same
      exact .intro (within.predefined name text known) ih same
    | first e _ fault => cases found.symm.trans fault
    | second e lax => exact lax.elim

end Means

section Fonts

variable (fit : String → Families → Families)

/-- The cache with the families of all texts replaced. -/
def Cache.refit (c : Cache) : Cache := ⟨c.entries.map fun entry => (entry.1, entry.2.refit fit)⟩

theorem Cache.get?_refit (c : Cache) (name : String) :
    (c.refit fit).get? name = (c.get? name).map (Formula.refit fit) := by
  obtain ⟨entries⟩ := c
  simp only [Cache.refit, Dictionary.get?]
  induction entries with
  | nil => rfl
  | cons entry rest ih =>
    simp only [List.map_cons, Dictionary.lookup]
    split
    · rfl
    · exact ih

/-- The pairing of readings whose texts get other families. -/
def refitted : Pairing :=
  { fit
    caches := fun c₁ c₂ => ∀ name, c₂.get? name = (c₁.get? name).map (Formula.refit fit) }

theorem regular_refitted : (refitted fit).Regular where
  get? h := h
  insert h name f other := by
    rw [Dictionary.get?_insert, Dictionary.get?_insert]
    split
    · rfl
    · exact h other

end Fonts

/-- Tables that differ in their fonts. -/
structure Tables.SameSources (t t' : Tables) : Prop where
  names : Source.Tables.SameNames t t'
  predefined : t'.predefined = t.predefined

/-- The families that tables give texts. -/
def Tables.fit (t : Tables) (run : String) (_ : Families) : Families := t.familiesFor run.toList

namespace Means

variable {t t' : Tables} {name : String} {f : Formula}

theorem resolves_fonts (same : t.SameSources t') : (refitted t'.fit).Resolves t t' where
  names := same.names
  fonts _ := rfl
  lost₁ name h := .inl (by rw [same.predefined]; exact h)
  lost₂ name h := .inl (by rw [same.predefined] at h; exact h)
  same _ _ _ h₁ h₂ := by
    rw [same.predefined] at h₂
    exact Option.some.inj (h₁.symm.trans h₂)

/-- With other fonts a name comes to the same formula with other families for its texts. -/
theorem fonts (same : t.SameSources t') (h : Means t name f) : Means t' name (f.refit t'.fit) := by
  induction h with
  | @intro name text levels m items known hm found ih =>
    have all : Cache.All (Means t') (m.cache.refit t'.fit) := by
      intro other g hg
      rw [Cache.get?_refit] at hg
      obtain ⟨f, hit, rfl⟩ := Option.map_eq_some_iff.mp hg
      exact ih other f hit
    have caches : (refitted t'.fit).caches m.cache
        ({ cache := m.cache.refit t'.fit } : Memo).cache :=
      Cache.get?_refit t'.fit m.cache
    have adds : Formula.empty.addAll (items.map (Atom.refit t'.fit)) =
        (Formula.empty.addAll items).refit t'.fit := Formula.addAll_refit .empty items
    cases Pairing.withLevels_agree (regular_refitted t'.fit) (resolves_fonts same) .strict levels
      text.toList caches with
    | same _ same' =>
      rw [found, Pairing.carry] at same'
      rw [← adds]
      exact .intro (m := { cache := m.cache.refit t'.fit }) (by rw [same.predefined, known]) all same'
    | first e lax => exact lax.elim
    | second e lax => exact lax.elim

/-- The texts of what a name comes to have the families of the tables. -/
theorem refit_eq (h : Means t name f) : f.refit t.fit = f :=
  (h.unique (h.fonts ⟨⟨rfl, rfl, rfl, rfl⟩, rfl⟩)).symm

end Means

end FormulaInk
