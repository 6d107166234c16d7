import Mathlib
import FormulaInk.Proofs.Registry.Meaning
import FormulaInk.Proofs.Registry.Read
import FormulaInk.Registry.Merge

/-! The cache of predefined formulas under registrations. A registration forgets what was read under
its own name only, and a font for another block than Basic Latin nothing at all. So a cached formula
may be outdated: a name that it refers to was registered anew, or it has text in the block. What is
fetched for a name that refers to no outdated formula is what its source is read to. -/

namespace FormulaInk

open Source

/-- Whether a name comes to a formula in the tables without the given names. -/
def Tables.ReadsWithout (t : Tables) (names : String → Prop) (name : String) : Prop :=
  ∃ t₀ f, t₀.Within t ∧ (∀ other, names other → t₀.predefined.get? other = none) ∧ Means t₀ name f

/-- The block of a text: that of its first character that is not blank. -/
def Text.blockOf (text : List Char) : Block :=
  ((text.find? (!isBlank ·)).map Block.ofChar).getD .basicLatin

/-- Whether a formula has text in a block. -/
def Formula.TextIn (f : Formula) (block : Text.Block) : Prop :=
  ∃ root ∈ f.root, ∃ run ∈ root.runs, Text.blockOf run.toList = block

/-- A call on a registry: a registration, or a call that reads. -/
inductive Call where
  | register (name source : String)
  | registerDocument (text : String)
  | registerFont (block : Text.Block) (sansSerif serif : Option String)
  | registerFamily (block : Text.Block) (family : String)
  | get (name : String)
  | read (mode : Mode) (source : String)

namespace Registry

/-- The registry that a call leaves. -/
def call (r : Registry) : Call → Registry
  | .register name source => r.registerPredefined name source
  | .registerDocument text => (r.addPredefined text).1
  | .registerFont block sansSerif serif => r.registerFont block sansSerif serif
  | .registerFamily block family => r.registerFamily block family
  | .get name => (r.get name).registry
  | .read mode source => (r.read mode source).registry

/-- The registry that calls leave, the first one first. -/
def calls (r : Registry) (list : List Call) : Registry := list.foldl call r

end Registry

/-- A registry with the names whose cached formulas may differ from what the names come to. -/
structure Tracked where
  registry : Registry
  outdated : String → Prop

namespace Tracked

/-- A registry as it is found. -/
def start (r : Registry) : Tracked where
  registry := r
  outdated name := ∃ f g, r.cache.get? name = some f ∧ Means r.toTables name g ∧ f ≠ g

/-- A name is registered. The cached formulas that refer to it are outdated from now on. -/
def register (s : Tracked) (name source : String) : Tracked where
  registry := s.registry.registerPredefined name source
  outdated other := other ≠ name ∧ (s.outdated other ∨ s.registry.cache.contains other ∧
    ¬s.registry.ReadsWithout (fun n => n = name ∨ s.outdated n) other)

/-- A font is registered. The cached formulas with text in its block are outdated from now on, but
for Basic Latin, which leaves none. -/
def registerFont (s : Tracked) (block : Text.Block) (sansSerif serif : Option String) :
    Tracked where
  registry := s.registry.registerFont block sansSerif serif
  outdated other := block ≠ .basicLatin ∧
    (s.outdated other ∨ ∃ f, s.registry.cache.get? other = some f ∧ f.TextIn block)

/-- Names are registered, the first one first. -/
def registerAll (s : Tracked) (formulas : List (String × String)) : Tracked :=
  formulas.foldl (fun s entry => s.register entry.1 entry.2) s

/-- What a call leaves. -/
def call (s : Tracked) : Call → Tracked
  | .register name source => s.register name source
  | .registerDocument text =>
    match Document.sourcesOfText? text with
    | none => s
    | some sources => s.registerAll sources.entries
  | .registerFont block sansSerif serif => s.registerFont block sansSerif serif
  | .registerFamily block family => s.registerFont block (some family) (some family)
  | .get name => { s with registry := (s.registry.get name).registry }
  | .read mode source => { s with registry := (s.registry.read mode source).registry }

/-- What calls leave, the first one first. -/
def calls (s : Tracked) (list : List Call) : Tracked := list.foldl call s

theorem registry_registerAll (s : Tracked) (formulas : List (String × String)) :
    (s.registerAll formulas).registry = s.registry.registerAll formulas := by
  induction formulas generalizing s with
  | nil => rfl
  | cons entry rest ih => exact ih (s.register entry.1 entry.2)

theorem registry_call (s : Tracked) (c : Call) : (s.call c).registry = s.registry.call c := by
  cases c with
  | registerDocument text =>
    rw [call, Registry.call, Registry.addPredefined]
    cases Document.sourcesOfText? text with
    | none => rfl
    | some sources => exact s.registry_registerAll sources.entries
  | _ => rfl

theorem registry_calls (s : Tracked) (list : List Call) :
    (s.calls list).registry = s.registry.calls list := by
  induction list generalizing s with
  | nil => rfl
  | cons c rest ih =>
    show ((s.call c).calls rest).registry = (s.registry.call c).calls rest
    rw [ih, registry_call]

/-- Every cached formula is what its name can come to without outdated names. -/
def Coherent (s : Tracked) : Prop :=
  ∀ t₀ : Tables, t₀.Within s.registry.toTables →
    (∀ name, s.outdated name → t₀.predefined.get? name = none) →
    Cache.All t₀.Admits s.registry.cache

theorem coherent_start (r : Registry) : (start r).Coherent := by
  intro t₀ within avoids name f hit g means
  refine Classical.byContradiction fun differ => ?_
  have missing := avoids name ⟨f, g, hit, means.mono within, differ⟩
  obtain ⟨text, known⟩ := means.known
  cases missing.symm.trans known

theorem Coherent.register {s : Tracked} (h : s.Coherent) (name source : String) :
    (s.register name source).Coherent := by
  intro t₀ within avoids other f hit g means
  obtain ⟨text, known⟩ := means.known
  have current : ¬(s.register name source).outdated other := by
    intro outdated
    cases (avoids other outdated).symm.trans known
  replace hit : (s.registry.cache.erase name).get? other = some f := hit
  rw [Dictionary.get?_erase] at hit
  split at hit
  · cases hit
  rename_i different
  have reads : s.registry.ReadsWithout (fun n => n = name ∨ s.outdated n) other := by
    refine Classical.byContradiction fun refers => current ⟨Ne.symm different, .inr ⟨?_, refers⟩⟩
    rw [Dictionary.contains, hit]
    rfl
  obtain ⟨t₁, f₁, within₁, avoids₁, means₁⟩ := reads
  have same : f = f₁ := h t₁ within₁ (fun n hn => avoids₁ n (.inr hn)) other f hit f₁ means₁
  have within' : t₁.Within (s.register name source).registry.toTables := by
    refine ⟨⟨within₁.names.symbols, within₁.names.mappings, within₁.names.charFormulas,
      within₁.names.commands⟩, within₁.fonts, fun n text hn => ?_⟩
    show (s.registry.predefined.insert name source).get? n = some text
    rw [Dictionary.get?_insert, if_neg ?_]
    · exact within₁.predefined n text hn
    · intro taken
      cases (avoids₁ n (.inl taken.symm)).symm.trans hn
  rw [same]
  exact (means₁.mono within').unique (means.mono within)

theorem Coherent.registerAll {s : Tracked} (h : s.Coherent) (formulas : List (String × String)) :
    (s.registerAll formulas).Coherent := by
  induction formulas generalizing s with
  | nil => exact h
  | cons entry rest ih => exact ih (h.register entry.1 entry.2)

theorem familiesFor_registerFont {r : Registry} {block : Text.Block} {text : List Char}
    (sansSerif serif : Option String) (h : Text.blockOf text ≠ block) :
    (r.registerFont block sansSerif serif).familiesFor text = r.familiesFor text := by
  show ((r.registerFont block sansSerif serif).fonts.get? (Text.blockOf text)).getD _ =
    (r.fonts.get? (Text.blockOf text)).getD _
  simp only [Registry.registerFont]
  split
  · rw [Dictionary.get?_erase, if_neg (Ne.symm h)]
  · rw [Dictionary.get?_insert, if_neg (Ne.symm h)]

theorem Coherent.registerFont {s : Tracked} (h : s.Coherent) (block : Text.Block)
    (sansSerif serif : Option String) : (s.registerFont block sansSerif serif).Coherent := by
  intro t₀ within avoids name f hit g means
  replace hit : (if block = .basicLatin then (.empty : Cache) else s.registry.cache).get? name =
    some f := hit
  split at hit
  · cases hit
  rename_i other
  obtain ⟨text, known⟩ := means.known
  have current : ¬(s.registerFont block sansSerif serif).outdated name := by
    intro outdated
    cases (avoids name outdated).symm.trans known
  -- the same names with the fonts from before
  have sources : t₀.SameSources { t₀ with fonts := s.registry.fonts } := ⟨⟨rfl, rfl, rfl, rfl⟩, rfl⟩
  have before := h { t₀ with fonts := s.registry.fonts }
    ⟨⟨within.names.symbols, within.names.mappings, within.names.charFormulas,
      within.names.commands⟩, rfl, within.predefined⟩
    (fun n hn => avoids n ⟨other, .inl hn⟩) name f hit _ (means.fonts sources)
  have untouched : g.refit t₀.fit = g.refit ({ t₀ with fonts := s.registry.fonts } : Tables).fit := by
    refine Formula.refit_congr fun root hroot run hrun => funext fun _ => ?_
    have outside : Text.blockOf run.toList ≠ block := by
      intro inside
      have same : f.root = g.root.map (Atom.refit _) := congrArg Formula.root before
      rw [hroot] at same
      exact current ⟨other, .inr ⟨f, hit, _, same, run, by rwa [Atom.runs_refit], inside⟩⟩
    exact (within.familiesFor run.toList).symm.trans
      (familiesFor_registerFont sansSerif serif outside)
  rw [before, ← untouched, means.refit_eq]

theorem Coherent.get {s : Tracked} (h : s.Coherent) (name : String) :
    (s.call (.get name)).Coherent := by
  intro t₀ within avoids
  replace within : t₀.Within s.registry.toTables := s.registry.toTables_get name ▸ within
  have all : Cache.All t₀.Admits s.registry.cache := h t₀ within avoids
  show Cache.All t₀.Admits (s.registry.get name).registry.cache
  cases hit : s.registry.cache.get? name with
  | some f => rwa [Registry.get_of_hit hit]
  | none =>
    cases known : s.registry.predefined.get? name with
    | none => rwa [Registry.get_of_unknown hit known]
    | some text =>
      rw [Registry.get_of_miss hit known]
      exact (Means.admits_predefined within known maxDepth all).1

theorem Coherent.read {s : Tracked} (h : s.Coherent) (mode : Mode) (source : String) :
    (s.call (.read mode source)).Coherent := by
  intro t₀ within avoids
  replace within : t₀.Within s.registry.toTables := within
  exact Means.admits_withLevels (m := { cache := s.registry.cache }) within maxDepth mode
    source.toList (h t₀ within avoids)

theorem Coherent.call {s : Tracked} (h : s.Coherent) (c : Call) : (s.call c).Coherent := by
  cases c with
  | register name source => exact h.register name source
  | registerDocument text =>
    rw [Tracked.call]
    split
    · exact h
    · exact h.registerAll _
  | registerFont block sansSerif serif => exact h.registerFont block sansSerif serif
  | registerFamily block family => exact h.registerFont block (some family) (some family)
  | get name => exact h.get name
  | read mode source => exact h.read mode source

theorem Coherent.calls {s : Tracked} (h : s.Coherent) (list : List Call) :
    (s.calls list).Coherent := by
  induction list generalizing s with
  | nil => exact h
  | cons c rest ih => exact ih (h.call c)

/-- A name that was not predefined leaves nothing outdated, if nothing is and the cached names all
come to formulas. -/
theorem not_outdated_register {s : Tracked} {name : String} (source : String)
    (current : ∀ other, ¬s.outdated other) (new : s.registry.predefined.get? name = none)
    (cached : ∀ other, s.registry.cache.contains other → ∃ f, Means s.registry.toTables other f)
    (other : String) : ¬(s.register name source).outdated other := by
  rintro ⟨-, old | ⟨hit, refers⟩⟩
  · exact current other old
  · obtain ⟨f, means⟩ := cached other hit
    refine refers ⟨_, f, .refl _, ?_, means⟩
    rintro n (rfl | old)
    · exact new
    · exact absurd old (current n)

end Tracked

namespace Registry

/-- The names whose cached formulas may be outdated after calls. -/
def outdated (r : Registry) (list : List Call) : String → Prop :=
  ((Tracked.start r).calls list).outdated

/-- What the source of a name is read to with an empty cache is what the name comes to. -/
theorem means_of_formula {r : Registry} {name text : String} {f : Formula}
    (source : r.predefined.get? name = some text)
    (fresh : (({ r with cache := .empty } : Registry).formula .strict text).result = .ok f) :
    Means r.toTables name f := by
  obtain ⟨items, found, rfl⟩ := formula_ok.mp fresh
  refine .intro source (fun other g hit => ?_) found
  rw [Dictionary.get?_empty] at hit
  cases hit

/-- The cache is coherent but for outdated formulas. After any registrations and readings, what is
fetched for a name that comes to a formula without the outdated names is the formula of its source
in a registry with the same tables and an empty cache. -/
theorem get_eq_formula (r : Registry) (list : List Call) {name text : String} {f g : Formula}
    (reads : (r.calls list).ReadsWithout (r.outdated list) name)
    (fetched : ((r.calls list).get name).result = .ok f)
    (source : (r.calls list).predefined.get? name = some text)
    (fresh : (({ r.calls list with cache := .empty } : Registry).formula .strict text).result =
      .ok g) :
    f = g := by
  obtain ⟨t₀, g₀, within, avoids, means₀⟩ := reads
  have coherent := (Tracked.coherent_start r).calls list
  have all : Cache.All t₀.Admits (r.calls list).cache := by
    have same : ((Tracked.start r).calls list).registry = r.calls list :=
      Tracked.registry_calls (Tracked.start r) list
    rw [← same]
    exact coherent t₀ (same ▸ within) avoids
  have admits : t₀.Admits name f := by
    cases hit : (r.calls list).cache.get? name with
    | some cached =>
      rw [get_of_hit hit] at fetched
      cases fetched
      exact all name _ hit
    | none =>
      rw [get_of_miss hit source] at fetched
      exact (Means.admits_predefined within source maxDepth all).2 f (mapError_ok.mp fetched)
  rw [admits g₀ means₀]
  exact (means₀.mono within).unique (means_of_formula source fresh)

/-- Calls that register a name anew before a formula that refers to it is fetched, and a new name
after it was. -/
def fetchedBetween : List Call :=
  [.register "x" "a", .register "y" "\\x", .register "x" "b", .get "y", .register "z" "c"]

/-- What was fetched between the registrations is still in the cache. -/
theorem get_eq_formula_fetchedBetween :
    (empty.calls fetchedBetween).cache.get? "y" = some (Formula.empty.add (.char 'b')) ∧
      ((empty.calls fetchedBetween).get "y").result = .ok (Formula.empty.add (.char 'b')) := by
  let s : Tracked := (Tracked.start empty).calls (fetchedBetween.take 4)
  have means (name text : String) (source : s.registry.predefined.get? name = some text)
      (fresh : (({ s.registry with cache := .empty } : Registry).formula .strict text).result =
        .ok (Formula.empty.add (.char 'b'))) :
      ∃ f, Means s.registry.toTables name f := ⟨_, means_of_formula source fresh⟩
  have current : ∀ other, ¬empty.outdated fetchedBetween other := by
    refine Tracked.not_outdated_register (s := s) "c" ?_ (by cbv) fun other hit => ?_
    · simp [s, fetchedBetween, Tracked.calls, Tracked.call, Tracked.register, Tracked.start,
        empty, registerPredefined, Dictionary.contains]
    · have cache : s.registry.cache = ⟨[("x", Formula.empty.add (.char 'b')),
          ("y", Formula.empty.add (.char 'b'))]⟩ := by cbv
      rw [cache, Dictionary.contains, Dictionary.get?, Dictionary.lookup] at hit
      split at hit
      · subst other
        exact means "x" "b" (by cbv) (by cbv)
      · rw [Dictionary.lookup] at hit
        split at hit
        · subst other
          exact means "y" "\\x" (by cbv) (by cbv)
        · cases hit
  have kept : (empty.calls fetchedBetween).cache.get? "y" =
      some (Formula.empty.add (.char 'b')) := by cbv
  obtain ⟨f, fetched⟩ : ∃ f, ((empty.calls fetchedBetween).get "y").result = .ok f :=
    ⟨_, by rw [get_of_hit kept]⟩
  have source : (empty.calls fetchedBetween).predefined.get? "y" = some "\\x" := by cbv
  have fresh : (({ empty.calls fetchedBetween with cache := .empty } : Registry).formula .strict
      "\\x").result = .ok (Formula.empty.add (.char 'b')) := by cbv
  have reads : (empty.calls fetchedBetween).ReadsWithout (empty.outdated fetchedBetween) "y" :=
    ⟨_, _, .refl _, fun other old => absurd old (current other), means_of_formula source fresh⟩
  exact ⟨kept, by rw [fetched, get_eq_formula empty fetchedBetween reads fetched source fresh]⟩

/-- A cached formula stays as it was read when a name that it refers to is registered anew, and
when a font is registered for a block in which it has text. -/
theorem get_ne_formula :
    ((empty.calls [.register "x" "a", .register "y" "\\x", .get "y", .register "x" "b"]).get
        "y").result = .ok (Formula.empty.add (.char 'a')) ∧
    (({ empty.calls [.register "x" "a", .register "y" "\\x", .get "y", .register "x" "b"] with
        cache := .empty } : Registry).formula .strict "\\x").result =
      .ok (Formula.empty.add (.char 'b')) ∧
    ((empty.calls [.register "y" "\\text α", .get "y", .registerFamily .greek "G"]).get
        "y").result = .ok (Formula.empty.add (.text "α" .standard)) ∧
    (({ empty.calls [.register "y" "\\text α", .get "y", .registerFamily .greek "G"] with
        cache := .empty } : Registry).formula .strict "\\text α").result =
      .ok (Formula.empty.add (.text "α" ⟨"G", "G"⟩)) ∧
    Formula.empty.add (.char 'a') ≠ Formula.empty.add (.char 'b') ∧
    Formula.empty.add (.text "α" .standard) ≠ Formula.empty.add (.text "α" ⟨"G", "G"⟩) := by
  refine ⟨by cbv, by cbv, by cbv, by cbv, ?_, ?_⟩
  · intro same
    cases congrArg Formula.root same
  · intro same
    simp [Formula.add, Formula.extend, Formula.empty, Families.standard] at same

end Registry

end FormulaInk
