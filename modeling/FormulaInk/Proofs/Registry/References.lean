import Mathlib
import FormulaInk.Proofs.Registry.Merging
import FormulaInk.Proofs.Registry.Reached

/-! What the tables of a registry refer to. After any operations, those included that fail, the
symbol that a character is mapped to is there, and so is the source of every formula in the cache.
So a name is looked up in vain exactly if no operation registered it. -/

namespace FormulaInk

open Source

theorem Dictionary.contains_insert {κ β : Type} [DecidableEq κ] (d : Dictionary κ β)
    (key other : κ) (value : β) :
    (d.insert key value).contains other = true ↔ key = other ∨ d.contains other = true := by
  rw [contains, get?_insert]
  by_cases same : key = other
  · simp [same]
  · simp [same, contains]

theorem Dictionary.contains_insertAll {κ β : Type} [DecidableEq κ] (d : Dictionary κ β)
    (entries : List (κ × β)) (key : κ) :
    (d.insertAll entries).contains key = true ↔
      key ∈ entries.map Prod.fst ∨ d.contains key = true := by
  induction entries generalizing d with
  | nil => simp
  | cons entry rest ih =>
    rw [insertAll_cons, ih, contains_insert, List.map_cons, List.mem_cons, eq_comm]
    tauto

theorem Cache.All.mono {P Q : String → Formula → Prop} {c : Cache} (h : Cache.All P c)
    (le : ∀ name f, P name f → Q name f) : Cache.All Q c :=
  fun name f hit => le name f (h name f hit)

/-- An operation on a registry. -/
inductive Operation where
  | call (c : Call)
  | loadDocument (text : String)
  | addMappings (text : String)
  | addSymbol (name : String) (ch : Char) (kind : AtomClass)
  | addCommand (name : String) (args : Nat) (body : String)

namespace Registry

/-- The registry that an operation leaves, also when it fails. -/
def operate (r : Registry) : Operation → Registry
  | .call c => r.call c
  | .loadDocument text => (r.loadDocument text).1
  | .addMappings text => (r.addMappings text).1
  | .addSymbol name ch kind => r.addSymbol name ch kind
  | .addCommand name args body => r.addCommand name args body

/-- The registry that operations leave, the first one first. -/
def operates (r : Registry) (list : List Operation) : Registry := list.foldl operate r

/-- The names that an operation registers as predefined. A document that cannot be read or merged
registers none. -/
def registered (r : Registry) : Operation → List String
  | .call (.register name _) => [name]
  | .call (.registerDocument text) =>
    match Document.sourcesOfText? text with
    | some sources => sources.entries.map Prod.fst
    | none => []
  | .loadDocument text =>
    match Document.Entries.ofText? text with
    | some entries =>
      if (r.loadDocument text).2.isNone then entries.predefined.entries.map Prod.fst else []
    | none => []
  | _ => []

/-- Whether one of some operations registers a name, the first one being done first. -/
def Registers (r : Registry) : List Operation → String → Prop
  | [], _ => False
  | op :: rest, name => name ∈ r.registered op ∨ (r.operate op).Registers rest name

/-- Every symbol that a character is mapped to is there, and so is the source of every formula in
the cache. -/
structure Resolving (r : Registry) : Prop where
  mapped : ∀ ch name, r.mappings.get? ch = some name → r.symbols.contains name = true
  cached : Cache.All (fun name _ => r.predefined.contains name = true) r.cache

namespace Resolving

variable {r : Registry}

theorem empty : Registry.empty.Resolving := by
  refine ⟨fun ch name found => ?_, .none⟩
  cases found

theorem symbolForChar? (h : r.Resolving) {ch : Char} (mapped : r.mappings.contains ch = true) :
    (r.symbolForChar? ch).isSome = true := by
  obtain ⟨name, found⟩ := Option.isSome_iff_exists.mp mapped
  have there := h.mapped ch name found
  rw [Dictionary.contains] at there
  simp [Tables.symbolForChar?, found, there]

theorem register (h : r.Resolving) (name source : String) :
    (r.registerPredefined name source).Resolving where
  mapped := h.mapped
  cached := (h.cached.erase name).mono fun _ _ there =>
    (Dictionary.contains_insert ..).mpr (.inr there)

theorem registerAll (h : r.Resolving) (formulas : List (String × String)) :
    (r.registerAll formulas).Resolving := by
  induction formulas generalizing r with
  | nil => exact h
  | cons entry rest ih => exact ih (h.register entry.1 entry.2)

theorem registerFont (h : r.Resolving) (block : Text.Block) (sansSerif serif : Option String) :
    (r.registerFont block sansSerif serif).Resolving where
  mapped := h.mapped
  cached := h.cached.registerFont block sansSerif serif

theorem addSymbol (h : r.Resolving) (name : String) (ch : Char) (kind : AtomClass) :
    (r.addSymbol name ch kind).Resolving where
  mapped key other found := (Dictionary.contains_insert ..).mpr (.inr (h.mapped key other found))
  cached := h.cached

theorem withSymbols (h : r.Resolving) (entries : Document.Entries) :
    (r.withSymbols entries).Resolving where
  mapped ch name found := (Dictionary.contains_insertAll ..).mpr (.inr (h.mapped ch name found))
  cached := h.cached

/-- A character is only mapped to a symbol that is there. -/
theorem map (h : r.Resolving) (ch : Char) {symbol : String}
    (known : r.symbols.contains symbol = true) :
    ({ r with mappings := r.mappings.insert ch symbol } : Registry).Resolving where
  mapped other name found := by
    rw [Dictionary.get?_insert] at found
    split at found
    · cases found
      exact known
    · exact h.mapped other name found
  cached := h.cached

theorem mergeMappings (h : r.Resolving) (name : String) (entries : List (String × String)) :
    (mergeMappings name r entries).1.Resolving := by
  induction entries generalizing r with
  | nil => exact h
  | cons entry rest ih =>
    unfold Registry.mergeMappings
    split
    · exact h
    · next ch _ =>
      split
      · next known => exact ih (h.map ch known)
      · exact h

theorem mergeCharacters (h : r.Resolving) (name : String) (entries : Document.Entries) :
    (mergeCharacters name r entries).1.Resolving := by
  have mapped := h.mergeMappings name entries.mappings.entries
  unfold Registry.mergeCharacters
  split
  · next merged => rwa [merged] at mapped
  · next merged =>
    rw [merged] at mapped
    rw [(mergeCharFormulas_eq name _ entries.charFormulas.entries).1]
    exact ⟨mapped.mapped, mapped.cached⟩

theorem merge (h : r.Resolving) (name : String) (entries : Document.Entries) :
    (merge name r entries).1.Resolving := by
  have characters := (h.withSymbols entries).mergeCharacters name entries
  by_cases ok : (Registry.mergeCharacters name (r.withSymbols entries) entries).2 = none
  · rw [merge_of_ok name r entries ok]
    refine registerAll ?_ entries.predefined.entries
    exact ⟨characters.mapped, characters.cached⟩
  · rw [merge_of_error name r entries ok]
    exact characters

/-- What is read for a name has the name registered. -/
theorem yields (r : Registry) (levels : Nat) :
    Yields (fun name _ => r.predefined.contains name = true) r.toTables levels := by
  intro name text m items _ known _
  rw [Dictionary.contains, known]
  rfl

theorem get (h : r.Resolving) (name : String) : (r.get name).registry.Resolving := by
  have tables := r.toTables_get name
  have cached := (h.cached.get (yields r) name).1
  rw [← tables] at cached
  refine ⟨fun ch other found => ?_, cached⟩
  rw [tables] at found ⊢
  exact h.mapped ch other found

theorem read (h : r.Resolving) (mode : Mode) (source : String) :
    (r.read mode source).registry.Resolving where
  mapped := h.mapped
  cached := h.cached.read (yields r) mode source

theorem operate (h : r.Resolving) (op : Operation) : (r.operate op).Resolving := by
  cases op with
  | call c =>
    cases c with
    | register name source => exact h.register name source
    | registerDocument text =>
      rw [Registry.operate, Registry.call, addPredefined]
      split
      · exact h
      · exact h.registerAll _
    | registerFont block sansSerif serif => exact h.registerFont block sansSerif serif
    | registerFamily block family => exact h.registerFont block (some family) (some family)
    | get name => exact h.get name
    | read mode source => exact h.read mode source
  | loadDocument text =>
    rw [Registry.operate, Registry.loadDocument, load]
    split
    · exact h
    · exact h.merge _ _
  | addMappings text =>
    rw [Registry.operate, Registry.addMappings]
    split
    · exact h
    · exact h.mergeCharacters _ _
  | addSymbol name ch kind => exact h.addSymbol name ch kind
  | addCommand => exact ⟨h.mapped, h.cached⟩

theorem operates (h : r.Resolving) (list : List Operation) : (r.operates list).Resolving := by
  induction list generalizing r with
  | nil => exact h
  | cons op rest ih => exact ih (h.operate op)

/-- A name is looked up in vain if it is not predefined, and else found or read. -/
theorem lookup_iff (h : r.Resolving) (name : String) :
    (∃ other, (r.get name).result = .error (.fault (.lookup other))) ↔
      ¬r.predefined.contains name = true := by
  cases known : r.predefined.get? name with
  | none =>
    have hit : r.cache.get? name = none := by
      cases hit : r.cache.get? name with
      | none => rfl
      | some f =>
        have there : (r.predefined.get? name).isSome = true := h.cached name f hit
        rw [known] at there
        cases there
    rw [get_of_unknown hit known]
    simp [Dictionary.contains, known]
  | some text =>
    have there : r.predefined.contains name = true := by
      rw [Dictionary.contains, known]
      rfl
    refine ⟨?_, fun absent => absurd there absent⟩
    rintro ⟨other, failed⟩
    cases hit : r.cache.get? name with
    | some f =>
      rw [get_of_hit hit] at failed
      cases failed
    | none =>
      rw [get_of_miss hit known] at failed
      generalize (Source.predefined _ name text _).1 = found at failed
      rcases found with (e | p) | f <;> cases failed

end Resolving

section Names

variable {r : Registry}

theorem contains_registerAll (r : Registry) (formulas : List (String × String)) (name : String) :
    (r.registerAll formulas).predefined.contains name = true ↔
      name ∈ formulas.map Prod.fst ∨ r.predefined.contains name = true := by
  have same : (r.registerAll formulas).predefined = r.predefined.insertAll formulas := by
    induction formulas generalizing r with
    | nil => rfl
    | cons entry rest ih => exact ih (r.registerPredefined entry.1 entry.2)
  rw [same, Dictionary.contains_insertAll]

theorem predefined_mergeCharacters (name : String) (r : Registry) (entries : Document.Entries) :
    (mergeCharacters name r entries).1.predefined = r.predefined := by
  by_cases fit : ∀ entry ∈ entries.mappings.entries, r.fits entry
  · rw [(mergeCharacters_of_fit name r entries fit).1]
  · rw [(mergeCharacters_of_misfit name r entries fit).1]

/-- A merge registers the names of the document if it does not fail. -/
theorem contains_merge (name : String) (r : Registry) (entries : Document.Entries) (key : String) :
    (merge name r entries).1.predefined.contains key = true ↔
      ((merge name r entries).2 = none ∧ key ∈ entries.predefined.entries.map Prod.fst) ∨
        r.predefined.contains key = true := by
  have before := predefined_mergeCharacters name (r.withSymbols entries) entries
  by_cases ok : (mergeCharacters name (r.withSymbols entries) entries).2 = none
  · rw [merge_of_ok name r entries ok, contains_registerAll, before]
    exact or_congr_left (and_iff_right rfl).symm
  · rw [merge_of_error name r entries ok, before]
    exact (or_iff_right fun merged => ok merged.1).symm

/-- After an operation those names are predefined that were before and those that it registers. -/
theorem contains_operate (r : Registry) (op : Operation) (name : String) :
    (r.operate op).predefined.contains name = true ↔
      name ∈ r.registered op ∨ r.predefined.contains name = true := by
  cases op with
  | call c =>
    cases c with
    | register other source =>
      rw [registered, List.mem_singleton, @eq_comm _ name]
      exact Dictionary.contains_insert r.predefined other name source
    | registerDocument text =>
      rw [operate, call, addPredefined, registered]
      cases Document.sourcesOfText? text with
      | none => simp
      | some sources => exact contains_registerAll r sources.entries name
    | get other =>
      rw [operate, call, r.toTables_get other]
      simp [registered]
    | registerFont | registerFamily | read =>
      simp [operate, call, registered, registerFamily, registerFont, Registry.read,
        registry_readAt]
  | loadDocument text =>
    rw [operate, loadDocument, load, registered]
    cases read : Document.Entries.ofText? text with
    | none => simp
    | some entries =>
      simp [loadDocument, load, read, contains_merge]
  | addMappings text =>
    have none : name ∉ r.registered (.addMappings text) := by simp [registered]
    rw [operate, addMappings, or_iff_right none]
    split
    · rfl
    · rw [predefined_mergeCharacters]
  | addSymbol | addCommand => simp [operate, addSymbol, addCommand, registered]

/-- After operations those names are predefined that were before and those that they register. -/
theorem contains_operates (r : Registry) (list : List Operation) (name : String) :
    (r.operates list).predefined.contains name = true ↔
      r.Registers list name ∨ r.predefined.contains name = true := by
  induction list generalizing r with
  | nil => simp [operates, Registers]
  | cons op rest ih =>
    show ((r.operate op).operates rest).predefined.contains name = true ↔ _
    rw [ih, contains_operate, Registers]
    tauto

end Names

/-- After any operations on the empty registry, those included that fail, every character that is
mapped stands for a symbol, every name in the cache is predefined, and a name is looked up in vain
exactly if no operation registered it. -/
theorem references_resolve (list : List Operation) :
    (∀ ch, (empty.operates list).mappings.contains ch = true →
      ((empty.operates list).symbolForChar? ch).isSome = true) ∧
    (∀ name, (empty.operates list).cache.contains name = true →
      (empty.operates list).predefined.contains name = true) ∧
    ∀ name, (∃ other, ((empty.operates list).get name).result = .error (.fault (.lookup other))) ↔
      ¬empty.Registers list name := by
  have resolving := Resolving.empty.operates list
  refine ⟨fun ch mapped => resolving.symbolForChar? mapped, fun name cached => ?_, fun name => ?_⟩
  · obtain ⟨f, hit⟩ := Option.isSome_iff_exists.mp cached
    exact resolving.cached name f hit
  · have none : ¬empty.predefined.contains name = true := by simp [empty, Dictionary.contains]
    rw [resolving.lookup_iff, contains_operates, or_iff_left none]

end Registry

end FormulaInk
