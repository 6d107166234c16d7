import Mathlib
import FormulaInk.Proofs.Registry.Distinct
import FormulaInk.Proofs.Registry.Reader
import FormulaInk.Registry.Merge

/-! Documents merged in any order of their tables. A table of characters is put in up to the first
entry that does not fit. So a merge that fails may leave a part of these tables, and the symbols that
go before them. -/

namespace FormulaInk

namespace Dictionary

variable {κ β : Type} [DecidableEq κ]

/-- Every key has the value that is put in, and without one its earlier value. -/
def Filled (d : Dictionary κ β) (more : κ → Option β) (base : Dictionary κ β) : Prop :=
  ∀ key, d.get? key = (more key).or (base.get? key)

/-- Every key has its earlier value or the one that is put in. -/
def PartlyFilled (d : Dictionary κ β) (more : κ → Option β) (base : Dictionary κ β) : Prop :=
  ∀ key, d.get? key = base.get? key ∨ (more key).isSome ∧ d.get? key = more key

theorem Filled.unique {d d' base : Dictionary κ β} {more : κ → Option β}
    (h : d.Filled more base) (h' : d'.Filled more base) (key : κ) : d.get? key = d'.get? key :=
  (h key).trans (h' key).symm

theorem Filled.partly {d base : Dictionary κ β} {more : κ → Option β} (h : d.Filled more base) :
    d.PartlyFilled more base := by
  intro key
  cases new : more key with
  | none =>
    left
    rw [h key, new]
    rfl
  | some value =>
    right
    refine ⟨rfl, ?_⟩
    rw [h key, new]
    rfl

theorem PartlyFilled.same (d : Dictionary κ β) (more : κ → Option β) : d.PartlyFilled more d :=
  fun _ => .inl rfl

/-- A table that is put in, in any order. -/
theorem Reorders.filled {order d : Dictionary κ β} (h : order.Reorders d)
    (distinct : Distinct d.entries) (base : Dictionary κ β) :
    (base.insertAll order.entries).Filled d.get? base := by
  intro key
  rw [(distinct.perm h).get?_insertAll, distinct.lookup_perm h]
  rfl

end Dictionary

namespace Registry

open Dictionary

/-- The character that a key is, if it is a single one. -/
def single? (key : String) : Option Char :=
  match key.toList with
  | [ch] => some ch
  | _ => none

/-- The entry of a document as an entry of a table of characters. -/
def charEntryOf (entry : String × String) : Option (Char × String) :=
  (single? entry.1).map (·, entry.2)

/-- The entries in front of the first one that fails a test, for a table of characters. -/
def front (p : String × String → Bool) (entries : List (String × String)) : List (Char × String) :=
  (entries.takeWhile p).filterMap charEntryOf

/-- The value that a table of a document has for a character. -/
def charValue (d : Dictionary String String) (ch : Char) : Option String := d.get? (String.singleton ch)

/-- Whether an entry is put into the mappings: a character stands for a symbol that is known. -/
def fits (r : Registry) (entry : String × String) : Bool :=
  (single? entry.1).isSome && r.symbols.contains entry.2

theorem single?_eq_some {key : String} {ch : Char} :
    single? key = some ch ↔ key = String.singleton ch := by
  rw [← String.toList_inj, String.toList_singleton, single?]
  constructor
  · intro h
    split at h
    · next one => rwa [Option.some.inj h] at one
    · cases h
  · intro h
    rw [h]

theorem keyChar_of_single {name key : String} {ch : Char} (h : single? key = some ch) :
    keyChar name key = .ok ch := by
  rw [single?_eq_some.mp h, keyChar, String.toList_singleton]

theorem keyChar_of_not {name key : String} (h : single? key = none) :
    keyChar name key = .error (.resource name (.key key)) := by
  rw [keyChar]
  split
  · next one => simp [single?, one] at h
  · rfl

theorem front_of_not {p : String × String → Bool} {entry : String × String}
    {rest : List (String × String)} (h : p entry = false) : front p (entry :: rest) = [] := by
  rw [front, List.takeWhile_cons_of_neg (by simp [h])]
  rfl

theorem front_of_single {p : String × String → Bool} {key value : String} {ch : Char}
    {rest : List (String × String)} (h : p (key, value) = true) (one : single? key = some ch) :
    front p ((key, value) :: rest) = (ch, value) :: front p rest := by
  have entry : charEntryOf (key, value) = some (ch, value) := by rw [charEntryOf, one]; rfl
  rw [front, List.takeWhile_cons_of_pos h, List.filterMap_cons_some entry]
  rfl

/-- The mappings are put in up to the first entry that does not fit, which makes the error. -/
theorem mergeMappings_eq (name : String) (r : Registry) (entries : List (String × String)) :
    (mergeMappings name r entries).1 =
        { r with mappings := r.mappings.insertAll (front r.fits entries) } ∧
      ((mergeMappings name r entries).2 = none ↔ ∀ entry ∈ entries, r.fits entry) := by
  induction entries generalizing r with
  | nil => exact ⟨rfl, by simp [mergeMappings]⟩
  | cons entry rest ih =>
    obtain ⟨key, symbol⟩ := entry
    rw [mergeMappings]
    cases one : single? key with
    | none =>
      have stops : r.fits (key, symbol) = false := by simp [fits, one]
      rw [keyChar_of_not one, front_of_not stops]
      exact ⟨rfl, by simp [stops]⟩
    | some ch =>
      simp only [keyChar_of_single one]
      cases known : r.symbols.contains symbol with
      | false =>
        have stops : r.fits (key, symbol) = false := by simp [fits, known]
        rw [front_of_not stops]
        exact ⟨rfl, by simp [stops]⟩
      | true =>
        have goes : r.fits (key, symbol) = true := by simp [fits, one, known]
        -- The symbols stay, so what fits stays.
        obtain ⟨left, ok⟩ := ih { r with mappings := r.mappings.insert ch symbol }
        rw [if_pos rfl, front_of_single goes one, insertAll_cons]
        refine ⟨left, ok.trans ?_⟩
        rw [List.forall_mem_cons]
        exact ⟨fun all => ⟨goes, all⟩, fun all => all.2⟩

/-- The sources of characters are put in up to the first key that is not a character. -/
theorem mergeCharFormulas_eq (name : String) (r : Registry) (entries : List (String × String)) :
    (mergeCharFormulas name r entries).1 =
        { r with charFormulas :=
          r.charFormulas.insertAll (front (fun entry => (single? entry.1).isSome) entries) } ∧
      ((mergeCharFormulas name r entries).2 = none ↔
        ∀ entry ∈ entries, (single? entry.1).isSome) := by
  induction entries generalizing r with
  | nil => exact ⟨rfl, by simp [mergeCharFormulas]⟩
  | cons entry rest ih =>
    obtain ⟨key, source⟩ := entry
    rw [mergeCharFormulas]
    cases one : single? key with
    | none =>
      rw [keyChar_of_not one, front_of_not (by simp [one])]
      exact ⟨rfl, by simp [one]⟩
    | some ch =>
      obtain ⟨left, ok⟩ := ih { r with charFormulas := r.charFormulas.insert ch source }
      simp only [keyChar_of_single one]
      rw [front_of_single (by simp [one]) one, insertAll_cons]
      refine ⟨left, ok.trans ?_⟩
      rw [List.forall_mem_cons]
      exact ⟨fun all => ⟨by simp [one], all⟩, fun all => all.2⟩

theorem lookup_charEntries (ch : Char) (entries : List (String × String)) :
    lookup ch (entries.filterMap charEntryOf) = lookup (String.singleton ch) entries := by
  induction entries with
  | nil => rfl
  | cons entry rest ih =>
    obtain ⟨key, value⟩ := entry
    have same : key = String.singleton ch ↔ single? key = some ch := single?_eq_some.symm
    cases one : single? key with
    | none => simp [charEntryOf, lookup, same, one, ih]
    | some c => simp [charEntryOf, lookup, same, one, ih]

theorem distinct_charEntries {entries : List (String × String)} (h : Distinct entries) :
    Distinct (entries.filterMap charEntryOf) := by
  have keys : (entries.filterMap charEntryOf).map Prod.fst = (entries.map Prod.fst).filterMap single? := by
    rw [List.map_filterMap, List.filterMap_map]
    apply List.filterMap_congr
    intro entry _
    show Option.map Prod.fst ((single? entry.1).map (·, entry.2)) = single? entry.1
    cases single? entry.1 <;> rfl
  unfold Distinct
  rw [keys]
  apply List.Nodup.filterMap _ h
  intro key key' ch one one'
  rw [single?_eq_some.mp one, single?_eq_some.mp one']

/-- The part of a table of characters in front of some entry, put in in any order. -/
theorem partlyFilled_front {order d : Dictionary String String} (h : order.Reorders d)
    (distinct : Distinct d.entries) (base : Dictionary Char String) (p : String × String → Bool) :
    (base.insertAll (front p order.entries)).PartlyFilled (charValue d) base := by
  intro ch
  have sub := List.takeWhile_sublist (l := order.entries) p
  rw [front, (distinct_charEntries ((distinct.perm h).sublist sub)).get?_insertAll,
    lookup_charEntries]
  cases found : lookup (String.singleton ch) (order.entries.takeWhile p) with
  | none => exact .inl rfl
  | some value =>
    right
    have new : charValue d ch = some value :=
      distinct.lookup_of_mem (h.mem_iff.mp (sub.subset (mem_of_lookup found)))
    rw [new]
    exact ⟨rfl, rfl⟩

/-- A whole table of characters, put in in any order. -/
theorem filled_front {order d : Dictionary String String} (h : order.Reorders d)
    (distinct : Distinct d.entries) (base : Dictionary Char String) {p : String × String → Bool}
    (all : ∀ entry ∈ order.entries, p entry) :
    (base.insertAll (front p order.entries)).Filled (charValue d) base := by
  intro ch
  rw [front, List.takeWhile_eq_self_iff.mpr all,
    (distinct_charEntries (distinct.perm h)).get?_insertAll, lookup_charEntries,
    distinct.lookup_perm h]
  rfl

/-- What keeps a document from being merged is absent: the keys of its tables of characters are
single characters, and characters stand for symbols that the registry or the document has. -/
structure Admits (r : Registry) (entries : Document.Entries) : Prop where
  mappings : ∀ key symbol, entries.mappings.get? key = some symbol →
    (single? key).isSome ∧ (entries.symbols.contains symbol ∨ r.symbols.contains symbol)
  charFormulas : ∀ key, entries.charFormulas.contains key → (single? key).isSome

/-- A registry after a document was merged: every table has what the document says, and what it does
not speak of as before. -/
structure Merged (r : Registry) (entries : Document.Entries) (merged : Registry) : Prop where
  symbols : merged.symbols.Filled entries.symbols.get? r.symbols
  mappings : merged.mappings.Filled (charValue entries.mappings) r.mappings
  charFormulas : merged.charFormulas.Filled (charValue entries.charFormulas) r.charFormulas
  commands : merged.commands.Filled entries.commands.get? r.commands
  predefined : merged.predefined.Filled entries.predefined.get? r.predefined
  cache : ∀ name, merged.cache.get? name =
    if entries.predefined.contains name then none else r.cache.get? name
  fonts : merged.fonts = r.fonts

/-- A registry after the merge of a document failed: the symbols of the document are there, and of
its tables of characters some entries. -/
structure Stopped (r : Registry) (entries : Document.Entries) (left : Registry) : Prop where
  symbols : left.symbols.Filled entries.symbols.get? r.symbols
  mappings : left.mappings.PartlyFilled (charValue entries.mappings) r.mappings
  charFormulas : left.charFormulas.PartlyFilled (charValue entries.charFormulas) r.charFormulas
  mappingsFirst : left.charFormulas = r.charFormulas ∨
    left.mappings.Filled (charValue entries.mappings) r.mappings
  commands : left.commands = r.commands
  predefined : left.predefined = r.predefined
  cache : left.cache = r.cache
  fonts : left.fonts = r.fonts

/-- Two registries that say the same of every name and character. -/
structure Agree (r r' : Registry) : Prop where
  symbols : ∀ name, r.symbols.get? name = r'.symbols.get? name
  mappings : ∀ ch, r.mappings.get? ch = r'.mappings.get? ch
  charFormulas : ∀ ch, r.charFormulas.get? ch = r'.charFormulas.get? ch
  commands : ∀ name, r.commands.get? name = r'.commands.get? name
  predefined : ∀ name, r.predefined.get? name = r'.predefined.get? name
  cache : ∀ name, r.cache.get? name = r'.cache.get? name
  fonts : r.fonts = r'.fonts

/-- What a merge comes to. -/
structure Settles (r : Registry) (entries : Document.Entries)
    (out : Registry × Option Error) : Prop where
  ok : out.2 = none ↔ r.Admits entries
  merged : out.2 = none → r.Merged entries out.1
  stopped : out.2 ≠ none → r.Stopped entries out.1

theorem Merged.agree {r merged merged' : Registry} {entries : Document.Entries}
    (h : r.Merged entries merged) (h' : r.Merged entries merged') : merged.Agree merged' where
  symbols := h.symbols.unique h'.symbols
  mappings := h.mappings.unique h'.mappings
  charFormulas := h.charFormulas.unique h'.charFormulas
  commands := h.commands.unique h'.commands
  predefined := h.predefined.unique h'.predefined
  cache := fun name => (h.cache name).trans (h'.cache name).symm
  fonts := h.fonts.trans h'.fonts.symm

theorem Settles.agree {r : Registry} {entries : Document.Entries}
    {out out' : Registry × Option Error} (h : r.Settles entries out) (h' : r.Settles entries out')
    (ok : out.2 = none) : out'.2 = none ∧ out.1.Agree out'.1 := by
  have ok' : out'.2 = none := h'.ok.mpr (h.ok.mp ok)
  exact ⟨ok', (h.merged ok).agree (h'.merged ok')⟩

end Registry

namespace Document.Entries

/-- The same entries, with each table in any order. -/
structure Reorders (order entries : Entries) : Prop where
  symbols : order.symbols.Reorders entries.symbols
  mappings : order.mappings.Reorders entries.mappings
  charFormulas : order.charFormulas.Reorders entries.charFormulas
  commands : order.commands.Reorders entries.commands
  predefined : order.predefined.Reorders entries.predefined

/-- The tables of characters alone. -/
def characters (entries : Entries) : Entries where
  mappings := entries.mappings
  charFormulas := entries.charFormulas

theorem Reorders.characters {order entries : Entries} (h : order.Reorders entries) :
    order.characters.Reorders entries.characters where
  symbols := .refl _
  mappings := h.mappings
  charFormulas := h.charFormulas
  commands := .refl _
  predefined := .refl _

theorem Distinct.characters {entries : Entries} (h : entries.Distinct) :
    entries.characters.Distinct where
  symbols := List.nodup_nil
  mappings := h.mappings
  charFormulas := h.charFormulas
  commands := List.nodup_nil
  predefined := List.nodup_nil

end Document.Entries

namespace Registry

open Dictionary Document

theorem mergeCharacters_of_misfit (name : String) (r : Registry) (entries : Document.Entries)
    (misfit : ¬∀ entry ∈ entries.mappings.entries, r.fits entry) :
    (mergeCharacters name r entries).1 =
        { r with mappings := r.mappings.insertAll (front r.fits entries.mappings.entries) } ∧
      (mergeCharacters name r entries).2 ≠ none := by
  obtain ⟨left, ok⟩ := mergeMappings_eq name r entries.mappings.entries
  rw [mergeCharacters]
  split
  · next merged =>
    rw [merged] at left
    exact ⟨left, by simp⟩
  · next merged =>
    rw [merged] at ok
    exact absurd (ok.mp rfl) misfit

theorem mergeCharacters_of_fit (name : String) (r : Registry) (entries : Document.Entries)
    (fit : ∀ entry ∈ entries.mappings.entries, r.fits entry) :
    (mergeCharacters name r entries).1 =
        { r with
          mappings := r.mappings.insertAll (front r.fits entries.mappings.entries)
          charFormulas := r.charFormulas.insertAll
            (front (fun entry => (single? entry.1).isSome) entries.charFormulas.entries) } ∧
      ((mergeCharacters name r entries).2 = none ↔
        ∀ entry ∈ entries.charFormulas.entries, (single? entry.1).isSome) := by
  obtain ⟨left, ok⟩ := mergeMappings_eq name r entries.mappings.entries
  rw [mergeCharacters]
  split
  · next merged =>
    rw [merged] at ok
    cases ok.mpr fit
  · next mapped merged =>
    rw [merged] at left
    obtain rfl : mapped = _ := left
    exact mergeCharFormulas_eq name _ entries.charFormulas.entries

/-- The registry with the symbols of a document put in. -/
def withSymbols (r : Registry) (entries : Document.Entries) : Registry :=
  { r with symbols := r.symbols.insertAll entries.symbols.entries }

theorem merge_of_error (name : String) (r : Registry) (entries : Document.Entries)
    (failed : (mergeCharacters name (r.withSymbols entries) entries).2 ≠ none) :
    merge name r entries = mergeCharacters name (r.withSymbols entries) entries := by
  unfold withSymbols at *
  unfold merge
  split
  · next merged => exact merged.symm
  · next merged =>
    rw [merged] at failed
    exact absurd rfl failed

theorem merge_of_ok (name : String) (r : Registry) (entries : Document.Entries)
    (ok : (mergeCharacters name (r.withSymbols entries) entries).2 = none) :
    merge name r entries =
      (({ (mergeCharacters name (r.withSymbols entries) entries).1 with
          commands := (mergeCharacters name (r.withSymbols entries) entries).1.commands.insertAll
            entries.commands.entries } : Registry).registerAll entries.predefined.entries, none) := by
  unfold withSymbols at *
  unfold merge
  split
  · next merged =>
    rw [merged] at ok
    cases ok
  · next merged => rw [merged]

/-- The test of an entry as a test of the document: the symbols are already put in. -/
theorem fits_withSymbols {order entries : Document.Entries} (h : order.Reorders entries)
    (distinct : entries.Distinct) (r : Registry) (key symbol : String) :
    (r.withSymbols order).fits (key, symbol) ↔
      (single? key).isSome ∧ (entries.symbols.contains symbol ∨ r.symbols.contains symbol) := by
  rw [fits, Bool.and_eq_true]
  unfold Dictionary.contains withSymbols
  rw [h.symbols.filled distinct.symbols r.symbols symbol, Option.isSome_or, Bool.or_eq_true]

theorem admits_iff {order entries : Document.Entries} (h : order.Reorders entries)
    (distinct : entries.Distinct) (r : Registry) :
    r.Admits entries ↔ (∀ entry ∈ order.mappings.entries, (r.withSymbols order).fits entry) ∧
      ∀ entry ∈ order.charFormulas.entries, (single? entry.1).isSome := by
  constructor
  · rintro ⟨mappings, charFormulas⟩
    constructor
    · rintro ⟨key, symbol⟩ mem
      rw [fits_withSymbols h distinct]
      exact mappings key symbol (distinct.mappings.lookup_of_mem (h.mappings.mem_iff.mp mem))
    · rintro ⟨key, source⟩ mem
      apply charFormulas
      rw [Dictionary.contains, Dictionary.get?,
        distinct.charFormulas.lookup_of_mem (h.charFormulas.mem_iff.mp mem)]
      rfl
  · rintro ⟨mappings, charFormulas⟩
    constructor
    · intro key symbol found
      rw [← fits_withSymbols h distinct]
      exact mappings (key, symbol) (h.mappings.mem_iff.mpr (mem_of_lookup found))
    · intro key found
      obtain ⟨source, found⟩ := Option.isSome_iff_exists.mp found
      exact charFormulas (key, source) (h.charFormulas.mem_iff.mpr (mem_of_lookup found))

/-- The predefined formulas of a document: each is put in, and what was read under its name is
forgotten. -/
theorem registerAll_eq (r : Registry) (formulas : List (String × String)) :
    r.registerAll formulas =
      { r with
        predefined := r.predefined.insertAll formulas
        cache := formulas.foldl (fun cache entry => cache.erase entry.1) r.cache } := by
  induction formulas generalizing r with
  | nil => rfl
  | cons entry rest ih =>
    show (r.registerPredefined entry.1 entry.2).registerAll rest = _
    rw [ih]
    rfl

theorem get?_eraseAll (formulas : List (String × String)) (cache : Cache) (name : String) :
    (formulas.foldl (fun cache entry => cache.erase entry.1) cache).get? name =
      if (lookup name formulas).isSome then none else cache.get? name := by
  induction formulas generalizing cache with
  | nil => rfl
  | cons entry rest ih =>
    rw [List.foldl_cons, ih, get?_erase, lookup]
    by_cases same : entry.1 = name
    · simp [same]
    · simp [same]

/-- A merge of the tables in any order: it succeeds if the document is admitted, and only then. -/
theorem settles_merge (name : String) (r : Registry) {order entries : Document.Entries}
    (h : order.Reorders entries) (distinct : entries.Distinct) :
    r.Settles entries (merge name r order) := by
  have symbols := h.symbols.filled distinct.symbols r.symbols
  have admits := admits_iff h distinct r
  by_cases fit : ∀ entry ∈ order.mappings.entries, (r.withSymbols order).fits entry
  · obtain ⟨left, ok⟩ := mergeCharacters_of_fit name (r.withSymbols order) order fit
    have mappings := filled_front h.mappings distinct.mappings r.mappings fit
    by_cases single : ∀ entry ∈ order.charFormulas.entries, (single? entry.1).isSome
    · have merged := merge_of_ok name r order (ok.mpr single)
      rw [left, registerAll_eq] at merged
      rw [merged]
      refine ⟨⟨fun _ => admits.mpr ⟨fit, single⟩, fun _ => rfl⟩, fun _ => ?_, fun failed => absurd rfl failed⟩
      exact
        { symbols := symbols
          mappings := mappings
          charFormulas := filled_front h.charFormulas distinct.charFormulas r.charFormulas single
          commands := h.commands.filled distinct.commands r.commands
          predefined := h.predefined.filled distinct.predefined r.predefined
          cache := fun name => by
            rw [get?_eraseAll, distinct.predefined.lookup_perm h.predefined]
            rfl
          fonts := rfl }
    · have failed := (not_congr ok).mpr single
      rw [merge_of_error name r order failed]
      refine ⟨⟨fun none => absurd none failed, fun all => absurd (admits.mp all).2 single⟩,
        fun none => absurd none failed, fun _ => ?_⟩
      rw [left]
      exact
        { symbols := symbols
          mappings := mappings.partly
          charFormulas := partlyFilled_front h.charFormulas distinct.charFormulas r.charFormulas _
          mappingsFirst := .inr mappings
          commands := rfl
          predefined := rfl
          cache := rfl
          fonts := rfl }
  · obtain ⟨left, failed⟩ := mergeCharacters_of_misfit name (r.withSymbols order) order fit
    rw [merge_of_error name r order failed]
    refine ⟨⟨fun none => absurd none failed, fun all => absurd (admits.mp all).1 fit⟩,
      fun none => absurd none failed, fun _ => ?_⟩
    rw [left]
    exact
      { symbols := symbols
        mappings := partlyFilled_front h.mappings distinct.mappings r.mappings _
        charFormulas := .same _ _
        mappingsFirst := .inl rfl
        commands := rfl
        predefined := rfl
        cache := rfl
        fonts := rfl }

/-- The tables of characters alone are merged like a document without other tables. -/
theorem mergeCharacters_eq_merge (name : String) (r : Registry) (entries : Document.Entries) :
    mergeCharacters name r entries = merge name r entries.characters := by
  by_cases ok : (mergeCharacters name r entries).2 = none
  · rw [merge_of_ok name r entries.characters ok]
    exact Prod.ext rfl ok
  · exact (merge_of_error name r entries.characters ok).symm

theorem loadDocument_of_read {text : String} {entries : Document.Entries}
    (read : Document.Entries.ofText? text = some entries) (r : Registry) :
    r.loadDocument text = merge "registry document" r entries := by
  rw [loadDocument, load, read]

theorem addMappings_of_read {text : String} {entries : Document.Entries}
    (read : Document.Entries.ofText? text = some entries) (r : Registry) :
    r.addMappings text = mergeCharacters "symbol mappings" r entries := by
  rw [addMappings, read]

/-- A document merged with its tables in any order. Whether that succeeds, and what every table then
says, does not depend on the order. When it fails, the commands, the predefined formulas and their
cache are as before; the symbols of the document are there, and of its tables of characters possibly
some entries. The tables of characters alone are merged likewise, and leave the symbols as they are. -/
theorem merge_any_order (r : Registry) {text : String} {entries order order' : Document.Entries}
    (read : Document.Entries.ofText? text = some entries) (h : order.Reorders entries)
    (h' : order'.Reorders entries) :
    (r.loadDocument text = merge "registry document" r entries ∧
      r.Settles entries (merge "registry document" r order) ∧
      ((merge "registry document" r order).2 = none →
        (merge "registry document" r order').2 = none ∧
          (merge "registry document" r order).1.Agree (merge "registry document" r order').1)) ∧
    (r.addMappings text = mergeCharacters "symbol mappings" r entries ∧
      r.Settles entries.characters (mergeCharacters "symbol mappings" r order) ∧
      ((mergeCharacters "symbol mappings" r order).2 = none →
        (mergeCharacters "symbol mappings" r order').2 = none ∧
          (mergeCharacters "symbol mappings" r order).1.Agree
            (mergeCharacters "symbol mappings" r order').1)) := by
  have distinct := Document.Entries.distinct_of_text read
  constructor
  · have settles := settles_merge "registry document" r h distinct
    have settles' := settles_merge "registry document" r h' distinct
    exact ⟨loadDocument_of_read read r, settles, settles.agree settles'⟩
  · simp only [addMappings_of_read read, mergeCharacters_eq_merge]
    have settles := settles_merge "symbol mappings" r h.characters distinct.characters
    have settles' := settles_merge "symbol mappings" r h'.characters distinct.characters
    exact ⟨trivial, settles, settles.agree settles'⟩

/-- A document with a symbol and two mappings, of which one is to a symbol that is not there. -/
def halfText : String :=
  "\x7b\"symbols\":\x7b\"a\":\x7b\"ch\":\"a\",\"type\":\"ordinary\"\x7d\x7d,\"symbol_mappings\":\x7b\"x\":\"a\",\"y\":\"b\"\x7d\x7d"

def halfEntries : Document.Entries where
  symbols := ⟨[("a", ⟨'a', .ordinary⟩)]⟩
  mappings := ⟨[("x", "a"), ("y", "b")]⟩

theorem read_halfText : Document.Entries.ofText? halfText = some halfEntries := by
  have value : Document.Value.ofText? halfText = some (.object [
      (some "symbols", .object [
        (some "a", .object [(some "ch", .string (some "a")), (some "type", .string (some "ordinary"))])]),
      (some "symbol_mappings", .object [
        (some "x", .string (some "a")), (some "y", .string (some "b"))])]) := by
    apply ofText?_of_value
    unfold halfText
    simp only [String.reduceToList]
    exact value?_object rfl (members?_first rfl rfl rfl
      (value?_object rfl (members?_first rfl rfl rfl
        (value?_object rfl (members?_first rfl rfl rfl (value?_string rfl rfl)
          (members?_next rfl rfl rfl rfl (value?_string rfl rfl) (members?_nil rfl))))
        (members?_nil rfl)))
      (members?_next rfl rfl rfl rfl
        (value?_object rfl (members?_first rfl rfl rfl (value?_string rfl rfl)
          (members?_next rfl rfl rfl rfl (value?_string rfl rfl) (members?_nil rfl))))
        (members?_nil rfl)))
  rw [Document.Entries.ofText?, value]
  rfl

/-- The mappings of the document the other way round. -/
def halfReversed : Document.Entries := { halfEntries with mappings := ⟨[("y", "b"), ("x", "a")]⟩ }

theorem halfReversed_reorders : halfReversed.Reorders halfEntries where
  symbols := .refl _
  mappings := .swap _ _ []
  charFormulas := .refl _
  commands := .refl _
  predefined := .refl _

theorem merge_any_order_half :
    Document.Entries.ofText? halfText = some halfEntries ∧ halfReversed.Reorders halfEntries ∧
      empty.Settles halfEntries (merge "registry document" empty halfReversed) ∧
      (merge "registry document" empty halfReversed).2.isSome = true := by
  have merged := merge_any_order empty read_halfText halfReversed_reorders halfReversed_reorders
  exact ⟨read_halfText, halfReversed_reorders, merged.1.2.1, rfl⟩

/-- A failed merge may leave new entries: a symbol of a document, and a mapping of a table. -/
theorem failed_merge_leaves_part :
    ((empty.loadDocument halfText).2.isSome = true ∧
      (empty.loadDocument halfText).1.symbols.get? "a" ≠ empty.symbols.get? "a") ∧
    ((empty.addSymbol "a" 'a' .ordinary).addMappings halfText).2.isSome = true ∧
      ((empty.addSymbol "a" 'a' .ordinary).addMappings halfText).1.mappings.get? 'x' ≠
        (empty.addSymbol "a" 'a' .ordinary).mappings.get? 'x' := by
  simp only [loadDocument_of_read read_halfText, addMappings_of_read read_halfText]
  exact ⟨⟨rfl, by decide⟩, rfl, by decide⟩

end Registry

end FormulaInk
