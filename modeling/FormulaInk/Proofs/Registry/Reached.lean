import FormulaInk.Proofs.Registry.Coherence
import FormulaInk.Registry.Defaults

/-! The registries that operations lead to. The cache of such a registry holds nothing but formulas
that sources were read to. -/

namespace FormulaInk

open Source Registry

section Caches

variable {P : String → Formula → Prop} {c : Cache} {r : Registry}

theorem Cache.All.none : Cache.All P .empty := by
  intro name f hit
  rw [Dictionary.get?_empty] at hit
  cases hit

theorem Cache.All.erase (h : Cache.All P c) (name : String) : Cache.All P (c.erase name) := by
  intro other f hit
  rw [Dictionary.get?_erase] at hit
  split at hit
  · cases hit
  · exact h other f hit

/-- What is fetched is of the kind of the formulas in the cache, and so is what it adds to them. -/
theorem Cache.All.get (h : Cache.All P r.cache) (yields : ∀ levels, Yields P r.toTables levels)
    (name : String) :
    Cache.All P (r.get name).registry.cache ∧ ∀ f, (r.get name).result = .ok f → P name f := by
  cases hit : r.cache.get? name with
  | some g =>
    rw [get_of_hit hit]
    refine ⟨h, fun f fetched => ?_⟩
    obtain rfl := Except.ok.inj fetched
    exact h name g hit
  | none =>
    cases known : r.predefined.get? name with
    | none =>
      rw [get_of_unknown hit known]
      exact ⟨h, fun f fetched => by cases fetched⟩
    | some text =>
      have after : Cache.All P
          (withLevels r.toTables maxDepth .strict text.toList { cache := r.cache }).2.cache :=
        cache_withLevels_all (fun levels _ => yields levels) .strict text.toList h
      have all := predefined_all _ name text h after fun items found => yields _ h known found
      rw [get_of_miss hit known]
      exact ⟨all.1, fun f fetched => all.2 f (mapError_ok.mp fetched)⟩

theorem Cache.All.read (h : Cache.All P r.cache) (yields : ∀ levels, Yields P r.toTables levels)
    (mode : Mode) (source : String) : Cache.All P (r.read mode source).registry.cache :=
  cache_withLevels_all (n := maxDepth) (fun levels _ => yields levels) mode source.toList
    (m := { cache := r.cache }) h

theorem Cache.All.registerAll (h : Cache.All P r.cache) (formulas : List (String × String)) :
    Cache.All P (r.registerAll formulas).cache := by
  induction formulas generalizing r with
  | nil => exact h
  | cons entry rest ih => exact ih (r := r.registerPredefined entry.1 entry.2) (h.erase entry.1)

theorem Cache.All.registerFont (h : Cache.All P r.cache) (block : Text.Block)
    (sansSerif serif : Option String) :
    Cache.All P (r.registerFont block sansSerif serif).cache := by
  show Cache.All P (if block = .basicLatin then .empty else r.cache)
  split
  · exact .none
  · exact h

theorem cache_mergeMappings (name : String) (r : Registry) (entries : List (String × String)) :
    (mergeMappings name r entries).1.cache = r.cache := by
  induction entries generalizing r with
  | nil => rfl
  | cons entry rest ih =>
    unfold mergeMappings
    split
    · rfl
    · split
      · exact ih _
      · rfl

theorem cache_mergeCharFormulas (name : String) (r : Registry) (entries : List (String × String)) :
    (mergeCharFormulas name r entries).1.cache = r.cache := by
  induction entries generalizing r with
  | nil => rfl
  | cons entry rest ih =>
    unfold mergeCharFormulas
    split
    · rfl
    · exact ih _

theorem cache_mergeCharacters (name : String) (r : Registry) (entries : Document.Entries) :
    (mergeCharacters name r entries).1.cache = r.cache := by
  have mappings := cache_mergeMappings name r entries.mappings.entries
  unfold mergeCharacters
  split
  · rename_i merged
    rwa [merged] at mappings
  · rename_i merged
    rw [merged] at mappings
    rw [cache_mergeCharFormulas, mappings]

theorem Cache.All.merge (h : Cache.All P r.cache) (name : String) (entries : Document.Entries) :
    Cache.All P (Registry.merge name r entries).1.cache := by
  have characters := cache_mergeCharacters name
    { r with symbols := r.symbols.insertAll entries.symbols.entries } entries
  replace characters := Eq.trans characters (show _ = r.cache from rfl)
  unfold Registry.merge
  split
  · rename_i merged
    rw [merged] at characters
    rwa [characters]
  · rename_i merged
    rw [merged] at characters
    rw [← characters] at h
    refine Cache.All.registerAll ?_ entries.predefined.entries
    exact h

end Caches

namespace Registry

/-- The registries that operations lead to, those included that fail. -/
inductive Reached : Registry → Prop where
  | empty : Reached Registry.empty
  | defaults : Reached Registry.defaults
  | call {r : Registry} (c : Call) : Reached r → Reached (r.call c)
  | loadDocument {r : Registry} (text : String) : Reached r → Reached (r.loadDocument text).1
  | addMappings {r : Registry} (text : String) : Reached r → Reached (r.addMappings text).1
  | addSymbol {r : Registry} (name : String) (ch : Char) (kind : AtomClass) :
      Reached r → Reached (r.addSymbol name ch kind)
  | addCommand {r : Registry} (name : String) (args : Nat) (body : String) :
      Reached r → Reached (r.addCommand name args body)

/-- What fetching and reading keep of the cache holds of the cache after all operations. -/
theorem Reached.cache_all_of {P : String → Formula → Prop} {r : Registry} (h : Reached r)
    (get : ∀ (r : Registry) (name : String), Cache.All P r.cache →
      Cache.All P (r.get name).registry.cache)
    (read : ∀ (r : Registry) (mode : Mode) (source : String), Cache.All P r.cache →
      Cache.All P (r.read mode source).registry.cache) : Cache.All P r.cache := by
  induction h with
  | empty | defaults => exact .none
  | @call r c _ ih =>
    cases c with
    | register name source => exact ih.erase name
    | registerDocument text =>
      rw [Registry.call, addPredefined]
      split
      · exact ih
      · exact ih.registerAll _
    | registerFont block sansSerif serif => exact ih.registerFont block sansSerif serif
    | registerFamily block family => exact ih.registerFont block (some family) (some family)
    | get name => exact get r name ih
    | read mode source => exact read r mode source ih
  | loadDocument text _ ih =>
    rw [Registry.loadDocument, load]
    split
    · exact ih
    · exact ih.merge _ _
  | @addMappings r text _ ih =>
    unfold Registry.addMappings
    split
    · exact ih
    · rwa [cache_mergeCharacters]
  | addSymbol | addCommand => assumption

/-- What holds of every formula that items are added to holds of every formula in the cache. -/
theorem Reached.cache_all {P : String → Formula → Prop} {r : Registry} (h : Reached r)
    (adds : ∀ name items, P name (Formula.empty.addAll items)) : Cache.All P r.cache := by
  have yields (t : Tables) (levels : Nat) : Yields P t levels := fun _ _ _ => adds _ _
  refine h.cache_all_of (fun r name all => ?_) fun r mode source all => ?_
  · exact (all.get (yields r.toTables) name).1
  · exact all.read (yields r.toTables) mode source

end Registry

end FormulaInk
