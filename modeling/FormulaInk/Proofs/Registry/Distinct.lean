import Mathlib
import FormulaInk.Document.Tables

/-! Dictionaries whose keys are distinct: what is looked up in one does not depend on the order of its
entries. Every table that is read from a document is one. -/

namespace FormulaInk

namespace Dictionary

variable {κ β : Type}

/-- No key stands twice. -/
def Distinct (entries : List (κ × β)) : Prop := (entries.map Prod.fst).Nodup

/-- The same entries, in any order. -/
def Reorders (order d : Dictionary κ β) : Prop := order.entries.Perm d.entries

theorem Distinct.perm {entries order : List (κ × β)} (h : Distinct entries)
    (same : order.Perm entries) : Distinct order :=
  (same.map Prod.fst).nodup_iff.mpr h

theorem Distinct.tail {entry : κ × β} {rest : List (κ × β)} (h : Distinct (entry :: rest)) :
    Distinct rest :=
  (List.nodup_cons.mp h).2

theorem Distinct.sublist {some all : List (κ × β)} (h : Distinct all) (sub : some.Sublist all) :
    Distinct some :=
  List.Nodup.sublist (sub.map Prod.fst) h

variable [DecidableEq κ]

theorem lookup_eq_none {key : κ} {entries : List (κ × β)}
    (h : key ∉ entries.map Prod.fst) : lookup key entries = none := by
  induction entries with
  | nil => rfl
  | cons entry rest ih =>
    rw [List.map_cons, List.mem_cons, not_or] at h
    rw [lookup, if_neg (Ne.symm h.1)]
    exact ih h.2

theorem mem_of_lookup {key : κ} {value : β} {entries : List (κ × β)}
    (h : lookup key entries = some value) : (key, value) ∈ entries := by
  induction entries with
  | nil => cases h
  | cons entry rest ih =>
    rw [lookup] at h
    split at h
    · next same =>
      cases h
      subst same
      exact List.mem_cons_self
    · exact List.mem_cons_of_mem _ (ih h)

theorem Distinct.lookup_of_mem {key : κ} {value : β} {entries : List (κ × β)}
    (h : Distinct entries) (mem : (key, value) ∈ entries) : lookup key entries = some value := by
  induction entries with
  | nil => cases mem
  | cons entry rest ih =>
    rw [lookup]
    rcases List.mem_cons.mp mem with rfl | later
    · rw [if_pos rfl]
    · have other : entry.1 ≠ key := by
        intro same
        have twice : entry.1 ∈ rest.map Prod.fst := by
          rw [same]
          exact List.mem_map_of_mem (f := Prod.fst) later
        exact (List.nodup_cons.mp h).1 twice
      rw [if_neg other]
      exact ih h.tail later

theorem Distinct.lookup_iff {key : κ} {value : β} {entries : List (κ × β)}
    (h : Distinct entries) : lookup key entries = some value ↔ (key, value) ∈ entries :=
  ⟨mem_of_lookup, h.lookup_of_mem⟩

theorem Distinct.lookup_perm {entries order : List (κ × β)} (h : Distinct entries)
    (same : order.Perm entries) (key : κ) : lookup key order = lookup key entries := by
  apply Option.ext
  intro value
  rw [(h.perm same).lookup_iff, h.lookup_iff, same.mem_iff]

/-- When distinct keys are put in, each has the value that is put in. -/
theorem Distinct.get?_insertAll {entries : List (κ × β)} (h : Distinct entries)
    (d : Dictionary κ β) (key : κ) :
    (d.insertAll entries).get? key = (lookup key entries).or (d.get? key) := by
  induction entries generalizing d with
  | nil => rfl
  | cons entry rest ih =>
    rw [insertAll_cons, ih h.tail, get?_insert, lookup]
    split
    · next same =>
      have once : key ∉ rest.map Prod.fst := same ▸ (List.nodup_cons.mp h).1
      rw [lookup_eq_none once]
      rfl
    · rfl

theorem map_fst_put (key : κ) (value : β) (entries : List (κ × β)) :
    (put key value entries).map Prod.fst = entries.map Prod.fst ∨
      key ∉ entries.map Prod.fst ∧
        (put key value entries).map Prod.fst = entries.map Prod.fst ++ [key] := by
  induction entries with
  | nil => exact .inr ⟨by simp, rfl⟩
  | cons entry rest ih =>
    rw [put]
    split
    · next same =>
      left
      simp [same]
    · next other =>
      rcases ih with kept | ⟨fresh, added⟩
      · left
        simp [kept]
      · right
        constructor
        · simpa [Ne.symm other] using fresh
        · simp [added]

theorem Distinct.put {entries : List (κ × β)} (h : Distinct entries) (key : κ) (value : β) :
    Distinct (put key value entries) := by
  unfold Distinct
  rcases map_fst_put key value entries with kept | ⟨fresh, added⟩
  · rwa [kept]
  · rw [added]
    exact List.Nodup.append h (List.nodup_singleton key) (by simpa using fresh)

theorem Distinct.insertAll {d : Dictionary κ β} (h : Distinct d.entries)
    (entries : List (κ × β)) : Distinct (d.insertAll entries).entries := by
  induction entries generalizing d with
  | nil => exact h
  | cons entry rest ih => exact ih (h.put entry.1 entry.2)

theorem distinct_ofList (entries : List (κ × β)) : Distinct (ofList entries).entries :=
  Distinct.insertAll (d := .empty) List.nodup_nil entries

end Dictionary

namespace Document

open Dictionary

theorem Value.distinct_of_table {β : Type} {decode : Value → Option β} {v : Value}
    {d : Dictionary String β} (h : v.table? decode = some d) : Distinct d.entries := by
  cases v with
  | object members =>
    simp only [Value.table?, Option.bind_eq_bind, Option.bind_eq_some_iff, Option.some.injEq] at h
    obtain ⟨entries, -, rfl⟩ := h
    exact distinct_ofList entries
  | null | bool | number | string | array => cases h

/-- The tables of entries have distinct keys. -/
structure Entries.Distinct (entries : Entries) : Prop where
  symbols : Dictionary.Distinct entries.symbols.entries
  mappings : Dictionary.Distinct entries.mappings.entries
  charFormulas : Dictionary.Distinct entries.charFormulas.entries
  commands : Dictionary.Distinct entries.commands.entries
  predefined : Dictionary.Distinct entries.predefined.entries

theorem Entries.distinct_of_text {text : String} {entries : Entries}
    (h : Entries.ofText? text = some entries) : entries.Distinct := by
  have table {β : Type} {decode : Value → Option β} {v : Option Value}
      {read : Option (Dictionary String β)} {d : Dictionary String β} (h : read = some d)
      (absent : v = none → read = some .empty) (present : ∀ w, v = some w → read = w.table? decode) :
      Dictionary.Distinct d.entries := by
    cases v with
    | none =>
      rw [absent rfl] at h
      cases h
      exact List.nodup_nil
    | some w =>
      rw [present w rfl] at h
      exact Value.distinct_of_table h
  simp only [Entries.ofText?, Option.bind_eq_bind, Option.bind_eq_some_iff] at h
  obtain ⟨v, -, fields, -, h⟩ := h
  split at h
  · next first second third fourth fifth =>
    simp only [Option.bind_eq_some_iff, Option.some.injEq] at h
    obtain ⟨symbols, hs, mappings, hm, charFormulas, hc, commands, ho, predefined, hp, rfl⟩ := h
    constructor
    · exact table (v := first) hs (by rintro rfl; rfl) (by rintro w rfl; rfl)
    · exact table (v := second) hm (by rintro rfl; rfl) (by rintro w rfl; rfl)
    · exact table (v := third) hc (by rintro rfl; rfl) (by rintro w rfl; rfl)
    · exact table (v := fourth) ho (by rintro rfl; rfl) (by rintro w rfl; rfl)
    · exact table (v := fifth) hp (by rintro rfl; rfl) (by rintro w rfl; rfl)
  · cases h

end Document

end FormulaInk
