import FormulaInk.Registry.Read

/-! What a registry reads and fetches, in terms of the readers of sources. -/

namespace FormulaInk

theorem mapError_ok {α ε δ : Type} {x : Except ε α} {f : ε → δ} {a : α} :
    x.mapError f = .ok a ↔ x = .ok a := by
  cases x with
  | error e =>
    constructor <;> intro h <;> cases h
  | ok b =>
    constructor <;> intro h <;> cases h <;> rfl

theorem mapError_parse {α : Type} {x : Except (Halt Source.ParseError) α} {e : Source.ParseError} :
    x.mapError (Halt.map Error.parse) = .error (.fault (.parse e)) ↔ x = .error (.fault e) := by
  rcases x with (d | p) | b <;> constructor <;> intro h <;> cases h <;> rfl

theorem mapError_panic {α ε δ : Type} {x : Except (Halt ε) α} {f : ε → δ} {p : Panic} :
    x.mapError (Halt.map f) = .error (.panic p) ↔ x = .error (.panic p) := by
  rcases x with (d | p) | b <;> constructor <;> intro h <;> cases h <;> rfl

namespace Registry

section Reading

variable {r : Registry} {depth : Nat} {mode : Source.Mode} {source : String}

theorem readAt_ok {items : List (Atom Float32)} :
    (r.readAt depth mode source).result = .ok items ↔
      (Source.atDepth r.toTables depth mode source.toList { cache := r.cache }).1 = .ok items :=
  mapError_ok

theorem readAt_error {e : Source.ParseError} :
    (r.readAt depth mode source).result = .error (.fault (.parse e)) ↔
      (Source.atDepth r.toTables depth mode source.toList { cache := r.cache }).1 =
        .error (.fault e) :=
  mapError_parse

theorem readAt_panic {p : Panic} :
    (r.readAt depth mode source).result = .error (.panic p) ↔
      (Source.atDepth r.toTables depth mode source.toList { cache := r.cache }).1 =
        .error (.panic p) :=
  mapError_panic

theorem registry_readAt :
    (r.readAt depth mode source).registry =
      { r with cache :=
          (Source.atDepth r.toTables depth mode source.toList { cache := r.cache }).2.cache } :=
  rfl

theorem formula_ok {f : Formula} :
    (r.formula mode source).result = .ok f ↔
      ∃ items, (Source.atDepth r.toTables 0 mode source.toList { cache := r.cache }).1 = .ok items ∧
        Formula.empty.addAll items = f := by
  show (r.readAt 0 mode source).result.map Formula.empty.addAll = .ok f ↔ _
  constructor
  · intro h
    cases found : (r.readAt 0 mode source).result with
    | error e =>
      rw [found] at h
      cases h
    | ok items =>
      rw [found] at h
      exact ⟨items, readAt_ok.mp found, Except.ok.inj h⟩
  · rintro ⟨items, found, rfl⟩
    rw [readAt_ok.mpr found]
    rfl

end Reading

section Get

variable {r : Registry} {name text : String}

theorem toTables_get (r : Registry) (name : String) :
    (r.get name).registry.toTables = r.toTables := by
  unfold get
  split
  · rfl
  · split <;> rfl

theorem get_of_hit {f : Formula} (h : r.cache.get? name = some f) :
    r.get name = ⟨.ok f, r, []⟩ := by
  simp [get, h]

theorem get_of_unknown (h : r.cache.get? name = none) (known : r.predefined.get? name = none) :
    r.get name = ⟨.error (.fault (.lookup name)), r, []⟩ := by
  simp [get, h, known]

theorem get_of_miss (h : r.cache.get? name = none) (known : r.predefined.get? name = some text) :
    r.get name =
      ⟨(Source.predefined (Source.atDepth r.toTables 0) name text { cache := r.cache }).1.mapError
          (Halt.map .parse),
        { r with cache := (Source.predefined (Source.atDepth r.toTables 0) name text { cache := r.cache }).2.cache },
        (Source.predefined (Source.atDepth r.toTables 0) name text { cache := r.cache }).2.skipped⟩ := by
  simp [get, h, known]

end Get

end Registry

end FormulaInk
