import Mathlib
import FormulaInk.Proofs.Reading.Lenient
import FormulaInk.Proofs.Reading.Repeated
import FormulaInk.Proofs.Registry.Reached

/-! Reading from a registry that was read from before. Without a registration in between the cache
only grows, by formulas that were read with what it holds. So a read comes to what it came to
before, unless it was refused for the limit on nesting. A cached formula takes no levels under the
limit: what was refused may be read later. -/

namespace FormulaInk

open Source

/-- A call on a registry that only reads. -/
inductive Query where
  | get (name : String)
  | read (mode : Mode) (source : String)

def Query.call : Query → Call
  | get name => .get name
  | read mode source => .read mode source

namespace Registry

/-- The registry that queries leave, the first one first. -/
def queries (r : Registry) (history : List Query) : Registry := r.calls (history.map Query.call)

@[simp] theorem queries_nil (r : Registry) : r.queries [] = r := rfl

@[simp] theorem queries_cons (r : Registry) (q : Query) (history : List Query) :
    r.queries (q :: history) = (r.call q.call).queries history := rfl

theorem skipped_readAt (r : Registry) (depth : Nat) (source : String) :
    (r.readAt depth .strict source).skipped = [] := by
  obtain ⟨o, v, reads⟩ := ends r.toTables depth .strict .whole (.start source.toList)
    { cache := r.cache }
  rw [readAt_of_reads reads]
  exact reads.skipped_strict

/-- A registry is left of another one by reads: it holds the formulas that were there and such that
were read from what it holds. -/
structure LeftOf (r r' : Registry) : Prop where
  tables : r'.toTables = r.toTables
  listed : r.cache.Within r'.cache
  grounded : GroundedOver r.toTables r.cache r'.cache

namespace LeftOf

variable {r r' : Registry}

theorem refl (r : Registry) : LeftOf r r := ⟨rfl, .refl _, .refl _ _⟩

theorem read (h : LeftOf r r') (depth : Nat) (mode : Mode) (source : String) :
    LeftOf r (r'.readAt depth mode source).registry := by
  obtain ⟨o, v, reads⟩ := ends r'.toTables depth mode .whole (.start source.toList)
    { cache := r'.cache }
  rw [readAt_of_reads reads]
  refine ⟨h.tables, h.listed.trans reads.grows, ?_⟩
  rw [h.tables] at reads
  exact reads.grounded h.listed h.grounded

theorem get (h : LeftOf r r') (name : String) : LeftOf r (r'.get name).registry := by
  cases hit : r'.cache.get? name with
  | some f =>
    rw [get_of_hit hit]
    exact h
  | none =>
    cases known : r'.predefined.get? name with
    | none =>
      rw [get_of_unknown hit known]
      exact h
    | some text =>
      obtain ⟨o, v, reads⟩ := ends r'.toTables 0 .strict .whole (.start text.toList)
        { cache := r'.cache }
      rw [get_of_reads hit known reads]
      refine ⟨h.tables, h.listed.trans (within_remember reads.grows hit _), ?_⟩
      rw [h.tables] at reads known
      exact (reads.grounded h.listed h.grounded).remember h.listed hit known reads

theorem call (h : LeftOf r r') (q : Query) : LeftOf r (r'.call q.call) := by
  cases q with
  | get name => exact h.get name
  | read mode source => exact h.read 0 mode source

theorem queries (h : LeftOf r r') (history : List Query) : LeftOf r (r'.queries history) := by
  induction history generalizing r' with
  | nil => exact h
  | cons q history ih => exact ih (h.call q)

/-- A reading clear of the limit comes to the same in what reads leave, and no deeper. -/
theorem follows (h : LeftOf r r') {d d' : Nat} {mode : Mode} {source : List Char}
    {o : Outcome (List (Atom Float32))} {v : List Nat}
    (reads : Reads r.toTables d mode .whole (.start source) { cache := r.cache } o v)
    (unlimited : o.Unlimited) (le : d' ≤ d) :
    ComesTo r'.toTables d' mode .whole (.start source) { cache := r'.cache } o
      fun m => o.memo.cache.Within m.cache := by
  rw [h.tables]
  exact reads.follows unlimited le (.refl _) h.listed h.grounded

/-- A source that was read clear of the limit is read to the same, and no deeper. -/
theorem result_readAt (h : LeftOf r r') {depth depth' : Nat} {mode : Mode} {source : String}
    (ended : ∀ e, (r.readAt depth mode source).result = .error (.fault (.parse e)) →
      e.fault.isLimit = false)
    (passed : ∀ e ∈ (r.readAt depth mode source).skipped, e.fault.isLimit = false)
    (le : depth' ≤ depth) :
    (r'.readAt depth' mode source).result = (r.readAt depth mode source).result := by
  obtain ⟨o, v, reads⟩ := ends r.toTables depth mode .whole (.start source.toList)
    { cache := r.cache }
  rw [readAt_of_reads reads] at ended passed ⊢
  have unlimited : o.Unlimited := ⟨fun e failed => ended e (mapError_parse.mpr failed), passed⟩
  obtain ⟨m', v', again, -⟩ := h.follows reads unlimited le
  rw [readAt_of_reads again]

/-- A source that was read strictly is read to the same, and no deeper. -/
theorem readAt_ok (h : LeftOf r r') {depth depth' : Nat} {source : String}
    {items : List (Atom Float32)} (ok : (r.readAt depth .strict source).result = .ok items)
    (le : depth' ≤ depth) : (r'.readAt depth' .strict source).result = .ok items := by
  rw [← ok]
  refine h.result_readAt (fun e failed => ?_) (fun e passed => ?_) le
  · cases ok.symm.trans failed
  · rw [skipped_readAt] at passed
    cases passed

theorem unknown (h : LeftOf r r') {name : String} (miss : r.cache.get? name = none)
    (known : r.predefined.get? name = none) : r'.cache.get? name = none := by
  cases hit : r'.cache.get? name with
  | none => rfl
  | some f =>
    obtain old | ⟨found, -, -, -⟩ := h.grounded name f hit
    · cases miss.symm.trans old
    · cases known.symm.trans found

/-- What was fetched clear of the limit is fetched again. -/
theorem result_get (h : LeftOf r r') {name : String}
    (ended : ∀ e, (r.get name).result = .error (.fault (.parse e)) → e.fault.isLimit = false) :
    (r'.get name).result = (r.get name).result := by
  have names : r'.predefined = r.predefined := congrArg Tables.predefined h.tables
  cases hit : r.cache.get? name with
  | some f => rw [get_of_hit hit, get_of_hit (h.listed name f hit)]
  | none =>
    cases known : r.predefined.get? name with
    | none =>
      have known' : r'.predefined.get? name = none := names ▸ known
      rw [get_of_unknown hit known, get_of_unknown (h.unknown hit known) known']
    | some text =>
      have known' : r'.predefined.get? name = some text := names ▸ known
      obtain ⟨o, v, reads⟩ := ends r.toTables 0 .strict .whole (.start text.toList)
        { cache := r.cache }
      have fetched := get_of_reads hit known reads
      rw [fetched] at ended ⊢
      have unlimited : o.Unlimited := by
        refine ⟨fun e failed => ended e (by rw [failed]; rfl), fun e passed => ?_⟩
        rw [reads.skipped_strict] at passed
        cases passed
      have follows := fun d' (le : d' ≤ 0) => h.follows reads unlimited le
      cases hit' : r'.cache.get? name with
      | none =>
        obtain ⟨m', v', again, -⟩ := follows 0 (Nat.le_refl 0)
        rw [get_of_reads hit' known' again]
      | some f =>
        have read : Grounded r'.toTables r'.cache name f := by
          obtain old | read := h.grounded name f hit'
          · cases hit.symm.trans old
          · exact h.tables ▸ read
        obtain ⟨items, value, rfl, -⟩ :=
          Grounded.settles (m := { cache := r'.cache }) read known' follows
        rw [get_of_hit hit', value]
        rfl

end LeftOf

/-- After any queries a name is fetched, and a source is read strictly, as before, unless that was
refused for the limit on nesting; and a source is read leniently as before, unless a fault from that
limit was passed over. -/
theorem result_queries (r : Registry) (history : List Query) :
    (∀ name, (∀ e, (r.get name).result = .error (.fault (.parse e)) → e.fault.isLimit = false) →
      ((r.queries history).get name).result = (r.get name).result) ∧
    (∀ source, (∀ e, (r.read .strict source).result = .error (.fault (.parse e)) →
        e.fault.isLimit = false) →
      ((r.queries history).read .strict source).result = (r.read .strict source).result) ∧
    ∀ source, (∀ e ∈ (r.read .lenient source).skipped, e.fault.isLimit = false) →
      ((r.queries history).read .lenient source).result = (r.read .lenient source).result := by
  have left : LeftOf r (r.queries history) := (LeftOf.refl r).queries history
  refine ⟨fun name ended => left.result_get ended, fun source ended => ?_, fun source passed => ?_⟩
  · refine left.result_readAt ended (fun e passed => ?_) (Nat.le_refl 0)
    have none : (r.read .strict source).skipped = [] := skipped_readAt r 0 source
    rw [Registry.read] at none
    rw [none] at passed
    cases passed
  · refine left.result_readAt (fun e failed => ?_) passed (Nat.le_refl 0)
    obtain ⟨items, read⟩ | ⟨p, panics⟩ := r.readAt_lenient 0 source
    · cases failed.symm.trans read
    · cases failed.symm.trans panics

/-- A registry in which each letter stands for the next one, and the last but two for a name: the
first letter leads down to the limit. -/
def ladder : Registry where
  charFormulas :=
    let letters := "abcdefghijklmnopqrstuvwxyzABCDE".toList
    ⟨('F', "G") :: letters.zip (letters.tail.map String.singleton ++ ["\\x"])⟩
  predefined := ⟨[("x", "F"), ("w", "a")]⟩

theorem result_queries_ladder :
    ((ladder.queries [.get "x"]).get "x").result = (ladder.get "x").result ∧
    ((ladder.queries [.get "x"]).read .strict "\x7d").result = (ladder.read .strict "\x7d").result ∧
    ((ladder.queries [.get "x"]).read .lenient "\\x\x7d").result =
      (ladder.read .lenient "\\x\x7d").result := by
  have fetched : (ladder.get "x").result.isOk = true := by cbv
  have fault : (ladder.read .strict "\x7d").result =
      .error (.fault (.parse ⟨0, .unmatchedBrace⟩)) := by cbv
  have passed : (ladder.read .lenient "\\x\x7d").skipped = [⟨2, .unmatchedBrace⟩] := by cbv
  have same := result_queries ladder [.get "x"]
  refine ⟨same.1 "x" fun e failed => ?_, same.2.1 "\x7d" fun e failed => ?_,
    same.2.2 "\\x\x7d" fun e skipped => ?_⟩
  · rw [failed] at fetched
    cases fetched
  · cases fault.symm.trans failed
    rfl
  · rw [passed, List.mem_singleton] at skipped
    rw [skipped]
    rfl

set_option maxRecDepth 20000 in
/-- What was refused for the limit may be read after a query. -/
theorem result_queries_ne :
    ((ladder.get "w").result.isOk = false ∧
      ((ladder.queries [.get "x"]).get "w").result.isOk = true) ∧
    ((ladder.read .strict "a").result.isOk = false ∧
      ((ladder.queries [.get "x"]).read .strict "a").result.isOk = true) ∧
    ((ladder.read .lenient "a").result = .ok [.empty] ∧
      ((ladder.queries [.get "x"]).read .lenient "a").result = .ok [.char 'G']) := by
  have get : (ladder.get "w").result.isOk = false := by cbv
  have get' : ((ladder.queries [.get "x"]).get "w").result.isOk = true := by cbv
  have strict : (ladder.read .strict "a").result.isOk = false := by cbv
  have strict' : ((ladder.queries [.get "x"]).read .strict "a").result.isOk = true := by cbv
  have lenient : (ladder.read .lenient "a").result = .ok [.empty] := by cbv
  have lenient' : ((ladder.queries [.get "x"]).read .lenient "a").result = .ok [.char 'G'] := by
    cbv
  exact ⟨⟨get, get'⟩, ⟨strict, strict'⟩, lenient, lenient'⟩

/-- Queries leave formulas that their names come to. -/
theorem means_queries {r : Registry} (h : Cache.All (Means r.toTables) r.cache)
    (history : List Query) : Cache.All (Means r.toTables) (r.queries history).cache := by
  induction history generalizing r with
  | nil => exact h
  | cons q history ih =>
    have tables : (r.call q.call).toTables = r.toTables := ((LeftOf.refl r).call q).tables
    rw [queries_cons, ← tables]
    refine ih ?_
    rw [tables]
    cases q with
    | get name => exact (h.get (fun levels => Means.yields levels) name).1
    | read mode source => exact h.read (fun levels => Means.yields levels) mode source

/-- A strict reading that succeeds depends neither on what was queried before, if the cache was
empty at first, nor on the depth; and it succeeds at every smaller depth too. -/
theorem readAt_queries (r : Registry) :
    (r.cache = .empty → ∀ (history history' : List Query) (depth depth' : Nat) (source : String)
      (items items' : List (Atom Float32)),
      ((r.queries history).readAt depth .strict source).result = .ok items →
      ((r.queries history').readAt depth' .strict source).result = .ok items' → items = items') ∧
    ∀ (depth depth' : Nat) (source : String) (items : List (Atom Float32)), depth' ≤ depth →
      (r.readAt depth .strict source).result = .ok items →
      (r.readAt depth' .strict source).result = .ok items := by
  constructor
  · intro empty history history' depth depth' source items items' read read'
    have none : Cache.All (Means r.toTables) r.cache := by
      rw [empty]
      exact .none
    have tables := fun history => ((LeftOf.refl r).queries history).tables
    have admits : Cache.All r.toTables.Admits (r.queries history).cache :=
      fun name f hit g means => (means_queries none history name f hit).unique means
    rw [readAt_ok, tables] at read read'
    exact Means.confirms (.refl _) _ admits (means_queries none history') read read'
  · intro depth depth' source items le read
    exact (LeftOf.refl r).readAt_ok read le

/-- The first reading is from an empty cache. The second one would be refused without the formula
that the query left in the cache. -/
theorem readAt_queries_ladder :
    (ladder.readAt 0 .strict "D").result = .ok [.char 'G'] ∧
    ((ladder.queries [.get "x"]).readAt 29 .strict "D").result =
      (ladder.readAt 0 .strict "D").result ∧
    (ladder.readAt 5 .strict "D").result = (ladder.readAt 28 .strict "D").result := by
  have cold : ((ladder.queries []).readAt 0 .strict "D").result = .ok [.char 'G'] := by cbv
  have warm : ((ladder.queries [.get "x"]).readAt 29 .strict "D").result = .ok [.char 'G'] := by
    cbv
  have deep : (ladder.readAt 28 .strict "D").result = .ok [.char 'G'] := by cbv
  have same := (readAt_queries ladder).1 rfl [] [.get "x"] 0 29 "D" _ _ cold warm
  have higher := (readAt_queries ladder).2 28 5 "D" _ (by decide) deep
  exact ⟨cold, (warm.trans (congrArg Except.ok same.symm)).trans cold.symm, higher.trans deep.symm⟩

end Registry

end FormulaInk
