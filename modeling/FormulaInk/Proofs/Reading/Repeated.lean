import FormulaInk.Proofs.Reading.Ending
import FormulaInk.Proofs.Registry.Meaning

/-! Reading again. A parser that stands no deeper than before, with every formula in its cache that
it had before, comes to the same value and the same fault, unless the limit on nesting stood in the
way before. It need not start the same parsers: a formula that is in the cache now is not read
again, and one that was read for it at another depth was read to the same items. -/

namespace FormulaInk

/-- Every formula of a cache is in another one. -/
def Cache.Within (c c' : Cache) : Prop := ∀ name f, c.get? name = some f → c'.get? name = some f

namespace Cache.Within

variable {c c' c'' : Cache} {name : String} {f : Formula}

theorem refl (c : Cache) : c.Within c := fun _ _ hit => hit

theorem trans (h : c.Within c') (h' : c'.Within c'') : c.Within c'' :=
  fun name f hit => h' name f (h name f hit)

theorem insert_of_miss (h : c.Within c') (miss : c.get? name = none) :
    c.Within (Dictionary.insert c' name f) := by
  intro other g hit
  have different : name ≠ other := by
    rintro rfl
    rw [miss] at hit
    cases hit
  rw [Dictionary.get?_insert, if_neg different]
  exact h other g hit

theorem insert_insert (h : c.Within c') : Cache.Within (c.insert name f) (c'.insert name f) := by
  intro other g hit
  rw [Dictionary.get?_insert] at hit ⊢
  split
  · rwa [if_pos ‹_›] at hit
  · rw [if_neg ‹_›] at hit
    exact h other g hit

theorem insert_left (h : c.Within c') (hit : c'.get? name = some f) :
    Cache.Within (c.insert name f) c' := by
  intro other g found
  rw [Dictionary.get?_insert] at found
  split at found
  · rename_i same
    cases same
    cases found
    exact hit
  · exact h other g found

end Cache.Within

namespace Source

/-- Whether a fault comes from the limit on nesting. -/
def Fault.isLimit : Fault → Bool
  | .tooDeep => true
  | .within _ fault => fault.isLimit
  | _ => false

/-- Neither the fault at which a reading ended nor one that it passed over comes from the limit. -/
structure Outcome.Unlimited {α : Type} (o : Outcome α) : Prop where
  ended : ∀ e, o.value = .error (.fault e) → e.fault.isLimit = false
  passed : ∀ e ∈ o.memo.skipped, e.fault.isLimit = false

theorem Outcome.Unlimited.of_map {α β : Type} {o : Outcome α} {f : α → β}
    (h : (o.map f).Unlimited) : o.Unlimited where
  ended e failed := h.ended e (by simp [Outcome.map, failed, Except.map])
  passed := h.passed

/-- A nested source is read clear of the limit if the token that stands for it is. -/
theorem Outcome.Unlimited.of_within {α β : Type} {o : Outcome α} {f : α → β} {origin : Origin}
    {start : Nat} {c : Cursor} {m : Memo}
    (h : (⟨(o.value.mapError (Halt.map fun e => ⟨start, .within origin e.fault⟩)).map f, c, m⟩ :
      Outcome β).Unlimited) (skipped : m.skipped = o.memo.skipped) : o.Unlimited where
  ended e failed := h.ended ⟨start, .within origin e.fault⟩ (by rw [failed]; rfl)
  passed := skipped ▸ h.passed

theorem Outcome.Unlimited.of_prefix {α β : Type} {o : Outcome β} {m : Memo} (h : o.Unlimited)
    (a : α) (c : Cursor) (skipped : m.skipped <+: o.memo.skipped) :
    (⟨.ok a, c, m⟩ : Outcome α).Unlimited where
  ended e failed := by cases failed
  passed e passed := h.passed e (skipped.subset passed)

theorem ok_of_mapped {α β ε δ : Type} {x : Except ε α} {f : ε → δ} {g : α → β}
    (h : ∃ b, (x.mapError f).map g = .ok b) : ∃ a, x = .ok a := by
  obtain ⟨b, ok⟩ := h
  cases x with
  | ok a => exact ⟨a, rfl⟩
  | error e => cases ok

theorem remember_ok {c : Cache} {name : String} {items : List (Atom Float32)} :
    remember c name (.ok items) = c.insert name (Formula.empty.addAll items) :=
  rfl

theorem within_remember {c c' : Cache} {name : String} (h : c.Within c')
    (miss : c.get? name = none) (value : Except (Halt ParseError) (List (Atom Float32))) :
    c.Within (remember c' name value) := by
  cases value with
  | ok items => exact h.insert_of_miss miss
  | error e => exact h

/-- From a place a task comes to the value and the place of an outcome, with a memo of the given
kind. -/
def ComesTo (t : Tables) (d : Nat) (mode : Mode) (k : Task) (c : Cursor) (m : Memo)
    (o : Outcome k.Result) (P : Memo → Prop) : Prop :=
  ∃ m' v, Reads t d mode k c m ⟨o.value, o.cursor, m'⟩ v ∧ P m'

/-- A rule with one premise, which leaves the memo alone. -/
theorem ComesTo.lift {t : Tables} {d : Nat} {mode : Mode} {k k' : Task} {c c' : Cursor} {m : Memo}
    {o : Outcome k.Result} {P : Memo → Prop} {g : Outcome k.Result → Outcome k'.Result}
    (h : ComesTo t d mode k c m o P)
    (same : ∀ m', g ⟨o.value, o.cursor, m'⟩ = ⟨(g o).value, (g o).cursor, m'⟩)
    (rule : ∀ {o v}, Reads t d mode k c m o v → Reads t d mode k' c' m (g o) v) :
    ComesTo t d mode k' c' m (g o) P := by
  obtain ⟨m', v, reads, kind⟩ := h
  have concluded := rule reads
  rw [same] at concluded
  exact ⟨m', v, concluded, kind⟩

namespace Reads

variable {t : Tables} {d d' : Nat} {mode : Mode} {k : Task} {c : Cursor} {m m' : Memo}
  {o o' : Outcome k.Result} {v v' : List Nat}

/-- A task comes to one outcome. -/
theorem unique (h : Reads t d mode k c m o v) (h' : Reads t d mode k c m o' v') : o = o' :=
  h.sound.symm.trans h'.sound

/-- What holds between memos when nothing is read, when a fault is passed over and when a formula is
kept, and of steps one after the other, holds between the memos before and after a task. -/
theorem relates {P : Mode → Memo → Memo → Prop} (refl : ∀ mode m, P mode m m)
    (trans : ∀ {mode m₁ m₂ m₃}, P mode m₁ m₂ → P mode m₂ m₃ → P mode m₁ m₃)
    (pass : ∀ m e, P .lenient m { m with skipped := m.skipped ++ [e] })
    (keep : ∀ {d mode name text m v} {o : Outcome (List (Atom Float32))},
      t.predefined.get? name = some text → m.cache.get? name = none →
      Reads t d .strict .whole (.start text.toList) m o v → P .strict m o.memo →
      P mode m { o.memo with cache := remember o.memo.cache name o.value })
    (h : Reads t d mode k c m o v) : P mode m o.memo := by
  induction h with
  | item _ _ _ _ first later | cons _ _ first later => exact trans first later
  | passed _ _ _ _ first later => exact trans (trans first (pass _ _)) later
  | predefined _ _ known _ miss reads ih => exact keep known miss reads ih
  | nested _ _ ih => exact ih
  | halted _ _ _ _ ih | script _ _ _ ih | another _ _ _ ih | argument _ _ _ ih | group _ ih
  | command _ ih | character _ _ _ ih | construct _ _ _ ih | name _ _ _ ih
  | textCommand _ _ _ _ _ ih
  | atomParam _ ih | optional _ _ ih | argsHalted _ ih => exact ih
  | _ => exact refl _ _

theorem grows (h : Reads t d mode k c m o v) : m.cache.Within o.memo.cache := by
  refine h.relates (P := fun _ m m' => m.cache.Within m'.cache) (fun _ _ => .refl _)
    (fun first later => first.trans later) (fun _ _ => .refl _) ?_
  intro d mode name text m v o _ miss _ grown
  exact within_remember grown miss o.value

theorem skipped_prefix (h : Reads t d mode k c m o v) : m.skipped <+: o.memo.skipped :=
  h.relates (P := fun _ m m' => m.skipped <+: m'.skipped) (fun _ _ => List.prefix_rfl)
    (fun first later => first.trans later) (fun _ _ => List.prefix_append ..)
    fun _ _ _ longer => longer

theorem skipped_strict (h : Reads t d .strict k c m o v) : o.memo.skipped = m.skipped := by
  refine h.relates (P := fun mode m m' => mode = .strict → m'.skipped = m.skipped)
    (fun _ _ _ => rfl) ?_ (fun _ _ lenient => by cases lenient) ?_ rfl
  · intro mode m₁ m₂ m₃ first later strict
    exact (later strict).trans (first strict)
  · intro d mode name text m v o _ _ _ same _
    exact same rfl

/-- What was read strictly is read again no deeper, from the formulas that the first reading left,
and now without a change. -/
theorem again (h : Reads t d mode k c m o v) (strict : mode = .strict)
    (ok : ∃ a, o.value = .ok a) (le : d' ≤ d) (within : o.memo.cache.Within m'.cache) :
    ComesTo t d' mode k c m' o (· = m') := by
  induction h generalizing d' with
  | unclosed | halted | unmatched | secondScript | argumentEnd | argumentMissing | unexpected
  | nameless | unknownSign | noRoom | textArgument | unknown | predefinedTooDeep | argsHalted
  | tooDeep =>
    obtain ⟨a, ok⟩ := ok
    cases ok
  | passed => cases strict
  | ended hs done => exact ⟨m', _, .ended hs done, rfl⟩
  | closed hs => exact ⟨m', _, .closed hs, rfl⟩
  | item hs other _ laterReads first later =>
    obtain ⟨m₂, v, first, rfl⟩ := first strict ⟨_, rfl⟩ le (laterReads.grows.trans within)
    obtain ⟨m₃, v', later, rfl⟩ := later strict ok le within
    have both := Reads.item hs other first later
    exact ⟨m₃, _, both, rfl⟩
  | script script hf _ ih =>
    exact (ih strict (Outcome.ok_of_map ok) le within).lift (fun _ => rfl) (.script script hf)
  | another brace script _ ih =>
    exact (ih strict (Outcome.ok_of_map ok) le within).lift (fun _ => rfl) (.another brace script)
  | argument hs present _ ih =>
    exact (ih strict ok le within).lift (fun _ => rfl) (.argument hs present)
  | group _ ih => exact (ih strict (Outcome.ok_of_map ok) le within).lift (fun _ => rfl) .group
  | command _ ih => exact (ih strict ok le within).lift (fun _ => rfl) .command
  | tie => exact ⟨m', _, .tie, rfl⟩
  | character plain found _ ih =>
    exact (ih strict ok le within).lift (fun _ => rfl) (.character plain found)
  | symbolCharacter plain missing found =>
    exact ⟨m', _, .symbolCharacter plain missing found, rfl⟩
  | itself plain missing unnamed => exact ⟨m', _, .itself plain missing unnamed, rfl⟩
  | construct letter built _ ih =>
    exact (ih strict (Outcome.ok_of_map ok) le within).lift (fun _ => rfl) (.construct letter built)
  | name letter other _ ih =>
    exact (ih strict ok le within).lift (fun _ => rfl) (.name letter other)
  | sign other found => exact ⟨m', _, .sign other found, rfl⟩
  | symbol found => exact ⟨m', _, .symbol found, rfl⟩
  | textCommand other found room read _ ih =>
    exact (ih strict ok le within).lift (fun _ => rfl) (.textCommand other found room read)
  | kept other text found room hit =>
    exact ⟨m', _, .kept other text found (by omega) (within _ _ hit), rfl⟩
  | @predefined d mode name start c m text o v other absent found room miss inner ih =>
    -- What was read for the name is in the cache now.
    obtain ⟨items, read⟩ := ok_of_mapped ok
    have hit : m'.cache.get? name = some (Formula.empty.addAll items) := by
      refine within name _ ?_
      rw [read, remember_ok, Dictionary.get?_insert, if_pos rfl]
    have again : Reads t d' mode (.lookup name start) c m' _ [] :=
      .kept other absent found (by omega) hit
    exact ⟨m', [], by rwa [read], rfl⟩
  | atomParam _ ih => exact (ih strict ok le within).lift (fun _ => rfl) .atomParam
  | optional hs _ ih =>
    exact (ih strict (Outcome.ok_of_map ok) le within).lift (fun _ => rfl) (.optional hs)
  | absent h => exact ⟨m', _, .absent h, rfl⟩
  | plain => exact ⟨m', _, .plain, rfl⟩
  | nil => exact ⟨m', _, .nil, rfl⟩
  | cons _ laterReads first later =>
    obtain ⟨m₂, v, first, rfl⟩ := first strict ⟨_, rfl⟩ le (laterReads.grows.trans within)
    obtain ⟨m₃, v', later, rfl⟩ := later strict (Outcome.ok_of_map ok) le within
    exact ⟨m₃, _, .cons first later, rfl⟩
  | nested room _ ih =>
    obtain ⟨m₂, v, ih, rfl⟩ := ih strict (ok_of_mapped ok) (Nat.succ_le_succ le) within
    exact ⟨m₂, _, .nested (by omega) ih, rfl⟩

end Reads

/-- The source of a name was read to a formula, and the formulas that this reading left are in the
cache. -/
inductive Grounded (t : Tables) (cache : Cache) : String → Formula → Prop where
  | intro {name text : String} {d : Nat} {m : Memo} {o : Outcome (List (Atom Float32))}
      {v : List Nat} {items : List (Atom Float32)} :
      t.predefined.get? name = some text →
      Reads t d .strict .whole (.start text.toList) m o v → o.value = .ok items →
      o.memo.cache.Within cache → Grounded t cache name (Formula.empty.addAll items)

/-- Every formula of a cache was in the base or was read with what the cache holds. -/
def GroundedOver (t : Tables) (base cache : Cache) : Prop :=
  Cache.All (fun name f => base.get? name = some f ∨ Grounded t cache name f) cache

variable {t : Tables} {base : Cache} {name text : String} {f : Formula} {m m' : Memo}

namespace Grounded

theorem mono {c c' : Cache} (h : Grounded t c name f) (within : c.Within c') :
    Grounded t c' name f := by
  cases h with
  | intro known read ok left => exact .intro known read ok (left.trans within)

/-- From a cache in which a formula is grounded its source is read again, not below a depth, and
nothing changes. -/
theorem again (h : Grounded t m.cache name f) (known : t.predefined.get? name = some text)
    (d : Nat) : ∃ d' ≤ d, ∃ items c v, f = Formula.empty.addAll items ∧
      Reads t d' .strict .whole (.start text.toList) m ⟨.ok items, c, m⟩ v := by
  cases h with
  | @intro _ depth _ _ _ items known' read ok left =>
    cases known.symm.trans known'
    obtain ⟨_, v, read, rfl⟩ := read.again rfl ⟨items, ok⟩ (Nat.min_le_left depth d) left
    rw [ok] at read
    exact ⟨min depth d, Nat.min_le_right depth d, items, _, v, rfl, read⟩

/-- A name that is grounded in what its source leaves was read to the formula that it is grounded
as. -/
theorem confirms {d : Nat} {o : Outcome (List (Atom Float32))} {v : List Nat}
    {items : List (Atom Float32)} (h : Grounded t o.memo.cache name f)
    (known : t.predefined.get? name = some text)
    (read : Reads t d .strict .whole (.start text.toList) m o v) (ok : o.value = .ok items) :
    f = Formula.empty.addAll items := by
  obtain ⟨d', le, items', c, v', rfl, first⟩ := h.again known d
  obtain ⟨_, v'', second, rfl⟩ := read.again rfl ⟨items, ok⟩ le (.refl o.memo.cache)
  have same := first.unique second
  rw [ok] at same
  cases same
  rfl

end Grounded

theorem GroundedOver.refl (t : Tables) (base : Cache) : GroundedOver t base base :=
  fun _ _ hit => .inl hit

theorem GroundedOver.remember {d : Nat} {o : Outcome (List (Atom Float32))} {v : List Nat}
    (left : GroundedOver t base o.memo.cache) (listed : base.Within m.cache)
    (miss : m.cache.get? name = none) (known : t.predefined.get? name = some text)
    (read : Reads t d .strict .whole (.start text.toList) m o v) :
    GroundedOver t base (remember o.memo.cache name o.value) := by
  cases value : o.value with
  | error e => exact left
  | ok items =>
    -- A formula that the reading left under the name itself would be the one put in now.
    have kept : o.memo.cache.Within
        (o.memo.cache.insert name (Formula.empty.addAll items)) := by
      intro other g hit
      rw [Dictionary.get?_insert]
      split
      · rename_i same
        cases same
        obtain old | grounded := left name g hit
        · cases miss.symm.trans (listed name g old)
        · rw [grounded.confirms known read value]
      · exact hit
    intro other g hit
    rw [remember_ok, Dictionary.get?_insert] at hit
    split at hit
    · rename_i same
      cases same
      cases hit
      exact .inr (.intro known read value kept)
    · obtain old | grounded := left other g hit
      · exact .inl old
      · exact .inr (grounded.mono kept)

/-- Every reading grounds the formulas that it adds. -/
theorem Reads.grounded {d : Nat} {mode : Mode} {k : Task} {c : Cursor} {o : Outcome k.Result}
    {v : List Nat} (h : Reads t d mode k c m o v) (listed : base.Within m.cache)
    (grounded : GroundedOver t base m.cache) : GroundedOver t base o.memo.cache := by
  have kept := h.relates
    (P := fun _ m m' => base.Within m.cache ∧ GroundedOver t base m.cache →
      base.Within m'.cache ∧ GroundedOver t base m'.cache)
    (fun _ _ => id) (fun first later start => later (first start)) (fun _ _ => id) ?_
  · exact (kept ⟨listed, grounded⟩).2
  · intro d mode name text m v o known miss read left start
    have inside := left start
    exact ⟨start.1.trans (within_remember read.grows miss o.value),
      inside.2.remember start.1 miss known read⟩

/-- A source that is read again, at any depth down to the given one, was read to the formula that
its name is grounded as. -/
theorem Grounded.settles {d : Nat} {o : Outcome (List (Atom Float32))}
    (h : Grounded t m.cache name f) (known : t.predefined.get? name = some text)
    (follows : ∀ d' ≤ d, ComesTo t d' .strict .whole (.start text.toList) m o
      fun m' => o.memo.cache.Within m'.cache) :
    ∃ items, o.value = .ok items ∧ f = Formula.empty.addAll items ∧
      o.memo.cache.Within m.cache := by
  obtain ⟨d', le, items, c, v, rfl, first⟩ := h.again known d
  obtain ⟨m', v', second, left⟩ := follows d' le
  have same := first.unique second
  have unchanged : m' = m := congrArg Outcome.memo same.symm
  rw [unchanged] at left
  exact ⟨items, congrArg Outcome.value same.symm, rfl, left⟩

/-- A reading clear of the limit comes to the same no deeper and from a larger cache, if the larger
cache holds nothing but what it held before and what was read since. -/
theorem Reads.follows {d d' : Nat} {mode : Mode} {k : Task} {c : Cursor} {o : Outcome k.Result}
    {v : List Nat} (h : Reads t d mode k c m o v) (unlimited : o.Unlimited) (le : d' ≤ d)
    (listed : base.Within m.cache) (within : m.cache.Within m'.cache)
    (grounded : GroundedOver t base m'.cache) :
    ComesTo t d' mode k c m' o fun m₂ => o.memo.cache.Within m₂.cache := by
  -- On the derivation: `base` stays, the cache of the first reading grows from it, and the cache of
  -- the second one holds that of the first at every step.
  induction h generalizing d' m' with
  | unclosed hs => exact ⟨m', _, .unclosed hs, within⟩
  | ended hs done => exact ⟨m', _, .ended hs done, within⟩
  | closed hs => exact ⟨m', _, .closed hs, within⟩
  | @item d mode close opened items c m ch rest n found after m₁ o v v' hs other firstReads
      laterReads first later =>
    have clear := unlimited.of_prefix found after laterReads.skipped_prefix
    obtain ⟨m₂, v, first, left⟩ := first clear le listed within grounded
    obtain ⟨m₃, v', later, left⟩ := later unlimited le (listed.trans firstReads.grows) left
      (first.grounded (listed.trans within) grounded)
    have both := Reads.item hs other first later
    exact ⟨m₃, _, both, left⟩
  | halted hs other ends _ ih =>
    obtain ⟨m₂, v, ih, left⟩ :=
      ih ⟨unlimited.ended, unlimited.passed⟩ le listed within grounded
    exact ⟨m₂, v, .halted hs other ends ih, left⟩
  | @passed d close opened items c m ch rest n e after m₁ o v v' hs other firstReads laterReads
      first later =>
    -- The fault stays in the memo to the end, where none is from the limit.
    have skipped := laterReads.skipped_prefix
    have clear : (⟨.error (.fault e), after, m₁⟩ : Outcome (List (Atom Float32))).Unlimited := by
      refine ⟨fun e' failed => ?_, fun e' passed => ?_⟩
      · obtain rfl := Halt.fault.inj (Except.error.inj failed)
        exact unlimited.passed e (skipped.subset (by simp))
      · exact unlimited.passed e' (skipped.subset (List.mem_append_left _ passed))
    obtain ⟨m₂, v, first, left⟩ := first clear le listed within grounded
    obtain ⟨m₃, v', later, left⟩ : ComesTo t d' .lenient (.sequence close opened (.empty :: items))
        after { m₂ with skipped := m₂.skipped ++ [e] } o fun m₃ => o.memo.cache.Within m₃.cache :=
      later unlimited le (listed.trans firstReads.grows) left
        (first.grounded (listed.trans within) grounded)
    have both := Reads.passed hs other first later
    exact ⟨m₃, _, both, left⟩
  | unmatched => exact ⟨m', _, .unmatched, within⟩
  | secondScript script hf => exact ⟨m', _, .secondScript script hf, within⟩
  | script script hf _ ih =>
    exact (ih unlimited.of_map le listed within grounded).lift (fun _ => rfl) (.script script hf)
  | another brace script _ ih =>
    exact (ih unlimited.of_map le listed within grounded).lift (fun _ => rfl)
      (.another brace script)
  | argumentEnd hs => exact ⟨m', _, .argumentEnd hs, within⟩
  | argumentMissing hs missing => exact ⟨m', _, .argumentMissing hs missing, within⟩
  | argument hs present _ ih =>
    exact (ih unlimited le listed within grounded).lift (fun _ => rfl) (.argument hs present)
  | group _ ih =>
    exact (ih unlimited.of_map le listed within grounded).lift (fun _ => rfl) .group
  | command _ ih => exact (ih unlimited le listed within grounded).lift (fun _ => rfl) .command
  | unexpected ch => exact ⟨m', _, .unexpected ch, within⟩
  | tie => exact ⟨m', _, .tie, within⟩
  | character plain found _ ih =>
    exact (ih unlimited le listed within grounded).lift (fun _ => rfl) (.character plain found)
  | symbolCharacter plain missing found =>
    exact ⟨m', _, .symbolCharacter plain missing found, within⟩
  | itself plain missing unnamed => exact ⟨m', _, .itself plain missing unnamed, within⟩
  | nameless => exact ⟨m', _, .nameless, within⟩
  | construct letter built _ ih =>
    exact (ih unlimited.of_map le listed within grounded).lift (fun _ => rfl)
      (.construct letter built)
  | name letter other _ ih =>
    exact (ih unlimited le listed within grounded).lift (fun _ => rfl) (.name letter other)
  | sign other found => exact ⟨m', _, .sign other found, within⟩
  | unknownSign other missing => exact ⟨m', _, .unknownSign other missing, within⟩
  | symbol found => exact ⟨m', _, .symbol found, within⟩
  | noRoom other found many => exact ⟨m', _, .noRoom other found many, within⟩
  | textArgument other found room read =>
    exact ⟨m', _, .textArgument other found room read, within⟩
  | textCommand other found room read _ ih =>
    exact (ih unlimited le listed within grounded).lift (fun _ => rfl)
      (.textCommand other found room read)
  | unknown other absent missing => exact ⟨m', _, .unknown other absent missing, within⟩
  | predefinedTooDeep | tooDeep => cases unlimited.ended _ rfl
  | kept other absent found room hit =>
    have still := within _ _ hit
    exact ⟨m', _, .kept other absent found (by omega) still, within⟩
  | @predefined d mode name start c m text o v other absent found room miss inner ih =>
    have clear := unlimited.of_within (o := o) rfl
    cases hit : m'.cache.get? name with
    | none =>
      obtain ⟨m₂, v, ih, left⟩ := ih clear (Nat.succ_le_succ le) listed within grounded
      refine ⟨{ m₂ with cache := remember m₂.cache name o.value }, _,
        .predefined other absent found (by omega) hit ih, ?_⟩
      cases o.value with
      | ok items => exact left.insert_insert
      | error e => exact left
    | some f =>
      -- The formula is not from the base, which the first reading had; so it was read since.
      have read : Grounded t m'.cache name f := by
        obtain old | read := grounded name f hit
        · cases miss.symm.trans (listed name f old)
        · exact read
      obtain ⟨items, value, rfl, left⟩ := read.settles found
        fun depth no_deeper => ih clear no_deeper listed within grounded
      have again : Reads t d' mode (.lookup name start) c m' _ [] :=
        .kept other absent found (by omega) hit
      refine ⟨m', [], by rwa [value], ?_⟩
      rw [value, remember_ok]
      exact left.insert_left hit
  | atomParam _ ih =>
    exact (ih unlimited le listed within grounded).lift (fun _ => rfl) .atomParam
  | optional hs _ ih =>
    exact (ih unlimited.of_map le listed within grounded).lift (fun _ => rfl) (.optional hs)
  | absent h => exact ⟨m', _, .absent h, within⟩
  | plain => exact ⟨m', _, .plain, within⟩
  | nil => exact ⟨m', _, .nil, within⟩
  | @argsHalted d mode start p ps c m e after m₁ v _ ih =>
    have clear : (⟨.error e, after, m₁⟩ : Outcome p.Value).Unlimited :=
      ⟨fun e' failed => unlimited.ended e' (congrArg Except.error (Except.error.inj failed)),
        unlimited.passed⟩
    obtain ⟨m₂, v, ih, left⟩ := ih clear le listed within grounded
    exact ⟨m₂, v, .argsHalted ih, left⟩
  | @cons d mode start p ps c m a after m₁ o v v' firstReads laterReads first later =>
    have clear := unlimited.of_prefix a after laterReads.skipped_prefix
    obtain ⟨m₂, v, first, left⟩ := first clear le listed within grounded
    obtain ⟨m₃, v', later, left⟩ := later unlimited.of_map le (listed.trans firstReads.grows) left
      (first.grounded (listed.trans within) grounded)
    exact ⟨m₃, _, .cons first later, left⟩
  | nested room _ ih =>
    obtain ⟨m₂, v, ih, left⟩ :=
      ih (unlimited.of_within rfl) (Nat.succ_le_succ le) listed within grounded
    exact ⟨m₂, _, .nested (by omega) ih, left⟩

end Source

end FormulaInk
