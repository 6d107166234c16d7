import FormulaInk.Proofs.Atom.Nodes
import FormulaInk.Proofs.Formula.Appending
import FormulaInk.Proofs.Reading.Ending
import FormulaInk.Proofs.Registry.Reached

/-! What holds of every atom that is read. A kind of atoms that has the atoms of single characters
and is closed under what groups, scripts, built-in commands and formulas make of its atoms has all
atoms that are read, and the trees of all formulas that are kept in registries. -/

namespace FormulaInk

namespace Source

/-- The value is what the reader finds in some source. -/
def Plain.Finds (p : Plain) (value : p.Value) : Prop :=
  ∃ t mode owner c, (p.read t mode owner c).1 = .ok value

/-- What a built-in command makes of atoms of a kind and of values that readers find. -/
structure Built (P : Atom Float32 → Prop) (a : Atom Float32) : Prop where
  parts : ∀ b ∈ a.parts, P b
  ne_breakMark : a ≠ .breakMark
  ne_row : ∀ items, a ≠ .row items
  ne_scripts : ∀ base sup sub, a ≠ .scripts base sup sub
  rotated : ∀ degrees base, a = .rotated degrees base → Plain.number.Finds degrees
  scaled : ∀ x y base, a = .scaled x y base →
    Plain.number.Finds x ∧ (y = x ∨ Plain.optionalNumber.Finds (some y))
  strut : ∀ width height depth, a = .strut width height depth →
    Plain.length.Finds width ∧ height.value = Float32.ofNat 0 ∧ depth.value = Float32.ofNat 0

/-- A kind of atoms that nothing leads out of that is done while a source is read. -/
structure Closed (P : Atom Float32 → Prop) : Prop where
  empty : P .empty
  char : ∀ ch, P (.char ch)
  symbol : ∀ name ch kind, P (.symbol name ch kind)
  space : ∀ kind, P (.space kind)
  row : ∀ {items}, (∀ a ∈ items, P a) → 2 ≤ items.length → P (.row items)
  script : ∀ {superscript script items}, (∀ a ∈ items, P a) → P script →
    ∀ a ∈ attachScript superscript script items, P a
  built : ∀ {a}, Built P a → P a
  formula : ∀ {items root}, (∀ a ∈ items, P a) → (Formula.empty.addAll items).root = some root →
    P root

section Kinds

variable (P : Atom Float32 → Prop)

/-- A formula whose tree is of the kind, if it has one. -/
def RootIs (f : Formula) : Prop := ∀ root ∈ f.root, P root

/-- A value for a parameter, with atoms of the kind. -/
def Param.Holds : (p : Param) → p.Value → Prop
  | .atom, a => P a
  | .optionalAtom, part => ∀ a ∈ part, P a
  | .plain p, value => p.Finds value

/-- Values for several parameters, with atoms of the kind. -/
def Args.Hold : (ps : List Param) → Args ps → Prop
  | [], () => True
  | p :: ps, (value, rest) => p.Holds P value ∧ Args.Hold ps rest

/-- The items that a task starts from are of the kind. -/
def Task.Starts : Task → Prop
  | .sequence _ _ items | .step items _ _ => ∀ a ∈ items, P a
  | _ => True

/-- What a task finds is of the kind. -/
def Task.Holds : (k : Task) → k.Result → Prop
  | .sequence .., items | .step .., items => ∀ a ∈ items, P a
  | .argument _, a | .atom .., a | .command _, a | .lookup .., a | .expansion .., a => P a
  | .param _ p, value => p.Holds P value
  | .args _ ps, values => Args.Hold P ps values

/-- What is found, if there was no fault, is as it should be, and the cache has formulas of the kind
in any case. -/
structure Keeps {α : Type} (Q : α → Prop) (o : Outcome α) : Prop where
  found : ∀ a, o.value = .ok a → Q a
  cache : Cache.All (fun _ => RootIs P) o.memo.cache

end Kinds

section Steps

variable {P : Atom Float32 → Prop} {α β : Type} {Q : α → Prop} {Q' : β → Prop} {o : Outcome α}
  {f : α → β} {c : Cursor} {m : Memo}

namespace Keeps

theorem ok {a : α} (h : Q a) (cache : Cache.All (fun _ => RootIs P) m.cache) :
    Keeps P Q ⟨.ok a, c, m⟩ where
  found b same := by
    obtain rfl := Except.ok.inj same
    exact h
  cache := cache

theorem error {e : Halt ParseError} (cache : Cache.All (fun _ => RootIs P) m.cache) :
    Keeps P Q ⟨.error e, c, m⟩ where
  found _ same := by cases same
  cache := cache

theorem map (h : Keeps P Q o) (keeps : ∀ a, Q a → Q' (f a)) : Keeps P Q' (o.map f) where
  found b same := by
    obtain ⟨value, c, m⟩ := o
    cases value with
    | ok a =>
      obtain rfl := Except.ok.inj same
      exact keeps a (h.found a rfl)
    | error e => cases same
  cache := h.cache

/-- What is found in a nested source, under the name of the token that stands for it. -/
theorem enclose {g : Halt ParseError → Halt ParseError} (h : Keeps P Q o)
    (keeps : ∀ a, Q a → Q' (f a)) (cache : Cache.All (fun _ => RootIs P) m.cache) :
    Keeps P Q' ⟨(o.value.mapError g).map f, c, m⟩ where
  found b same := by
    cases ok : o.value with
    | ok a =>
      rw [ok] at same
      obtain rfl := Except.ok.inj same
      exact keeps a (h.found a ok)
    | error e =>
      rw [ok] at same
      cases same
  cache := cache

end Keeps

/-- What a built-in command makes of its arguments. -/
theorem built_of_ofName? {name : String} {construct : Construct}
    (known : Construct.ofName? name = some construct) (t : Tables) {args : Args construct.params}
    (hold : Args.Hold P construct.params args) : Built P (construct.build t args) := by
  by_cases scale : name = "scalebox"
  · subst scale
    obtain rfl := Option.some.inj known
    obtain ⟨x, y, base, ⟨⟩⟩ := args
    obtain ⟨number, optional, atom, -⟩ := hold
    -- the second factor is the first one where it is absent
    have second : y.getD x = x ∨ Plain.optionalNumber.Finds (some (y.getD x)) := by
      cases y with
      | none => exact .inl rfl
      | some y => exact .inr optional
    constructor <;> simp_all [Atom.parts, Param.Holds]
  · unfold Construct.ofName? at known
    split at known <;> cases known
    all_goals first
      | exact absurd rfl scale
      | constructor <;>
          simp_all [Args.Hold, Param.Holds, Construct.text, Construct.wrapper, Construct.constant,
            Construct.styled, Atom.parts]
    all_goals exact hold.1

namespace Closed

variable {items : List (Atom Float32)}

theorem group (closed : Closed P) (h : ∀ a ∈ items, P a) : P (.group items) := by
  match items with
  | [] => exact closed.empty
  | [a] => exact h a (List.mem_singleton_self a)
  | a :: b :: rest => exact closed.row h (by simp)

theorem rootIs (closed : Closed P) (h : ∀ a ∈ items, P a) :
    RootIs P (Formula.empty.addAll items) :=
  fun _ known => closed.formula h known

theorem remember (closed : Closed P) {cache : Cache}
    {value : Except (Halt ParseError) (List (Atom Float32))}
    (h : Cache.All (fun _ => RootIs P) cache)
    (all : ∀ items, value = .ok items → ∀ a ∈ items, P a) (name : String) :
    Cache.All (fun _ => RootIs P) (remember cache name value) := by
  cases value with
  | ok items => exact h.insert (closed.rootIs (all items rfl))
  | error e => exact h

theorem ofSign (closed : Closed P) {t : Tables} {ch : Char} {a : Atom Float32}
    (known : ofSign? t ch = some a) : P a := by
  have named (name : String) : P (namedSymbol t name ch) := by
    unfold namedSymbol
    split
    · exact closed.symbol _ _ _
    · exact closed.char _
  unfold ofSign? at known
  split at known <;> cases known
  all_goals first | exact closed.space _ | exact named _ | exact closed.char _

end Closed

theorem RootIs.getD (closed : Closed P) {f : Formula} (h : RootIs P f) :
    P (f.root.getD .empty) := by
  cases root : f.root with
  | none => exact closed.empty
  | some a => exact h a root

end Steps

section Nodes

variable {items : List (Atom Float32)} {a : Atom Float32}

/-- Scripts that are set on items are made of the script, of the items and of their parts. -/
theorem parts_attachScript {superscript : Bool} {script : Atom Float32}
    (h : a ∈ attachScript superscript script items) :
    a ∈ items ∨ (∃ base sup sub, a = .scripts base sup sub) ∧
      ∀ b ∈ a.parts, b = script ∨ b = .empty ∨ b ∈ items ∨ ∃ c ∈ items, b ∈ c.parts := by
  unfold attachScript at h
  split at h
  · rename_i base sup sub rest
    obtain rfl | ha := List.mem_cons.mp h
    · refine .inr ⟨by split <;> exact ⟨_, _, _, rfl⟩, fun b hb => ?_⟩
      have inside : b = script ∨ b ∈ (Atom.scripts base sup sub).parts := by
        split at hb <;> simp_all [Atom.parts] <;> tauto
      obtain rfl | hb := inside
      · exact .inl rfl
      · exact .inr (.inr (.inr ⟨_, List.mem_cons_self, hb⟩))
    · exact .inl (List.mem_cons_of_mem _ ha)
  · rename_i base rest _
    obtain rfl | ha := List.mem_cons.mp h
    · refine .inr ⟨by split <;> exact ⟨_, _, _, rfl⟩, fun b hb => ?_⟩
      have inside : b = script ∨ b = base := by
        split at hb <;> simp_all [Atom.parts] <;> tauto
      obtain rfl | rfl := inside
      · exact .inl rfl
      · exact .inr (.inr (.inl List.mem_cons_self))
    · exact .inl (List.mem_cons_of_mem _ ha)
  · obtain rfl := List.mem_singleton.mp h
    refine .inr ⟨by split <;> exact ⟨_, _, _, rfl⟩, fun b hb => ?_⟩
    have inside : b = script ∨ b = .empty := by
      split at hb <;> simp_all [Atom.parts] <;> tauto
    exact inside.imp_right .inl

/-- The tree of a formula is made of the atoms that are added, of their parts and of breaks. -/
theorem parts_addAll (h : (Formula.empty.addAll items).root = some a) :
    a ∈ items ∨ (∃ row, a = .row row) ∧
      ∀ b ∈ a.parts, b = .breakMark ∨ b ∈ items ∨ ∃ c ∈ items, b ∈ c.parts := by
  obtain rfl | ⟨first, rest, -, rfl, rfl⟩ := Formula.root_of_addAll h
  · exact .inl List.mem_cons_self
  · refine .inr ⟨⟨_, rfl⟩, fun b hb => ?_⟩
    obtain hb | hb := List.mem_append.mp hb
    · obtain rfl | hb : b = first ∨ b ∈ first.parts := by
        unfold Formula.items at hb
        split at hb
        · exact .inr hb
        · exact .inl (List.mem_singleton.mp hb)
      · exact .inr (.inl List.mem_cons_self)
      · exact .inr (.inr ⟨first, List.mem_cons_self, hb⟩)
    · obtain ⟨c, hc, hb⟩ := List.mem_flatMap.mp hb
      obtain rfl | rfl := Formula.mem_marked hb
      · exact .inr (.inl (List.mem_cons_of_mem first hc))
      · exact .inl rfl

/-- What holds of each node that is made holds of all nodes of what is read. -/
theorem Closed.nodes {Q : Atom Float32 → Prop} (empty : Q .empty) (char : ∀ ch, Q (.char ch))
    (symbol : ∀ name ch kind, Q (.symbol name ch kind)) (space : ∀ kind, Q (.space kind))
    (row : ∀ items, Q (.row items)) (scripts : ∀ base sup sub, Q (.scripts base sup sub))
    (breakMark : Q .breakMark) (built : ∀ {P : Atom Float32 → Prop} {a}, Built P a → Q a) :
    Closed fun a => ∀ n ∈ a.nodes, Q n := by
  have leaf {a : Atom Float32} (self : Q a) (none : a.parts = []) : ∀ n ∈ a.nodes, Q n :=
    Atom.forall_nodes_iff.mpr ⟨self, by simp [none]⟩
  have part {a b : Atom Float32} (all : ∀ n ∈ a.nodes, Q n) (hb : b ∈ a.parts) :
      ∀ n ∈ b.nodes, Q n := (Atom.forall_nodes_iff.mp all).2 b hb
  refine ⟨leaf empty rfl, fun _ => leaf (char _) rfl, fun _ _ _ => leaf (symbol _ _ _) rfl,
    fun _ => leaf (space _) rfl, ?row, ?script, ?built, ?formula⟩
  case row =>
    intro items all _
    exact Atom.forall_nodes_iff.mpr ⟨row items, all⟩
  case script =>
    intro superscript script items all hscript a ha
    obtain ha | ⟨⟨base, sup, sub, rfl⟩, made⟩ := parts_attachScript ha
    · exact all a ha
    · refine Atom.forall_nodes_iff.mpr ⟨scripts base sup sub, fun b hb => ?_⟩
      obtain rfl | rfl | hb | ⟨c, hc, hb⟩ := made b hb
      · exact hscript
      · exact leaf empty rfl
      · exact all b hb
      · exact part (all c hc) hb
  case built =>
    intro a h
    exact Atom.forall_nodes_iff.mpr ⟨built h, h.parts⟩
  case formula =>
    intro items root all known
    obtain ha | ⟨⟨inner, rfl⟩, made⟩ := parts_addAll known
    · exact all root ha
    · refine Atom.forall_nodes_iff.mpr ⟨row inner, fun b hb => ?_⟩
      obtain rfl | hb | ⟨c, hc, hb⟩ := made b hb
      · exact leaf breakMark rfl
      · exact all b hb
      · exact part (all c hc) hb

end Nodes

/-- What is read is of a closed kind, if the items that are there and the formulas in the cache
are. -/
theorem Reads.keeps {P : Atom Float32 → Prop} (closed : Closed P) {t : Tables} {d : Nat}
    {mode : Mode} {k : Task} {c : Cursor} {m : Memo} {o : Outcome k.Result} {v : List Nat}
    (h : Reads t d mode k c m o v) (starts : k.Starts P)
    (cache : Cache.All (fun _ => RootIs P) m.cache) : Keeps P (k.Holds P) o := by
  induction h with
  | unclosed | unmatched | secondScript | argumentEnd | argumentMissing | unexpected | nameless
  | unknownSign | noRoom | textArgument | unknown | predefinedTooDeep | tooDeep =>
    exact .error cache
  | ended | closed => exact .ok (fun a ha => starts a (List.mem_reverse.mp ha)) cache
  | item _ _ _ _ first later =>
    have found := first starts cache
    exact later (found.found _ rfl) found.cache
  | halted _ _ _ _ ih => exact .error (ih starts cache).cache
  | passed _ _ _ _ first later =>
    refine later (fun a ha => ?_) (first starts cache).cache
    obtain rfl | ha := List.mem_cons.mp ha
    · exact closed.empty
    · exact starts a ha
  | script _ _ _ ih => exact (ih trivial cache).map fun _ script => closed.script starts script
  | another _ _ _ ih =>
    refine (ih trivial cache).map fun found atom a ha => ?_
    obtain rfl | ha := List.mem_cons.mp ha
    · exact atom
    · exact starts a ha
  | argument _ _ _ ih | command _ ih | character _ _ _ ih | name _ _ _ ih | textCommand _ _ _ _ _ ih
  | atomParam _ ih => exact ih trivial cache
  | group _ ih => exact (ih (by simp [Task.Starts]) cache).map fun _ items => closed.group items
  | tie => exact .ok (closed.space _) cache
  | symbolCharacter | symbol => exact .ok (closed.symbol _ _ _) cache
  | itself => exact .ok (closed.char _) cache
  | construct _ known _ ih =>
    exact (ih trivial cache).map fun _ args => closed.built (built_of_ofName? known _ args)
  | sign _ known => exact .ok (closed.ofSign known) cache
  | kept _ _ _ _ hit => exact .ok ((cache _ _ hit).getD closed) cache
  | @predefined _ _ _ _ _ _ _ o _ _ _ _ _ _ _ ih =>
    have found := ih (by simp [Task.Starts]) cache
    refine found.enclose (fun items all => (closed.rootIs all).getD closed) ?_
    exact closed.remember found.cache found.found _
  | optional _ _ ih =>
    refine (ih (by simp [Task.Starts]) cache).map fun items all a ha => ?_
    obtain rfl := Option.some.inj ha
    exact closed.group all
  | absent => exact .ok (by simp [Task.Holds, Param.Holds]) cache
  | plain => exact ⟨fun _ found => ⟨_, _, _, _, Outcome.found_of_ok found⟩, cache⟩
  | nil => exact .ok trivial cache
  | argsHalted _ ih => exact .error (ih trivial cache).cache
  | cons _ _ first later =>
    have value := first trivial cache
    exact (later trivial value.cache).map fun rest all => ⟨value.found _ rfl, all⟩
  | nested _ _ ih =>
    have found := ih (by simp [Task.Starts]) cache
    exact found.enclose (fun items all => closed.group all) found.cache

end Source

namespace Registry

variable {P : Atom Float32 → Prop} {r : Registry}

open Source

theorem rootIs_get (closed : Closed P) (r : Registry) (name : String)
    (all : Cache.All (fun _ => RootIs P) r.cache) :
    Cache.All (fun _ => RootIs P) (r.get name).registry.cache := by
  cases hit : r.cache.get? name with
  | some f => rwa [get_of_hit hit]
  | none =>
    cases known : r.predefined.get? name with
    | none => rwa [get_of_unknown hit known]
    | some text =>
      obtain ⟨o, v, reads⟩ :=
        ends r.toTables 0 .strict .whole (.start text.toList) { cache := r.cache }
      have keeps := reads.keeps closed (by simp [Task.Starts]) all
      rw [get_of_reads hit known reads]
      exact closed.remember keeps.cache keeps.found name

theorem keeps_readAt (closed : Closed P) (r : Registry) (depth : Nat) (mode : Mode)
    (source : String) (all : Cache.All (fun _ => RootIs P) r.cache) :
    Cache.All (fun _ => RootIs P) (r.readAt depth mode source).registry.cache ∧
      ∀ items, (r.readAt depth mode source).result = .ok items → ∀ a ∈ items, P a := by
  obtain ⟨o, v, reads⟩ :=
    ends r.toTables depth mode .whole (.start source.toList) { cache := r.cache }
  have keeps := reads.keeps closed (by simp [Task.Starts]) all
  rw [readAt_of_reads reads]
  exact ⟨keeps.cache, fun items found => keeps.found items (mapError_ok.mp found)⟩

/-- The formulas that are kept after operations are trees of every closed kind. -/
theorem Reached.rootIs (closed : Closed P) (h : r.Reached) :
    Cache.All (fun _ => RootIs P) r.cache :=
  h.cache_all_of (rootIs_get closed) fun r mode source all =>
    (keeps_readAt closed r 0 mode source all).1

/-- What is read after operations is of every closed kind. -/
theorem Reached.holds_readAt (closed : Closed P) (h : r.Reached) {depth : Nat} {mode : Mode}
    {source : String} {items : List (Atom Float32)}
    (found : (r.readAt depth mode source).result = .ok items) : ∀ a ∈ items, P a :=
  (keeps_readAt closed r depth mode source (h.rootIs closed)).2 items found

end Registry

end FormulaInk
