import Mathlib
import FormulaInk.Proofs.Reading.Closed

/-! The normal form of what is read. Rows have two items or more, scripts are set on something that
has none, and a place to break the line stands only where the items of a formula are put in a row:
behind an operator or a relation. It is never an item that is read by itself, so that no group, no
script and no command gets hold of one. -/

namespace FormulaInk

namespace Atom

/-- Every place to break the line stands right behind an item that the line may be broken after. -/
def MarksBehind (items : List (Atom Float32)) : Prop :=
  ∀ before after, items = before ++ .breakMark :: after →
    ∃ front a, before = front ++ [a] ∧ Formula.Breakable a

/-- The form of one node. -/
structure Regular (a : Atom Float32) : Prop where
  row : ∀ items, a = .row items → 2 ≤ items.length ∧ MarksBehind items
  scripts : ∀ base sup sub, a = .scripts base sup sub →
    (sup ≠ none ∨ sub ≠ none) ∧ ∀ base' sup' sub', base ≠ .scripts base' sup' sub'
  marks : .breakMark ∈ a.parts → ∃ items, a = .row items

/-- A tree whose nodes all have the form, and that is not a place to break the line itself. -/
structure IsNormal (a : Atom Float32) : Prop where
  ne_breakMark : a ≠ .breakMark
  nodes : ∀ n ∈ a.nodes, n.Regular

namespace MarksBehind

variable {xs ys items : List (Atom Float32)}

theorem of_none (h : .breakMark ∉ items) : MarksBehind items := by
  rintro before after rfl
  exact absurd (by simp) h

theorem append (hx : MarksBehind xs) (hy : MarksBehind ys) : MarksBehind (xs ++ ys) := by
  intro before after same
  obtain ⟨middle, rfl, rest⟩ | ⟨middle, rfl, rest⟩ := List.append_eq_append_iff.mp same
  · -- the mark is in the second list
    obtain ⟨front, a, rfl, breakable⟩ := hy middle after rest
    exact ⟨xs ++ front, a, by simp, breakable⟩
  · cases middle with
    | nil =>
      obtain ⟨front, a, none, -⟩ := hy [] after (by simpa using rest.symm)
      simp at none
    | cons first middle =>
      obtain ⟨rfl, -⟩ := List.cons.inj rest
      exact hx before middle rfl

theorem marked {a : Atom Float32} (h : a ≠ .breakMark) : MarksBehind (Formula.marked a) := by
  unfold Formula.marked
  split
  · rename_i breakable
    intro before after same
    match before with
    | [] => exact absurd (List.cons.inj same).1 h
    | [b] =>
      obtain ⟨rfl, -⟩ := List.cons.inj same
      exact ⟨[], a, rfl, breakable⟩
    | b :: c :: before => simp at same
  · exact .of_none (by simpa using h.symm)

theorem flatMap_marked (h : ∀ a ∈ items, a ≠ .breakMark) :
    MarksBehind (items.flatMap Formula.marked) := by
  induction items with
  | nil => exact .of_none (by simp)
  | cons a rest ih =>
    rw [List.flatMap_cons]
    exact (MarksBehind.marked (h a (by simp))).append (ih fun b hb => h b (by simp [hb]))

end MarksBehind

theorem regular_breakMark : Regular .breakMark where
  row _ same := by cases same
  scripts _ _ _ same := by cases same
  marks inside := by simp [parts] at inside

/-- An atom that is neither a row nor has scripts, without a break right below it. -/
theorem Regular.of_other {a : Atom Float32} (row : ∀ items, a ≠ .row items)
    (scripts : ∀ base sup sub, a ≠ .scripts base sup sub) (marks : .breakMark ∉ a.parts) :
    a.Regular where
  row items same := absurd same (row items)
  scripts base sup sub same := absurd same (scripts base sup sub)
  marks inside := absurd inside marks

namespace IsNormal

variable {a b : Atom Float32} {items : List (Atom Float32)}

theorem of_parts (self : a.Regular) (ne : a ≠ .breakMark)
    (parts : ∀ b ∈ a.parts, b = .breakMark ∨ b.IsNormal) : a.IsNormal := by
  refine ⟨ne, forall_nodes_iff.mpr ⟨self, fun b hb => ?_⟩⟩
  obtain rfl | normal := parts b hb
  · exact forall_nodes_iff.mpr ⟨regular_breakMark, by simp [Atom.parts]⟩
  · exact normal.nodes

theorem self (h : a.IsNormal) : a.Regular := (forall_nodes_iff.mp h.nodes).1

theorem part (h : a.IsNormal) (hb : b ∈ a.parts) (ne : b ≠ .breakMark) : b.IsNormal :=
  ⟨ne, (forall_nodes_iff.mp h.nodes).2 b hb⟩

/-- Only rows have breaks right below them. -/
theorem part_of_ne_row (h : a.IsNormal) (ne : ∀ items, a ≠ .row items) (hb : b ∈ a.parts) :
    b.IsNormal := by
  refine h.part hb ?_
  rintro rfl
  obtain ⟨items, same⟩ := h.self.marks hb
  exact ne items same

theorem leaf (parts : a.parts = []) (ne : a ≠ .breakMark) (row : ∀ items, a ≠ .row items) :
    a.IsNormal := by
  refine of_parts (.of_other row ?_ (by simp [parts])) ne (by simp [parts])
  rintro base sup sub rfl
  simp [Atom.parts] at parts

theorem row (all : ∀ a ∈ items, a = .breakMark ∨ a.IsNormal) (two : 2 ≤ items.length)
    (marks : MarksBehind items) : (Atom.row items).IsNormal := by
  refine of_parts ⟨fun items' same => ?_, by simp, fun _ => ⟨_, rfl⟩⟩ (by simp) all
  obtain rfl := Atom.row.inj same
  exact ⟨two, marks⟩

theorem scripts {base : Atom Float32} {sup sub : Option (Atom Float32)} (hbase : base.IsNormal)
    (plain : ∀ base' sup' sub', base ≠ .scripts base' sup' sub') (hsup : ∀ a ∈ sup, a.IsNormal)
    (hsub : ∀ a ∈ sub, a.IsNormal) (some : sup ≠ none ∨ sub ≠ none) :
    (Atom.scripts base sup sub).IsNormal := by
  have parts : ∀ b ∈ (Atom.scripts base sup sub).parts, b.IsNormal := by
    intro b hb
    simp only [Atom.parts, List.mem_cons, List.mem_append, Option.mem_toList] at hb
    obtain rfl | hb | hb := hb
    · exact hbase
    · exact hsup b hb
    · exact hsub b hb
  refine of_parts ⟨by simp, fun base' sup' sub' same => ?_, fun inside => ?_⟩ (by simp)
    fun b hb => .inr (parts b hb)
  · obtain ⟨rfl, rfl, rfl⟩ := Atom.scripts.inj same
    exact ⟨some, plain⟩
  · exact absurd rfl (parts _ inside).ne_breakMark

/-- A script is set on scripts that are there, or on an atom without any. -/
theorem attachScript {superscript : Bool} {script : Atom Float32} (all : ∀ a ∈ items, a.IsNormal)
    (hscript : script.IsNormal) :
    ∀ a ∈ Source.attachScript superscript script items, a.IsNormal := by
  have one : ∀ a ∈ some script, a.IsNormal := by simpa using hscript
  have absent : ∀ a ∈ (none : Option (Atom Float32)), a.IsNormal := by simp
  unfold Source.attachScript
  split
  · rename_i base sup sub rest
    have head := all (.scripts base sup sub) (by simp)
    have part {b : Atom Float32} := head.part_of_ne_row (b := b) (by simp)
    have hbase : base.IsNormal := part (by simp [Atom.parts])
    have hsup : ∀ a ∈ sup, a.IsNormal := fun a ha => part (by simp_all [Atom.parts])
    have hsub : ∀ a ∈ sub, a.IsNormal := fun a ha => part (by simp_all [Atom.parts])
    have plain := (head.self.scripts base sup sub rfl).2
    refine List.forall_mem_cons.mpr ⟨?_, fun a ha => all a (by simp [ha])⟩
    split
    · exact .scripts hbase plain one hsub (by simp)
    · exact .scripts hbase plain hsup one (by simp)
  · rename_i base rest plain
    have hbase : base.IsNormal := all base (by simp)
    refine List.forall_mem_cons.mpr ⟨?_, fun a ha => all a (by simp [ha])⟩
    split
    · exact .scripts hbase plain one absent (by simp)
    · exact .scripts hbase plain absent one (by simp)
  · have hbase : (Atom.empty : Atom Float32).IsNormal := leaf rfl (by simp) (by simp)
    refine List.forall_mem_singleton.mpr ?_
    split
    · exact .scripts hbase (by simp) one absent (by simp)
    · exact .scripts hbase (by simp) absent one (by simp)

/-- The items of a tree that others are added to. -/
theorem items_of_root (h : a.IsNormal) :
    (∀ b ∈ Formula.items a, b = .breakMark ∨ b.IsNormal) ∧ MarksBehind (Formula.items a) ∧
      1 ≤ (Formula.items a).length := by
  by_cases row : ∃ items, a = .row items
  · obtain ⟨items, rfl⟩ := row
    obtain ⟨two, marks⟩ := h.self.row items rfl
    exact ⟨fun b hb => (Classical.em _).imp_right (h.part hb), marks, Nat.le_of_succ_le two⟩
  · have single : Formula.items a = [a] := by
      unfold Formula.items
      split
      · exact absurd ⟨_, rfl⟩ row
      · rfl
    rw [single]
    refine ⟨by simpa using .inr h, .of_none ?_, by simp⟩
    simpa using h.ne_breakMark.symm

/-- Where a formula puts its atoms in a row, it adds the breaks itself. -/
theorem root {root : Atom Float32} (all : ∀ a ∈ items, a.IsNormal)
    (known : (Formula.empty.addAll items).root = some root) : root.IsNormal := by
  obtain rfl | ⟨first, rest, more, rfl, rfl⟩ := Formula.root_of_addAll known
  · exact all root (by simp)
  obtain ⟨front, marks, one⟩ := (all first (by simp)).items_of_root
  have others : ∀ a ∈ rest, a.IsNormal := fun a ha => all a (List.mem_cons_of_mem _ ha)
  refine row (fun b hb => ?_) ?_
    (marks.append (.flatMap_marked fun a ha => (others a ha).ne_breakMark))
  · obtain hb | hb := List.mem_append.mp hb
    · exact front b hb
    · obtain ⟨a, ha, hb⟩ := List.mem_flatMap.mp hb
      obtain rfl | rfl := Formula.mem_marked hb
      · exact .inr (others b ha)
      · exact .inl rfl
  · obtain ⟨b, hb⟩ := List.exists_mem_of_ne_nil rest more
    have added : 1 ≤ (rest.flatMap Formula.marked).length :=
      List.length_pos_of_mem (List.mem_flatMap.mpr ⟨b, hb, Formula.self_mem_marked b⟩)
    rw [List.length_append]
    omega

theorem closed : Source.Closed IsNormal where
  empty := leaf rfl (by simp) (by simp)
  char _ := leaf rfl (by simp) (by simp)
  symbol _ _ _ := leaf rfl (by simp) (by simp)
  space _ := leaf rfl (by simp) (by simp)
  row all two := by
    refine row (fun a ha => .inr (all a ha)) two (.of_none fun inside => ?_)
    exact absurd rfl (all _ inside).ne_breakMark
  script := attachScript
  built h := by
    refine of_parts (.of_other h.ne_row h.ne_scripts fun inside => ?_) h.ne_breakMark
      fun b hb => .inr (h.parts b hb)
    exact absurd rfl (h.parts _ inside).ne_breakMark
  formula all known := root all known

end IsNormal

end Atom

namespace Registry

/-- What is read is in normal form, at every depth and in both modes, whatever was registered, read
or kept before. Every row has two items or more; scripts have one script or two, and their base has
none; and a place to break the line stands only among the items of a row, right behind one that is
no row and ends as a binary operator or as a relation. -/
theorem readAt_normal {r : Registry} (h : r.Reached) {depth : Nat} {mode : Source.Mode}
    {source : String} {items : List (Atom Float32)}
    (found : (r.readAt depth mode source).result = .ok items) : ∀ a ∈ items, a.IsNormal :=
  h.holds_readAt Atom.IsNormal.closed found

/-- A predefined formula with an operator, read leniently for a second time, with a script behind
it. -/
theorem readAt_normal_kept :
    let r := ((empty.addSymbol "plus" '+' .binaryOperator).call (.register "x" "a\\plus b")).call
      (.get "x")
    let items : List (Atom Float32) :=
      [.scripts (.row [.char 'a', .symbol "plus" '+' .binaryOperator, .breakMark, .char 'b'])
        (some (.char '2')) none, .empty]
    r.Reached ∧ (r.readAt 0 .lenient "\\x^2\x7d").result = .ok items ∧
      ∀ a ∈ items, a.IsNormal := by
  intro r items
  have reached : r.Reached := .call _ (.call _ (.addSymbol _ _ _ .empty))
  have found : (r.readAt 0 .lenient "\\x^2\x7d").result = .ok items := by cbv
  exact ⟨reached, found, readAt_normal reached found⟩

end Registry

end FormulaInk
