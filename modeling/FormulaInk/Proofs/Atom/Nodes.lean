import FormulaInk.Layout
import FormulaInk.Proofs.Atom.Families

/-! The nodes of an atom tree. What a formula keeps beside its tree, and what the layout tells about
colors, is read off the same nodes. -/

namespace FormulaInk

namespace Atom

variable {α : Type}

/-- The atoms of a tree, each before its parts and these in order. -/
def nodes (a : Atom α) : List (Atom α) := a :: a.parts.attach.flatMap fun b => b.1.nodes
termination_by sizeOf a
decreasing_by exact sizeOf_lt_of_mem_parts b.2

theorem nodes_eq (a : Atom α) : a.nodes = a :: a.parts.flatMap nodes := by
  rw [nodes, List.flatMap_subtype (g := nodes) fun _ _ => rfl, List.unattach_attach]

/-- What holds of all nodes holds of the root and of all nodes of its parts. -/
theorem forall_nodes_iff {P : Atom α → Prop} {a : Atom α} :
    (∀ n ∈ a.nodes, P n) ↔ P a ∧ ∀ b ∈ a.parts, ∀ n ∈ b.nodes, P n := by
  rw [nodes_eq, List.forall_mem_cons, List.forall_mem_flatMap]

def isColor : Atom α → Bool
  | color .. => true
  | _ => false

def delimiter? : Atom α → Option Char
  | middle delimiter => some delimiter
  | _ => none

theorem middles_eq_parts (a : Atom α) :
    a.middles = a.delimiter?.toList ++ a.parts.flatMap middles := by
  cases a with
  | row items | lines items _ => simp [middles, delimiter?, parts, allMiddles_eq_flatMap]
  | scripts base sup sub =>
    cases sup <;> cases sub <;> simp [middles, someMiddles, delimiter?, parts]
  | sqrt index base => cases index <;> simp [middles, someMiddles, delimiter?, parts]
  | _ => simp [middles, delimiter?, parts]

theorem hasColor_eq_parts (a : Atom α) : a.hasColor = (a.isColor || a.parts.any hasColor) := by
  cases a with
  | row items | lines items _ => simp [hasColor, isColor, parts, anyColor_eq_any]
  | scripts base sup sub =>
    cases sup <;> cases sub <;> simp [hasColor, someColor, isColor, parts, Bool.or_assoc]
  | sqrt index base => cases index <;> simp [hasColor, someColor, isColor, parts]
  | _ => simp [hasColor, isColor, parts]

/-- The middle delimiters of a tree are those of its nodes, in order. -/
theorem middles_eq_nodes (a : Atom α) : a.middles = a.nodes.filterMap delimiter? := by
  induction a using Atom.induction with
  | step a ih =>
    have below : a.parts.flatMap middles = (a.parts.flatMap nodes).filterMap delimiter? := by
      rw [List.filterMap_flatMap, List.flatMap_def, List.flatMap_def]
      exact congrArg _ (List.map_congr_left ih)
    rw [middles_eq_parts, nodes_eq, below]
    cases h : a.delimiter? <;> simp [h]

/-- A tree has color when one of its nodes is a color node. -/
theorem hasColor_eq_nodes (a : Atom α) : a.hasColor = a.nodes.any isColor := by
  induction a using Atom.induction with
  | step a ih =>
    have below : a.parts.any hasColor = (a.parts.flatMap nodes).any isColor := by
      rw [List.any_flatMap, Bool.eq_iff_iff, List.any_eq_true, List.any_eq_true]
      exact exists_congr fun b => and_congr_right fun hb => by rw [ih b hb]
    rw [hasColor_eq_parts, nodes_eq, below, List.any_cons]

variable [Scalar α]

theorem colored_layoutCells (s : Setting α) (items : List (Atom α)) :
    (layoutCells s items).2 = items.any fun a => (a.layout s).colored := by
  induction items with
  | nil => rfl
  | cons a rest ih => rw [layoutCells, List.any_cons, ← ih]

theorem colored_layoutAll (s : Setting α) (items : List (Atom α)) :
    (layoutAll s items).2 = items.any fun a => (a.layout s).colored := by
  induction items with
  | nil => rfl
  | cons a rest ih => rw [layoutAll, List.any_cons, ← ih]

/-- The layout meets a color where the tree has one, in every setting. -/
theorem colored_layout (s : Setting α) (a : Atom α) : (a.layout s).colored = a.hasColor := by
  induction a using Atom.induction generalizing s with
  | step a ih =>
    have items : ∀ {items : List (Atom α)}, (∀ b ∈ items, b ∈ a.parts) →
        (items.any fun b => (b.layout s).colored) = anyColor items := by
      intro items within
      rw [anyColor_eq_any, Bool.eq_iff_iff, List.any_eq_true, List.any_eq_true]
      exact exists_congr fun b => and_congr_right fun hb => by rw [ih b (within b hb) s]
    have optional : ∀ (s : Setting α) {o : Option (Atom α)}, (∀ b ∈ o, b ∈ a.parts) →
        (layoutSome s o).2 = someColor o := by
      intro s o within
      cases o with
      | none => rfl
      | some b => exact ih b (within b rfl) s
    cases a with
    | row inner =>
      rw [layout, hasColor]
      exact (colored_layoutCells s inner).trans (items fun b hb => hb)
    | lines rows align =>
      rw [layout, hasColor]
      exact (colored_layoutAll s rows).trans (items fun b hb => hb)
    | fraction num den =>
      have hnum := ih num (by simp [parts]) s.num
      have hden := ih den (by simp [parts]) s.denom
      simp [layout, Laid.map₂, hasColor, hnum, hden]
    | scripts base sup sub =>
      have hsup := optional s.sup (o := sup) fun b hb => by simp_all [parts]
      have hsub := optional s.sub (o := sub) fun b hb => by simp_all [parts]
      simp [layout, hasColor, ih base (by simp [parts]), hsup, hsub]
    | sqrt index base =>
      have hindex := optional s.root (o := index) fun b hb => by simp_all [parts]
      simp [layout, hasColor, ih base (by simp [parts]), hindex]
    | color => simp [layout, hasColor]
    | typed | styled => simp [layout, hasColor, ih _ (List.mem_singleton_self _)]
    | vCentered | framed | oval | circled | rotated | scaled =>
      simp [layout, Laid.map, hasColor, ih _ (List.mem_singleton_self _)]
    | _ => simp [layout, Laid.plain, hasColor]

end Atom

end FormulaInk
