import FormulaInk.Proofs.Ink.Layout

/-! Places in a row where the line may be broken. They take no part in the spacing: without them the
row has the same children and the same extent. The position that is kept of each of them is the
number of children that the items before it are laid out as. -/

namespace FormulaInk

/-- The indices of the children that a line may start with. -/
def Box.breaks {α : Type} : Box α → List Nat
  | horizontal _ _ breaks => breaks
  | _ => []

/-- Whether the item is a place to break the line. -/
def Atom.isBreakMark {α : Type} : Atom α → Bool
  | breakMark => true
  | _ => false

namespace Cell

variable {α : Type}

/-- Whether the item is a place to break the line. -/
def isBreakMark : Cell α → Bool
  | breakMark => true
  | neutral _ | solid .. => false

@[simp] theorem isBreakMark_breakMark : (breakMark : Cell α).isBreakMark = true := rfl

@[simp] theorem isBreakMark_neutral (box : Box α) : (neutral box).isBreakMark = false := rfl

@[simp] theorem isBreakMark_solid (left right : AtomClass) (grows : Bool) (box : Box α) :
    (solid left right grows box).isBreakMark = false := rfl

end Cell

namespace Row

section Positions

variable {α : Type}

theorem breaks_append (n : Nat) (pieces more : List (Piece α)) :
    breaks n (pieces ++ more) =
      breaks n pieces ++ breaks (n + (children pieces).length) more := by
  induction pieces generalizing n with
  | nil => rfl
  | cons piece rest ih =>
    cases piece with
    | breakPoint => simp [breaks, children, ih]
    | child grows box =>
      rw [List.cons_append, breaks, breaks, ih, children, List.length_cons, Nat.add_right_comm,
        Nat.add_assoc]

/-- Break points lie behind the children that are counted already and before the end. -/
theorem mem_breaks {n p : Nat} {pieces : List (Piece α)} (h : p ∈ breaks n pieces) :
    n ≤ p ∧ p ≤ n + (children pieces).length := by
  induction pieces generalizing n with
  | nil => cases h
  | cons piece rest ih =>
    cases piece with
    | breakPoint =>
      rcases List.mem_cons.mp h with rfl | later
      · exact ⟨Nat.le_refl _, Nat.le_add_right ..⟩
      · exact ih later
    | child grows box =>
      obtain ⟨behind, before⟩ := ih h
      rw [children, List.length_cons]
      omega

theorem pairwise_breaks (n : Nat) (pieces : List (Piece α)) : (breaks n pieces).Pairwise (· ≤ ·) := by
  induction pieces generalizing n with
  | nil => exact .nil
  | cons piece rest ih =>
    cases piece with
    | breakPoint => exact .cons (fun p later => (mem_breaks later).1) (ih n)
    | child grows box => exact ih (n + 1)

end Positions

variable {α : Type} [Scalar α] (style : Style) (mu : α)

@[simp] theorem length_stretch (boxes : List (Bool × Box α)) :
    (stretch boxes).length = boxes.length := by
  unfold stretch
  dsimp only
  split <;> simp

/-- The class that items show on their right, after an item that shows the class `previous`. -/
def classAfter (previous : Option AtomClass) : List (Cell α) → Option AtomClass
  | [] => previous
  | .breakMark :: rest | .neutral _ :: rest => classAfter previous rest
  | .solid left right _ _ :: rest =>
    classAfter (some (Glue.rightClassAfter (Glue.leftClassAfter previous left) right)) rest

/-- What items come to depends on the items before them only through the class that these show. -/
theorem pieces_append (previous : Option AtomClass) (front back : List (Cell α)) :
    pieces style mu previous (front ++ back) =
      pieces style mu previous front ++ pieces style mu (classAfter previous front) back := by
  induction front generalizing previous with
  | nil => rfl
  | cons cell rest ih => cases cell <;> simp [pieces, classAfter, ih]

theorem breaks_glue (n : Nat) (previous : Option AtomClass) (left : AtomClass) :
    breaks n (glue style mu previous left) = [] := by
  cases previous with
  | none => rfl
  | some previous =>
    unfold glue
    dsimp only
    split <;> rfl

theorem length_breaks_pieces (n : Nat) (previous : Option AtomClass) (cells : List (Cell α)) :
    (breaks n (pieces style mu previous cells)).length = cells.countP Cell.isBreakMark := by
  induction cells generalizing n previous with
  | nil => rfl
  | cons cell rest ih =>
    cases cell with
    | breakMark | neutral box => simp [pieces, breaks, List.countP_cons, ih]
    | solid left right grows box =>
      simp [pieces, breaks_append, breaks_glue, breaks, ih]

theorem children_pieces_filter (previous : Option AtomClass) (cells : List (Cell α)) :
    children (pieces style mu previous (cells.filter (!·.isBreakMark))) =
      children (pieces style mu previous cells) := by
  induction cells generalizing previous with
  | nil => rfl
  | cons cell rest ih =>
    cases cell <;> simp [pieces, children, children_append, ih]

end Row

namespace Atom

variable {α : Type}

theorem isBreakMark_cell (a : Atom α) (box : Box α) : (cell a box).isBreakMark = a.isBreakMark := by
  cases a with
  | breakMark => rfl
  | _ =>
    unfold cell
    dsimp only
    split <;> rfl

variable [Scalar α] (s : Setting α)

/-- The items of a row, each with its own box. -/
def cells (items : List (Atom α)) : List (Cell α) := items.map fun a => cell a (a.layout s).box

/-- The pieces that a row of items is put together from. -/
def pieces (items : List (Atom α)) : List (Piece α) :=
  Row.pieces s.style (Font.mu s.style) none (cells s items)

theorem layout_row (items : List (Atom α)) :
    ((row items).layout s).box = Row.ofPieces (pieces s items) := by
  rw [layout, layoutCells_eq_map]
  rfl

theorem length_children_row (items : List (Atom α)) :
    ((row items).layout s).box.children.length = (Row.children (pieces s items)).length := by
  rw [layout_row]
  exact Row.length_stretch _

theorem breaks_row (items : List (Atom α)) :
    ((row items).layout s).box.breaks = Row.breaks 0 (pieces s items) := by
  rw [layout_row]
  rfl

theorem pieces_append (front back : List (Atom α)) :
    pieces s (front ++ back) = pieces s front ++
      Row.pieces s.style (Font.mu s.style) (Row.classAfter none (cells s front)) (cells s back) := by
  rw [pieces, cells, List.map_append, Row.pieces_append]
  rfl

theorem children_pieces_filter (items : List (Atom α)) :
    Row.children (pieces s (items.filter (!·.isBreakMark))) = Row.children (pieces s items) := by
  have same : cells s (items.filter (!·.isBreakMark)) =
      (cells s items).filter (!·.isBreakMark) := by
    rw [cells, cells, List.filter_map]
    simp only [Function.comp_def, isBreakMark_cell]
  rw [pieces, same, Row.children_pieces_filter]
  rfl

theorem length_breaks_pieces (items : List (Atom α)) :
    (Row.breaks 0 (pieces s items)).length = items.countP isBreakMark := by
  rw [pieces, Row.length_breaks_pieces, cells, List.countP_map]
  simp only [Function.comp_def, isBreakMark_cell]

/-- Behind the positions of the items in front comes that of the place itself. -/
theorem breaks_pieces_append (front back : List (Atom α)) :
    ∃ later, Row.breaks 0 (pieces s (front ++ breakMark :: back)) =
      Row.breaks 0 (pieces s front) ++ (Row.children (pieces s front)).length :: later := by
  rw [pieces_append, Row.breaks_append, Nat.zero_add]
  exact ⟨_, rfl⟩

/-- Places to break the line are invisible to the spacing of a row, and point to where they stand.
Without them the row has the same children and the same outline. The position that is kept of the
one between `front` and `back`, behind those of the places in `front`, is the number of children that
`front` alone is laid out as. Each place has one position, the positions do not decrease, and none is
larger than the number of children. -/
theorem layout_row_breaks :
    (∀ items : List (Atom α),
      ((row items).layout s).box.children =
          ((row (items.filter (!·.isBreakMark))).layout s).box.children ∧
        ((row items).layout s).box.outline =
          ((row (items.filter (!·.isBreakMark))).layout s).box.outline) ∧
      (∀ front back : List (Atom α),
        ((row (front ++ breakMark :: back)).layout s).box.breaks[front.countP isBreakMark]? =
          some ((row front).layout s).box.children.length) ∧
      ∀ items : List (Atom α),
        let b := ((row items).layout s).box
        b.breaks.length = items.countP isBreakMark ∧ b.breaks.Pairwise (· ≤ ·) ∧
          ∀ position ∈ b.breaks, position ≤ b.children.length := by
  refine ⟨?_, ?_, ?_⟩
  · intro items
    rw [layout_row, layout_row, Row.ofPieces, Row.ofPieces, children_pieces_filter]
    exact ⟨rfl, rfl⟩
  · intro front back
    obtain ⟨later, split⟩ := breaks_pieces_append s front back
    rw [breaks_row, split, length_children_row, ← length_breaks_pieces s,
      List.getElem?_append_right (Nat.le_refl _), Nat.sub_self]
    rfl
  · intro items b
    rw [breaks_row, length_children_row]
    refine ⟨length_breaks_pieces s items, Row.pairwise_breaks 0 _, ?_⟩
    intro position mem
    have before := (Row.mem_breaks mem).2
    rwa [Nat.zero_add] at before

end Atom

end FormulaInk
