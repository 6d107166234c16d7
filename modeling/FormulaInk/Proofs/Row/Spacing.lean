import FormulaInk.Decimal.Binary
import FormulaInk.Proofs.Ink.Uncolored
import FormulaInk.Proofs.Row.Breaks

/-! The glue behind an item with fixed classes. What stands between it and the next item that is not
neutral is the glue of the class that it is fixed to show on its right, unless it is fixed to be
ordinary on its left and a binary operator on its right: then it is taken for an operator that had
nothing to operate on, and shows the class of an ordinary atom. -/

namespace FormulaInk

namespace Glue

theorem leavesOperatorAlone_iff (previous : AtomClass) :
    leavesOperatorAlone (some previous) = true ↔
      previous ∈ [.binaryOperator, .bigOperator, .relation, .opening, .punctuation] := by
  cases previous <;> decide

theorem leftClassAfter_of_ne (previous : Option AtomClass) {left : AtomClass}
    (other : left ≠ .binaryOperator) : leftClassAfter previous left = left :=
  if_neg fun operator => other operator.1

/-- The glue as children of a row: none if it has no width. -/
def kerns {α : Type} [Scalar α] (g : Glue) (s : Setting α) : List (Box α) :=
  let width : α := g.mu s.style
  if Scalar.whole 0 < width then [.kern (width * Font.mu s.style)] else []

end Glue

namespace Row

variable {α : Type} [Scalar α]

theorem children_glue (s : Setting α) (previous left : AtomClass) :
    children (glue s.style (Font.mu s.style) (some previous) left) =
      ((Glue.between previous left).kerns s).map (false, ·) := by
  unfold glue Glue.kerns
  dsimp only
  split <;> rfl

omit [Scalar α] in
theorem classAfter_append (previous : Option AtomClass) (front back : List (Cell α)) :
    classAfter previous (front ++ back) = classAfter (classAfter previous front) back := by
  induction front generalizing previous with
  | nil => rfl
  | cons cell rest ih => cases cell <;> simp [classAfter, ih]

/-- A child of a row of the given extent: it has that extent if it grows. -/
def grown (height depth : α) (child : Bool × Box α) : Box α :=
  if child.1 then grow height depth child.2 else child.2

/-- Stretching keeps every child in its place, and changes none but those that grow. -/
theorem exists_stretch (boxes : List (Bool × Box α)) :
    ∃ height depth, stretch boxes = boxes.map (grown height depth) := by
  unfold stretch
  dsimp only
  split
  · exact ⟨_, _, rfl⟩
  · next still =>
    refine ⟨Scalar.whole 0, Scalar.whole 0, List.map_congr_left fun child mem => ?_⟩
    exact (if_neg fun grows => still (List.any_eq_true.mpr ⟨child, mem, grows⟩)).symm

end Row

namespace Atom

variable {α : Type} [Scalar α] {s : Setting α}

/-- In the row of `front`, `item` and `back`, nothing but the given glue stands between the children
that `front` is laid out as and the box of the item, which may have grown to the height of the row. -/
def GlueBefore (s : Setting α) (front : List (Atom α)) (item : Atom α) (back : List (Atom α))
    (g : Glue) : Prop :=
  ∃ before after height depth, ((row (front ++ item :: back)).layout s).box.children =
      before ++ g.kerns s ++ Row.grown height depth (item.grows, (item.layout s).box) :: after ∧
    before.length = ((row front).layout s).box.children.length

/-- The glue before an item is that of the class that the items before it show. -/
theorem glueBefore_of_classAfter {front : List (Atom α)} {shown : AtomClass}
    (before : Row.classAfter none (cells s front) = some shown) {item : Atom α}
    (solid : item.isNeutral = false) (back : List (Atom α)) :
    GlueBefore s front item back
      (Glue.between shown (Glue.leftClassAfter (some shown) item.leftClass)) := by
  obtain ⟨later, split⟩ : ∃ later, Row.children (pieces s (front ++ item :: back)) =
      Row.children (pieces s front) ++
        (((Glue.between shown (Glue.leftClassAfter (some shown) item.leftClass)).kerns s).map
          (false, ·) ++ (item.grows, (item.layout s).box) :: later) := by
    rw [pieces_append, Row.children_append, before, cells, List.map_cons, cell_of_not_neutral solid,
      Row.pieces, Row.children_append, Row.children_glue]
    exact ⟨_, rfl⟩
  have children : ((row (front ++ item :: back)).layout s).box.children =
      Row.stretch (Row.children (pieces s (front ++ item :: back))) := by
    rw [layout_row]
    rfl
  obtain ⟨height, depth, stretched⟩ :=
    Row.exists_stretch (Row.children (pieces s (front ++ item :: back)))
  refine ⟨(Row.children (pieces s front)).map (Row.grown height depth),
    later.map (Row.grown height depth), height, depth, ?_, ?_⟩
  · rw [children, stretched, split]
    -- glue never grows
    simp [Row.grown, Function.comp_def]
  · rw [List.length_map, length_children_row]

theorem classAfter_cells_neutral (previous : Option AtomClass) {items : List (Atom α)}
    (neutral : ∀ a ∈ items, a.isNeutral) : Row.classAfter previous (cells s items) = previous := by
  induction items with
  | nil => rfl
  | cons a rest ih =>
    obtain ⟨first, later⟩ := List.forall_mem_cons.mp neutral
    have behind := ih later
    cases a with
    | empty | breakMark | space _ | strut _ _ _ => exact behind
    | _ => simp [isNeutral] at first

/-- An item with fixed classes shows the right one, but for one that is fixed to be ordinary and a
binary operator. -/
theorem classAfter_cells_typed {left : AtomClass} (other : left ≠ .binaryOperator)
    (right : AtomClass) (base : Atom α) (front : List (Atom α)) {between : List (Atom α)}
    (neutral : ∀ a ∈ between, a.isNeutral) :
    Row.classAfter none (cells s (front ++ typed left right base :: between)) =
      some (Glue.rightClassAfter left right) := by
  have item : cells s (typed left right base :: between) =
      .solid left right false (base.layout s).box :: cells s between := rfl
  rw [cells, List.map_append, ← cells, ← cells, item, Row.classAfter_append, Row.classAfter,
    Glue.leftClassAfter_of_ne _ other, classAfter_cells_neutral _ neutral]

/-- Fixed spacing classes are honoured. Behind an item that is fixed to be no binary operator on its
left, the glue before the next item that is not neutral is that of the class that the first is fixed
to show on its right and the class that the second shows behind it: its own left class, unless that
is a binary operator with nothing to operate on. If the first is fixed to be ordinary on its left and
a binary operator on its right, it shows the class of an ordinary atom instead. -/
theorem glueBefore_typed {left : AtomClass} (other : left ≠ .binaryOperator) (right : AtomClass)
    (base : Atom α) (front : List (Atom α)) {between : List (Atom α)}
    (neutral : ∀ a ∈ between, a.isNeutral) {item : Atom α} (solid : item.isNeutral = false)
    (back : List (Atom α)) (s : Setting α) :
    let shown := if left = .ordinary ∧ right = .binaryOperator then .ordinary else right
    let behind :=
      if item.leftClass = .binaryOperator ∧
          shown ∈ [.binaryOperator, .bigOperator, .relation, .opening, .punctuation] then
        .ordinary
      else item.leftClass
    GlueBefore s (front ++ typed left right base :: between) item back
      (Glue.between shown behind) := by
  have before := classAfter_cells_typed (s := s) other right base front neutral
  have glue := glueBefore_of_classAfter before solid back
  simp only [Glue.leftClassAfter, Glue.leavesOperatorAlone_iff] at glue
  exact glue

/-- A letter that is fixed to be a relation on its right, and a plus sign behind it, which has nothing
to operate on. -/
theorem glueBefore_typed_relation :
    let s : Setting Float32 :=
      { style := .display, font := { size := Scalar.whole 20 }, pixelsPerPoint := Scalar.whole 1 }
    let between : List (Atom Float32) := [.space .thin, .breakMark]
    let plus : Atom Float32 := .symbol "plus" '+' .binaryOperator
    AtomClass.closing ≠ .binaryOperator ∧ (∀ a ∈ between, a.isNeutral) ∧ plus.isNeutral = false ∧
      GlueBefore s ([.char 'a'] ++ typed .closing .relation (.char 'p') :: between) plus [.char 'b']
        .thick := by
  intro s between plus
  have other : AtomClass.closing ≠ .binaryOperator := by decide
  have neutral : ∀ a ∈ between, a.isNeutral := by simp [between, isNeutral]
  exact ⟨other, neutral, rfl,
    glueBefore_typed other .relation (.char 'p') [.char 'a'] neutral rfl [.char 'b'] s⟩

/-- An item that is fixed to be ordinary on its left and a binary operator on its right has no glue
behind it, as if it were fixed to be ordinary on both sides. -/
theorem not_glueBefore_typed :
    ¬∀ (left right : AtomClass) (base item : Atom Float32) (front between back : List (Atom Float32))
      (s : Setting Float32), left ≠ .binaryOperator → (∀ a ∈ between, a.isNeutral) →
        item.isNeutral = false →
          let behind :=
            if item.leftClass = .binaryOperator ∧
                right ∈ [.binaryOperator, .bigOperator, .relation, .opening, .punctuation] then
              .ordinary
            else item.leftClass
          GlueBefore s (front ++ typed left right base :: between) item back
            (Glue.between right behind) := by
  intro claim
  let s : Setting Float32 :=
    { style := .display, font := { size := Scalar.whole 20 }, pixelsPerPoint := Scalar.whole 1 }
  obtain ⟨before, after, height, depth, children, place⟩ :
      GlueBefore s [typed .ordinary .binaryOperator (.char 'p')] (.char 'q') [] .medium :=
    claim .ordinary .binaryOperator (.char 'p') (.char 'q') [] [] [] s (by decide) (by simp) rfl
  have first : ((row [typed .ordinary .binaryOperator (.char 'p')]).layout s).box.children.length =
      1 := by decide +kernel
  have both : ((row ([typed .ordinary .binaryOperator (.char 'p')] ++ [.char 'q'])).layout
      s).box.children.length = 2 := by decide +kernel
  have glue : (Glue.medium.kerns s).length = 1 := by decide +kernel
  have lengths := congrArg List.length children
  rw [both, List.length_append, List.length_append, List.length_cons, place, first, glue] at lengths
  omega

end Atom

end FormulaInk
