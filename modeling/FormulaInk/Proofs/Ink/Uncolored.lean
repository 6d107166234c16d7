import FormulaInk.Decimal.Binary
import FormulaInk.Proofs.Atom.Uncolored
import FormulaInk.Proofs.Ink.Layout

/-! Coloring moves nothing: the box of an atom, with its colors erased, is the box of the atom
without color nodes. Every operation on boxes reads the extents of its parts and none reads their
colors, so erasing goes through it. -/

namespace FormulaInk

/-- The outline without colors. -/
def Outline.uncolored {α : Type} (o : Outline α) : Outline α :=
  { o with foreground := none, background := none }

namespace Box

section Erasing

variable {α : Type}

mutual

/-- The box with the colors of every box in it erased. -/
def uncolored : Box α → Box α
  | strut o => strut o.uncolored
  | glyph o ch shape thickness => glyph o.uncolored ch shape thickness
  | rule o => rule o.uncolored
  | horizontal o children breaks => horizontal o.uncolored (allUncolored children) breaks
  | vertical o children => vertical o.uncolored (allUncolored children)
  | radicalSign o thickness => radicalSign o.uncolored thickness
  | framed o thickness space base => framed o.uncolored thickness space (uncolored base)
  | oval o thickness space base => oval o.uncolored thickness space (uncolored base)
  | circled o thickness base => circled o.uncolored thickness (uncolored base)
  | rotated o radians offset base => rotated o.uncolored radians offset (uncolored base)
  | scaled o x y base => scaled o.uncolored x y (uncolored base)

def allUncolored : List (Box α) → List (Box α)
  | [] => []
  | b :: rest => uncolored b :: allUncolored rest

end

@[simp] theorem allUncolored_eq_map (boxes : List (Box α)) :
    allUncolored boxes = boxes.map uncolored := by
  induction boxes with
  | nil => rfl
  | cons b rest ih => simp [allUncolored, ih]

@[simp] theorem outline_uncolored (b : Box α) : b.uncolored.outline = b.outline.uncolored := by
  cases b <;> rfl

@[simp] theorem width_uncolored (b : Box α) : b.uncolored.width = b.width := by
  simp [width, Outline.uncolored]

@[simp] theorem height_uncolored (b : Box α) : b.uncolored.height = b.height := by
  simp [height, Outline.uncolored]

@[simp] theorem depth_uncolored (b : Box α) : b.uncolored.depth = b.depth := by
  simp [depth, Outline.uncolored]

@[simp] theorem shift_uncolored (b : Box α) : b.uncolored.shift = b.shift := by
  simp [shift, Outline.uncolored]

@[simp] theorem uncolored_withOutline (o : Outline α) (b : Box α) :
    (b.withOutline o).uncolored = b.uncolored.withOutline o.uncolored := by
  cases b <;> rfl

@[simp] theorem uncolored_withShift (b : Box α) (shift : α) :
    (b.withShift shift).uncolored = b.uncolored.withShift shift := by
  simp [withShift, Outline.uncolored]

@[simp] theorem uncolored_colored (b : Box α) (foreground background : Option Color) :
    (b.colored foreground background).uncolored = b.uncolored := by
  cases b <;> rfl

end Erasing

section Building

attribute [local simp] uncolored

variable {α : Type} [Scalar α]

@[simp] theorem totalHeight_uncolored (b : Box α) : b.uncolored.totalHeight = b.totalHeight := by
  simp [totalHeight]

@[simp] theorem ascent_uncolored (b : Box α) : b.uncolored.ascent = b.ascent := by simp [ascent]

@[simp] theorem descent_uncolored (b : Box α) : b.uncolored.descent = b.descent := by simp [descent]

@[simp] theorem uncolored_plain (width height depth : α) :
    (plain width height depth).uncolored = plain width height depth := rfl

@[simp] theorem uncolored_space (width height depth : α) :
    (space width height depth).uncolored = space width height depth := rfl

@[simp] theorem uncolored_kern (width : α) : (kern width).uncolored = kern width := rfl

@[simp] theorem uncolored_nothing : (nothing : Box α).uncolored = nothing := rfl

@[simp] theorem uncolored_bar (width height depth : α) :
    (bar width height depth).uncolored = bar width height depth := rfl

@[simp] theorem uncolored_radical (width height depth thickness : α) :
    (radical width height depth thickness).uncolored = radical width height depth thickness := rfl

@[simp] theorem uncolored_row (children : List (Box α)) (breaks : List Nat) :
    (row children breaks).uncolored = row (children.map uncolored) breaks := by
  simp [row, Function.comp_def]

@[simp] theorem uncolored_hbox (children : List (Box α)) :
    (hbox children).uncolored = hbox (children.map uncolored) := uncolored_row children []

@[simp] theorem uncolored_stack (children : List (Box α)) (height : α) :
    (stack children height).uncolored = stack (children.map uncolored) height := by
  simp [stack, Function.comp_def]

@[simp] theorem uncolored_frame (base : Box α) (thickness space : α) :
    (base.frame thickness space).uncolored = base.uncolored.frame thickness space := by
  simp [frame, padded]

@[simp] theorem uncolored_ovalFrame (base : Box α) (thickness space : α) :
    (base.ovalFrame thickness space).uncolored = base.uncolored.ovalFrame thickness space := by
  simp [ovalFrame, padded]

@[simp] theorem uncolored_circle (base : Box α) (thickness space : α) :
    (base.circle thickness space).uncolored = base.uncolored.circle thickness space := by
  simp [circle]

@[simp] theorem uncolored_rotate (base : Box α) (degrees : α) :
    (base.rotate degrees).uncolored = base.uncolored.rotate degrees := by
  simp [rotate]

@[simp] theorem uncolored_scale (base : Box α) (x y : α) :
    (base.scale x y).uncolored = base.uncolored.scale x y := by
  unfold scale
  dsimp only
  split <;> simp

@[simp] theorem uncolored_aligned (inner : Box α) (width : α) (align : Alignment) :
    (inner.aligned width align).uncolored = inner.uncolored.aligned width align := by
  unfold aligned
  simp only [width_uncolored]
  split
  · simp
  · cases align <;> simp

end Building

end Box

section Rows

variable {α : Type}

def Cell.uncolored : Cell α → Cell α
  | .breakMark => .breakMark
  | .neutral box => .neutral box.uncolored
  | .solid left right grows box => .solid left right grows box.uncolored

def Piece.uncolored : Piece α → Piece α
  | .breakPoint => .breakPoint
  | .child grows box => .child grows box.uncolored

namespace Row

theorem children_map_uncolored (pieces : List (Piece α)) :
    children (pieces.map Piece.uncolored) =
      (children pieces).map fun child => (child.1, child.2.uncolored) := by
  induction pieces with
  | nil => rfl
  | cons piece rest ih => cases piece <;> simp [children, Piece.uncolored, ih]

theorem breaks_map_uncolored (n : Nat) (pieces : List (Piece α)) :
    breaks n (pieces.map Piece.uncolored) = breaks n pieces := by
  induction pieces generalizing n with
  | nil => rfl
  | cons piece rest ih => cases piece <;> simp [breaks, Piece.uncolored, ih]

variable [Scalar α]

theorem map_uncolored_glue (style : Style) (mu : α) (previous : Option AtomClass)
    (left : AtomClass) :
    (glue style mu previous left).map Piece.uncolored = glue style mu previous left := by
  cases previous with
  | none => rfl
  | some previous =>
    unfold glue
    dsimp only
    split <;> rfl

theorem pieces_map_uncolored (style : Style) (mu : α) (previous : Option AtomClass)
    (cells : List (Cell α)) :
    pieces style mu previous (cells.map Cell.uncolored) =
      (pieces style mu previous cells).map Piece.uncolored := by
  induction cells generalizing previous with
  | nil => rfl
  | cons cell rest ih =>
    cases cell with
    | breakMark | neutral box => simp [pieces, Cell.uncolored, Piece.uncolored, ih]
    | solid left right grows box =>
      simp [pieces, Cell.uncolored, Piece.uncolored, map_uncolored_glue, ih]

@[simp] theorem uncolored_grow (height depth : α) (b : Box α) :
    (grow height depth b).uncolored = grow height depth b.uncolored := by
  cases b <;> rfl

/-- What grows does so to the extent of the others, which their colors have no part in. -/
theorem stretch_map_uncolored (boxes : List (Bool × Box α)) :
    stretch (boxes.map fun child => (child.1, child.2.uncolored)) =
      (stretch boxes).map Box.uncolored := by
  have some_grows : (boxes.map fun child => (child.1, child.2.uncolored)).any (·.1) =
      boxes.any (·.1) := by
    simp [List.any_map, Function.comp_def]
  have others : (boxes.map fun child => (child.1, child.2.uncolored)).filter (!·.1) =
      (boxes.filter (!·.1)).map fun child => (child.1, child.2.uncolored) := by
    simp [List.filter_map, Function.comp_def]
  unfold stretch
  rw [some_grows, others]
  split
  · simp only [List.map_map, Function.comp_def, Box.ascent_uncolored, Box.descent_uncolored]
    apply List.map_congr_left
    rintro ⟨grows, box⟩ -
    cases grows <;> simp
  · simp [Function.comp_def]

@[simp] theorem uncolored_ofCells (style : Style) (mu : α) (cells : List (Cell α)) :
    (ofCells style mu cells).uncolored = ofCells style mu (cells.map Cell.uncolored) := by
  rw [ofCells, ofCells, ofPieces, ofPieces, Box.uncolored_row, pieces_map_uncolored,
    children_map_uncolored, breaks_map_uncolored, stretch_map_uncolored]

end Row

end Rows

namespace Layout

variable {α : Type} [Scalar α] (s : Setting α)

@[simp] theorem uncolored_glyph (ch : Char) : (glyph s ch).uncolored = glyph s ch := rfl

@[simp] theorem uncolored_bigOperator (b : Box α) :
    (bigOperator s b).uncolored = bigOperator s b.uncolored := by
  unfold bigOperator
  dsimp only
  split <;> simp [← Box.uncolored_scale]

@[simp] theorem uncolored_centered (b : Box α) :
    (centered s b).uncolored = centered s b.uncolored := by
  simp [centered]

@[simp] theorem uncolored_fraction (num den : Box α) :
    (fraction s num den).uncolored = fraction s num.uncolored den.uncolored := by
  simp [fraction, fractionStack, numRaise, denDrop, gapAbove, gapBelow]

@[simp] theorem uncolored_scripts (base : Box α) (sup sub : Option (Box α)) :
    (scripts s base sup sub).uncolored =
      scripts s base.uncolored (sup.map Box.uncolored) (sub.map Box.uncolored) := by
  cases sup <;> cases sub <;> simp [scripts, scriptStack, supRaise, subDrop]

@[simp] theorem uncolored_root (index : Option (Box α)) (base : Box α) :
    (root s index base).uncolored = root s (index.map Box.uncolored) base.uncolored := by
  cases index <;> simp [root]

theorem map_uncolored_lineParts (gap width : α) (align : Alignment) (boxes : List (Box α)) :
    (lineParts gap width align boxes).map Box.uncolored =
      lineParts gap width align (boxes.map Box.uncolored) := by
  induction boxes with
  | nil => rfl
  | cons line rest ih =>
    cases rest with
    | nil => simp [lineParts]
    | cons next rest => simpa [lineParts] using ih

@[simp] theorem uncolored_lines (align : Alignment) (boxes : List (Box α)) :
    (lines s align boxes).uncolored = lines s align (boxes.map Box.uncolored) := by
  simp [lines, map_uncolored_lineParts, Function.comp_def]

end Layout

namespace Atom

variable {α : Type}

theorem uncolored_cell (a : Atom α) (box : Box α) :
    (cell a box).uncolored = cell a box.uncolored := by
  cases a with
  | breakMark => rfl
  | _ =>
    unfold cell
    dsimp only
    split <;> rfl

theorem cell_of_not_neutral {a : Atom α} (h : a.isNeutral = false) (box : Box α) :
    cell a box = .solid a.leftClass a.rightClass a.grows box := by
  cases a <;> first | rfl | simp [isNeutral] at h

/-- A row takes an item on which color stands on something solid for what it is without color. -/
theorem cell_uncolored {b : Atom α} (solid : b.isColor → b.uncolored.IsSolid)
    (inner : b.ColorsSolid) (box : Box α) : cell b.uncolored box = cell b box := by
  obtain ⟨left, right⟩ := inner.classes
  cases h : b.isNeutral with
  | true =>
    cases b with
    | empty | breakMark | space _ | strut _ _ _ => rfl
    | _ => simp [isNeutral] at h
  | false =>
    have neutral : b.uncolored.isNeutral = false := (isNeutral_uncolored solid).trans h
    rw [cell_of_not_neutral neutral, cell_of_not_neutral h, left, right, grows_uncolored solid]

variable [Scalar α]

/-- Coloring moves nothing: in every setting, the box of an atom with its colors erased is the box
of the atom without its color nodes, as long as no row has an item in color that is space, a place
for a break or a delimiter that grows. -/
theorem uncolored_layout {a : Atom α} (solid : a.ColorsSolid) (s : Setting α) :
    (a.layout s).box.uncolored = (a.uncolored.layout s).box := by
  induction a using Atom.induction generalizing s with
  | step a ih =>
    -- the induction is for all settings, as a part may stand in another than the whole
    have part : ∀ b ∈ a.parts, ∀ s : Setting α,
        (b.layout s).box.uncolored = (b.uncolored.layout s).box :=
      fun b hb => ih b hb (solid.part hb)
    have optional : ∀ (s : Setting α) {o : Option (Atom α)}, (∀ b ∈ o, b ∈ a.parts) →
        (layoutSome s o).1.map Box.uncolored = (layoutSome s (o.map uncolored)).1 := by
      intro s o within
      cases o with
      | none => rfl
      | some b => exact congrArg some (part b (within b rfl) s)
    cases a with
    | row items =>
      have cells : ∀ b ∈ items, (cell b (b.layout s).box).uncolored =
          cell b.uncolored (b.uncolored.layout s).box := by
        intro b hb
        rw [uncolored_cell, part b hb s, cell_uncolored (solid.item hb) (solid.part hb)]
      simp only [layout, uncolored, uncoloredAll_eq_map, Row.uncolored_ofCells, layoutCells_eq_map,
        List.map_map]
      exact congrArg _ (List.map_congr_left cells)
    | lines rows align =>
      simp only [layout, uncolored, uncoloredAll_eq_map, Layout.uncolored_lines, layoutAll_eq_map,
        List.map_map]
      exact congrArg _ (List.map_congr_left fun b hb => part b hb s)
    | color background foreground base =>
      simpa [layout, uncolored] using part base (List.mem_singleton_self _) s
    | symbol name ch kind =>
      by_cases h : kind = .bigOperator <;> simp [layout, uncolored, Laid.plain, h]
    | fraction num den =>
      have hnum := part num (by simp [parts]) s.num
      have hden := part den (by simp [parts]) s.denom
      simp [layout, uncolored, Laid.map₂, hnum, hden]
    | scripts base sup sub =>
      have hsup := optional s.sup (o := sup) fun b hb => by simp_all [parts]
      have hsub := optional s.sub (o := sub) fun b hb => by simp_all [parts]
      simp [layout, uncolored, part base (by simp [parts]), hsup, hsub]
    | sqrt index base =>
      have hindex := optional s.root (o := index) fun b hb => by simp_all [parts]
      simp [layout, uncolored, part base (by simp [parts]), hindex]
    | typed | styled => simp [layout, uncolored, part _ (List.mem_singleton_self _)]
    | vCentered | framed | oval | circled | rotated | scaled =>
      simp [layout, uncolored, Laid.map, part _ (List.mem_singleton_self _)]
    | _ => simp [layout, uncolored, Laid.plain, Function.comp_def]

/-- A binary operator in color, and a row in color with a delimiter that grows. -/
theorem uncolored_layout_operator :
    let a : Atom Float32 :=
      .row [.char 'x', .color (some .white) (some .red) (.symbol "plus" '+' .binaryOperator),
        .color none (some .blue) (.row [.space .thin, .middle '|', .color none none (.char 'y')])]
    a.ColorsSolid ∧ ∀ s : Setting Float32, (a.layout s).box.uncolored =
      ((row [.char 'x', .symbol "plus" '+' .binaryOperator,
        .row [.space .thin, .middle '|', .char 'y']]).layout s).box := by
  intro a
  have solid : a.ColorsSolid := by
    intro items within b hb colored
    simp only [a, nodes_eq, parts, List.flatMap_cons, List.flatMap_nil, List.append_nil,
      List.cons_append, List.nil_append, List.mem_cons, row.injEq, reduceCtorEq, false_or, or_false,
      List.not_mem_nil] at within
    rcases within with rfl | rfl
    · simp only [List.mem_cons, List.not_mem_nil, or_false] at hb
      rcases hb with rfl | rfl | rfl
      · simp [isColor] at colored
      · exact ⟨rfl, rfl⟩
      · exact ⟨rfl, rfl⟩
    · simp only [List.mem_cons, List.not_mem_nil, or_false] at hb
      rcases hb with rfl | rfl | rfl
      · simp [isColor] at colored
      · simp [isColor] at colored
      · exact ⟨rfl, rfl⟩
  exact ⟨solid, fun s => uncolored_layout solid s⟩

/-- Not so where space is in color: the row takes it for an ordinary item, and gives the operator
after it glue on both sides. -/
theorem not_uncolored_layout :
    ¬∀ (a : Atom Float32) (s : Setting Float32),
      (a.layout s).box.uncolored = (a.uncolored.layout s).box := by
  intro same
  have boxes := same
    (.row [.color none (some .red) (.space .thin), .symbol "plus" '+' .binaryOperator, .char 'b'])
    { style := .display, font := { size := Scalar.whole 20 }
      pixelsPerPoint := Scalar.whole 1 }
  have lengths := congrArg (fun b : Box Float32 => b.children.length) boxes
  revert lengths
  decide +kernel

end Atom

end FormulaInk
