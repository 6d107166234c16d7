import FormulaInk.Layout
import FormulaInk.Proofs.Atom.Parts
import FormulaInk.Proofs.Ink.Probe

/-! The box of an atom has the characters of the atom as its glyphs, each under the foreground of
the nearest color node around it, and in the order of the layout: a numerator before its
denominator, a base before its superscript and that before the subscript, the index of a radical
before what is under it, a text from left to right, lines from top to bottom. -/

namespace FormulaInk

namespace Atom

variable {α : Type}

mutual

/-- The characters of an atom in the order of the layout. -/
def ink : Atom α → List Char
  | char ch | symbol _ ch _ | middle ch => [ch]
  | text run _ => run.toList
  | row items | lines items _ => allInk items
  | typed _ _ base | color _ _ base | styled _ base | vCentered base | framed base | oval base
  | circled base | rotated _ base | scaled _ _ base => base.ink
  | fraction num den => num.ink ++ den.ink
  | scripts base sup sub => base.ink ++ someInk sup ++ someInk sub
  | sqrt index base => someInk index ++ base.ink
  | empty | space _ | strut .. | breakMark => []

def allInk : List (Atom α) → List Char
  | [] => []
  | a :: rest => a.ink ++ allInk rest

def someInk : Option (Atom α) → List Char
  | none => []
  | some a => a.ink

end

@[simp] theorem allInk_eq_flatMap (items : List (Atom α)) : allInk items = items.flatMap ink := by
  induction items with
  | nil => rfl
  | cons a rest ih => simp [allInk, ih]

mutual

/-- The characters of an atom in the order of the layout, each with the foreground of the innermost
color node around it that has one, and with `c` if there is none. -/
def shades (c : Color) : Atom α → List (Color × Char)
  | char ch | symbol _ ch _ | middle ch => [(c, ch)]
  | text run _ => run.toList.map (c, ·)
  | row items | lines items _ => allShades c items
  | color _ foreground base => base.shades (foreground.getD c)
  | typed _ _ base | styled _ base | vCentered base | framed base | oval base | circled base
  | rotated _ base | scaled _ _ base => base.shades c
  | fraction num den => num.shades c ++ den.shades c
  | scripts base sup sub => base.shades c ++ someShades c sup ++ someShades c sub
  | sqrt index base => someShades c index ++ base.shades c
  | empty | space _ | strut .. | breakMark => []

def allShades (c : Color) : List (Atom α) → List (Color × Char)
  | [] => []
  | a :: rest => a.shades c ++ allShades c rest

def someShades (c : Color) : Option (Atom α) → List (Color × Char)
  | none => []
  | some a => a.shades c

end

@[simp] theorem allShades_eq_flatMap (c : Color) (items : List (Atom α)) :
    allShades c items = items.flatMap (shades c) := by
  induction items with
  | nil => rfl
  | cons a rest ih => simp [allShades, ih]

mutual

/-- The shades of an atom are those of its characters. -/
theorem map_shades (c : Color) (a : Atom α) : (a.shades c).map Prod.snd = a.ink := by
  match a with
  | empty | breakMark | space _ | strut .. | char _ | middle _ | symbol .. => rfl
  | text run _ => simp [shades, ink, Function.comp_def]
  | row items | lines items _ => exact map_allShades c items
  | color _ foreground base => exact map_shades (foreground.getD c) base
  | typed _ _ base | styled _ base | vCentered base | framed base | oval base | circled base
  | rotated _ base | scaled _ _ base => exact map_shades c base
  | fraction num den => rw [shades, List.map_append, map_shades c num, map_shades c den, ink]
  | scripts base sup sub =>
    rw [shades, List.map_append, List.map_append, map_shades c base, map_someShades c sup,
      map_someShades c sub, ink]
  | sqrt index base =>
    rw [shades, List.map_append, map_someShades c index, map_shades c base, ink]

theorem map_allShades (c : Color) (items : List (Atom α)) :
    (allShades c items).map Prod.snd = allInk items := by
  match items with
  | [] => rfl
  | a :: rest => rw [allShades, List.map_append, map_shades c a, map_allShades c rest, allInk]

theorem map_someShades (c : Color) (part : Option (Atom α)) :
    (someShades c part).map Prod.snd = someInk part := by
  match part with
  | none => rfl
  | some a => exact map_shades c a

end

end Atom

section Rows

variable {α β : Type} (p : Probe β) (c : Color)

/-- What a probe reads off the box of an item. A place for a break has no box. -/
def Cell.gather : Cell α → List β
  | .breakMark => []
  | .neutral box | .solid _ _ _ box => box.gather p c

namespace Row

theorem children_append (pieces more : List (Piece α)) :
    children (pieces ++ more) = children pieces ++ children more := by
  induction pieces with
  | nil => rfl
  | cons piece rest ih => cases piece <;> simp [children, ih]

variable [Scalar α]

/-- Glue is space. -/
theorem gather_glue (style : Style) (mu : α) (previous : Option AtomClass) (left : AtomClass) :
    (children (glue style mu previous left)).flatMap (·.2.gather p c) = [] := by
  cases previous with
  | none => rfl
  | some previous =>
    unfold glue
    dsimp only
    split <;> simp [children]

theorem gather_pieces (style : Style) (mu : α) (previous : Option AtomClass)
    (cells : List (Cell α)) :
    (children (pieces style mu previous cells)).flatMap (·.2.gather p c) =
      cells.flatMap (Cell.gather p c) := by
  induction cells generalizing previous with
  | nil => rfl
  | cons cell rest ih =>
    cases cell with
    | breakMark => simp [pieces, children, Cell.gather, ih]
    | neutral box => simp [pieces, children, Cell.gather, ih]
    | solid left right grows box =>
      simp [pieces, children_append, children, gather_glue, Cell.gather, ih]

@[simp] theorem gather_grow (height depth : α) (b : Box α) :
    (grow height depth b).gather p c = b.gather p c := by
  cases b <;> rfl

/-- Growing changes extents only. -/
theorem gather_stretch (boxes : List (Bool × Box α)) :
    (stretch boxes).flatMap (Box.gather p c) = boxes.flatMap (·.2.gather p c) := by
  unfold stretch
  dsimp only
  split
  · rw [List.flatMap_map]
    congr 1
    funext ⟨grows, box⟩
    cases grows <;> simp
  · rw [List.flatMap_map]

@[simp] theorem gather_ofCells (style : Style) (mu : α) (cells : List (Cell α)) :
    (ofCells style mu cells).gather p c = cells.flatMap (Cell.gather p c) := by
  rw [ofCells, ofPieces, Box.gather_row, gather_stretch, gather_pieces]

end Row

end Rows

namespace Layout

variable {α β : Type} [Scalar α] (p : Probe β) (c : Color) (s : Setting α)

@[simp] theorem gather_glyph (ch : Char) : (glyph s ch).gather p c = p.seeChar (c, ch) :=
  Box.gather_ofChar p c ch _ _ _ _

@[simp] theorem gather_bigOperator (b : Box α) : (bigOperator s b).gather p c = b.gather p c := by
  unfold bigOperator
  dsimp only
  split <;> simp

@[simp] theorem gather_centered (b : Box α) : (centered s b).gather p c = b.gather p c := by
  simp [centered]

@[simp] theorem gather_fraction (num den : Box α) :
    (fraction s num den).gather p c = num.gather p c ++ den.gather p c := by
  simp [fraction, fractionStack]

@[simp] theorem gather_scripts (base : Box α) (sup sub : Option (Box α)) :
    (scripts s base sup sub).gather p c =
      base.gather p c ++ sup.toList.flatMap (Box.gather p c) ++
        sub.toList.flatMap (Box.gather p c) := by
  cases sup <;> cases sub <;> simp [scripts, scriptStack]

@[simp] theorem gather_root (index : Option (Box α)) (base : Box α) :
    (root s index base).gather p c =
      index.toList.flatMap (Box.gather p c) ++ base.gather p c := by
  cases index <;> simp [root]

theorem gather_lineParts (gap width : α) (align : Alignment) (boxes : List (Box α)) :
    (lineParts gap width align boxes).flatMap (Box.gather p c) =
      boxes.flatMap (Box.gather p c) := by
  induction boxes with
  | nil => rfl
  | cons line rest ih =>
    cases rest with
    | nil => simp [lineParts]
    | cons next rest => simp [lineParts, ih]

@[simp] theorem gather_lines (align : Alignment) (boxes : List (Box α)) :
    (lines s align boxes).gather p c = boxes.flatMap (Box.gather p c) := by
  rw [lines, Box.gather_stack, gather_lineParts]

end Layout

namespace Atom

variable {α β : Type} [Scalar α]

theorem gather_cell (p : Probe β) (c : Color) (s : Setting α) (a : Atom α) :
    (cell a (a.layout s).box).gather p c = (a.layout s).box.gather p c := by
  cases a with
  | breakMark => simp [cell, layout, Laid.plain, Cell.gather]
  | _ =>
    unfold cell
    dsimp only
    split <;> rfl

theorem layoutCells_eq_map (s : Setting α) (items : List (Atom α)) :
    (layoutCells s items).1 = items.map fun a => cell a (a.layout s).box := by
  induction items with
  | nil => rfl
  | cons a rest ih => rw [layoutCells, List.map_cons, ← ih]

theorem layoutAll_eq_map (s : Setting α) (items : List (Atom α)) :
    (layoutAll s items).1 = items.map fun a => (a.layout s).box := by
  induction items with
  | nil => rfl
  | cons a rest ih => rw [layoutAll, List.map_cons, ← ih]

/-- A probe sees in the box of an atom the characters of the atom in their shades, and nothing else.
Where there are color nodes, it must be one for which it is the same whether a foreground is that of
a box or comes to it. -/
theorem gather_layout (p : Probe β) (a : Atom α) (tints : a.hasColor = true → p.Tints)
    (s : Setting α) (c : Color) :
    (a.layout s).box.gather p c = (a.shades c).flatMap p.seeChar := by
  induction a using Atom.induction generalizing s c with
  | step a ih =>
    -- the induction is for all settings and colors, as a part may stand in others than the whole
    have part : ∀ b ∈ a.parts, ∀ (s : Setting α) (c : Color),
        (b.layout s).box.gather p c = (b.shades c).flatMap p.seeChar := fun b hb =>
      ih b hb fun colored => tints (hasColor_of_mem_parts hb colored)
    have items : ∀ {items : List (Atom α)}, (∀ b ∈ items, b ∈ a.parts) →
        items.flatMap (fun b => (b.layout s).box.gather p c) =
          (allShades c items).flatMap p.seeChar := by
      intro items within
      rw [allShades_eq_flatMap, List.flatMap_assoc, List.flatMap_def, List.flatMap_def]
      exact congrArg _ (List.map_congr_left fun b hb => part b (within b hb) s c)
    have optional : ∀ (s : Setting α) {o : Option (Atom α)}, (∀ b ∈ o, b ∈ a.parts) →
        (layoutSome s o).1.toList.flatMap (Box.gather p c) =
          (someShades c o).flatMap p.seeChar := by
      intro s o within
      cases o with
      | none => rfl
      | some b => simpa [layoutSome, someShades] using part b (within b rfl) s c
    cases a with
    | empty | breakMark | space _ | strut _ _ _ => simp [layout, Laid.plain, shades]
    | char ch | middle ch => simp [layout, Laid.plain, shades]
    | symbol name ch kind =>
      by_cases h : kind = .bigOperator <;> simp [layout, Laid.plain, shades, h]
    | text run font => simp [layout, Laid.plain, shades, List.flatMap_map]
    | row inner =>
      simp only [layout, shades, Row.gather_ofCells, layoutCells_eq_map, List.flatMap_map,
        gather_cell]
      exact items fun b hb => hb
    | lines rows align =>
      simp only [layout, shades, Layout.gather_lines, layoutAll_eq_map, List.flatMap_map]
      exact items fun b hb => hb
    | color background foreground base =>
      have inner := part base (List.mem_singleton_self _) s (foreground.getD c)
      simpa only [layout, shades, Box.gather_colored (tints rfl)] using inner
    | fraction num den =>
      have hnum := part num (by simp [parts])
      have hden := part den (by simp [parts])
      simp [layout, Laid.map₂, shades, hnum, hden]
    | scripts base sup sub =>
      have hsup := optional s.sup (o := sup) fun b hb => by simp_all [parts]
      have hsub := optional s.sub (o := sub) fun b hb => by simp_all [parts]
      simp [layout, shades, part base (by simp [parts]), hsup, hsub]
    | sqrt index base =>
      have hindex := optional s.root (o := index) fun b hb => by simp_all [parts]
      simp [layout, shades, part base (by simp [parts]), hindex]
    | typed | styled => simp [layout, shades, part _ (List.mem_singleton_self _)]
    | vCentered | framed | oval | circled | rotated | scaled =>
      simp [layout, Laid.map, shades, part _ (List.mem_singleton_self _)]

/-- Layout keeps every character of an atom, once and in order, in every setting. -/
theorem glyphs_layout (a : Atom α) (s : Setting α) : (a.layout s).box.glyphs = a.ink := by
  rw [Box.glyphs_eq_gather .black, gather_layout .chars a (fun _ => Probe.tints_chars),
    ← map_shades .black a]
  exact List.map_eq_flatMap.symm

end Atom

end FormulaInk
