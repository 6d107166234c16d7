import Mathlib
import FormulaInk.Proofs.Ink.Affine
import FormulaInk.Proofs.Ink.Visits

/-! Painting somewhere else. A box that is painted at another point, with user space moved back by as
much, draws the same shapes on the device. Its parts are painted at other points likewise, a part
that is stretched excepted: it is painted at the origin of its own space either way. -/

namespace FormulaInk

variable {α : Type}

/-- A rectangle somewhere else. -/
def Rect.move [Add α] (r : Rect α) (dx dy : α) : Rect α := { r with x := r.x + dx, y := r.y + dy }

/-- A shape somewhere else. -/
def Shape.move [Add α] (dx dy : α) : Shape α → Shape α
  | fillRect r => fillRect (r.move dx dy)
  | drawRect r => drawRect (r.move dx dy)
  | fillRoundRect r a b => fillRoundRect (r.move dx dy) a b
  | drawRoundRect r a b => drawRoundRect (r.move dx dy) a b
  | line x₁ y₁ x₂ y₂ => line (x₁ + dx) (y₁ + dy) (x₂ + dx) (y₂ + dy)
  | fillArc r start extent => fillArc (r.move dx dy) start extent
  | drawArc r start extent => drawArc (r.move dx dy) start extent

/-- A reading of shapes as sets of points: those that a shape covers when it is drawn with a stroke.
All that is asked of it is that the points move with the shape. -/
structure Coverage (α : Type) [Add α] where
  covers : Shape α → Stroke α → Set (α × α)
  covers_move : ∀ shape stroke dx dy, covers (shape.move dx dy) stroke =
    (fun p : α × α => (p.1 + dx, p.2 + dy)) '' covers shape stroke

section

variable [AddCommGroup α]

/-- The ends of a line, or the corners of the rectangle that a shape is given by. -/
def Shape.corners : Shape α → List (α × α)
  | fillRect r | drawRect r | fillRoundRect r _ _ | drawRoundRect r _ _ | fillArc r _ _
  | drawArc r _ _ => [(r.x, r.y), (r.x + r.w, r.y), (r.x, r.y + r.h), (r.x + r.w, r.y + r.h)]
  | line x₁ y₁ x₂ y₂ => [(x₁, y₁), (x₂, y₂)]

theorem Shape.corners_move (shape : Shape α) (dx dy : α) :
    (shape.move dx dy).corners = shape.corners.map fun p => (p.1 + dx, p.2 + dy) := by
  cases shape <;> simp [move, corners, Rect.move, add_right_comm]

instance : Inhabited (Coverage α) where
  default :=
    { covers := fun shape _ => {p | p ∈ shape.corners}
      covers_move := fun shape _ dx dy => by
        ext p
        rw [shape.corners_move]
        simp }

end

variable [Turns α] [Field α] [LinearOrder α]

/-- The points on the device that a command covers. -/
def Coverage.onDevice (k : Coverage α) (c : Command α α) : Set (α × α) :=
  c.pen.transform.apply '' k.covers c.shape c.pen.stroke

/-- Two commands that draw shapes of one kind, with the same color and stroke, over the same points
of the device, in whichever way shapes are read as points. -/
structure Command.Coincide (c c' : Command α α) : Prop where
  kind : c.shape.name = c'.shape.name
  color : c.pen.color = c'.pen.color
  stroke : c.pen.stroke = c'.pen.stroke
  points : ∀ k : Coverage α, k.onDevice c = k.onDevice c'

/-- The pen in a user space that is moved back. -/
def Pen.displace (dx dy : α) (pen : Pen α α) : Pen α α :=
  { pen with transform := pen.transform.translate (-dx) (-dy) }

/-- The command that draws a moved shape in a user space that is moved back. -/
def Command.displace (dx dy : α) (c : Command α α) : Command α α :=
  ⟨c.shape.move dx dy, c.pen.displace dx dy⟩

theorem Command.coincide_displace (dx dy : α) (c : Command α α) :
    c.Coincide (c.displace dx dy) := by
  refine ⟨?_, rfl, rfl, ?_⟩
  · show c.shape.name = (c.shape.move dx dy).name
    cases c.shape <;> rfl
  · intro k
    show _ = (c.pen.transform.translate (-dx) (-dy)).apply '' k.covers (c.shape.move dx dy) c.pen.stroke
    rw [k.covers_move, Set.image_image]
    simp [Coverage.onDevice]

namespace Box

theorem area_move (o : Outline α) (x y dx dy : α) :
    area o (x + dx) (y + dy) = (area o x y).move dx dy := by
  simp only [area, Rect.move]
  congr 1
  ring

theorem frameArea_move (o : Outline α) (thickness x y dx dy : α) :
    frameArea o thickness (x + dx) (y + dy) = (frameArea o thickness x y).move dx dy := by
  simp only [frameArea, Rect.move]
  congr 1 <;> ring

theorem glyphShapes_move (o : Outline α) (shape : GlyphShape) (x y dx dy : α) :
    glyphShapes o shape (x + dx) (y + dy) = (glyphShapes o shape x y).map (Shape.move dx dy) := by
  cases shape with
  | plus | minus | times | equals | slash | bar =>
    simp only [glyphShapes, List.map_cons, List.map_nil, Shape.move, List.cons.injEq,
      Shape.line.injEq, and_true]
    and_intros <;> ring
  | dot | block =>
    simp only [glyphShapes, List.map_cons, List.map_nil, Shape.move, Shape.fillEllipse, Rect.move]
    congr 3 <;> ring

theorem ownShapes_move (b : Box α) (x y dx dy : α) :
    b.ownShapes (x + dx) (y + dy) = (b.ownShapes x y).map (Shape.move dx dy) := by
  cases b with
  | strut | horizontal | vertical | rotated | scaled => rfl
  | glyph o ch shape thickness =>
    simp only [ownShapes]
    split
    · rfl
    · exact glyphShapes_move o shape x y dx dy
  | rule o => exact congrArg (fun r => [Shape.fillRect r]) (area_move o x y dx dy)
  | radicalSign o thickness =>
    simp only [ownShapes, List.map_cons, List.map_nil, Shape.move, List.cons.injEq,
      Shape.line.injEq, and_true, true_and]
    and_intros <;> ring
  | framed o thickness space base =>
    exact congrArg (fun r => [Shape.drawRect r]) (frameArea_move o thickness x y dx dy)
  | oval o thickness space base =>
    simp only [ownShapes]
    rw [frameArea_move]
    rfl
  | circled o thickness base =>
    exact congrArg (fun r => [Shape.drawEllipse r]) (frameArea_move o thickness x y dx dy)

/-- The visit to the box at another point, with user space moved back. -/
def Visit.displace (dx dy : α) (v : Visit α α) : Visit α α :=
  ⟨v.box, v.x + dx, v.y + dy, v.pen.displace dx dy⟩

theorem Visit.displace_zero (v : Visit α α) : v.displace 0 0 = v := by
  obtain ⟨b, x, y, pen⟩ := v
  simp [displace, Pen.displace, Transform.translate_zero]

theorem Visit.fill_displace (dx dy : α) (v : Visit α α) :
    (v.displace dx dy).fill = v.fill.map (Command.displace dx dy) := by
  obtain ⟨b, x, y, pen⟩ := v
  simp only [fill, displace, area_move, List.map_map]
  rfl

theorem Visit.commands_displace (dx dy : α) (v : Visit α α) :
    (v.displace dx dy).commands = v.commands.map (Command.displace dx dy) := by
  rw [commands_eq, commands_eq, fill_displace, List.map_append]
  congr 1
  show (v.box.ownShapes (v.x + dx) (v.y + dy)).map _ = _
  rw [ownShapes_move, List.map_map, List.map_map]
  rfl

theorem rowVisits_displace (pen : Pen α α) (children : List (Box α)) (x y dx dy : α) :
    rowVisits (pen.displace dx dy) children (x + dx) (y + dy) =
      (rowVisits pen children x y).map (Visit.displace dx dy) := by
  induction children generalizing x with
  | nil => rfl
  | cons c rest ih =>
    rw [rowVisits, rowVisits, List.map_cons, ← ih, Visit.displace]
    congr 2
    · ring
    · ring

theorem stackVisits_displace (pen : Pen α α) (children : List (Box α)) (x y dx dy : α) :
    stackVisits (pen.displace dx dy) children (x + dx) (y + dy) =
      (stackVisits pen children x y).map (Visit.displace dx dy) := by
  induction children generalizing y with
  | nil => rfl
  | cons c rest ih =>
    rw [stackVisits, stackVisits, List.map_cons, ← ih, Visit.displace]
    congr 2
    · ring
    · ring
    · ring

/-- The parts of a displaced box are displaced: by as much, and those of a stretched box not at all. -/
theorem Visit.exists_inner_displace (dx dy : α) (v : Visit α α) :
    ∃ ex ey, (v.displace dx dy).inner = v.inner.map (Visit.displace ex ey) := by
  obtain ⟨b, x, y, pen⟩ := v
  cases b with
  | strut | glyph | rule | radicalSign => exact ⟨dx, dy, rfl⟩
  | horizontal o children breaks => exact ⟨dx, dy, rowVisits_displace (pen.inside o) children x y dx dy⟩
  | vertical o children =>
    refine ⟨dx, dy, ?_⟩
    have parts := stackVisits_displace (pen.inside o) children x (y - o.height) dx dy
    show stackVisits _ children (x + dx) (y + dy - o.height) = _
    rw [show y + dy - o.height = y - o.height + dy by ring]
    exact parts
  | framed o thickness space base | oval o thickness space base =>
    refine ⟨dx, dy, ?_⟩
    show [Visit.mk base (x + dx + thickness + space) (y + dy) _] =
      [Visit.mk base (x + thickness + space + dx) (y + dy) _]
    rw [show x + dx + thickness + space = x + thickness + space + dx by ring]
    rfl
  | circled o thickness base =>
    refine ⟨dx, dy, ?_⟩
    show [Visit.mk base (x + dx + _) (y + dy) _] = [Visit.mk base (x + _ + dx) (y + dy) _]
    rw [add_right_comm]
    rfl
  | rotated o radians offset base =>
    refine ⟨dx, dy, ?_⟩
    have turned := pen.transform.rotateAbout_translate radians (x + offset) y dx dy
    show [Visit.mk base (x + dx + offset) (y + dy) ⟨_, _,
      (pen.transform.translate (-dx) (-dy)).rotateAbout radians (x + dx + offset) (y + dy)⟩] = _
    rw [add_right_comm x dx offset, turned]
    rfl
  | scaled o sx sy base =>
    refine ⟨0, 0, ?_⟩
    have back (d : α) : (pen.transform.translate (-dx) (-dy)).translate (x + dx + d) (y + dy) =
        pen.transform.translate (x + d) y := by
      rw [Transform.translate_translate]
      congr 1 <;> ring
    simp only [inner, List.map_cons, List.map_nil, Visit.displace_zero]
    show [Visit.mk base _ _ ⟨_, _, Transform.scale
      ((pen.transform.translate (-dx) (-dy)).translate (x + dx + _) (y + dy)) sx sy⟩] = _
    rw [back]
    rfl

theorem forall₂_flatMap {β γ : Type} {R : γ → γ → Prop} {f g : β → List γ} {list : List β}
    (each : ∀ b ∈ list, List.Forall₂ R (f b) (g b)) :
    List.Forall₂ R (list.flatMap f) (list.flatMap g) := by
  induction list with
  | nil => exact .nil
  | cons b rest ih =>
    rw [List.flatMap_cons, List.flatMap_cons]
    apply List.rel_append
    · exact each b List.mem_cons_self
    · exact ih fun c later => each c (List.mem_cons_of_mem b later)

/-- A displaced visit draws the same on the device. -/
theorem Visit.coincide_displace (dx dy : α) (v : Visit α α) :
    List.Forall₂ Command.Coincide v.ink (v.displace dx dy).ink := by
  induction v using Visit.induction generalizing dx dy with
  | step v ih =>
    obtain ⟨ex, ey, parts⟩ := v.exists_inner_displace dx dy
    rw [Visit.ink_eq, Visit.ink_eq, commands_displace, parts, List.flatMap_map]
    apply List.rel_append
    · rw [List.forall₂_map_right_iff, List.forall₂_same]
      intro c _
      exact c.coincide_displace dx dy
    · exact forall₂_flatMap fun w inside => ih w inside ex ey

/-- Painting a box at a point draws what painting it at the origin draws after user space was moved
there: shapes of the same kinds, with the same colors and strokes, over the same points of the
device. -/
theorem paint_translate (b : Box α) (x y : α) (g : Recording α α) :
    ∃ drawn drawn', (b.paint x y g).commands = g.commands ++ drawn ∧
      (b.paint 0 0 (g.translate x y)).commands = g.commands ++ drawn' ∧
      List.Forall₂ Command.Coincide drawn' drawn := by
  let v : Visit α α := ⟨b, 0, 0, (g.translate x y).pen⟩
  have still : (g.pen.transform.translate x y).translate (-x) (-y) = g.pen.transform := by
    rw [Transform.translate_translate, add_neg_cancel, add_neg_cancel, Transform.translate_zero]
  have back : v.displace x y = ⟨b, x, y, g.pen⟩ := by
    show Visit.mk b (0 + x) (0 + y)
      { g.pen with transform := (g.pen.transform.translate x y).translate (-x) (-y) } = _
    rw [still, zero_add, zero_add]
  refine ⟨Visit.ink ⟨b, x, y, g.pen⟩, v.ink, ?_, ?_, ?_⟩
  · rw [paint_eq]
  · rw [paint_eq]
    rfl
  · rw [← back]
    exact v.coincide_displace x y

end Box

end FormulaInk
